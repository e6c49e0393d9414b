/-
# The directory of an index

An index has a directory of its own, with one directory for each generation and a pointer to the
generation that is live. A rebuild fills a new generation and then turns the pointer, which is
written beside and renamed, so that at every moment it names a complete generation. Generations
that the pointer does not name were left over by an interrupted rebuild.

Key definitions: `IndexDirectory`, `IndexDirectory.open`, `IndexDirectory.generations`,
`IndexDirectory.create`, `IndexDirectory.swap`, `IndexDirectory.remove`, `IndexDirectory.sweep`,
`IndexDirectory.clearStaleLock`.
-/
import Codebook.Disk
import Codebook.Text.Split

namespace Codebook

/-- The directory of an index. -/
structure IndexDirectory where
  /-- Where it is. -/
  path : Path
  /-- The name of the index. -/
  name : String
  /-- The number of the live generation. -/
  current : Nat
deriving DecidableEq, Repr

namespace IndexDirectory

/-- The name of a generation. -/
def generationName (n : Nat) : String :=
  "gen-" ++ Number.padded 6 n

/-- The number of a generation, from its name. -/
def generationNumber? (name : String) : Option Nat :=
  (Text.dropStart "gen-".toList name.toList).bind fun digits =>
    Number.readUnsigned (String.ofList digits)

/-- The name of the pointer to the live generation. -/
def pointerName : String := "CURRENT"

/-- The name under which the pointer is written first. -/
def draftName : String := "CURRENT.tmp"

/-- The name of the file with the content of a generation. -/
def contentName : String := "meta.json"

/-- The name of the file that a writer locks. -/
def lockName : String := ".tantivy-writer.lock"

/-- The directory of a generation. -/
def generationPath (d : IndexDirectory) (n : Nat) : Path :=
  d.path ++ [generationName n]

/-- The directory of the live generation. -/
def currentPath (d : IndexDirectory) : Path :=
  d.generationPath d.current

/-- Puts a number in its place among numbers in order. -/
def insertNumber (n : Nat) : List Nat → List Nat
  | [] => [n]
  | m :: ms => if n ≤ m then n :: m :: ms else m :: insertNumber n ms

/-- The numbers of the generations on a disk, the least first. -/
def generations (d : IndexDirectory) (disk : Disk) : List Nat :=
  ((disk.children d.path).filterMap fun (name, node) =>
    if node = .directory then generationNumber? name else none).foldr insertNumber []

/-- Reads the pointer, if there is one. -/
def readPointer (path : Path) (name : String) (disk : Disk) : Except IndexError (Option Nat) :=
  match disk.node? (path ++ [pointerName]) with
  | none => .ok none
  | some _ =>
    match disk.text? (path ++ [pointerName]) with
    | none => .error .io
    | some s =>
      match generationNumber? (Text.trim s) with
      | some n => .ok (some n)
      | none => .error (.configuration name s!"malformed CURRENT pointer '{Text.trim s}'")

/-- The steps that turn the pointer to a generation. -/
def pointerSteps (path : Path) (n : Nat) : List DiskStep :=
  [.write (path ++ [draftName]) (generationName n ++ "\n").toUTF8.toList,
    .sync (path ++ [draftName]),
    .rename (path ++ [draftName]) (path ++ [pointerName]),
    .sync path]

/-- The steps that make the first generation. -/
def firstSteps (path : Path) : List DiskStep :=
  .makeDirectory (path ++ [generationName 1]) :: pointerSteps path 1

/-- The number of the live generation. Without a pointer a first generation is made. -/
def findCurrent (path : Path) (name : String) : DiskM IndexError Nat := do
  match ← readPointer path name (← get) with
  | some n => return n
  | none =>
    perform .io (firstSteps path)
    return 1

/-- Opens the directory of an index, or makes it. -/
def «open» (root : Path) (name : String) : DiskM IndexError IndexDirectory := do
  let path := root ++ [name]
  perform .io [.makeDirectory path]
  let current ← findCurrent path name
  let d := { path, name, current }
  perform .io [.makeDirectory d.currentPath]
  return d

/-- The number of the next generation. -/
def nextNumber (d : IndexDirectory) (disk : Disk) : Nat :=
  max ((d.generations disk).getLast?.getD 0) d.current + 1

/-- The steps that make an empty generation. What has its name is removed. -/
def createSteps (d : IndexDirectory) (disk : Disk) : List DiskStep :=
  let path := d.generationPath (d.nextNumber disk)
  (if disk.contains path then [.removeDirectory path] else []) ++
    [.makeDirectory path, .sync d.path]

/-- The disk, on which the directory has to be there still. -/
def presentDisk (d : IndexDirectory) : DiskM IndexError Disk := do
  let disk ← get
  if disk.isDirectory d.path then return disk else throw .io

/-- Makes an empty generation, numbered after all others. -/
def create (d : IndexDirectory) : DiskM IndexError Nat := do
  let disk ← d.presentDisk
  perform .io (d.createSteps disk)
  return d.nextNumber disk

/-- Makes a generation live. -/
def swap (d : IndexDirectory) (n : Nat) : DiskM IndexError IndexDirectory := do
  if !(← get).isDirectory (d.generationPath n) then
    throw (.configuration d.name s!"generation {n} does not exist")
  perform .io (pointerSteps d.path n)
  return { d with current := n }

/-- The steps that remove a generation. -/
def removeSteps (d : IndexDirectory) (n : Nat) (disk : Disk) : List DiskStep :=
  let path := d.generationPath n
  if disk.contains path then [.removeDirectory path, .sync d.path] else []

/-- Removes a generation, which must not be the live one. -/
def remove (d : IndexDirectory) (n : Nat) : DiskM IndexError Unit := do
  if n = d.current then
    throw (.configuration d.name s!"cannot remove live generation {n}")
  perform .io (d.removeSteps n (← get))

/-- The generations that are not live. -/
def orphans (d : IndexDirectory) (disk : Disk) : List Nat :=
  (d.generations disk).filter fun n => n != d.current

/-- The steps that remove the generations that are not live. -/
def sweepSteps (d : IndexDirectory) (disk : Disk) : List DiskStep :=
  let removals := (d.orphans disk).map fun n => .removeDirectory (d.generationPath n)
  if removals.isEmpty then [] else removals ++ [.sync d.path]

/-- Removes the generations that are not live; the answer is how many there were. -/
def sweep (d : IndexDirectory) : DiskM IndexError Nat := do
  let disk ← d.presentDisk
  perform .io (d.sweepSteps disk)
  return (d.orphans disk).length

/-- Removes the lock that a writer of a generation left over, and tells whether there was one. A
lock that somebody holds is not left over. -/
def clearStaleLock (d : IndexDirectory) (generation : Path) : DiskM IndexError Bool := do
  let path := generation ++ [lockName]
  match (← get).node? path with
  | none => return false
  | some (.file _ none) =>
    perform .io [.removeFile path]
    return true
  | some (.file _ (some _)) =>
    throw (.writeConflict d.name ("writer lock " ++ "/".intercalate path ++ " is held"))
  | some _ => throw .io

end IndexDirectory

end Codebook
