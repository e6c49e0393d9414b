/-
# The disk

Directories and files, as far as indexes and stores depend on them. A file holds bytes, or the
whole content of a generation, which the engine always writes at once. A file can also be locked
by one holder at a time; the lock belongs to the file, not to its name, so a file of the same name
that is made later is not locked.

Everything that changes the disk is a list of steps. They are done in order up to the first one
that fails. What was done before it stays done, which is also what is found after a crash.

Key definitions: `Path`, `Node`, `Disk`, `DiskStep`, `DiskStep.run`, `Disk.runAll`, `DiskM`,
`perform`.
-/
import Codebook.Generation

namespace Codebook

/-- The names on the way from the top to a directory or file. -/
abbrev Path := List String

/-- What is found at a path. -/
inductive Node where
  /-- A directory. -/
  | directory
  /-- A file with its bytes, and who has locked it. -/
  | file (bytes : List UInt8) (holder : Option Nat)
  /-- A file with the content of a generation. -/
  | generation (g : Generation)
deriving DecidableEq, Repr

/-- The directories and files, each path once. The top is always there. -/
structure Disk where
  /-- What is found below the top. -/
  nodes : List (Path × Node) := []
  /-- The number of holders of locks so far. -/
  holders : Nat := 0
deriving DecidableEq, Repr

/-- The directory in which a path lies. -/
def Path.parent (p : Path) : Path :=
  p.dropLast

/-- A path as text. -/
def Path.toText (p : Path) : String :=
  "/".intercalate p

/-- The directories on the way to a path, from the top, and the path itself. -/
def Path.stations (p : Path) : List Path :=
  (List.range (p.length + 1)).map p.take

namespace Disk

/-- What is found at a path. -/
def node? (d : Disk) (p : Path) : Option Node :=
  if p = [] then some .directory else d.nodes.lookup p

/-- Whether there is anything at a path. -/
def contains (d : Disk) (p : Path) : Bool :=
  (d.node? p).isSome

/-- Whether there is a directory at a path. -/
def isDirectory (d : Disk) (p : Path) : Bool :=
  d.node? p = some .directory

/-- Puts a node at a path. -/
def insert (d : Disk) (p : Path) (n : Node) : Disk :=
  { d with nodes := (p, n) :: d.nodes.filter fun (q, _) => q != p }

/-- Removes what is found at a path and below. -/
def erase (d : Disk) (p : Path) : Disk :=
  { d with nodes := d.nodes.filter fun (q, _) => !p.isPrefixOf q }

/-- The names in a directory with what they name. -/
def children (d : Disk) (p : Path) : List (String × Node) :=
  d.nodes.filterMap fun (q, n) =>
    match q.getLast? with
    | some name => if q.dropLast = p then some (name, n) else none
    | none => none

/-- The names in a directory with what they name, in the order of the names. -/
def entries (d : Disk) (p : Path) : List (String × Node) :=
  (d.children p).mergeSort fun a b => !decide (b.1 < a.1)

/-- The names in a directory in order, if there is such a directory. -/
def names? (d : Disk) (p : Path) : Option (List String) :=
  if d.isDirectory p then some ((d.entries p).map (·.1)) else none

/-- The bytes of a file. -/
def bytes? (d : Disk) (p : Path) : Option (List UInt8) :=
  match d.node? p with
  | some (.file bytes _) => some bytes
  | _ => none

/-- The bytes of a file as text. -/
def text? (d : Disk) (p : Path) : Option String :=
  (d.bytes? p).bind fun bytes => String.fromUTF8? ⟨bytes.toArray⟩

/-- Makes a directory and those in which it lies. None of them may be a file. -/
def makeDirectories (d : Disk) (p : Path) : Option Disk :=
  p.stations.foldlM
    (fun d q => match d.node? q with
      | none => some (d.insert q .directory)
      | some .directory => some d
      | some _ => none)
    d

end Disk

/-- One step that changes the disk. -/
inductive DiskStep where
  /-- Makes a directory and those in which it lies. -/
  | makeDirectory (path : Path)
  /-- Removes a directory and all in it. -/
  | removeDirectory (path : Path)
  /-- Removes a file. -/
  | removeFile (path : Path)
  /-- Writes the whole of a file. -/
  | write (path : Path) (bytes : List UInt8)
  /-- Gives a file another name, in place of the file that had it. -/
  | rename (source target : Path)
  /-- Makes sure that what was done to a file or directory survives a crash. -/
  | sync (path : Path)
  /-- Writes the content of a generation. -/
  | publish (path : Path) (g : Generation)
  /-- Locks a file, which is made if it is not there. -/
  | lock (path : Path) (holder : Nat)
  /-- Lets a locked file go. -/
  | unlock (path : Path) (holder : Nat)
deriving Repr

namespace DiskStep

/-- Puts a file in a directory, in place of the file that may be there. -/
def place (d : Disk) (path : Path) (n : Node) : Option Disk :=
  if d.isDirectory path.parent && !d.isDirectory path then some (d.insert path n) else none

/-- The disk after a step, or nothing if the step fails. -/
def run (d : Disk) : DiskStep → Option Disk
  | makeDirectory path => d.makeDirectories path
  | removeDirectory path => if d.isDirectory path then some (d.erase path) else none
  | removeFile path =>
    if d.contains path && !d.isDirectory path then some (d.erase path) else none
  | write path bytes =>
    match d.node? path with
    | some (.file _ holder) => place d path (.file bytes holder)
    | _ => place d path (.file bytes none)
  | rename source target =>
    match d.node? source with
    | none | some .directory => none
    | some n => place (d.erase source) target n
  | sync path => if d.contains path then some d else none
  | publish path g => place d path (.generation g)
  | lock path holder =>
    match d.node? path with
    | some (.file bytes none) => place d path (.file bytes (some holder))
    | none => place d path (.file [] (some holder))
    | _ => none
  | unlock path holder =>
    match d.node? path with
    | some (.file bytes (some h)) =>
      if h = holder then place d path (.file bytes none) else some d
    | _ => some d

end DiskStep

namespace Disk

/-- Does steps up to the first that fails: whether all were done, and the disk as they leave it. -/
def runAll (d : Disk) : List DiskStep → Bool × Disk
  | [] => (true, d)
  | step :: steps =>
    match step.run d with
    | some d => runAll d steps
    | none => (false, d)

end Disk

/-- Work on the disk that may fail. What was done before a failure stays done. -/
abbrev DiskM (ε : Type) := ExceptT ε (StateM Disk)

/-- Does steps, or fails. -/
def perform {ε : Type} (failure : ε) (steps : List DiskStep) : DiskM ε Unit := do
  let (done, d) := (← get).runAll steps
  set d
  if !done then throw failure

end Codebook
