/-
# Stores in files

A file holds one entity on each line, as text; blank lines are passed over, and of two entities
with one primary key the later counts. The whole file is read when the store is opened, and
written anew with every change: beside the old one at first, and then renamed in its place, so
that the file is never half written. What is in memory changes only once the file was written.

Key definitions: `LineStore`, `LineFault`, `LineStore.readLines`, `LineStore.open`,
`LineStore.draftPath`, `LineStore.putAll`, `LineStore.remove`.
-/
import Codebook.Disk
import Codebook.Store.Memory
import Codebook.Text.Split

namespace Codebook

/-- Entities that are kept in a file. -/
structure LineStore (α : Type) where
  /-- The file. -/
  path : Path
  /-- The entities in memory. -/
  memory : MemoryStore α := {}

/-- Why the lines of a file cannot be read. -/
inductive LineFault where
  /-- The bytes of a line are no text. -/
  | bytes
  /-- The text of a line, counted from 1, is no entity. -/
  | entity (line : Nat) (text : String)
deriving DecidableEq, Repr

/-- The error of a file with such a line. What the reader of texts says of a text that it cannot read
comes from outside. -/
def LineFault.error (path : Path) (complaint : String → String) : LineFault → StoreError
  | bytes => .io
  | entity line text => .corrupted path.toText line (complaint text)

namespace LineStore

/-- The lines of a file. A line ends with a line feed, before which there may be a carriage
return. -/
def linesOf : List UInt8 → List (List UInt8)
  | [] => []
  | b :: bytes =>
    if b = 10 then [] :: linesOf bytes
    else
      match linesOf bytes with
      | [] => [[b]]
      | line :: lines =>
        (if b = 13 && line.isEmpty && bytes.head? = some 10 then line else b :: line) :: lines

variable {α : Type} [Indexed α]

/-- Reads the entities of lines, of which the first has a number. -/
def readLines (m : MemoryStore α) (number : Nat) :
    List (List UInt8) → Except LineFault (MemoryStore α)
  | [] => .ok m
  | line :: lines =>
    match String.fromUTF8? ⟨line.toArray⟩ with
    | none => .error .bytes
    | some s =>
      if Text.isBlank s then readLines m (number + 1) lines
      else
        match Indexed.ofJson? α s with
        | some a => readLines (m.put a) (number + 1) lines
        | none => .error (.entity number s)

/-- Opens a store. If there is no file, there are no entities; the file is made later, but its
directory now. -/
def «open» (α : Type) [Indexed α] (path : Path) (complaint : String → String := fun _ => "") :
    DiskM StoreError (LineStore α) := do
  match (← get).node? path with
  | none =>
    perform .io [.makeDirectory path.parent]
    return { path }
  | some (.file bytes _) =>
    let memory ← (readLines {} 1 (linesOf bytes)).mapError (LineFault.error path complaint)
    return { path, memory }
  | some _ => throw .io

/-- The text of entities, one on each line. -/
def toText (m : MemoryStore α) : String :=
  String.join (m.toList.map fun a => Indexed.toJson a ++ "\n")

/-- The name of a file without what follows its last dot. A dot that the name begins with does not
count. -/
def stem (name : String) : String :=
  match Text.splitLast '.' name.toList with
  | some (c :: before, _) => String.ofList (c :: before)
  | _ => name

/-- The name of the file that is written before a file is replaced. -/
def draftName (name : String) : String :=
  stem name ++ ".jsonl.tmp"

/-- The file that is written first. -/
def draftPath (path : Path) : Path :=
  match path.getLast? with
  | some name => path.parent ++ [draftName name]
  | none => path

/-- The steps that write entities to a file. -/
def persistSteps (path : Path) (m : MemoryStore α) : List DiskStep :=
  [.write (draftPath path) (toText m).toUTF8.toList, .sync (draftPath path),
    .rename (draftPath path) path]

/-- The store with other entities, once they are written. -/
def persist (l : LineStore α) (m : MemoryStore α) : DiskM StoreError (LineStore α) := do
  perform .io (persistSteps l.path m)
  return { l with memory := m }

/-- Puts entities one after the other. -/
def putAll (l : LineStore α) (as : List α) : DiskM StoreError (LineStore α) :=
  l.persist (l.memory.putAll as)

/-- Removes the entity with a primary key, if there is one. -/
def remove (l : LineStore α) (id : String) : DiskM StoreError (LineStore α) :=
  match l.memory.get? id with
  | some _ => l.persist (l.memory.remove id)
  | none => pure l

end LineStore

end Codebook
