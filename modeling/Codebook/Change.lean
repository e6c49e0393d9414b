/-
# Changes

Nothing is ever removed for good. A versioned entity carries a history: what the last change to it
was and when it happened, under an id that all its versions share. Closing an entity is such a
change; an entity is active until then.

Key definitions: `ChangeType`, `ChangeType.ofName?`, `ChangeSet`, `History`, `History.touch`.
-/
import Codebook.Data.Reader
import Codebook.Text.LowerCase

namespace Codebook

/-- What was done to an entity last. -/
inductive ChangeType where
  /-- An import passed over the change. -/
  | ignore
  /-- An import left the change out. -/
  | skip
  /-- The entity was created. -/
  | create
  /-- The entity was updated. -/
  | update
  /-- The entity was opened again after it had been closed. -/
  | restore
  /-- The entity was closed. -/
  | close
deriving DecidableEq, Repr, Inhabited

namespace ChangeType

/-- All change types, in the order of sets and listings. -/
def all : List ChangeType :=
  [ignore, skip, create, update, restore, close]

/-- The name in data and in the index. -/
def name : ChangeType → String
  | ignore => "IGNORE"
  | skip => "SKIP"
  | create => "CREATE"
  | update => "UPDATE"
  | restore => "RESTORE"
  | close => "CLOSE"

/-- The name in diagnostics. -/
def label : ChangeType → String
  | ignore => "Ignore"
  | skip => "Skip"
  | create => "Create"
  | update => "Update"
  | restore => "Restore"
  | close => "Close"

/-- The change type of exactly that name. -/
def named? (s : String) : Option ChangeType :=
  all.find? fun t => t.name == s

/-- The change type of that name in any case. -/
def ofName? (s : String) : Option ChangeType :=
  all.find? fun t => Text.eqUpToLatinCase t.name s

end ChangeType

/-- A set of change types. -/
structure ChangeSet where
  /-- Whether a change type belongs to the set. -/
  contains : ChangeType → Bool

namespace ChangeSet

/-- The set of the members of a list. -/
def ofList (types : List ChangeType) : ChangeSet :=
  ⟨types.contains⟩

/-- The members, each once, in the order of all change types. -/
def toList (s : ChangeSet) : List ChangeType :=
  ChangeType.all.filter s.contains

/-- The set with one more member. -/
def insert (s : ChangeSet) (t : ChangeType) : ChangeSet :=
  ⟨fun u => u == t || s.contains u⟩

/-- The number of members. -/
def size (s : ChangeSet) : Nat :=
  s.toList.length

/-- Whether every change type is a member. -/
def isFull (s : ChangeSet) : Bool :=
  ChangeType.all.all s.contains

/-- Whether there is no member. -/
def isEmpty (s : ChangeSet) : Bool :=
  s.toList.isEmpty

/-- Two sets are equal when they have the same members. -/
instance : BEq ChangeSet where
  beq s t := s.toList == t.toList

/-- The set in diagnostics. -/
def label (s : ChangeSet) : String :=
  "\x7b" ++ ", ".intercalate (s.toList.map ChangeType.label) ++ "\x7d"

/-- The set as data: the names of its members. -/
def toData (s : ChangeSet) : Data :=
  .ofTexts (s.toList.map ChangeType.name)

/-- Reads a set from names, which may repeat. -/
def ofData? (d : Data) : Option ChangeSet :=
  (d.toList? (Data.toName? .written ChangeType.named?)).map ofList

end ChangeSet

/-- The last change to a versioned entity. -/
structure History where
  /-- The id that all versions of the entity share. -/
  historyId : String
  /-- What was done last. -/
  changeType : ChangeType
  /-- When it was done. -/
  changeDate : Instant
deriving DecidableEq, Repr

namespace History

/-- The history after one more change. -/
def touch (h : History) (now : Instant) (changeType : ChangeType) : History :=
  { h with changeType, changeDate := now }

/-- The history as data. -/
def toData (h : History) : Data :=
  .record [("historyId", .text h.historyId), ("changeType", .text h.changeType.name),
    ("changeDate", .text h.changeDate.toText)]

/-- Reads a history. -/
def ofData? (form : Form) (d : Data) : Option History := do
  let ms ← d.toMembers? form ["historyId", "changeType", "changeDate"] []
  return {
    historyId := ← ms.required "historyId" Data.toText?
    changeType := ← ms.required "changeType" (Data.toName? form ChangeType.named?)
    changeDate := ← ms.required "changeDate" Data.toInstant? }

end History

end Codebook
