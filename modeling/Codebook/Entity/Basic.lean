/-
# Entity types

What the index has to know of a type of entities: its name and declaration, how to read its
fields, and its form as plain data. Beyond that an entity type may have a history, a name, or a
parent; each of these is a class of its own.

Key definitions: `Accessor`, `Indexed`, `Versioned`, `Named`, `Related`, `Stamp`.
-/
import Codebook.Change
import Codebook.Data.Json
import Codebook.Entity.Declaration
import Codebook.Entity.Value

namespace Codebook

/-- Reads one field of an entity. -/
structure Accessor (α : Type) where
  /-- The kind of the values. -/
  kind : ValueKind
  /-- The value of the field. -/
  read : α → FieldValue

/-- The accessor in diagnostics. -/
def Accessor.label {α : Type} (a : Accessor α) : String :=
  Diagnostic.someMembers "FieldAccessor" [("kind", a.kind.label)]

/-- A type of entities that can be indexed. -/
class Indexed (α : Type) where
  /-- The name of the type, which is also the name of its index. -/
  entityType : String
  /-- What is indexed of it. -/
  declaration : Declaration
  /-- The readable fields. -/
  accessors : List (String × Accessor α)
  /-- The primary key of an entity. -/
  id : α → String
  /-- An entity as data. -/
  toData : α → Data
  /-- Reads an entity. -/
  ofData? : Form → Data → Option α

namespace Indexed

variable {α : Type} [Indexed α]

/-- The accessor of a field. -/
def accessor? (α : Type) [Indexed α] (field : String) : Option (Accessor α) :=
  (accessors (α := α)).lookup field

/-- Reads an entity from text. -/
def ofJson? (α : Type) [Indexed α] (s : String) : Option α :=
  (Data.ofJson? s).bind (ofData? .written)

/-- The entity as text. -/
def toJson (a : α) : String :=
  (toData a).toJson

end Indexed

/-- Entities with a history. -/
class Versioned (α : Type) where
  /-- The history of an entity. -/
  history : α → History
  /-- The entity with another history. -/
  withHistory : α → History → α

namespace Versioned

variable {α : Type} [Versioned α]

/-- The last change. -/
def changeType (a : α) : ChangeType :=
  (history a).changeType

/-- An entity is active until it is closed. -/
def isActive (a : α) : Bool :=
  changeType a != .close

/-- The entity after a change. -/
def touch (a : α) (now : Instant) (t : ChangeType) : α :=
  withHistory a ((history a).touch now t)

/-- The closed entity. -/
def close (a : α) (now : Instant) : α :=
  touch a now .close

/-- The accessors that all versioned entities have. -/
def accessors (α : Type) [Versioned α] : List (String × Accessor α) :=
  [("historyId", ⟨.string, fun a => .text (history a).historyId⟩),
    ("changeType", ⟨.enum, fun a => .enum (changeType a).name⟩),
    ("changeDate", ⟨.date, fun a => .date (history a).changeDate⟩)]

end Versioned

/-- Entities with a name. -/
class Named (α : Type) where
  /-- The name of an entity. -/
  name : α → String

/-- Entities with a parent. -/
class Related (α : Type) where
  /-- The field that holds the id of the parent. -/
  relationField : String
  /-- The id of the parent. -/
  relatedId : α → String

/-- What a new entity receives from outside: two fresh ids and the time. -/
structure Stamp where
  /-- The id of the entity. -/
  id : String
  /-- The id of its history. -/
  historyId : String
  /-- The time. -/
  now : Instant

/-- The history of a new entity. -/
def Stamp.history (s : Stamp) : History :=
  { historyId := s.historyId, changeType := .create, changeDate := s.now }

/-- The fields of a history, as declared by every versioned type. -/
def historyFields : List FieldDeclaration :=
  [{ name := "historyId" }, { name := "changeType" }, { name := "changeDate" }]

/-- The field under which the names of named entities are indexed in lower case, so that an exact
filter finds them in any case. -/
def nameKeyField : String := "nameKey"

/-- The field that holds the last change. -/
def changeTypeField : String := "changeType"

end Codebook
