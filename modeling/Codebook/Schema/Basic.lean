/-
# Schemas

A schema is a declaration that was found acceptable, with every field resolved. Aliases have
become fields of their own, each of which reads the field it stands for, and the fields of one
name share one column of the index. A column exists if filters or orders use one of its fields: it
is indexed if some field can be filtered by, and kept in columnar storage if some field can be
sorted by. Dates are columns of numbers, all others are columns of exact tokens.

Beside the columns an index has two engine fields: one holds a snapshot of the entity, the other
is split into words for free text.

Key definitions: `Capabilities`, `IndexedField`, `Column`, `Schema`, `Schema.field`,
`Schema.filterable`, `Schema.sortable`, `Schema.column?`, `Schema.layout`.
-/
import Codebook.Entity.Basic
import Codebook.IndexError

namespace Codebook

/-- What an indexed field can be used for. -/
structure Capabilities where
  /-- Free text finds it. -/
  searchable : Bool
  /-- Filters can test it. -/
  filterable : Bool
  /-- Results can be sorted by it. -/
  sortable : Bool
deriving DecidableEq, Repr

namespace Capabilities

/-- What one of two fields can be used for. -/
def union (a b : Capabilities) : Capabilities :=
  { searchable := a.searchable || b.searchable
    filterable := a.filterable || b.filterable
    sortable := a.sortable || b.sortable }

/-- The capabilities in diagnostics. -/
def label (c : Capabilities) : String :=
  Diagnostic.members "Capabilities" [("searchable", Diagnostic.bool c.searchable),
    ("filterable", Diagnostic.bool c.filterable), ("sortable", Diagnostic.bool c.sortable)]

end Capabilities

/-- A field of a schema. -/
structure IndexedField where
  /-- Its name, which is also that of its column. -/
  name : String
  /-- The declared field that is read for it. -/
  source : String
  /-- The kind of its values. -/
  kind : ValueKind
  /-- What it can be used for. -/
  capabilities : Capabilities
  /-- The other names of a declared field. -/
  aliases : List String
deriving DecidableEq, Repr

namespace IndexedField

/-- Whether the field stands for another one. -/
def isAlias (f : IndexedField) : Bool :=
  f.name != f.source

/-- The value of the field in an entity. -/
def read {α : Type} [Indexed α] (f : IndexedField) (a : α) : FieldValue :=
  match Indexed.accessor? α f.source with
  | some accessor => accessor.read a
  | none => .null

/-- The field in diagnostics. -/
def label (f : IndexedField) : String :=
  Diagnostic.someMembers "IndexedFieldDescriptor" [("name", Text.quote f.name),
    ("source", Text.quote f.source), ("kind", f.kind.label),
    ("capabilities", f.capabilities.label),
    ("aliases", Diagnostic.list (f.aliases.map Text.quote))]

end IndexedField

/-- A column of an index. -/
structure Column where
  /-- The name that its fields share. -/
  name : String
  /-- The kind of its values. -/
  kind : ValueKind
  /-- What its fields can be used for. -/
  capabilities : Capabilities
deriving DecidableEq, Repr

/-- How the engine stores a field. -/
inductive EngineType where
  /-- As text. -/
  | text
  /-- As whole numbers. -/
  | date
  /-- As bytes. -/
  | bytes
deriving DecidableEq, Repr

/-- The name of the type in listings. -/
def EngineType.name : EngineType → String
  | text => "text"
  | date => "date"
  | bytes => "bytes"

/-- A field of the engine. -/
structure EngineField where
  /-- Its name. -/
  name : String
  /-- How it is stored. -/
  type : EngineType
  /-- Whether queries can look values up. -/
  indexed : Bool
  /-- Whether values are kept in columnar storage. -/
  columnar : Bool
  /-- Whether values are kept with the document. -/
  stored : Bool
deriving DecidableEq, Repr

/-- The name of the engine field with the snapshot. -/
def payloadField : String := "payload"

/-- The name of the engine field with the free text. -/
def defaultSearchField : String := "defaultSearch"

/-- The engine field of a column. -/
def Column.engineField (c : Column) : EngineField :=
  { name := c.name
    type := if c.kind = .date then .date else .text
    indexed := c.capabilities.filterable
    columnar := c.capabilities.sortable
    stored := c.capabilities.sortable }

/-- An accepted declaration. -/
structure Schema where
  /-- The name of the entity type. -/
  entityType : String
  /-- The primary key. -/
  primaryKey : IndexedField
  /-- The declared fields, each followed by its aliases. -/
  fields : List IndexedField
  /-- The fields that hold collections. -/
  collections : List String
  /-- The field that names the entity. -/
  nameField : Option String
  /-- The columns, in the order in which their names first occur. -/
  columns : List Column
deriving DecidableEq, Repr

namespace Schema

/-- The field of that name: the primary key, or the first other field. -/
def field? (s : Schema) (name : String) : Option IndexedField :=
  if s.primaryKey.name = name then some s.primaryKey
  else s.fields.find? fun f => f.name == name

/-- The field of that name, which has to exist. -/
def field (s : Schema) (name : String) : Except IndexError IndexedField :=
  match s.field? name with
  | some f => .ok f
  | none => .error (.unknownField s.entityType name)

/-- The field of that name, which has to be open to filters. -/
def filterable (s : Schema) (name : String) : Except IndexError IndexedField := do
  let f ← s.field name
  if f.capabilities.filterable then return f else throw (.unknownField s.entityType name)

/-- The field of that name, which has to be open to orders. -/
def sortable (s : Schema) (name : String) : Except IndexError IndexedField := do
  let f ← s.field name
  if f.capabilities.sortable then return f else throw (.unknownField s.entityType name)

/-- The declared fields that free text finds. -/
def searchable (s : Schema) : List IndexedField :=
  s.fields.filter fun f => f.capabilities.searchable && !f.isAlias

/-- The column of that name. -/
def column? (s : Schema) (name : String) : Option Column :=
  s.columns.find? fun c => c.name == name

/-- The column of that name, which has to exist. -/
def column (s : Schema) (name : String) : Except IndexError Column :=
  match s.column? name with
  | some c => .ok c
  | none => .error (.unknownField s.entityType name)

/-- Whether the entities have a last change. -/
def isVersioned (s : Schema) : Bool :=
  (s.field? changeTypeField).isSome

/-- The fields of the engine, in order. -/
def layout (s : Schema) : List EngineField :=
  s.columns.map Column.engineField ++
    [⟨payloadField, .bytes, false, false, true⟩, ⟨defaultSearchField, .text, true, false, false⟩]

/-- The schema in diagnostics. -/
def label (s : Schema) : String :=
  Diagnostic.someMembers "SchemaDescriptor" [("entity_type", Text.quote s.entityType),
    ("primary_key", Text.quote s.primaryKey.name),
    ("fields", Diagnostic.list (s.fields.map IndexedField.label)),
    ("collections", Diagnostic.list (s.collections.map Text.quote)),
    ("name_field", Diagnostic.option (s.nameField.map Text.quote))]

end Schema

end Codebook
