/-
# Meta-fields

A meta-field is a column of a dictionary. Its flags say whether its values are unique, whether it
is the primary column, which includes that, and whether it is hidden.

Key definitions: `MetaField`, `MetaFieldType`, `MetaField.hasFlag`.
-/
import Codebook.Entity.Field
import Codebook.Text.LowerCase

namespace Codebook

/-- The type of the values of a meta-field. -/
inductive MetaFieldType where
  /-- Free text. -/
  | string
  /-- A number. -/
  | number
  /-- A date. -/
  | date
  /-- A web address. -/
  | url
  /-- A mail address. -/
  | email
deriving DecidableEq, Repr, Inhabited

namespace MetaFieldType

/-- The name in data and in the index. -/
def name : MetaFieldType → String
  | string => "STRING"
  | number => "NUMBER"
  | date => "DATE"
  | url => "URL"
  | email => "EMAIL"

/-- The type of that name. -/
def named? (s : String) : Option MetaFieldType :=
  [string, number, date, url, email].find? fun t => t.name == s

end MetaFieldType

/-- A column of a dictionary. -/
structure MetaField where
  /-- The primary key. -/
  id : String
  /-- The last change. -/
  history : History
  /-- The dictionary it belongs to. -/
  dictionaryId : String
  /-- The name, one of its kind in the dictionary. -/
  name : String
  /-- What it is about. -/
  description : Option String
  /-- The type of its values. -/
  fieldType : MetaFieldType
  /-- The flags, as bits of a number. -/
  flags : Int
  /-- The position among the columns. -/
  ordinal : Int
  /-- Its values. -/
  descendants : List Field
deriving DecidableEq, Repr

namespace MetaField

/-- The flag of columns whose values are unique. -/
def uniqueFlag : Nat := 0b001

/-- The flag of the primary column. -/
def primaryFlag : Nat := 0b011

/-- The flag of hidden columns. -/
def hiddenFlag : Nat := 0b100

/-- Whether all bits of a flag are set. Negative numbers have the bits of their complement to a
power of two. -/
def hasFlag (m : MetaField) (flag : Nat) : Bool :=
  (m.flags % (Number.maxNat32 + 1)).toNat &&& flag == flag

/-- A new column. -/
def new (s : Stamp) (dictionaryId name : String) : MetaField :=
  { id := s.id, history := s.history, dictionaryId, name, description := none
    fieldType := .string, flags := 0, ordinal := 0, descendants := [] }

/-- The meta-field as data. -/
def toData (m : MetaField) : Data :=
  .record [("id", .text m.id), ("history", m.history.toData),
    ("dictionaryId", .text m.dictionaryId), ("name", .text m.name),
    ("description", .ofText? m.description), ("type", .text m.fieldType.name),
    ("flags", .int m.flags), ("ordinal", .int m.ordinal),
    ("descendants", .list (m.descendants.map Field.toData))]

/-- Reads a meta-field. -/
def ofData? (form : Form) (d : Data) : Option MetaField := do
  let ms ← d.toMembers? form ["id", "history", "dictionaryId", "name", "description", "type",
    "flags", "ordinal", "descendants"] ["descendants"]
  return {
    id := ← ms.required "id" Data.toText?
    history := ← ms.required "history" (History.ofData? form)
    dictionaryId := ← ms.required "dictionaryId" Data.toText?
    name := ← ms.required "name" Data.toText?
    description := ← ms.optional "description" Data.toText?
    fieldType := ← ms.required "type" (Data.toName? form MetaFieldType.named?)
    flags := ← ms.required "flags" Data.toInt32?
    ordinal := ← ms.required "ordinal" Data.toInt32?
    descendants := ← ms.defaulted "descendants" [] (Data.toList? (Field.ofData? form)) }

instance : Versioned MetaField where
  history := MetaField.history
  withHistory m history := { m with history }

instance : Named MetaField where
  name := MetaField.name

instance : Related MetaField where
  relationField := "dictionaryId"
  relatedId := MetaField.dictionaryId

instance : Indexed MetaField where
  entityType := "MetaField"
  declaration := {
    primaryKey := "id"
    fields := historyFields ++ [
      { name := "dictionaryId" },
      { name := "name", search := true },
      { name := "description", search := true },
      { name := nameKeyField, sort := false },
      { name := "type" },
      { name := "flags" },
      { name := "ordinal" }]
    collections := ["descendants"]
    nameField := some "name" }
  accessors := [
    ("id", ⟨.string, fun m => .text m.id⟩),
    ("dictionaryId", ⟨.string, fun m => .text m.dictionaryId⟩),
    ("name", ⟨.string, fun m => .text m.name⟩),
    (nameKeyField, ⟨.string, fun m => .text (Text.lower m.name)⟩),
    ("description", ⟨.string, fun m => .ofText? m.description⟩),
    ("type", ⟨.enum, fun m => .enum m.fieldType.name⟩),
    ("flags", ⟨.number, fun m => .integer m.flags⟩),
    ("ordinal", ⟨.number, fun m => .integer m.ordinal⟩),
    ("descendants", ⟨.collection, fun _ => .null⟩)] ++ Versioned.accessors MetaField
  id := MetaField.id
  toData := toData
  ofData? := ofData?

end MetaField

end Codebook
