/-
# Fields

A field is one value of a meta-field, and so one cell of a dictionary.

Key definitions: `Field`, `Field.new`.
-/
import Codebook.Entity.Basic

namespace Codebook

/-- One value of a meta-field. -/
structure Field where
  /-- The primary key. -/
  id : String
  /-- The last change. -/
  history : History
  /-- The meta-field it belongs to. -/
  metaFieldId : String
  /-- The name of that meta-field. -/
  name : Option String
  /-- The value. -/
  value : Option String
deriving DecidableEq, Repr

namespace Field

/-- A new field with a value. -/
def new (s : Stamp) (metaFieldId value : String) : Field :=
  { id := s.id, history := s.history, metaFieldId, name := none, value := some value }

/-- The field as data. -/
def toData (f : Field) : Data :=
  .record [("id", .text f.id), ("history", f.history.toData), ("metaFieldId", .text f.metaFieldId),
    ("name", .ofText? f.name), ("value", .ofText? f.value)]

/-- Reads a field. -/
def ofData? (form : Form) (d : Data) : Option Field := do
  let ms ← d.toMembers? form ["id", "history", "metaFieldId", "name", "value"] []
  return {
    id := ← ms.required "id" Data.toText?
    history := ← ms.required "history" (History.ofData? form)
    metaFieldId := ← ms.required "metaFieldId" Data.toText?
    name := ← ms.optional "name" Data.toText?
    value := ← ms.optional "value" Data.toText? }

instance : Versioned Field where
  history := Field.history
  withHistory f history := { f with history }

instance : Related Field where
  relationField := "metaFieldId"
  relatedId := Field.metaFieldId

instance : Indexed Field where
  entityType := "Field"
  declaration := {
    primaryKey := "id"
    fields := historyFields ++ [
      { name := "metaFieldId" },
      { name := "name" },
      { name := "value", search := true }] }
  accessors := [
    ("id", ⟨.string, fun f => .text f.id⟩),
    ("metaFieldId", ⟨.string, fun f => .text f.metaFieldId⟩),
    ("name", ⟨.string, fun f => .ofText? f.name⟩),
    ("value", ⟨.string, fun f => .ofText? f.value⟩)] ++ Versioned.accessors Field
  id := Field.id
  toData := toData
  ofData? := ofData?

end Field

end Codebook
