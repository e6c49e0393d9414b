/-
# Records

A record is one row of a dictionary: its fields under the names of their columns. It has no
history of its own.

Key definitions: `Record`.
-/
import Codebook.Entity.Field
import Codebook.Keyed

namespace Codebook

/-- One row of a dictionary. -/
structure Record where
  /-- The primary key. -/
  id : String
  /-- The dictionary it belongs to. -/
  dictionaryId : String
  /-- Its fields, by the names of their columns. -/
  fields : Keyed Field
deriving DecidableEq, Repr

namespace Record

/-- A new record without fields. -/
def new (s : Stamp) (dictionaryId : String) : Record :=
  { id := s.id, dictionaryId, fields := [] }

/-- The record as data. -/
def toData (r : Record) : Data :=
  .record [("id", .text r.id), ("dictionaryId", .text r.dictionaryId),
    ("fields", .record (r.fields.map fun (name, f) => (name, f.toData)))]

/-- Reads fields by name. A name that is given again replaces its field. -/
def fieldsOfData? (form : Form) : Data → Option (Keyed Field)
  | .record members => do
    let fields ← members.mapM fun (name, d) => do return (name, ← Field.ofData? form d)
    return Keyed.ofList fields
  | _ => none

/-- Reads a record. -/
def ofData? (form : Form) (d : Data) : Option Record := do
  let ms ← d.toMembers? form ["id", "dictionaryId", "fields"] ["fields"]
  return {
    id := ← ms.required "id" Data.toText?
    dictionaryId := ← ms.required "dictionaryId" Data.toText?
    fields := ← ms.defaulted "fields" [] (fieldsOfData? form) }

instance : Related Record where
  relationField := "dictionaryId"
  relatedId := Record.dictionaryId

instance : Indexed Record where
  entityType := "Record"
  declaration := {
    primaryKey := "id"
    fields := [{ name := "dictionaryId" }]
    collections := ["fields"] }
  accessors := [
    ("id", ⟨.string, fun r => .text r.id⟩),
    ("dictionaryId", ⟨.string, fun r => .text r.dictionaryId⟩),
    ("fields", ⟨.collection, fun _ => .null⟩)]
  id := Record.id
  toData := toData
  ofData? := ofData?

end Record

end Codebook
