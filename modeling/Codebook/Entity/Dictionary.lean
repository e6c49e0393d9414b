/-
# Dictionaries and groups

A dictionary is a table of master data with meta-fields for columns. Dictionaries belong to
groups, which have unique names.

Key definitions: `Dictionary`, `Group`.
-/
import Codebook.Entity.MetaField

namespace Codebook

/-- A table of master data. -/
structure Dictionary where
  /-- The primary key. -/
  id : String
  /-- The last change. -/
  history : History
  /-- The group it belongs to. -/
  groupId : String
  /-- The name, one of its kind in the group. -/
  name : String
  /-- What it is about. -/
  description : Option String
  /-- The version of its data. -/
  version : Option String
  /-- Its columns. -/
  descendants : List MetaField
deriving DecidableEq, Repr

namespace Dictionary

/-- A new dictionary. -/
def new (s : Stamp) (groupId name : String) : Dictionary :=
  { id := s.id, history := s.history, groupId, name, description := none, version := none
    descendants := [] }

/-- The dictionary as data. -/
def toData (d : Dictionary) : Data :=
  .record [("id", .text d.id), ("history", d.history.toData), ("groupId", .text d.groupId),
    ("name", .text d.name), ("description", .ofText? d.description),
    ("version", .ofText? d.version), ("descendants", .list (d.descendants.map MetaField.toData))]

/-- Reads a dictionary. -/
def ofData? (form : Form) (d : Data) : Option Dictionary := do
  let ms ← d.toMembers? form ["id", "history", "groupId", "name", "description", "version",
    "descendants"] ["descendants"]
  return {
    id := ← ms.required "id" Data.toText?
    history := ← ms.required "history" (History.ofData? form)
    groupId := ← ms.required "groupId" Data.toText?
    name := ← ms.required "name" Data.toText?
    description := ← ms.optional "description" Data.toText?
    version := ← ms.optional "version" Data.toText?
    descendants := ← ms.defaulted "descendants" [] (Data.toList? (MetaField.ofData? form)) }

instance : Versioned Dictionary where
  history := Dictionary.history
  withHistory d history := { d with history }

instance : Named Dictionary where
  name := Dictionary.name

instance : Related Dictionary where
  relationField := "groupId"
  relatedId := Dictionary.groupId

instance : Indexed Dictionary where
  entityType := "Dictionary"
  declaration := {
    primaryKey := "id"
    fields := historyFields ++ [
      { name := "groupId", sort := false },
      { name := "name", search := true },
      { name := "description", search := true },
      { name := nameKeyField, sort := false },
      { name := "version" }]
    collections := ["descendants"]
    nameField := some "name" }
  accessors := [
    ("id", ⟨.string, fun d => .text d.id⟩),
    ("groupId", ⟨.string, fun d => .text d.groupId⟩),
    ("name", ⟨.string, fun d => .text d.name⟩),
    (nameKeyField, ⟨.string, fun d => .text (Text.lower d.name)⟩),
    ("description", ⟨.string, fun d => .ofText? d.description⟩),
    ("version", ⟨.string, fun d => .ofText? d.version⟩),
    ("descendants", ⟨.collection, fun _ => .null⟩)] ++ Versioned.accessors Dictionary
  id := Dictionary.id
  toData := toData
  ofData? := ofData?

end Dictionary

/-- A group of dictionaries. -/
structure Group where
  /-- The primary key. -/
  id : String
  /-- The last change. -/
  history : History
  /-- The name, one of its kind. -/
  name : String
  /-- What it is about. -/
  description : Option String
  /-- The user or department it belongs to. -/
  owner : Option String
  /-- Its dictionaries. -/
  descendants : List Dictionary
deriving DecidableEq, Repr

namespace Group

/-- A new group. -/
def new (s : Stamp) (name : String) : Group :=
  { id := s.id, history := s.history, name, description := none, owner := none, descendants := [] }

/-- The group as data. -/
def toData (g : Group) : Data :=
  .record [("id", .text g.id), ("history", g.history.toData), ("name", .text g.name),
    ("description", .ofText? g.description), ("owner", .ofText? g.owner),
    ("descendants", .list (g.descendants.map Dictionary.toData))]

/-- Reads a group. -/
def ofData? (form : Form) (d : Data) : Option Group := do
  let ms ← d.toMembers? form ["id", "history", "name", "description", "owner", "descendants"]
    ["descendants"]
  return {
    id := ← ms.required "id" Data.toText?
    history := ← ms.required "history" (History.ofData? form)
    name := ← ms.required "name" Data.toText?
    description := ← ms.optional "description" Data.toText?
    owner := ← ms.optional "owner" Data.toText?
    descendants := ← ms.defaulted "descendants" [] (Data.toList? (Dictionary.ofData? form)) }

instance : Versioned Group where
  history := Group.history
  withHistory g history := { g with history }

instance : Named Group where
  name := Group.name

instance : Indexed Group where
  entityType := "Group"
  declaration := {
    primaryKey := "id"
    fields := historyFields ++ [
      { name := "name", search := true },
      { name := "description", search := true },
      { name := nameKeyField, sort := false },
      { name := "owner" }]
    collections := ["descendants"]
    nameField := some "name" }
  accessors := [
    ("id", ⟨.string, fun g => .text g.id⟩),
    ("name", ⟨.string, fun g => .text g.name⟩),
    (nameKeyField, ⟨.string, fun g => .text (Text.lower g.name)⟩),
    ("description", ⟨.string, fun g => .ofText? g.description⟩),
    ("owner", ⟨.string, fun g => .ofText? g.owner⟩),
    ("descendants", ⟨.collection, fun _ => .null⟩)] ++ Versioned.accessors Group
  id := Group.id
  toData := toData
  ofData? := ofData?

end Group

end Codebook
