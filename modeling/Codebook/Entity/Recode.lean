/-
# Recoding

A rule set maps the fields of one dictionary to those of another; each of its rules maps one field
to one field. Both ends of a rule, and both dictionaries of a set, are also indexed under one
shared name, so that a filter finds whatever touches a field or a dictionary from either side.

Key definitions: `RecodeRule`, `RecodeRuleSet`.
-/
import Codebook.Entity.Basic

namespace Codebook

/-- Maps a field of one dictionary to a field of another. -/
structure RecodeRule where
  /-- The primary key. -/
  id : String
  /-- The last change. -/
  history : History
  /-- The rule set it belongs to. -/
  recodeRuleSetId : String
  /-- The field that is mapped. -/
  fromFieldId : String
  /-- The field it is mapped to. -/
  toFieldId : String
deriving DecidableEq, Repr

namespace RecodeRule

/-- A new rule. -/
def new (s : Stamp) (recodeRuleSetId fromFieldId toFieldId : String) : RecodeRule :=
  { id := s.id, history := s.history, recodeRuleSetId, fromFieldId, toFieldId }

/-- The rule as data. -/
def toData (r : RecodeRule) : Data :=
  .record [("id", .text r.id), ("history", r.history.toData),
    ("recodeRuleSetId", .text r.recodeRuleSetId), ("fromFieldId", .text r.fromFieldId),
    ("toFieldId", .text r.toFieldId)]

/-- Reads a rule. -/
def ofData? (form : Form) (d : Data) : Option RecodeRule := do
  let ms ← d.toMembers? form ["id", "history", "recodeRuleSetId", "fromFieldId", "toFieldId"] []
  return {
    id := ← ms.required "id" Data.toText?
    history := ← ms.required "history" (History.ofData? form)
    recodeRuleSetId := ← ms.required "recodeRuleSetId" Data.toText?
    fromFieldId := ← ms.required "fromFieldId" Data.toText?
    toFieldId := ← ms.required "toFieldId" Data.toText? }

instance : Versioned RecodeRule where
  history := RecodeRule.history
  withHistory r history := { r with history }

instance : Related RecodeRule where
  relationField := "recodeRuleSetId"
  relatedId := RecodeRule.recodeRuleSetId

instance : Indexed RecodeRule where
  entityType := "RecodeRule"
  declaration := {
    primaryKey := "id"
    fields := historyFields ++ [
      { name := "recodeRuleSetId" },
      { name := "fromFieldId", aliases := ["fieldId"] },
      { name := "toFieldId", aliases := ["fieldId"] }] }
  accessors := [
    ("id", ⟨.string, fun r => .text r.id⟩),
    ("recodeRuleSetId", ⟨.string, fun r => .text r.recodeRuleSetId⟩),
    ("fromFieldId", ⟨.string, fun r => .text r.fromFieldId⟩),
    ("toFieldId", ⟨.string, fun r => .text r.toFieldId⟩)] ++ Versioned.accessors RecodeRule
  id := RecodeRule.id
  toData := toData
  ofData? := ofData?

end RecodeRule

/-- Maps the fields of one dictionary to those of another. -/
structure RecodeRuleSet where
  /-- The primary key. -/
  id : String
  /-- The last change. -/
  history : History
  /-- The name. -/
  name : String
  /-- What it is about. -/
  description : Option String
  /-- The dictionary whose fields are mapped. -/
  fromDictionaryId : String
  /-- The dictionary they are mapped to. -/
  toDictionaryId : String
  /-- The field for whatever no rule maps. -/
  defaultFieldId : Option String
  /-- Its rules. -/
  recodeRules : List RecodeRule
deriving DecidableEq, Repr

namespace RecodeRuleSet

/-- A new rule set without rules. -/
def new (s : Stamp) (name fromDictionaryId toDictionaryId : String) : RecodeRuleSet :=
  { id := s.id, history := s.history, name, description := none, fromDictionaryId, toDictionaryId
    defaultFieldId := none, recodeRules := [] }

/-- The rule set as data. -/
def toData (r : RecodeRuleSet) : Data :=
  .record [("id", .text r.id), ("history", r.history.toData), ("name", .text r.name),
    ("description", .ofText? r.description), ("fromDictionaryId", .text r.fromDictionaryId),
    ("toDictionaryId", .text r.toDictionaryId), ("defaultFieldId", .ofText? r.defaultFieldId),
    ("recodeRules", .list (r.recodeRules.map RecodeRule.toData))]

/-- Reads a rule set. -/
def ofData? (form : Form) (d : Data) : Option RecodeRuleSet := do
  let ms ← d.toMembers? form ["id", "history", "name", "description", "fromDictionaryId",
    "toDictionaryId", "defaultFieldId", "recodeRules"] ["recodeRules"]
  return {
    id := ← ms.required "id" Data.toText?
    history := ← ms.required "history" (History.ofData? form)
    name := ← ms.required "name" Data.toText?
    description := ← ms.optional "description" Data.toText?
    fromDictionaryId := ← ms.required "fromDictionaryId" Data.toText?
    toDictionaryId := ← ms.required "toDictionaryId" Data.toText?
    defaultFieldId := ← ms.optional "defaultFieldId" Data.toText?
    recodeRules := ← ms.defaulted "recodeRules" [] (Data.toList? (RecodeRule.ofData? form)) }

instance : Versioned RecodeRuleSet where
  history := RecodeRuleSet.history
  withHistory r history := { r with history }

instance : Named RecodeRuleSet where
  name := RecodeRuleSet.name

instance : Indexed RecodeRuleSet where
  entityType := "RecodeRuleSet"
  declaration := {
    primaryKey := "id"
    fields := historyFields ++ [
      { name := "name", search := true },
      { name := "description", search := true },
      { name := "fromDictionaryId", aliases := ["dictionaryId"] },
      { name := "toDictionaryId", aliases := ["dictionaryId"] },
      { name := "defaultFieldId" }]
    collections := ["recodeRules"]
    nameField := some "name" }
  accessors := [
    ("id", ⟨.string, fun r => .text r.id⟩),
    ("name", ⟨.string, fun r => .text r.name⟩),
    ("description", ⟨.string, fun r => .ofText? r.description⟩),
    ("fromDictionaryId", ⟨.string, fun r => .text r.fromDictionaryId⟩),
    ("toDictionaryId", ⟨.string, fun r => .text r.toDictionaryId⟩),
    ("defaultFieldId", ⟨.string, fun r => .ofText? r.defaultFieldId⟩),
    ("recodeRules", ⟨.collection, fun _ => .null⟩)] ++ Versioned.accessors RecodeRuleSet
  id := RecodeRuleSet.id
  toData := toData
  ofData? := ofData?

end RecodeRuleSet

end Codebook
