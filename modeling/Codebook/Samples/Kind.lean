/-
# All types of entities

The types of the model and the sample types, by their names, and what entities of a type can do
beyond being indexed.

Key definitions: `SampleKind`, `SampleKind.ofName?`, `SampleKind.isServed`, `SampleKind.Entity`,
`SampleKind.versioned?`, `SampleKind.make?`.
-/
import Codebook.Entity.Kind
import Codebook.Samples.Item
import Codebook.Samples.Specimen
import Codebook.Text.Split

namespace Codebook

/-- A type of entities. -/
inductive SampleKind where
  /-- A type of the model. -/
  | model (kind : EntityKind)
  /-- Items. -/
  | item
  /-- Items in their second form. -/
  | revisedItem
  /-- Specimens with a number. -/
  | specimen (n : Nat)
deriving DecidableEq, Repr, Inhabited

namespace SampleKind

/-- The type with a name. The second form of items and the specimens have names of their own here,
which are not those of their indexes. -/
def ofName? (name : String) : Option SampleKind :=
  if name = "Sample" then some item
  else if name = "SampleV2" then some revisedItem
  else
    match Text.dropStart "Stub".toList name.toList with
    | some digits => (Number.readUnsigned (String.ofList digits)).map specimen
    | none => (EntityKind.all.find? fun k => k.name == name).map model

/-- Whether there are services for the entities of the type. Specimens have none: they exist for
their declarations only. -/
def isServed : SampleKind → Bool
  | specimen _ => false
  | model _ | item | revisedItem => true

/-- The entities of the type. -/
abbrev Entity : SampleKind → Type
  | model kind => kind.Entity
  | item => Item
  | revisedItem => RevisedItem
  | specimen n => Specimen n

instance : (t : SampleKind) → Indexed t.Entity
  | model kind => inferInstanceAs (Indexed kind.Entity)
  | item => inferInstanceAs (Indexed Item)
  | revisedItem => inferInstanceAs (Indexed RevisedItem)
  | specimen n => inferInstanceAs (Indexed (Specimen n))

/-- How the histories of entities are kept, for types that have them. -/
def versioned? : (t : SampleKind) → Option (Versioned t.Entity)
  | model .group => some (inferInstanceAs (Versioned Group))
  | model .dictionary => some (inferInstanceAs (Versioned Dictionary))
  | model .metaField => some (inferInstanceAs (Versioned MetaField))
  | model .field => some (inferInstanceAs (Versioned Field))
  | model .recodeRuleSet => some (inferInstanceAs (Versioned RecodeRuleSet))
  | model .recodeRule => some (inferInstanceAs (Versioned RecodeRule))
  | _ => none

/-- The name of an entity of a type of the model. -/
def name? : (t : SampleKind) → t.Entity → Option String
  | model .group, (a : Group) => some (Named.name a)
  | model .dictionary, (a : Dictionary) => some (Named.name a)
  | model .metaField, (a : MetaField) => some (Named.name a)
  | model .recodeRuleSet, (a : RecodeRuleSet) => some (Named.name a)
  | _, _ => none

/-- The field with the id of the parent, and that id. -/
def relationOf {α : Type} [Related α] (a : α) : String × String :=
  (Related.relationField α, Related.relatedId a)

/-- The field with the id of the parent, and that id, for entities that have a parent. -/
def relation? : (t : SampleKind) → t.Entity → Option (String × String)
  | model .dictionary, (a : Dictionary) => some (relationOf a)
  | model .metaField, (a : MetaField) => some (relationOf a)
  | model .field, (a : Field) => some (relationOf a)
  | model .recodeRule, (a : RecodeRule) => some (relationOf a)
  | model .record, (a : Record) => some (relationOf a)
  | _, _ => none

/-- Whether a meta-field is unique, primary, and hidden. -/
def flags? : (t : SampleKind) → t.Entity → Option (List Bool)
  | model .metaField, (a : MetaField) =>
    some ([MetaField.uniqueFlag, MetaField.primaryFlag, MetaField.hiddenFlag].map a.hasFlag)
  | _, _ => none

/-- A new entity of a type of the model, from the arguments of its constructor. -/
def make? (s : Stamp) : (t : SampleKind) → List String → Option t.Entity
  | model .group, [name] => some (Group.new s name)
  | model .dictionary, [groupId, name] => some (Dictionary.new s groupId name)
  | model .metaField, [dictionaryId, name] => some (MetaField.new s dictionaryId name)
  | model .field, [metaFieldId, value] => some (Field.new s metaFieldId value)
  | model .recodeRuleSet, [name, fromId, toId] => some (RecodeRuleSet.new s name fromId toId)
  | model .recodeRule, [ruleSetId, fromId, toId] => some (RecodeRule.new s ruleSetId fromId toId)
  | model .record, [dictionaryId] => some (Record.new s dictionaryId)
  | _, _ => none

/-- An entity after a change, for types with a history. -/
def touch? (t : SampleKind) (a : t.Entity) (now : Instant) (c : ChangeType) : Option t.Entity :=
  (versioned? t).map fun v => @Versioned.touch _ v a now c

end SampleKind

end Codebook
