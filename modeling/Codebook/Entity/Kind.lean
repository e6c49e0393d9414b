/-
# The entity types of the model

The seven types of entities that master data is made of, listed in the order in which they are
opened and shown.

Key definitions: `EntityKind`, `EntityKind.Entity`.
-/
import Codebook.Entity.Dictionary
import Codebook.Entity.Recode
import Codebook.Entity.Record

namespace Codebook

/-- A type of entities. -/
inductive EntityKind where
  /-- Groups of dictionaries. -/
  | group
  /-- Dictionaries. -/
  | dictionary
  /-- Columns of dictionaries. -/
  | metaField
  /-- Values of columns. -/
  | field
  /-- Sets of recoding rules. -/
  | recodeRuleSet
  /-- Recoding rules. -/
  | recodeRule
  /-- Rows of dictionaries. -/
  | record
deriving DecidableEq, Repr, Inhabited

namespace EntityKind

/-- All types in order. -/
def all : List EntityKind :=
  [group, dictionary, metaField, field, recodeRuleSet, recodeRule, record]

/-- The entities of the type. -/
abbrev Entity : EntityKind → Type
  | group => Group
  | dictionary => Dictionary
  | metaField => MetaField
  | field => Field
  | recodeRuleSet => RecodeRuleSet
  | recodeRule => RecodeRule
  | record => Record

instance : (k : EntityKind) → Indexed k.Entity
  | group => inferInstanceAs (Indexed Group)
  | dictionary => inferInstanceAs (Indexed Dictionary)
  | metaField => inferInstanceAs (Indexed MetaField)
  | field => inferInstanceAs (Indexed Field)
  | recodeRuleSet => inferInstanceAs (Indexed RecodeRuleSet)
  | recodeRule => inferInstanceAs (Indexed RecodeRule)
  | record => inferInstanceAs (Indexed Record)

/-- The name of the type. -/
def name (k : EntityKind) : String :=
  Indexed.entityType k.Entity

/-- The type of that name in any case. -/
def ofName? (s : String) : Option EntityKind :=
  all.find? fun k => Text.eqUpToLatinCase k.name s

end EntityKind

end Codebook
