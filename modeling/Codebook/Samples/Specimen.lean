/-
# Specimens

Types of entities that exist for their declarations only. Each of them is right or wrong in one
way, so that one can see what a schema accepts. A specimen has nothing but a primary key; its other
fields have no values.

Key definitions: `Specimen`, `Specimen.typeName`, `Specimen.declaration`.
-/
import Codebook.Data.Reader
import Codebook.Entity.Basic

namespace Codebook

/-- An entity of the type with a number. -/
structure Specimen (n : Nat) where
  /-- The primary key. -/
  id : String
deriving DecidableEq, Repr

namespace Specimen

/-- The names of the types in order. -/
def typeNames : List String :=
  ["", "Bad Name", "bad/name", "Имя", "NoKey", "GhostKey", "NumKey", "CollKey", "Twice", "KeyAgain",
    "Reserved1", "Reserved2", "Ghost", "CollField", "NotColl", "GhostColl", "NameMissing",
    "NameUnsortable", "NameAlias", "KindClash", "AliasIsField", "AliasIsKey", "Hidden",
    "Key-Only_1", "NameIsKey", "AliasTwice", "SortOnlyActivity", "HiddenActivity", "Kinds",
    "UnionAlias"]

/-- The name of the type with a number. -/
def typeName (n : Nat) : String :=
  typeNames.getD n ""

/-- The declaration of the type with a number. The types without one of their own declare no
fields. -/
def declaration (n : Nat) : Declaration :=
  let declared (fields : List FieldDeclaration) : Declaration := { primaryKey := "id", fields }
  match n with
  | 4 => { primaryKey := "" }
  | 5 => { primaryKey := "ghost" }
  | 6 => { primaryKey := "num" }
  | 7 => { primaryKey := "coll" }
  | 8 => declared [{ name := "text" }, { name := "num" }, { name := "text" }]
  | 9 => declared [{ name := "text" }, { name := "id" }]
  | 10 => declared [{ name := "payload" }]
  | 11 => declared [{ name := "defaultSearch" }]
  | 12 => declared [{ name := "text" }, { name := "ghost" }]
  | 13 => declared [{ name := "coll" }]
  | 14 => (declared [{ name := "text" }]).withCollections ["coll", "text"]
  | 15 => (declared [{ name := "text" }]).withCollections ["ghost"]
  | 16 => (declared [{ name := "text" }]).named "text2"
  | 17 => (declared [{ name := "text", sort := false }]).named "text"
  | 18 => (declared [{ name := "text", filter := false, aliases := ["label"] }]).named "label"
  | 19 => declared [{ name := "text", aliases := ["both"] }, { name := "num", aliases := ["both"] }]
  | 20 => declared [{ name := "text", aliases := ["text2"] },
      { name := "text2", search := true, sort := false }]
  | 21 => declared [{ name := "text", sort := false, aliases := ["id"] }]
  | 22 => declared [{ name := "text", search := true, filter := false, sort := false }]
  | 24 => (declared [{ name := "text" }]).named "id"
  | 25 => declared [{ name := "text", aliases := ["a", "a"] }]
  | 26 => declared [{ name := "changeType", filter := false }]
  | 27 => declared [{ name := "changeType", filter := false, sort := false }]
  | 28 => (declared [{ name := "num", filter := false }, { name := "date", sort := false },
      { name := "enum" }, { name := "bool", search := true }]).withCollections ["coll"]
  | 29 => declared [{ name := "text", sort := false, aliases := ["u"] },
      { name := "text2", filter := false, aliases := ["u"] }, { name := "enum", aliases := ["v"] }]
  | _ => declared []

/-- The fields without values. -/
def emptyFields : List (String × ValueKind) :=
  [("text", .string), ("text2", .string), ("payload", .string), ("defaultSearch", .string),
    ("changeType", .string), ("num", .number), ("date", .date), ("enum", .enum),
    ("bool", .boolean), ("coll", .collection)]

/-- Reads a specimen. -/
def ofData? {n : Nat} (form : Form) (d : Data) : Option (Specimen n) := do
  let ms ← d.toMembers? form ["id"] []
  return { id := ← ms.required "id" Data.toText? }

end Specimen

instance (n : Nat) : Indexed (Specimen n) where
  entityType := Specimen.typeName n
  declaration := Specimen.declaration n
  accessors := ("id", ⟨.string, fun s => .text s.id⟩) ::
    Specimen.emptyFields.map fun (name, kind) => (name, ⟨kind, fun _ => .null⟩)
  id := Specimen.id
  toData s := .record [("id", .text s.id)]
  ofData? := Specimen.ofData?

end Codebook
