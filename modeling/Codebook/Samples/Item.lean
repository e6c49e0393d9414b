/-
# Items

A sample type of entities that has fields of every kind and uses every capability that can be
declared: fields closed to filters or to orders, aliases that two fields share, and values that
do not fit the declared kind. There is a second form of it with fewer fields, which is another
layout of the same index.

Key definitions: `Item`, `RevisedItem`.
-/
import Codebook.Data.Reader
import Codebook.Entity.Basic

namespace Codebook

/-- A sample entity. -/
structure Item where
  /-- The primary key. -/
  id : String
  /-- The name. -/
  name : Option String
  /-- A fraction, written as text. -/
  price : Option String
  /-- A whole number. -/
  count : Option Int
  /-- A truth value. -/
  flag : Option Bool
  /-- An instant. -/
  due : Option Instant
  /-- An instant that gives no order. -/
  seen : Option Instant
  /-- One of several names. -/
  level : Option String
  /-- A text that shares an alias. -/
  left : Option String
  /-- Another text that shares an alias. -/
  right : Option String
  /-- A text for free text only. -/
  note : Option String
  /-- A whole number for orders only. -/
  rank : Option Int
  /-- A text that is declared as a number. -/
  broken : Option String
  /-- A collection. -/
  tags : List String
deriving DecidableEq, Repr

namespace Item

/-- The value of a field that may be missing. -/
def value {α : Type} (make : α → FieldValue) : Option α → FieldValue
  | some a => make a
  | none => .null

/-- The item as data. -/
def toData (s : Item) : Data :=
  let orNull {α : Type} (make : α → Data) (a : Option α) : Data := (a.map make).getD .null
  .record [("id", .text s.id), ("name", .ofText? s.name), ("price", .ofText? s.price),
    ("count", orNull .int s.count), ("flag", orNull .bool s.flag),
    ("due", orNull (fun i => .text i.toText) s.due),
    ("seen", orNull (fun i => .text i.toText) s.seen), ("level", .ofText? s.level),
    ("left", .ofText? s.left), ("right", .ofText? s.right), ("note", .ofText? s.note),
    ("rank", orNull .int s.rank), ("broken", .ofText? s.broken), ("tags", .ofTexts s.tags)]

/-- Reads an item. -/
def ofData? (form : Form) (d : Data) : Option Item := do
  let ms ← d.toMembers? form ["id", "name", "price", "count", "flag", "due", "seen", "level",
    "left", "right", "note", "rank", "broken", "tags"] ["tags"]
  return {
    id := ← ms.required "id" Data.toText?
    name := ← ms.optional "name" Data.toText?
    price := ← ms.optional "price" Data.toText?
    count := ← ms.optional "count" Data.toInt64?
    flag := ← ms.optional "flag" Data.toBool?
    due := ← ms.optional "due" Data.toInstant?
    seen := ← ms.optional "seen" Data.toInstant?
    level := ← ms.optional "level" Data.toText?
    left := ← ms.optional "left" Data.toText?
    right := ← ms.optional "right" Data.toText?
    note := ← ms.optional "note" Data.toText?
    rank := ← ms.optional "rank" Data.toInt64?
    broken := ← ms.optional "broken" Data.toText?
    tags := ← ms.defaulted "tags" [] (Data.toList? Data.toText?) }

end Item

instance : Indexed Item where
  entityType := "Sample"
  declaration := {
    primaryKey := "id"
    fields := [
      { name := "name", search := true },
      { name := "price", search := true },
      { name := "count", search := true },
      { name := "flag", search := true },
      { name := "due", search := true },
      { name := "seen", sort := false },
      { name := "level", search := true },
      { name := "left", aliases := ["side"] },
      { name := "right", sort := false, aliases := ["side", "other"] },
      { name := "note", search := true, filter := false, sort := false },
      { name := "rank", filter := false },
      { name := "broken" }]
    collections := ["tags"]
    nameField := some "name" }
  accessors := [
    ("id", ⟨.string, fun s => .text s.id⟩),
    ("name", ⟨.string, fun s => .ofText? s.name⟩),
    ("price", ⟨.number, fun s => Item.value .float (s.price.bind Number.Double.read)⟩),
    ("count", ⟨.number, fun s => Item.value .integer s.count⟩),
    ("flag", ⟨.boolean, fun s => Item.value .bool s.flag⟩),
    ("due", ⟨.date, fun s => Item.value .date s.due⟩),
    ("seen", ⟨.date, fun s => Item.value .date s.seen⟩),
    ("level", ⟨.enum, fun s => .ofText? s.level⟩),
    ("left", ⟨.string, fun s => .ofText? s.left⟩),
    ("right", ⟨.string, fun s => .ofText? s.right⟩),
    ("note", ⟨.string, fun s => .ofText? s.note⟩),
    ("rank", ⟨.number, fun s => Item.value .integer s.rank⟩),
    ("broken", ⟨.number, fun s => .ofText? s.broken⟩),
    ("tags", ⟨.collection, fun _ => .null⟩)]
  id := Item.id
  toData := Item.toData
  ofData? := Item.ofData?

/-- An item of which only the name is left. -/
structure RevisedItem where
  /-- The primary key. -/
  id : String
  /-- The name. -/
  name : Option String
deriving DecidableEq, Repr

/-- Reads an item. -/
def RevisedItem.ofData? (form : Form) (d : Data) : Option RevisedItem := do
  let ms ← d.toMembers? form ["id", "name"] []
  return {
    id := ← ms.required "id" Data.toText?
    name := ← ms.optional "name" Data.toText? }

instance : Indexed RevisedItem where
  entityType := "Sample"
  declaration := { primaryKey := "id", fields := [{ name := "name" }], nameField := some "name" }
  accessors := [
    ("id", ⟨.string, fun s => .text s.id⟩),
    ("name", ⟨.string, fun s => .ofText? s.name⟩)]
  id := RevisedItem.id
  toData s := .record [("id", .text s.id), ("name", .ofText? s.name)]
  ofData? := RevisedItem.ofData?

end Codebook
