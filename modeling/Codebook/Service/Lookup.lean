/-
# Lookups

Everything that can be asked of an index without changing it, as one type, and the answers as
data. A lookup arrives as a record whose member `do` names it. Of the entities in an answer one may
want to see a single member only, which is named by the member `show`.

Key definitions: `Lookup`, `Lookup.ofData?`, `Lookup.answer`.
-/
import Codebook.Data.Access
import Codebook.Index.Unique
import Codebook.Report.Criteria
import Codebook.Report.Value

namespace Codebook

open Data

/-- The siblings among which a value is looked for. -/
structure Siblings where
  /-- The field that holds the id of the parent. -/
  relationField : String
  /-- The id of the parent. -/
  relatedId : String
deriving DecidableEq, Repr

/-- A question to an index. -/
inductive Lookup where
  /-- A page of the entities that fit criteria. -/
  | find (c : Criteria)
  /-- The number of entities that fit criteria. -/
  | count (c : Criteria)
  /-- The criteria that are used if none are given. -/
  | defaultCriteria
  /-- The number of documents. -/
  | numDocs
  /-- The entity with a primary key, which may have to exist. -/
  | one (id : String) (mustExist : Bool)
  /-- The entities with primary keys, which may have to exist. -/
  | many (ids : List String) (mustExist : Bool)
  /-- The active entities of a parent. -/
  | children (s : Siblings)
  /-- The active entity of a parent with a value. -/
  | child (s : Siblings) (field value : String)
  /-- Whether no sibling has a value, apart from one that may be excluded. -/
  | isUnique (s : Siblings) (field value : String) (excluding : Option String)
  /-- The same, but a sibling that has the value is an error. -/
  | ensureUnique (s : Siblings) (field value : String) (excluding : Option String)
  /-- Whether no two siblings share a value. -/
  | areAllUnique (s : Siblings) (field : String)
  /-- A value that two siblings share. -/
  | firstDuplicate (s : Siblings) (field : String)

namespace Lookup

/-- The names of the lookups. -/
def names : List String :=
  ["find", "count", "default_criteria", "num_docs", "find_by_id", "get_by_id", "find_by_ids",
    "get_by_ids", "find_all_by_relative", "find_unique_by_relative", "is_unique", "ensure_unique",
    "are_all_unique", "first_duplicate"]

/-- Reads a lookup. Nothing is read if its criteria are not written as they have to be. -/
def ofData? (d : Data) : Option Lookup :=
  let s : Siblings := ⟨d.str "relation_field", d.str "relation_id"⟩
  let field := d.str "field"
  let value := d.str "value"
  let criteria := Criteria.ofData? (d.get "criteria")
  match d.str "do" with
  | "find" => criteria.map find
  | "count" => criteria.map count
  | "default_criteria" => some defaultCriteria
  | "num_docs" => some numDocs
  | "find_by_id" => some (one (d.str "id") false)
  | "get_by_id" => some (one (d.str "id") true)
  | "find_by_ids" => some (many (d.strs "ids") false)
  | "get_by_ids" => some (many (d.strs "ids") true)
  | "find_all_by_relative" => some (children s)
  | "find_unique_by_relative" => some (child s field value)
  | "is_unique" => some (isUnique s field value (d.str? "excluding"))
  | "ensure_unique" => some (ensureUnique s field value (d.str? "excluding"))
  | "are_all_unique" => some (areAllUnique s field)
  | "first_duplicate" => some (firstDuplicate s field)
  | _ => none

/-- An entity in an answer. -/
def shown {α : Type} [Indexed α] (d : Data) (a : α) : Data :=
  if d.has "show" then (Indexed.toData a).get (d.str "show") else Indexed.toData a

/-- A check of a field. -/
def scanner (field : String) : LookupM Scanner := do
  Scanner.new (← get).schema field

/-- The answer to a lookup, in which entities are shown in a certain way. -/
def answer (α : Type) [Indexed α] (render : α → Data) : Lookup → LookupM Data
  | find c => return (← Index.find α c).toData render
  | count c => return num (← Index.count c)
  | defaultCriteria => return (← getThe Index).defaultCriteria.toData
  | numDocs => return num (← Index.numDocs)
  | one id false => return orNull render (← Index.findById α id)
  | one id true => return render (← Index.getById α id)
  | many ids false => return .list ((← Index.findByIds α ids).map render)
  | many ids true => return .list ((← Index.getByIds α ids).map render)
  | children s =>
    return .list ((← Index.findAllByRelative α s.relationField s.relatedId).map render)
  | child s field value =>
    return orNull render (← Index.findUniqueByRelative α s.relationField s.relatedId field value)
  | isUnique s field value excluding =>
    return .bool (← (← scanner field).isUnique s.relationField s.relatedId value excluding)
  | ensureUnique s field value excluding => do
    (← scanner field).ensureUnique s.relationField s.relatedId value excluding
    return .null
  | areAllUnique s field =>
    return .bool (← (← scanner field).areAllUnique α s.relationField s.relatedId)
  | firstDuplicate s field => do
    let scanner ← scanner field
    let duplicate ← scanner.firstDuplicate α s.relationField s.relatedId
    return obj [("field", .text scanner.field.name),
      ("duplicate", orNull FieldValue.toData duplicate)]

end Lookup

end Codebook
