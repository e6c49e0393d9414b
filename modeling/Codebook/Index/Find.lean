/-
# Searching an index

Requests for entities: by criteria, by primary keys, by their parents, and by names. Each request
runs one search. An entity is found by its primary key whether it is closed or not; by its parent
or its name it is found only while it is active.

Key definitions: `Index.find`, `Index.count`, `Index.findById`, `Index.findByIds`,
`Index.findAllByRelative`, `Index.findUniqueByRelative`, `Index.findNamed`.
-/
import Codebook.Index.Basic

namespace Codebook.Index

/-- Criteria for the first page of the default size. -/
def defaultCriteria (i : Index) : Criteria :=
  ({} : Criteria).page 0 (min i.config.defaultPageSize Number.maxInt32.toNat)

/-- Compiles criteria for the index. -/
def compile (i : Index) (c : Criteria) : Except IndexError Compiled :=
  c.compile i.schema i.config.zone

/-- A page of the entities that fit criteria. -/
def find (α : Type) [Indexed α] (c : Criteria) : LookupM (FilterResult α) := do
  let i ← get
  let compiled ← i.compile c
  let content ← searcher
  recordSearch
  content.find α i.schema compiled c.offset c.limit?

/-- The number of entities that fit criteria. -/
def count (c : Criteria) : LookupM Nat := do
  let compiled ← (← get).compile c
  let content ← searcher
  recordSearch
  content.count compiled

/-- A filter by a text. -/
def textFilter (value : String) : Filter :=
  (Test.stringEq value).required

/-- The field by which entities are found by primary key. -/
def keyField : String := "id"

/-- The entity with a primary key. -/
def findById (α : Type) [Indexed α] (id : String) : LookupM (Option α) := do
  if Text.isBlank id then return none
  let c := { ({} : Criteria) with activity := .all }
  return (← find α ((c.filter keyField (textFilter id)).page 0 1)).items.head?

/-- The entity with a primary key, which has to exist. -/
def getById (α : Type) [Indexed α] (id : String) : LookupM α := do
  match ← findById α id with
  | some a => return a
  | none => throw (.notFound (← get).name id)

/-- Picks the entities with these primary keys one after the other. A key that is repeated finds
nothing the second time. -/
def pickByIds {α : Type} [Indexed α] : List String → List α → List α
  | [], _ => []
  | id :: ids, found =>
    match found.reverse.find? fun a => Indexed.id a == id with
    | some a => a :: pickByIds ids (found.filter fun a => Indexed.id a != id)
    | none => pickByIds ids found

/-- The entities with these primary keys, in their order, without those that do not exist. -/
def findByIds (α : Type) [Indexed α] (ids : List String) : LookupM (List α) := do
  let wanted := ids.filter fun id => !Text.isBlank id
  if wanted.isEmpty then return []
  let c := { Criteria.unbounded with activity := .all }
  let result ← find α (c.filter keyField (Test.stringSet wanted .or).required)
  return pickByIds wanted result.items

/-- The entities with these primary keys, in their order. All of them have to exist. -/
def getByIds (α : Type) [Indexed α] (ids : List String) : LookupM (List α) := do
  let found ← findByIds α ids
  match ids.find? fun id => !found.any fun a => Indexed.id a == id with
  | some id => throw (.notFound (← get).name id)
  | none => return found

/-- The active entities of a parent. -/
def findAllByRelative (α : Type) [Indexed α] (relationField relatedId : String) :
    LookupM (List α) := do
  return (← find α (Criteria.unbounded.filter relationField (textFilter relatedId))).items

/-- The active entity of a parent with a value in a field. There must not be two of them. -/
def findUniqueByRelative (α : Type) [Indexed α] (relationField relatedId valueField value : String) :
    LookupM (Option α) := do
  let c := (({} : Criteria).filter relationField (textFilter relatedId)).filter valueField
    (textFilter value)
  let items := (← find α (c.page 0 2)).items
  if 1 < items.length then throw (.duplicateValue (← get).name valueField value)
  return items.getLast?

/-- The active entity with a name in any case, among the children of a parent if one is given. -/
def findNamed (α : Type) [Indexed α] (parent : Option (String × String)) (name : String) :
    LookupM (Option α) := do
  if Text.isBlank name then return none
  let c : Criteria := match parent with
    | some (relationField, relatedId) => ({} : Criteria).filter relationField (textFilter relatedId)
    | none => {}
  let c := c.filter nameKeyField (textFilter (Text.lower name))
  return (← find α (c.page 0 1)).items.head?

end Codebook.Index
