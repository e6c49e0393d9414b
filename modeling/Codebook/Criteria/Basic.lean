/-
# Criteria

A request for entities: filters, free text, visibility, an order and a page of the result.

Key definitions: `SortOrder`, `Criteria`, `Criteria.limit?`, `Criteria.validate`, `FilterResult`.
-/
import Codebook.Criteria.Filter
import Codebook.ModelError

namespace Codebook

/-- The direction of an order. -/
inductive SortOrder where
  /-- The least value comes first. -/
  | ascending
  /-- The greatest value comes first. -/
  | descending
deriving DecidableEq, Repr, Inhabited

namespace SortOrder

/-- The name in data. -/
def name : SortOrder → String
  | ascending => "ASC"
  | descending => "DESC"

/-- The order of that name. -/
def named? (s : String) : Option SortOrder :=
  [ascending, descending].find? fun o => o.name == s

end SortOrder

/-- A request for entities. -/
structure Criteria where
  /-- The field to sort by, if not in the natural order of the entities. -/
  sortKey : Option String := none
  /-- The direction of that order. -/
  sortOrder : SortOrder := .ascending
  /-- The number of entities to pass over. -/
  offset : Nat := 0
  /-- The number of entities on the page; -1 stands for all. -/
  count : Int := 100
  /-- Free text, by the beginnings of words. -/
  search : Option String := none
  /-- How the free text is joined to the filters. -/
  searchCondition : Condition := .and
  /-- The filters. -/
  filters : Filters := []
  /-- The visible change types. -/
  activity : Activity := .actual
deriving BEq

namespace Criteria

/-- A request for every entity that fits. -/
def unbounded : Criteria := { count := -1 }

/-- The request with one more filter. -/
def filter (c : Criteria) (field : String) (f : Filter) : Criteria :=
  { c with filters := c.filters.insert field f }

/-- The request with another order. -/
def sort (c : Criteria) (field : String) (order : SortOrder) : Criteria :=
  { c with sortKey := some field, sortOrder := order }

/-- The request for another page. -/
def page (c : Criteria) (offset : Nat) (count : Int) : Criteria :=
  { c with offset, count }

/-- The number of entities on the page, if it is bounded. -/
def limit? (c : Criteria) : Option Nat :=
  if c.count < 0 then none else some c.count.toNat

/-- A count is a number of entities, or stands for all of them. -/
def validate (c : Criteria) : Except ModelError Unit :=
  if -1 ≤ c.count then .ok ()
  else .error (.invalidCriteria s!"count must be >= 0 or -1, got {c.count}")

end Criteria

/-- A page of what fits a request. -/
structure FilterResult (α : Type) where
  /-- What is on the page. -/
  items : List α
  /-- The number of all that fits. -/
  countByFilter : Nat
  /-- The number of all there is. -/
  totalCount : Nat
deriving Repr

/-- A page as data. -/
def FilterResult.toData {α : Type} (item : α → Data) (r : FilterResult α) : Data :=
  .record [("items", .list (r.items.map item)), ("countByFilter", .int r.countByFilter),
    ("totalCount", .int r.totalCount)]

end Codebook
