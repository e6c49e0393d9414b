/-
# Filters

A filter is a test on one field together with the condition that joins it to the filters before
it. Filters are kept in the order in which their fields were first set; setting a field again
replaces its filter in place. A clause is a test made of filters of its own.

Key definitions: `Test`, `Filter`, `Filters`, `Filters.insert`, `Filters.replace`, `Filters.remove`,
`Filters.ofList`.
-/
import Codebook.Criteria.Activity

namespace Codebook

/-- Something joined to what comes before it by a condition. -/
structure Joined (α : Type) where
  /-- The condition. -/
  condition : Condition
  /-- What is joined. -/
  item : α
deriving BEq, Repr

/-- A test on a field. -/
inductive Test where
  /-- The field has no value. -/
  | empty
  /-- The field has a value. -/
  | notEmpty
  /-- The field has this truth value. -/
  | boolean (value : Bool)
  /-- The field has one of these enumerated values, all of them, or none, by the condition. -/
  | enumSet (values : List String) (inner : Condition)
  /-- The field has one of these texts, all of them, or none. A blank text stands for no value. -/
  | stringSet (values : List String) (inner : Condition)
  /-- The field has this text. A blank text stands for no value. -/
  | stringEq (value : String)
  /-- The field falls on a day between two days, both included. A missing bound is open. -/
  | dateRange (first last : Option Instant)
  /-- The filters hold together. -/
  | clause (filters : List (String × Joined Test))
deriving BEq, Repr

/-- A test with its condition. -/
abbrev Filter := Joined Test

/-- Filters by the names of their fields, in the order in which the names were first set. -/
abbrev Filters := List (String × Filter)

namespace Test

/-- The test as a filter that has to hold. -/
def required (t : Test) : Filter :=
  ⟨.and, t⟩

/-- The test with another condition between its values. Only sets of values have one. -/
def withInner (c : Condition) : Test → Test
  | enumSet values _ => enumSet values c
  | stringSet values _ => stringSet values c
  | t => t

end Test

namespace Filters

/-- Sets the filter of a field: in its place if the field has one, at the end if not. -/
def insert (field : String) (f : Filter) : Filters → Filters
  | [] => [(field, f)]
  | (name, g) :: rest =>
    if name = field then (name, f) :: rest else (name, g) :: insert field f rest

/-- The filter of a field. -/
def get? (fs : Filters) (field : String) : Option Filter :=
  fs.lookup field

/-- Removes the filter of a field. -/
def erase (field : String) : Filters → Filters
  | [] => []
  | (name, g) :: rest => if name = field then rest else (name, g) :: erase field rest

/-- Sets the filter of a field, and answers the one that it replaces. -/
def replace (field : String) (f : Filter) : Filters → Option Filter × Filters
  | [] => (none, [(field, f)])
  | (name, g) :: rest =>
    if name = field then (some g, (name, f) :: rest)
    else ((replace field f rest).1, (name, g) :: (replace field f rest).2)

/-- Removes the filter of a field and answers it. -/
def remove (field : String) : Filters → Option Filter × Filters
  | [] => (none, [])
  | (name, g) :: rest =>
    if name = field then (some g, rest)
    else ((remove field rest).1, (name, g) :: (remove field rest).2)

/-- Sets the filters of a list one after the other. -/
def ofList (fs : List (String × Filter)) : Filters :=
  fs.foldl (fun acc (field, f) => acc.insert field f) []

/-- The fields in order. -/
def names (fs : Filters) : List String :=
  fs.map (·.1)

end Filters

end Codebook
