/-
# Criteria as data

The members of criteria may all be left out. A filter is a record that names its test under
`type`, wherever among its members, or a list that begins with that name. Since a filter is looked
at twice, first for its name and then for its members, everything in it has to be sound, and the
whole text may nest 127 levels deep. The tests inside a clause may also be numbered, from 0, in
place of their names.

Key definitions: `Filters.toData`, `Filters.ofData?`, `Criteria.toData`, `Criteria.ofJson?`.
-/
import Codebook.Criteria.Basic
import Codebook.Data.Json

namespace Codebook

/-- The levels of lists and records that a text may nest. -/
def maxDepth : Nat := 127

/-- An instant as data, or null. -/
def Instant.toData? : Option Instant → Data
  | some i => .text i.toText
  | none => .null

mutual

/-- The name and the members of a test, in order. -/
def Test.toMembers : Test → String × List (String × Data)
  | .empty => ("Empty", [])
  | .notEmpty => ("NotEmpty", [])
  | .boolean value => ("Boolean", [("value", .bool value)])
  | .enumSet values inner =>
    ("EnumSet", [("values", .ofTexts values), ("innerCondition", .text inner.name)])
  | .stringSet values inner =>
    ("StringSet", [("values", .ofTexts values), ("innerCondition", .text inner.name)])
  | .stringEq value => ("StringEq", [("value", .text value)])
  | .dateRange first last =>
    ("DateRange", [("start", Instant.toData? first), ("end", Instant.toData? last)])
  | .clause filters => ("Clause", [("filters", .record (Test.toFields filters))])

/-- Filters as members of a record. -/
def Test.toFields : List (String × Joined Test) → List (String × Data)
  | [] => []
  | (field, ⟨condition, test⟩) :: rest =>
    let (name, members) := test.toMembers
    (field, .record (("type", .text name) :: members ++ [("condition", .text condition.name)])) ::
      Test.toFields rest

end

/-- A filter as data. -/
def Filter.toData (f : Filter) : Data :=
  let (name, members) := f.item.toMembers
  .record (("type", .text name) :: members ++ [("condition", .text f.condition.name)])

/-- Filters as data. -/
def Filters.toData (fs : Filters) : Data :=
  .record (Test.toFields fs)

/-- The names of the tests, by their numbers. -/
def Test.kinds : List String :=
  ["Empty", "NotEmpty", "Boolean", "EnumSet", "StringSet", "StringEq", "DateRange", "Clause"]

/-- The name of a test. Inside a clause it may be given by its number. -/
def Test.kind? (inClause : Bool) : Data → Option String
  | .text s => if Test.kinds.contains s then some s else none
  | .int n => if inClause && 0 ≤ n then Test.kinds[n.toNat]? else none
  | _ => none

/-- The name of the test of a filter, and the rest of the filter. -/
def Filter.split? (inClause : Bool) : Data → Option (String × Data)
  | .record members =>
    match members.partition fun (name, _) => name = "type" with
    | ([(_, kind)], others) => (Test.kind? inClause kind).map fun kind => (kind, .record others)
    | _ => none
  | .list (kind :: items) => (Test.kind? inClause kind).map fun kind => (kind, .list items)
  | _ => none

/-- Reads a test of a given name, with its condition. -/
def Filter.ofKind? (clause : Data → Option Filters) (kind : String) (d : Data) : Option Filter :=
  let members (names defaults : List String) :=
    d.toMembers? .buffered (names ++ defaults ++ ["condition"]) (defaults ++ ["condition"])
  let condition (ms : Members) := ms.defaulted "condition" .and (Condition.ofData? .buffered)
  let inner (ms : Members) := ms.defaulted "innerCondition" .or (Condition.ofData? .buffered)
  let texts := Data.toList? Data.toText?
  match kind with
  | "Empty" => do
    let ms ← members [] []
    return ⟨← condition ms, .empty⟩
  | "NotEmpty" => do
    let ms ← members [] []
    return ⟨← condition ms, .notEmpty⟩
  | "Boolean" => do
    let ms ← members ["value"] []
    return ⟨← condition ms, .boolean (← ms.required "value" Data.toBool?)⟩
  | "EnumSet" => do
    let ms ← members ["values"] ["innerCondition"]
    return ⟨← condition ms, .enumSet (← ms.required "values" texts) (← inner ms)⟩
  | "StringSet" => do
    let ms ← members ["values"] ["innerCondition"]
    return ⟨← condition ms, .stringSet (← ms.required "values" texts) (← inner ms)⟩
  | "StringEq" => do
    let ms ← members ["value"] []
    return ⟨← condition ms, .stringEq (← ms.required "value" Data.toText?)⟩
  | "DateRange" => do
    let ms ← members ["start", "end"] []
    let first ← ms.optional "start" Data.toInstant?
    let last ← ms.optional "end" Data.toInstant?
    return ⟨← condition ms, .dateRange first last⟩
  | "Clause" => do
    let ms ← members ["filters"] []
    return ⟨← condition ms, .clause (← ms.required "filters" clause)⟩
  | _ => none

/-- Reads the filters of a clause, of which `depth` levels may follow. -/
def Filters.ofClause? : Nat → Data → Option Filters
  | 0, _ => none
  | depth + 1, .record members => do
    let fs ← members.mapM fun (field, d) => do
      let (kind, rest) ← Filter.split? true d
      let f ← Filter.ofKind? (Filters.ofClause? depth) kind rest
      return (field, f)
    return Filters.ofList fs
  | _, _ => none

/-- Reads a filter. Lists and records in it nest at most `depth` levels deep. -/
def Filter.ofData? (depth : Nat) (d : Data) : Option Filter :=
  if d.soundWithin depth then do
    let (kind, rest) ← Filter.split? false d
    Filter.ofKind? (Filters.ofClause? depth) kind rest
  else none

/-- Reads filters. A field that is given again replaces its filter. -/
def Filters.ofData? (depth : Nat) : Data → Option Filters
  | .record members => do
    let fs ← members.mapM fun (field, d) => do
      let f ← Filter.ofData? (depth - 1) d
      return (field, f)
    return Filters.ofList fs
  | _ => none

namespace Criteria

/-- The members of criteria, in order. -/
def memberNames : List String :=
  ["sortOrderKey", "sortOrderValue", "offset", "count", "search", "searchCondition", "filters",
    "activity"]

/-- The criteria as data. -/
def toData (c : Criteria) : Data :=
  .record [("sortOrderKey", .ofText? c.sortKey), ("sortOrderValue", .text c.sortOrder.name),
    ("offset", .int c.offset), ("count", .int c.count), ("search", .ofText? c.search),
    ("searchCondition", .text c.searchCondition.name), ("filters", c.filters.toData),
    ("activity", c.activity.toData)]

/-- Reads criteria. -/
def ofData? (d : Data) : Option Criteria := do
  let ms ← d.toMembers? .written memberNames memberNames
  let default : Criteria := {}
  return {
    sortKey := ← ms.optional "sortOrderKey" Data.toText?
    sortOrder := ← ms.defaulted "sortOrderValue" default.sortOrder
      (Data.toName? .written SortOrder.named?)
    offset := ← ms.defaulted "offset" default.offset Data.toNat64?
    count := ← ms.defaulted "count" default.count Data.toInt32?
    search := ← ms.optional "search" Data.toText?
    searchCondition := ← ms.defaulted "searchCondition" default.searchCondition
      (Condition.ofData? .written)
    filters := ← ms.defaulted "filters" default.filters (Filters.ofData? (maxDepth - 1))
    activity := ← ms.defaulted "activity" default.activity (Activity.ofData? (maxDepth - 1)) }

/-- Reads criteria from text. -/
def ofJson? (s : String) : Option Criteria :=
  (Data.ofJson? s).bind ofData?

/-- The criteria as text. -/
def toJson (c : Criteria) : String :=
  c.toData.toJson

end Criteria

end Codebook
