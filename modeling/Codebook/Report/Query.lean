/-
# Reports of queries

Queries, and what criteria are compiled to, as data.

Key definitions: `Query.toData`, `SortKey.toData`, `Compiled.toData`.
-/
import Codebook.Query.Compile
import Codebook.Report.Value

namespace Codebook

/-- How a clause takes part, in reports. -/
def Occurrence.name : Occurrence → String
  | must => "must"
  | should => "should"
  | mustNot => "must_not"

/-- An end of a range as data. -/
def Bound.toData : Bound → Data
  | unbounded => .text "unbounded"
  | included n => .record [("included", .ofDecimal n)]
  | excluded n => .record [("excluded", .ofDecimal n)]

/-- A range as data. -/
def rangeData (column type : String) (lower upper : Data) : Data :=
  .record [("range", .record [("field", .text column), ("type", .text type), ("lower", lower),
    ("upper", upper)])]

namespace Query

mutual

/-- The query as data. -/
def toData : Query → Data
  | all => .text "all"
  | term column (.text s) => .record [("term", .record [("field", .text column), ("text", .text s)])]
  | term column (.date n) =>
    .record [("term", .record [("field", .text column), ("date", .ofDecimal n)])]
  | texts column none => rangeData column "text" (.text "unbounded") (.text "unbounded")
  | texts column (some s) =>
    rangeData column "text" (.record [("included", .text s)]) (.text "unbounded")
  | dates column lower upper => rangeData column "date" lower.toData upper.toData
  | beginning s =>
    .record [("prefix", .record [("field", .text defaultSearchField), ("text", .text s)])]
  | combined clauses => .record [("bool", .list (clauseData clauses))]

/-- Clauses as data. -/
def clauseData : List (Occurrence × Query) → List Data
  | [] => []
  | (o, q) :: rest => .list [.text o.name, toData q] :: clauseData rest

end

end Query

/-- The sort key as data. -/
def SortKey.toData (k : SortKey) : Data :=
  .record [("name", .text k.name), ("kind", .text k.kind.label),
    ("descending", .bool k.descending)]

/-- The compiled criteria as data. -/
def Compiled.toData (c : Compiled) : Data :=
  .record [("query", c.query.toData), ("sort", .list (c.sort.map SortKey.toData)),
    ("activity", (c.activity.map Query.toData).getD .null)]

end Codebook
