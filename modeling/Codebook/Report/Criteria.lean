/-
# Reports of criteria

What criteria ask for, spelled out: the names of their filters and how they are joined, the size
of a page, the changes after which entities are found, and whether the criteria can be met.

Key definitions: `Activity.report`, `Criteria.report`.
-/
import Codebook.Criteria.Text
import Codebook.Data.Access
import Codebook.Report.Error

namespace Codebook

open Data

/-- The report on an activity. -/
def Activity.report (a : Activity) : Data :=
  obj [("text", .text a.toData.toJson), ("is_all", .bool a.admitsAll),
    ("admitted", .ofTexts (a.admitted.map ChangeType.name)),
    ("admits", .list (ChangeType.all.map fun t => .bool (a.admits t)))]

/-- The report on a set of change types, and whether it equals another one. -/
def ChangeSet.report (s other : ChangeSet) : Data :=
  obj [("members", .ofTexts (s.toList.map ChangeType.name)), ("len", num s.size),
    ("is_all", .bool s.isFull), ("is_empty", .bool s.isEmpty),
    ("contains", .list (ChangeType.all.map fun t => .bool (s.contains t))),
    ("same_as_collected", .bool (s == other)), ("debug", .text s.label)]

/-- The report on criteria. -/
def Criteria.report (c : Criteria) : Data :=
  obj [("text", .text c.toJson), ("names", .ofTexts c.filters.names),
    ("conditions", .ofTexts (c.filters.map fun (_, f) => f.condition.name)),
    ("limit", orNull num c.limit?), ("descending", .bool (c.sortOrder == .descending)),
    ("activity", c.activity.report),
    ("round_trip", .bool (Criteria.ofJson? c.toJson == some c)),
    ("validate", match c.validate with
      | .ok () => .text "ok"
      | .error e => e.toData)]

end Codebook
