/-
# Reports of rebuilds

Events and the results of rebuilds, as they are shown to others and asked for by them.

Key definitions: `Event.ofData`, `Published.toData`, `RebuildRequest.ofData`,
`RebuildSummary.report`.
-/
import Codebook.Coordinator
import Codebook.Data.Access

namespace Codebook

open Data

/-- Reads what to rebuild. -/
def RebuildRequest.ofData (d : Data) : RebuildRequest :=
  { targets := if d.given "targets" then some (d.strs "targets") else none
    force := d.flag "force" }

/-- Reads an event: a type and its number of documents, or what to rebuild. -/
def Event.ofData (d : Data) : Event :=
  match d.items "rebuilt" with
  | [.text name, .int n] => .rebuilt name n.toNat
  | _ =>
    let request := RebuildRequest.ofData (d.get "requested")
    .rebuildRequested request.targets request.force

/-- The event with its number as data. -/
def Published.toData (p : Published) : Data :=
  .list [num p.sequence, p.event.toData]

/-- The report on a run, and whether it succeeded. -/
def RebuildSummary.report (s : RebuildSummary) : List (String × Data) :=
  [("summary", s.toData), ("success", .bool s.isSuccess)]

end Codebook
