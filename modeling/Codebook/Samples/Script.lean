/-
# Scripted units

Units for a coordinator that have no index behind them. A script says whether a unit is found
corrupted, whether the rebuild fails, and whether the rebuild cancels the run. All that units are
asked to do is noted down.

Key definitions: `Script`, `Script.unit`.
-/
import Codebook.Coordinator
import Codebook.Data.Access
import Codebook.Index.Basic

namespace Codebook

/-- What scripted units were asked to do. -/
structure Script where
  /-- The requests in order. -/
  log : Array String := #[]
  /-- Whether the run was cancelled. -/
  cancelled : Bool := false
deriving DecidableEq, Repr

namespace Script

/-- Takes note of a request. -/
def note (request name : String) : ExceptT IndexError (StateM Script) Unit :=
  modify fun s => { s with log := s.log.push (request ++ " " ++ name) }

/-- A unit with the script that a record gives. It is found corrupted unless the record says
otherwise. -/
def unit (d : Data) : RebuildUnit Script where
  name := d.str "name"
  priority := if d.has "priority" then d.whole "priority" else defaultPriority (d.str "name")
  isCorrupted := do
    note "check" (d.str "name")
    return !d.given "corrupted" || d.flag "corrupted"
  rebuild := do
    note "rebuild" (d.str "name")
    if d.flag "cancel" then modify fun s => { s with cancelled := true }
    if d.flag "fail" then throw (.configuration (d.str "name") "rebuild failed")
    return d.natOr "documents" 1

end Script

end Codebook
