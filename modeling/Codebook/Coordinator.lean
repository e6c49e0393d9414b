/-
# Rebuilding many indexes

A coordinator knows the indexes that can be rebuilt as units and runs those that are asked for one
after the other: by priority, and those of one priority by name. Entities of a type are rebuilt
before those that refer to them. Only units that are found corrupted are rebuilt, unless all are
forced to be. A unit that fails is reported and the next one runs. Once a run is cancelled no
further unit is touched.

A unit is work on some state, of which the coordinator only knows whether the run is cancelled.

Key definitions: `RebuildUnit`, `RebuildRequest`, `RebuildReport`, `RebuildSummary`,
`Coordinator`, `Coordinator.register`, `Coordinator.ordered`, `Coordinator.resolve`,
`Coordinator.run`, `Coordinator.handle`.
-/
import Codebook.Event
import Codebook.IndexError
import Codebook.Text.LowerCase
import Codebook.Text.Quoted

namespace Codebook

/-- An index that can be rebuilt. -/
structure RebuildUnit (σ : Type) where
  /-- The name of the index. -/
  name : String
  /-- When its turn comes: the least number first. -/
  priority : Int
  /-- Finds out whether the index has to be rebuilt. -/
  isCorrupted : ExceptT IndexError (StateM σ) Bool
  /-- Rebuilds the index. The answer is the number of its documents. -/
  rebuild : ExceptT IndexError (StateM σ) Nat

/-- What became of a unit. -/
inductive RebuildStatus where
  /-- The index was intact. -/
  | skipped
  /-- The index was rebuilt. -/
  | finished
  /-- The check or the rebuild failed. -/
  | failed
  /-- The run was cancelled before. -/
  | cancelled
deriving DecidableEq, Repr

/-- The name of the status in reports. -/
def RebuildStatus.name : RebuildStatus → String
  | skipped => "SKIPPED"
  | finished => "FINISHED"
  | failed => "ERROR"
  | cancelled => "CANCELED"

/-- The report on a unit. -/
structure RebuildReport where
  /-- The name of the index. -/
  entityType : String
  /-- What became of it. -/
  status : RebuildStatus
  /-- The number of its documents, if it was rebuilt. -/
  documentCount : Nat := 0
  /-- Why it failed, if it did. -/
  error : Option IndexError := none
deriving DecidableEq, Repr

/-- The report as data. -/
def RebuildReport.toData (r : RebuildReport) : Data :=
  .record <| [("entityType", .text r.entityType), ("status", .text r.status.name),
    ("documentCount", .int r.documentCount)] ++
    (r.error.map fun e => ("error", .text e.message)).toList

/-- What to rebuild. -/
structure RebuildRequest where
  /-- The names of the indexes, in any case, or none for all of them. -/
  targets : Option (List String) := none
  /-- Whether intact indexes are rebuilt too. -/
  force : Bool := false
deriving DecidableEq, Repr

/-- The report on a run. -/
structure RebuildSummary where
  /-- The reports on the units in the order in which they ran. -/
  units : List RebuildReport := []
  /-- The number of those that were rebuilt. -/
  finished : Nat := 0
  /-- The number of those that were intact. -/
  skipped : Nat := 0
  /-- The number of those that failed. -/
  errors : Nat := 0
  /-- The number of those that were not touched. -/
  cancelled : Nat := 0
deriving DecidableEq, Repr

namespace RebuildSummary

/-- The summary with one more report. -/
def push (s : RebuildSummary) (r : RebuildReport) : RebuildSummary :=
  let s := { s with units := s.units ++ [r] }
  match r.status with
  | .finished => { s with finished := s.finished + 1 }
  | .skipped => { s with skipped := s.skipped + 1 }
  | .failed => { s with errors := s.errors + 1 }
  | .cancelled => { s with cancelled := s.cancelled + 1 }

/-- Whether no unit failed. -/
def isSuccess (s : RebuildSummary) : Bool :=
  s.errors == 0

/-- The report on an index. -/
def unit? (s : RebuildSummary) (entityType : String) : Option RebuildReport :=
  s.units.find? fun r => r.entityType == entityType

/-- The summary as data. -/
def toData (s : RebuildSummary) : Data :=
  .record [("units", .list (s.units.map RebuildReport.toData)), ("finished", .int s.finished),
    ("skipped", .int s.skipped), ("errors", .int s.errors), ("cancelled", .int s.cancelled)]

end RebuildSummary

/-- Runs rebuilds. -/
structure Coordinator (σ : Type) where
  /-- The units in the order in which they were registered. -/
  units : List (RebuildUnit σ) := []

namespace Coordinator

variable {σ : Type}

/-- Registers a unit in place of the one of its name. -/
def register (c : Coordinator σ) (u : RebuildUnit σ) : Coordinator σ :=
  { units := (c.units.filter fun v => v.name != u.name) ++ [u] }

/-- Whether the turn of a unit comes no later than that of another. -/
def isBefore (u v : RebuildUnit σ) : Bool :=
  u.priority < v.priority || (u.priority == v.priority && !decide (v.name < u.name))

/-- The units in the order in which they run. -/
def ordered (c : Coordinator σ) : List (RebuildUnit σ) :=
  c.units.mergeSort isBefore

/-- The names of the units in the order in which they run. -/
def unitNames (c : Coordinator σ) : List String :=
  c.ordered.map RebuildUnit.name

/-- The units with these names, in the order in which they run. Every name has to be that of a
unit. -/
def resolve (c : Coordinator σ) : Option (List String) → Except IndexError (List (RebuildUnit σ))
  | none => .ok c.ordered
  | some targets =>
    match targets.find? fun target =>
      !c.ordered.any fun u => Text.eqUpToLatinCase u.name target with
    | some missing => .error (.notFound "RebuildUnit" missing)
    | none => .ok <| c.ordered.filter fun u =>
        targets.any fun target => Text.eqUpToLatinCase u.name target

/-- A run of units changes their state and publishes events. -/
abbrev RunM (σ : Type) := StateM (σ × EventBus)

/-- Does the work of a unit. -/
def work {α : Type} (x : ExceptT IndexError (StateM σ) α) : RunM σ (Except IndexError α) := do
  let (state, bus) ← get
  let (result, state) := x.run state
  set (state, bus)
  return result

/-- Rebuilds a unit and publishes that it was rebuilt. -/
def rebuildUnit (u : RebuildUnit σ) : RunM σ RebuildReport := do
  match ← work u.rebuild with
  | .ok documentCount =>
    modify fun (state, bus) => (state, bus.publish (.rebuilt u.name documentCount))
    return { entityType := u.name, status := .finished, documentCount }
  | .error e => return { entityType := u.name, status := .failed, error := some e }

/-- Rebuilds a unit if it is corrupted or forced to. -/
def runUnit (force : Bool) (u : RebuildUnit σ) : RunM σ RebuildReport := do
  if force then rebuildUnit u
  else
    match ← work u.isCorrupted with
    | .ok true => rebuildUnit u
    | .ok false => return { entityType := u.name, status := .skipped }
    | .error e => return { entityType := u.name, status := .failed, error := some e }

/-- Runs units one after the other. -/
def runUnits (cancelled : σ → Bool) (force : Bool) :
    RebuildSummary → List (RebuildUnit σ) → RunM σ RebuildSummary
  | summary, [] => pure summary
  | summary, u :: us => do
    let report ←
      if cancelled (← get).1 then pure { entityType := u.name, status := .cancelled }
      else runUnit force u
    runUnits cancelled force (summary.push report) us

/-- Runs the units that are asked for. -/
def run (c : Coordinator σ) (cancelled : σ → Bool) (r : RebuildRequest) :
    ExceptT IndexError (RunM σ) RebuildSummary := do
  let us ← c.resolve r.targets
  runUnits cancelled r.force {} us

/-- Runs the units that an event asks for. Other events are ignored. -/
def handle (c : Coordinator σ) (cancelled : σ → Bool) :
    Event → ExceptT IndexError (RunM σ) (Option RebuildSummary)
  | .rebuildRequested targets force => some <$> c.run cancelled { targets, force }
  | .rebuilt .. => pure none

/-- The coordinator in diagnostics. -/
def label (c : Coordinator σ) : String :=
  Diagnostic.someMembers "RebuildCoordinator"
    [("units", Diagnostic.list (c.unitNames.map Text.quote))]

end Coordinator

end Codebook
