/-
# Changes as data

A change that is to be staged in a transaction arrives as a record: an entity or several to put in,
the primary key of one to remove, or entities to close. A change that cannot be staged is answered
by its error, and the transaction goes on.

Key definitions: `SampleKind.readEntities`, `Transaction.stageData`.
-/
import Codebook.Index.Transaction
import Codebook.Report.Error
import Codebook.Samples.Kind

namespace Codebook

/-- Reads entities of a type. -/
def SampleKind.readEntities (t : SampleKind) (items : List Data) : Except Data (List t.Entity) :=
  match items.mapM (Indexed.ofData? .written) with
  | some as => .ok as
  | none => .error badJson

namespace Transaction

/-- Stages entities, and answers with them if they were closed before. -/
def stageAll (x : Transaction) (t : SampleKind) (s : Schema) (closed : Bool) (as : List t.Entity) :
    Data × Transaction :=
  match x.upsertAll s as with
  | (.error e, x) => (e.toData, x)
  | (.ok (), x) =>
    (if closed then .record [("closed", .list (as.map Indexed.toData))] else .null, x)

/-- The entities that a change puts in, and whether it closes them at a time. -/
def entitiesOf (t : SampleKind) (now : Instant) (d : Data) : Except Data (List t.Entity × Bool) :=
  if d.has "upsert" then return (← t.readEntities [d.get "upsert"], false)
  else if d.has "upsert_all" then return (← t.readEntities (d.items "upsert_all"), false)
  else if t.versioned?.isNone then .error (failureData "NotVersioned" none)
  else return ((← t.readEntities (d.items "close")).filterMap fun a => t.touch? a now .close, true)

/-- Stages a change, and answers it. -/
def stageData (x : Transaction) (t : SampleKind) (s : Schema) (now : Instant) (d : Data) :
    Data × Transaction :=
  if d.has "remove" then (.null, x.remove (d.str "remove"))
  else
    match entitiesOf t now d with
    | .error e => (e, x)
    | .ok (as, closed) => x.stageAll t s closed as

end Transaction

end Codebook
