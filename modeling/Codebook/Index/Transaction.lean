/-
# Transactions

A transaction stages changes and commits them together, or not at all. The writer applies the
changes in order; an upsert first removes every document with its key, so a key has one document
unless it is blank, in which case no document can be found by it. A commit that fails leaves the
index as it was. A transaction that ends otherwise counts as rolled back.

Key definitions: `Change.apply`, `applyChanges`, `Transaction`, `Index.begin`,
`Transaction.upsert`, `Transaction.remove`, `Transaction.close`, `Index.commit`, `Index.rollback`,
`Index.putAll`.
-/
import Codebook.Index.Basic

namespace Codebook

/-- The documents after a change. -/
def Change.apply (s : Schema) (documents : List Document) : Change → List Document
  | upsert key document => documents.filter (fun d => !d.hasKey s key) ++ [document]
  | delete key => documents.filter fun d => !d.hasKey s key

/-- The documents after changes, one after the other. -/
def applyChanges (s : Schema) (documents : List Document) (changes : List Change) :
    List Document :=
  changes.foldl (Change.apply s) documents

/-- How many documents changes write. -/
def writtenCount (changes : List Change) : Nat :=
  changes.countP fun
    | .upsert .. => true
    | .delete _ => false

/-- Changes that are staged. -/
structure Transaction where
  /-- The changes in order. -/
  changes : List Change := []
deriving Repr

namespace Transaction

/-- The number of staged changes. -/
def size (t : Transaction) : Nat :=
  t.changes.length

/-- Stages a change. -/
def stage (t : Transaction) (c : Change) : Transaction :=
  { changes := t.changes ++ [c] }

/-- Stages an entity. -/
def upsert {α : Type} [Indexed α] (s : Schema) (t : Transaction) (a : α) :
    Except IndexError Transaction := do
  return t.stage (.upsert (Indexed.id a) (← Document.encode s a))

/-- Stages entities up to the first that cannot be encoded, and tells whether one could not. -/
def upsertAll {α : Type} [Indexed α] (s : Schema) (t : Transaction) :
    List α → Except IndexError Unit × Transaction
  | [] => (.ok (), t)
  | a :: as =>
    match t.upsert s a with
    | .ok t => upsertAll s t as
    | .error e => (.error e, t)

/-- Stages the removal of an entity. -/
def remove (t : Transaction) (id : String) : Transaction :=
  t.stage (.delete id)

/-- Closes entities and stages them. Closing them is left to the caller, who needs the time. -/
def close {α : Type} [Indexed α] [Versioned α] (s : Schema) (t : Transaction) (now : Instant)
    (as : List α) : Except IndexError Unit × Transaction × List α :=
  let closed := as.map fun a => Versioned.close a now
  let (result, t) := t.upsertAll s closed
  (result, t, closed)

/-- The writer with its staged changes in diagnostics. -/
def guardLabel (i : Index) (t : Transaction) : String :=
  Diagnostic.someMembers "IndexWriterGuard" [("index", Text.quote i.name),
    ("changes", toString t.size)]

/-- The transaction in diagnostics. -/
def label (i : Index) (t : Transaction) : String :=
  Diagnostic.someMembers "IndexTransaction" [("guard", t.guardLabel i)]

end Transaction

namespace Index

/-- Begins a transaction, for which the index has to be open. -/
def begin : IndexM Transaction := do
  let i ← current
  if i.writer.isNone then throw (.closed i.name)
  return {}

/-- The documents of a writer after changes, written to its generation. -/
def applyTo (w : Writer) (changes : List Change) : IndexM Writer := do
  let i ← current
  let documents := applyChanges i.schema w.documents changes
  onDisk (perform .search
    [.publish (w.path ++ [IndexDirectory.contentName]) { i.emptyContent with documents }])
  return { w with documents }

/-- Counts a failure and passes it on. -/
def failed {α : Type} (e : IndexError) : IndexM α := do
  update fun i => { i with statistics := i.statistics.recordError }
  throw e

/-- Commits a transaction and shows it to searches. A rebuild under way takes note of it. -/
def commit (t : Transaction) : IndexM Unit := do
  let i ← current
  let some w := i.writer | throw (.closed i.name)
  if t.changes.isEmpty then
    update fun i => { i with statistics := i.statistics.recordCommit 0 0 }
  else
    let w ← tryCatch (applyTo w t.changes) failed
    let written := writtenCount t.changes
    update fun i => { i with
      writer := some w
      journal := i.journal.map (· ++ t.changes)
      statistics := i.statistics.recordCommit written (t.size - written) }
    refresh

/-- Ends a transaction without a trace, but for a counter. -/
def rollback : IndexM Unit :=
  update fun i => { i with statistics := i.statistics.recordRollback }

/-- Puts entities into the index, all of them or none. -/
def putAll {α : Type} [Indexed α] (as : List α) : IndexM Unit := do
  let t ← begin
  match t.upsertAll (← current).schema as with
  | (.ok (), t) => commit t
  | (.error e, _) => do
    rollback
    throw e

end Index

end Codebook
