/-
# Rebuilding an index

A rebuild fills a new generation while the live one goes on serving searches and transactions.
What is committed in the meantime is kept in a journal. At the end, with the writer at rest, the
journal is replayed into the new generation, which then becomes the live one, and the old one is
removed. A rebuild that fails removes what it made and leaves the rest alone. There is one rebuild
of an index at a time.

A rebuild consists of parts, between which other work can happen: the beginning, the filling, and
the end.

Key definitions: `Building`, `Index.beginRebuild`, `Building.add`, `Index.finishRebuild`,
`Index.abandonRebuild`, `Index.rebuild`, `Index.rebuildFrom`.
-/
import Codebook.Index.Transaction
import Codebook.Store.Source

namespace Codebook

/-- A generation that is being filled. -/
structure Building where
  /-- Its number. -/
  number : Nat
  /-- Its writer, which has committed nothing yet. -/
  writer : Writer
  /-- The documents added so far. -/
  documents : List Document := []
deriving Repr

namespace Building

/-- The number of documents added so far. -/
def size (b : Building) : Nat :=
  b.documents.length

/-- Adds documents. -/
def add (b : Building) (documents : List Document) : Building :=
  { b with documents := b.documents ++ documents }

/-- The writer of a rebuild in diagnostics. -/
def label (b : Building) : String :=
  Diagnostic.someMembers "RebuildWriter" [("documents", toString b.size)]

end Building

namespace Index

/-- The directory of an open index. -/
def liveDirectory : IndexM IndexDirectory := do
  match (← current).live with
  | some live => return live.directory
  | none => throw (.closed (← current).name)

/-- Starts the journal, unless there is one. -/
def startJournal : IndexM Unit := do
  let i ← current
  if i.isRebuilding then throw (.writeConflict i.name IndexError.rebuilding)
  update fun i => { i with journal := some [] }

/-- Gives up a rebuild that failed: its journal is dropped and the failure counted. -/
def dropJournal {α : Type} (e : IndexError) : IndexM α := do
  update fun i => { i with journal := none }
  failed e

/-- Removes the directory of a generation that was not finished, as far as it can be removed. -/
def discard (path : Path) : IndexM Unit :=
  onDisk (modify fun disk => (disk.runAll [.removeDirectory path]).2)

/-- Makes the content and the writer of a new generation. -/
def startBuilding (number : Nat) (path : Path) : IndexM Building := do
  let i ← current
  let _ ← onDisk (createContent i path)
  let writer ← onDisk (createWriter i path [])
  return { number, writer }

/-- Begins a rebuild. -/
def beginRebuild : IndexM Building := do
  startJournal
  tryCatch (do
      let directory ← liveDirectory
      let number ← onDisk directory.create
      let path := directory.generationPath number
      tryCatch (startBuilding number path) fun e => do
        discard path
        throw e)
    dropJournal

/-- Gives up a rebuild. -/
def abandonRebuild {α : Type} (b : Building) (e : IndexError) : IndexM α := do
  onDisk (perform .io (Writer.releaseSteps b.writer))
  discard b.writer.path
  dropJournal e

/-- Commits what was added to a new generation. -/
def commitBuilding (b : Building) : IndexM Writer := do
  applyTo { b.writer with documents := b.documents } []

/-- Takes the journal away. -/
def takeJournal : IndexM (List Change) := do
  let journal := (← current).journal.getD []
  update fun i => { i with journal := none }
  return journal

/-- Replays a journal into a new generation. -/
def replay (w : Writer) (journal : List Change) : IndexM Writer :=
  if journal.isEmpty then pure w else applyTo w journal

/-- Replays the journal into a new generation and makes it the live one. The answer is the number
of the old generation and the number of documents of the new one. -/
def swapIn (number : Nat) (w : Writer) : IndexM (Nat × Nat) := do
  let w ← replay w (← takeJournal)
  let content ← onDisk (readContent w.path)
  let old ← liveDirectory
  let directory ← onDisk (old.swap number)
  let retired := (← current).writer
  update fun i => { i with writer := some w, live := some { directory, content } }
  if let some r := retired then onDisk (perform .io (Writer.releaseSteps r))
  return (old.current, content.size)

/-- Removes the generation that was live before, if that is possible. -/
def removeRetired (number : Nat) : IndexM Unit :=
  tryCatch (do onDisk ((← liveDirectory).remove number)) fun _ => pure ()

/-- Ends a rebuild. The answer is the number of documents of the new generation. -/
def finishRebuild (b : Building) : IndexM Nat := do
  let (old, documents) ← tryCatch (do swapIn b.number (← commitBuilding b)) (abandonRebuild b)
  removeRetired old
  update fun i => { i with statistics := i.statistics.recordRebuild documents }
  return documents

/-- Rebuilds the index. -/
def rebuild (fill : Building → IndexM Building) : IndexM Nat := do
  let b ← beginRebuild
  let b ← tryCatch (fill b) (abandonRebuild b)
  finishRebuild b

/-- Adds the documents of entities to a new generation. -/
def addEntities {α : Type} [Indexed α] (b : Building) (as : List α) : IndexM Building := do
  let s := (← current).schema
  let documents ← (as.mapM (Document.encode s) : Except IndexError (List Document))
  return b.add documents

/-- Adds the documents of the pages of a store to a new generation. -/
def addPages {α : Type} [Indexed α] (b : Building) :
    List (Except StoreError (List α)) → IndexM Building
  | [] => pure b
  | page :: pages => do
    let as ← page.mapError IndexError.storage
    addPages (← addEntities b as) pages

/-- Rebuilds the index from a store, whose entities are read page by page. -/
def rebuildFrom {α : Type} [Indexed α] (source : Source α) : IndexM Nat := do
  let _ ← source.count.mapError IndexError.storage
  rebuild fun b => do
    let pages ← (source.pages (← current).config.rebuildPageSize).mapError IndexError.storage
    addPages b pages

/-- Whether the index and its store disagree on the number of entities. -/
def isCorrupted {α : Type} (source : Source α) : IndexM Bool := do
  let indexed ← lookup numDocs
  let expected ← source.count.mapError IndexError.storage
  return indexed != expected

end Index

end Codebook
