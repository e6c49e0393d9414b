/-
# The life of an index

An index is made closed. Opening it brings its directory into order: generations that are not live
are removed, a lock that was left over is cleared, and a generation that was written under other
fields of the engine is made anew, empty. Then the one writer of the index is made, which holds a
lock until the index is closed. Searches read the content as of the last commit.

While the index is rebuilt it keeps a journal of what is committed.

Key definitions: `defaultPriority`, `Writer`, `Live`, `Change`, `Index`, `IndexM`, `LookupM`,
`Index.new`, `Index.open`, `Index.close`, `Index.searcher`, `Index.refresh`.
-/
import Codebook.Index.Config
import Codebook.Index.Directory
import Codebook.Index.Statistics
import Codebook.Schema.Build

namespace Codebook

/-- The priority of a type of entities: that of its place in the hierarchy, and the last for all
types that have none. -/
def defaultPriority : String → Int
  | "Group" => 0
  | "Dictionary" => 10
  | "MetaField" => 20
  | "Field" => 30
  | "RecodeRuleSet" => 40
  | "RecodeRule" => 50
  | "Record" => 60
  | _ => 100

/-- The writer of a generation. -/
structure Writer where
  /-- The directory of the generation. -/
  path : Path
  /-- Who the writer is to the lock of the generation. -/
  holder : Nat
  /-- The documents as of its last commit. -/
  documents : List Document
deriving DecidableEq, Repr

/-- What an open index shows to searches. -/
structure Live where
  /-- The directory of the index. -/
  directory : IndexDirectory
  /-- The content as of the last commit. -/
  content : Generation
deriving DecidableEq, Repr

/-- A change of a transaction. -/
inductive Change where
  /-- The document of a primary key is put in place of the one before it. -/
  | upsert (key : String) (document : Document)
  /-- The document of a primary key is deleted. -/
  | delete (key : String)
deriving DecidableEq, Repr

/-- An index of the entities of one type. -/
structure Index where
  /-- The schema of the entities. -/
  schema : Schema
  /-- The settings. -/
  config : Config := {}
  /-- When its turn to be rebuilt comes: the least number first. -/
  priority : Int := 0
  /-- The writer, while the index is open. -/
  writer : Option Writer := none
  /-- What was committed since a rebuild began, while one is under way. -/
  journal : Option (List Change) := none
  /-- What searches see, while the index is open. -/
  live : Option Live := none
  /-- The counters. -/
  statistics : Statistics := {}

/-- Work with an index and the disk that may fail. What was done before a failure stays done. -/
abbrev IndexM := ExceptT IndexError (StateM (Index × Disk))

/-- Searches in an index. They change nothing but its counters. -/
abbrev LookupM := ExceptT IndexError (StateM Index)

namespace Index

/-- Does work on the disk. -/
def onDisk {α : Type} (work : DiskM IndexError α) : IndexM α := do
  let (index, disk) ← get
  let (result, disk) := work.run disk
  set (index, disk)
  result

/-- Searches an index. -/
def lookup {α : Type} (search : LookupM α) : IndexM α := do
  let (index, disk) ← get
  let (result, index) := search.run index
  set (index, disk)
  result

/-- Changes the index. -/
def update (f : Index → Index) : IndexM Unit :=
  modify fun (index, disk) => (f index, disk)

/-- The index as it is. -/
def current : IndexM Index :=
  return (← get).1

/-- A closed index of the entities of a type. -/
def new (α : Type) [Indexed α] (config : Config) : Except IndexError Index := do
  let schema ← Schema.describe α
  return { schema, config, priority := defaultPriority schema.entityType }

/-- The name of the index. -/
def name (i : Index) : String :=
  i.schema.entityType

/-- Whether the index is open. -/
def isReady (i : Index) : Bool :=
  i.live.isSome

/-- The number of the live generation. -/
def generation? (i : Index) : Option Nat :=
  i.live.map fun live => live.directory.current

/-- Whether a rebuild is under way. -/
def isRebuilding (i : Index) : Bool :=
  i.journal.isSome

/-- The index in diagnostics. -/
def label (i : Index) : String :=
  Diagnostic.someMembers "IndexManager" [("name", Text.quote i.name),
    ("state", if i.isReady then "Ready" else "Closed"),
    ("generation", Diagnostic.option (i.generation?.map toString))]

/-- The service of the index in diagnostics. -/
def serviceLabel (i : Index) : String :=
  Diagnostic.someMembers "DocumentService" [("manager", i.label), ("priority", toString i.priority)]

/-- A content without documents. -/
def emptyContent (i : Index) : Generation :=
  { layout := i.schema.layout, documents := [] }

/-- What searches see. -/
def searcher : LookupM Generation := do
  match (← get).live with
  | some live => return live.content
  | none => throw (.closed (← get).name)

/-- Counts a search. -/
def recordSearch : LookupM Unit :=
  modify fun i => { i with statistics := i.statistics.recordSearch }

/-- The number of documents. -/
def numDocs : LookupM Nat :=
  return (← searcher).size

/-- The content of a generation on the disk. -/
def readContent (path : Path) : DiskM IndexError Generation := do
  match (← get).node? (path ++ [IndexDirectory.contentName]) with
  | some (.generation g) => return g
  | _ => throw .search

/-- Writes a content that has no documents. -/
def createContent (i : Index) (path : Path) : DiskM IndexError Generation := do
  perform .search [.publish (path ++ [IndexDirectory.contentName]) i.emptyContent]
  return i.emptyContent

/-- The content of a generation. One that was not written under the fields of the schema is made
anew. -/
def openOrCreate (i : Index) (path : Path) : DiskM IndexError Generation := do
  if (← get).contains (path ++ [IndexDirectory.contentName]) then
    let g ← readContent path
    if g.layout = i.schema.layout then return g
    perform .io [.removeDirectory path, .makeDirectory path]
  createContent i path

/-- Makes the writer of a generation, if nobody holds its lock. The engine refuses a writer with
too much memory. -/
def createWriter (i : Index) (path : Path) (documents : List Document) :
    DiskM IndexError Writer := do
  let holder := (← get).holders
  let lock := path ++ [IndexDirectory.lockName]
  perform (.writeConflict i.name "the writer lock is held") [.lock lock holder]
  modify fun disk => { disk with holders := holder + 1 }
  if Config.maxWriterHeapBytes ≤ i.config.heapPerThread then
    perform .io [.unlock lock holder]
    throw .search
  return { path, holder, documents }

/-- The step that lets the lock of a writer go. -/
def Writer.releaseSteps (w : Writer) : List DiskStep :=
  [.unlock (w.path ++ [IndexDirectory.lockName]) w.holder]

/-- Opens the index. An open one stays as it is. -/
def «open» : IndexM Unit := do
  let i ← current
  if i.isReady then return
  i.config.validate
  let directory ← onDisk (IndexDirectory.open i.config.root i.name)
  let _ ← onDisk directory.sweep
  if i.config.clearStaleLocks then
    let _ ← onDisk (directory.clearStaleLock directory.currentPath)
  let content ← onDisk (openOrCreate i directory.currentPath)
  let writer ← onDisk (createWriter i directory.currentPath content.documents)
  update fun i => { i with writer := some writer, live := some { directory, content } }

/-- Closes the index and lets its lock go. A closed one stays as it is. -/
def close : IndexM Unit := do
  let i ← current
  if let some w := i.writer then onDisk (perform .io (Writer.releaseSteps w))
  update fun i => { i with writer := none, live := none }

/-- Shows the last commit to searches. -/
def refresh : IndexM Unit := do
  match (← current).live with
  | none => throw (.closed (← current).name)
  | some live =>
    let content ← onDisk (readContent live.directory.currentPath)
    update fun i => { i with live := some { live with content } }

end Index

end Codebook
