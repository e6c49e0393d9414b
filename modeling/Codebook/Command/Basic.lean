/-
# Commands

What the program can do with a catalog: rebuild indexes, compare them with their data files, search
one of them, and show their sizes. A command prints lines while it works, and what it has printed
stands even if it fails later.

Key definitions: `Command`, `Session`, `CommandM`, `Command.run`.
-/
import Codebook.Catalog
import Codebook.Criteria.Text
import Codebook.Text.Padded

namespace Codebook

/-- A command. -/
inductive Command where
  /-- Rebuilds indexes: some or, if none are named, all; and intact ones only if forced to. -/
  | rebuild (targets : List String) (force : Bool)
  /-- Compares the sizes of indexes and data files. -/
  | verify
  /-- Searches an index, by criteria in text form if they are given. -/
  | query (entity : String) (criteria : Option String)
  /-- Shows the sizes of indexes in a format. -/
  | stats (format : String)
  /-- Shows the versions. -/
  | version
deriving DecidableEq, Repr

/-- A catalog at work. -/
structure Session where
  /-- The catalog. -/
  catalog : Catalog
  /-- The disk. -/
  disk : Disk
  /-- The lines printed so far, the last one first. -/
  lines : List String := []

/-- Work of a command. -/
abbrev CommandM := ExceptT CommandError (StateM Session)

/-- What was printed. -/
def Session.printed (s : Session) : String :=
  String.join (s.lines.reverse.map (· ++ "\n"))

/-- Prints a line. -/
def printLine (line : String) : CommandM Unit :=
  modify fun s => { s with lines := line :: s.lines }

/-- Does work with the catalog. -/
def onCatalog {α : Type} (work : CatalogM α) : CommandM α := do
  let s ← get
  let (result, catalog, disk) := work.run (s.catalog, s.disk)
  set { s with catalog, disk }
  result

/-- The entries of the catalog. -/
def catalogEntries : CommandM (List CatalogEntry) :=
  return (← get).catalog.entries

namespace Command

/-- The version of the program. -/
def programVersion : String := "0.4.0"

/-- A line of the report on a rebuild. -/
def reportLine (r : RebuildReport) : String :=
  let outcome := match r.error with
    | some e => e.message
    | none => Text.padStart 10 (toString r.documentCount)
  " ".intercalate [Text.padEnd 14 r.entityType, r.status.name, outcome]

/-- Rebuilds indexes and reports on each of them. -/
def runRebuild (targets : List String) (force : Bool) : CommandM Unit := do
  let request : RebuildRequest := { targets := if targets.isEmpty then none else some targets, force }
  let s ← get
  let (result, (catalog, disk), _) :=
    (s.catalog.coordinator.run (fun _ => false) request).run ((s.catalog, s.disk), {})
  set { s with catalog, disk }
  let summary ← result.mapError CommandError.index
  for r in summary.units do printLine (reportLine r)
  printLine ""
  printLine s!"{summary.finished} rebuilt, {summary.skipped} skipped, {summary.errors} failed"
  if !summary.isSuccess then throw (.failed s!"{summary.errors} rebuilds failed")

/-- Compares the size of an index with that of its data file, and tells whether they agree. -/
def verifyEntry (e : CatalogEntry) : CommandM Bool := do
  let indexed ← onCatalog (Catalog.ask e.kind (Service.search Index.numDocs))
  let stored := e.service.store.entities.size
  let state := if indexed = stored then "ok" else "CORRUPTED"
  printLine (Text.padEnd 14 e.kind.name ++ " " ++ Text.padStart 10 (toString indexed) ++
    " indexed " ++ Text.padStart 10 (toString stored) ++ " stored  " ++ state)
  return indexed = stored

/-- Compares the sizes of indexes and data files. -/
def runVerify : CommandM Unit := do
  let mut corrupted := #[]
  for e in ← catalogEntries do
    if !(← verifyEntry e) then corrupted := corrupted.push e.kind.name
  printLine ""
  if corrupted.isEmpty then printLine "✓ All indexes match their data files"
  else
    printLine ("✗ Corrupted indexes: " ++ ", ".intercalate corrupted.toList)
    throw (.failed "verification failed, run `rcd rebuild` to repair")

/-- The criteria of a search: those that are given, or those of the index. -/
def readCriteria (i : Index) : Option String → Except CommandError Criteria
  | none => .ok i.defaultCriteria
  | some s =>
    match Criteria.ofJson? s with
    | some c => .ok c
    | none => .error .json

/-- Searches an index and shows what was found, the members of records in the order of their
names. -/
def runQuery (entity : String) (criteria : Option String) : CommandM Unit := do
  let e ← (← get).catalog.entry entity
  let c ← readCriteria e.service.index criteria
  let found ← onCatalog (Catalog.ask e.kind (Service.search (Index.find e.kind.Entity c)))
  printLine (found.toData Indexed.toData).sorted.toPrettyJson

/-- What is shown of an index. -/
structure StatsRow where
  /-- The name of the index. -/
  entityType : String
  /-- The number of its documents. -/
  documents : Nat
  /-- The number of its live generation. -/
  generation : Option Nat
  /-- Its counters. -/
  statistics : Statistics
deriving DecidableEq, Repr

/-- The row as data. -/
def StatsRow.toData (r : StatsRow) : Data :=
  .record [("entityType", .text r.entityType), ("documents", .int r.documents),
    ("generation", (r.generation.map fun n => Data.int n).getD .null),
    ("stats", r.statistics.toData)]

/-- A line of the table of sizes. -/
def tableLine (name documents generation : String) : String :=
  " ".intercalate [Text.padEnd 14 name, Text.padStart 10 documents, Text.padStart 10 generation]

/-- The row of an entry. -/
def statsRow (e : CatalogEntry) : CommandM StatsRow := do
  let documents ← onCatalog (Catalog.ask e.kind (Service.search Index.numDocs))
  let index := e.service.index
  return {
    entityType := e.kind.name
    documents
    generation := index.generation?
    statistics := index.statistics }

/-- Shows the sizes of indexes as a table. -/
def printTable (rows : List StatsRow) : CommandM Unit := do
  let rule := String.ofList (List.replicate 36 '-')
  printLine (tableLine "Index" "Documents" "Generation")
  printLine rule
  for r in rows do
    printLine (tableLine r.entityType (toString r.documents)
      ((r.generation.map toString).getD "-"))
  printLine rule
  let total := (rows.map StatsRow.documents).foldl Nat.add 0
  printLine (Text.padEnd 14 "Total" ++ " " ++ Text.padStart 10 (toString total))

/-- Shows the sizes of indexes. -/
def runStats (format : String) : CommandM Unit := do
  let rows ← (← catalogEntries).mapM statsRow
  if format = "json" then printLine (Data.list (rows.map StatsRow.toData)).toPrettyJson
  else if format = "text" then printTable rows
  else throw (.unknownFormat format)

/-- Shows the versions. -/
def runVersion : CommandM Unit := do
  printLine s!"RCD CLI v{programVersion}"
  printLine s!"RCD Index v{programVersion}"

/-- Runs a command. -/
def run : Command → CommandM Unit
  | rebuild targets force => runRebuild targets force
  | verify => runVerify
  | query entity criteria => runQuery entity criteria
  | stats format => runStats format
  | version => runVersion

end Command

end Codebook
