/-
# Generations

A generation is one complete content of an index: the fields of the engine under which it was
written, and the documents in the order in which they were added. Whoever searches an index holds a
generation and is not disturbed by what happens to the index afterwards.

Key definitions: `Generation`, `Generation.search`, `Generation.count`, `Generation.find`.
-/
import Codebook.Criteria.Basic
import Codebook.Document.Binder
import Codebook.Search.Window

namespace Codebook

/-- A complete content of an index. -/
structure Generation where
  /-- The fields of the engine. -/
  layout : List EngineField
  /-- The documents in the order in which they were added. -/
  documents : List Document
deriving DecidableEq, Repr

namespace Generation

/-- The number of documents. -/
def size (g : Generation) : Nat :=
  g.documents.length

/-- A query can be run if every column in which it looks values up is indexed. -/
def canRun (g : Generation) (q : Query) : Bool :=
  q.columns.all fun column => g.layout.any fun f => f.name == column && f.indexed

/-- The documents that a query selects, with their places. -/
def selected (g : Generation) (q : Query) : List (Document × Nat) :=
  g.documents.zipIdx.filter fun (d, _) => q.selects d

/-- The rows that a query selects. -/
def rows (g : Generation) (q : Query) (keys : List ColumnKey) : List Row :=
  (g.selected q).map fun (document, place) =>
    { values := keys.map fun k => k.read document, place, document }

/-- The first rows that a query selects. -/
def search (g : Generation) (q : Query) (keys : List ColumnKey) (limit : Option Nat) :
    Except IndexError (List Row) :=
  if g.canRun q then .ok (Window.first keys limit (g.rows q keys)) else .error .search

/-- The number of documents that compiled criteria select. -/
def count (g : Generation) (c : Compiled) : Except IndexError Nat :=
  if g.canRun c.executable then .ok (g.selected c.executable).length else .error .search

/-- A page of what compiled criteria select. Without a page nothing is decoded. -/
def find (α : Type) [Indexed α] (g : Generation) (s : Schema) (c : Compiled) (offset : Nat)
    (limit : Option Nat) : Except IndexError (FilterResult α) := do
  let countByFilter ← g.count c
  if limit = some 0 then return { items := [], countByFilter, totalCount := g.size }
  let window := limit.map fun limit => min (offset + limit) maxCount
  let rows ← g.search c.executable (c.sort.map ColumnKey.sorting) window
  let items ← (rows.drop offset).mapM fun row => row.document.decode α s
  return { items, countByFilter, totalCount := g.size }

end Generation

end Codebook
