/-
# The first rows of a result

Of the rows that match, only the first few are asked for. A window keeps no more than it has to:
it lets rows in, in any order, and as soon as it holds twice as many as are wanted it drops those
that cannot be among the first. Rows that are equal in all keys keep the order of the index, so
the result does not depend on the order in which the rows came, nor on how they were divided among
several windows that are brought together at the end.

Key definitions: `Row`, `Row.compare`, `Window`, `Window.push`, `Window.finish`, `Window.merge`.
-/
import Codebook.Search.Value

namespace Codebook

/-- The greatest count or size. -/
def maxCount : Nat := Number.maxNat64

/-- A document that matches. -/
structure Row where
  /-- Its values, one for each key. -/
  values : List SortValue
  /-- Its place in the index. -/
  place : Nat
  /-- The document. -/
  document : Document
deriving DecidableEq, Repr

/-- The order of rows. Those with equal values are ordered by their places. -/
def Row.compare (keys : List ColumnKey) (a b : Row) : Ordering :=
  (compareRows keys a.values b.values).then (Ord.compare a.place b.place)

/-- Rows in order. -/
def sortRows (keys : List ColumnKey) (rows : List Row) : List Row :=
  rows.mergeSort fun a b => Row.compare keys a b != .gt

/-- The rows kept so far. -/
structure Window where
  /-- The keys to sort by. -/
  keys : List ColumnKey
  /-- How many rows are wanted, if not all. -/
  limit : Option Nat
  /-- The rows, in no particular order. -/
  rows : List Row := []

namespace Window

/-- How many rows may be kept where so many are wanted. -/
def capacity (limit : Nat) : Nat :=
  max (min (limit * 2) maxCount) 64

/-- Keeps only the first rows. -/
def shrink (w : Window) (limit : Nat) : Window :=
  if w.rows.length ≤ limit then w
  else { w with rows := (sortRows w.keys w.rows).take limit }

/-- Lets a row in. -/
def push (w : Window) (row : Row) : Window :=
  let wider := { w with rows := row :: w.rows }
  match w.limit with
  | some limit => if capacity limit < wider.rows.length then wider.shrink limit else wider
  | none => wider

/-- The rows in order, as many as are wanted. -/
def finish (w : Window) : List Row :=
  let kept := match w.limit with
    | some limit => w.shrink limit
    | none => w
  sortRows kept.keys kept.rows

/-- The first of some rows. -/
def first (keys : List ColumnKey) (limit : Option Nat) (rows : List Row) : List Row :=
  (rows.foldl push { keys, limit }).finish

/-- The first of the rows of several parts, each of which had a window of its own. -/
def merge (keys : List ColumnKey) (limit : Option Nat) (parts : List (List Row)) : List Row :=
  first keys limit (parts.flatMap (first keys limit))

end Window

end Codebook
