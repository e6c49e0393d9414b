/-
# Values that rows are sorted by

The rows of a result are compared key by key. The value of a key is the first value of its column;
a row without one comes first, or last if the order is descending. Texts are ordered by the code
points of their characters and numbers by their values. Number columns hold the canonical texts of
numbers, so in an order they are read back; a scan for equal values takes the texts as they are.

Key definitions: `SortValue`, `SortValue.compare`, `ColumnKey`, `ColumnKey.read`, `compareRows`.
-/
import Codebook.Query.Compile

namespace Codebook

/-- The value of a key. -/
inductive SortValue where
  /-- No value. -/
  | missing
  /-- A text. -/
  | text (s : String)
  /-- A number. -/
  | number (x : Number.Double)
  /-- Milliseconds since the epoch. -/
  | date (milliseconds : Int)
deriving DecidableEq, Repr

namespace SortValue

/-- The order of values. No value comes first. Among the values of one key, numbers come before
texts that are no numbers. -/
def compare : SortValue → SortValue → Ordering
  | missing, missing => .eq
  | missing, _ => .lt
  | _, missing => .gt
  | text a, text b => Ord.compare a b
  | number a, number b => Ord.compare a.rank b.rank
  | date a, date b => Ord.compare a b
  | number _, _ => .lt
  | _, number _ => .gt
  | date _, _ => .lt
  | _, date _ => .gt

/-- Whether two values are equal as values: a number that is none differs from itself, and the
zeros are equal. -/
def same : SortValue → SortValue → Bool
  | number a, number b => a.sameValue b
  | a, b => a == b

end SortValue

/-- How the values of a column are compared. -/
inductive ColumnOrder where
  /-- As texts. -/
  | text
  /-- As numbers. -/
  | number
  /-- As dates. -/
  | date
deriving DecidableEq, Repr

/-- A column to sort by. -/
structure ColumnKey where
  /-- The name of the column. -/
  name : String
  /-- How its values are compared. -/
  order : ColumnOrder
  /-- Whether the greatest value comes first. -/
  descending : Bool
deriving DecidableEq, Repr

namespace ColumnKey

/-- The column of a sort key. -/
def sorting (k : SortKey) : ColumnKey :=
  let order := match k.kind with
    | .date => .date
    | .number => .number
    | _ => .text
  { name := k.name, order, descending := k.descending }

/-- A column by the values as they are kept, the least first. This is the order of ranges. -/
def encoded (name : String) (kind : ValueKind) : ColumnKey :=
  { name, order := if kind = .date then .date else .text, descending := false }

/-- The value of the column in a document: the first one, where the mark of a missing date is no
value. -/
def read (k : ColumnKey) (d : Document) : SortValue :=
  match k.order with
  | .text => ((d.texts k.name).head?.map SortValue.text).getD .missing
  | .number =>
    match (d.texts k.name).head? with
    | some s => ((Number.Double.read s).map SortValue.number).getD (.text s)
    | none => .missing
  | .date =>
    match d.dates k.name with
    | n :: _ => if n = nullDate then .missing else .date n
    | [] => .missing

end ColumnKey

/-- Compares the values of two rows key by key. -/
def compareRows : List ColumnKey → List SortValue → List SortValue → Ordering
  | k :: ks, a :: as, b :: bs =>
    let ordering := a.compare b
    (if k.descending then ordering.swap else ordering).then (compareRows ks as bs)
  | _, _, _ => .eq

end Codebook
