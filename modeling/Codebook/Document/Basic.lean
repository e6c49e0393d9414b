/-
# Documents

A document is what the index keeps of an entity: the values of its columns, the text in which free
text looks for words, and a snapshot of the entity. A column can have several values, one for each
field that shares it; they stand in the order of the fields.

Key definitions: `Cell`, `Document`, `Document.cells`, `Document.texts`,
`Document.dates`.
-/
import Codebook.Data.Cbor
import Codebook.Document.Token

namespace Codebook

/-- A value of a column. -/
inductive Cell where
  /-- An exact token. -/
  | text (s : String)
  /-- Milliseconds since the epoch. -/
  | date (milliseconds : Int)
deriving DecidableEq, Repr

/-- The value that stands for a missing date: the least number of 64 bits. -/
def nullDate : Int := Number.minInt64

/-- What the index keeps of an entity. -/
structure Document where
  /-- The values of the columns by the names of the columns. -/
  values : List (String × Cell)
  /-- The text that free text searches, if there is any. -/
  search : Option String
  /-- The snapshot of the entity, in binary form. -/
  payload : Option (List UInt8)
deriving DecidableEq, Repr

namespace Document

/-- The values of a column in order. -/
def cells (d : Document) (column : String) : List Cell :=
  d.values.filterMap fun (name, cell) => if name = column then some cell else none

/-- The tokens among the values of a column. -/
def texts (d : Document) (column : String) : List String :=
  (d.cells column).filterMap fun
    | .text s => some s
    | .date _ => none

/-- The dates among the values of a column. -/
def dates (d : Document) (column : String) : List Int :=
  (d.cells column).filterMap fun
    | .text _ => none
    | .date n => some n

/-- The tokens of the free text. -/
def tokens (d : Document) : List String :=
  match d.search with
  | some s => indexedTokens s
  | none => []

end Document

end Codebook
