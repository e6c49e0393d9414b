/-
# Values of fields

What a field of an entity can hold, and the kinds under which fields are indexed. Text, names of
enumerations and truth values are indexed as exact tokens, numbers as their canonical text, and
instants by their milliseconds. A collection is never indexed.

Key definitions: `ValueKind`, `FieldValue`.
-/
import Codebook.Data.Basic
import Codebook.Instant.Text
import Codebook.Number.Text
import Codebook.Text.Diagnostic
import Codebook.Text.Quoted

namespace Codebook

/-- The kind of the values of a field. -/
inductive ValueKind where
  /-- Text. -/
  | string
  /-- A whole number or a fraction. -/
  | number
  /-- An instant. -/
  | date
  /-- One of several names. -/
  | enum
  /-- A truth value. -/
  | boolean
  /-- Other entities. -/
  | collection
deriving DecidableEq, Repr, Inhabited

namespace ValueKind

/-- The name of the kind. -/
def label : ValueKind → String
  | string => "String"
  | number => "Number"
  | date => "Date"
  | enum => "Enum"
  | boolean => "Boolean"
  | collection => "Collection"

/-- Whether fields of the kind can be indexed. -/
def isIndexable (k : ValueKind) : Bool :=
  k != collection

end ValueKind

/-- The value of a field. -/
inductive FieldValue where
  /-- No value. -/
  | null
  /-- A text. -/
  | text (s : String)
  /-- A whole number. -/
  | integer (n : Int)
  /-- A fraction. -/
  | float (x : Number.Double)
  /-- An instant. -/
  | date (i : Instant)
  /-- A name of an enumeration. -/
  | enum (name : String)
  /-- A truth value. -/
  | bool (b : Bool)
deriving DecidableEq, Repr, Inhabited

namespace FieldValue

/-- A text, or no value. -/
def ofText? : Option String → FieldValue
  | some s => text s
  | none => null

/-- Whether there is no value. -/
def isNull (v : FieldValue) : Bool :=
  v == null

/-- The value in diagnostics. -/
def label : FieldValue → String
  | null => "Null"
  | text s => s!"Text({Text.quote s})"
  | integer n => s!"Integer({n})"
  | float x => s!"Float({x.diagnostic})"
  | date i => s!"Date({i.toText})"
  | enum name => s!"Enum({Text.quote name})"
  | bool b => s!"Bool({b})"

end FieldValue

end Codebook
