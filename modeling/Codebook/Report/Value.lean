/-
# Reports of values

Values of fields, of columns and of sort keys, as they are shown to others and read from them: a
record of one member that names the kind of the value. Whole numbers and dates are written as
texts, since they may have more digits than a reader can take.

Key definitions: `FieldValue.toData`, `FieldValue.ofData?`, `Cell.toData`, `SortValue.toData`,
`SortValue.ofData?`, `ColumnKey.ofData`, `Instant.Zone.ofData`.
-/
import Codebook.Data.Access
import Codebook.Instant.Day
import Codebook.Search.Value

namespace Codebook

/-- A whole number as text. -/
def Data.ofDecimal (n : Int) : Data :=
  .text (toString n)

/-- A whole number that is written as text. -/
def Data.toDecimal? (d : Data) : Option Int :=
  d.toText?.bind String.toInt?

/-- A number that is written as text. -/
def Data.toDouble? (d : Data) : Option Number.Double :=
  d.toText?.bind Number.Double.read

/-- The kind of a name. -/
def ValueKind.named (s : String) : ValueKind :=
  ([.number, .date, .enum, .boolean, .collection].find? fun k : ValueKind =>
    k.label == s).getD .string

/-- The value as data. -/
def FieldValue.toData : FieldValue → Data
  | null => .text "null"
  | text s => .record [("text", .text s)]
  | integer n => .record [("integer", .ofDecimal n)]
  | float x => .record [("float", .text x.plain)]
  | date i => .record [("date", .text i.toText)]
  | enum name => .record [("enum", .text name)]
  | bool b => .record [("bool", .bool b)]

/-- Reads the value of a field. Null is no value. -/
def FieldValue.ofData? : Data → Option FieldValue
  | .null => some .null
  | .record [(kind, d)] =>
    match kind with
    | "text" => d.toText?.map .text
    | "integer" => d.toDecimal?.map .integer
    | "float" => d.toDouble?.map .float
    | "date" => d.toInstant?.map .date
    | "enum" => d.toText?.map .enum
    | "bool" => d.toBool?.map .bool
    | _ => none
  | _ => none

/-- The value of a column as data. -/
def Cell.toData : Cell → Data
  | text s => .text s
  | date n => .record [("date", .ofDecimal n)]

/-- The value of a sort key as data. -/
def SortValue.toData : SortValue → Data
  | missing => .text "missing"
  | text s => .record [("text", .text s)]
  | number x => .record [("number", .text x.plain)]
  | date n => .record [("date", .ofDecimal n)]

/-- Reads the value of a sort key. Null is a missing value. -/
def SortValue.ofData? : Data → Option SortValue
  | .null => some .missing
  | .record [(kind, d)] =>
    match kind with
    | "text" => d.toText?.map .text
    | "number" => d.toDouble?.map .number
    | "date" => d.toDecimal?.map .date
    | _ => none
  | _ => none

/-- Reads a key: one that sorts if its direction is given, and else one that compares values as they
are kept. -/
def ColumnKey.ofData (d : Data) : ColumnKey :=
  let kind := ValueKind.named (d.str "kind")
  if d.has "descending" then
    .sorting { name := d.str "name", kind, descending := d.flag "descending" }
  else .encoded (d.str "name") kind

/-- Reads a zone: a fixed offset, two offsets and when the second one begins to hold, or the
universal zone. -/
def Instant.Zone.ofData (d : Data) : Instant.Zone :=
  if d.has "offset" then .fixed (d.whole "offset")
  else
    match (d.get "at").toInstant? with
    | some turn => .turning (d.whole "before") (d.whole "after") turn
    | none => .universal

end Codebook
