/-
# Generations as text

The form in which a generation is kept in a file: its fields, and each document with its values in
order, its free text and its snapshot.

Key definitions: `Generation.toData`, `Generation.ofData?`.
-/
import Codebook.Data.Reader
import Codebook.Generation
import Codebook.Text.Hex

namespace Codebook

/-- The type of a name in listings. -/
def EngineType.named? (s : String) : Option EngineType :=
  [text, date, bytes].find? fun t => t.name == s

/-- The field of the engine as a row. -/
def EngineField.toRow (f : EngineField) : Data :=
  .list [.text f.name, .text f.type.name, .bool f.indexed, .bool f.columnar, .bool f.stored]

/-- Reads a field of the engine. -/
def EngineField.ofRow? : Data → Option EngineField
  | .list [.text name, .text type, .bool indexed, .bool columnar, .bool stored] =>
    (EngineType.named? type).map fun type => { name, type, indexed, columnar, stored }
  | _ => none

/-- The value of a column as a row. Dates are whole numbers. -/
def cellRow : String × Cell → Data
  | (column, .text s) => .list [.text column, .text s]
  | (column, .date n) => .list [.text column, .int n]

/-- Reads a value of a column. -/
def cellOfRow? : Data → Option (String × Cell)
  | .list [.text column, .text s] => some (column, .text s)
  | .list [.text column, .int n] => some (column, .date n)
  | _ => none

/-- The document as a row. -/
def Document.toRow (d : Document) : Data :=
  .list [.list (d.values.map cellRow), .ofText? d.search, .ofText? (d.payload.map Text.toHex)]

/-- Reads a document. -/
def Document.ofRow? : Data → Option Document
  | .list [.list rows, search, payload] => do
    let values ← rows.mapM cellOfRow?
    return { values, search := search.toText?, payload := payload.toText?.bind Text.ofHex? }
  | _ => none

namespace Generation

/-- The generation as data. -/
def toData (g : Generation) : Data :=
  .record [("layout", .list (g.layout.map EngineField.toRow)),
    ("documents", .list (g.documents.map Document.toRow))]

/-- Reads a generation. -/
def ofData? : Data → Option Generation
  | .record [("layout", .list fields), ("documents", .list rows)] => do
    let layout ← fields.mapM EngineField.ofRow?
    let documents ← rows.mapM Document.ofRow?
    return { layout, documents }
  | _ => none

end Generation

end Codebook
