/-
# Entities as documents

An entity is encoded field by field. Blank text counts as no value, and a missing date leaves a
mark of its own, since ranges of dates could not tell it apart otherwise. The snapshot is the
binary form of the entity without its collections, which hold whole trees of other entities; so
the decoded entity has empty collections.

Key definitions: `encodeValue`, `searchText`, `Document.encode`, `Document.decode`,
`Document.key?`.
-/
import Codebook.Document.Basic
import Codebook.Schema.Basic

namespace Codebook

/-- The value of a column for a value of a field. A value that is not of the declared kind is a
fault of the declaration. -/
def encodeValue (entityType field : String) (kind : ValueKind) (value : FieldValue) :
    Except IndexError (Option Cell) :=
  let token (s : String) : Option Cell := if Text.isBlank s then none else some (.text s)
  match kind, value with
  | _, .null => .ok none
  | .string, .text s => .ok (token s)
  | .enum, .text s => .ok (token s)
  | .number, .integer n => .ok (some (.text (toString n)))
  | .number, .float x => .ok (some (.text x.canonical))
  | .date, .date i => .ok (some (.date i.milliseconds))
  | .enum, .enum name => .ok (some (.text name))
  | .boolean, .bool b => .ok (some (.text (Diagnostic.bool b)))
  | _, _ =>
    .error (.configuration entityType
      s!"field '{field}' declared as {kind.label} produced {value.label}")

/-- What free text can find of a value. Dates and truth values cannot be found. -/
def searchText : FieldValue → Option String
  | .text s => if Text.isBlank s then none else some s
  | .enum name => some name
  | .integer n => some (toString n)
  | .float x => some x.canonical
  | _ => none

namespace Document

variable {α : Type} [Indexed α]

/-- The values that one field adds to a document. -/
def encodeField (s : Schema) (a : α) (f : IndexedField) :
    Except IndexError (List (String × Cell)) :=
  match s.column? f.name with
  | none => .ok []
  | some column => do
    match ← encodeValue s.entityType f.name column.kind (f.read a) with
    | some cell => return [(f.name, cell)]
    | none => return if column.kind = .date then [(f.name, .date nullDate)] else []

/-- The binary form of an entity without its collections. -/
def snapshot (s : Schema) (a : α) : List UInt8 :=
  ((Indexed.toData a).without s.collections).toCbor

/-- The document of an entity. -/
def encode (s : Schema) (a : α) : Except IndexError Document := do
  let values ← (s.primaryKey :: s.fields).mapM (encodeField s a)
  let search := joinWords (s.searchable.filterMap fun f => searchText (f.read a))
  return {
    values := values.flatten
    search := if search.isEmpty then none else some search
    payload := some (snapshot s a) }

/-- The entity of which a document keeps a snapshot. -/
def decode (α : Type) [Indexed α] (s : Schema) (d : Document) : Except IndexError α :=
  match d.payload with
  | none => .error (.payload s!"{s.entityType} document has no payload")
  | some bytes =>
    match (Data.ofCbor? bytes).bind (Indexed.ofData? .packed) with
    | some a => .ok a
    | none => .error .unreadable

/-- The primary key in a document. -/
def key? (s : Schema) (d : Document) : Option String :=
  (d.texts s.primaryKey.name).head?

/-- Whether a document is found under a primary key. -/
def hasKey (s : Schema) (id : String) (d : Document) : Bool :=
  d.values.contains (s.primaryKey.name, .text id)

/-- The binder of the documents of a schema in diagnostics. -/
def binderLabel (s : Schema) : String :=
  Diagnostic.someMembers "DocumentBinder" [("entity_type", Text.quote s.entityType)]

end Document

end Codebook
