/-
# Reports of declarations and schemas

What is declared of an entity type, and what becomes of it in the index, as data.

Key definitions: `Declaration.toData`, `IndexedField.toData`, `EngineField.toData`,
`Schema.toMembers`, `Document.toData`.
-/
import Codebook.Data.Access
import Codebook.Document.Binder
import Codebook.Report.Value
import Codebook.Text.Hex

namespace Codebook

/-- The declaration of a field as data. -/
def FieldDeclaration.toData (d : FieldDeclaration) : Data :=
  .record [("name", .text d.name), ("search", .bool d.search), ("filter", .bool d.filter),
    ("sort", .bool d.sort), ("aliases", .ofTexts d.aliases)]

/-- The declaration of a field by its name and what is said of it, one thing after the other. -/
def FieldDeclaration.ofData (d : Data) : FieldDeclaration :=
  (d.items "calls").foldl
    (fun f call => match call with
      | .text "searchable" => f.searchable
      | .text "not_filterable" => f.notFilterable
      | .text "not_sortable" => f.notSortable
      | call => f.aliased (call.strs "aliases"))
    { name := d.str "name" }

/-- The declaration after one more thing is said of it. -/
def Declaration.revised (m : Declaration) (d : Data) : Declaration :=
  match d.str "do" with
  | "fields" => m.withFields ((d.items "fields").map FieldDeclaration.ofData)
  | "collections" => m.withCollections (d.strs "names")
  | _ => m.named (d.str "field")

/-- The declaration as data. -/
def Declaration.toData (d : Declaration) : Data :=
  .record [("primary_key", .text d.primaryKey),
    ("fields", .list (d.fields.map FieldDeclaration.toData)),
    ("collections", .ofTexts d.collections), ("name_field", .ofText? d.nameField)]

/-- The field as data. -/
def IndexedField.toData (f : IndexedField) : Data :=
  .record [("name", .text f.name), ("source", .text f.source), ("kind", .text f.kind.label),
    ("searchable", .bool f.capabilities.searchable),
    ("filterable", .bool f.capabilities.filterable),
    ("sortable", .bool f.capabilities.sortable), ("aliases", .ofTexts f.aliases),
    ("is_alias", .bool f.isAlias)]

/-- The field of the engine as data. -/
def EngineField.toData (f : EngineField) : Data :=
  .record [("name", .text f.name), ("type", .text f.type.name), ("indexed", .bool f.indexed),
    ("columnar", .bool f.columnar), ("stored", .bool f.stored)]

/-- The fields of the engine as data. -/
def Schema.layoutData (s : Schema) : Data :=
  .list (s.layout.map EngineField.toData)

/-- The members of a report on a schema. -/
def Schema.toMembers (s : Schema) : List (String × Data) :=
  [("entity_type", .text s.entityType), ("primary_key", s.primaryKey.toData),
    ("fields", .list (s.fields.map IndexedField.toData)), ("collections", .ofTexts s.collections),
    ("name_field", .ofText? s.nameField), ("versioned", .bool s.isVersioned),
    ("searchable", .ofTexts (s.searchable.map IndexedField.name)), ("physical", s.layoutData)]

/-- The values of a field of the engine in a document. -/
def Document.valuesOf (d : Document) (f : EngineField) : List Data :=
  if f.name = payloadField then
    d.payload.toList.map fun bytes => .record [("bytes", .text (Text.toHex bytes))]
  else if f.name = defaultSearchField then d.search.toList.map .text
  else (d.cells f.name).map Cell.toData

/-- The document as data, field by field. -/
def Document.toData (s : Schema) (d : Document) : Data :=
  .record (s.layout.map fun f => (f.name, .list (d.valuesOf f)))

end Codebook
