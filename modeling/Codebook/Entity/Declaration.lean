/-
# Declarations

Which fields of an entity type are indexed, and for what. A field may serve filters, orders and
free text; unless said otherwise it serves the first two. It may have other names as well, and
several fields may share such a name. A declaration also says which field is the primary key,
which fields hold collections, and which one names the entity.

Key definitions: `FieldDeclaration`, `Declaration`.
-/
import Codebook.Text.Diagnostic
import Codebook.Text.Quoted

namespace Codebook

/-- The declaration of one field. -/
structure FieldDeclaration where
  /-- The name of the field. -/
  name : String
  /-- Free text finds it. -/
  search : Bool := false
  /-- Filters can test it. -/
  filter : Bool := true
  /-- Results can be sorted by it. -/
  sort : Bool := true
  /-- Its other names. -/
  aliases : List String := []
deriving DecidableEq, Repr

namespace FieldDeclaration

/-- The field, found by free text. -/
def searchable (d : FieldDeclaration) : FieldDeclaration := { d with search := true }

/-- The field, closed to filters. -/
def notFilterable (d : FieldDeclaration) : FieldDeclaration := { d with filter := false }

/-- The field, closed to orders. -/
def notSortable (d : FieldDeclaration) : FieldDeclaration := { d with sort := false }

/-- The field, with these and no other aliases. -/
def aliased (d : FieldDeclaration) (aliases : List String) : FieldDeclaration := { d with aliases }

/-- The declaration in diagnostics. -/
def label (d : FieldDeclaration) : String :=
  Diagnostic.members "FieldDeclaration" [("name", Text.quote d.name),
    ("search", Diagnostic.bool d.search), ("filter", Diagnostic.bool d.filter),
    ("sort", Diagnostic.bool d.sort), ("aliases", Diagnostic.list (d.aliases.map Text.quote))]

end FieldDeclaration

/-- The declaration of an entity type. -/
structure Declaration where
  /-- The primary key. -/
  primaryKey : String
  /-- The indexed fields, in order. -/
  fields : List FieldDeclaration := []
  /-- The fields that hold collections. -/
  collections : List String := []
  /-- The field that names the entity. -/
  nameField : Option String := none
deriving DecidableEq, Repr

namespace Declaration

/-- The declaration with these and no other fields. -/
def withFields (d : Declaration) (fields : List FieldDeclaration) : Declaration := { d with fields }

/-- The declaration with these and no other collections. -/
def withCollections (d : Declaration) (collections : List String) : Declaration :=
  { d with collections }

/-- The declaration of entities that are named by a field. -/
def named (d : Declaration) (field : String) : Declaration := { d with nameField := some field }

/-- The declaration in diagnostics. -/
def label (d : Declaration) : String :=
  Diagnostic.members "IndexMetadata" [("primary_key", Text.quote d.primaryKey),
    ("fields", Diagnostic.list (d.fields.map FieldDeclaration.label)),
    ("collections", Diagnostic.list (d.collections.map Text.quote)),
    ("name_field", Diagnostic.option (d.nameField.map Text.quote))]

end Declaration

end Codebook
