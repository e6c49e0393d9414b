/-
# From declarations to schemas

A declaration is checked in a fixed order, and the first fault decides: the name of the type, the
primary key, the fields one after the other, the collections, the name field, whether the fields
that share a column are of one kind, and last whether a column has the name of a field that the
engine has anyway, which only an alias or the primary key can cause.

Key definitions: `SchemaFault`, `Schema.resolveFields`, `Schema.mergeColumns`, `Schema.describe`.
-/
import Codebook.Schema.Basic

namespace Codebook

/-- What is wrong with a declaration. -/
inductive SchemaFault where
  /-- The name of the type cannot be that of a directory. -/
  | badTypeName
  /-- No primary key is declared. -/
  | missingKey
  /-- The primary key cannot be read. -/
  | unreadableKey (key : String)
  /-- The primary key is no text. -/
  | keyKind (kind : ValueKind)
  /-- A field is declared twice. -/
  | declaredTwice (field : String)
  /-- The name belongs to a field of the engine. -/
  | reserved (field : String)
  /-- A field cannot be read. -/
  | unreadableField (field : String)
  /-- A field holds what cannot be indexed. -/
  | unsupported (kind : ValueKind) (field : String)
  /-- A field was declared to hold a collection and does not. -/
  | noCollection (field : String)
  /-- The field that names the entity cannot be sorted by. -/
  | nameNotSortable (field : String)
  /-- Fields that share a column are of two kinds. -/
  | twoKinds (name : String) (first second : ValueKind)
  /-- A column has the name of a field that every index has. The engine refuses two of one name. -/
  | engineFieldTwice (field : String)
deriving DecidableEq, Repr

/-- The fault in words. -/
def SchemaFault.message : SchemaFault → String
  | badTypeName => "entity type name must be a non-empty directory-safe name"
  | missingKey => "missing primary key declaration"
  | unreadableKey key => s!"primary key '{key}' has no accessor"
  | keyKind kind => s!"primary key must be a string, found {kind.label}"
  | declaredTwice field => s!"field '{field}' is declared twice"
  | reserved field => s!"field name '{field}' is reserved"
  | unreadableField field => s!"declared field '{field}' has no accessor"
  | unsupported kind field => s!"unsupported value type {kind.label} of field '{field}'"
  | noCollection field => s!"'{field}' is not a collection field"
  | nameNotSortable field => s!"name field '{field}' must be declared sortable"
  | twoKinds name first second =>
    s!"field '{name}' is declared as both {first.label} and {second.label}"
  | engineFieldTwice field => s!"Field already exists in schema {field}"

namespace Schema

/-- Whether a name of a type can be that of a directory: letters, digits, hyphens and underscores
of ASCII, at least one of them. -/
def isTypeName (name : String) : Bool :=
  !name.isEmpty && name.toList.all fun c => c.isAlphanum || c == '_' || c == '-'

/-- A declared field of a kind, followed by its aliases. Free text finds the field, not the
aliases, so that no word counts twice. -/
def withAliases (d : FieldDeclaration) (kind : ValueKind) : List IndexedField :=
  let capabilities := { searchable := d.search, filterable := d.filter, sortable := d.sort }
  { name := d.name, source := d.name, kind, capabilities, aliases := d.aliases } ::
    d.aliases.map fun name =>
      { name, source := d.name, kind, capabilities := { capabilities with searchable := false }
        aliases := [] }

/-- The fields of a schema, from the declared ones. `kindOf` gives the kind of a readable field
and `earlier` holds the fields before these. -/
def resolveFields (primaryKey : String) (kindOf : String → Option ValueKind) :
    List IndexedField → List FieldDeclaration → Except SchemaFault (List IndexedField)
  | earlier, [] => .ok earlier
  | earlier, d :: ds =>
    if d.name = primaryKey || earlier.any fun f => f.source == d.name && !f.isAlias then
      .error (.declaredTwice d.name)
    else if d.name = payloadField || d.name = defaultSearchField then .error (.reserved d.name)
    else
      match kindOf d.name with
      | none => .error (.unreadableField d.name)
      | some kind =>
        if kind.isIndexable then
          resolveFields primaryKey kindOf (earlier ++ withAliases d kind) ds
        else .error (.unsupported kind d.name)

/-- Adds a field to the columns: to the one of its name, or as a new one. -/
def addColumn (f : IndexedField) : List Column → Except SchemaFault (List Column)
  | [] => .ok [⟨f.name, f.kind, f.capabilities⟩]
  | c :: cs =>
    if c.name = f.name then
      if c.kind = f.kind then
        .ok ({ c with capabilities := c.capabilities.union f.capabilities } :: cs)
      else .error (.twoKinds f.name c.kind f.kind)
    else (addColumn f cs).map (c :: ·)

/-- The columns of fields. Those that neither filters nor orders use are left out at the end. -/
def mergeColumns (fields : List IndexedField) : Except SchemaFault (List Column) := do
  let columns ← fields.foldlM (fun columns f => addColumn f columns) []
  return columns.filter fun c => c.capabilities.filterable || c.capabilities.sortable

/-- The schema of a declaration, or the first fault in it. -/
def ofDeclaration (entityType : String) (d : Declaration) (kindOf : String → Option ValueKind) :
    Except SchemaFault Schema := do
  if !isTypeName entityType then throw .badTypeName
  if d.primaryKey.isEmpty then throw .missingKey
  let some keyKind := kindOf d.primaryKey | throw (.unreadableKey d.primaryKey)
  if keyKind ≠ .string then throw (.keyKind keyKind)
  let primaryKey : IndexedField :=
    { name := d.primaryKey, source := d.primaryKey, kind := keyKind
      capabilities := { searchable := false, filterable := true, sortable := true }
      aliases := [] }
  let fields ← resolveFields d.primaryKey kindOf [] d.fields
  if let some field := d.collections.find? fun field => kindOf field ≠ some .collection then
    throw (.noCollection field)
  if let some name := d.nameField then
    if !fields.any fun f => f.name == name && f.capabilities.sortable then
      throw (.nameNotSortable name)
  let columns ← mergeColumns (primaryKey :: fields)
  if let some own := [payloadField, defaultSearchField].find? fun own =>
      columns.any fun c => c.name == own then
    throw (.engineFieldTwice own)
  return { entityType, primaryKey, fields, collections := d.collections, nameField := d.nameField
           columns }

/-- The schema of an entity type. -/
def describe (α : Type) [Indexed α] : Except IndexError Schema :=
  let entityType := Indexed.entityType α
  let kindOf (field : String) := (Indexed.accessor? α field).map Accessor.kind
  match ofDeclaration entityType (Indexed.declaration α) kindOf with
  | .ok s => .ok s
  | .error fault => .error (.configuration entityType fault.message)

end Schema

end Codebook
