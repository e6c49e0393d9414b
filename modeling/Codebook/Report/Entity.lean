/-
# Reports of entities

What can be read of an entity: its text form, its primary key, name and parent, its last change, and
the values of its declared fields.

Key definitions: `Accessor.report`, `SampleKind.report`.
-/
import Codebook.Data.Access
import Codebook.Report.Value
import Codebook.Samples.Kind

namespace Codebook

open Data

/-- The report on an accessor and what it reads from an entity. -/
def Accessor.report {α : Type} (accessor : Accessor α) (a : α) : Data :=
  let value := accessor.read a
  obj [("kind", .text accessor.kind.label), ("indexable", .bool accessor.kind.isIndexable),
    ("debug", .text accessor.label), ("value", value.toData), ("value_debug", .text value.label)]

/-- The fields of an entity that are declared and can be read. -/
def fieldReports {α : Type} [Indexed α] (a : α) : List Data :=
  let declared := Indexed.declaration α
  let names := declared.primaryKey :: declared.fields.map FieldDeclaration.name ++
    declared.collections
  names.filterMap fun name =>
    (Indexed.accessor? α name).map fun accessor =>
      let value := accessor.read a
      obj [("name", .text name), ("kind", .text accessor.kind.label), ("value", value.toData),
        ("is_null", .bool value.isNull)]

/-- The report on an entity of a type. -/
def SampleKind.report (t : SampleKind) (a : t.Entity) : Data :=
  obj [("text", .text (Indexed.toJson a)), ("id", .text (Indexed.id a)),
    ("name", .ofText? (t.name? a)),
    ("relation", orNull (fun (field, id) => .ofTexts [field, id]) (t.relation? a)),
    ("active", orNull (fun v => .bool (@Versioned.isActive _ v a)) t.versioned?),
    ("change_type", orNull (fun v => .text (@Versioned.changeType _ v a).name) t.versioned?),
    ("flags", orNull (fun flags => .list (flags.map .bool)) (t.flags? a)),
    ("fields", .list (fieldReports a))]

end Codebook
