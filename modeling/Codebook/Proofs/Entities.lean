/-
# The entity types of the model

All seven types keep what a declaration promises: the primary key reads the id, no alias has its
name, and every accessor gives values of the kind that it says. So every entity has a document, and
the document of an entity whose id is not blank is found under this id and no other.

Key definitions: `ValueKind.accepts`, `Indexed.Consistent`.
Key theorems: `Schema.Describes.encode_total`, `EntityKind.keyedBy`, `EntityKind.encode_total`.
-/
import Codebook.Entity.Kind
import Codebook.Proofs.Keys

namespace Codebook

/-- Whether a value is of a kind. No value is of every kind, and a text may name a value of an
enumeration. -/
def ValueKind.accepts : ValueKind → FieldValue → Bool
  | _, .null => true
  | .string, .text _ => true
  | .number, .integer _ => true
  | .number, .float _ => true
  | .date, .date _ => true
  | .enum, .text _ => true
  | .enum, .enum _ => true
  | .boolean, .bool _ => true
  | _, _ => false

namespace ValueKind

@[simp] theorem accepts_null (k : ValueKind) : k.accepts .null = true := by cases k <;> rfl

@[simp] theorem accepts_text (s : String) : string.accepts (.text s) = true := rfl

@[simp] theorem accepts_integer (n : Int) : number.accepts (.integer n) = true := rfl

@[simp] theorem accepts_date (i : Instant) : date.accepts (.date i) = true := rfl

@[simp] theorem accepts_enum (name : String) : enum.accepts (.enum name) = true := rfl

@[simp] theorem accepts_ofText? (o : Option String) : string.accepts (.ofText? o) = true := by
  cases o <;> rfl

end ValueKind

theorem encodeValue_of_accepts {entityType field : String} {kind : ValueKind} {value : FieldValue}
    (h : kind.accepts value = true) : ∃ cell, encodeValue entityType field kind value = .ok cell := by
  cases kind <;> cases value <;> simp_all [ValueKind.accepts, encodeValue]

/-- What a type says of its primary key and its accessors is so. -/
structure Indexed.Consistent (α : Type) [Indexed α] : Prop where
  key : ∃ r, Indexed.accessor? α (Indexed.declaration α).primaryKey = some r ∧
    ∀ a : α, r.read a = .text (Indexed.id a)
  aliases : ∀ d ∈ (Indexed.declaration α).fields, (Indexed.declaration α).primaryKey ∉ d.aliases
  kinds : ∀ e ∈ Indexed.accessors (α := α), ∀ a : α, e.2.kind.accepts (e.2.read a) = true

section

variable {α : Type} [Indexed α] {s : Schema}

theorem Schema.Describes.keyedBy (hs : s.Describes α) (h : Indexed.Consistent α) :
    s.KeyedBy α := by
  obtain ⟨r, hr, hread⟩ := h.key
  refine ⟨hs, fun a => ?_, fun f hf => ?_⟩
  · rw [hs.key, IndexedField.read, hr]
    exact hread a
  · obtain ⟨d, hd, -, hname, hne⟩ := hs.field f hf
    intro he
    rcases hname with hname | hname
    · exact hne (hname.symm.trans he)
    · refine h.aliases d hd ?_
      rwa [he, hs.key] at hname

/-- An entity has a document if all accessors give values of their kinds. -/
theorem Schema.Describes.encode_total (hs : s.Describes α) (h : Indexed.Consistent α) (a : α) :
    ∃ d, Document.encode s a = .ok d := by
  have hfield : ∀ f ∈ s.primaryKey :: s.fields,
      ∃ values, Document.encodeField s a f = .ok values := by
    intro f hf
    unfold Document.encodeField
    cases hc : s.column? f.name with
    | none => exact ⟨_, rfl⟩
    | some c =>
      obtain ⟨r, hr, hkind⟩ := hs.accessor hf
      have haccepts : c.kind.accepts (f.read a) = true := by
        rw [(hs.column_kind hc).2 f hf rfl, ← hkind, IndexedField.read, hr]
        obtain ⟨before, after, hmem, -⟩ := List.lookup_eq_some_iff.mp hr
        exact h.kinds (f.source, r) (by rw [hmem]; simp) a
      obtain ⟨cell, hcell⟩ :
          ∃ cell, encodeValue s.entityType f.name c.kind (f.read a) = .ok cell :=
        encodeValue_of_accepts haccepts
      simp only [hcell]
      cases cell <;> exact ⟨_, rfl⟩
  obtain ⟨values, hvalues⟩ := mapM_total hfield
  exact ⟨_, by rw [Document.encode, hvalues]; rfl⟩

end

theorem accepts_versioned {α : Type} [Versioned α] :
    ∀ e ∈ Versioned.accessors α, ∀ a, e.2.kind.accepts (e.2.read a) = true := by
  simp [Versioned.accessors]

namespace EntityKind

/-- Every type of the model is consistent. -/
theorem consistent : ∀ k : EntityKind, Indexed.Consistent k.Entity
  | group => ⟨⟨_, rfl, fun _ => rfl⟩, by decide,
    List.forall_mem_append.mpr ⟨by simp, accepts_versioned⟩⟩
  | dictionary => ⟨⟨_, rfl, fun _ => rfl⟩, by decide,
    List.forall_mem_append.mpr ⟨by simp, accepts_versioned⟩⟩
  | metaField => ⟨⟨_, rfl, fun _ => rfl⟩, by decide,
    List.forall_mem_append.mpr ⟨by simp, accepts_versioned⟩⟩
  | field => ⟨⟨_, rfl, fun _ => rfl⟩, by decide,
    List.forall_mem_append.mpr ⟨by simp, accepts_versioned⟩⟩
  | recodeRuleSet => ⟨⟨_, rfl, fun _ => rfl⟩, by decide,
    List.forall_mem_append.mpr ⟨by simp, accepts_versioned⟩⟩
  | recodeRule => ⟨⟨_, rfl, fun _ => rfl⟩, by decide,
    List.forall_mem_append.mpr ⟨by simp, accepts_versioned⟩⟩
  | record => ⟨⟨_, rfl, fun _ => rfl⟩, by decide, by simp [Indexed.accessors]⟩

variable {k : EntityKind} {s : Schema}

/-- The documents of entities of the model are found under their ids alone. -/
theorem keyedBy (hs : Schema.describe k.Entity = .ok s) : s.KeyedBy k.Entity :=
  (Schema.describes_of_describe hs).keyedBy k.consistent

/-- Every entity of the model has a document. -/
theorem encode_total (hs : Schema.describe k.Entity = .ok s) (a : k.Entity) :
    ∃ d, Document.encode s a = .ok d :=
  (Schema.describes_of_describe hs).encode_total k.consistent a

end EntityKind
end Codebook
