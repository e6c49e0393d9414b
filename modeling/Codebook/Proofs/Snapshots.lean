/-
# Snapshots

A document keeps a snapshot of its entity, from which the entity is read back. Collections are left
out of it, so what is read has empty ones, and an entity has the same document whatever is in them.

For this the names have to agree in four places for each type: those that are written, those that
are declared to hold collections, those that are read, and those of the fields that are indexed.

Key definitions: `FieldValue.Proper`, `Indexed.Proper`, `Indexed.snapshotData`, `EntityKind.bare`.
Key theorems: `History.ofData?_toData`, `EntityKind.ofData?_snapshotData`,
`EntityKind.decode_encode`.
-/
import Codebook.Proofs.Entities
import Codebook.Proofs.Instants
import Codebook.Proofs.Packing

namespace Codebook

/-! ### Values that can be kept -/

/-- A value as a machine holds it: a text whose bytes can be counted, a number of 32 bits, or an
instant of the calendar. -/
def FieldValue.Proper : FieldValue → Prop
  | text s => Data.Fits s
  | integer n => Number.minInt32 ≤ n ∧ n ≤ Number.maxInt32
  | date i => i.Proper
  | null | float _ | enum _ | bool _ => True

instance : DecidablePred FieldValue.Proper
  | .text s => inferInstanceAs (Decidable (s.utf8ByteSize < 2 ^ 64))
  | .integer _ => inferInstanceAs (Decidable (_ ∧ _))
  | .date i => decidable_of_iff (i.second < Instant.daySeconds ∧ _ ∧ _)
    ⟨fun ⟨hsecond, hnanos, hyear⟩ => ⟨hsecond, hnanos, hyear⟩, fun h => ⟨h.second, h.nanos, h.year⟩⟩
  | .null | .float _ | .enum _ | .bool _ => isTrue trivial

/-- Every field of an entity holds such a value. The name in lower case is no field of its own, it
follows from the name. -/
def Indexed.Proper {α : Type} [Indexed α] (a : α) : Prop :=
  ∀ e ∈ Indexed.accessors (α := α), e.1 ≠ nameKeyField → (e.2.read a).Proper

instance {α : Type} [Indexed α] (a : α) : Decidable (Indexed.Proper a) :=
  inferInstanceAs (Decidable (∀ e ∈ Indexed.accessors (α := α), e.1 ≠ nameKeyField → (e.2.read a).Proper))

namespace FieldValue

@[simp] theorem proper_text (s : String) : (text s).Proper ↔ Data.Fits s := .rfl

@[simp] theorem proper_integer (n : Int) :
    (integer n).Proper ↔ Number.minInt32 ≤ n ∧ n ≤ Number.maxInt32 := .rfl

@[simp] theorem proper_date (i : Instant) : (date i).Proper ↔ i.Proper := .rfl

@[simp] theorem proper_enum (name : String) : (enum name).Proper := trivial

@[simp] theorem proper_null : null.Proper := trivial

end FieldValue

namespace Data

instance (s : String) : Decidable (Fits s) :=
  inferInstanceAs (Decidable (s.utf8ByteSize < 2 ^ 64))

theorem utf8ByteSize_le (s : String) : s.utf8ByteSize ≤ 4 * s.toList.length := by
  obtain ⟨cs, rfl⟩ : ∃ cs, s = String.ofList cs := ⟨s.toList, String.ofList_toList.symm⟩
  rw [String.toList_ofList]
  induction cs with
  | nil => simp
  | cons c cs ih =>
    have hc := c.utf8Size_le_four
    rw [String.ofList_cons, String.utf8ByteSize_append, String.utf8ByteSize_singleton,
      List.length_cons]
    omega

theorem fits_of_length {s : String} (h : s.toList.length < 2 ^ 62) : Fits s := by
  have hle := utf8ByteSize_le s
  rw [Fits]
  omega

@[simp] theorem packs_ofText? (depth : Nat) (o : Option String) :
    (ofText? o).Packs depth ↔ (FieldValue.ofText? o).Proper := by
  cases o <;> simp [ofText?, FieldValue.ofText?, Packs]

theorem packs_int {n : Int} (hlow : Number.minInt32 ≤ n) (hhigh : n ≤ Number.maxInt32) (depth : Nat) :
    (int n).Packs depth := by
  have hmin : Number.minInt32 = -0x80000000 := rfl
  have hmax : Number.maxInt32 = 0x7FFFFFFF := rfl
  rw [Packs]
  omega

/-! ### Reading -/

/-- Values that read back one by one read back together. -/
theorem mapM_map {α β : Type} {write : α → β} {read : β → Option α} :
    ∀ {xs : List α}, (∀ a ∈ xs, read (write a) = some a) → (xs.map write).mapM read = some xs
  | [], _ => rfl
  | a :: xs, h => by
    have ha := h a List.mem_cons_self
    have hxs := mapM_map fun b hb => h b (List.mem_cons_of_mem _ hb)
    simp [ha, hxs]

/-- A record that has only members of the names that are asked for, each once, is read whole. -/
theorem toMembers?_record {form : Form} {names defaults : List String}
    {members : List (String × Data)} (hknown : ∀ m ∈ members, m.1 ∈ names)
    (hnodup : (members.map (·.1)).Nodup) :
    (record members).toMembers? form names defaults = some members := by
  unfold toMembers?
  simp only
  rw [List.filter_eq_self.mpr ?known, if_pos hnodup]
  case known =>
    intro m hm
    simpa using hknown m hm

@[simp] theorem toText?_text (s : String) : (text s).toText? = some s := rfl

@[simp] theorem toOption?_ofText? (o : Option String) : (ofText? o).toOption? toText? = some o := by
  cases o <;> rfl

theorem toInt32?_int {n : Int} (hlow : Number.minInt32 ≤ n) (hhigh : n ≤ Number.maxInt32) :
    (int n).toInt32? = some n :=
  if_pos ⟨hlow, hhigh⟩

theorem toName?_text {α : Type} (form : Form) (named : String → Option α) (s : String) :
    (text s).toName? form named = named s := rfl

theorem toInstant?_text {i : Instant} (h : i.Proper) : (text i.toText).toInstant? = some i := by
  rw [toInstant?, toText?_text, Option.bind_some, Instant.read_toText h]

end Data

namespace Members

variable {α : Type} (name other : String) (d : Data) (ms : Members) (read : Data → Option α)

theorem lookup_cons : List.lookup name ((other, d) :: ms) =
    if name = other then some d else List.lookup name ms := by
  rw [List.lookup_cons]
  by_cases h : name = other
  · simp [h]
  · simp [beq_eq_false_iff_ne.mpr h, h]

@[simp] theorem required_cons : required ((other, d) :: ms) name read =
    if name = other then read d else required ms name read := by
  by_cases h : name = other <;> simp [required, lookup_cons, h]

@[simp] theorem optional_cons : optional ((other, d) :: ms) name read =
    if name = other then d.toOption? read else optional ms name read := by
  by_cases h : name = other <;> simp [optional, lookup_cons, h]

@[simp] theorem defaulted_cons (a : α) : defaulted ((other, d) :: ms) name a read =
    if name = other then read d else defaulted ms name a read := by
  by_cases h : name = other <;> simp [defaulted, lookup_cons, h]

@[simp] theorem defaulted_nil (a : α) : defaulted [] name a read = some a := rfl

end Members

/-! ### Histories -/

theorem ChangeType.named?_name (t : ChangeType) : named? t.name = some t := by
  cases t <;> decide

theorem MetaFieldType.named?_name (t : MetaFieldType) : named? t.name = some t := by
  cases t <;> decide

theorem ChangeType.fits_name (t : ChangeType) : Data.Fits t.name := by
  cases t <;> decide

theorem MetaFieldType.fits_name (t : MetaFieldType) : Data.Fits t.name := by
  cases t <;> decide

/-- The text of an instant is short. -/
theorem Instant.fits_toText {i : Instant} (h : i.Proper) : Data.Fits i.toText := by
  have hlength := length_toText h
  exact Data.fits_of_length (by omega)

namespace History

variable {h : History}

/-- **A history is read as it was written.** -/
theorem ofData?_toData (hdate : h.changeDate.Proper) (form : Form) :
    ofData? form h.toData = some h := by
  unfold ofData? toData
  rw [Data.toMembers?_record (by simp) (by simp)]
  simp [Data.toName?_text, ChangeType.named?_name, Data.toInstant?_text hdate]

theorem packs_toData (hid : Data.Fits h.historyId) (hdate : h.changeDate.Proper) (depth : Nat) :
    h.toData.Packs (depth + 1) := by
  simp +decide [toData, hid, ChangeType.fits_name, Instant.fits_toText hdate]

end History

/-! ### Types -/

/-- What a document keeps of an entity, as data. -/
def Indexed.snapshotData {α : Type} [Indexed α] (a : α) : Data :=
  (Indexed.toData a).without (Indexed.declaration α).collections

namespace EntityKind

/-- An entity without its collections. -/
def bare : (k : EntityKind) → k.Entity → k.Entity
  | group, g => { g with descendants := [] }
  | dictionary, d => { d with descendants := [] }
  | metaField, m => { m with descendants := [] }
  | field, f => f
  | recodeRuleSet, r => { r with recodeRules := [] }
  | recodeRule, r => r
  | record, r => { r with fields := [] }

/-- What is kept does not depend on the collections. -/
theorem snapshotData_bare : ∀ (k : EntityKind) (a : k.Entity),
    Indexed.snapshotData (k.bare a) = Indexed.snapshotData a
  | group, _ | dictionary, _ | metaField, _ | field, _ | recodeRuleSet, _ | recodeRule, _
  | record, _ => rfl

/-- Neither does what is indexed. -/
theorem read_bare (k : EntityKind) : ∀ e ∈ Indexed.accessors (α := k.Entity), ∀ a : k.Entity,
    e.2.read (k.bare a) = e.2.read a := by
  cases k <;> simp [Indexed.accessors, Versioned.accessors, Versioned.history, Versioned.changeType, bare]

/-- What is kept of an entity has bytes. -/
theorem packs_snapshotData (k : EntityKind) (a : k.Entity) (h : Indexed.Proper a) :
    (Indexed.snapshotData a).Packs 256 := by
  cases k <;>
    simp [Indexed.Proper, Indexed.accessors, Versioned.accessors, Versioned.history, nameKeyField]
      at h <;>
    simp +decide [Indexed.snapshotData, Indexed.toData, Indexed.declaration, Group.toData,
      Dictionary.toData, MetaField.toData, Field.toData, RecodeRuleSet.toData, RecodeRule.toData,
      Record.toData, Data.without, History.packs_toData, MetaFieldType.fits_name, Data.packs_int, h]

/-- What is kept of an entity is read as the entity without its collections. -/
theorem ofData?_snapshotData (k : EntityKind) (a : k.Entity) (h : Indexed.Proper a) :
    Indexed.ofData? .packed (Indexed.snapshotData a) = some (k.bare a) := by
  cases k <;>
    simp [Indexed.Proper, Indexed.accessors, Versioned.accessors, Versioned.history, nameKeyField]
      at h <;>
    simp [Indexed.snapshotData, Indexed.toData, Indexed.declaration, Indexed.ofData?, Group.toData,
      Dictionary.toData, MetaField.toData, Field.toData, RecodeRuleSet.toData, RecodeRule.toData,
      Record.toData, Group.ofData?, Dictionary.ofData?, MetaField.ofData?, Field.ofData?,
      RecodeRuleSet.ofData?, RecodeRule.ofData?, Record.ofData?, Data.without,
      Data.toMembers?_record, History.ofData?_toData, Data.toName?_text, MetaFieldType.named?_name,
      Data.toInt32?_int, bare, h]

end EntityKind

/-! ### Documents -/

section

variable {α : Type} [Indexed α] {s : Schema} {a b : α}

theorem Schema.collections_of_describe (hs : Schema.describe α = .ok s) :
    s.collections = (Indexed.declaration α).collections :=
  (ofDeclaration_ok (ofDeclaration_of_describe hs)).2.2.2.1

/-- Entities with the same fields of which the same is kept have the same document. -/
theorem Document.encode_congr (hs : Schema.describe α = .ok s)
    (hfields : ∀ e ∈ Indexed.accessors (α := α), e.2.read b = e.2.read a)
    (hsame : Indexed.snapshotData b = Indexed.snapshotData a) : encode s b = encode s a := by
  have hread : ∀ f : IndexedField, f.read b = f.read a := by
    intro f
    unfold IndexedField.read
    cases hr : Indexed.accessor? α f.source with
    | none => rfl
    | some r =>
      obtain ⟨before, after, hmem, -⟩ := List.lookup_eq_some_iff.mp hr
      exact hfields (f.source, r) (by rw [hmem]; simp)
  have hfield : encodeField s b = encodeField s a := by
    funext f
    rw [encodeField, encodeField, hread f]
  have hsnapshot : snapshot s b = snapshot s a := by
    rw [snapshot, snapshot, Schema.collections_of_describe hs]
    exact congrArg Data.toCbor hsame
  simp only [encode, hfield, hread, hsnapshot]

/-- A document gives back what is read of what it keeps. -/
theorem Document.decode_of_encode (hs : Schema.describe α = .ok s) {d : Document}
    (hd : encode s a = .ok d) (hpacks : (Indexed.snapshotData a).Packs 256)
    (hreads : Indexed.ofData? .packed (Indexed.snapshotData a) = some b) :
    decode α s d = .ok b := by
  obtain ⟨values, -, rfl⟩ := encode_ok hd
  have hsnapshot : snapshot s a = (Indexed.snapshotData a).toCbor := by
    rw [snapshot, Schema.collections_of_describe hs]
    rfl
  unfold decode
  simp only [hsnapshot, Data.ofCbor?_toCbor hpacks, Option.bind_some, hreads]

end

/-- **The document of an entity gives the entity back**, with its fields and its whole history, and
without its collections; it does not depend on them. -/
theorem EntityKind.decode_encode {k : EntityKind} {s : Schema}
    (hs : Schema.describe k.Entity = .ok s) (a : k.Entity) :
    ∃ d, Document.encode s a = .ok d ∧
      (Indexed.Proper a → Document.decode k.Entity s d = .ok (k.bare a)) ∧
      ∀ b, k.bare b = k.bare a → Document.encode s b = .ok d := by
  obtain ⟨d, hd⟩ := encode_total hs a
  refine ⟨d, hd, fun h => ?_, fun b hb => ?_⟩
  · exact Document.decode_of_encode hs hd (k.packs_snapshotData a h) (k.ofData?_snapshotData a h)
  · rw [← hd]
    refine Document.encode_congr hs (fun e he => ?_) ?_
    · rw [← k.read_bare e he b, hb, k.read_bare e he a]
    · rw [← k.snapshotData_bare b, hb, k.snapshotData_bare a]

/-- A group that was closed in a leap second, over a dictionary with a column. -/
def Group.nested : Group :=
  let history : History := ⟨"h", .close, ⟨17166, 86399, 1500000000⟩⟩
  let column : MetaField := ⟨"m", history, "d", "code", none, .number, -1, 0, []⟩
  { id := "g", history, name := "Größe", description := some "", owner := none
    descendants := [⟨"d", history, "g", "sizes", none, some "2", [column]⟩] }

theorem EntityKind.decode_encode_nested : ∃ s d, Schema.describe Group = .ok s ∧
    Document.encode s Group.nested = .ok d ∧
    Document.decode Group s d = .ok { Group.nested with descendants := [] } ∧
    Document.encode s { Group.nested with descendants := [] } = .ok d := by
  obtain ⟨s, hs⟩ : ∃ s, Schema.describe Group = .ok s := ⟨_, rfl⟩
  have hproper : Indexed.Proper Group.nested := by decide
  obtain ⟨d, hd, hdecode, hsame⟩ := EntityKind.decode_encode (k := .group) hs Group.nested
  exact ⟨s, d, hs, hd, hdecode hproper, hsame _ rfl⟩

end Codebook
