/-
# Documents by their keys

In an index of entities whose ids are not blank, a document is found under the id of its entity and
under no other key. So the documents under a key are a view of the content of their own, and a
change of one key leaves all other views alone. An index mirrors a store if under every key it has
the document of the entity that the store has there; then its documents are those of all entities
of the store, in some order.

Key definitions: `Schema.KeyedBy`, `Document.Of`, `Mirrors`.
Key theorems: `Document.Of.hasKey`, `mirrors_of_encoded`, `Mirrors.upsert`, `Mirrors.delete`,
`Mirrors.same`, `Mirrors.perm`.
-/
import Codebook.Index.Transaction
import Codebook.Proofs.Document
import Codebook.Proofs.Store
import Mathlib.Data.List.Forall2
import Mathlib.Data.List.Nodup

namespace Codebook

/-- The schema describes the entities, its primary key holds their ids, and no other field shares
its column. -/
structure Schema.KeyedBy (α : Type) [Indexed α] (s : Schema) : Prop where
  describes : s.Describes α
  read : ∀ a : α, s.primaryKey.read a = .text (Indexed.id a)
  alone : ∀ f ∈ s.fields, f.name ≠ s.primaryKey.name

/-- The primary key is the only field of its name. -/
theorem Schema.KeyedBy.sole {α : Type} [Indexed α] {s : Schema} (hs : s.KeyedBy α) :
    (s.primaryKey :: s.fields).filter (fun f => f.name = s.primaryKey.name) = [s.primaryKey] := by
  have hothers : s.fields.filter (fun f => f.name = s.primaryKey.name) = [] :=
    List.filter_eq_nil_iff.mpr fun f hf => by simpa using hs.alone f hf
  rw [List.filter_cons_of_pos (by simp), hothers]

/-- The document of an entity that can be found by its id. -/
structure Document.Of {α : Type} [Indexed α] (s : Schema) (a : α) (d : Document) : Prop where
  key : Text.isBlank (Indexed.id a) = false
  encoded : Document.encode s a = .ok d

section

variable {α : Type} [Indexed α] {s : Schema} {a : α} {d e : Document}

/-! ### The key of a document -/

theorem Document.hasKey_iff (s : Schema) (key : String) (d : Document) :
    d.hasKey s key = true ↔ Cell.text key ∈ d.cells s.primaryKey.name := by
  unfold hasKey cells
  rw [List.contains_iff_mem, List.mem_filterMap]
  constructor
  · intro h
    exact ⟨_, h, by simp⟩
  · rintro ⟨⟨name, cell⟩, hm, hc⟩
    simp only [Option.ite_none_right_eq_some, Option.some.injEq] at hc
    rwa [hc.1, hc.2] at hm

/-- The key column of the document of an entity holds its id, unless it is blank. -/
theorem Document.cells_key (hs : s.KeyedBy α) (h : encode s a = .ok d) :
    d.cells s.primaryKey.name =
      if Text.isBlank (Indexed.id a) then [] else [.text (Indexed.id a)] := by
  have hkey := hs.describes.key
  have hu : s.primaryKey.capabilities.filterable = true := by rw [hkey]
  have hcolumn : (s.column? s.primaryKey.name).isSome := by
    obtain ⟨c, hc⟩ := hs.describes.column_of_usable List.mem_cons_self (Or.inl hu)
    simp [hc]
  rw [cells_encode hs.describes h hcolumn]
  have hcell : s.cellOf a s.primaryKey =
      if Text.isBlank (Indexed.id a) then none else some (.text (Indexed.id a)) := by
    unfold Schema.cellOf
    rw [hs.read, show s.primaryKey.kind = .string by rw [hkey]]
    by_cases hblank : Text.isBlank (Indexed.id a) = true <;> simp [encodeValue, hblank]
  rw [Schema.cellsOf, hs.sole]
  by_cases hblank : Text.isBlank (Indexed.id a) = true <;> simp [hcell, hblank]

namespace Document.Of

theorem unique (h : Of s a d) (h' : Of s a e) : d = e := by
  have := h.encoded.symm.trans h'.encoded
  simpa using this

theorem cells (hs : s.KeyedBy α) (h : Of s a d) :
    d.cells s.primaryKey.name = [.text (Indexed.id a)] := by
  rw [cells_key hs h.encoded, h.key]
  rfl

/-- A document is found under the id of its entity and under no other key. -/
theorem hasKey (hs : s.KeyedBy α) (h : Of s a d) (key : String) :
    d.hasKey s key = true ↔ Indexed.id a = key := by
  rw [hasKey_iff, h.cells hs]
  simp [eq_comm]

end Document.Of

/-- A document whose entity has a blank id is found under no key. -/
theorem Document.hasKey_encoded (hs : s.KeyedBy α) (h : encode s a = .ok d) (key : String) :
    d.hasKey s key = true ↔ Text.isBlank (Indexed.id a) = false ∧ Indexed.id a = key := by
  rw [hasKey_iff, cells_key hs h]
  by_cases hblank : Text.isBlank (Indexed.id a) = true <;> simp [hblank, eq_comm]

theorem forall₂_of_encoded {as : List α} {ds : List Document}
    (hkeys : ∀ a ∈ as, Text.isBlank (Indexed.id a) = false)
    (h : as.mapM (Document.encode s) = .ok ds) : List.Forall₂ (Document.Of s) as ds := by
  have hall := forall₂_of_mapM h
  clear h
  induction hall with
  | nil => exact .nil
  | cons had _ ih =>
    exact .cons ⟨hkeys _ List.mem_cons_self, had⟩ (ih fun b hb => hkeys b (List.mem_cons_of_mem _ hb))

/-! ### Mirrors -/

/-- The documents that are found under a key. -/
def docsUnder (s : Schema) (key : String) (documents : List Document) : List Document :=
  documents.filter fun d => d.hasKey s key

/-- Under every key there is the document of the entity that belongs there, and there are no other
documents. -/
structure Mirrors (s : Schema) (documents : List Document) (entity? : String → Option α) : Prop where
  under : ∀ key, List.Forall₂ (Document.Of s) (entity? key).toList (docsUnder s key documents)
  owned : ∀ d ∈ documents, ∃ a : α, Document.Of s a d

theorem mirrors_nil (s : Schema) : Mirrors s [] fun _ => (none : Option α) :=
  ⟨fun _ => .nil, by simp⟩

theorem docsUnder_append (s : Schema) (key : String) (before after : List Document) :
    docsUnder s key (before ++ after) = docsUnder s key before ++ docsUnder s key after :=
  List.filter_append before after

theorem docsUnder_reject (s : Schema) (key k : String) (documents : List Document)
    (h : ∀ d ∈ documents, d.hasKey s key = true → d.hasKey s k = false) :
    docsUnder s k (documents.filter fun d => !d.hasKey s key) = docsUnder s k documents := by
  unfold docsUnder
  rw [List.filter_filter]
  refine List.filter_congr fun d hd => ?_
  by_cases hkey : d.hasKey s key = true
  · simp [h d hd hkey]
  · simp [hkey]

theorem docsUnder_reject_self (s : Schema) (key : String) (documents : List Document) :
    docsUnder s key (documents.filter fun d => !d.hasKey s key) = [] := by
  unfold docsUnder
  rw [List.filter_filter]
  exact List.filter_eq_nil_iff.mpr fun d _ => by simp

namespace Mirrors

variable {documents : List Document} {entity? : String → Option α}

theorem reject (hs : s.KeyedBy α) (h : Mirrors s documents entity?) (key : String) :
    Mirrors s (documents.filter fun d => !d.hasKey s key)
      fun k => if k = key then none else entity? k := by
  refine ⟨fun k => ?_, fun d hd => h.owned d (List.mem_filter.mp hd).1⟩
  by_cases hk : k = key
  · subst hk
    rw [if_pos rfl, docsUnder_reject_self]
    exact .nil
  · rw [if_neg hk, docsUnder_reject s key k documents]
    · exact h.under k
    · intro d hd hkey
      obtain ⟨a, ha⟩ := h.owned d hd
      rw [← Bool.not_eq_true]
      intro hother
      exact hk (((ha.hasKey hs k).mp hother).symm.trans ((ha.hasKey hs key).mp hkey))

/-- The removal of a key takes away what is found under it. -/
theorem delete (hs : s.KeyedBy α) (h : Mirrors s documents entity?) (key : String) :
    Mirrors s ((Change.delete key).apply s documents) fun k => if k = key then none else entity? k :=
  h.reject hs key

/-- An upsert of an entity puts its document in place of what is found under its id. -/
theorem upsert (hs : s.KeyedBy α) (h : Mirrors s documents entity?) (ha : Document.Of s a d) :
    Mirrors s ((Change.upsert (Indexed.id a) d).apply s documents)
      fun k => if k = Indexed.id a then some a else entity? k := by
  have hrest := h.reject hs (Indexed.id a)
  refine ⟨fun k => ?_, fun e he => ?_⟩
  · have hunder := hrest.under k
    rw [Change.apply, docsUnder_append]
    by_cases hk : k = Indexed.id a
    · subst hk
      have hself : docsUnder s (Indexed.id a) [d] = [d] :=
        List.filter_cons_of_pos ((ha.hasKey hs _).mpr rfl)
      rw [docsUnder_reject_self, hself, if_pos rfl]
      exact .cons ha .nil
    · have hother : docsUnder s k [d] = [] :=
        List.filter_cons_of_neg fun hkey => hk ((ha.hasKey hs k).mp hkey).symm
      rw [if_neg hk] at hunder ⊢
      rwa [hother, List.append_nil]
  · rcases List.mem_append.mp he with he | he
    · exact hrest.owned e he
    · exact ⟨a, List.mem_singleton.mp he ▸ ha⟩

end Mirrors

theorem exists_of_mem_left {β γ : Type} {r : β → γ → Prop} {xs : List β} {ys : List γ}
    (h : List.Forall₂ r xs ys) {x : β} (hx : x ∈ xs) : ∃ y ∈ ys, r x y := by
  induction h with
  | nil => simp at hx
  | @cons x' y xs ys hxy _ ih =>
    rcases List.mem_cons.mp hx with rfl | hx
    · exact ⟨y, List.mem_cons_self, hxy⟩
    · obtain ⟨z, hz, hxz⟩ := ih hx
      exact ⟨z, List.mem_cons_of_mem _ hz, hxz⟩

theorem exists_of_mem_right {β γ : Type} {r : β → γ → Prop} {xs : List β} {ys : List γ}
    (h : List.Forall₂ r xs ys) {y : γ} (hy : y ∈ ys) : ∃ x ∈ xs, r x y :=
  exists_of_mem_left (r := fun y x => r x y) h.flip hy

/-! ### Mirrors of a store -/

theorem MemoryStore.Sound.filter_toList {m : MemoryStore α} (h : m.Sound) (key : String) :
    m.toList.filter (fun a => decide (Indexed.id a = key)) = (m.get? key).toList := by
  obtain ⟨entries⟩ := m
  obtain ⟨hordered, hkeyed⟩ := h
  simp only [toList, get?, Keyed.values] at hordered hkeyed ⊢
  induction entries with
  | nil => rfl
  | cons entry rest ih =>
    obtain ⟨k, a⟩ := entry
    obtain ⟨hk, hrest⟩ := Keyed.ordered_cons.mp hordered
    have hid : k = Indexed.id a := hkeyed _ List.mem_cons_self
    have hih := ih hrest fun e he => hkeyed e (List.mem_cons_of_mem _ he)
    rw [List.map_cons, Keyed.get?]
    by_cases he : key = k
    · subst he
      have hnone : Keyed.get? key rest = none :=
        Keyed.get?_of_forall_ne fun e he => (hk e he).ne'
      rw [List.filter_cons_of_pos (by simp [hid]), hih, hnone, if_pos rfl]
      rfl
    · rw [List.filter_cons_of_neg (by simpa [← hid] using Ne.symm he), hih, if_neg he]

/-- The documents of all entities of a store mirror it. -/
theorem mirrors_of_encoded (hs : s.KeyedBy α) {m : MemoryStore α} (hm : m.Sound)
    {documents : List Document} (h : List.Forall₂ (Document.Of s) m.toList documents) :
    Mirrors s documents m.get? := by
  refine ⟨fun key => ?_, fun d hd => ?_⟩
  · rw [← hm.filter_toList]
    refine List.rel_filter (fun a d had => ?_) h
    simp only [decide_eq_true_eq]
    exact (had.hasKey hs key).symm
  · obtain ⟨a, -, ha⟩ := exists_of_mem_right h hd
    exact ⟨a, ha⟩

namespace Mirrors

variable {documents : List Document} {m : MemoryStore α}

theorem under_some {entity? : String → Option α} (h : Mirrors s documents entity?) {key : String}
    (ha : entity? key = some a) : ∃ d, docsUnder s key documents = [d] ∧ Document.Of s a d := by
  have hunder := h.under key
  rw [ha, Option.toList_some, List.forall₂_cons_left_iff] at hunder
  obtain ⟨d, rest, had, hrest, heq⟩ := hunder
  rw [List.forall₂_nil_left_iff] at hrest
  exact ⟨d, hrest ▸ heq, had⟩

theorem exists_encoded (h : Mirrors s documents m.get?) (hm : m.Sound) :
    ∃ ds, List.Forall₂ (Document.Of s) m.toList ds := by
  have hall : ∀ a ∈ m.toList, ∃ d, Document.Of s a d := by
    intro a ha
    obtain ⟨d, -, hd⟩ := h.under_some (hm.mem_toList.mp ha)
    exact ⟨d, hd⟩
  generalize m.toList = as at hall
  induction as with
  | nil => exact ⟨[], .nil⟩
  | cons a as ih =>
    obtain ⟨d, hd⟩ := hall a List.mem_cons_self
    obtain ⟨ds, hds⟩ := ih fun b hb => hall b (List.mem_cons_of_mem _ hb)
    exact ⟨d :: ds, .cons hd hds⟩

theorem nodup (hs : s.KeyedBy α) {entity? : String → Option α} (h : Mirrors s documents entity?) :
    documents.Nodup := by
  refine List.nodup_iff_sublist.mpr fun d hdd => ?_
  obtain ⟨a, ha⟩ := h.owned d (hdd.subset List.mem_cons_self)
  have hkey := (ha.hasKey hs _).mpr rfl
  -- two copies would both be found under the id
  have htwo : 2 ≤ (docsUnder s (Indexed.id a) documents).length := by
    have hsub := hdd.filter fun d => d.hasKey s (Indexed.id a)
    rw [List.filter_cons_of_pos hkey, List.filter_cons_of_pos hkey] at hsub
    exact hsub.length_le.trans' (by simp)
  have hone := (h.under (Indexed.id a)).length_eq
  have := Option.length_toList_le (o := entity? (Indexed.id a))
  omega

/-- Only one document is found under a key. -/
theorem unique {entity? : String → Option α} (h : Mirrors s documents entity?) {key : String}
    (hd : d ∈ documents) (he : e ∈ documents) (hdkey : d.hasKey s key = true)
    (hekey : e.hasKey s key = true) : d = e := by
  have hd' : d ∈ docsUnder s key documents := List.mem_filter.mpr ⟨hd, hdkey⟩
  have he' : e ∈ docsUnder s key documents := List.mem_filter.mpr ⟨he, hekey⟩
  cases hentity : entity? key with
  | none =>
    have hempty := h.under key
    rw [hentity, Option.toList_none, List.forall₂_nil_left_iff] at hempty
    simp [hempty] at hd'
  | some a =>
    obtain ⟨x, hx, -⟩ := h.under_some hentity
    rw [hx, List.mem_singleton] at hd' he'
    rw [hd', he']

/-- The documents that mirror a store are those of its entities. -/
theorem mem_iff (hs : s.KeyedBy α) (h : Mirrors s documents m.get?) (hm : m.Sound) :
    d ∈ documents ↔ ∃ a ∈ m.toList, Document.Of s a d := by
  constructor
  · intro hd
    obtain ⟨a, ha⟩ := h.owned d hd
    have hunder : d ∈ docsUnder s (Indexed.id a) documents :=
      List.mem_filter.mpr ⟨hd, (ha.hasKey hs _).mpr rfl⟩
    obtain ⟨b, hb, hbd⟩ := exists_of_mem_right (h.under (Indexed.id a)) hunder
    have hget : m.get? (Indexed.id a) = some b := by simpa using hb
    have hid := hm.id_of_get? hget
    exact ⟨b, hm.mem_toList.mpr (hid ▸ hget), hbd⟩
  · rintro ⟨a, ha, had⟩
    obtain ⟨e, he, hae⟩ := h.under_some (hm.mem_toList.mp ha)
    have hmem : e ∈ docsUnder s (Indexed.id a) documents := by simp [he]
    exact had.unique hae ▸ (List.mem_filter.mp hmem).1

/-- Two mirrors of a store hold the same documents. -/
theorem same (hs : s.KeyedBy α) (h : Mirrors s documents m.get?) {documents' : List Document}
    (h' : Mirrors s documents' m.get?) (hm : m.Sound) : documents.Perm documents' :=
  (List.perm_ext_iff_of_nodup (h.nodup hs) (h'.nodup hs)).mpr fun _ =>
    (h.mem_iff hs hm).trans (h'.mem_iff hs hm).symm

/-- An index that mirrors a store holds the documents of all its entities, each once. -/
theorem perm (hs : s.KeyedBy α) (h : Mirrors s documents m.get?) (hm : m.Sound) :
    ∃ ds, List.Forall₂ (Document.Of s) m.toList ds ∧ documents.Perm ds := by
  obtain ⟨ds, hds⟩ := h.exists_encoded hm
  exact ⟨ds, hds, h.same hs (mirrors_of_encoded hs hm hds) hm⟩

end Mirrors
end
end Codebook
