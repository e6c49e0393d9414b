/-
# What is in the document of an entity

The column of a name holds one value for each field of that name that has a value, in the order of
the fields, and a mark for each one that lacks a date. The tokens of the free text are those of the
searchable fields together.

Key definitions: `Schema.cellOf`, `Schema.cellsOf`.
Key theorems: `Document.cells_encode`, `Document.tokens_encode`.
-/
import Codebook.Document.Binder
import Codebook.Proofs.Schema
import Mathlib.Data.List.Forall2

namespace Codebook

/-- What succeeds for a whole list succeeds for its members one by one. -/
theorem forall₂_of_mapM {ε α β : Type} {f : α → Except ε β} :
    ∀ {xs : List α} {ys : List β}, xs.mapM f = .ok ys → List.Forall₂ (fun x y => f x = .ok y) xs ys
  | [], ys, h => by
    simp only [List.mapM_nil, pure, Except.pure, Except.ok.injEq] at h
    exact h ▸ .nil
  | x :: xs, ys, h => by
    rw [List.mapM_cons] at h
    obtain ⟨y, hx, hrest⟩ := bind_eq_ok.mp h
    obtain ⟨rest, hxs, hys⟩ := bind_eq_ok.mp hrest
    obtain rfl := Except.ok.inj hys
    exact .cons hx (forall₂_of_mapM hxs)

theorem mapM_of_forall₂ {ε α β : Type} {f : α → Except ε β} {xs : List α} {ys : List β}
    (h : List.Forall₂ (fun x y => f x = .ok y) xs ys) : xs.mapM f = .ok ys := by
  induction h with
  | nil => rfl
  | cons hx _ ih =>
    rw [List.mapM_cons, hx, ih]
    rfl

theorem mapM_congr {ε α β : Type} {f g : α → Except ε β} :
    ∀ {xs : List α}, (∀ x ∈ xs, f x = g x) → xs.mapM f = xs.mapM g
  | [], _ => rfl
  | x :: xs, h => by
    rw [List.mapM_cons, List.mapM_cons, h x List.mem_cons_self,
      mapM_congr fun y hy => h y (List.mem_cons_of_mem _ hy)]

/-- What can be done for each member of a list can be done for all of it. -/
theorem mapM_total {ε α β : Type} {f : α → Except ε β} {xs : List α}
    (h : ∀ x ∈ xs, ∃ y, f x = .ok y) : ∃ ys, xs.mapM f = .ok ys := by
  induction xs with
  | nil => exact ⟨[], rfl⟩
  | cons x xs ih =>
    obtain ⟨y, hy⟩ := h x List.mem_cons_self
    obtain ⟨ys, hys⟩ := ih fun x hx => h x (List.mem_cons_of_mem _ hx)
    refine ⟨y :: ys, ?_⟩
    rw [List.mapM_cons, hy, hys]
    rfl

namespace Schema

variable {α : Type} [Indexed α]

/-- The value under which an entity is indexed for a field. A missing date leaves its mark. -/
def cellOf (s : Schema) (a : α) (f : IndexedField) : Option Cell :=
  match encodeValue s.entityType f.name f.kind (f.read a) with
  | .ok (some cell) => some cell
  | .ok none => if f.kind = .date then some (.date nullDate) else none
  | .error _ => none

/-- All values of an entity under a name, one for each field of that name. -/
def cellsOf (s : Schema) (a : α) (name : String) : List Cell :=
  ((s.primaryKey :: s.fields).filter fun f => f.name = name).filterMap (s.cellOf a)

/-- The text of an entity in which free text looks for words. -/
def searchTextOf (s : Schema) (a : α) : String :=
  joinWords (s.searchable.filterMap fun f => searchText (f.read a))

end Schema

namespace Document

variable {α : Type} [Indexed α] {s : Schema} {a : α}

/-- A field with a column adds its value under its name, a field without one adds nothing. -/
theorem encodeField_ok (hs : s.Describes α) {f : IndexedField} (hf : f ∈ s.primaryKey :: s.fields)
    {values : List (String × Cell)} (h : encodeField s a f = .ok values) :
    values = if (s.column? f.name).isSome then (s.cellOf a f).toList.map (f.name, ·) else [] := by
  unfold encodeField at h
  cases hc : s.column? f.name with
  | none =>
    simp only [hc, Except.ok.injEq] at h
    simp [← h]
  | some c =>
    have hkind : c.kind = f.kind := (hs.column_kind hc).2 f hf rfl
    simp only [hc, hkind] at h
    obtain ⟨cell?, hencode, hvalues⟩ := bind_eq_ok.mp h
    unfold Schema.cellOf
    rw [hencode]
    cases cell? with
    | some cell =>
      obtain rfl := Except.ok.inj hvalues
      rfl
    | none =>
      by_cases hdate : f.kind = .date
      · simp only [hdate, if_true] at hvalues
        obtain rfl := Except.ok.inj hvalues
        simp [hdate]
      · simp only [hdate, if_false] at hvalues
        obtain rfl := Except.ok.inj hvalues
        simp [hdate]

/-- Of what fields add to a document, a column keeps what the fields of its name add. -/
theorem cells_flatten (hs : s.Describes α) {name : String} (hc : (s.column? name).isSome)
    {fields : List IndexedField} {values : List (List (String × Cell))}
    (h : List.Forall₂ (fun f v => encodeField s a f = .ok v) fields values)
    (hf : ∀ f ∈ fields, f ∈ s.primaryKey :: s.fields) :
    (values.flatten.filterMap fun (n, cell) => if n = name then some cell else none) =
      (fields.filter fun f => f.name = name).filterMap (s.cellOf a) := by
  induction h with
  | nil => rfl
  | @cons f v fs vs hfv _ ih =>
    have hrest := ih fun g hg => hf g (List.mem_cons_of_mem _ hg)
    rw [List.flatten_cons, List.filterMap_append, hrest, encodeField_ok hs (hf f List.mem_cons_self) hfv]
    by_cases hn : f.name = name
    · subst hn
      cases hcell : s.cellOf a f <;> simp [hc, hcell]
    · split_ifs <;> cases s.cellOf a f <;> simp [hn]

theorem encode_ok {d : Document} (h : encode s a = .ok d) :
    ∃ values, List.Forall₂ (fun f v => encodeField s a f = .ok v) (s.primaryKey :: s.fields) values ∧
      d = ⟨values.flatten, if (s.searchTextOf a).isEmpty then none else some (s.searchTextOf a),
        some (snapshot s a)⟩ := by
  unfold encode at h
  obtain ⟨values, hvalues, hd⟩ := bind_eq_ok.mp h
  exact ⟨values, forall₂_of_mapM hvalues, (Except.ok.inj hd).symm⟩

/-- The values of a column are those of all fields of its name. -/
theorem cells_encode (hs : s.Describes α) {d : Document} (h : encode s a = .ok d) {name : String}
    (hc : (s.column? name).isSome) : d.cells name = s.cellsOf a name := by
  obtain ⟨values, hall, rfl⟩ := encode_ok h
  exact cells_flatten hs hc hall fun _ hf => hf

/-- The tokens of the free text are those of the searchable fields together. -/
theorem tokens_encode {d : Document} (h : encode s a = .ok d) :
    d.tokens = indexedTokens (s.searchTextOf a) := by
  obtain ⟨values, -, rfl⟩ := encode_ok h
  by_cases he : (s.searchTextOf a).isEmpty
  · have : s.searchTextOf a = "" := by simpa using he
    simp only [tokens, this]
    rfl
  · simp [tokens, he]

end Document
end Codebook
