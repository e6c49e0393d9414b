/-
# Stores by their keys

A store in memory keeps its entities in the order of their keys, each under its own key. What is
found under a key is what was put there last, if it was not removed since.

Key definitions: `Keyed.Ordered`, `MemoryStore.Sound`.
Key theorems: `MemoryStore.get?_put`, `MemoryStore.Sound.get?_remove`, `MemoryStore.Sound.put`,
`MemoryStore.Sound.remove`, `MemoryStore.Sound.mem_toList`, `flatten_cut`.
-/
import Codebook.Store.Memory
import Mathlib.Data.String.Basic

namespace Codebook
namespace Keyed

variable {α : Type} {key k : String} {a : α}

/-- The keys increase. -/
def Ordered (entries : Keyed α) : Prop :=
  entries.Pairwise fun e f => e.1 < f.1

theorem ordered_cons {b : α} {rest : Keyed α} :
    Ordered ((k, b) :: rest) ↔ (∀ e ∈ rest, k < e.1) ∧ Ordered rest :=
  List.pairwise_cons

theorem mem_of_mem_insert {e : String × α} : ∀ {entries : Keyed α},
    e ∈ insert key a entries → e = (key, a) ∨ e ∈ entries
  | [], h => by simpa [insert] using h
  | (k, b) :: rest, h => by
    unfold insert at h
    split_ifs at h with he hl
    · rcases List.mem_cons.mp h with rfl | h
      · exact Or.inl rfl
      · exact Or.inr (List.mem_cons_of_mem _ h)
    · exact List.mem_cons.mp h
    · rcases List.mem_cons.mp h with rfl | h
      · exact Or.inr List.mem_cons_self
      · exact (mem_of_mem_insert h).imp id (List.mem_cons_of_mem _)

theorem mem_of_mem_erase {e : String × α} : ∀ {entries : Keyed α},
    e ∈ erase key entries → e ∈ entries
  | (k, b) :: rest, h => by
    unfold erase at h
    split_ifs at h with he
    · exact List.mem_cons_of_mem _ h
    · rcases List.mem_cons.mp h with rfl | h
      · exact List.mem_cons_self
      · exact List.mem_cons_of_mem _ (mem_of_mem_erase h)

theorem Ordered.insert : ∀ {entries : Keyed α}, Ordered entries → Ordered (insert key a entries)
  | [], _ => List.pairwise_singleton _ _
  | (k, b) :: rest, h => by
    obtain ⟨hk, hrest⟩ := ordered_cons.mp h
    unfold Keyed.insert
    split_ifs with he hl
    · exact ordered_cons.mpr ⟨by simpa [he] using hk, hrest⟩
    · refine ordered_cons.mpr ⟨fun e he => ?_, h⟩
      rcases List.mem_cons.mp he with rfl | he
      · exact hl
      · exact hl.trans (hk e he)
    · refine ordered_cons.mpr ⟨fun e hm => ?_, hrest.insert⟩
      rcases mem_of_mem_insert hm with rfl | hm
      · exact lt_of_le_of_ne (not_lt.mp hl) (Ne.symm he)
      · exact hk e hm

theorem Ordered.erase : ∀ {entries : Keyed α}, Ordered entries → Ordered (erase key entries)
  | [], h => h
  | (k, b) :: rest, h => by
    obtain ⟨hk, hrest⟩ := ordered_cons.mp h
    unfold Keyed.erase
    split_ifs with he
    · exact hrest
    · exact ordered_cons.mpr ⟨fun e hm => hk e (mem_of_mem_erase hm), hrest.erase⟩

theorem get?_insert (key : String) (a : α) (k : String) : ∀ entries : Keyed α,
    get? k (insert key a entries) = if k = key then some a else get? k entries
  | [] => by simp [insert, get?]
  | (j, b) :: rest => by
    have ih := get?_insert key a k rest
    unfold insert
    by_cases hj : key = j
    · by_cases hk : k = key <;> simp [get?, hj ▸ hk, hj]
    · by_cases hk : k = key
      · subst hk
        by_cases hl : k < j <;> simp [hj, hl, get?, ih]
      · by_cases hl : key < j <;> simp [hj, hl, hk, get?, ih]

theorem get?_of_forall_ne : ∀ {entries : Keyed α}, (∀ e ∈ entries, e.1 ≠ k) → get? k entries = none
  | [], _ => rfl
  | (j, b) :: rest, h => by
    have hj : k ≠ j := fun e => h _ List.mem_cons_self e.symm
    simp only [get?, if_neg hj]
    exact get?_of_forall_ne fun e he => h e (List.mem_cons_of_mem _ he)

theorem get?_erase (key k : String) : ∀ {entries : Keyed α}, Ordered entries →
    get? k (erase key entries) = if k = key then none else get? k entries
  | [], _ => by simp [erase, get?]
  | (j, b) :: rest, h => by
    obtain ⟨hj, hrest⟩ := ordered_cons.mp h
    have ih := get?_erase key k hrest
    unfold erase
    by_cases he : key = j
    · subst he
      rw [if_pos rfl]
      by_cases hk : k = key
      · rw [if_pos hk]
        exact get?_of_forall_ne fun e hm => hk ▸ (hj e hm).ne'
      · simp [get?, hk]
    · rw [if_neg he]
      by_cases hk : k = j
      · simp [get?, hk, Ne.symm he]
      · simp [get?, hk, ih]

/-- What is found under a key stands in the list under it. -/
theorem Ordered.mem_iff : ∀ {entries : Keyed α}, Ordered entries →
    ((k, a) ∈ entries ↔ get? k entries = some a)
  | [], _ => by simp [get?]
  | (j, b) :: rest, h => by
    obtain ⟨hj, hrest⟩ := ordered_cons.mp h
    rw [List.mem_cons, hrest.mem_iff, get?, Prod.mk.injEq]
    by_cases hk : k = j
    · subst hk
      have hnone : get? k rest = none := get?_of_forall_ne fun e hm => (hj e hm).ne'
      simp [hnone, eq_comm]
    · simp [hk]

end Keyed

namespace MemoryStore

variable {α : Type} [Indexed α] {m : MemoryStore α}

/-- The keys increase, and every entity stands under its own. -/
structure Sound (m : MemoryStore α) : Prop where
  ordered : Keyed.Ordered m.entities
  keyed : ∀ e ∈ m.entities, e.1 = Indexed.id e.2

theorem sound_empty : Sound ({} : MemoryStore α) := ⟨List.Pairwise.nil, by simp⟩

theorem Sound.put (h : m.Sound) (a : α) : (m.put a).Sound := by
  refine ⟨h.ordered.insert, fun e he => ?_⟩
  rcases Keyed.mem_of_mem_insert he with rfl | he
  · rfl
  · exact h.keyed e he

theorem Sound.remove (h : m.Sound) (id : String) : (m.remove id).Sound :=
  ⟨h.ordered.erase, fun e he => h.keyed e (Keyed.mem_of_mem_erase he)⟩

theorem get?_put (m : MemoryStore α) (a : α) (key : String) :
    (m.put a).get? key = if key = Indexed.id a then some a else m.get? key :=
  Keyed.get?_insert _ _ _ _

theorem Sound.get?_remove (h : m.Sound) (id key : String) :
    (m.remove id).get? key = if key = id then none else m.get? key :=
  Keyed.get?_erase _ _ h.ordered

theorem Sound.id_of_get? (h : m.Sound) {key : String} {a : α} (ha : m.get? key = some a) :
    Indexed.id a = key :=
  (h.keyed _ (h.ordered.mem_iff.mpr ha)).symm

/-- An entity is in a store just if it is found under its key. -/
theorem Sound.mem_toList (h : m.Sound) {a : α} :
    a ∈ m.toList ↔ m.get? (Indexed.id a) = some a := by
  constructor
  · intro ha
    obtain ⟨⟨key, b⟩, he, rfl⟩ := List.mem_map.mp ha
    have hkey : key = Indexed.id b := h.keyed _ he
    exact h.ordered.mem_iff.mp (hkey ▸ he)
  · intro ha
    exact List.mem_map.mpr ⟨_, h.ordered.mem_iff.mpr ha, rfl⟩

end MemoryStore

/-! ### Pages -/

theorem flatten_cutBehind {α : Type} (size : Nat) : ∀ page items : List α,
    (cutBehind size page items).flatten = page ++ items
  | page, [] => by
    rw [cutBehind]
    split_ifs with hempty
    · simp [List.isEmpty_iff.mp hempty]
    · simp
  | page, a :: items => by
    rw [cutBehind]
    split_ifs
    · rw [flatten_cutBehind size, List.append_assoc, List.singleton_append]
    · rw [List.flatten_cons, flatten_cutBehind size, List.singleton_append]

/-- Pages together hold all items in order. -/
theorem flatten_cut {α : Type} (size : Nat) (items : List α) : (cut size items).flatten = items :=
  flatten_cutBehind size [] items

theorem pages_ofList {α : Type} {size : Nat} {items : List α}
    {pages : List (Except StoreError (List α))} (h : (Source.ofList items).pages size = .ok pages) :
    ∃ unread : List (List α), unread.flatten = items ∧ pages = unread.map .ok := by
  simp only [Source.ofList, pagesOf] at h
  split_ifs at h with hsize
  · simp [Except.map] at h
  · simp only [Except.map, Except.ok.injEq] at h
    exact ⟨_, flatten_cut size items, h.symm⟩

end Codebook
