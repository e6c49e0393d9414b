/-
# Edits

A transaction puts entities and removes them, in the store and in the index. What an edit leaves
under its key does not depend on what was there before, and it leaves all other keys alone. So what
is under a key in the end was left there by the last edit of this key.

Key definitions: `Edit`, `Edit.mirror`, `Edit.stage`, `Edit.settled`, `Edit.Staged`.
Key theorems: `Edit.get?_mirror`, `Edit.settled_under`, `Edit.staged_of_stageAll`,
`Mirrors.applyChanges`.
-/
import Codebook.Proofs.Keys

namespace Codebook

/-- What a transaction does to one entity. -/
inductive Edit (α : Type) where
  /-- The entity is put, in place of the one with its key. -/
  | put (a : α)
  /-- The entity with a key is removed. -/
  | remove (id : String)

namespace Edit

variable {α : Type} [Indexed α]

/-- The key of the entity. -/
def key : Edit α → String
  | put a => Indexed.id a
  | remove id => id

/-- What an edit leaves under its key. -/
def left? : Edit α → Option α
  | put a => some a
  | remove _ => none

/-- The store after an edit. -/
def mirror (m : MemoryStore α) : Edit α → MemoryStore α
  | put a => m.put a
  | remove id => m.remove id

/-- Stages an edit in a transaction of the index. -/
def stage (s : Schema) (t : Transaction) : Edit α → Except IndexError Transaction
  | put a => t.upsert s a
  | remove id => .ok (t.remove id)

/-- Stages edits one after the other. -/
def stageAll (s : Schema) (t : Transaction) (edits : List (Edit α)) :
    Except IndexError Transaction :=
  edits.foldlM (stage s) t

/-- What is under a key after an edit. -/
def settle (key : String) (before : Option α) (e : Edit α) : Option α :=
  if key = e.key then e.left? else before

/-- What is under a key after edits. -/
def settled (key : String) (before : Option α) (edits : List (Edit α)) : Option α :=
  edits.foldl (settle key) before

/-- The edits of a key. -/
def under (key : String) (edits : List (Edit α)) : List (Edit α) :=
  edits.filter fun e => e.key = key

/-! ### In the store -/

theorem get?_mirror {m : MemoryStore α} (h : m.Sound) (e : Edit α) (key : String) :
    (e.mirror m).get? key = settle key (m.get? key) e := by
  cases e with
  | put a => exact m.get?_put a key
  | remove id => exact h.get?_remove id key

theorem sound_mirror {m : MemoryStore α} (h : m.Sound) (e : Edit α) : (e.mirror m).Sound := by
  cases e with
  | put a => exact h.put a
  | remove id => exact h.remove id

/-! ### Under one key -/

@[simp] theorem settled_nil (key : String) (before : Option α) : settled key before [] = before := rfl

theorem settled_append (key : String) (before : Option α) (edits more : List (Edit α)) :
    settled key before (edits ++ more) = settled key (settled key before edits) more :=
  List.foldl_append

@[simp] theorem under_append (key : String) (edits more : List (Edit α)) :
    under key (edits ++ more) = under key edits ++ under key more :=
  List.filter_append edits more

/-- Only the edits of the key count. -/
theorem settled_under (key : String) : ∀ (before : Option α) (edits : List (Edit α)),
    settled key before (under key edits) = settled key before edits
  | _, [] => rfl
  | before, e :: edits => by
    have ih := settled_under key (settle key before e) edits
    by_cases he : e.key = key
    · rw [under, List.filter_cons_of_pos (by simpa using he)]
      exact ih
    · have hsame : settle key before e = before := if_neg (Ne.symm he)
      rw [under, List.filter_cons_of_neg (by simpa using he)]
      rw [hsame] at ih
      exact ih.trans (by rw [settled, settled, List.foldl_cons, hsame])

theorem settled_congr {key : String} {edits more : List (Edit α)}
    (h : under key edits = under key more) (before : Option α) :
    settled key before edits = settled key before more := by
  rw [← settled_under key before edits, h, settled_under]

/-- Edits that are done a second time change nothing. -/
theorem settled_twice (key : String) (before : Option α) (edits : List (Edit α)) :
    settled key (settled key before edits) edits = settled key before edits := by
  -- from the end, since the last edit of the key decides
  induction edits using List.reverseRecOn with
  | nil => rfl
  | append_singleton edits e ih =>
    rw [settled_append, settled_append]
    by_cases he : key = e.key
    · simp [settled, settle, he]
    · have hsame : ∀ before, settled key before [e] = before := fun _ => if_neg he
      rw [hsame, hsame, ih]

/-! ### In the index -/

/-- A change of the index that an edit is staged as. -/
inductive Staged (s : Schema) : Edit α → Change → Prop where
  | put {a : α} {d : Document} (h : Document.Of s a d) :
    Staged s (put a) (.upsert (Indexed.id a) d)
  | remove (id : String) : Staged s (remove id) (.delete id)

/-- A change of the index that an edit is staged as, whether or not the key is blank. -/
inductive Encoded (s : Schema) : Edit α → Change → Prop where
  | put {a : α} {d : Document} (h : Document.encode s a = .ok d) :
    Encoded s (put a) (.upsert (Indexed.id a) d)
  | remove (id : String) : Encoded s (remove id) (.delete id)

theorem Encoded.staged {s : Schema} {e : Edit α} {c : Change} (h : Encoded s e c)
    (hkey : Text.isBlank e.key = false) : Staged s e c := by
  cases h with
  | put hd => exact .put ⟨hkey, hd⟩
  | remove id => exact .remove id

theorem encoded_of_stage {s : Schema} {e : Edit α} {t t' : Transaction} (h : e.stage s t = .ok t') :
    ∃ c, t'.changes = t.changes ++ [c] ∧ Encoded s e c := by
  cases e with
  | put a =>
    obtain ⟨d, hd, hstaged⟩ := bind_eq_ok.mp h
    obtain rfl := Except.ok.inj hstaged
    exact ⟨_, rfl, .put hd⟩
  | remove id =>
    obtain rfl := Except.ok.inj h
    exact ⟨_, rfl, .remove id⟩

/-- The edits are staged in their order. -/
theorem encoded_of_stageAll {s : Schema} : ∀ {edits : List (Edit α)} {t t' : Transaction},
    stageAll s t edits = .ok t' →
    ∃ changes, t'.changes = t.changes ++ changes ∧ List.Forall₂ (Encoded s) edits changes
  | [], t, t', h => by
    simp only [stageAll, List.foldlM_nil, pure, Except.pure, Except.ok.injEq] at h
    exact ⟨[], by simp [h], .nil⟩
  | e :: edits, t, t', h => by
    rw [stageAll, List.foldlM_cons] at h
    obtain ⟨t₁, hstage, hrest⟩ := bind_eq_ok.mp h
    obtain ⟨c, hc, hec⟩ := encoded_of_stage hstage
    obtain ⟨changes, hchanges, hall⟩ := encoded_of_stageAll hrest
    exact ⟨c :: changes, by simp [hchanges, hc], .cons hec hall⟩

theorem staged_of_stageAll {s : Schema} {edits : List (Edit α)} {t t' : Transaction}
    (hkeys : ∀ e ∈ edits, Text.isBlank e.key = false) (h : stageAll s t edits = .ok t') :
    ∃ changes, t'.changes = t.changes ++ changes ∧ List.Forall₂ (Staged s) edits changes := by
  obtain ⟨changes, hchanges, hall⟩ := encoded_of_stageAll h
  refine ⟨changes, hchanges, ((List.forall₂_and_left _ _).mpr ⟨hkeys, hall⟩).imp ?_⟩
  exact fun _ _ hec => hec.2.staged hec.1

end Edit

section

variable {α : Type} [Indexed α] {s : Schema} {documents : List Document}
  {entity? : String → Option α}

theorem Mirrors.apply (hs : s.KeyedBy α) (h : Mirrors s documents entity?) {e : Edit α} {c : Change}
    (hc : e.Staged s c) :
    Mirrors s (c.apply s documents) fun key => Edit.settle key (entity? key) e := by
  cases hc with
  | put ha => exact h.upsert hs ha
  | remove id => exact h.delete hs id

/-- Changes leave under every key what the edits leave there that they were staged for. -/
theorem Mirrors.applyChanges (hs : s.KeyedBy α) (h : Mirrors s documents entity?)
    {edits : List (Edit α)} {changes : List Change} (hc : List.Forall₂ (Edit.Staged s) edits changes) :
    Mirrors s (applyChanges s documents changes) fun key => Edit.settled key (entity? key) edits := by
  induction hc generalizing documents entity? with
  | nil => exact h
  | cons hec _ ih => exact ih (h.apply hs hec)

end
end Codebook
