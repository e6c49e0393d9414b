/-
# Upkeep or rebuild

An index is kept up with its store by transactions, each of which does to the index what is done to
the store if it is committed, and nothing if it is not. Another index is filled from the store by a
rebuild, whatever it held before. Both then mirror the store, so they give the same answers.

Key definitions: `Attempt`, `Attempt.work`, `Attempt.mirror`, `Upkept`.
Key theorems: `Attempt.work_ok`, `workAll_ok`, `EntityKind.upkeep_eq_rebuild`.
-/
import Codebook.Proofs.Answers
import Codebook.Proofs.Rebuild

namespace Codebook

/-- A transaction: what it stages, one edit after the other, and whether it is committed in the end.
It is not if it is rolled back or dropped. -/
structure Attempt (α : Type) where
  /-- What it stages. -/
  edits : List (Edit α)
  /-- Whether it is committed. -/
  commits : Bool

section

variable {α : Type} [Indexed α]

/-- The transaction in the index. -/
def Attempt.work (t : Attempt α) : IndexM Unit := do
  let tx ← Index.begin
  match Edit.stageAll (← Index.current).schema tx t.edits with
  | .ok tx => if t.commits then Index.commit tx else Index.rollback
  | .error e => do
    Index.rollback
    throw e

/-- The transaction in the store. -/
def Attempt.mirror (m : MemoryStore α) (t : Attempt α) : MemoryStore α :=
  if t.commits then t.edits.foldl Edit.mirror m else m

/-- Transactions one after the other. -/
def workAll (attempts : List (Attempt α)) : IndexM Unit :=
  forM attempts Attempt.work

/-- The store after transactions, from an empty one. -/
def mirrorAll (attempts : List (Attempt α)) : MemoryStore α :=
  attempts.foldl Attempt.mirror {}

/-! ### Edits of the store -/

theorem Edit.sound_mirrorAll {m : MemoryStore α} (h : m.Sound) (edits : List (Edit α)) :
    (edits.foldl Edit.mirror m).Sound := by
  induction edits generalizing m with
  | nil => exact h
  | cons e edits ih => exact ih (Edit.sound_mirror h e)

theorem Edit.get?_mirrorAll {m : MemoryStore α} (h : m.Sound) (edits : List (Edit α)) (key : String) :
    (edits.foldl Edit.mirror m).get? key = Edit.settled key (m.get? key) edits := by
  induction edits generalizing m with
  | nil => rfl
  | cons e edits ih =>
    rw [List.foldl_cons, ih (Edit.sound_mirror h e), Edit.get?_mirror h]
    rfl

theorem Attempt.sound_mirror {m : MemoryStore α} (h : m.Sound) (t : Attempt α) :
    (t.mirror m).Sound := by
  unfold Attempt.mirror
  split_ifs
  · exact Edit.sound_mirrorAll h t.edits
  · exact h

/-! ### Upkeep -/

theorem Edit.stageAll_total {s : Schema} (htotal : ∀ a : α, ∃ d, Document.encode s a = .ok d) :
    ∀ (edits : List (Edit α)) (t : Transaction), ∃ t', Edit.stageAll s t edits = .ok t'
  | [], t => ⟨t, rfl⟩
  | e :: edits, t => by
    obtain ⟨t₁, h₁⟩ : ∃ t₁, e.stage s t = .ok t₁ := by
      cases e with
      | put a =>
        obtain ⟨d, hd⟩ := htotal a
        exact ⟨_, by rw [Edit.stage, Transaction.upsert, hd]; rfl⟩
      | remove id => exact ⟨_, rfl⟩
    obtain ⟨t', h'⟩ := Edit.stageAll_total htotal edits t₁
    exact ⟨t', by rw [Edit.stageAll, List.foldlM_cons, h₁]; exact h'⟩

/-- The index is open, and mirrors the store. -/
structure Upkept (s : Schema) (i : Index) (d : Disk) (m : MemoryStore α) : Prop where
  schema : i.schema = s
  store : m.Sound
  serving : ∃ l w, i.Serving d l w ∧ Mirrors s l.content.documents m.get?

/-- A transaction whose edits can be staged never fails on an open index. If it is committed, the
changes that it staged are made. -/
theorem Attempt.work_serving {i : Index} {d : Disk} {l : Live} {w : Writer} (h : i.Serving d l w)
    (t : Attempt α) {tx : Transaction} (htx : Edit.stageAll i.schema {} t.edits = .ok tx) :
    ∃ i' d' l' w', effect t.work (i, d) = (.ok (), (i', d')) ∧ i'.config = i.config ∧
      i'.schema = i.schema ∧ i'.Serving d' l' w' ∧
      l'.content.documents = if t.commits then
        applyChanges i.schema l.content.documents tx.changes else l.content.documents := by
  unfold Attempt.work
  rw [effect_bind_ok (Index.effect_begin i d h.writer), effect_bind_ok (Index.effect_current i d), htx]
  simp only
  split_ifs
  · obtain ⟨i', d', g, heffect, hcommitted⟩ := h.commit tx
    obtain ⟨hschema, hconfig⟩ := Prod.mk.inj hcommitted.settings
    exact ⟨i', d', _, _, heffect, hconfig, hschema, hcommitted.serving, hcommitted.documents⟩
  · exact ⟨_, d, l, w, rfl, rfl, rfl, h.congr rfl rfl rfl rfl, rfl⟩

/-- A transaction over entities whose ids are not blank never fails. It leaves an index that mirrors
the store still. -/
theorem Attempt.work_ok {s : Schema} {i : Index} {d : Disk} {m : MemoryStore α} (hs : s.KeyedBy α)
    (htotal : ∀ a : α, ∃ d, Document.encode s a = .ok d) (h : Upkept s i d m) (t : Attempt α)
    (hkeys : ∀ e ∈ t.edits, Text.isBlank e.key = false) :
    ∃ i' d', effect t.work (i, d) = (.ok (), (i', d')) ∧ i'.config = i.config ∧
      Upkept s i' d' (t.mirror m) := by
  obtain ⟨rfl, hstore, l, w, hserving, hmirrors⟩ := h
  obtain ⟨tx, htx⟩ := Edit.stageAll_total htotal t.edits {}
  obtain ⟨i', d', l', w', heffect, hconfig, hschema, hserving', hdocuments⟩ :=
    t.work_serving hserving htx
  refine ⟨i', d', heffect, hconfig, hschema, t.sound_mirror hstore, l', w', hserving', ?_⟩
  rw [hdocuments, Attempt.mirror]
  split_ifs
  · obtain ⟨changes, hchanges, hall⟩ := Edit.staged_of_stageAll hkeys htx
    rw [List.nil_append] at hchanges
    have hmirrors' := hmirrors.applyChanges hs hall
    rw [hchanges]
    rwa [← funext (Edit.get?_mirrorAll hstore t.edits)] at hmirrors'
  · exact hmirrors

/-- Nor do transactions one after the other. -/
theorem workAll_ok {s : Schema} {i : Index} {d : Disk} {m : MemoryStore α} (hs : s.KeyedBy α)
    (htotal : ∀ a : α, ∃ d, Document.encode s a = .ok d) (h : Upkept s i d m) :
    ∀ attempts : List (Attempt α), (∀ t ∈ attempts, ∀ e ∈ t.edits, Text.isBlank e.key = false) →
      ∃ i' d', effect (workAll attempts) (i, d) = (.ok (), (i', d')) ∧ i'.config = i.config ∧
        Upkept s i' d' (attempts.foldl Attempt.mirror m) := by
  intro attempts hkeys
  induction attempts generalizing i d m with
  | nil => exact ⟨i, d, rfl, rfl, h⟩
  | cons t attempts ih =>
    obtain ⟨ht, hrest⟩ := List.forall_mem_cons.mp hkeys
    obtain ⟨i₁, d₁, heffect, hconfig, h₁⟩ := t.work_ok hs htotal h ht
    obtain ⟨i', d', heffect', hconfig', h'⟩ := ih h₁ hrest
    refine ⟨i', d', ?_, hconfig'.trans hconfig, h'⟩
    rw [workAll, List.forM_cons, effect_bind_ok heffect]
    exact heffect'

theorem Upkept.named {s : Schema} {i : Index} {d : Disk} {m : MemoryStore α} (h : Upkept s i d m) :
    ∀ a ∈ m.toList, Text.isBlank (Indexed.id a) = false := by
  intro a ha
  obtain ⟨l, w, -, hmirrors⟩ := h.serving
  obtain ⟨x, -, hx⟩ := hmirrors.under_some (h.store.mem_toList.mp ha)
  exact hx.key

end

/-- **Upkeep is as good as a rebuild.** Transactions over entities of the model whose ids are not
blank never fail on an open index. If it was empty at first, it gives the same answers afterwards as
another index that was filled from the store in which the committed transactions are mirrored,
whatever its pages and whatever it held before. -/
theorem EntityKind.upkeep_eq_rebuild {k : EntityKind} {config config' : Config} {i j j' : Index}
    {d e e' : Disk} {n : Nat} {attempts : List (Attempt k.Entity)}
    (hi : Index.Opened k.Entity config i d)
    (hempty : ∀ l, i.live = some l → l.content.documents = [])
    (hkeys : ∀ t ∈ attempts, ∀ e ∈ t.edits, Text.isBlank e.key = false)
    (hj : Index.Opened k.Entity config' j e) (hzone : config'.zone = config.zone)
    (hfill : effect (Index.rebuildFrom (mirrorAll attempts).source) (j, e) = (.ok n, (j', e'))) :
    ∃ i' d', effect (workAll attempts) (i, d) = (.ok (), (i', d')) ∧
      (∀ c : Criteria, (effect (Index.find k.Entity c) i').1 = (effect (Index.find k.Entity c) j').1) ∧
      (∀ c : Criteria, (effect (Index.count c) i').1 = (effect (Index.count c) j').1) ∧
      ∀ id, (effect (Index.findById k.Entity id) i').1 = (effect (Index.findById k.Entity id) j').1 := by
  obtain ⟨hdescribe, hconfig, -, l, w, hserving⟩ := hi.serving
  have hs := EntityKind.keyedBy hdescribe
  have hstart : Upkept i.schema i d ({} : MemoryStore k.Entity) :=
    ⟨rfl, MemoryStore.sound_empty, l, w, hserving, by
      rw [hempty l hserving.live]
      exact mirrors_nil i.schema⟩
  obtain ⟨i', d', hwork, hconfig', hupkept⟩ :=
    workAll_ok hs (EntityKind.encode_total hdescribe) hstart attempts hkeys
  obtain ⟨l₁, w₁, hserving₁, hmirrors₁⟩ := hupkept.serving
  obtain ⟨hdescribe', hconfig'', -, -⟩ := hj.serving
  obtain ⟨l₂, w₂, hserving₂, hmirrors₂, hset⟩ := Race.rebuildFrom_mirrors k.consistent
    (Race.ready_of_open hj hupkept.store hupkept.named) rfl hfill
  obtain ⟨hschema₂, hconfig₂⟩ := Prod.mk.inj hset
  have hsame : j'.schema = i.schema :=
    hschema₂.trans (Except.ok.inj (hdescribe'.symm.trans hdescribe))
  rw [hsame] at hmirrors₂
  have hagree : Index.Agree k.Entity i' j' l₁ l₂ := {
    live := hserving₁.live
    live' := hserving₂.live
    schema := hsame.trans hupkept.schema.symm
    zone := by rw [hconfig₂, hconfig'', hconfig', hconfig, hzone]
    layout := by rw [hserving₁.layout, hserving₂.layout, hsame, hupkept.schema]
    perm := hmirrors₁.same hs hmirrors₂ hupkept.store
    keyed := hupkept.schema ▸ hs
    mirrors := ⟨_, hupkept.schema ▸ hmirrors₁⟩ }
  exact ⟨i', d', hwork, hagree.find, hagree.count, hagree.findById⟩

/-- Records that are put and removed, one of them twice in one transaction. -/
def recordAttempts : List (Attempt Record) := [
  ⟨[.put (.of "b" "x"), .put (.of "a" "x"), .put (.of "a" "y")], true⟩,
  ⟨[.remove "a", .put (.of "d" "x")], false⟩,
  ⟨[.remove "b", .put (.of "c" "x")], true⟩]

theorem EntityKind.upkeep_eq_rebuild_of_records :
    ∃ i' d' j' e', effect (workAll recordAttempts) (Record.opened {}) = (.ok (), (i', d')) ∧
      effect (Index.rebuildFrom (mirrorAll recordAttempts).source)
        (Record.opened { rebuildPageSize := 1 }) = (.ok 2, (j', e')) ∧
      ∀ c : Criteria, (effect (Index.find Record c) i').1 = (effect (Index.find Record c) j').1 := by
  obtain ⟨j', e', hfill⟩ : ∃ j' e', effect (Index.rebuildFrom (mirrorAll recordAttempts).source)
    (Record.opened { rebuildPageSize := 1 }) = (.ok 2, (j', e')) := ⟨_, _, rfl⟩
  have hempty : ∀ l, (Record.opened {}).1.live = some l → l.content.documents = [] := by
    rintro l ⟨⟩
    rfl
  have hkeys : ∀ t ∈ recordAttempts, ∀ e ∈ t.edits, Text.isBlank e.key = false := by decide
  obtain ⟨i', d', hwork, hfind, -⟩ := EntityKind.upkeep_eq_rebuild (k := .record)
    ⟨{ schema := Record.schema, priority := 60 }, {}, rfl, Disk.sound_empty, rfl⟩
    hempty hkeys
    ⟨{ schema := Record.schema, config := { rebuildPageSize := 1 }, priority := 60 }, {}, rfl,
      Disk.sound_empty, rfl⟩ rfl hfill
  exact ⟨i', d', j', e', hwork, hfill, hfind⟩

end Codebook
