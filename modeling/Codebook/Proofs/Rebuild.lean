/-
# Rebuilds

A rebuild that nothing disturbs consists of the steps of a rebuild among transactions, one after the
other. So what is proved of these steps in any order holds of a rebuild from a store, too: it leaves
an index that mirrors the store.

Key theorems: `Race.run_rebuildFrom`, `Race.rebuildFrom_mirrors`,
`EntityKind.rebuild_among_transactions`.
-/
import Codebook.Proofs.Moves
import Codebook.Proofs.Opening

namespace Codebook

section

variable {ε σ α : Type}

/-- Where the handler always fails, work that ends with a value did not need it. -/
theorem tryCatch_ok {x : ExceptT ε (StateM σ) α} {handle : ε → ExceptT ε (StateM σ) α} {s t : σ}
    {a : α} (hfails : ∀ e u, ∃ e' u', effect (handle e) u = (.error e', u'))
    (h : effect (tryCatch x handle) s = (.ok a, t)) : effect x s = (.ok a, t) := by
  rw [effect_tryCatch] at h
  split at h
  · rename_i hx
    rw [hx, h]
  · rename_i e u hx
    obtain ⟨e', u', hfail⟩ := hfails e u
    rw [hfail] at h
    simp at h

end

namespace Index

variable {α : Type}

theorem dropJournal_fails (e : IndexError) (s : Index × Disk) :
    ∃ e' u, effect (dropJournal e : IndexM α) s = (.error e', u) := by
  obtain ⟨i, d⟩ := s
  unfold dropJournal
  rw [effect_bind_ok (effect_update _ i d), effect_failed]
  exact ⟨_, _, rfl⟩

theorem abandonRebuild_fails (b : Building) (e : IndexError) (s : Index × Disk) :
    ∃ e' u, effect (abandonRebuild b e : IndexM α) s = (.error e', u) := by
  unfold abandonRebuild
  rw [effect_bind]
  split
  · rw [effect_bind]
    split
    · exact dropJournal_fails e _
    · exact ⟨_, _, rfl⟩
  · exact ⟨_, _, rfl⟩

theorem discard_fails (path : Path) (e : IndexError) (s : Index × Disk) :
    ∃ e' u, effect (do discard path; throw e : IndexM α) s = (.error e', u) := by
  rw [effect_bind]
  split <;> exact ⟨_, _, rfl⟩

end Index

namespace Race

open Index

variable {α : Type} [Indexed α] {r : Race α}

theorem run_beginRebuild {b : Building} {s : Index × Disk} (hstage : r.stage = .waiting)
    (h : effect beginRebuild (r.index, r.disk) = (.ok b, s)) :
    Run r { r.after s with stage := .empty b } := by
  unfold beginRebuild at h
  obtain ⟨_, s₁, hstart, h₁⟩ := bind_ok h
  have h₂ := tryCatch_ok (fun e u => dropJournal_fails e u) h₁
  obtain ⟨dir, s₂, hdir, h₃⟩ := bind_ok h₂
  obtain ⟨n, s₃, hcreate, h₄⟩ := bind_ok h₃
  have hbuild := tryCatch_ok (fun e u => discard_fails _ e u) h₄
  have step₁ := Step.start r s₁ hstage hstart
  have step₂ := Step.create { r.after s₁ with stage := .started } dir n s₂ s₃ rfl hdir hcreate
  have step₃ := Step.build { r.after s₃ with stage := .created n (dir.generationPath n) } n _ b s rfl
    hbuild
  exact .tail (.tail (.tail .refl step₁) step₂) step₃

theorem run_addPages : ∀ {pages : List (Except StoreError (List α))} {r : Race α} {b b' : Building}
    {s : Index × Disk}, r.stage = .filling b pages →
    effect (addPages b pages) (r.index, r.disk) = (.ok b', s) →
    Run r { r.after s with stage := .filling b' [] }
  | [], r, b, b', s, hstage, h => by
    obtain ⟨rfl, rfl⟩ := pure_ok h
    have hsame : { r.after (r.index, r.disk) with stage := .filling b [] } = r := by
      rw [← hstage]
      rfl
    rw [hsame]
    exact .refl
  | page :: pages, r, b, b', s, hstage, h => by
    unfold addPages at h
    obtain ⟨as, s₀, hpage, h₀⟩ := bind_ok h
    obtain ⟨hread, rfl⟩ := lift_ok hpage
    obtain rfl := mapError_eq_ok.mp hread
    obtain ⟨b₁, s₁, hadd, hrest⟩ := bind_ok h₀
    have hrun := run_addPages (r := { r.after s₁ with stage := .filling b₁ pages }) rfl hrest
    exact .head (Step.add r b b₁ as pages s₁ hstage hadd) hrun

theorem run_finishRebuild {b : Building} {n : Nat} {s : Index × Disk} (hfree : r.holder = none)
    (hstage : r.stage = .filling b []) (h : effect (finishRebuild b) (r.index, r.disk) = (.ok n, s)) :
    Run r { r.after s with stage := .finished n } := by
  unfold finishRebuild at h
  obtain ⟨⟨old, documents⟩, s₁, htry, h₁⟩ := bind_ok h
  have hswapping := tryCatch_ok (fun e u => abandonRebuild_fails b e u) htry
  obtain ⟨w, s₂, hcommit, hswap⟩ := bind_ok hswapping
  obtain ⟨_, ⟨i₃, d₃⟩, hretire, h₂⟩ := bind_ok h₁
  rw [effect_bind_ok (effect_update _ i₃ d₃), effect_pure] at h₂
  simp only [Prod.mk.injEq, Except.ok.injEq] at h₂
  obtain ⟨rfl, rfl⟩ := h₂
  have step₁ := Step.complete r b w s₂ hstage hcommit
  have step₂ := Step.swap { r.after s₂ with stage := .filled b.number w } b.number old documents w s₁
    hfree rfl hswap
  have step₃ := Step.retire { r.after s₁ with stage := .swapped old documents } old documents
    (i₃, d₃) rfl hretire
  have step₄ := Step.finish { r.after (i₃, d₃) with stage := .removed documents } documents rfl
  exact .tail (.tail (.tail (.tail .refl step₁) step₂) step₃) step₄

/-- A rebuild from a store that nothing disturbs is a run, in which the store is read as it is. -/
theorem run_rebuildFrom {n : Nat} {s : Index × Disk} (hfree : r.holder = none)
    (hstage : r.stage = .waiting)
    (h : effect (rebuildFrom r.store.source) (r.index, r.disk) = (.ok n, s)) :
    Run r { r.after s with stage := .finished n } := by
  unfold rebuildFrom at h
  obtain ⟨_, s₀, hcount, h₀⟩ := bind_ok h
  obtain ⟨-, rfl⟩ := lift_ok hcount
  unfold rebuild at h₀
  obtain ⟨b, s₁, hbegin, h₁⟩ := bind_ok h₀
  obtain ⟨b', s₂, hfill, hfinish⟩ := bind_ok h₁
  have hpages := tryCatch_ok (fun e u => abandonRebuild_fails b e u) hfill
  rw [effect_bind_ok (effect_current s₁.1 s₁.2)] at hpages
  obtain ⟨pages, s₃, hcut, hadd⟩ := bind_ok hpages
  obtain ⟨hread, rfl⟩ := lift_ok hcut
  have hread' := mapError_eq_ok.mp hread
  have run₁ := run_beginRebuild hstage hbegin
  have step₂ := Step.snapshot { r.after s₁ with stage := .empty b } b pages rfl hread'
  have run₃ := run_addPages (r := { r.after s₁ with stage := .filling b pages }) rfl hadd
  have run₄ := run_finishRebuild (r := { r.after s₂ with stage := .filling b' [] }) hfree rfl hfinish
  exact ((run₁.tail step₂).trans run₃).trans run₄

/-- After a rebuild from a store the index mirrors it, and is open as before. -/
theorem rebuildFrom_mirrors (hα : Indexed.Consistent α) (hready : r.Ready) {n : Nat}
    {s : Index × Disk} (hfree : r.holder = none)
    (h : effect (rebuildFrom r.store.source) (r.index, r.disk) = (.ok n, s)) :
    ∃ l w, s.1.Serving s.2 l w ∧ Mirrors s.1.schema l.content.documents r.store.get? ∧
      s.1.settings = r.index.settings := by
  have hsound := hready.sound hα
  have hrun := run_rebuildFrom hfree hready.stage h
  obtain ⟨l, w, first?, journaled, hr⟩ := (hsound.run hrun).holds
  obtain ⟨l', hlive, hmirrors⟩ := (hsound.run hrun).mirrors rfl hready.written
  obtain rfl : l = l' := Option.some.inj (hr.serving.live.symm.trans hlive)
  exact ⟨l, w, hr.serving, hmirrors, hsound.settings_run hrun⟩

/-- An index that was just opened is ready for a rebuild among transactions, whatever it holds. -/
theorem ready_of_open {config : Config} {i : Index} {d : Disk} {m : MemoryStore α}
    (h : Opened α config i d) (hm : m.Sound)
    (hnamed : ∀ a ∈ m.toList, Text.isBlank (Indexed.id a) = false) :
    Ready { index := i, disk := d, store := m } := by
  obtain ⟨hdescribe, -, hjournal, hserving⟩ := h.serving
  exact {
    described := hdescribe
    store := hm
    named := hnamed
    serving := hserving
    journal := hjournal
    stage := rfl
    written := rfl }

end Race

/-- **A rebuild loses no update.** Whatever happens while an open index is rebuilt, once the rebuild
has answered and all that was written to the store is committed, the index holds the documents of
the entities of the store, each once and under its own id. The answer of the rebuild is the number
of documents right after the swap. -/
theorem EntityKind.rebuild_among_transactions {k : EntityKind} {r₀ r : Race k.Entity}
    (h₀ : r₀.Ready) (hrun : Race.Run r₀ r) {n : Nat} (hanswer : r.stage = .finished n)
    (hcommitted : r.written = []) :
    (∃ l ds, r.index.live = some l ∧
      r.store.toList.mapM (Document.encode r.index.schema) = .ok ds ∧
      l.content.documents.Perm ds ∧ Mirrors r.index.schema l.content.documents r.store.get?) ∧
    ∃ r₁ r₂ l, Race.Run r₀ r₁ ∧ Race.Step r₁ r₂ ∧ Race.Run r₂ r ∧ r₁.stage.count? = none ∧
      r₂.stage.count? = some n ∧ r₂.index.live = some l ∧ n = l.content.size := by
  have hsound₀ := h₀.sound k.consistent
  have hsound := hsound₀.run hrun
  have hcount : r.stage.count? = some n := by rw [hanswer]; rfl
  constructor
  · obtain ⟨l, hlive, hmirrors⟩ := hsound.mirrors hcount hcommitted
    obtain ⟨ds, hds, hperm⟩ := hmirrors.perm hsound.keyed hsound.store
    exact ⟨l, ds, hlive, mapM_of_forall₂ (hds.imp fun _ _ h => h.encoded), hperm, hmirrors⟩
  · exact hrun.counted hsound₀ (by rw [h₀.stage]; rfl) hcount

/-! ### A run -/

/-- The schema of records. -/
def Record.schema : Schema where
  entityType := "Record"
  primaryKey := ⟨"id", "id", .string, ⟨false, true, true⟩, []⟩
  fields := [⟨"dictionaryId", "dictionaryId", .string, ⟨false, true, true⟩, []⟩]
  collections := ["fields"]
  nameField := none
  columns := [⟨"id", .string, ⟨false, true, true⟩⟩, ⟨"dictionaryId", .string, ⟨false, true, true⟩⟩]

example : Schema.describe Record = .ok Record.schema := rfl

/-- A record of a dictionary. -/
def Record.of (id dictionaryId : String) : Record :=
  { id, dictionaryId, fields := [] }

/-- Records that are put and removed before, in and after a rebuild. -/
def Race.recordMoves : List (Race.Move Record) := [
  .write 1 (.put (.of "a" "x")), .begin 1, .proceed, .again, .commit 1,
  .write 4 (.put (.of "c" "x")), .begin 4, .proceed, .proceed, .commit 4,
  .write 2 (.remove "a"), .proceed, .write 3 (.put (.of "a" "y")), .proceed,
  .begin 2, .commit 2, .proceed, .proceed, .begin 3, .proceed, .commit 3, .proceed]

/-- The index of records with these settings on an empty disk, once it is open. -/
def Record.opened (config : Config) : Index × Disk :=
  (effect Index.open ({ schema := Record.schema, config, priority := 60 }, {})).2

/-- Records under the default settings, before anything happens. -/
def Race.records : Race Record :=
  { index := (Record.opened {}).1, disk := (Record.opened {}).2, store := {} }

theorem Race.ready_records : Race.Ready records :=
  ready_of_open ⟨{ schema := Record.schema, priority := 60 }, {}, rfl,
    Disk.sound_empty, rfl⟩ MemoryStore.sound_empty (by simp [MemoryStore.toList, Keyed.values])

theorem EntityKind.rebuild_among_transactions_of_records :
    ∃ r l ds, Race.Run Race.records r ∧ r.stage = .finished 1 ∧ r.written = [] ∧
      r.index.live = some l ∧ r.store.toList.mapM (Document.encode r.index.schema) = .ok ds ∧
      l.content.documents.Perm ds ∧ r.store.size = 2 := by
  obtain ⟨r, hplay, hstage, hwritten, hsize⟩ : ∃ r, Race.records.play Race.recordMoves = some r ∧
    r.stage = .finished 1 ∧ r.written = [] ∧ r.store.size = 2 := ⟨_, rfl, rfl, rfl, rfl⟩
  have hrun := Race.run_of_play hplay
  obtain ⟨⟨l, ds, hlive, hds, hperm, -⟩, -⟩ :=
    EntityKind.rebuild_among_transactions (k := .record) Race.ready_records hrun hstage hwritten
  exact ⟨r, l, ds, hrun, hstage, hwritten, hlive, hds, hperm, hsize⟩

end Codebook
