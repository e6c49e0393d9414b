/-
# The life of an index

An index is made, and from then on opened and closed, written by one transaction at a time, and
rebuilt. A rebuild reads its store for any length of time, in which everything else goes on; only its
end waits for the transaction that has the writer. Beside the index it is written down what was asked
of it: how many transactions began and how they ended, which rebuild is under way, and which documents
there have to be.

Whatever was asked before, the index agrees with what is written down. While a rebuild is under way it
differs from an index that is kept only in what the rebuild hides, so one lemma for each act is enough
(`Life.Under.after`).

Key definitions: `Life`, `Life.Act`, `Life.act`, `Life.play`, `Life.Under`, `Life.Steady`, `Life.Lawful`.
Key theorems: `Life.Under.after`, `Life.Steady.act`, `Life.Steady.play`, `Life.play_lawful`,
`Life.rebuild_of_closed`.
-/
import Codebook.Proofs.Calls

namespace Codebook

open IndexDirectory

/-! ### What is asked of an index -/

namespace Life

/-- What is asked of an index. -/
inductive Act where
  /-- The index is opened. -/
  | open
  /-- The index is closed. -/
  | close
  /-- A transaction begins. -/
  | begin
  /-- The transaction stages a change. -/
  | stage (c : Change)
  /-- The transaction is committed. -/
  | commit
  /-- The transaction is rolled back, or dropped. -/
  | rollback
  /-- A rebuild starts, or is refused. -/
  | start
  /-- The rebuild adds documents that it read. -/
  | add (documents : List Document)
  /-- The rebuild comes to its end, well or not. -/
  | finish
  /-- What fills the new generation fails. -/
  | fail (e : IndexError)

end Life

/-- An index, the disk, and what was asked of the index. -/
structure Life where
  /-- The index. -/
  index : Index
  /-- The disk. -/
  disk : Disk
  /-- The transaction that has the writer. -/
  transaction : Option Transaction := none
  /-- The generation that a rebuild fills. -/
  building : Option Building := none
  /-- How many transactions began. -/
  begun : Nat := 0
  /-- How many transactions ended with a commit. -/
  commits : Nat := 0
  /-- How many transactions ended without one. -/
  rollbacks : Nat := 0
  /-- The documents that there have to be, from the first opening on. -/
  committed : Option (List Document) := none
  /-- The changes that were committed since the rebuild started. -/
  noted : List Change := []

namespace Life

/-- What an act leaves, if it is possible: a transaction that has the writer keeps others from
beginning, and the index from being opened or closed and the rebuild from ending. The number of the
next generation can always be counted. -/
def act (r : Life) : Act → Option Life
  | .open =>
    if r.transaction.isSome then none
    else
      let s := (effect Index.open (r.index, r.disk)).2
      some { r with
        index := s.1
        disk := s.2
        committed := r.committed.or (s.1.live.map (·.content.documents)) }
  | .close =>
    if r.transaction.isSome then none
    else
      let s := (effect Index.close (r.index, r.disk)).2
      some { r with index := s.1, disk := s.2 }
  | .begin =>
    if r.transaction.isSome then none
    else
      let (answer, s) := effect Index.begin (r.index, r.disk)
      some { r with
        index := s.1
        disk := s.2
        transaction := answer.toOption
        begun := if answer.isOk then r.begun + 1 else r.begun }
  | .stage c => r.transaction.map fun t => { r with transaction := some (t.stage c) }
  | .commit => r.transaction.map fun t =>
    let (answer, s) := effect (Index.commit t) (r.index, r.disk)
    let changes := if answer.isOk then t.changes else []
    { r with
      index := s.1
      disk := s.2
      transaction := none
      commits := r.commits + 1
      committed := r.committed.map (applyChanges r.index.schema · changes)
      noted := r.noted ++ changes }
  | .rollback => r.transaction.map fun _ =>
    let s := (effect Index.rollback (r.index, r.disk)).2
    { r with index := s.1, disk := s.2, transaction := none, rollbacks := r.rollbacks + 1 }
  | .start =>
    if r.index.generation?.getD 0 < Number.maxNat64 then
      let (answer, s) := effect Index.beginRebuild (r.index, r.disk)
      some { r with
        index := s.1
        disk := s.2
        building := answer.toOption.or r.building
        noted := if answer.isOk then [] else r.noted }
    else none
  | .add documents => r.building.map fun b => { r with building := some (b.add documents) }
  | .finish =>
    if r.transaction.isSome then none
    else r.building.map fun b =>
      let (answer, s) := effect (Index.finishRebuild b) (r.index, r.disk)
      { r with
        index := s.1
        disk := s.2
        building := none
        committed := if answer.isOk then some (applyChanges r.index.schema b.documents r.noted)
          else r.committed }
  | .fail e => r.building.map fun b =>
    let s := (effect (Index.abandonRebuild b e : IndexM Unit) (r.index, r.disk)).2
    { r with index := s.1, disk := s.2, building := none }

/-- Acts one after the other, as far as all are possible. -/
def play (r : Life) (acts : List Act) : Option Life :=
  acts.foldlM act r

/-! ### The invariant -/

variable {r r' : Life} {made : Index} {m : Mask} {s t : Index × Disk} {l l' : Live}

/-- The index was never open. -/
structure Unopened (r : Life) : Prop where
  writer : r.index.writer = none
  live : r.index.live = none
  journal : r.index.journal = none
  tidy : r.disk.Tidy (r.index.config.root ++ [r.index.name])
  building : r.building = none
  committed : r.committed = none

/-- The index is the same as one that is kept, but for what the mask covers. What it hides is the
generation of the rebuild that is under way, and then the journal holds what was committed since. -/
structure Under (r : Life) (m : Mask) (t : Index × Disk) (l : Live) : Prop where
  covers : m.Covers (r.index, r.disk) t
  kept : t.1.Kept t.2 l
  committed : r.committed = some l.content.documents
  idle : m.hidden = none → r.building = none
  hidden : ∀ x ∈ m.hidden, l.directory.current < x.number ∧ r.index.journal = some r.noted ∧
    ∃ b, r.building = some b ∧ b.writer.path = x.root ∧ b.writer.holder = x.holder ∧
      b.number = x.number

/-- How the index is, whether it was open before or not. -/
def Phased (r : Life) : Prop :=
  r.Unopened ∨ ∃ m t l, r.Under m t l

/-- What holds at every moment of an index that was made like this. -/
structure Steady (made : Index) (r : Life) : Prop where
  sound : r.disk.Sound
  counted : r.disk.Counted
  tally : r.index.tally = (made.settings, r.commits, r.rollbacks)
  begun : r.commits + r.rollbacks + (if r.transaction.isSome then 1 else 0) = r.begun
  writes : r.transaction.isSome → r.index.isReady = true
  phased : r.Phased

theorem Under.congr (h : r.Under m t l) (hindex : r'.index = r.index) (hdisk : r'.disk = r.disk)
    (hbuilding : r'.building = r.building) (hcommitted : r'.committed = r.committed)
    (hnoted : r'.noted = r.noted) : r'.Under m t l where
  covers := hindex ▸ hdisk ▸ h.covers
  kept := h.kept
  committed := hcommitted ▸ h.committed
  idle := hbuilding ▸ h.idle
  hidden := by
    rw [hindex, hbuilding, hnoted]
    exact h.hidden

theorem Phased.congr (h : r.Phased) (hindex : r'.index = r.index) (hdisk : r'.disk = r.disk)
    (hbuilding : r'.building = r.building) (hcommitted : r'.committed = r.committed)
    (hnoted : r'.noted = r.noted) : r'.Phased := by
  rcases h with h | ⟨m, t, l, h⟩
  · exact .inl {
      writer := hindex ▸ h.writer
      live := hindex ▸ h.live
      journal := hindex ▸ h.journal
      tidy := hindex ▸ hdisk ▸ h.tidy
      building := hbuilding ▸ h.building
      committed := hcommitted ▸ h.committed }
  · exact .inr ⟨m, t, l, h.congr hindex hdisk hbuilding hcommitted hnoted⟩

namespace Under

theorem ready (h : r.Under m t l) : r.index.isReady = t.1.isReady :=
  Index.isReady_congr h.covers.index.live

theorem live (h : r.Under m t l) (hready : r.index.isReady = true) : r.index.live = some l :=
  h.covers.index.live.trans (h.kept.live (h.ready ▸ hready))

theorem serving (h : r.Under m t l) (hready : r.index.isReady = true) :
    ∃ w, r.index.Serving r.disk l w := by
  obtain ⟨w, hs⟩ := h.kept.serving (h.ready ▸ hready)
  exact ⟨m.writer w, h.covers.serving hs⟩

theorem closed (h : r.Under m t l) (hclosed : r.index.isReady = false) :
    r.index.writer = none ∧ r.index.live = none := by
  obtain ⟨hlive, hwriter, -⟩ := h.kept.closed (h.ready ▸ hclosed)
  exact ⟨by rw [h.covers.index.writer, hwriter, Option.map_none], h.covers.index.live.trans hlive⟩

theorem linked (h : r.Under m t l) : r.index.Linked := by
  cases hready : r.index.isReady with
  | true =>
    obtain ⟨w, hs⟩ := h.serving hready
    exact .inr ⟨l, w, hs.live, hs.writer, hs.path, hs.root⟩
  | false => exact .inl (h.closed hready)

/-- Between rebuilds the index itself is kept. -/
theorem kept_idle (h : r.Under m t l) (hm : m.hidden = none) : r.index.Kept r.disk l :=
  h.covers.kept hm h.kept

theorem rebuilding (h : r.Under m t l) : r.index.isRebuilding = r.building.isSome := by
  cases hm : m.hidden with
  | none => rw [Index.isRebuilding, (h.kept_idle hm).journal, h.idle hm]; rfl
  | some x =>
    obtain ⟨-, hjournal, b, hbuilding, -⟩ := h.hidden x hm
    rw [Index.isRebuilding, hjournal, hbuilding]
    rfl

/-- An index that is kept is under a mask that covers nothing. -/
theorem of_kept (h : r.index.Kept r.disk l) (hbuilding : r.building = none)
    (hcommitted : r.committed = some l.content.documents) :
    r.Under {} (r.index, r.disk) l where
  covers := Index.covers_self h.sound h.counted
  kept := h
  committed := hcommitted
  idle := fun _ => hbuilding
  hidden := by simp

/-- **What is asked of the index is also asked of the one that is kept.** -/
theorem after {β : Type} (h : r.Under m t l) {x : IndexM β} (hx : Tandem m.Covers (· = ·) x x)
    {changes : List Change} {ready : Bool}
    (ht : Index.Progress t.1 t.2 l changes ready (effect x t).2 l')
    (hstate : (r'.index, r'.disk) = (effect x (r.index, r.disk)).2)
    (hjournal : r'.index.journal = r.index.journal.map (· ++ changes))
    (hbuilding : r'.building = r.building)
    (hcommitted : r'.committed = r.committed.map (applyChanges r.index.schema · changes))
    (hnoted : r'.noted = r.noted ++ changes) : r'.Under m (effect x t).2 l' where
  covers := hstate ▸ (hx _ _ h.covers).same.2
  kept := ht.kept
  committed := by rw [hcommitted, h.committed, Option.map_some, ht.documents, h.covers.index.schema]
  idle := hbuilding ▸ h.idle
  hidden y hy := by
    obtain ⟨habove, hnote, hb⟩ := h.hidden y hy
    exact ⟨ht.directory ▸ habove, by rw [hjournal, hnote, hnoted, Option.map_some], hbuilding ▸ hb⟩

/-- Without changes the same documents have to be there. -/
theorem after_idle {β : Type} (h : r.Under m t l) {x : IndexM β} (hx : Tandem m.Covers (· = ·) x x)
    {ready : Bool} (ht : Index.Progress t.1 t.2 l [] ready (effect x t).2 l')
    (hstate : (r'.index, r'.disk) = (effect x (r.index, r.disk)).2)
    (hjournal : r'.index.journal = r.index.journal) (hbuilding : r'.building = r.building)
    (hcommitted : r'.committed = r.committed) (hnoted : r'.noted = r.noted) :
    r'.Under m (effect x t).2 l' := by
  refine h.after hx ht hstate ?_ hbuilding ?_ ?_
  · rw [hjournal]
    cases r.index.journal <;> simp
  · rw [hcommitted, h.committed]
    rfl
  · rw [hnoted, List.append_nil]

theorem opening (h : r.Under m t l) : ∃ t' l', t'.1.isReady = true ∧ Under { r with
    index := (effect Index.open (r.index, r.disk)).2.1
    disk := (effect Index.open (r.index, r.disk)).2.2 } m t' l' := by
  obtain ⟨l', hprogress⟩ := h.kept.progress_open
  exact ⟨_, l', hprogress.ready, h.after_idle Index.tandem_open hprogress rfl
    (Index.relinks_open h.linked r.disk).2.1 rfl rfl rfl⟩

theorem closing (h : r.Under m t l) : ∃ t' l', t'.1.isReady = false ∧ Under { r with
    index := (effect Index.close (r.index, r.disk)).2.1
    disk := (effect Index.close (r.index, r.disk)).2.2 } m t' l' := by
  obtain ⟨l', hprogress⟩ := h.kept.progress_close
  exact ⟨_, l', hprogress.ready, h.after_idle Index.tandem_close hprogress rfl
    (Index.relinks_close h.linked r.disk).2.1 rfl rfl rfl⟩

end Under

/-! ### One act -/

namespace Steady

variable {b : Building} {tx : Transaction}

theorem tallied (h : Steady made r) : r.index.settings = made.settings ∧
    r.index.statistics.commits = r.commits ∧ r.index.statistics.rollbacks = r.rollbacks := by
  simpa only [Index.tally, Prod.mk.injEq] using h.tally

theorem closed (h : Steady made r) (hclosed : r.index.isReady = false) :
    r.index.writer = none ∧ r.index.live = none := by
  rcases h.phased with hunopened | ⟨m, t, l, hu⟩
  · exact ⟨hunopened.writer, hunopened.live⟩
  · exact hu.closed hclosed

theorem under (h : Steady made r) (hready : r.index.isReady = true) : ∃ m t l, r.Under m t l := by
  refine h.phased.resolve_left fun hunopened => ?_
  simp [Index.isReady_of_none hunopened.live] at hready

/-- An index that was never open is not rebuilt either. -/
theorem under_building (h : Steady made r) (hb : r.building = some b) : ∃ m t l, ∃ x ∈ m.hidden,
    r.Under m t l ∧ l.directory.current < x.number ∧ r.index.journal = some r.noted ∧
      b.writer.path = x.root ∧ b.writer.holder = x.holder ∧ b.number = x.number := by
  rcases h.phased with hunopened | ⟨m, t, l, hu⟩
  · simp [hunopened.building] at hb
  · cases hm : m.hidden with
    | none => simp [hu.idle hm] at hb
    | some x =>
      obtain ⟨habove, hnote, b', hb', hparts⟩ := hu.hidden x hm
      obtain rfl : b = b' := Option.some.inj (hb.symm.trans hb')
      exact ⟨m, t, l, x, hm, hu, habove, hnote, hparts⟩

theorem building_uncovered (b : Building) : ({} : Mask).building b = b := by
  simp [Mask.building, Mask.writer, Mask.holder]

theorem tandem_finish (b : Building) :
    Tandem ({} : Mask).Covers (· = ·) (Index.finishRebuild b) (Index.finishRebuild b) := by
  have htandem := Index.tandem_finishRebuild (m := {}) rfl b
  rwa [building_uncovered] at htandem

theorem tandem_fail (b : Building) (e : IndexError) : Tandem ({} : Mask).Covers (· = ·)
    (Index.abandonRebuild b e : IndexM Unit) (Index.abandonRebuild b e) := by
  have htandem := Index.tandem_abandonRebuild (m := {}) (V := ((· = ·) : Unit → Unit → Prop)) rfl b e
  rwa [building_uncovered] at htandem

/-- Work in which no transaction ends keeps what is written down of them. -/
theorem work {β : Type} {V : β → β → Prop} (h : Steady made r) {x : IndexM β}
    (hx : Tandem ({} : Mask).Covers V x x) (hends : Index.EndsNone x)
    (hstate : (r'.index, r'.disk) = (effect x (r.index, r.disk)).2)
    (hcounts : (r'.transaction, r'.begun, r'.commits, r'.rollbacks) =
      (r.transaction, r.begun, r.commits, r.rollbacks))
    (hwrites : r.transaction.isSome → r'.index.isReady = true) (hphased : r'.Phased) : Steady made r' := by
  obtain ⟨hindex, hdisk⟩ := Prod.mk.inj hstate
  obtain ⟨htransaction, hbegun, hcommits, hrollbacks⟩ : r'.transaction = r.transaction ∧
      r'.begun = r.begun ∧ r'.commits = r.commits ∧ r'.rollbacks = r.rollbacks := by
    simpa only [Prod.mk.injEq] using hcounts
  obtain ⟨hsound, hcounted⟩ := Index.lawful_of_tandem (i := r.index) hx h.sound h.counted
  exact {
    sound := hdisk ▸ hsound
    counted := hdisk ▸ hcounted
    tally := by rw [hindex, hends.tally, h.tally, hcommits, hrollbacks]
    begun := by rw [hcommits, hrollbacks, htransaction, hbegun, h.begun]
    writes := htransaction ▸ hwrites
    phased := hphased }

theorem phased_open (h : Steady made r) : Phased { r with
    index := (effect Index.open (r.index, r.disk)).2.1
    disk := (effect Index.open (r.index, r.disk)).2.2
    committed := r.committed.or
      ((effect Index.open (r.index, r.disk)).2.1.live.map (·.content.documents)) } := by
  rcases h.phased with hunopened | ⟨m, t, l, hu⟩
  · have hclosed := Index.isReady_of_none hunopened.live
    have htidy := Index.tidy_open hclosed hunopened.tidy
    rcases hopen : effect Index.open (r.index, r.disk) with ⟨e | _, i', d'⟩
    · rw [hopen] at htidy
      obtain rfl := Index.open_failsQuietly hclosed hopen
      exact .inl { hunopened with
        tidy := htidy
        committed := by
          rw [hunopened.committed, hunopened.live]
          rfl }
    · obtain ⟨l, hkept⟩ := Index.kept_open h.sound h.counted hunopened.tidy hclosed hunopened.journal hopen
      obtain ⟨_, _, hserving, -⟩ := Index.serving_open h.sound hclosed hopen
      have hlive : i'.live = some l := hkept.live (Index.isReady_of_live hserving.live)
      refine .inr ⟨{}, _, l, .of_kept hkept hunopened.building ?_⟩
      rw [hunopened.committed, hlive]
      rfl
  · obtain ⟨t', l', -, hopened⟩ := hu.opening
    refine .inr ⟨m, t', l', hopened.congr rfl rfl rfl ?_ rfl⟩
    rw [hu.committed]
    rfl

theorem phased_close (h : Steady made r) : Phased { r with
    index := (effect Index.close (r.index, r.disk)).2.1
    disk := (effect Index.close (r.index, r.disk)).2.2 } := by
  rcases h.phased with hunopened | ⟨m, t, l, hu⟩
  · rw [Index.effect_close_closed hunopened.writer]
    exact .inl { hunopened with
      writer := rfl
      live := rfl }
  · obtain ⟨t', l', -, hclosed⟩ := hu.closing
    exact .inr ⟨m, t', l', hclosed⟩

/-- A commit succeeds, and shows its changes. -/
theorem phased_commit (h : Steady made r) (hready : r.index.isReady = true) (tx : Transaction) :
    ∃ s, effect (Index.commit tx) (r.index, r.disk) = (.ok (), s) ∧ Phased { r with
      index := s.1
      disk := s.2
      committed := r.committed.map (applyChanges r.index.schema · tx.changes)
      noted := r.noted ++ tx.changes } := by
  obtain ⟨m, t, l, hu⟩ := h.under hready
  obtain ⟨w, hs⟩ := hu.serving hready
  obtain ⟨i', d', g, hcommit, hcommitted⟩ := hs.commit tx
  obtain ⟨l', hprogress⟩ := hu.kept.commit (hu.ready ▸ hready) tx
  exact ⟨(i', d'), hcommit, .inr ⟨m, _, l', hu.after (Index.tandem_commit tx) hprogress
    (by rw [hcommit]) hcommitted.journal rfl rfl rfl⟩⟩

theorem phased_rollback (h : Steady made r) (hready : r.index.isReady = true) : Phased { r with
    index := { r.index with statistics := r.index.statistics.recordRollback } } := by
  obtain ⟨m, t, l, hu⟩ := h.under hready
  exact .inr ⟨m, _, l, hu.after_idle Index.tandem_rollback
    (Index.Progress.count hu.kept t.1.statistics.recordRollback) rfl rfl rfl rfl rfl⟩

/-- A rebuild of an open index starts unless one is under way. -/
theorem phased_start (h : Steady made r) (hmax : r.index.generation?.getD 0 < Number.maxNat64) :
    ∃ answer s, effect Index.beginRebuild (r.index, r.disk) = (answer, s) ∧
      s.1.live = r.index.live ∧ Phased { r with
        index := s.1
        disk := s.2
        building := answer.toOption.or r.building
        noted := if answer.isOk then [] else r.noted } := by
  rcases h.phased with hunopened | ⟨m, t, l, hu⟩
  · refine ⟨_, _, Index.effect_beginRebuild_closed hunopened.journal hunopened.live, rfl, .inl ?_⟩
    exact { hunopened with building := hunopened.building }
  cases hm : m.hidden with
  | some x =>
    have hagain : r.index.isRebuilding = true := by
      rw [Index.isRebuilding, (hu.hidden x hm).2.1]
      rfl
    exact ⟨_, _, Index.effect_beginRebuild_again hagain, rfl, .inr ⟨m, t, l, hu⟩⟩
  | none =>
    have hkept := hu.kept_idle hm
    cases hready : r.index.isReady with
    | false =>
      refine ⟨_, _, Index.effect_beginRebuild_closed hkept.journal (hu.closed hready).2, rfl, .inr ?_⟩
      exact ⟨{}, _, l, .of_kept (hkept.congr rfl rfl rfl rfl rfl) (hu.idle hm) hu.committed⟩
    | true =>
      have hnext : l.directory.current < Number.maxNat64 := by
        rwa [Index.generation?, hu.live hready] at hmax
      obtain ⟨d', hbegin, hsound, hholders, hlock, hother⟩ := hkept.effect_beginRebuild hready hnext
      refine ⟨_, _, hbegin, rfl, .inr ⟨Index.rebuildMask r.disk l hnext, (r.index, r.disk), l, ?_⟩⟩
      exact {
        covers := hkept.covers_begun hready hnext hsound hholders hlock hother
        kept := hkept
        committed := hu.committed
        idle := fun hm => by simp [Index.rebuildMask] at hm
        hidden := fun y hy => by
          rw [Index.mem_rebuildMask hy]
          exact ⟨Nat.lt_succ_self _, rfl, _, rfl, rfl, rfl, rfl⟩ }

theorem under_undone {m : Mask} (hcovers : m.undone.Covers (r'.index, r'.disk) t)
    (hkept : t.1.Kept t.2 l) (hbuilding : r'.building = none)
    (hcommitted : r'.committed = some l.content.documents) : r'.Under m.undone t l where
  covers := hcovers
  kept := hkept
  committed := hcommitted
  idle := fun _ => hbuilding
  hidden := by simp [Mask.undone]

/-- A rebuild that comes to its end well shows what it added, with the changes since. -/
theorem phased_finish (h : Steady made r) (hb : r.building = some b) :
    ∃ answer s, effect (Index.finishRebuild b) (r.index, r.disk) = (answer, s) ∧ Phased { r with
      index := s.1
      disk := s.2
      building := none
      committed := if answer.isOk then some (applyChanges r.index.schema b.documents r.noted)
        else r.committed } := by
  obtain ⟨m, t, l, x, hm, hu, habove, hnote, hpath, hholder, hnumber⟩ := h.under_building hb
  have hcounted := Index.counted_of_tandem (i := r.index) (tandem_finish b) h.sound h.counted
  rcases hend : effect (Index.finishRebuild b) (r.index, r.disk) with ⟨e | n, i', d'⟩
  · exact ⟨_, _, rfl, .inr ⟨m.undone, t, l,
      under_undone (hu.covers.finishRebuild hm hpath hend) hu.kept rfl hu.committed⟩⟩
  · rw [hend] at hcounted
    obtain ⟨l', hkept, -, hdocuments, -⟩ :=
      hu.covers.finished hm hu.kept habove hpath hholder hnumber hcounted hend
    rw [hnote, Option.getD_some] at hdocuments
    exact ⟨_, _, rfl, .inr ⟨{}, _, l', .of_kept hkept rfl (congrArg some hdocuments.symm)⟩⟩

/-- A rebuild that fails leaves the documents as they are. -/
theorem phased_fail (h : Steady made r) (hb : r.building = some b) (e : IndexError) :
    ∃ s, (effect (Index.abandonRebuild b e : IndexM Unit) (r.index, r.disk)).2 = s ∧
      s.1.live = r.index.live ∧ Phased { r with
        index := s.1
        disk := s.2
        building := none } := by
  obtain ⟨m, t, l, x, hm, hu, -, -, hpath, -⟩ := h.under_building hb
  obtain ⟨s, habandon, hcovers⟩ := hu.covers.abandonRebuild (α := Unit) hm hpath e
  refine ⟨s, by rw [habandon], hcovers.index.live.trans hu.covers.index.live.symm, .inr ?_⟩
  exact ⟨m.undone, t, l, under_undone hcovers hu.kept rfl hu.committed⟩

end Steady

/-! ### Runs -/

namespace Steady

/-- What is possible only while no transaction has the writer. -/
theorem free_of_act {x : Option Life} (h : (if r.transaction.isSome then none else x) = some r') :
    r.transaction = none ∧ x = some r' := by
  split_ifs at h with hbusy
  exact ⟨by simpa using hbusy, h⟩

theorem begin (h : Steady made r) (hact : r.act .begin = some r') : Steady made r' := by
  rw [Life.act] at hact
  obtain ⟨hfree, hnext⟩ := free_of_act hact
  have hbegun := h.begun
  rw [hfree] at hbegun
  cases hready : r.index.isReady with
  | false =>
    obtain ⟨hwriter, hlive⟩ := h.closed hready
    rw [(Index.shut_of_closed hwriter hlive r.disk).begin] at hnext
    cases hnext
    exact { h with
      begun := hbegun
      writes := fun hw => by simp [Except.toOption] at hw
      phased := h.phased.congr rfl rfl rfl rfl rfl }
  | true =>
    obtain ⟨m, t, l, hu⟩ := h.under hready
    obtain ⟨w, hs⟩ := hu.serving hready
    rw [Index.effect_begin _ _ hs.writer] at hnext
    cases hnext
    exact { h with
      begun := congrArg (· + 1) hbegun
      writes := fun _ => hready
      phased := h.phased.congr rfl rfl rfl rfl rfl }

theorem commit (h : Steady made r) (hact : r.act .commit = some r') : Steady made r' := by
  rw [Life.act] at hact
  obtain ⟨tx, htx, hnext⟩ := Option.map_eq_some_iff.mp hact
  obtain ⟨⟨i', d'⟩, hcommit, hphased⟩ := h.phased_commit (h.writes (by rw [htx]; rfl)) tx
  obtain ⟨hsound, hcounted⟩ :=
    Index.lawful_of_tandem (i := r.index) (Index.tandem_commit tx) h.sound h.counted
  rw [hcommit] at hsound hcounted hnext
  have htally := Index.commit_tally hcommit
  obtain ⟨hsettings, hcommits, hrollbacks⟩ := h.tallied
  have hbegun := h.begun
  rw [htx] at hbegun
  subst hnext
  exact {
    sound := hsound
    counted := hcounted
    tally := by rw [htally, hsettings, hcommits, hrollbacks]
    begun := (Nat.add_right_comm r.commits 1 r.rollbacks).trans hbegun
    writes := fun hw => by simp at hw
    phased := hphased.congr rfl rfl rfl rfl rfl }

theorem rollback (h : Steady made r) (hact : r.act .rollback = some r') : Steady made r' := by
  obtain ⟨tx, htx, rfl⟩ := Option.map_eq_some_iff.mp hact
  obtain ⟨hsettings, hcommits, hrollbacks⟩ := h.tallied
  have hbegun := h.begun
  rw [htx] at hbegun
  exact {
    sound := h.sound
    counted := h.counted
    tally := Prod.ext hsettings (Prod.ext hcommits (congrArg (· + 1) hrollbacks))
    begun := hbegun
    writes := fun hw => by simp at hw
    phased := (h.phased_rollback (h.writes (by rw [htx]; rfl))).congr rfl rfl rfl rfl rfl }

theorem start (h : Steady made r) (hact : r.act .start = some r') : Steady made r' := by
  rw [Life.act] at hact
  split at hact
  case isFalse => cases hact
  case isTrue hmax =>
    obtain ⟨answer, s, hbegin, hlive, hphased⟩ := h.phased_start hmax
    rw [hbegin] at hact
    cases hact
    exact h.work (Index.tandem_beginRebuild (m := {}) rfl) Index.endsNone_beginRebuild
      (by rw [hbegin]) rfl (fun hw => (Index.isReady_congr hlive).trans (h.writes hw)) hphased

theorem finish (h : Steady made r) (hact : r.act .finish = some r') : Steady made r' := by
  rw [Life.act] at hact
  obtain ⟨hfree, hnext⟩ := free_of_act hact
  obtain ⟨b, hb, hnext⟩ := Option.map_eq_some_iff.mp hnext
  obtain ⟨answer, s, hend, hphased⟩ := h.phased_finish hb
  rw [hend] at hnext
  subst hnext
  exact h.work (tandem_finish b) (Index.endsNone_finishRebuild b) (by rw [hend]) rfl
    (fun hw => by simp [hfree] at hw) hphased

theorem fail {e : IndexError} (h : Steady made r) (hact : r.act (.fail e) = some r') : Steady made r' := by
  rw [Life.act] at hact
  obtain ⟨b, hb, hnext⟩ := Option.map_eq_some_iff.mp hact
  obtain ⟨s, hend, hlive, hphased⟩ := h.phased_fail hb e
  rw [hend] at hnext
  subst hnext
  exact h.work (tandem_fail b e) (Index.endsNone_abandonRebuild b e) (by rw [hend]) rfl
    (fun hw => (Index.isReady_congr hlive).trans (h.writes hw)) hphased

/-- **Every act keeps the index in agreement with what is written down.** -/
theorem act {a : Act} (h : Steady made r) (hact : r.act a = some r') : Steady made r' := by
  cases a with
  | «open» =>
    obtain ⟨hfree, hnext⟩ := free_of_act hact
    cases hnext
    exact h.work Index.tandem_open Index.endsNone_open rfl rfl (fun hw => by simp [hfree] at hw)
      h.phased_open
  | close =>
    obtain ⟨hfree, hnext⟩ := free_of_act hact
    cases hnext
    exact h.work Index.tandem_close Index.endsNone_close rfl rfl (fun hw => by simp [hfree] at hw)
      h.phased_close
  | begin => exact h.begin hact
  | stage c =>
    obtain ⟨tx, htx, rfl⟩ := Option.map_eq_some_iff.mp hact
    have hbegun := h.begun
    rw [htx] at hbegun
    exact { h with
      begun := hbegun
      writes := fun _ => h.writes (by rw [htx]; rfl)
      phased := h.phased.congr rfl rfl rfl rfl rfl }
  | commit => exact h.commit hact
  | rollback => exact h.rollback hact
  | start => exact h.start hact
  | add documents =>
    obtain ⟨b, hb, rfl⟩ := Option.map_eq_some_iff.mp hact
    obtain ⟨m, t, l, x, hm, hu, habove, hnote, hparts⟩ := h.under_building hb
    exact { h with
      phased := .inr ⟨m, t, l, { hu with
        idle := fun hnone => by simp [hnone] at hm
        hidden := fun y hy => by
          obtain rfl : x = y := Option.some.inj (hm.symm.trans hy)
          exact ⟨habove, hnote, _, rfl, hparts⟩ }⟩ }
  | finish => exact h.finish hact
  | fail e => exact h.fail hact

/-- **So do acts one after the other.** -/
theorem play {acts : List Act} : ∀ {r : Life}, Steady made r → r.play acts = some r' → Steady made r' := by
  induction acts with
  | nil =>
    intro r h hplay
    cases hplay
    exact h
  | cons a acts ih =>
    intro r h hplay
    obtain ⟨r₁, hact, hrest⟩ := Option.bind_eq_some_iff.mp hplay
    exact ih (h.act hact) hrest

/-- An index that was made agrees, on whatever disk that is in order. -/
theorem new {α : Type} [Indexed α] {config : Config} {i : Index} {d : Disk}
    (hnew : Index.new α config = .ok i) (hsound : d.Sound) (hcounted : d.Counted)
    (htidy : d.Tidy (config.root ++ [i.name])) : Steady i { index := i, disk := d } := by
  obtain ⟨schema, -, hclosed⟩ := bind_eq_ok.mp hnew
  obtain rfl := Except.ok.inj hclosed
  exact {
    sound := hsound
    counted := hcounted
    tally := rfl
    begun := rfl
    writes := fun hw => by simp at hw
    phased := .inl {
      writer := rfl
      live := rfl
      journal := rfl
      tidy := htidy
      building := rfl
      committed := rfl } }

end Steady

/-! ### What always holds -/

/-- An index that is opened shows these documents. -/
def Shows (i : Index) (d : Disk) (ds : List Document) : Prop :=
  ∃ i' d' l, effect Index.open (i, d) = (.ok (), (i', d')) ∧ i'.live = some l ∧ l.content.documents = ds

/-- What can be said at every moment of an index that was made like this. -/
structure Lawful (made : Index) (r : Life) : Prop where
  /-- Its schema and its settings are those with which it was made. -/
  settings : r.index.settings = made.settings
  /-- It is open if it has a writer and something to show, and otherwise it has neither. -/
  ready : r.index.isReady = true ↔ r.index.writer.isSome = true ∧ r.index.live.isSome = true
  unready : r.index.isReady = false ↔ r.index.writer = none ∧ r.index.live = none
  /-- While it is open the pointer names its generation, which is there. -/
  generation : r.index.isReady = true → ∃ n, r.index.generation? = some n ∧
    readPointer (r.index.config.root ++ [r.index.name]) r.index.name r.disk = .ok (some n) ∧
    r.disk.isDirectory (r.index.pathOf n) = true
  /-- It is rebuilt from the start of a rebuild to its end or failure. -/
  rebuilding : r.index.isRebuilding = r.building.isSome
  /-- While it is closed it refuses what needs an open one. -/
  shut : r.index.isReady = false → r.index.Shut r.disk
  /-- While it is rebuilt, closed or not, it refuses another rebuild. -/
  again : r.index.isRebuilding = true → ∀ fill, effect (Index.rebuild fill) (r.index, r.disk) =
    (.error (.writeConflict r.index.name IndexError.rebuilding), (r.index, r.disk))
  /-- Every transaction that began has ended once, but for the one that has the writer. -/
  ended : r.index.statistics.commits = r.commits ∧ r.index.statistics.rollbacks = r.rollbacks ∧
    r.commits + r.rollbacks + (if r.transaction.isSome then 1 else 0) = r.begun
  /-- It shows the documents that there have to be. -/
  shown : ∀ l, r.index.live = some l → r.committed = some l.content.documents
  /-- Closed and opened again it shows them, too, and so does another index with its settings unless a
  rebuild is under way. -/
  reopened : ∀ ds, r.committed = some ds → r.transaction = none →
    ∃ i d, effect Index.close (r.index, r.disk) = (.ok (), (i, d)) ∧ i.isReady = false ∧ Shows i d ds ∧
      (r.building = none → ∀ j : Index, j.settings = made.settings → j.writer = none →
        j.live = none → j.journal = none → Shows j d ds)

theorem Under.shows (h : r.Under m t l) : Shows r.index r.disk l.content.documents := by
  obtain ⟨t', l', hready, hopened⟩ := h.opening
  have hanswer : (effect Index.open (r.index, r.disk)).1 = .ok () :=
    (Index.tandem_open _ _ h.covers).same.1.trans h.kept.open_ok
  refine ⟨_, _, l', Prod.ext hanswer rfl, hopened.live (hopened.ready.trans hready), ?_⟩
  exact Option.some.inj (hopened.committed.symm.trans h.committed)

theorem Under.reopened (h : r.Under m t l) :
    ∃ i d, effect Index.close (r.index, r.disk) = (.ok (), (i, d)) ∧ i.isReady = false ∧
      Shows i d l.content.documents ∧ (r.building = none → ∀ j : Index, j.settings = r.index.settings →
        j.writer = none → j.live = none → j.journal = none → Shows j d l.content.documents) := by
  obtain ⟨t', l', hready, hafter⟩ := h.closing
  have hanswer : (effect Index.close (r.index, r.disk)).1 = .ok () :=
    (Index.tandem_close _ _ h.covers).same.1.trans h.kept.close_ok
  have hsame : l'.content.documents = l.content.documents :=
    Option.some.inj (hafter.committed.symm.trans h.committed)
  have hclosed := hafter.ready.trans hready
  obtain ⟨hwriter, hlive⟩ := hafter.closed hclosed
  refine ⟨_, _, Prod.ext hanswer rfl, hclosed, hsame ▸ hafter.shows, fun hbuilding j hset hw hl hj => ?_⟩
  -- without a rebuild nothing is hidden, and then it does not matter which index is opened
  have hidle : m.hidden = none := by
    refine Option.eq_none_iff_forall_ne_some.mpr fun x hx => ?_
    obtain ⟨-, -, b, hb, -⟩ := h.hidden x hx
    simp [hbuilding] at hb
  have hkept := hafter.kept_idle hidle
  obtain ⟨hschema, hconfig⟩ :=
    Prod.mk.inj (hset.trans (Index.relinks_close h.linked r.disk).2.2.symm)
  have hother : j.Kept (effect Index.close (r.index, r.disk)).2.2 l' :=
    hkept.congr hschema hconfig (hj.trans hkept.journal.symm) (hw.trans hwriter.symm)
      (hl.trans hlive.symm)
  have hunder : Under ⟨j, (effect Index.close (r.index, r.disk)).2.2, none, none, 0, 0, 0,
      some l'.content.documents, []⟩ {} _ l' := .of_kept hother rfl rfl
  exact hsame ▸ hunder.shows

namespace Steady

theorem generation (h : Steady made r) (hready : r.index.isReady = true) :
    ∃ n, r.index.generation? = some n ∧
      readPointer (r.index.config.root ++ [r.index.name]) r.index.name r.disk = .ok (some n) ∧
      r.disk.isDirectory (r.index.pathOf n) = true := by
  obtain ⟨m, t, l, hu⟩ := h.under hready
  obtain ⟨w, hs⟩ := hu.serving hready
  obtain ⟨-, -, hread⟩ := hs.pointer
  refine ⟨l.directory.current, by rw [Index.generation?, hs.live]; rfl, ?_, ?_⟩
  · rw [← hs.root, ← hs.name]
    exact hread hu.kept.countable
  · rw [← hu.linked.pathOf hs.live]
    have hdirectory := hs.isDirectory
    rwa [hs.path] at hdirectory

theorem lawful (h : Steady made r) : Lawful made r where
  settings := h.tallied.1
  ready := by
    refine ⟨fun hready => ?_, fun hboth => hboth.2⟩
    obtain ⟨m, t, l, hu⟩ := h.under hready
    obtain ⟨w, hs⟩ := hu.serving hready
    exact ⟨by rw [hs.writer]; rfl, hready⟩
  unready := ⟨h.closed, fun hboth => Index.isReady_of_none hboth.2⟩
  generation := h.generation
  rebuilding := by
    rcases h.phased with hunopened | ⟨m, t, l, hu⟩
    · rw [Index.isRebuilding, hunopened.journal, hunopened.building]
      rfl
    · exact hu.rebuilding
  shut := fun hclosed => Index.shut_of_closed (h.closed hclosed).1 (h.closed hclosed).2 r.disk
  again := fun hrebuilding fill => Index.effect_rebuild_again fill hrebuilding
  ended := ⟨h.tallied.2.1, h.tallied.2.2, h.begun⟩
  shown := fun l hlive => by
    have hready := Index.isReady_of_live hlive
    obtain ⟨m, t, l', hu⟩ := h.under hready
    obtain rfl : l' = l := Option.some.inj ((hu.live hready).symm.trans hlive)
    exact hu.committed
  reopened := fun ds hds _ => by
    rcases h.phased with hunopened | ⟨m, t, l, hu⟩
    · simp [hunopened.committed] at hds
    · obtain rfl : l.content.documents = ds := Option.some.inj (hu.committed.symm.trans hds)
      exact h.tallied.1 ▸ hu.reopened

end Steady

/-- **The life of an index is lawful.** Whatever is asked of an index that was made, on a disk that is in
order, at every moment all of this holds. -/
theorem play_lawful {α : Type} [Indexed α] {config : Config} {i : Index} {d : Disk}
    (hnew : Index.new α config = .ok i) (hsound : d.Sound) (hcounted : d.Counted)
    (htidy : d.Tidy (config.root ++ [i.name])) {acts : List Act} {r : Life}
    (hplay : ({ index := i, disk := d } : Life).play acts = some r) : Lawful i r :=
  ((Steady.new hnew hsound hcounted htidy).play hplay).lawful

/-- The closed index of records on an empty disk. -/
def records : Life :=
  { index := { schema := Record.schema, priority := 60 }, disk := {} }

/-- A rebuild starts between transactions, the index is closed and opened meanwhile, and the rebuild
fails; another one comes to its end. -/
def mixedActs : List Act := [
  .begin, .open, .begin, .stage (.upsert "a" ⟨[], none, none⟩), .start, .commit, .start, .close,
  .open, .begin, .stage (.delete "a"), .rollback, .add [⟨[], none, none⟩], .finish, .start, .begin,
  .commit, .finish, .start, .begin, .fail .cancelled]

theorem play_lawful_of_records : ∃ r, records.play mixedActs = some r ∧ Lawful records.index r ∧
    r.begun = 4 ∧ r.commits = 2 ∧ r.rollbacks = 1 ∧ r.index.isReady = true := by
  have hrun : (records.play mixedActs).map (fun r => (r.begun, r.commits, r.rollbacks, r.index.isReady)) =
      some (4, 2, 1, true) := by with_unfolding_all rfl
  obtain ⟨r, hplay, hends⟩ := Option.map_eq_some_iff.mp hrun
  obtain ⟨hbegun, hends⟩ := Prod.mk.inj hends
  obtain ⟨hcommits, hends⟩ := Prod.mk.inj hends
  obtain ⟨hrollbacks, hready⟩ := Prod.mk.inj hends
  have hnew : Index.new Record {} = .ok records.index := rfl
  exact ⟨r, hplay, play_lawful hnew Disk.sound_empty Disk.counted_empty (Disk.tidy_empty _) hplay,
    hbegun, hcommits, hrollbacks, hready⟩

/-- **A closed index does not always answer that it is closed**: while a rebuild is under way that
started before, another one is refused because of that. -/
theorem rebuild_of_closed : ∃ r, records.play [.open, .start, .close] = some r ∧
    r.index.isReady = false ∧ ∀ fill, (effect (Index.rebuild fill) (r.index, r.disk)).1 =
      .error (.writeConflict r.index.name IndexError.rebuilding) := by
  have hrun : (records.play [.open, .start, .close]).map
      (fun r => (r.index.isReady, r.index.isRebuilding)) = some (false, true) := by with_unfolding_all rfl
  obtain ⟨r, hplay, hends⟩ := Option.map_eq_some_iff.mp hrun
  obtain ⟨hclosed, hrebuilding⟩ := Prod.mk.inj hends
  refine ⟨r, hplay, hclosed, fun fill => ?_⟩
  rw [Index.effect_rebuild_again fill hrebuilding]

end Life

end Codebook
