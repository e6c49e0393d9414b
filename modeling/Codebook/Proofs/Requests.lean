/-
# What is asked of an index

Requests are answered one after the other, also while a rebuild fills its generation. What is asked
of two indexes that are the same apart from what a rebuild makes different is answered by both in the
same way, and they stay the same. If no rebuild is under way any more, this holds of further rebuilds
as well.

Key definitions: `Request`, `Moment`, `Index.fill`, `Task`, `Task.answers`.
Key theorems: `Request.tandem`, `Index.tandem_rebuild`, `Task.answers_covered`.
-/
import Codebook.Proofs.Tandem

namespace Codebook

/-- What is asked of an index, but for rebuilds. -/
inductive Request where
  /-- A transaction is begun. -/
  | begin
  /-- Staged changes are committed. -/
  | commit (t : Transaction)
  /-- Staged changes are given up. -/
  | rollback
  /-- The last commit is to be seen. -/
  | refresh
  /-- The index is closed. -/
  | close
  /-- The index is opened. -/
  | open
  /-- Entities are looked for. -/
  | find (c : Criteria)

/-- What happens while a rebuild fills its generation. -/
inductive Moment (α : Type) where
  /-- The next page of the store comes, or fails to come. -/
  | page (page : Except StoreError (List α))
  /-- Something else is asked of the index. -/
  | request (r : Request)

/-- What is asked of an index. -/
inductive Task (α : Type) where
  /-- Anything but a rebuild. -/
  | request (r : Request)
  /-- A rebuild, with what happens meanwhile. -/
  | rebuild (moments : List (Moment α))

section

variable {α : Type} [Indexed α]

/-- The work that answers a request. Only a search has an answer beyond its success. -/
def Request.work (α : Type) [Indexed α] : Request → IndexM (Option (FilterResult α))
  | begin => do
    let _ ← Index.begin
    return none
  | commit t => do
    Index.commit t
    return none
  | rollback => do
    Index.rollback
    return none
  | refresh => do
    Index.refresh
    return none
  | close => do
    Index.close
    return none
  | «open» => do
    Index.open
    return none
  | find c => return some (← Index.lookup (Index.find α c))

/-- A request that fails is no concern of the rebuild. -/
def Request.attempt (α : Type) [Indexed α] (r : Request) : IndexM Unit :=
  tryCatch (do let _ ← r.work α) fun _ => pure ()

/-- Fills a new generation, page by page, while the index answers requests. -/
def Index.fill (b : Building) : List (Moment α) → IndexM Building
  | [] => pure b
  | .page page :: moments => do Index.fill (← addPages b [page]) moments
  | .request r :: moments => do
    r.attempt α
    Index.fill b moments

/-- The work that does what is asked. -/
def Task.work : Task α → IndexM (Option (FilterResult α) ⊕ Nat)
  | request r => return .inl (← r.work α)
  | rebuild moments => return .inr (← Index.rebuild fun b => Index.fill b moments)

/-- The answers to tasks, one after the other. -/
def Task.answers (s : Index × Disk) : List (Task α) →
    List (Except IndexError (Option (FilterResult α) ⊕ Nat))
  | [] => []
  | t :: ts => (effect t.work s).1 :: answers (effect t.work s).2 ts

/-- The state after tasks. -/
def Task.afterAll (s : Index × Disk) (ts : List (Task α)) : Index × Disk :=
  ts.foldl (fun s t => (effect t.work s).2) s

/-! ### Requests in tandem -/

/-- **Requests are answered alike**, whether a rebuild is under way or not. -/
theorem Request.tandem {m : Mask} (r : Request) :
    Tandem m.Covers (· = ·) (r.work α) (r.work α) := by
  have hnone : ∀ {β : Type} {x y : IndexM β}, Tandem m.Covers (· = ·) x y →
      Tandem m.Covers (· = ·) (do let _ ← x; return none : IndexM (Option (FilterResult α)))
        (do let _ ← y; return none) :=
    fun h => Leads.bind h fun _ _ _ => Leads.pure rfl
  cases r with
  | begin => exact hnone Index.tandem_begin
  | commit t => exact hnone (Index.tandem_commit t)
  | rollback => exact hnone Index.tandem_rollback
  | refresh => exact hnone Index.tandem_refresh
  | close => exact hnone Index.tandem_close
  | «open» => exact hnone Index.tandem_open
  | find c =>
    refine Leads.bind (Index.tandem_lookup (Index.tandem_find α c)) fun a b hab => ?_
    exact Leads.pure (congrArg some hab)

theorem Request.tandem_attempt {m : Mask} (r : Request) :
    Tandem m.Covers (· = ·) (r.attempt α) (r.attempt α) :=
  Leads.tryCatch (Leads.bind r.tandem fun _ _ _ => Leads.pure rfl) fun _ => Leads.pure rfl

end

/-! ### Rebuilds in tandem -/

/-- A generation that is being filled, with the number of its writer as a holder. -/
def Mask.building (m : Mask) (b : Building) : Building :=
  { b with writer := m.writer b.writer }

theorem Disk.Alike.generations {m : Mask} {d e : Disk} (h : Disk.Alike m d e) (hm : m.hidden = none)
    (dir : IndexDirectory) : dir.generations d = dir.generations e :=
  IndexDirectory.generations_congr h.sound h.sound' fun _ => h.node _ (Mask.not_hides_none hm _)

namespace Index

open IndexDirectory

variable {α β : Type} {m : Mask} {V : α → β → Prop}

theorem tandem_startJournal (hm : m.hidden = none) : Tandem m.Covers (· = ·) startJournal startJournal := by
  refine current_bind fun s t h => ?_
  rw [isRebuilding, isRebuilding, h.index.journal hm, h.index.name]
  split_ifs
  · exact Leads.throw_bind _ _ _
  · exact tandem_update fun _ _ hij => { hij with
      journal := fun _ => rfl
      idle := fun hidden => absurd hm hidden }

theorem tandem_dropJournal (e : IndexError) :
    Tandem m.Covers V (dropJournal e : IndexM α) (dropJournal e : IndexM β) :=
  Leads.bind (tandem_update fun _ _ h => { h with journal := fun _ => rfl, idle := fun _ => rfl })
    fun _ _ _ => tandem_failed e

theorem tandem_liveDirectory : Tandem m.Covers (· = ·) liveDirectory liveDirectory := by
  refine current_bind fun s t h => ?_
  rw [h.index.live]
  cases t.1.live with
  | none =>
    refine current_bind fun s t h => ?_
    rw [h.index.name]
    exact Leads.throw _
  | some l => exact Leads.pure rfl

theorem tandem_presentDisk (hm : m.hidden = none) {dir : IndexDirectory} :
    Tandem (Disk.Alike m) (Disk.Alike m) dir.presentDisk dir.presentDisk := by
  intro d e h
  unfold presentDisk
  rw [effect_bind_ok (effect_get d), effect_bind_ok (effect_get e),
    h.isDirectory (Mask.not_hides_none hm _)]
  split_ifs
  · exact .ok h h
  · exact .error h

theorem tandem_create (hm : m.hidden = none) (dir : IndexDirectory) :
    Tandem (Disk.Alike m) (· = ·) dir.create dir.create := by
  refine Leads.bind (tandem_presentDisk hm) fun d e h => ?_
  have hnumber : dir.nextNumber d = dir.nextNumber e := by
    rw [nextNumber, nextNumber, h.generations hm]
  have hsteps : dir.createSteps d = dir.createSteps e := by
    rw [createSteps, createSteps, hnumber, h.contains (Mask.not_hides_none hm _)]
  rw [hnumber, hsteps]
  refine Leads.bind (tandem_perform (fun s hs => ?_) ?_) fun _ _ _ => Leads.pure rfl
  · refine Mask.spares_of_none hm ?_
    rintro path n rfl
    unfold createSteps at hs
    simp only at hs
    split_ifs at hs <;> simp at hs
  · unfold createSteps
    simp only
    split_ifs <;> rfl

theorem tandem_discard (hm : m.hidden = none) (path : Path) :
    Tandem m.Covers (· = ·) (discard path) (discard path) := by
  have hspares : ∀ s ∈ [DiskStep.removeDirectory path], m.Spares s := fun s hs => by
    rw [List.mem_singleton.mp hs]
    exact Mask.spares_of_none hm (by simp)
  exact tandem_onDisk fun d e h => .ok rfl (h.runAll hspares).2

theorem tandem_startBuilding (hm : m.hidden = none) (number : Nat) (path : Path) :
    Tandem m.Covers (fun b b' => b = m.building b') (startBuilding number path)
      (startBuilding number path) := by
  refine current_bind fun s t h => ?_
  have hfree : ∀ q, path <+: q → ¬ m.Guards q := fun q _ => Mask.not_guards hm q
  refine Leads.bind (tandem_onDisk (tandem_createContent h.index.emptyContent hfree)) fun _ _ _ => ?_
  refine Leads.bind (tandem_onDisk (tandem_createWriter h.index.name h.index.config hfree [])) ?_
  rintro _ w ⟨rfl, -⟩
  exact Leads.pure rfl

theorem tandem_beginRebuild (hm : m.hidden = none) :
    Tandem m.Covers (fun b b' => b = m.building b') beginRebuild beginRebuild := by
  refine Leads.bind (tandem_startJournal hm) fun _ _ _ => Leads.tryCatch ?_ tandem_dropJournal
  refine Leads.bind tandem_liveDirectory fun dir dir' hdir => ?_
  subst hdir
  refine Leads.bind (tandem_onDisk (tandem_create hm dir)) fun n n' hn => ?_
  subst hn
  refine Leads.tryCatch (tandem_startBuilding hm n _) fun e => ?_
  exact Leads.bind (tandem_discard hm _) fun _ _ _ => Leads.throw e

theorem tandem_abandonRebuild (hm : m.hidden = none) (b : Building) (e : IndexError) :
    Tandem m.Covers V (abandonRebuild (m.building b) e : IndexM α) (abandonRebuild b e : IndexM β) := by
  refine Leads.bind (tandem_release (Mask.not_guards hm _)) fun _ _ _ => ?_
  exact Leads.bind (tandem_discard hm _) fun _ _ _ => tandem_dropJournal e

theorem tandem_commitBuilding (hm : m.hidden = none) (b : Building) :
    Tandem m.Covers (fun v v' => v = m.writer v') (commitBuilding (m.building b)) (commitBuilding b) :=
  (tandem_applyTo (w := { b.writer with documents := b.documents })
    (fun q _ => Mask.not_guards hm q) []).mono (fun _ _ => id) (fun _ _ h => h.1) (fun _ _ => id)
      fun _ _ => id

theorem tandem_takeJournal (hm : m.hidden = none) :
    Tandem m.Covers (· = ·) takeJournal takeJournal := by
  refine current_bind fun s t h => ?_
  rw [h.index.journal hm]
  exact Leads.bind (tandem_update fun _ _ hij => { hij with
    journal := fun _ => rfl
    idle := fun _ => rfl }) fun _ _ _ => Leads.pure rfl

theorem tandem_replay (hm : m.hidden = none) (v : Writer) (journal : List Change) :
    Tandem m.Covers (fun v v' => v = m.writer v') (replay (m.writer v) journal) (replay v journal) := by
  unfold replay
  split_ifs
  · exact Leads.pure rfl
  · exact (tandem_applyTo (fun q _ => Mask.not_guards hm q) journal).mono (fun _ _ => id)
      (fun _ _ h => h.1) (fun _ _ => id) fun _ _ => id

theorem tandem_swap (hm : m.hidden = none) (dir : IndexDirectory) (n : Nat) :
    Tandem (Disk.Alike m) (· = ·) (dir.swap n) (dir.swap n) := by
  refine Leads.get_bind fun d e h => ?_
  rw [h.isDirectory (Mask.not_hides_none hm _)]
  have hturn : Tandem (Disk.Alike m) (· = ·)
      (do perform IndexError.io (pointerSteps dir.path n); return { dir with current := n })
      (do perform IndexError.io (pointerSteps dir.path n); return { dir with current := n }) :=
    Leads.bind (tandem_perform (spares_pointerSteps hm) rfl) fun _ _ _ => Leads.pure rfl
  split_ifs
  · exact Leads.throw_bind _ _ _
  · exact hturn

theorem tandem_swapIn (hm : m.hidden = none) (n : Nat) (v : Writer) :
    Tandem m.Covers (· = ·) (swapIn n (m.writer v)) (swapIn n v) := by
  refine Leads.bind (tandem_takeJournal hm) fun journal journal' hj => ?_
  subst hj
  refine Leads.bind (tandem_replay hm v journal) fun _ v' hv => ?_
  subst hv
  refine Leads.bind (tandem_onDisk (tandem_readContent (Mask.not_guards hm _))) fun g g' hg => ?_
  subst hg
  refine Leads.bind tandem_liveDirectory fun old old' hold => ?_
  subst hold
  refine Leads.bind (tandem_onDisk (tandem_swap hm old n)) fun dir dir' hdir => ?_
  subst hdir
  refine current_bind fun s t h => ?_
  rw [h.index.writer]
  refine Leads.bind (tandem_update fun i j hij => { hij with
    writer := rfl
    live := rfl
    current := fun x hx => by simp [hm] at hx
    written := fun x hx => by simp [hm] at hx }) fun _ _ _ => ?_
  cases t.1.writer with
  | none => exact Leads.pure rfl
  | some w => exact Leads.bind (tandem_release (Mask.not_guards hm _)) fun _ _ _ => Leads.pure rfl

theorem tandem_remove (hm : m.hidden = none) (dir : IndexDirectory) (n : Nat) :
    Tandem (Disk.Alike m) (· = ·) (dir.remove n) (dir.remove n) := by
  have hremove : Tandem (Disk.Alike m) (· = ·)
      (do perform IndexError.io (dir.removeSteps n (← get)))
      (do perform IndexError.io (dir.removeSteps n (← get))) := by
    refine Leads.get_bind fun d e h => ?_
    have hsteps : dir.removeSteps n d = dir.removeSteps n e := by
      rw [removeSteps, removeSteps, h.contains (Mask.not_hides_none hm _)]
    rw [hsteps]
    refine tandem_perform (fun s hs => Mask.spares_of_none hm ?_) ?_
    · rintro path k rfl
      unfold removeSteps at hs
      simp only at hs
      split_ifs at hs <;> simp at hs
    · unfold removeSteps
      simp only
      split_ifs <;> rfl
  unfold remove
  split_ifs
  · exact Leads.throw_bind _ _ _
  · exact hremove

theorem tandem_removeRetired (hm : m.hidden = none) (n : Nat) :
    Tandem m.Covers (· = ·) (removeRetired n) (removeRetired n) := by
  refine Leads.tryCatch ?_ fun _ => Leads.pure rfl
  refine Leads.bind tandem_liveDirectory fun dir dir' hdir => ?_
  subst hdir
  exact tandem_onDisk (tandem_remove hm dir n)

theorem tandem_finishRebuild (hm : m.hidden = none) (b : Building) :
    Tandem m.Covers (· = ·) (finishRebuild (m.building b)) (finishRebuild b) := by
  have hswap : Tandem m.Covers (· = ·)
      (do swapIn (m.building b).number (← commitBuilding (m.building b)))
      (do swapIn b.number (← commitBuilding b)) := by
    refine Leads.bind (tandem_commitBuilding hm b) fun _ v hv => ?_
    subst hv
    exact tandem_swapIn hm b.number v
  refine Leads.bind (Leads.tryCatch hswap (tandem_abandonRebuild hm b)) ?_
  rintro ⟨old, documents⟩ _ rfl
  refine Leads.bind (tandem_removeRetired hm old) fun _ _ _ => ?_
  refine Leads.bind (tandem_update fun i j h => ?_) fun _ _ _ => Leads.pure rfl
  exact { h with statistics := congrArg (Statistics.recordRebuild · documents) h.statistics }

theorem tandem_addEntities [Indexed α] (b : Building) (as : List α) :
    Tandem m.Covers (fun b b' => b = m.building b') (addEntities (m.building b) as)
      (addEntities b as) := by
  refine current_bind fun s t h => ?_
  rw [h.index.schema]
  refine Leads.bind (Leads.lift _) ?_
  rintro ds _ ⟨rfl, -⟩
  exact Leads.pure rfl

theorem tandem_addPages [Indexed α] : ∀ (pages : List (Except StoreError (List α))) (b : Building),
    Tandem m.Covers (fun b b' => b = m.building b') (addPages (m.building b) pages) (addPages b pages)
  | [], _ => Leads.pure rfl
  | page :: pages, b => by
    refine Leads.bind (Leads.lift _) ?_
    rintro as _ ⟨rfl, -⟩
    refine Leads.bind (tandem_addEntities b as) fun _ b' hb => ?_
    subst hb
    exact tandem_addPages pages b'

theorem tandem_fill [Indexed α] : ∀ (moments : List (Moment α)) (b : Building),
    Tandem m.Covers (fun b b' => b = m.building b') (fill (m.building b) moments) (fill b moments)
  | [], _ => Leads.pure rfl
  | .page page :: moments, b => by
    refine Leads.bind (tandem_addPages [page] b) fun _ b' hb => ?_
    subst hb
    exact tandem_fill moments b'
  | .request r :: moments, b => Leads.bind r.tandem_attempt fun _ _ _ => tandem_fill moments b

/-- **A rebuild does the same in both indexes**, with all that happens meanwhile. -/
theorem tandem_rebuild [Indexed α] (hm : m.hidden = none) (moments : List (Moment α)) :
    Tandem m.Covers (· = ·) (rebuild fun b => fill b moments) (rebuild fun b => fill b moments) := by
  refine Leads.bind (tandem_beginRebuild hm) fun _ b hb => ?_
  subst hb
  refine Leads.bind (Leads.tryCatch (tandem_fill moments b) (tandem_abandonRebuild hm b))
    fun _ b' hb => ?_
  subst hb
  exact tandem_finishRebuild hm b'

end Index

section

variable {α : Type} [Indexed α] {m : Mask}

theorem Task.tandem (hm : m.hidden = none) (t : Task α) : Tandem m.Covers (· = ·) t.work t.work := by
  cases t with
  | request r => exact Leads.bind r.tandem fun _ _ h => Leads.pure (congrArg Sum.inl h)
  | rebuild moments =>
    exact Leads.bind (Index.tandem_rebuild hm moments) fun _ _ h => Leads.pure (congrArg Sum.inr h)

/-- **Nobody can tell the indexes apart** by what is asked of them, and they stay so. -/
theorem Task.answers_covered (hm : m.hidden = none) : ∀ (ts : List (Task α)) {s t : Index × Disk},
    m.Covers s t → Task.answers s ts = Task.answers t ts ∧
      m.Covers (Task.afterAll s ts) (Task.afterAll t ts)
  | [], _, _, h => ⟨rfl, h⟩
  | task :: ts, s, t, h => by
    have hends := task.tandem hm s t h
    rw [Task.answers, Task.answers, Task.afterAll, Task.afterAll, List.foldl_cons, List.foldl_cons]
    generalize effect task.work s = r at hends ⊢
    generalize effect task.work t = u at hends ⊢
    cases hends with
    | ok hv hq =>
      subst hv
      obtain ⟨hanswers, hafter⟩ := answers_covered hm ts hq
      exact ⟨congrArg _ hanswers, hafter⟩
    | error he =>
      obtain ⟨hanswers, hafter⟩ := answers_covered hm ts he
      exact ⟨congrArg _ hanswers, hafter⟩

end

end Codebook
