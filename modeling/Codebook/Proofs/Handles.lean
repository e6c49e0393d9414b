/-
# The handles of an index

Most of what is done with an index changes only the disk. What else is done to it sets or drops its
handles, the writer and what is live, and the journal. Here nothing is asked of the disk: a directory
may be gone, or hold what others left there. While an index has handles they belong together, since
the writer sits in the directory of the live generation; so a commit that was written is also shown.

Key definitions: `Index.Quiet`, `Index.Linked`, `Index.pathOf`, `Index.Relinks`, `Index.enter`,
`Index.bringIn`.
Key theorems: `Index.relinks_open`, `Index.relinks_close`, `Index.commit_cases`,
`Index.swapIn_handles`, `Index.swapIn_replays`.
-/
import Codebook.Proofs.Contention
import Codebook.Proofs.Kept

namespace Codebook.Index

open IndexDirectory

variable {i i' : Index} {d d' : Disk} {α β : Type}

/-! ### Work that leaves the index alone -/

/-- Work that changes nothing but the disk. -/
def Quiet (work : IndexM α) : Prop :=
  ∀ i d, (effect work (i, d)).2.1 = i

theorem Quiet.keeps {work : IndexM α} (h : Quiet work) {answer : Except IndexError α}
    (he : effect work (i, d) = (answer, (i', d'))) : i' = i := by
  have hquiet := h i d
  rwa [he] at hquiet

theorem quiet_pure (a : α) : Quiet (pure a : IndexM α) := fun _ _ => rfl

theorem quiet_throw (e : IndexError) : Quiet (throw e : IndexM α) := fun _ _ => rfl

theorem quiet_lift (r : Except IndexError α) : Quiet (liftM r : IndexM α) := by
  intro i d
  rw [effect_lift]

theorem quiet_onDisk (work : DiskM IndexError α) : Quiet (onDisk work) := by
  intro i d
  rw [effect_onDisk]

theorem Quiet.bind {work : IndexM α} {next : α → IndexM β} (h : Quiet work)
    (hnext : ∀ a, Quiet (next a)) : Quiet (work >>= next) := by
  intro i d
  rw [effect_bind]
  have hquiet := h i d
  rcases hwork : effect work (i, d) with ⟨_ | a, i₁, d₁⟩
  · rwa [hwork] at hquiet
  · rw [hwork] at hquiet
    obtain rfl : i₁ = i := hquiet
    exact hnext a i₁ d₁

theorem quiet_current {next : Index → IndexM β} (hnext : ∀ i, Quiet (next i)) :
    Quiet (current >>= next) := by
  intro i d
  rw [effect_bind_ok (effect_current i d)]
  exact hnext i i d

theorem quiet_liveDirectory : Quiet liveDirectory := by
  refine quiet_current fun i => ?_
  cases i.live with
  | none => exact quiet_current fun i => quiet_throw (.closed i.name)
  | some l => exact quiet_pure _

theorem quiet_applyTo (w : Writer) (changes : List Change) : Quiet (applyTo w changes) :=
  quiet_current fun _ => (quiet_onDisk _).bind fun _ => quiet_pure _

theorem quiet_replay (w : Writer) (journal : List Change) : Quiet (replay w journal) := by
  unfold replay
  split_ifs
  · exact quiet_pure w
  · exact quiet_applyTo w journal

theorem quiet_startBuilding (number : Nat) (path : Path) : Quiet (startBuilding number path) :=
  quiet_current fun _ => (quiet_onDisk _).bind fun _ => (quiet_onDisk _).bind fun _ => quiet_pure _

theorem quiet_removeRetired (number : Nat) : Quiet (removeRetired number) := by
  intro i d
  unfold removeRetired
  rw [effect_tryCatch]
  have hquiet : Quiet (do onDisk ((← liveDirectory).remove number)) :=
    quiet_liveDirectory.bind fun _ => quiet_onDisk _
  split
  · rename_i hwork
    rw [← hquiet i d, hwork]
  · rename_i hwork
    rw [← hquiet i d, hwork]
    rfl

/-! ### Handles -/

/-- Where a generation of the index belongs. -/
def pathOf (i : Index) (n : Nat) : Path :=
  i.config.root ++ [i.name, generationName n]

/-- The index has no handles, or a writer in the directory of what is live. -/
def Linked (i : Index) : Prop :=
  i.writer = none ∧ i.live = none ∨ ∃ l w, i.live = some l ∧ i.writer = some w ∧
    w.path = l.directory.currentPath ∧ l.directory.path = i.config.root ++ [i.name]

theorem pathOf_congr (hs : i'.settings = i.settings) (n : Nat) :
    i'.pathOf n = i.pathOf n := by
  obtain ⟨hschema, hconfig⟩ := Prod.mk.inj hs
  rw [pathOf, pathOf, hconfig, Index.name, Index.name, hschema]

theorem Linked.congr (h : i.Linked) (hw : i'.writer = i.writer) (hl : i'.live = i.live)
    (hs : i'.settings = i.settings) : i'.Linked := by
  obtain ⟨hschema, hconfig⟩ := Prod.mk.inj hs
  rw [Linked, hw, hl, hconfig, Index.name, hschema]
  exact h

theorem Linked.root (h : i.Linked) {l : Live} (hl : i.live = some l) :
    l.directory.path = i.config.root ++ [i.name] := by
  rcases h with ⟨-, hnone⟩ | ⟨l', w, hl', -, -, hroot⟩
  · simp [hl] at hnone
  · obtain rfl : l = l' := Option.some.inj (hl.symm.trans hl')
    exact hroot

theorem Linked.pathOf (h : i.Linked) {l : Live} (hl : i.live = some l) (n : Nat) :
    l.directory.generationPath n = i.pathOf n := by
  simp [IndexDirectory.generationPath, Index.pathOf, h.root hl]

/-- Work after which the index has handles that belong together, and is the same otherwise. -/
def Relinks (i : Index) (work : IndexM α) : Prop :=
  ∀ d, let i' := (effect work (i, d)).2.1
    i'.Linked ∧ i'.journal = i.journal ∧ i'.settings = i.settings

theorem Quiet.relinks {work : IndexM α} (hquiet : Quiet work) (h : i.Linked) : Relinks i work := by
  intro d
  rw [hquiet i d]
  exact ⟨h, rfl, rfl⟩

theorem Quiet.relinks_bind {work : IndexM α} {next : α → IndexM β} (hquiet : Quiet work)
    (h : i.Linked) (hnext : ∀ a d d', effect work (i, d) = (.ok a, (i, d')) → Relinks i (next a)) :
    Relinks i (work >>= next) := by
  intro d
  rw [effect_bind]
  have hsame := hquiet i d
  rcases hwork : effect work (i, d) with ⟨_ | a, i₁, d₁⟩
  · rw [hwork] at hsame
    obtain rfl : i₁ = i := hsame
    exact ⟨h, rfl, rfl⟩
  · rw [hwork] at hsame
    obtain rfl : i₁ = i := hsame
    exact hnext a d d₁ hwork d₁

theorem relinks_takeOver (h : i.Linked) {dir : IndexDirectory}
    (hdir : dir.path = i.config.root ++ [i.name]) : Relinks i (takeOver i dir) := by
  refine (quiet_onDisk _).relinks_bind h fun content _ _ _ => ?_
  refine (quiet_onDisk _).relinks_bind h fun w d₁ d₂ hwriter d => ?_
  rw [effect_update]
  exact ⟨.inr ⟨_, w, rfl, rfl, (createWriter_ok (onDisk_run hwriter).2).1, hdir⟩, rfl, rfl⟩

theorem relinks_claim (h : i.Linked) {dir : IndexDirectory}
    (hdir : dir.path = i.config.root ++ [i.name]) : Relinks i (claim i dir) := by
  unfold claim
  split_ifs
  · exact (quiet_onDisk _).relinks_bind h fun _ _ _ _ => relinks_takeOver h hdir
  · exact relinks_takeOver h hdir

/-- The directory that is opened lies where it was asked for, on whatever disk. -/
theorem path_of_open {root : Path} {name : String} {dir : IndexDirectory}
    (h : effect (IndexDirectory.open root name) d = (.ok dir, d')) : dir.path = root ++ [name] := by
  obtain ⟨_, _, -, hfind⟩ := bind_ok h
  obtain ⟨_, _, -, hmake⟩ := bind_ok hfind
  obtain ⟨_, _, -, hpure⟩ := bind_ok hmake
  rw [← (pure_ok hpure).1]

/-- How an index that is closed is opened. -/
def enter (i : Index) : IndexM Unit := do
  i.config.validate
  let directory ← onDisk (IndexDirectory.open i.config.root i.name)
  let _ ← onDisk directory.sweep
  claim i directory

theorem effect_open_closed (hclosed : i.isReady = false) (d : Disk) :
    effect Index.open (i, d) = effect (enter i) (i, d) := by
  unfold Index.open
  rw [effect_bind_ok (effect_current i d), hclosed, if_neg Bool.false_ne_true]
  rfl

/-- An index that is opened gets handles that belong together, unless that fails or it has some. -/
theorem relinks_open (h : i.Linked) : Relinks i Index.open := by
  intro d
  cases hready : i.isReady with
  | true =>
    rw [effect_open_ready hready]
    exact ⟨h, rfl, rfl⟩
  | false =>
    rw [effect_open_closed hready]
    refine (quiet_lift _).relinks_bind h (fun _ _ _ _ => ?_) d
    refine (quiet_onDisk _).relinks_bind h fun dir _ _ hopen => ?_
    refine (quiet_onDisk _).relinks_bind h fun _ _ _ _ => ?_
    exact relinks_claim h (path_of_open (onDisk_run hopen).2)

theorem relinks_close (h : i.Linked) : Relinks i Index.close := by
  have hend : Relinks i (update fun i => { i with writer := none, live := none }) := by
    intro d
    rw [effect_update]
    exact ⟨.inl ⟨rfl, rfl⟩, rfl, rfl⟩
  intro d
  unfold Index.close
  rw [effect_bind_ok (effect_current i d)]
  cases i.writer with
  | none => exact hend d
  | some w => exact (quiet_onDisk _).relinks_bind h (fun _ _ _ _ => hend) d

/-! ### Commits -/

/-- A commit of an index with handles that belong together fails without a trace but for a counter,
or the journal takes note of its changes. -/
theorem commit_cases (h : i.Linked) (t : Transaction) (d : Disk) :
    ∃ answer i' d', effect (commit t) (i, d) = (answer, (i', d')) ∧ i'.Linked ∧
      i'.settings = i.settings ∧ ((∃ e, answer = .error e ∧ i'.journal = i.journal) ∨
        answer = .ok () ∧ i'.journal = i.journal.map (· ++ t.changes)) := by
  rcases h with ⟨hwriter, hlive⟩ | ⟨l, w, hlive, hwriter, hpath, hroot⟩
  · exact ⟨_, i, d, effect_commit_closed hwriter t, .inl ⟨hwriter, hlive⟩, rfl, .inl ⟨_, rfl, rfl⟩⟩
  have hlinked : i.Linked := .inr ⟨l, w, hlive, hwriter, hpath, hroot⟩
  unfold commit
  rw [effect_bind_ok (effect_current i d), hwriter]
  simp only
  by_cases hempty : t.changes.isEmpty
  · rw [if_pos hempty, effect_update]
    refine ⟨_, _, d, rfl, hlinked.congr rfl rfl rfl, rfl, .inr ⟨rfl, ?_⟩⟩
    cases i.journal <;> simp [List.isEmpty_iff.mp hempty]
  · rw [if_neg hempty, effect_bind, effect_tryCatch, effect_applyTo]
    simp only
    cases hplace : DiskStep.place d (w.path ++ [contentName]) (.generation
        { i.emptyContent with documents := applyChanges i.schema w.documents t.changes }) with
    | none =>
      simp only [effect_failed]
      exact ⟨_, _, d, rfl, hlinked.congr rfl rfl rfl, rfl, .inl ⟨_, rfl, rfl⟩⟩
    | some d' =>
      -- what was written is there to be read
      have hnode := Disk.node?_place_self hplace
      simp only
      rw [effect_bind_ok (effect_update _ i d'), effect_refresh ?live (hpath ▸ hnode)]
      case live => exact hlive
      exact ⟨_, _, d', rfl, .inr ⟨_, _, rfl, rfl, hpath, hroot⟩, rfl, .inr ⟨rfl, rfl⟩⟩

/-! ### The swap -/

theorem replay_path {w w' : Writer} {journal : List Change}
    (h : effect (replay w journal) (i, d) = (.ok w', (i', d'))) : w'.path = w.path := by
  unfold replay at h
  split_ifs at h
  · rw [(pure_ok h).1]
  · rw [(applyTo_ok h).2.1]

theorem liveDirectory_ok {dir : IndexDirectory}
    (h : effect liveDirectory (i, d) = (.ok dir, (i', d'))) :
    ∃ l, i.live = some l ∧ dir = l.directory := by
  unfold liveDirectory at h
  rw [effect_bind_ok (effect_current i d)] at h
  split at h
  · rename_i l hl
    exact ⟨l, hl, (pure_ok h).1.symm⟩
  · simp [effect_bind_ok (effect_current i d)] at h

/-- How a swap ends: the old writer lets its lock go. -/
def retire (retired : Option Writer) (old documents : Nat) : IndexM (Nat × Nat) := do
  if let some r := retired then onDisk (perform .io (Writer.releaseSteps r))
  return (old, documents)

/-- A swap, once it has the journal. -/
def bringIn (number : Nat) (w : Writer) (journal : List Change) : IndexM (Nat × Nat) := do
  let w ← replay w journal
  let content ← onDisk (readContent w.path)
  let old ← liveDirectory
  let directory ← onDisk (old.swap number)
  let retired := (← current).writer
  update fun i => { i with writer := some w, live := some { directory, content } }
  retire retired old.current content.size

theorem effect_swapIn (n : Nat) (w : Writer) (i : Index) (d : Disk) :
    effect (swapIn n w) (i, d) =
      effect (bringIn n w (i.journal.getD [])) ({ i with journal := none }, d) := rfl

theorem quiet_retire (retired : Option Writer) (old documents : Nat) :
    Quiet (retire retired old documents) := by
  cases retired with
  | none => exact quiet_pure _
  | some r => exact (quiet_onDisk _).bind fun _ => quiet_pure _

theorem retire_ok {retired : Option Writer} {old documents : Nat} {answer : Nat × Nat}
    (h : effect (retire retired old documents) (i, d) = (.ok answer, (i', d'))) :
    answer = (old, documents) ∧ i' = i := by
  refine ⟨?_, (quiet_retire _ _ _).keeps h⟩
  cases retired with
  | none => exact (pure_ok h).1.symm
  | some r =>
    obtain ⟨_, _, -, hpure⟩ := bind_ok h
    exact (pure_ok hpure).1.symm

theorem relinks_bringIn {n : Nat} {w : Writer} (h : i.Linked) (hw : w.path = i.pathOf n)
    (journal : List Change) : Relinks i (bringIn n w journal) := by
  refine (quiet_replay w _).relinks_bind h fun w' _ _ hreplay => ?_
  refine (quiet_onDisk _).relinks_bind h fun content _ _ _ => ?_
  refine quiet_liveDirectory.relinks_bind h fun dir _ _ hdir => ?_
  refine (quiet_onDisk _).relinks_bind h fun dir' _ _ hswap d => ?_
  obtain ⟨l, hl, rfl⟩ := liveDirectory_ok hdir
  obtain ⟨rfl, -⟩ := swap_ok (onDisk_run hswap).2
  have hpath : w'.path = l.directory.generationPath n := by
    rw [replay_path hreplay, hw, h.pathOf hl]
  have hroot : l.directory.path = i.config.root ++ [i.name] := h.root hl
  rw [effect_bind_ok (effect_current i d), effect_bind_ok (effect_update _ i d)]
  -- however the old writer lets its lock go, the new one is in its place
  have hquiet := quiet_retire i.writer l.directory.current content.size
  rw [hquiet]
  exact ⟨.inr ⟨_, w', rfl, rfl, hpath, hroot⟩, rfl, rfl⟩

/-- Whatever comes of a swap, the journal is gone and the handles belong together. -/
theorem swapIn_handles {n : Nat} {w : Writer} (h : i.Linked) (hw : w.path = i.pathOf n)
    (d : Disk) : let i' := (effect (swapIn n w) (i, d)).2.1
      i'.Linked ∧ i'.journal = none ∧ i'.settings = i.settings := by
  rw [effect_swapIn]
  exact relinks_bringIn (i := { i with journal := none }) (h.congr rfl rfl rfl) hw _ d

theorem bringIn_ok {n old count : Nat} {w : Writer} {journal : List Change}
    (h : effect (bringIn n w journal) (i, d) = (.ok (old, count), (i', d'))) :
    ∃ l, i'.live = some l ∧ l.directory.current = n ∧ count = l.content.size ∧
      (journal ≠ [] → l.content.documents = applyChanges i.schema w.documents journal) := by
  obtain ⟨w', ⟨i₁, d₁⟩, hreplay, h₁⟩ := bind_ok h
  obtain rfl := (quiet_replay w _).keeps hreplay
  obtain ⟨content, ⟨i₂, d₂⟩, hread, h₂⟩ := bind_ok h₁
  obtain ⟨rfl, hcontent⟩ := onDisk_run hread
  obtain ⟨rfl, hnode⟩ := effect_readContent_ok hcontent
  obtain ⟨dir, ⟨i₃, d₃⟩, hdir, h₃⟩ := bind_ok h₂
  obtain rfl := quiet_liveDirectory.keeps hdir
  obtain ⟨dir', ⟨i₄, d₄⟩, hturn, h₄⟩ := bind_ok h₃
  obtain ⟨rfl, hswap⟩ := onDisk_run hturn
  obtain ⟨rfl, -⟩ := swap_ok hswap
  rw [effect_bind_ok (effect_current _ d₄), effect_bind_ok (effect_update _ _ d₄)] at h₄
  obtain ⟨hanswer, rfl⟩ := retire_ok h₄
  refine ⟨_, rfl, rfl, (Prod.mk.inj hanswer).2, fun hsome => ?_⟩
  unfold replay at hreplay
  rw [if_neg (by simpa using hsome)] at hreplay
  obtain ⟨-, rfl, hplace⟩ := applyTo_ok hreplay
  have hwritten := Disk.node?_place_self hplace
  obtain rfl := Node.generation.inj (Option.some.inj (hnode.symm.trans hwritten))
  rfl

/-- **What a swap brings in**: the new generation with the changes of the journal. -/
theorem swapIn_replays {n old count : Nat} {w : Writer}
    (h : effect (swapIn n w) (i, d) = (.ok (old, count), (i', d'))) :
    ∃ l, i'.live = some l ∧ l.directory.current = n ∧ count = l.content.size ∧
      (i.journal.getD [] ≠ [] →
        l.content.documents = applyChanges i.schema w.documents (i.journal.getD [])) := by
  rw [effect_swapIn] at h
  exact bringIn_ok (i := { i with journal := none }) h

end Codebook.Index
