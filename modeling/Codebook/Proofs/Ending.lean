/-
# How a rebuild ends

A rebuild of an index that is kept fails if a page does not come, if an entity cannot be encoded, or
if the index was closed meanwhile; what is left then is what the requests alone would have left. Or it
comes to its end, and then the index is kept with the generation that was filled.

Key theorems: `Index.swapIn_steps`, `Index.Kept.rebuild_ends`, `Mask.Covers.kept`,
`Index.Kept.rebuild_ok`.
-/
import Codebook.Proofs.Undone

namespace Codebook

open IndexDirectory

/-! ### The swap, step by step -/

/-- Only an open index is swapped: the journal is replayed, the pointer is turned, and the writer lets
its lock go. -/
theorem Index.swapIn_steps {i i' : Index} {d d' : Disk} {n : Nat} {v : Writer} {result : Nat × Nat}
    (h : effect (swapIn n v) (i, d) = (.ok result, (i', d'))) :
    ∃ l d₁ d₂, i.live = some l ∧
      (d₁ = d ∨ ∃ g, DiskStep.place d (v.path ++ [contentName]) (.generation g) = some d₁) ∧
      d₁.runAll (pointerSteps l.directory.path n) = (true, d₂) ∧
      d' = (d₂.runAll (i.writer.elim [] Writer.releaseSteps)).2 := by
  unfold swapIn at h
  obtain ⟨journal, ⟨i₁, d₁⟩, htake, hrest⟩ := bind_ok h
  obtain ⟨-, rfl, rfl⟩ := takeJournal_ok htake
  obtain ⟨v', ⟨i₂, d₂⟩, hreplay, hread⟩ := bind_ok hrest
  obtain ⟨rfl, hreplayed⟩ : i₂ = { i with journal := none } ∧ (d₂ = d₁ ∨
      ∃ g, DiskStep.place d₁ (v.path ++ [contentName]) (.generation g) = some d₂) := by
    unfold replay at hreplay
    split_ifs at hreplay
    · obtain ⟨hi, hd⟩ := Prod.mk.inj (pure_ok hreplay).2
      exact ⟨hi.symm, .inl hd.symm⟩
    · obtain ⟨hi, -, hplace⟩ := applyTo_ok hreplay
      exact ⟨hi, .inr ⟨_, hplace⟩⟩
  obtain ⟨g, ⟨i₃, d₃⟩, hcontent, hdirectory⟩ := bind_ok hread
  obtain ⟨rfl, hfound⟩ := onDisk_run hcontent
  obtain ⟨rfl, -⟩ := effect_readContent_ok hfound
  rcases Option.eq_none_or_eq_some i.live with hl | ⟨l, hl⟩
  · obtain ⟨_, _, hlive, -⟩ := bind_ok hdirectory
    unfold liveDirectory at hlive
    rw [effect_bind_ok (effect_current _ _)] at hlive
    simp only [hl] at hlive
    rw [effect_bind_ok (effect_current _ _)] at hlive
    simp at hlive
  · have hlive : ({ i with journal := none } : Index).live = some l := hl
    rw [effect_bind_ok (effect_liveDirectory hlive)] at hdirectory
    obtain ⟨dir, ⟨i₄, d₄⟩, hswap, hend⟩ := bind_ok hdirectory
    obtain ⟨rfl, hturn⟩ := onDisk_run hswap
    obtain ⟨-, hrun⟩ := swap_ok hturn
    refine ⟨l, d₃, d₄, hl, hreplayed, hrun, ?_⟩
    rw [effect_bind_ok (effect_current _ _), effect_bind_ok (effect_update _ _ _)] at hend
    cases hw : i.writer with
    | none =>
      simp only [hw] at hend
      exact (Prod.mk.inj (pure_ok hend).2).2.symm
    | some w =>
      simp only [hw] at hend
      obtain ⟨_, ⟨i₅, d₅⟩, hrelease, hlast⟩ := bind_ok hend
      obtain ⟨rfl, hunlock⟩ := onDisk_run hrelease
      have hunlocked : d₅ = (d₄.runAll (Writer.releaseSteps w)).2 := by
        rw [perform_ok hunlock]
      rw [← (Prod.mk.inj (pure_ok hlast).2).2, hunlocked]
      rfl

/-! ### Rebuilds that are interrupted -/

/-- Content is written to a generation only as long as the generation was not removed. -/
theorem Disk.Alike.lock_of_place {m : Mask} {x : Hidden} {d d' e : Disk} {n : Node}
    (h : Disk.Alike m d e) (hx : x ∈ m.hidden)
    (hplace : DiskStep.place d (x.root ++ [contentName]) n = some d') :
    x.removed = false ∧
      ∃ bytes, d.node? (x.root ++ [lockName]) = some (.file bytes (some x.holder)) := by
  refine (h.beside x hx).room.resolve_left fun hgone => ?_
  obtain ⟨-, hparent, -⟩ := Disk.place_some hplace
  simp [Path.parent, Disk.isDirectory, hgone] at hparent

section

variable {m : Mask} {x : Hidden} {s t : Index × Disk} {b : Building}

/-- A rebuild of an index that was closed meanwhile does not come to its end. -/
theorem Mask.Covers.finishRebuild_interrupted (h : m.Covers s t) (hx : x ∈ m.hidden)
    (hi : m.Interrupts s t) (hb : b.writer.path = x.root) :
    ∃ e, (effect (Index.finishRebuild b) s).1 = .error e := by
  obtain ⟨i, d⟩ := s
  cases hend : effect (Index.finishRebuild b) (i, d) with
  | mk r s' => cases r with
    | error e => exact ⟨e, rfl⟩
    | ok n =>
      exfalso
      unfold Index.finishRebuild at hend
      obtain ⟨⟨old, documents⟩, s₁, htry, -⟩ := bind_ok hend
      have hswapping := tryCatch_ok (fun e u => Index.abandonRebuild_fails b e u) htry
      obtain ⟨v, ⟨i₁, d₁⟩, hcommit, hswap⟩ := bind_ok hswapping
      obtain ⟨rfl, -, hplace⟩ := Index.applyTo_ok hcommit
      rcases hi with hclosed | hswept
      · obtain ⟨l, -, -, hl, -⟩ := Index.swapIn_steps hswap
        rw [Index.isReady, ← h.index.live, hl] at hclosed
        simp at hclosed
      · have hx' : { x with removed := true } ∈ m.swept.hidden := by
          simp [Mask.swept, Option.mem_def.mp hx]
        have hroom := hswept.disk.lock_of_place hx' (n := .generation _) (by rwa [hb] at hplace)
        simp at hroom

end

namespace Index

variable {α : Type} [Indexed α] {i : Index} {d : Disk} {l : Live}

/-- What a rebuild comes to, one way or the other: a fault of the pages, which leaves what the requests
alone would have left, or its end, with the new generation beside what they left. -/
theorem Kept.rebuild_fills (h : Kept i d l) (hready : i.isReady = true)
    (hmax : l.directory.current < Number.maxNat64) (moments : List (Moment α)) :
    (∃ e s, Moment.fault? i.schema moments = some e ∧
      effect (Index.rebuild fun b => fill b moments) (i, d) = (.error e, s) ∧
      (rebuildMask d l hmax).undone.Covers s
        (Request.afterAll α (i, d) (Moment.asked i.schema moments))) ∨
    Moment.fault? i.schema moments = none ∧
      ∃ b s, b.writer.path = l.directory.generationPath (l.directory.current + 1) ∧
        b.writer.holder = d.holders ∧ b.number = l.directory.current + 1 ∧
        effect (Index.rebuild fun b => fill b moments) (i, d) = effect (finishRebuild b) s ∧
        (rebuildMask d l hmax).Covers s
          (Request.afterAll α (i, d) (Moment.asked i.schema moments)) ∧
        (.close ∈ Moment.asked i.schema moments → (rebuildMask d l hmax).Interrupts s
          (Request.afterAll α (i, d) (Moment.asked i.schema moments))) := by
  obtain ⟨d₁, hbegin, hsound, hholders, hlock, hother⟩ := h.effect_beginRebuild hready hmax
  have h₁ := h.covers_begun hready hmax hsound hholders hlock hother
  obtain ⟨s₂, h₂, hinterrupts, hfill⟩ := Mask.Covers.fill moments (b := ⟨l.directory.current + 1,
    ⟨l.directory.generationPath (l.directory.current + 1), d.holders, []⟩, []⟩) h₁ h
  have hrebuild : effect (Index.rebuild fun b => fill b moments) (i, d) = _ := effect_bind_ok hbegin _
  cases hfault : Moment.fault? i.schema moments with
  | some e =>
    simp only [hfault] at hfill
    obtain ⟨s₃, habandon, h₃⟩ := h₂.abandonRebuild (α := Building) (x := ⟨l.directory.path,
      l.directory.current + 1, hmax, d.holders, false⟩) rfl (b := ⟨l.directory.current + 1,
        ⟨l.directory.generationPath (l.directory.current + 1), d.holders, []⟩, []⟩) rfl e
    refine .inl ⟨e, s₃, rfl, ?_, h₃⟩
    rw [hrebuild, effect_bind, effect_tryCatch, hfill]
    simp only
    rw [habandon]
  | none =>
    simp only [hfault] at hfill
    obtain ⟨b, hwriter, hnumber, hfill⟩ := hfill
    refine .inr ⟨rfl, b, s₂, by rw [hwriter], by rw [hwriter], hnumber, ?_, h₂,
      fun hclose => hinterrupts (.inr hclose)⟩
    rw [hrebuild, effect_bind, effect_tryCatch, hfill]

/-- **How a rebuild fails.** A fault of the pages is its answer, and if the index was closed meanwhile
it has no other end either. What is left is what the requests alone would have left. -/
theorem Kept.rebuild_ends (h : Kept i d l) (hready : i.isReady = true)
    (hmax : l.directory.current < Number.maxNat64) (moments : List (Moment α)) :
    (∀ e, Moment.fault? i.schema moments = some e →
      (effect (Index.rebuild fun b => fill b moments) (i, d)).1 = .error e) ∧
    (.close ∈ Moment.asked i.schema moments →
      ∃ e, (effect (Index.rebuild fun b => fill b moments) (i, d)).1 = .error e) ∧
    ∀ e s, effect (Index.rebuild fun b => fill b moments) (i, d) = (.error e, s) →
      (rebuildMask d l hmax).undone.Covers s
        (Request.afterAll α (i, d) (Moment.asked i.schema moments)) := by
  rcases h.rebuild_fills hready hmax moments with ⟨e, s, hfault, hrebuild, hcovers⟩ |
    ⟨hfault, b, s, hpath, -, -, hrebuild, hcovers, hinterrupts⟩
  · rw [hfault, hrebuild]
    refine ⟨fun e' he => congrArg _ (Option.some.inj he), fun _ => ⟨e, rfl⟩, fun e' s' he => ?_⟩
    exact (Prod.mk.inj he).2 ▸ hcovers
  · rw [hfault, hrebuild]
    refine ⟨fun e he => by simp at he, fun hclose => ?_, fun e s' hfail => ?_⟩
    · exact hcovers.finishRebuild_interrupted rfl (hinterrupts hclose) hpath
    · exact hcovers.finishRebuild rfl hpath hfail

end Index

/-! ### What is the same -/

namespace Mask.Covers

open Index

variable {m : Mask} {s t : Index × Disk} {l : Live} {w : Writer}

theorem root (h : m.Covers s t) : s.1.config.root ++ [s.1.name] = t.1.config.root ++ [t.1.name] := by
  rw [h.index.config, h.index.name]

theorem pointer (h : m.Covers s t) (hpath : ∀ x ∈ m.hidden, x.path = l.directory.path)
    (hpointer : l.directory.Points t.2) : l.directory.Points s.2 := by
  obtain ⟨n, hn, hread⟩ := hpointer
  have hvisible : ¬ m.Hides (l.directory.path ++ [pointerName]) := by
    rintro ⟨x, hx, hroot⟩
    rw [Hidden.root, hpath x hx] at hroot
    exact not_prefix_pointer hroot
  refine ⟨m.node n, by rw [h.disk.node _ hvisible, hn, Option.map_some], fun hmax => ?_⟩
  rw [h.disk.readPointer_path hpath, hread hmax]

/-- An open index is open whether something is hidden beside it or not. -/
theorem serving (h : m.Covers s t) (hs : Serving t.1 t.2 l w) : Serving s.1 s.2 l (m.writer w) where
  live := h.index.live.trans hs.live
  writer := by rw [h.index.writer, hs.writer, Option.map_some]
  root := by rw [h.root, hs.root]
  name := by rw [h.index.name, hs.name]
  path := hs.path
  documents := hs.documents
  layout := by rw [h.index.schema, hs.layout]
  content := by
    rw [show (m.writer w).path = w.path from rfl, h.disk.node _
      (Mask.not_hides (h.index.not_guards_writer hs.writer (List.prefix_append _ _))), hs.content]
    rfl
  lock := by
    obtain ⟨bytes, hlock⟩ := hs.lock
    refine ⟨bytes, ?_⟩
    rw [show (m.writer w).path = w.path from rfl, h.disk.node _
      (Mask.not_hides (h.index.not_guards_writer hs.writer (List.prefix_append _ _))), hlock]
    rfl
  pointer := h.pointer (fun x hx => (h.index.current x hx l hs.live).1.symm) hs.pointer
  sound := h.disk.sound

/-- Where nothing is hidden any more the index is kept, too. -/
theorem kept (h : m.Covers s t) (hm : m.hidden = none) (hk : Kept t.1 t.2 l) : Kept s.1 s.2 l := by
  have hnode := fun q => h.disk.node q (Mask.not_hides_none hm q)
  exact {
    root := by rw [h.root, hk.root]
    name := by rw [h.index.name, hk.name]
    layout := by rw [h.index.schema, hk.layout]
    journal := (h.index.journal hm).trans hk.journal
    valid := by rw [h.index.config, hk.valid]
    heap := by
      rw [h.index.config]
      exact hk.heap
    countable := hk.countable
    sound := h.disk.sound
    counted := h.disk.counted_left hm
    content := by
      rw [hnode, hk.content]
      rfl
    pointer := h.pointer (by simp [hm]) hk.pointer
    lone := fun name n hn hname => by
      rw [hnode, hk.lone name n hn hname]
      rfl
    access := hk.access.imp (fun ⟨w, hs⟩ => ⟨m.writer w, h.serving hs⟩) fun ⟨hlive, hwriter, hlock⟩ => by
      obtain ⟨bytes, hlock⟩ := hlock
      refine ⟨h.index.live.trans hlive, by rw [h.index.writer, hwriter, Option.map_none], bytes, ?_⟩
      rw [hnode, hlock]
      rfl }

end Mask.Covers

/-! ### Rebuilds that come to their end -/

namespace IndexDirectory

variable {d d' : Disk} {dir : IndexDirectory} {name : String} {n : Nat}

/-- Turning the pointer does not change which generations there are. -/
theorem pointerSteps_spare {path : Path} {number : Nat} (h : generationNumber? name = some n) :
    ∀ step ∈ pointerSteps path number,
      ¬ step.makes (path ++ [name]) ∧ ¬ step.harms (path ++ [name]) := by
  obtain ⟨hpointer, hdraft⟩ := ne_of_numbered h
  simp [pointerSteps, DiskStep.makes, DiskStep.harms, hpointer.symm, hdraft.symm,
    List.prefix_append_right_inj]

/-- A generation that is not the live one is removed. -/
theorem effect_remove (hd : d.isDirectory dir.path = true) (hn : n ≠ dir.current)
    (hp : d.isDirectory (dir.generationPath n) = true) :
    effect (dir.remove n) d = (.ok (), d.erase (dir.generationPath n)) := by
  have hcontains : d.contains (dir.generationPath n) = true := by
    simp [Disk.contains, of_decide_eq_true hp]
  have hroot : (d.erase (dir.generationPath n)).contains dir.path = true := by
    have hout : ¬ dir.generationPath n <+: dir.path := fun hpre => by
      simpa [generationPath] using hpre.length_le
    simp [Disk.contains, Disk.node?_erase_outside hout, of_decide_eq_true hd]
  unfold remove
  rw [if_neg hn]
  simp only
  rw [effect_bind_ok (effect_get d), effect_perform, removeSteps]
  simp [Disk.runAll, DiskStep.run, hcontains, hp, hroot]

end IndexDirectory

namespace Index

variable {i i' : Index} {d d' : Disk} {l : Live} {w v : Writer} {name : String} {n number : Nat}

/-- A swap does not change which generations there are. -/
theorem Serving.swapIn_generations {result : Nat × Nat} (hs : Serving i d l w)
    (hv : v.path = l.directory.generationPath number)
    (h : effect (swapIn number v) (i, d) = (.ok result, (i', d')))
    (hname : generationNumber? name = some n) :
    d'.node? (l.directory.path ++ [name]) = d.node? (l.directory.path ++ [name]) := by
  obtain ⟨l', d₁, d₂, hl, hreplayed, hrun, rfl⟩ := swapIn_steps h
  obtain rfl : l = l' := Option.some.inj (hs.live.symm.trans hl)
  have hfirst : d₁.node? (l.directory.path ++ [name]) = d.node? (l.directory.path ++ [name]) := by
    rcases hreplayed with rfl | ⟨g, hplace⟩
    · rfl
    · exact Disk.node?_place hplace (hv ▸ file_ne_child)
  have hturned : d₂ = (d₁.runAll (pointerSteps l.directory.path number)).2 := by rw [hrun]
  rw [hs.writer, Option.elim_some, Disk.node?_runAll_eq, hturned,
    Disk.node?_runAll_eq _ (pointerSteps_spare hname), hfirst]
  intro step hstep
  rw [Writer.releaseSteps, List.mem_singleton] at hstep
  subst hstep
  simp only [DiskStep.makes, DiskStep.harms, hs.path]
  exact ⟨file_ne_child, file_ne_child⟩

/-- The generation that was live before is removed, if it is there. -/
theorem Serving.effect_removeRetired (hs : Serving i d l w) (hn : n ≠ l.directory.current)
    (hp : d.isDirectory (l.directory.generationPath n) = true) :
    effect (Index.removeRetired n) (i, d) = (.ok (), (i, d.erase (l.directory.generationPath n))) := by
  unfold Index.removeRetired
  rw [effect_tryCatch, effect_bind_ok (effect_liveDirectory hs.live), effect_onDisk,
    effect_remove hs.isDirectory_root hn hp]

end Index

section

open Index

variable {m : Mask} {x : Hidden} {i i' : Index} {d d' : Disk} {t : Index × Disk} {l : Live}
  {w v : Writer} {b : Building} {n : Nat}

/-- What was added to the hidden generation is committed there, beside the live one. -/
theorem Mask.Covers.draft (h : m.Covers (i, d) t) (hx : x ∈ m.hidden) (hs : Serving t.1 t.2 l w)
    (habove : l.directory.current < x.number) (hpath : b.writer.path = x.root)
    (hholder : b.writer.holder = x.holder)
    (hcommit : effect (Index.commitBuilding b) (i, d) = (.ok v, (i', d'))) :
    i' = i ∧ Serving i d' l (m.writer w) ∧ Draft i d' l x.number v ∧
      ∀ name, d'.node? (l.directory.path ++ [name]) = d.node? (l.directory.path ++ [name]) := by
  have hroot : x.root = l.directory.generationPath x.number := by
    rw [Hidden.root, generationPath, (h.index.current x hx l hs.live).1]
  obtain ⟨rfl, hv, hplace⟩ := applyTo_ok hcommit
  rw [show ({ b.writer with documents := b.documents } : Writer).path = x.root from hpath] at hplace
  have hvpath : v.path = x.root := by rw [hv, ← hpath]
  obtain ⟨-, bytes, hlock⟩ := h.disk.lock_of_place hx hplace
  refine ⟨rfl, ?_, ⟨hvpath.trans hroot, habove, ?_, bytes, ?_⟩, fun name => ?_⟩
  · exact Mask.Covers.serving (s := (i', d')) ⟨h.index, h.disk.place_content hx hplace⟩ hs
  · rw [hvpath, Disk.node?_place_self hplace]
  · rw [hvpath, Disk.node?_place hplace (file_ne contentName_ne_lockName _), hlock, hv, ← hholder]
  · exact Disk.node?_place hplace (hroot ▸ file_ne_child)

/-- Of the generations beside the live one the first disk has only the hidden one. -/
theorem Mask.Covers.lone (h : m.Covers (i, d) t) (hx : x ∈ m.hidden) (hlive : t.1.live = some l)
    {name : String} (hfree : t.2.node? (l.directory.path ++ [name]) = none)
    (hname : name ≠ generationName x.number) : d.node? (l.directory.path ++ [name]) = none := by
  have hvisible : ¬ m.Hides (l.directory.path ++ [name]) := by
    rintro ⟨y, hy, hpre⟩
    obtain rfl : y = x := Option.some.inj (hy.symm.trans hx)
    rw [Hidden.root, ← (h.index.current y hy l hlive).1] at hpre
    exact hname (name_of_below hpre)
  rw [h.disk.node _ hvisible, hfree]
  rfl

/-- **A rebuild that comes to its end** makes the generation that it filled the live one, and removes
the one before. -/
theorem Mask.Covers.finishRebuild_ok (h : m.Covers (i, d) t) (hx : x ∈ m.hidden)
    (hs : Serving t.1 t.2 l w) (habove : l.directory.current < x.number)
    (hlone : ∀ name k, generationNumber? name = some k →
      name ≠ generationName l.directory.current → t.2.node? (l.directory.path ++ [name]) = none)
    (hpath : b.writer.path = x.root) (hholder : b.writer.holder = x.holder) (hnumber : b.number = x.number)
    (hend : effect (Index.finishRebuild b) (i, d) = (.ok n, (i', d'))) :
    ∃ g v, Serving i' d' ⟨{ l.directory with current := x.number }, g⟩ v ∧
      g.documents = applyChanges i.schema b.documents (i.journal.getD []) ∧ i'.journal = none ∧
      i'.settings = i.settings ∧ ∀ name k, generationNumber? name = some k →
        name ≠ generationName x.number → d'.node? (l.directory.path ++ [name]) = none := by
  unfold Index.finishRebuild at hend
  obtain ⟨⟨old, documents⟩, ⟨i₂, d₂⟩, htry, hrest⟩ := bind_ok hend
  have hswapping := tryCatch_ok (fun e u => Index.abandonRebuild_fails b e u) htry
  obtain ⟨v, ⟨i₁, d₁⟩, hcommit, hswap⟩ := bind_ok hswapping
  rw [hnumber] at hswap
  obtain ⟨rfl, hs₁, hdraft, hfiled⟩ := h.draft hx hs habove hpath hholder hcommit
  obtain ⟨g, v', hs₂, hreplayed, hold, -, hjournal, hset⟩ := hdraft.swapIn_ok hs₁ hswap
  have hdocuments : v.documents = b.documents := by
    rw [(applyTo_ok hcommit).2.1]
    rfl
  have hsame : ∀ {name k}, generationNumber? name = some k →
      d₂.node? (l.directory.path ++ [name]) = d₁.node? (l.directory.path ++ [name]) :=
    hs₁.swapIn_generations hdraft.path hswap
  -- the generation that was live is there still, and is removed
  have hne : old ≠ x.number := hold ▸ Nat.ne_of_lt habove
  have hretired : d₂.isDirectory (l.directory.generationPath old) = true := by
    have hcountable := habove.le.trans x.countable
    have hlive := hs₁.isDirectory
    rw [hs₁.path] at hlive
    rw [hold, Disk.isDirectory, generationPath, hsame (generationNumber?_generationName hcountable)]
    exact hlive
  have hremove := hs₂.effect_removeRetired (n := old) hne hretired
  obtain ⟨d₃, hremoved, hs₃⟩ := hs₂.removeRetired hne
  obtain rfl := (Prod.mk.inj (Prod.mk.inj (hremove.symm.trans hremoved)).2).2
  rw [effect_bind_ok hremove, effect_bind_ok (effect_update _ _ _)] at hrest
  obtain ⟨rfl, rfl⟩ := Prod.mk.inj (pure_ok hrest).2
  refine ⟨g, v', hs₃.congr rfl rfl rfl rfl, hdocuments ▸ hreplayed, hjournal, hset,
    fun name k hname hother => ?_⟩
  rw [Disk.node?_erase, if_neg (by simp)]
  split_ifs with hprefix
  · rfl
  · have hcurrent : name ≠ generationName l.directory.current := by
      rintro rfl
      exact hprefix (by rw [hold]; exact List.prefix_rfl)
    rw [hsame hname, hfiled, h.lone hx hs.live (hlone name k hname hcurrent) hother]

/-- **After a rebuild that came to its end the index is kept.** It is open and shows what was added, with
the changes of the journal. -/
theorem Mask.Covers.finished (h : m.Covers (i, d) t) (hx : x ∈ m.hidden) (hk : Kept t.1 t.2 l)
    (habove : l.directory.current < x.number) (hpath : b.writer.path = x.root)
    (hholder : b.writer.holder = x.holder) (hnumber : b.number = x.number) (hcounted : d'.Counted)
    (hend : effect (Index.finishRebuild b) (i, d) = (.ok n, (i', d'))) :
    ∃ l', Kept i' d' l' ∧ i'.isReady = true ∧
      l'.content.documents = applyChanges i.schema b.documents (i.journal.getD []) ∧
      i'.settings = i.settings := by
  -- the index is open, or the rebuild would have failed
  have hopen : t.1.isReady = true := by
    by_contra hclosed
    obtain ⟨e, he⟩ := h.finishRebuild_interrupted hx (.inl (by simpa using hclosed)) hpath
    rw [hend] at he
    simp at he
  obtain ⟨w, hs⟩ := hk.serving hopen
  obtain ⟨g, v, hserving, hdocuments, hjournal, hset, hlone⟩ :=
    h.finishRebuild_ok hx hs habove hk.lone hpath hholder hnumber hend
  have hconfig : i'.config = t.1.config := (congrArg Prod.snd hset).trans h.index.config
  refine ⟨_, .of_serving hserving hjournal (by rw [hconfig, hk.valid]) ?_ x.countable hcounted hlone,
    isReady_of_live hserving.live, hdocuments, hset⟩
  rw [hconfig]
  exact hk.heap

end

/-- After a rebuild the index has the settings that it had. -/
theorem Index.Kept.rebuild_ok {α : Type} [Indexed α] {i i' : Index} {d d' : Disk} {l : Live}
    (h : Kept i d l) (hready : i.isReady = true) (hmax : l.directory.current < Number.maxNat64)
    {moments : List (Moment α)} {n : Nat}
    (hok : effect (Index.rebuild fun b => fill b moments) (i, d) = (.ok n, (i', d'))) :
    ∃ l', Kept i' d' l' ∧ i'.settings = i.settings := by
  have hcounted := counted_of_tandem (tandem_rebuild rfl moments) h.sound h.counted (i := i)
  rw [hok] at hcounted
  rcases h.rebuild_fills hready hmax moments with ⟨e, s, -, hrebuild, -⟩ |
    ⟨-, b, ⟨i₂, d₂⟩, hpath, hholder, hnumber, hrebuild, hcovers, -⟩
  · rw [hrebuild] at hok
    simp at hok
  · obtain ⟨l₁, hprogress⟩ := h.requests (α := α) (Moment.asked i.schema moments)
    have habove : l₁.directory.current < l.directory.current + 1 := by
      rw [hprogress.directory]
      exact Nat.lt_succ_self _
    rw [hrebuild] at hok
    obtain ⟨l', hkept, -, -, hset⟩ :=
      hcovers.finished rfl hprogress.kept habove hpath hholder hnumber hcounted hok
    refine ⟨l', hkept, ?_⟩
    rw [hset, settings, hcovers.index.schema, hcovers.index.config]
    exact hprogress.settings

end Codebook
