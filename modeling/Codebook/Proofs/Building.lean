/-
# Generations that are being filled

A rebuild works on a generation of its own beside the live one: it makes the directory, writes the
content, and in the end replays the journal and turns the pointer. Until the pointer is turned
nothing of the live generation changes, and what is done to the live generation meanwhile does not
touch the new one.

Key definitions: `Index.Draft`.
Key theorems: `IndexDirectory.create_ok`, `Index.startBuilding_ok`, `Index.Draft.commitBuilding_ok`,
`Index.Draft.swapIn_ok`, `Index.Serving.removeRetired`.
-/
import Codebook.Proofs.Serving

namespace Codebook

/-! ### Turning the pointer -/

namespace IndexDirectory

variable {d d' : Disk} {dir dir' : IndexDirectory} {path : Path} {n : Nat}

/-- After the pointer was turned it holds the name of the generation. -/
theorem pointerSteps_ok (h : d.runAll (pointerSteps path n) = (true, d')) :
    ∃ holder, d'.node? (path ++ [pointerName]) =
      some (.file (generationName n ++ "\n").toUTF8.toList holder) := by
  obtain ⟨d₁, hwrite, h⟩ := Disk.runAll_cons_ok h
  obtain ⟨d₂, hsync, h⟩ := Disk.runAll_cons_ok h
  obtain ⟨d₃, hrename, h⟩ := Disk.runAll_cons_ok h
  obtain ⟨d₄, hlast, h⟩ := Disk.runAll_cons_ok h
  have hdraft : ∃ holder, d₁.node? (path ++ [draftName]) =
      some (.file (generationName n ++ "\n").toUTF8.toList holder) := by
    simp only [DiskStep.run] at hwrite
    split at hwrite <;> exact ⟨_, Disk.node?_place_self hwrite⟩
  obtain ⟨holder, hdraft⟩ := hdraft
  refine ⟨holder, ?_⟩
  have h₂ : d₂.node? (path ++ [draftName]) = d₁.node? (path ++ [draftName]) := by
    simp only [DiskStep.run] at hsync
    split_ifs at hsync
    rw [Option.some.inj hsync]
  simp only [DiskStep.run, h₂, hdraft] at hrename
  have h₃ := Disk.node?_place_self hrename
  have hrest := Disk.node?_run hlast h₃ (by simp [DiskStep.harms])
  simp only [Disk.runAll, Prod.mk.injEq, true_and] at h
  exact h ▸ hrest

theorem pointerSteps_harms {q : Path} (hdraft : ¬ path ++ [draftName] <+: q)
    (hpointer : path ++ [pointerName] ≠ q) : ∀ step ∈ pointerSteps path n, ¬ step.harms q := by
  have hne : path ++ [draftName] ≠ q := fun he => hdraft (he ▸ List.prefix_rfl)
  intro step hstep
  simp only [pointerSteps, List.mem_cons, List.not_mem_nil, or_false] at hstep
  rcases hstep with rfl | rfl | rfl | rfl <;> simp [DiskStep.harms, hdraft, hpointer, hne]

theorem pointerSteps_keep {q : Path} {m : Node} (hq : d.node? q = some m)
    (hdraft : ¬ path ++ [draftName] <+: q) (hpointer : path ++ [pointerName] ≠ q) :
    (d.runAll (pointerSteps path n)).2.node? q = some m :=
  Disk.node?_runAll hq (pointerSteps_harms hdraft hpointer)

theorem swap_ok (h : effect (dir.swap n) d = (.ok dir', d')) :
    dir' = { dir with current := n } ∧ d.runAll (pointerSteps dir.path n) = (true, d') := by
  unfold swap at h
  rw [effect_bind_ok (effect_get d)] at h
  split at h
  · obtain ⟨_, _, hthrow, -⟩ := bind_ok h
    simp at hthrow
  · obtain ⟨_, u, hperform, h⟩ := bind_ok h
    obtain ⟨rfl, rfl⟩ := pure_ok h
    exact ⟨rfl, perform_ok hperform⟩

theorem presentDisk_ok {disk : Disk} (h : effect dir.presentDisk d = (.ok disk, d')) :
    disk = d ∧ d' = d := by
  unfold presentDisk at h
  rw [effect_bind_ok (effect_get d)] at h
  split_ifs at h
  · obtain ⟨rfl, rfl⟩ : d = disk ∧ d = d' := by simpa using h
    exact ⟨rfl, rfl⟩
  · simp at h

/-- A new generation has a number above the live one, and making it changes nothing outside of
it. -/
theorem create_ok (hd : d.Sound) (h : effect dir.create d = (.ok n, d')) :
    dir.current < n ∧ d'.Sound ∧
      ∀ q m, ¬ dir.generationPath n <+: q → d.node? q = some m → d'.node? q = some m := by
  unfold create at h
  obtain ⟨disk, d₁, hpresent, h₁⟩ := bind_ok h
  obtain ⟨rfl, rfl⟩ := presentDisk_ok hpresent
  obtain ⟨_, d₂, hperform, h₂⟩ := bind_ok h₁
  obtain ⟨rfl, rfl⟩ := pure_ok h₂
  obtain ⟨hsound, hkeep⟩ := perform_keep hperform
  refine ⟨by unfold nextNumber; omega, hsound hd, fun q m hq hm => hkeep q m (fun step hstep => ?_) hm⟩
  unfold createSteps at hstep
  simp only [List.mem_append, List.mem_cons, List.not_mem_nil, or_false] at hstep
  rcases hstep with hstep | rfl | rfl
  · split_ifs at hstep
    · rw [List.mem_singleton.mp hstep]
      exact hq
    · simp at hstep
  · simp [DiskStep.harms]
  · simp [DiskStep.harms]

end IndexDirectory

namespace Index

open IndexDirectory

variable {i i' : Index} {d d' : Disk} {l : Live} {w v : Writer} {number : Nat}

/-! ### The invariant -/

/-- The writer of a generation that is not live holds the lock of the generation, and what it has
is on the disk. -/
structure Draft (i : Index) (d : Disk) (l : Live) (number : Nat) (v : Writer) : Prop where
  path : v.path = l.directory.generationPath number
  above : l.directory.current < number
  content : d.node? (v.path ++ [contentName]) =
    some (.generation { i.emptyContent with documents := v.documents })
  lock : ∃ bytes, d.node? (v.path ++ [lockName]) = some (.file bytes (some v.holder))

namespace Draft

/-- What is done elsewhere does not matter, nor which content is live. -/
theorem keep (h : Draft i d l number v) (hi : i'.schema = i.schema) {l' : Live}
    (hl : l'.directory = l.directory)
    (hk : ∀ q n, q = v.path ++ [contentName] ∨ q = v.path ++ [lockName] →
      d.node? q = some n → d'.node? q = some n) : Draft i' d' l' number v := by
  obtain ⟨bytes, hlock⟩ := h.lock
  refine ⟨hl ▸ h.path, hl ▸ h.above, ?_, bytes, hk _ _ (.inr rfl) hlock⟩
  rw [hk _ _ (.inl rfl) h.content, emptyContent, emptyContent, hi]

/-- The content of the generation can be written. -/
theorem place (h : Draft i d l number v) {documents : List Document}
    (hplace : DiskStep.place d (v.path ++ [contentName])
      (.generation { i.emptyContent with documents }) = some d') :
    Draft i d' l number { v with documents } := by
  obtain ⟨bytes, hlock⟩ := h.lock
  refine ⟨h.path, h.above, Disk.node?_place_self hplace, bytes, ?_⟩
  rw [Disk.node?_place hplace (file_ne contentName_ne_lockName _), hlock]

theorem ne (h : Draft i d l number v) (hs : Serving i d l w) (x y : String) :
    w.path ++ [x] ≠ v.path ++ [y] := by
  rw [hs.path, h.path]
  exact generationPath_ne (Nat.ne_of_lt h.above)

/-- A generation that is being filled is one beside the live one. -/
theorem mem_orphans (hd : d.Sound) (h : Draft i d l number v) (hmax : number ≤ Number.maxNat64) :
    number ∈ l.directory.orphans d := by
  have hdirectory : d.isDirectory (l.directory.generationPath number) = true := by
    have hparent := hd.parent h.content
    rwa [h.path, Path.parent, List.dropLast_concat] at hparent
  refine List.mem_filter.mpr ⟨(mem_generations hd).mpr ⟨generationName number, ?_,
    generationNumber?_generationName hmax⟩, by simpa using Nat.ne_of_gt h.above⟩
  exact of_decide_eq_true hdirectory

end Draft

/-! ### Making a generation -/

theorem createContent_ok {path : Path} {g : Generation}
    (h : effect (createContent i path) d = (.ok g, d')) :
    g = i.emptyContent ∧ (d.Sound → d'.Sound) ∧
      d'.node? (path ++ [contentName]) = some (.generation g) ∧
      ∀ q, path ++ [contentName] ≠ q → d'.node? q = d.node? q := by
  unfold createContent at h
  obtain ⟨_, d₁, hpublish, h₁⟩ := bind_ok h
  obtain ⟨rfl, rfl⟩ := pure_ok h₁
  have hplace := perform_one_ok hpublish
  exact ⟨rfl, fun hd => hd.place hplace, Disk.node?_place_self hplace,
    fun q hq => Disk.node?_place hplace hq⟩

theorem createWriter_ok {path : Path} {documents : List Document}
    (h : effect (createWriter i path documents) d = (.ok v, d')) :
    v.path = path ∧ v.documents = documents ∧ (d.Sound → d'.Sound) ∧
      (∃ bytes, d'.node? (path ++ [lockName]) = some (.file bytes (some v.holder))) ∧
      ∀ q, path ++ [lockName] ≠ q → d'.node? q = d.node? q := by
  unfold createWriter at h
  rw [effect_bind_ok (effect_get d)] at h
  obtain ⟨_, d₁, hlock, h⟩ := bind_ok h
  obtain ⟨_, d₂, hcount, h⟩ := bind_ok h
  simp only [effect_modify, Prod.mk.injEq, true_and] at hcount
  split_ifs at h
  · obtain ⟨_, _, -, h⟩ := bind_ok h
    obtain ⟨_, _, hthrow, -⟩ := bind_ok h
    simp at hthrow
  · obtain ⟨rfl, rfl⟩ := pure_ok h
    have hnode : ∀ q, d₂.node? q = d₁.node? q := fun q => hcount ▸ rfl
    have hplace : ∃ bytes,
        DiskStep.place d (path ++ [lockName]) (.file bytes (some d.holders)) = some d₁ := by
      have hrun := perform_one_ok hlock
      simp only [DiskStep.run] at hrun
      split at hrun
      · exact ⟨_, hrun⟩
      · exact ⟨_, hrun⟩
      · simp at hrun
    obtain ⟨bytes, hplace⟩ := hplace
    refine ⟨rfl, rfl, fun hd => ?_, ⟨bytes, ?_⟩, fun q hq => ?_⟩
    · have h₃ := hd.place hplace
      exact hcount ▸ ⟨h₃.nodup, h₃.named, h₃.inside⟩
    · rw [hnode, Disk.node?_place_self hplace]
    · rw [hnode, Disk.node?_place hplace hq]

/-- A new generation starts without documents, and all outside of it stays. -/
theorem startBuilding_ok {path : Path} {b : Building}
    (h : effect (startBuilding number path) (i, d) = (.ok b, (i', d'))) :
    i' = i ∧ b.number = number ∧ b.documents = [] ∧ b.writer.path = path ∧
      b.writer.documents = [] ∧ (d.Sound → d'.Sound) ∧
      d'.node? (path ++ [contentName]) = some (.generation i.emptyContent) ∧
      (∃ bytes, d'.node? (path ++ [lockName]) = some (.file bytes (some b.writer.holder))) ∧
      ∀ q, path ++ [contentName] ≠ q → path ++ [lockName] ≠ q → d'.node? q = d.node? q := by
  unfold startBuilding at h
  rw [effect_bind_ok (effect_current i d)] at h
  obtain ⟨g, ⟨i₁, d₁⟩, hcontent, h⟩ := bind_ok h
  obtain ⟨v, ⟨i₂, d₂⟩, hwriter, h⟩ := bind_ok h
  simp only [effect_pure, Prod.mk.injEq, Except.ok.injEq] at h
  obtain ⟨rfl, rfl, rfl⟩ := h
  obtain ⟨rfl, hcontent⟩ := onDisk_run hcontent
  obtain ⟨rfl, hwriter⟩ := onDisk_run hwriter
  obtain ⟨rfl, hcreated, hnode, hkeep⟩ := createContent_ok hcontent
  obtain ⟨hpath, hdocuments, hsound, hlock, hother⟩ := createWriter_ok hwriter
  refine ⟨rfl, rfl, rfl, hpath, hdocuments, fun hd => hsound (hcreated hd), ?_, hlock,
    fun q hq hq' => ?_⟩
  · rw [hother _ (file_ne contentName_ne_lockName.symm _), hnode]
  · rw [hother _ hq', hkeep _ hq]

/-- What was added to a new generation is committed there and nowhere else. -/
theorem Draft.commitBuilding_ok {b : Building} (h : Draft i d l number b.writer)
    (hd : d.Sound) (hc : effect (commitBuilding b) (i, d) = (.ok v, (i', d'))) :
    i' = i ∧ v.documents = b.documents ∧ Draft i' d' l number v ∧ d'.Sound ∧
      ∀ q, b.writer.path ++ [contentName] ≠ q → d'.node? q = d.node? q := by
  obtain ⟨rfl, rfl, hplace⟩ := applyTo_ok hc
  exact ⟨rfl, rfl, h.place hplace, hd.place hplace, fun q hq => Disk.node?_place hplace hq⟩

/-! ### The swap -/

theorem effect_liveDirectory (h : i.live = some l) :
    effect liveDirectory (i, d) = (.ok l.directory, (i, d)) := by
  unfold liveDirectory
  rw [effect_bind_ok (effect_current i d), h]
  rfl

/-- Work on the content of a new generation leaves the live one alone. -/
theorem Serving.keep_draft (hs : Serving i d l w) (h : Draft i d l number v) (hd' : d'.Sound)
    (hother : ∀ q, v.path ++ [contentName] ≠ q → d'.node? q = d.node? q) : Serving i d' l w := by
  refine hs.keep hd' fun q n hq hn => ?_
  rw [hother q ?_, hn]
  rintro rfl
  refine hs.not_prefix (Nat.ne_of_gt h.above) hq ?_
  rw [h.path]
  exact List.prefix_append _ _

/-- The journal is replayed into the new generation. -/
theorem Draft.replay_ok {journal : List Change} {v' : Writer} (hs : Serving i d l w)
    (h : Draft i d l number v)
    (hc : effect (replay v journal) (i, d) = (.ok v', (i', d'))) :
    i' = i ∧ v' = { v with documents := applyChanges i.schema v.documents journal } ∧
      Draft i d' l number v' ∧ Serving i d' l w := by
  unfold replay at hc
  split_ifs at hc with hempty
  · simp only [effect_pure, Prod.mk.injEq, Except.ok.injEq] at hc
    obtain ⟨rfl, rfl, rfl⟩ := hc
    refine ⟨rfl, ?_, h, hs⟩
    rw [List.isEmpty_iff.mp hempty]
    rfl
  · obtain ⟨rfl, rfl, hplace⟩ := applyTo_ok hc
    have hs' := hs.keep_draft h (hs.sound.place hplace) fun q hq => Disk.node?_place hplace hq
    exact ⟨rfl, rfl, h.place hplace, hs'⟩

theorem release_keep {r : Writer} {q : Path} {n : Node} (hq : d.node? q = some n)
    (hne : r.path ++ [lockName] ≠ q) : (d.runAll (Writer.releaseSteps r)).2.node? q = some n := by
  refine Disk.node?_runAll hq fun step hstep => ?_
  rw [Writer.releaseSteps, List.mem_singleton] at hstep
  simpa [hstep, DiskStep.harms] using hne

/-- Turning the pointer makes the new generation the live one. -/
theorem Draft.serving_swap (hs : Serving i d l w) (h : Draft i d l number v)
    (hrun : d.runAll (pointerSteps l.directory.path number) = (true, d'))
    (hi : i'.settings = i.settings)
    (hw : i'.writer = some v)
    (hl : i'.live = some
      ⟨{ l.directory with current := number }, { i.emptyContent with documents := v.documents }⟩) :
    Serving i' (d'.runAll (Writer.releaseSteps w)).2
      ⟨{ l.directory with current := number }, { i.emptyContent with documents := v.documents }⟩ v := by
  have hd' : d' = (d.runAll (pointerSteps l.directory.path number)).2 := by rw [hrun]
  obtain ⟨hschema, hconfig⟩ := Prod.mk.inj hi
  have hkeep : ∀ x n, d.node? (v.path ++ [x]) = some n →
      (d'.runAll (Writer.releaseSteps w)).2.node? (v.path ++ [x]) = some n := by
    intro x n hn
    refine release_keep ?_ (h.ne hs _ _)
    rw [hd', h.path]
    exact pointerSteps_keep (h.path ▸ hn) not_draft_prefix generationPath_ne_pointer.symm
  obtain ⟨bytes, hlock⟩ := h.lock
  obtain ⟨holder, hpointer⟩ := pointerSteps_ok hrun
  have hpointer' := release_keep (r := w) hpointer (hs.path ▸ generationPath_ne_pointer)
  exact {
    live := hl
    writer := hw
    root := by rw [Index.name, hschema, hconfig]; exact hs.root
    name := by rw [Index.name, hschema]; exact hs.name
    path := h.path
    documents := rfl
    layout := by rw [hschema]; rfl
    content := hkeep _ _ h.content
    lock := ⟨bytes, hkeep _ _ hlock⟩
    pointer := ⟨_, hpointer', fun hmax => readPointer_of_written hmax hpointer'⟩
    sound := (hd' ▸ hs.sound.runAll).runAll }

theorem takeJournal_ok {journal : List Change}
    (h : effect takeJournal (i, d) = (.ok journal, (i', d'))) :
    journal = i.journal.getD [] ∧ i' = { i with journal := none } ∧ d' = d := by
  unfold takeJournal at h
  rw [effect_bind_ok (effect_current i d), effect_bind_ok (effect_update _ i d), effect_pure] at h
  simp only [Prod.mk.injEq, Except.ok.injEq] at h
  exact ⟨h.1.symm, h.2.1.symm, h.2.2.symm⟩

/-- **The swap.** The new generation becomes the live one, with the journal replayed into it; the
answer is the number of its documents. -/
theorem Draft.swapIn_ok {old count : Nat} (hs : Serving i d l w) (h : Draft i d l number v)
    (hc : effect (swapIn number v) (i, d) = (.ok (old, count), (i', d'))) :
    ∃ g v', Serving i' d' ⟨{ l.directory with current := number }, g⟩ v' ∧
      g.documents = applyChanges i.schema v.documents (i.journal.getD []) ∧
      old = l.directory.current ∧ count = g.size ∧ i'.journal = none ∧ i'.settings = i.settings := by
  unfold swapIn at hc
  obtain ⟨journal, ⟨i₁, d₁⟩, htake, hafter⟩ := bind_ok hc
  clear hc
  obtain ⟨rfl, hi₁, rfl⟩ := takeJournal_ok htake
  -- the journal is gone from here on, and all later work is done on the index without it
  have hs₁ : Serving i₁ d₁ l w := by rw [hi₁]; exact hs.congr rfl rfl rfl rfl
  have h₁ : Draft i₁ d₁ l number v := by rw [hi₁]; exact ⟨h.path, h.above, h.content, h.lock⟩
  have hset : i₁.settings = i.settings := by rw [hi₁]; rfl
  have hnone : i₁.journal = none := by rw [hi₁]
  have hschema : i₁.schema = i.schema := congrArg Prod.fst hset
  clear hi₁
  obtain ⟨v', ⟨i₂, d₂⟩, hreplay, hc⟩ := bind_ok hafter
  clear hafter
  obtain ⟨rfl, hv', h₂, hs₂⟩ := h₁.replay_ok hs₁ hreplay
  obtain ⟨g, ⟨i₃, d₃⟩, hread, hafter⟩ := bind_ok hc
  clear hc
  rw [effect_onDisk, effect_readContent _ _ h₂.content] at hread
  simp only [Prod.mk.injEq, Except.ok.injEq] at hread
  obtain ⟨rfl, rfl, rfl⟩ := hread
  rw [effect_bind_ok (effect_liveDirectory hs₂.live)] at hafter
  obtain ⟨directory, ⟨i₄, d₄⟩, hswap, hc⟩ := bind_ok hafter
  clear hafter
  obtain ⟨rfl, hturn⟩ := onDisk_run hswap
  obtain ⟨rfl, hrun⟩ := swap_ok hturn
  rw [effect_bind_ok (effect_current _ _), effect_bind_ok (effect_update _ _ _)] at hc
  simp only [hs₂.writer] at hc
  obtain ⟨_, ⟨i₅, d₅⟩, hrelease, hend⟩ := bind_ok hc
  obtain ⟨rfl, hunlock⟩ := onDisk_run hrelease
  simp only [effect_pure, Prod.mk.injEq, Except.ok.injEq] at hend
  obtain ⟨⟨rfl, rfl⟩, rfl, rfl⟩ := hend
  have hlast := congrArg Prod.snd (perform_ok hunlock)
  simp only at hlast
  refine ⟨_, v', ?_, ?_, rfl, rfl, hnone, hset⟩
  · rw [← hlast]
    exact h₂.serving_swap hs₂ hrun rfl rfl rfl
  · show v'.documents = _
    rw [hv', hschema]

/-! ### Removing the retired generation -/

theorem remove_keep {dir : IndexDirectory} {q : Path} {m : Node} (hd : d.Sound)
    (hq : d.node? q = some m) (hne : ¬ dir.generationPath number <+: q) :
    (effect (dir.remove number) d).2.Sound ∧ (effect (dir.remove number) d).2.node? q = some m := by
  unfold remove
  split_ifs with hcurrent
  · rw [effect_bind_error (effect_throw _ d)]
    exact ⟨hd, hq⟩
  · simp only
    rw [effect_bind_ok (effect_get d), effect_perform]
    refine ⟨hd.runAll, Disk.node?_runAll hq fun step hstep => ?_⟩
    unfold removeSteps at hstep
    simp only at hstep
    split_ifs at hstep
    · simp only [List.mem_cons, List.not_mem_nil, or_false] at hstep
      rcases hstep with rfl | rfl <;> simp [DiskStep.harms, hne]
    · simp at hstep

/-- The retired generation is removed if that is possible. -/
theorem Serving.removeRetired (hs : Serving i d l w) (hne : number ≠ l.directory.current) :
    ∃ d', effect (removeRetired number) (i, d) = (.ok (), (i, d')) ∧ Serving i d' l w := by
  have hsound := (remove_keep hs.sound hs.content (hs.not_prefix hne (.inl rfl))).1
  refine ⟨_, ?_, hs.keep hsound fun q m hq hm => (remove_keep hs.sound hm (hs.not_prefix hne hq)).2⟩
  unfold Index.removeRetired
  rw [effect_tryCatch, effect_bind_ok (effect_liveDirectory hs.live), effect_onDisk]
  cases (effect (l.directory.remove number) d).1 <;> rfl

/-! ### The steps of a rebuild on an open index -/

theorem startJournal_ok (h : effect startJournal (i, d) = (.ok (), (i', d'))) :
    i.journal = none ∧ i' = { i with journal := some [] } ∧ d' = d := by
  unfold startJournal at h
  rw [effect_bind_ok (effect_current i d)] at h
  split_ifs at h with hrebuilding
  · obtain ⟨_, _, hthrow, -⟩ := bind_ok h
    simp at hthrow
  · have hnone : i.journal = none := by simpa [isRebuilding] using hrebuilding
    simp only [effect_update, Prod.mk.injEq, true_and] at h
    exact ⟨hnone, h.1.symm, h.2.symm⟩

/-- While a rebuild is under way another one is refused, and nothing changes. -/
theorem effect_beginRebuild_again (h : i.isRebuilding = true) : effect beginRebuild (i, d) =
    (.error (.writeConflict i.name IndexError.rebuilding), (i, d)) := by
  have hstart : effect startJournal (i, d) =
      (.error (.writeConflict i.name IndexError.rebuilding), (i, d)) := by
    unfold startJournal
    rw [effect_bind_ok (effect_current i d), if_pos h]
    rfl
  exact effect_bind_error hstart _

theorem effect_rebuild_again (fill : Building → IndexM Building) (h : i.isRebuilding = true) :
    effect (rebuild fill) (i, d) = (.error (.writeConflict i.name IndexError.rebuilding), (i, d)) :=
  effect_bind_error (effect_beginRebuild_again h) _

theorem Serving.create_ok (hs : Serving i d l w)
    (h : effect (onDisk l.directory.create) (i, d) = (.ok number, (i', d'))) :
    i' = i ∧ l.directory.current < number ∧ Serving i d' l w := by
  obtain ⟨rfl, hcreate⟩ := onDisk_run h
  obtain ⟨habove, hsound, hkeep⟩ := IndexDirectory.create_ok hs.sound hcreate
  have hserving := hs.keep hsound fun q n hq => hkeep q n (hs.not_prefix (Nat.ne_of_gt habove) hq)
  exact ⟨rfl, habove, hserving⟩

theorem Serving.startBuilding_ok {b : Building} (hs : Serving i d l w)
    (habove : l.directory.current < number)
    (h : effect (startBuilding number (l.directory.generationPath number)) (i, d) =
      (.ok b, (i', d'))) :
    i' = i ∧ b.documents = [] ∧ Serving i d' l w ∧ Draft i d' l b.number b.writer := by
  obtain ⟨rfl, rfl, hb, hpath, hdocuments, hsound, hcontent, hlock, hother⟩ :=
    Index.startBuilding_ok h
  refine ⟨rfl, hb, hs.keep (hsound hs.sound) fun q n hq hn => ?_, hpath, habove, ?_, ?_⟩
  · have hout : ∀ x, l.directory.generationPath b.number ++ [x] ≠ q := by
      rintro x rfl
      exact hs.not_prefix (Nat.ne_of_gt habove) hq (List.prefix_append _ _)
    rw [hother q (hout _) (hout _), hn]
  · rw [hpath, hcontent, hdocuments]
    rfl
  · rw [hpath]
    exact hlock

theorem addEntities_ok {α : Type} [Indexed α] {b b' : Building} {as : List α}
    (h : effect (addEntities b as) (i, d) = (.ok b', (i', d'))) :
    i' = i ∧ d' = d ∧ ∃ ds, as.mapM (Document.encode i.schema) = .ok ds ∧ b' = b.add ds := by
  unfold addEntities at h
  rw [effect_bind_ok (effect_current i d)] at h
  obtain ⟨ds, s, hlift, hend⟩ := bind_ok h
  obtain ⟨hds, rfl⟩ := lift_ok hlift
  obtain ⟨rfl, hsame⟩ := pure_ok hend
  obtain ⟨hi, hd⟩ := Prod.mk.inj hsame
  exact ⟨hi.symm, hd.symm, ds, hds, rfl⟩

end Index
end Codebook
