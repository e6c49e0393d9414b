/-
# Rebuilds that nothing disturbs

A rebuild from a store, of which nothing is asked meanwhile, fills the next generation with the
documents of the entities, one after the other, and makes it the live one. On an index that is kept it
comes to that end whenever all entities can be encoded and the pointer can be drafted; after it, it can
always be drafted again.

Key theorems: `Index.effect_addPages_flatten`, `Index.Serving.rebuildFrom_ok`,
`Index.Kept.rebuildFrom_total`, `Index.Kept.rebuildFrom_kept`.
-/
import Codebook.Proofs.Handles
import Codebook.Proofs.Invisible

namespace Codebook

open IndexDirectory

namespace IndexDirectory

variable {d d' : Disk} {path : Path} {n : Nat}

/-- Once the pointer was turned its draft is gone. -/
theorem pointerSteps_drafted (h : d.runAll (pointerSteps path n) = (true, d')) :
    d'.node? (path ++ [draftName]) = none := by
  have hne : path ++ [pointerName] ≠ path ++ [draftName] := by simp [draftName, pointerName]
  obtain ⟨d₁, -, h⟩ := Disk.runAll_cons_ok h
  obtain ⟨d₂, -, h⟩ := Disk.runAll_cons_ok h
  obtain ⟨d₃, hrename, h⟩ := Disk.runAll_cons_ok h
  obtain ⟨d₄, hsync, h⟩ := Disk.runAll_cons_ok h
  have hgone : d₃.node? (path ++ [draftName]) = none := by
    simp only [DiskStep.run] at hrename
    split at hrename
    · simp at hrename
    · simp at hrename
    · rw [Disk.node?_place hrename hne, Disk.node?_erase, if_neg (by simp), if_pos List.prefix_rfl]
  have hrest := Disk.node?_run_none hsync hgone (by simp [DiskStep.makes])
  simp only [Disk.runAll, Prod.mk.injEq, true_and] at h
  exact h ▸ hrest

theorem write_isSome {x : String} (hpath : d.isDirectory path = true)
    (hfile : d.isDirectory (path ++ [x]) = false) (bytes : List UInt8) :
    ((DiskStep.write (path ++ [x]) bytes).run d).isSome := by
  simp only [DiskStep.run]
  split <;> rw [Disk.place_of_directory (by simpa [Path.parent] using hpath) hfile] <;> rfl

/-- A pointer is turned where there is one and the new one can be drafted. -/
theorem effect_swap {dir : IndexDirectory} {name : String} (hd : d.Sound)
    (hpointer : readPointer dir.path name d = .ok (some dir.current))
    (hdraft : d.isDirectory (dir.path ++ [draftName]) = false)
    (hdirectory : d.isDirectory (dir.generationPath n) = true) :
    effect (dir.swap n) d =
      (.ok { dir with current := n }, (d.runAll (pointerSteps dir.path n)).2) := by
  obtain ⟨bytes, holder, hfile⟩ := pointer_of_read hpointer
  have hpath : d.isDirectory dir.path = true := by simpa [Path.parent] using hd.parent hfile
  have hdone := runAll_pointerSteps hpath (by simp [Disk.isDirectory, hfile])
    (write_isSome hpath hdraft (generationName n ++ "\n").toUTF8.toList)
  unfold swap
  rw [effect_bind_ok (effect_get d), hdirectory]
  show effect (perform IndexError.io (pointerSteps dir.path n) >>= fun _ => _) d = _
  rw [effect_bind, effect_perform, hdone]
  rfl

/-- Where there is nothing there still is nothing after a generation was removed. -/
theorem remove_none {dir : IndexDirectory} {q : Path} (hq : d.node? q = none) :
    (effect (dir.remove n) d).2.node? q = none := by
  unfold remove
  split_ifs
  · rw [effect_bind_error (effect_throw _ d)]
    exact hq
  · simp only
    rw [effect_bind_ok (effect_get d), effect_perform]
    refine Disk.node?_runAll_none hq fun step hstep => ?_
    unfold removeSteps at hstep
    simp only at hstep
    split_ifs at hstep
    · simp only [List.mem_cons, List.not_mem_nil, or_false] at hstep
      rcases hstep with rfl | rfl <;> simp [DiskStep.makes]
    · simp at hstep

end IndexDirectory

/-- Settings that are accepted have pages with room for something. -/
theorem Config.rebuildPageSize_ne_zero {c : Config} (h : c.validate = .ok ()) :
    c.rebuildPageSize ≠ 0 := by
  unfold Config.validate at h
  simp only at h
  split_ifs at h with _ _ hsize
  exact hsize

namespace Index

variable {α : Type} [Indexed α] {i i' : Index} {d d' : Disk} {l : Live} {w v : Writer} {b b' : Building}
  {n number : Nat} {as : List α}

/-! ### The pages -/

/-- Pages that all come add the documents of all entities on them, or none can be made of one of
them. -/
theorem effect_addPages_flatten (s : Index × Disk) : ∀ (pages : List (List α)) (b : Building),
    effect (addPages b (pages.map .ok)) s =
      match pages.flatten.mapM (Document.encode s.1.schema) with
      | .ok ds => (.ok (b.add ds), s)
      | .error e => (.error e, s)
  | [], b => by
    have hsame : b.add [] = b := by simp [Building.add]
    simp only [List.map_nil, List.flatten_nil, List.mapM_nil]
    exact congrArg (fun b => (Except.ok b, s)) hsame.symm
  | page :: pages, b => by
    rw [List.map_cons, effect_addPages, List.flatten_cons, List.mapM_append]
    cases page.mapM (Document.encode s.1.schema) with
    | error e => rfl
    | ok ds =>
      simp only
      rw [effect_addPages_flatten s pages (b.add ds)]
      cases pages.flatten.mapM (Document.encode s.1.schema) with
      | error e => rfl
      | ok more =>
        have hsame : (b.add ds).add more = b.add (ds ++ more) := by simp [Building.add]
        exact congrArg (fun b => (Except.ok b, s)) hsame

/-! ### The steps of a rebuild -/

theorem Serving.beginRebuild_ok (hs : Serving i d l w)
    (h : effect beginRebuild (i, d) = (.ok b, (i', d'))) :
    i' = { i with journal := some [] } ∧ b.documents = [] ∧ Serving i' d' l w ∧
      Draft i' d' l b.number b.writer := by
  unfold beginRebuild at h
  obtain ⟨_, ⟨i₁, d₁⟩, hstart, h₁⟩ := bind_ok h
  obtain ⟨-, rfl, rfl⟩ := startJournal_ok hstart
  have hs₁ : Serving { i with journal := some [] } d₁ l w := hs.congr rfl rfl rfl rfl
  have h₂ := tryCatch_ok (fun e u => dropJournal_fails e u) h₁
  rw [effect_bind_ok (effect_liveDirectory hs₁.live)] at h₂
  obtain ⟨number, ⟨i₂, d₂⟩, hcreate, h₃⟩ := bind_ok h₂
  obtain ⟨rfl, habove, hs₂⟩ := hs₁.create_ok hcreate
  have hbuild := tryCatch_ok (fun e u => discard_fails _ e u) h₃
  obtain ⟨rfl, hb, hs₃, hdraft⟩ := hs₂.startBuilding_ok habove hbuild
  exact ⟨rfl, hb, hs₃, hdraft⟩

/-- What the removal of the generation that was live before does to the disk. -/
theorem removeRetired_disk (hl : i.live = some l)
    (h : effect (Index.removeRetired n) (i, d) = (.ok (), (i', d'))) :
    (effect (l.directory.remove n) d).2 = d' := by
  unfold Index.removeRetired at h
  rw [effect_tryCatch, effect_bind_ok (effect_liveDirectory hl), effect_onDisk] at h
  rcases hremoved : effect (l.directory.remove n) d with ⟨result, d₁⟩
  rw [hremoved] at h
  cases result <;> exact (Prod.mk.inj (Prod.mk.inj h).2).2

/-- What was added becomes the live generation, if nothing was committed since the rebuild began. -/
theorem Serving.finishRebuild_ok (hs : Serving i d l w) (hb : Draft i d l b.number b.writer)
    (hjournal : i.journal = some []) (h : effect (finishRebuild b) (i, d) = (.ok n, (i', d'))) :
    n = b.size ∧ i'.settings = i.settings ∧ i'.journal = none ∧
      d'.node? (l.directory.path ++ [draftName]) = none ∧
      ∃ g v, Serving i' d' ⟨{ l.directory with current := b.number }, g⟩ v ∧
        g.documents = b.documents := by
  unfold finishRebuild at h
  obtain ⟨⟨old, documents⟩, ⟨i₂, d₂⟩, htry, h₁⟩ := bind_ok h
  have hswapping := tryCatch_ok (fun e u => abandonRebuild_fails b e u) htry
  obtain ⟨v, ⟨i₁, d₁⟩, hcommit, hswap⟩ := bind_ok hswapping
  obtain ⟨rfl, hv, hdraft, hd₁, hother⟩ := hb.commitBuilding_ok hs.sound hcommit
  have hs₁ := hs.keep_draft hb hd₁ hother
  obtain ⟨g, v', hs₂, hg, rfl, rfl, hnone, hset⟩ := hdraft.swapIn_ok hs₁ hswap
  have hdocuments : g.documents = b.documents := by
    rw [hg, hv, hjournal]
    rfl
  -- the draft is gone with the swap, and nothing makes it again
  have hgone : d₂.node? (l.directory.path ++ [draftName]) = none := by
    obtain ⟨l', d₃, d₄, hl, -, hrun, rfl⟩ := swapIn_steps hswap
    obtain rfl : l = l' := Option.some.inj (hs₁.live.symm.trans hl)
    rw [hs₁.writer, Option.elim_some]
    refine Disk.node?_runAll_none (pointerSteps_drafted hrun) fun step hstep => ?_
    rw [Writer.releaseSteps, List.mem_singleton] at hstep
    subst hstep
    simp only [DiskStep.makes, hs₁.path]
    exact file_ne_child
  have hretired : l.directory.current ≠ b.number := Nat.ne_of_lt hb.above
  obtain ⟨d₃, hremove, hs₃⟩ := hs₂.removeRetired hretired
  have hlast : d₃.node? (l.directory.path ++ [draftName]) = none := by
    rw [← removeRetired_disk hs₂.live hremove]
    exact remove_none hgone
  simp only at h₁
  rw [effect_bind_ok hremove, effect_bind_ok (effect_update _ _ _)] at h₁
  obtain ⟨rfl, hend⟩ := pure_ok h₁
  obtain ⟨rfl, rfl⟩ := Prod.mk.inj hend
  exact ⟨by rw [Generation.size, hdocuments]; rfl, hset, hnone, hlast, g, v',
    hs₃.congr rfl rfl rfl rfl, hdocuments⟩

/-! ### A rebuild from a store -/

/-- **What a rebuild leaves.** The live generation has the documents of the entities in their order. -/
theorem Serving.rebuildFrom_ok (hs : Serving i d l w)
    (h : effect (rebuildFrom (.ofList as)) (i, d) = (.ok n, (i', d'))) :
    ∃ ds l' w', as.mapM (Document.encode i.schema) = .ok ds ∧ n = ds.length ∧ Serving i' d' l' w' ∧
      l'.content.documents = ds ∧ l'.directory.path = l.directory.path ∧
      l.directory.current < l'.directory.current ∧ i'.settings = i.settings ∧ i'.journal = none ∧
      d'.node? (l.directory.path ++ [draftName]) = none := by
  unfold rebuildFrom at h
  obtain ⟨_, s₀, hcount, h₀⟩ := bind_ok h
  obtain ⟨-, rfl⟩ := lift_ok hcount
  unfold rebuild at h₀
  obtain ⟨b, ⟨i₁, d₁⟩, hbegin, h₁⟩ := bind_ok h₀
  obtain ⟨rfl, hempty, hs₁, hdraft⟩ := hs.beginRebuild_ok hbegin
  obtain ⟨b', ⟨i₂, d₂⟩, hfill, hfinish⟩ := bind_ok h₁
  have hpages := tryCatch_ok (fun e u => abandonRebuild_fails b e u) hfill
  rw [effect_bind_ok (effect_current _ d₁)] at hpages
  obtain ⟨pages, s₃, hcut, hadd⟩ := bind_ok hpages
  obtain ⟨hread, rfl⟩ := lift_ok hcut
  obtain ⟨unread, hall, rfl⟩ := pages_ofList (mapError_eq_ok.mp hread)
  rw [effect_addPages_flatten, hall] at hadd
  split at hadd
  · rename_i ds hds
    obtain ⟨rfl, rfl, rfl⟩ : b.add ds = b' ∧ { i with journal := some [] } = i₂ ∧ d₁ = d₂ := by
      simpa using hadd
    obtain ⟨rfl, hset, hjournal, hgone, g, v, hs₂, hdocuments⟩ :=
      hs₁.finishRebuild_ok (b := b.add ds) hdraft rfl hfinish
    have hfilled : b.documents ++ ds = ds := by rw [hempty, List.nil_append]
    refine ⟨ds, _, v, hds, congrArg List.length hfilled, hs₂, ?_, rfl, hdraft.above, hset, hjournal,
      hgone⟩
    exact hdocuments.trans hfilled
  · simp at hadd

/-! ### A rebuild that comes to its end -/

/-- What was added to a new generation can be committed. -/
theorem Draft.effect_commitBuilding (h : Draft i d l number b.writer) (hd : d.Sound) :
    ∃ v d', effect (commitBuilding b) (i, d) = (.ok v, (i, d')) := by
  have hfile : d.isDirectory (b.writer.path ++ [contentName]) = false := by
    simp [Disk.isDirectory, h.content]
  have hplace : ∀ g, DiskStep.place d (b.writer.path ++ [contentName]) (.generation g) =
      some (d.insert (b.writer.path ++ [contentName]) (.generation g)) :=
    fun g => Disk.place_of_directory (hd.parent h.content) hfile
  unfold commitBuilding
  rw [effect_applyTo]
  simp only
  rw [hplace]
  exact ⟨_, _, rfl⟩

/-- A new generation can be made live as long as the pointer can be drafted. -/
theorem Draft.effect_swapIn (hs : Serving i d l w) (h : Draft i d l number v)
    (hjournal : i.journal = some []) (hcountable : l.directory.current ≤ Number.maxNat64)
    (hdraft : d.isDirectory (l.directory.path ++ [draftName]) = false) :
    ∃ answer s, effect (swapIn number v) (i, d) = (.ok answer, s) := by
  have hs₁ : Serving { i with journal := none } d l w := hs.congr rfl rfl rfl rfl
  have hreplay : effect (replay v []) ({ i with journal := none }, d) =
      (.ok v, ({ i with journal := none }, d)) := rfl
  have hdirectory : d.isDirectory (l.directory.generationPath number) = true := by
    have hparent := hs.sound.parent h.content
    rwa [h.path, Path.parent, List.dropLast_concat] at hparent
  obtain ⟨_, -, hpointer⟩ := hs.pointer
  have hswap := effect_swap hs.sound (hpointer hcountable) hdraft hdirectory
  rw [Index.effect_swapIn, hjournal]
  unfold bringIn
  rw [Option.getD_some, effect_bind_ok hreplay, effect_bind, effect_onDisk,
    effect_readContent _ _ h.content]
  simp only
  rw [effect_bind_ok (effect_liveDirectory hs₁.live), effect_bind, effect_onDisk, hswap]
  simp only
  rw [effect_bind_ok (effect_current _ _), effect_bind_ok (effect_update _ _ _), hs.writer]
  -- nobody is kept from letting a lock go
  have hsound : (d.runAll (pointerSteps l.directory.path number)).2.Sound := hs.sound.runAll
  obtain ⟨d₂, hunlock, -⟩ := hsound.unlock (w.path ++ [lockName]) w.holder
  unfold retire
  simp only
  rw [effect_bind, effect_onDisk, Writer.releaseSteps, effect_perform_one, hunlock]
  exact ⟨_, _, rfl⟩

theorem Draft.effect_finishRebuild (hs : Serving i d l w) (h : Draft i d l b.number b.writer)
    (hjournal : i.journal = some []) (hcountable : l.directory.current ≤ Number.maxNat64)
    (hdraft : d.isDirectory (l.directory.path ++ [draftName]) = false) :
    ∃ n s, effect (finishRebuild b) (i, d) = (.ok n, s) := by
  obtain ⟨v, d₁, hcommit⟩ := h.effect_commitBuilding hs.sound
  obtain ⟨-, -, h₁, hd₁, hother⟩ := h.commitBuilding_ok hs.sound hcommit
  have hs₁ := hs.keep_draft h hd₁ hother
  have hdraft₁ : d₁.isDirectory (l.directory.path ++ [draftName]) = false := by
    rwa [Disk.isDirectory, hother _ (h.path ▸ file_ne_child)]
  obtain ⟨⟨old, documents⟩, ⟨i₂, d₂⟩, hswap⟩ := h₁.effect_swapIn hs₁ hjournal hcountable hdraft₁
  obtain ⟨g, v', hs₂, -, rfl, -⟩ := h₁.swapIn_ok hs₁ hswap
  have hretired : l.directory.current ≠ b.number := Nat.ne_of_lt h.above
  obtain ⟨d₃, hremove, -⟩ := hs₂.removeRetired hretired
  have hfirst : effect (do swapIn b.number (← commitBuilding b)) (i, d) =
      (.ok (l.directory.current, documents), (i₂, d₂)) := by
    rw [effect_bind_ok hcommit, hswap]
  unfold finishRebuild
  rw [effect_bind, effect_tryCatch, hfirst]
  simp only
  rw [effect_bind_ok hremove, effect_bind_ok (effect_update _ _ _)]
  exact ⟨_, _, rfl⟩

/-- **A rebuild comes to its end** if all entities can be encoded, the next generation has a number and
the pointer can be drafted. -/
theorem Kept.rebuildFrom_total (h : Kept i d l) (hready : i.isReady = true)
    (hmax : l.directory.current < Number.maxNat64)
    (hdraft : d.isDirectory (l.directory.path ++ [draftName]) = false) {ds : List Document}
    (hds : as.mapM (Document.encode i.schema) = .ok ds) :
    ∃ n s, effect (rebuildFrom (.ofList as)) (i, d) = (.ok n, s) := by
  obtain ⟨w, hs⟩ := h.serving hready
  obtain ⟨d₁, hbegin, -, -, -, hother⟩ := h.effect_beginRebuild hready hmax
  obtain ⟨-, -, hs₁, hdraft₁⟩ := hs.beginRebuild_ok hbegin
  have hdraft₂ : d₁.isDirectory (l.directory.path ++ [draftName]) = false := by
    rwa [Disk.isDirectory, hother _ not_prefix_draft]
  generalize (⟨l.directory.current + 1, ⟨l.directory.generationPath (l.directory.current + 1), d.holders,
    []⟩, []⟩ : Building) = b at hbegin hdraft₁
  have hcount : effect (liftM ((Source.ofList as).count.mapError IndexError.storage) : IndexM Nat) (i, d) =
      (.ok as.length, (i, d)) := effect_lift _ _
  have hpages : ((Source.ofList as).pages i.config.rebuildPageSize).mapError IndexError.storage =
      .ok ((cut i.config.rebuildPageSize as).map .ok) := by
    simp [Source.ofList, pagesOf, Config.rebuildPageSize_ne_zero h.valid, Except.map, Except.mapError]
  -- the pages together are the entities of the store
  have hfill : effect (do
        let pages ← ((Source.ofList as).pages (← current).config.rebuildPageSize).mapError
          IndexError.storage
        addPages b pages : IndexM Building) ({ i with journal := some [] }, d₁) =
      (.ok (b.add ds), ({ i with journal := some [] }, d₁)) := by
    rw [effect_bind_ok (effect_current _ d₁)]
    simp only
    rw [hpages, effect_bind_ok (effect_lift _ _), effect_addPages_flatten, flatten_cut, hds]
  obtain ⟨n, s, hfinish⟩ :=
    Draft.effect_finishRebuild (b := b.add ds) hs₁ hdraft₁ rfl h.countable hdraft₂
  refine ⟨n, s, ?_⟩
  unfold rebuildFrom
  rw [effect_bind_ok hcount]
  unfold rebuild
  rw [effect_bind_ok hbegin, effect_bind, effect_tryCatch, hfill]
  exact hfinish

/-- After it the index is kept, and the next generation can be made as well. -/
theorem Kept.rebuildFrom_kept (h : Kept i d l) (hready : i.isReady = true)
    (hmax : l.directory.current < Number.maxNat64)
    (hok : effect (rebuildFrom (.ofList as)) (i, d) = (.ok n, (i', d'))) :
    ∃ ds l', as.mapM (Document.encode i.schema) = .ok ds ∧ n = ds.length ∧ Kept i' d' l' ∧
      i'.isReady = true ∧ l'.content.documents = ds ∧ l'.directory.path = l.directory.path ∧
      i'.settings = i.settings ∧ d'.node? (l.directory.path ++ [draftName]) = none := by
  obtain ⟨w, hs⟩ := h.serving hready
  obtain ⟨ds, l', w', hds, hn, hs', hdocuments, hpath, -, hset, -, hgone⟩ := hs.rebuildFrom_ok hok
  have hready' : i'.isReady = true := by
    rw [isReady, hs'.live]
    rfl
  rw [h.effect_rebuildFrom hready hmax (n := as.length) rfl] at hok
  obtain ⟨l'', hkept, -⟩ := h.rebuild_ok hready hmax hok
  obtain rfl : l'' = l' := Option.some.inj ((hkept.live hready').symm.trans hs'.live)
  exact ⟨ds, l'', hds, hn, hkept, hready', hdocuments, hpath, hset, hgone⟩

end Index
end Codebook
