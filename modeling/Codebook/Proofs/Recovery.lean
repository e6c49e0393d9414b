/-
# What an opening leaves and serves

An opening that fails or stops anywhere leaves the disk so that the next one finds the same. One that
comes to its end serves the content that the disk holds, and leaves its generation as the only one. This
takes nothing but that nobody holds the lock, as it is after the process that held it has stopped.

Key definitions: `IndexDirectory.Spelled`, `Disk.Rests`, `Disk.released`.
Key theorems: `Disk.Holds.openIndex`, `IndexDirectory.nodup_generations`,
`IndexDirectory.effect_sweep_spelled`, `Disk.Rests.effect_open`, `Disk.Holds.released`.
-/
import Codebook.Proofs.Holding

namespace Codebook

open IndexDirectory

/-! ### Openings that stop or fail -/

namespace Disk

variable {m : Medium} {d d' : Disk} {dir : IndexDirectory} {g : Generation} {n : Nat}
  {ε : Type}

/-- Steps beside the live generation and on its lock keep what a disk holds. -/
theorem keeps_holds {failure : ε} {steps : List DiskStep}
    (h : ∀ step ∈ steps, dir.Beside step ∨ dir.OnLock step) :
    Keeps (fun s : Disk × Nat => s.1.Holds dir g) (fun _ => True) (m.perform failure steps) :=
  Medium.keeps_perform fun step hstep d n hd => (h step hstep).elim
    (fun hb => Holds.beside hd hb (m.leaves n d step)) fun ho => Holds.onLock hd ho (m.leaves n d step)

theorem keeps_firstSteps (hfirst : dir.current = 1) : Keeps (fun s : Disk × Nat => s.1.Holds dir g)
    (fun _ => True) (m.perform IndexError.io (firstSteps dir.path)) := by
  have hsame : { dir with current := 1 } = dir := by rw [← hfirst]
  rintro ⟨d, n⟩ h
  refine ⟨?_, fun _ _ => trivial⟩
  rw [Medium.effect_perform, firstSteps]
  have hmade := Holds.beside h (.make 1) (m.leaves n d _)
  refine Medium.runAll_cons (P := fun d => d.Holds dir g) hmade fun d₁ h₁ => ?_
  rcases hturn : m.runAll (n + 1) d₁ (pointerSteps dir.path 1) with ⟨done, d₂, n₂⟩
  rcases h₁.runAll_pointerSteps (n := 1) (by rw [hsame]; exact h₁.toStores) hturn with
    ⟨hkept, -⟩ | ⟨hturned, -⟩
  · exact h₁.aside hkept
  · rwa [hsame] at hturned

theorem keeps_findCurrent : Keeps (fun s : Disk × Nat => s.1.Holds dir g) (· = dir.current)
    (m.findCurrent dir.path dir.name) := by
  refine keeps_read fun d n h => ?_
  rcases h.pointer with hread | ⟨hfirst, hnone, -⟩
  · rw [hread, effect_bind_ok (effect_lift _ _)]
    exact ⟨h, fun b hb => (Except.ok.inj hb).symm⟩
  · have hread : readPointer dir.path dir.name d = .ok none := by simp [readPointer, hnone]
    have hmake : Keeps (fun s : Disk × Nat => s.1.Holds dir g) (· = dir.current)
        (do m.perform IndexError.io (firstSteps dir.path); return 1) :=
      .bind (keeps_firstSteps hfirst) fun _ _ => .pure hfirst.symm
    rw [hread, effect_bind_ok (effect_lift _ _)]
    exact hmake (d, n) h

theorem keeps_openDirectory {root : Path} {name : String} (hpath : dir.path = root ++ [name])
    (hname : dir.name = name) : Keeps (fun s : Disk × Nat => s.1.Holds dir g) (· = dir)
      (m.openDirectory root name) := by
  have henter : Keeps (fun s : Disk × Nat => s.1.Holds dir g) (fun _ => True)
      (m.perform IndexError.io [.makeDirectory dir.path]) :=
    keeps_holds fun step hstep => .inl (List.mem_singleton.mp hstep ▸ .enter)
  have hmake : Keeps (fun s : Disk × Nat => s.1.Holds dir g) (fun _ => True)
      (m.perform IndexError.io [.makeDirectory dir.currentPath]) :=
    keeps_holds fun step hstep => .inl (List.mem_singleton.mp hstep ▸ .make _)
  unfold Medium.openDirectory
  rw [← hpath, ← hname]
  refine .bind henter fun _ _ => .bind keeps_findCurrent fun c hc => ?_
  subst hc
  exact .bind hmake fun _ _ => .pure rfl

theorem sweepSteps_beside (dir : IndexDirectory) (d : Disk) :
    ∀ step ∈ dir.sweepSteps d, dir.Beside step := by
  intro step hstep
  unfold sweepSteps at hstep
  simp only at hstep
  split_ifs at hstep
  · simp at hstep
  · rcases List.mem_append.mp hstep with hstep | hstep
    · obtain ⟨k, hk, rfl⟩ := List.mem_map.mp hstep
      exact .remove (by simpa using (List.mem_filter.mp hk).2)
    · rw [List.mem_singleton.mp hstep]
      exact .sync _

theorem keeps_presentDisk {P : Disk × Nat → Prop} :
    Keeps P (fun _ => True) (steady dir.presentDisk) :=
  keeps_steady fun _ d h => by
    unfold presentDisk
    rw [effect_bind_ok (effect_get d)]
    split_ifs
    · exact ⟨h, fun _ _ => trivial⟩
    · exact ⟨h, fun _ _ => trivial⟩

theorem keeps_sweep :
    Keeps (fun s : Disk × Nat => s.1.Holds dir g) (fun _ => True) (m.sweep dir) :=
  .bind keeps_presentDisk fun d _ =>
    .bind (keeps_holds fun step hstep => .inl (sweepSteps_beside dir d step hstep)) fun _ _ =>
      .pure trivial

theorem keeps_clearStaleLock : Keeps (fun s : Disk × Nat => s.1.Holds dir g) (fun _ => True)
    (m.clearStaleLock dir dir.currentPath) := by
  have hremove : Keeps (fun s : Disk × Nat => s.1.Holds dir g) (fun _ => True) (do
      m.perform IndexError.io [.removeFile (dir.currentPath ++ [lockName])]; return true) :=
    .bind (keeps_holds fun step hstep => .inr (List.mem_singleton.mp hstep ▸ .clear)) fun _ _ =>
      .pure trivial
  refine keeps_read fun d n h => ?_
  generalize d.node? (dir.currentPath ++ [lockName]) = found
  rcases found with _ | _ | ⟨bytes, _ | holder⟩ | content
  · exact ⟨h, fun _ _ => trivial⟩
  · exact ⟨h, fun _ _ => trivial⟩
  · exact hremove (d, n) h
  · exact ⟨h, fun _ _ => trivial⟩
  · exact ⟨h, fun _ _ => trivial⟩

/-- The content that is found is the one that the disk holds; an empty one is written if it was not. -/
theorem keeps_openOrCreate {i : Index} (hlayout : g.layout = i.schema.layout) :
    Keeps (fun s : Disk × Nat => s.1.Holds dir g) (fun _ => True) (m.openOrCreate i dir.currentPath) := by
  refine keeps_read fun d n h => ?_
  rcases h.content with hcontent | ⟨hempty, hnone⟩
  · have hread : effect (steady (Index.readContent dir.currentPath) : TriedM IndexError Disk Generation)
        (d, n) = (.ok g, (d, n)) := by
      rw [effect_steady, Index.effect_readContent _ _ hcontent]
    rw [if_pos (by simp [Disk.contains, hcontent]), effect_bind_ok hread, if_pos hlayout]
    exact ⟨h, fun _ _ => trivial⟩
  · have hsame : i.emptyContent = g := by
      rw [Index.emptyContent, ← hlayout, ← hempty]
    have hcreate : Keeps (fun s : Disk × Nat => s.1.Holds dir g) (fun _ => True)
        (m.createContent i dir.currentPath) := by
      refine .bind (Medium.keeps_perform fun step hstep d n hd => ?_) fun _ _ => .pure trivial
      rw [List.mem_singleton.mp hstep, hsame]
      exact Holds.publish hd (m.leaves n d _)
    rw [if_neg (by simp [Disk.contains, hnone])]
    exact hcreate (d, n) h

theorem keeps_createWriter {i : Index} {documents : List Document} :
    Keeps (fun s : Disk × Nat => s.1.Holds dir g) (fun _ => True)
      (m.createWriter i dir.currentPath documents) := by
  refine .bind (V := fun _ => True) (keeps_steady fun _ d h => ⟨h, fun _ _ => trivial⟩) fun d _ => ?_
  refine .bind (keeps_holds fun step hstep => .inr (List.mem_singleton.mp hstep ▸ .take _)) fun _ _ => ?_
  refine .bind (V := fun _ => True)
    (keeps_steady fun _ d h => ⟨Holds.count h _, fun _ _ => trivial⟩) fun _ _ => ?_
  split_ifs
  · exact .bind (keeps_holds fun step hstep => .inr (List.mem_singleton.mp hstep ▸ .leave _)) fun _ _ =>
      .bind (V := fun _ => True) (.throw _) fun _ _ => .pure trivial
  · exact .pure trivial

/-- **An opening that fails or stops anywhere changes nothing of what the disk holds.** -/
theorem Holds.openIndex (h : d.Holds dir g) (m : Medium) (n : Nat) {j : Index}
    (hclosed : j.isReady = false) (hpath : dir.path = j.config.root ++ [j.name])
    (hname : dir.name = j.name) (hlayout : g.layout = j.schema.layout) :
    (effect m.openIndex ((j, d), n)).2.1.2.Holds dir g := by
  have htake : Keeps (fun s : (Index × Disk) × Nat => s.1.2.Holds dir g) (fun _ => True) (do
      let content ← reach (m.openOrCreate j dir.currentPath)
      let writer ← reach (m.createWriter j dir.currentPath content.documents)
      steady (Index.update fun i => { i with writer := some writer, live := some ⟨dir, content⟩ })) :=
    .bind (keeps_reach fun _ => keeps_openOrCreate hlayout) fun _ _ =>
      .bind (keeps_reach fun _ => keeps_createWriter) fun _ _ =>
        keeps_steady fun _ _ hs => ⟨hs, fun _ _ => trivial⟩
  have hread : effect (steady Index.current : TriedM IndexError (Index × Disk) Index) ((j, d), n) =
      (.ok j, ((j, d), n)) := effect_steady _ _ _
  have hopen : Keeps (fun s : (Index × Disk) × Nat => s.1.2.Holds dir g) (fun _ => True) (do
      steady (liftM j.config.validate : IndexM Unit)
      let directory ← reach (m.openDirectory j.config.root j.name)
      let _ ← reach (m.sweep directory)
      if j.config.clearStaleLocks then
        let _ ← reach (m.clearStaleLock directory directory.currentPath)
      let content ← reach (m.openOrCreate j directory.currentPath)
      let writer ← reach (m.createWriter j directory.currentPath content.documents)
      steady (Index.update fun i => { i with writer := some writer, live := some ⟨directory, content⟩ })) := by
    refine .bind (V := fun _ => True) (keeps_steady fun _ => .lift fun _ _ => trivial) fun _ _ => ?_
    refine .bind (keeps_reach fun _ => keeps_openDirectory hpath hname) fun directory hdirectory => ?_
    subst hdirectory
    refine .bind (keeps_reach fun _ => keeps_sweep) fun _ _ => ?_
    split_ifs
    · exact .bind (keeps_reach fun _ => keeps_clearStaleLock) fun _ _ => htake
    · exact htake
  unfold Medium.openIndex
  rw [effect_bind_ok hread, if_neg (by simp [hclosed])]
  exact (hopen ((j, d), n) h).1

/-! ### An opening that comes to its end -/

/-- A directory is made where nothing but directories lies on the way. -/
theorem makeDirectories_of_way {p : Path} (hway : ∀ q n, q <+: p → d.node? q = some n → n = .directory) :
    ∃ d', d.makeDirectories p = some d' := by
  have hstations : ∀ q ∈ p.stations, q <+: p := fun q hq => by
    obtain ⟨k, -, rfl⟩ := List.mem_map.mp hq
    exact List.take_prefix k p
  rw [makeDirectories_eq]
  generalize p.stations = stations at hstations
  induction stations generalizing d with
  | nil => exact ⟨d, rfl⟩
  | cons q stations ih =>
    obtain ⟨d₁, henter⟩ : ∃ d₁, d.enter q = some d₁ := by
      unfold enter
      cases hnode : d.node? q with
      | none => exact ⟨_, rfl⟩
      | some n =>
        rw [hway q n (hstations q List.mem_cons_self) hnode]
        exact ⟨_, rfl⟩
    have hway₁ : ∀ q' n, q' <+: p → d₁.node? q' = some n → n = .directory := fun q' n hq' hn => by
      rw [(enter_some henter).1] at hn
      split_ifs at hn
      · exact (Option.some.inj hn).symm
      · exact hway q' n hq' hn
    obtain ⟨d', hrest⟩ := ih hway₁ fun q hq => hstations q (List.mem_cons_of_mem _ hq)
    exact ⟨d', by rw [List.foldlM_cons, henter]; exact hrest⟩

theorem Orderly.way_generation (h : d.Orderly dir.path) (hn : n ≤ Number.maxNat64) (q : Path)
    (node : Node) (hq : q <+: dir.generationPath n) (hnode : d.node? q = some node) :
    node = .directory := by
  rcases List.prefix_concat_iff.mp hq with rfl | hq
  · exact (h.tidy _ n node (generationNumber?_generationName hn) hnode).1
  · exact h.way q node hq hnode

/-- The disk holds an index, and nobody holds the lock of its live generation. -/
structure Rests (d : Disk) (dir : IndexDirectory) (g : Generation) : Prop extends Holds d dir g where
  free : ∀ n, d.node? (dir.currentPath ++ [lockName]) = some n → ∃ bytes, n = .file bytes none

namespace Rests

theorem beside {step : DiskStep} (h : d.Rests dir g) (hb : dir.Beside step) (hl : step.Leaves d d') :
    d'.Rests dir g where
  toHolds := h.toHolds.beside hb hl
  free n hn := h.free n (hb.apart (apart_current dir _) hl ▸ hn)

theorem unheld (h : d.Rests dir g) : d.node? (dir.currentPath ++ [lockName]) = none ∨
    ∃ bytes, d.node? (dir.currentPath ++ [lockName]) = some (.file bytes none) := by
  cases hn : d.node? (dir.currentPath ++ [lockName]) with
  | none => exact .inl rfl
  | some n =>
    obtain ⟨bytes, rfl⟩ := h.free n hn
    exact .inr ⟨bytes, rfl⟩

/-- A directory beside the live generation, or that of it, is made. -/
theorem effect_enter (h : d.Rests dir g) {p : Path} (hb : dir.Beside (.makeDirectory p))
    (hway : ∀ q n, q <+: p → d.node? q = some n → n = .directory) :
    ∃ d', effect (perform IndexError.io [.makeDirectory p]) d = (.ok (), d') ∧ d'.Rests dir g ∧
      (∀ q, q <+: p → d'.isDirectory q = true) ∧
      ∀ q, ¬ q <+: p → d'.node? q = d.node? q := by
  obtain ⟨d', hmade⟩ := makeDirectories_of_way hway
  have hnode := (makeDirectories_some hmade).1
  refine ⟨d', ?_, h.beside hb (.inl hmade), fun q hq => ?_, fun q hq => by rw [hnode, if_neg hq]⟩
  · rw [effect_perform_one, DiskStep.run, hmade]
  · rw [isDirectory, hnode, if_pos hq]
    rfl

theorem effect_findCurrent (h : d.Rests dir g) :
    ∃ d', effect (findCurrent dir.path dir.name) d = (.ok dir.current, d') ∧ d'.Rests dir g := by
  unfold IndexDirectory.findCurrent
  rw [effect_bind_ok (effect_get d)]
  rcases h.pointer with hread | ⟨hfirst, hnone, hdraft⟩
  · rw [hread]
    exact ⟨d, rfl, h⟩
  · have hread : readPointer dir.path dir.name d = .ok none := by simp [readPointer, hnone]
    have hgeneration : 1 ≤ Number.maxNat64 := hfirst ▸ h.countable
    obtain ⟨d₁, hmake, h₁, hmade, hother⟩ :=
      h.effect_enter (.make 1) (h.toOrderly.way_generation hgeneration)
    have hroot₁ : d₁.isDirectory dir.path = true := hmade _ (path_prefix_generationPath dir 1)
    have hpointer₁ : d₁.node? (dir.path ++ [pointerName]) = none := by
      rw [hother _ fun hpre => generationName_ne_pointer 1 (name_of_above hpre).symm, hnone]
    have hdraft₁ : d₁.isDirectory (dir.path ++ [draftName]) = false := by
      rwa [isDirectory, hother _ fun hpre => generationName_ne_draft 1 (name_of_above hpre).symm]
    have hdone := IndexDirectory.runAll_pointerSteps (n := 1) hroot₁
      (by simp [isDirectory, hpointer₁]) (write_isSome hroot₁ hdraft₁ _)
    have hsame : { dir with current := 1 } = dir := by rw [← hfirst]
    have hturned : (d₁.runAll (pointerSteps dir.path 1)).2.Holds dir g := by
      obtain ⟨k', hrun⟩ := Medium.runAll_sure Medium.sure_sound (pointerSteps dir.path 1) 0 d₁
      rcases h₁.toHolds.runAll_pointerSteps (n := 1) (by rw [hsame]; exact h₁.toStores) hrun with
        ⟨-, hfalse⟩ | ⟨hholds, -⟩
      · simp [hdone] at hfalse
      · rwa [hsame] at hholds
    have hlock : (d₁.runAll (pointerSteps dir.path 1)).2.node? (dir.currentPath ++ [lockName]) =
        d₁.node? (dir.currentPath ++ [lockName]) := by
      refine node?_runAll_eq d₁ fun step hstep => ?_
      have hchild : ∀ x, dir.path ++ [x] ≠ dir.currentPath ++ [lockName] := fun x => file_ne_child.symm
      have hbelow : ¬ dir.path ++ [draftName] <+: dir.currentPath ++ [lockName] := not_draft_prefix
      simp only [pointerSteps, List.mem_cons, List.not_mem_nil, or_false] at hstep
      rcases hstep with rfl | rfl | rfl | rfl <;>
        simp [DiskStep.makes, DiskStep.harms, hchild, hbelow]
    have hsteps : effect (perform IndexError.io (firstSteps dir.path)) d =
        (.ok (), (d₁.runAll (pointerSteps dir.path 1)).2) := by
      have hrun := perform_one_ok hmake
      rw [generationPath] at hrun
      rw [effect_perform, firstSteps, runAll, hrun]
      simp only [hdone, if_true]
    rw [hread]
    refine ⟨_, ?_, hturned, fun n hn => h₁.free n (hlock ▸ hn)⟩
    rw [effect_bind_ok (effect_lift _ _), hfirst]
    exact effect_bind_ok hsteps _

theorem effect_openDirectory (h : d.Rests dir g) {root : Path} {name : String}
    (hpath : dir.path = root ++ [name]) (hname : dir.name = name) :
    ∃ d', effect (IndexDirectory.open root name) d = (.ok dir, d') ∧ d'.Rests dir g ∧
      d'.isDirectory dir.path = true ∧ d'.isDirectory dir.currentPath = true := by
  obtain ⟨d₁, henter, h₁, -, -⟩ := h.effect_enter .enter h.way
  obtain ⟨d₂, hfind, h₂⟩ := h₁.effect_findCurrent
  obtain ⟨d₃, hmake, h₃, hmade, -⟩ := h₂.effect_enter (.make dir.current)
    (h₂.toOrderly.way_generation h₂.countable)
  refine ⟨d₃, ?_, h₃, hmade _ (path_prefix_generationPath dir _), hmade _ List.prefix_rfl⟩
  unfold IndexDirectory.open
  rw [← hpath, ← hname, effect_bind_ok henter, effect_bind_ok hfind]
  exact effect_bind_ok hmake _

end Rests

end Disk

/-! ### The sweep -/

namespace IndexDirectory

variable {d d' : Disk} {dir : IndexDirectory} {n : Nat}

theorem insertNumber_perm (n : Nat) : ∀ ns : List Nat, (insertNumber n ns).Perm (n :: ns)
  | [] => .refl _
  | m :: ns => by
    rw [insertNumber]
    split_ifs
    · exact .refl _
    · exact (insertNumber_perm n ns |>.cons m).trans (.swap n m ns)

theorem foldr_insertNumber_perm (ns : List Nat) : (ns.foldr insertNumber []).Perm ns := by
  induction ns with
  | nil => exact .refl _
  | cons n ns ih => exact (insertNumber_perm n _).trans (ih.cons n)

/-- Every directory that is listed as a generation has the name of that generation. -/
def Spelled (dir : IndexDirectory) (d : Disk) : Prop :=
  ∀ c ∈ d.children dir.path, ∀ n ∈ numberOf c, c.1 = generationName n

instance (dir : IndexDirectory) (d : Disk) : Decidable (dir.Spelled d) :=
  inferInstanceAs (Decidable (∀ c ∈ d.children dir.path, ∀ n ∈ numberOf c, c.1 = generationName n))

theorem mem_numberOf {c : String × Node} :
    n ∈ numberOf c ↔ c.2 = .directory ∧ generationNumber? c.1 = some n := by
  simp [numberOf]

theorem spelled_iff (hd : d.Sound) : dir.Spelled d ↔ ∀ name n,
    d.isDirectory (dir.path ++ [name]) = true → generationNumber? name = some n →
      name = generationName n := by
  constructor
  · intro h name n hname hn
    exact h (name, .directory) ((Disk.mem_children hd).mpr (of_decide_eq_true hname)) n
      (mem_numberOf.mpr ⟨rfl, hn⟩)
  · rintro h ⟨name, node⟩ hc n hn
    obtain ⟨rfl, hnumber⟩ := mem_numberOf.mp hn
    exact h name n (decide_eq_true ((Disk.mem_children hd).mp hc)) hnumber

theorem spelled_of_tidy (hd : d.Sound) (ht : d.Tidy dir.path) : dir.Spelled d :=
  (spelled_iff hd).mpr fun name n hname hn => (ht name n _ hn (of_decide_eq_true hname)).2

/-- If every generation has its own name, none is listed twice. -/
theorem nodup_generations (hd : d.Sound) (hs : dir.Spelled d) : (dir.generations d).Nodup := by
  rw [generations_eq, (foldr_insertNumber_perm _).nodup_iff, List.Nodup, List.pairwise_filterMap]
  refine (Disk.nodup_children hd dir.path).imp_of_mem fun {a b} ha hb hne n hn k hk => ?_
  rintro rfl
  have hname : a.1 = b.1 := (hs a ha n hn).trans (hs b hb n hk).symm
  have hnode : a.2 = b.2 := (mem_numberOf.mp hn).1.trans (mem_numberOf.mp hk).1.symm
  exact hne (Prod.ext hname hnode)

theorem isDirectory_of_mem (hd : d.Sound) (hs : dir.Spelled d) (hn : n ∈ dir.generations d) :
    d.isDirectory (dir.generationPath n) = true := by
  obtain ⟨name, hnode, hnumber⟩ := (mem_generations hd).mp hn
  rw [(spelled_iff hd).mp hs name n (decide_eq_true hnode) hnumber] at hnode
  exact decide_eq_true hnode

/-- If no other generation is listed and each has its own name, the live one is listed once. -/
theorem generations_eq_live (hd : d.Sound) (hs : dir.Spelled d) (hmax : dir.current ≤ Number.maxNat64)
    (hlive : d.isDirectory dir.currentPath = true) (hall : ∀ n ∈ dir.generations d, n = dir.current) :
    dir.generations d = [dir.current] := by
  have hmem : dir.current ∈ dir.generations d :=
    (mem_generations hd).mpr ⟨_, of_decide_eq_true hlive, generationNumber?_generationName hmax⟩
  refine List.perm_singleton.mp <| (List.perm_ext_iff_of_nodup (nodup_generations hd hs)
    (List.nodup_singleton _)).mpr fun n => ?_
  rw [List.mem_singleton]
  exact ⟨hall n, fun he => he ▸ hmem⟩

/-- A generation does not lie within another one. -/
theorem not_prefix_other {k : Nat} (h : n ≠ k) : ¬ dir.generationPath n <+: dir.generationPath k :=
  fun hpre => not_prefix_generationPath (x := "") h (hpre.trans (List.prefix_append ..))

/-- Generations that are there are removed one after the other. -/
theorem runAll_removals : ∀ {ns : List Nat} {d : Disk}, ns.Nodup →
    (∀ n ∈ ns, d.isDirectory (dir.generationPath n) = true) → (d.runAll (dir.removals ns)).1 = true
  | [], _, _, _ => rfl
  | n :: ns, d, hnodup, hthere => by
    obtain ⟨hnot, hrest⟩ := List.nodup_cons.mp hnodup
    rw [removals_cons, Disk.runAll, DiskStep.run, if_pos (hthere n List.mem_cons_self)]
    refine runAll_removals hrest fun k hk => ?_
    have hne : n ≠ k := fun he => hnot (he ▸ hk)
    rw [Disk.isDirectory, Disk.node?_erase_outside (not_prefix_other hne)]
    exact hthere k (List.mem_cons_of_mem _ hk)

/-- A sweep comes to its end where every generation has its own name. -/
theorem effect_sweep_spelled (hd : d.Sound) (hs : dir.Spelled d) (hroot : d.isDirectory dir.path = true) :
    effect dir.sweep d = (.ok (dir.orphans d).length, (d.runAll (dir.sweepSteps d)).2) := by
  have hnodup : (dir.orphans d).Nodup := (nodup_generations hd hs).filter _
  have hthere : ∀ n ∈ dir.orphans d, d.isDirectory (dir.generationPath n) = true := fun n hn =>
    isDirectory_of_mem hd hs (List.mem_filter.mp hn).1
  have hkept : (d.runAll (dir.removals (dir.orphans d))).2.node? dir.path = some .directory := by
    refine Disk.node?_runAll (of_decide_eq_true hroot) fun step hstep => ?_
    obtain ⟨n, -, rfl⟩ := List.mem_map.mp hstep
    exact fun hpre : dir.generationPath n <+: dir.path => not_child_prefix hpre
  have hdone : (d.runAll (dir.sweepSteps d)).1 = true := by
    rw [runAll_sweepSteps hroot, Disk.runAll_append, if_pos (runAll_removals hnodup hthere)]
    simp [Disk.runAll, DiskStep.run, Disk.contains, hkept]
  unfold sweep
  rw [effect_bind_ok (effect_presentDisk hroot), effect_bind, effect_perform, hdone]
  rfl

end IndexDirectory

/-! ### What is served -/

namespace Disk.Rests

variable {d d' : Disk} {dir : IndexDirectory} {g : Generation} {i : Index}

theorem runAll : ∀ {steps : List DiskStep} {d : Disk}, d.Rests dir g →
    (∀ step ∈ steps, dir.Beside step) → (d.runAll steps).2.Rests dir g
  | [], _, h, _ => h
  | step :: steps, d, h, hsteps => by
    rw [Disk.runAll]
    cases hrun : step.run d with
    | none => exact h
    | some d₁ =>
      have h₁ := h.beside (hsteps step List.mem_cons_self) (.inl hrun)
      exact runAll h₁ fun s hs => hsteps s (List.mem_cons_of_mem _ hs)

theorem effect_sweep (h : d.Rests dir g) (hroot : d.isDirectory dir.path = true)
    (hcurrent : d.isDirectory dir.currentPath = true) : ∃ n d', effect dir.sweep d = (.ok n, d') ∧
      d'.Rests dir g ∧ d'.isDirectory dir.currentPath = true := by
  refine ⟨_, _, effect_sweep_spelled h.sound (spelled_of_tidy h.sound h.tidy) hroot, h.runAll (sweepSteps_beside dir d),
    decide_eq_true (node?_runAll (of_decide_eq_true hcurrent) fun step hstep => ?_)⟩
  cases sweepSteps_beside dir d step hstep with
  | remove hn => exact not_prefix_other hn
  | enter | make | sync => exact id
  | publish | lock | unlock | draft =>
    exact fun he => absurd hstep (by
      unfold sweepSteps
      simp only
      split_ifs <;> simp)

theorem effect_clearStaleLock (h : d.Rests dir g) (hcurrent : d.isDirectory dir.currentPath = true) :
    ∃ cleared d', effect (dir.clearStaleLock dir.currentPath) d = (.ok cleared, d') ∧ d'.Rests dir g ∧
      d'.isDirectory dir.currentPath = true := by
  unfold clearStaleLock
  rw [effect_bind_ok (effect_get d)]
  rcases h.unheld with hnone | ⟨bytes, hlock⟩
  · rw [hnone]
    exact ⟨false, d, rfl, h, hcurrent⟩
  · have hrun : (DiskStep.removeFile (dir.currentPath ++ [lockName])).run d =
        some (d.erase (dir.currentPath ++ [lockName])) := by
      simp [DiskStep.run, Disk.contains, Disk.isDirectory, hlock]
    rw [hlock]
    simp only
    rw [effect_bind, effect_perform_one, hrun]
    refine ⟨true, _, rfl, ⟨h.toHolds.onLock .clear (.inl hrun), fun n hn => ?_⟩, ?_⟩
    · rw [node?_erase, if_neg (by simp), if_pos List.prefix_rfl] at hn
      simp at hn
    · have hout : ¬ dir.currentPath ++ [lockName] <+: dir.currentPath := not_file_prefix
      rw [isDirectory, node?_erase_outside hout]
      exact hcurrent

theorem effect_openOrCreate (h : d.Rests dir g) (hcurrent : d.isDirectory dir.currentPath = true)
    (hlayout : g.layout = i.schema.layout) :
    ∃ d', effect (Index.openOrCreate i dir.currentPath) d = (.ok g, d') ∧ d'.Rests dir g ∧
      d'.isDirectory dir.currentPath = true := by
  rcases h.content with hcontent | ⟨hempty, hnone⟩
  · exact ⟨d, Index.effect_openOrCreate_same hcontent hlayout, h, hcurrent⟩
  · have hsame : i.emptyContent = g := by
      rw [Index.emptyContent, ← hlayout, ← hempty]
    have hrun : (DiskStep.publish (dir.currentPath ++ [contentName]) g).run d =
        some (d.insert (dir.currentPath ++ [contentName]) (.generation g)) :=
      place_of_directory (by simpa [Path.parent] using hcurrent) (by simp [isDirectory, hnone])
    have hother : ∀ q, q ≠ dir.currentPath ++ [contentName] →
        (d.insert (dir.currentPath ++ [contentName]) (.generation g)).node? q = d.node? q :=
      fun q hq => node?_insert_ne d _ (by simp) hq
    refine ⟨_, ?_, ⟨h.toHolds.publish (.inl hrun), fun n hn => h.free n ?_⟩, ?_⟩
    · unfold Index.openOrCreate
      rw [effect_bind_ok (effect_get d), if_neg (by simp [Disk.contains, hnone])]
      unfold Index.createContent
      rw [hsame, effect_bind, effect_perform_one, hrun]
      rfl
    · rwa [hother _ (file_ne contentName_ne_lockName.symm _)] at hn
    · rw [isDirectory, hother _ (by simp)]
      exact hcurrent

/-- **An opening serves what the disk holds**, if nobody holds the lock. -/
theorem effect_open (h : d.Rests dir g) (hclosed : i.isReady = false)
    (hpath : dir.path = i.config.root ++ [i.name]) (hname : dir.name = i.name)
    (hlayout : g.layout = i.schema.layout) (hvalid : i.config.validate = .ok ())
    (hheap : i.config.heapPerThread < Config.maxWriterHeapBytes) :
    ∃ w d', effect Index.open (i, d) =
      (.ok (), ({ i with writer := some w, live := some ⟨dir, g⟩ }, d')) := by
  have hsettings : effect (liftM i.config.validate : IndexM Unit) (i, d) = (.ok (), (i, d)) := by
    rw [effect_lift, hvalid]
  obtain ⟨d₁, hdirectory, h₁, hroot₁, hcurrent₁⟩ := h.effect_openDirectory hpath hname
  obtain ⟨n, d₂, hsweep, h₂, hcurrent₂⟩ := h₁.effect_sweep hroot₁ hcurrent₁
  have htake : ∀ {d₃ : Disk}, d₃.Rests dir g → d₃.isDirectory dir.currentPath = true →
      ∃ w d', effect (Index.takeOver i dir) (i, d₃) =
        (.ok (), ({ i with writer := some w, live := some ⟨dir, g⟩ }, d')) := fun h₃ hcurrent₃ => by
    obtain ⟨d₄, hcontent, h₄, hcurrent₄⟩ := h₃.effect_openOrCreate hcurrent₃ hlayout
    obtain ⟨bytes, hwriter⟩ := Index.effect_createWriter_free g.documents hcurrent₄ h₄.unheld hheap
    unfold Index.takeOver
    rw [effect_bind, Index.effect_onDisk, hcontent]
    simp only
    rw [effect_bind, Index.effect_onDisk, hwriter]
    exact ⟨_, _, rfl⟩
  unfold Index.open
  rw [effect_bind_ok (Index.effect_current i d), hclosed, if_neg Bool.false_ne_true,
    effect_bind_ok hsettings, effect_bind, Index.effect_onDisk, hdirectory]
  simp only
  rw [effect_bind, Index.effect_onDisk, hsweep]
  simp only
  split_ifs
  · obtain ⟨cleared, d₃, hclear, h₃, hcurrent₃⟩ := h₂.effect_clearStaleLock hcurrent₂
    rw [effect_bind, Index.effect_onDisk, hclear]
    exact htake h₃ hcurrent₃
  · exact htake h₂ hcurrent₂

end Disk.Rests

/-! ### After a process has stopped -/

/-- Nobody holds the lock of a file. -/
def Node.released : Node → Node
  | .file bytes _ => .file bytes none
  | n => n

/-- Whoever held a lock has let it go. -/
def Disk.released (d : Disk) : Disk :=
  { d with nodes := d.nodes.map fun e => (e.1, e.2.released) }

namespace Disk

variable {d : Disk} {dir : IndexDirectory} {g : Generation}

theorem node?_released (d : Disk) (q : Path) : d.released.node? q = (d.node? q).map Node.released := by
  have hlookup : ∀ nodes : List (Path × Node),
      (nodes.map fun e => (e.1, e.2.released)).lookup q = (nodes.lookup q).map Node.released := by
    intro nodes
    induction nodes with
    | nil => rfl
    | cons e nodes ih =>
      rw [List.map_cons, List.lookup_cons, List.lookup_cons, ih]
      cases q == e.1 <;> rfl
  unfold node? released
  split_ifs
  · rfl
  · exact hlookup d.nodes

theorem node?_of_released {q : Path} {n : Node} (hn : d.released.node? q = some n) :
    ∃ m, d.node? q = some m ∧ m.released = n := by
  rwa [node?_released, Option.map_eq_some_iff] at hn

theorem isDirectory_released (d : Disk) (q : Path) : d.released.isDirectory q = d.isDirectory q := by
  rw [isDirectory, isDirectory, node?_released]
  rcases d.node? q with _ | (_ | _ | _) <;> simp [Node.released]

theorem readPointer_released (d : Disk) (path : Path) (name : String) :
    readPointer path name d.released = readPointer path name d := by
  have hbytes : d.released.bytes? (path ++ [pointerName]) = d.bytes? (path ++ [pointerName]) := by
    rw [bytes?, bytes?, node?_released]
    rcases d.node? (path ++ [pointerName]) with _ | (_ | _ | _) <;> rfl
  rw [readPointer, readPointer, text?, text?, hbytes, node?_released]
  cases d.node? (path ++ [pointerName]) <;> rfl

theorem Sound.released (h : d.Sound) : d.released.Sound where
  nodup := by
    have hnames : d.released.nodes.map Prod.fst = d.nodes.map Prod.fst := by
      simp [Disk.released, Function.comp_def]
    rw [hnames]
    exact h.nodup
  named e he := by
    obtain ⟨e, hmem, rfl⟩ := List.mem_map.mp he
    exact h.named e hmem
  inside e he := by
    obtain ⟨e, hmem, rfl⟩ := List.mem_map.mp he
    rw [isDirectory_released]
    exact h.inside e hmem

theorem counted_released (d : Disk) : d.released.Counted := by
  intro q bytes k hq
  obtain ⟨m, -, hm⟩ := node?_of_released hq
  cases m <;> simp [Node.released] at hm

/-- **After the process has stopped the disk holds what it held**, and nobody holds the lock. -/
theorem Holds.released (h : d.Holds dir g) : d.released.Rests dir g where
  sound := h.sound.released
  tidy name k n hname hn := by
    obtain ⟨m, hm, rfl⟩ := node?_of_released hn
    obtain ⟨rfl, hown⟩ := h.tidy name k m hname hm
    exact ⟨rfl, hown⟩
  way q n hq hn := by
    obtain ⟨m, hm, rfl⟩ := node?_of_released hn
    rw [h.way q m hq hm]
    rfl
  countable := h.countable
  content := by
    rw [node?_released]
    refine h.content.imp (fun hcontent => ?_) fun ⟨hempty, hnone⟩ => ⟨hempty, ?_⟩
    · rw [hcontent]
      rfl
    · rw [hnone]
      rfl
  lock n hn := by
    obtain ⟨m, hm, rfl⟩ := node?_of_released hn
    obtain ⟨bytes, holder, rfl⟩ := h.lock m hm
    exact ⟨bytes, none, rfl⟩
  pointer := by
    rw [readPointer_released, isDirectory_released, node?_released]
    exact h.pointer.imp_right fun ⟨hfirst, hnone, hdraft⟩ => ⟨hfirst, by rw [hnone]; rfl, hdraft⟩
  free n hn := by
    obtain ⟨m, hm, rfl⟩ := node?_of_released hn
    obtain ⟨bytes, holder, rfl⟩ := h.lock m hm
    exact ⟨bytes, rfl⟩

end Disk

end Codebook
