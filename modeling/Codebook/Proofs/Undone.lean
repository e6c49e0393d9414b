/-
# Rebuilds that fail

A rebuild of an index makes a generation beside the live one, fills it, and turns the pointer to it.
Up to that moment all that it does is hidden from the live generation, whatever is asked of the index
meanwhile. If it fails, the generation is removed, and what is left is what the requests alone would
have left, but for the number of failures and of holders of locks.

Key definitions: `Index.rebuildMask`, `Mask.undone`, `Moment.fault?`, `Moment.asked`, `Mask.Interrupts`.
Key theorems: `Index.Kept.covers_begun`, `Mask.Covers.abandonRebuild`, `Mask.Covers.finishRebuild`,
`Mask.Covers.fill`.
-/
import Codebook.Proofs.Kept

namespace Codebook

open IndexDirectory

/-! ### The beginning -/

namespace IndexDirectory

variable {d d' : Disk} {dir : IndexDirectory} {n : Nat}

/-- The name of an index matters only if its pointer cannot be read. -/
theorem readPointer_name {path : Path} {name : String} {found : Option Nat}
    (h : readPointer path name d = .ok found) (name' : String) :
    readPointer path name' d = .ok found := by
  unfold readPointer at h ⊢
  cases hnode : d.node? (path ++ [pointerName]) with
  | none => simpa [hnode] using h
  | some n =>
    cases htext : d.text? (path ++ [pointerName]) with
    | none => simp [hnode, htext] at h
    | some s =>
      cases hnumber : generationNumber? (Text.trim s) with
      | none => simp [hnode, htext, hnumber] at h
      | some k => simpa [hnode, htext, hnumber] using h

end IndexDirectory

/-- Where all holders were counted the numbers of none are greater. -/
theorem Disk.Counted.node {m : Mask} {d : Disk} (h : d.Counted) (hm : d.holders ≤ m.first) (q : Path) :
    (d.node? q).map m.node = d.node? q := by
  cases hq : d.node? q with
  | none => rfl
  | some n => cases n with
    | directory => rfl
    | generation g => rfl
    | file bytes holder => cases holder with
      | none => rfl
      | some k =>
        have hk : k < m.first := (h q bytes k hq).trans_le hm
        simp [Mask.holder, hk]

namespace Index

variable {i i' : Index} {d d' : Disk} {l l' : Live} {w : Writer}

/-- What a rebuild of an index that is kept makes different. -/
def rebuildMask (d : Disk) (l : Live) (hmax : l.directory.current < Number.maxNat64) : Mask where
  first := d.holders
  extra := 1
  hidden := some {
    path := l.directory.path
    number := l.directory.current + 1
    countable := hmax
    holder := d.holders }

theorem Kept.nextNumber (h : Kept i d l) : l.directory.nextNumber d = l.directory.current + 1 := by
  have hlast : ((l.directory.generations d).getLast?.getD 0) ≤ l.directory.current := by
    cases hlast : (l.directory.generations d).getLast? with
    | none => exact Nat.zero_le _
    | some n => exact (h.mem_generations_iff (List.mem_of_getLast? hlast)).le
  rw [IndexDirectory.nextNumber, max_eq_right hlast]

/-- The name of the next generation is free. -/
theorem Kept.node?_next (h : Kept i d l) (hmax : l.directory.current < Number.maxNat64) :
    d.node? (l.directory.generationPath (l.directory.current + 1)) = none := by
  refine h.lone _ _ (generationNumber?_generationName hmax) fun hname => ?_
  exact absurd (generationName_injective hname) (by omega)

theorem Kept.effect_create (h : Kept i d l) (hmax : l.directory.current < Number.maxNat64) :
    effect l.directory.create d = (.ok (l.directory.current + 1),
      d.insert (l.directory.generationPath (l.directory.current + 1)) .directory) := by
  have hnode := h.node?_next hmax
  have hroot := h.isDirectory_root
  have hmake : d.makeDirectories (l.directory.generationPath (l.directory.current + 1)) =
      some (d.insert (l.directory.generationPath (l.directory.current + 1)) .directory) := by
    rw [generationPath, h.sound.makeDirectories_concat hroot, Disk.enter]
    rw [generationPath] at hnode
    rw [hnode]
  have hsync : (d.insert (l.directory.generationPath (l.directory.current + 1)) .directory).contains
      l.directory.path = true := by
    rw [Disk.contains, Disk.node?_insert_ne _ _ (by simp [generationPath]) (by simp [generationPath]),
      of_decide_eq_true hroot]
    rfl
  have hsteps : l.directory.createSteps d =
      [.makeDirectory (l.directory.generationPath (l.directory.current + 1)),
        .sync l.directory.path] := by
    simp [createSteps, h.nextNumber, Disk.contains, hnode]
  unfold create
  rw [effect_bind_ok (effect_presentDisk hroot), effect_bind, effect_perform, hsteps, h.nextNumber]
  simp only [Disk.runAll, DiskStep.run, hmake, hsync]
  rfl

/-- The content and the writer of a new generation are made where there is neither. -/
theorem effect_startBuilding {path : Path} {n : Nat} (hd : d.Sound) (hp : d.isDirectory path = true)
    (hcontent : d.node? (path ++ [contentName]) = none) (hlock : d.node? (path ++ [lockName]) = none)
    (hheap : i.config.heapPerThread < Config.maxWriterHeapBytes) :
    ∃ d', effect (startBuilding n path) (i, d) = (.ok ⟨n, ⟨path, d.holders, []⟩, []⟩, (i, d')) ∧
      d'.Sound ∧ d'.holders = d.holders + 1 ∧
      (∃ bytes, d'.node? (path ++ [lockName]) = some (.file bytes (some d.holders))) ∧
      ∀ q, path ++ [contentName] ≠ q → path ++ [lockName] ≠ q → d'.node? q = d.node? q := by
  have hne : ∀ x, path ++ [x] ≠ [] := by simp
  have hpar : ∀ x, d.isDirectory (Path.parent (path ++ [x])) = true := by simpa [Path.parent] using hp
  have hempty : d.isDirectory (path ++ [contentName]) = false := by simp [Disk.isDirectory, hcontent]
  have hpublish : (DiskStep.publish (path ++ [contentName]) i.emptyContent).run d =
      some (d.insert (path ++ [contentName]) (.generation i.emptyContent)) :=
    Disk.place_of_directory (hpar _) hempty
  have hother : ∀ q, path ++ [contentName] ≠ q →
      (d.insert (path ++ [contentName]) (.generation i.emptyContent)).node? q = d.node? q :=
    fun q hq => Disk.node?_insert_ne d _ (hne _) (Ne.symm hq)
  have hdirectory : (d.insert (path ++ [contentName]) (.generation i.emptyContent)).isDirectory path =
      true := by
    rw [Disk.isDirectory, hother path (by simp)]
    exact hp
  have hfree : (d.insert (path ++ [contentName]) (.generation i.emptyContent)).node?
      (path ++ [lockName]) = none := by
    rw [hother _ (file_ne contentName_ne_lockName _), hlock]
  obtain ⟨bytes, hwriter⟩ := effect_createWriter_free [] hdirectory (.inl hfree) hheap
  have hsound := (hd.insert (hne contentName) (hpar _) (.inr hempty)).insert
    (n := .file bytes (some d.holders)) (hne lockName) (by simpa [Path.parent] using hdirectory)
    (.inr (by simp [Disk.isDirectory, hfree]))
  refine ⟨_, ?_, hsound.count (d.holders + 1), rfl, ⟨bytes, Disk.node?_insert_self _ _ (hne _)⟩,
    fun q hq hq' => (Disk.node?_insert_ne _ _ (hne _) (Ne.symm hq')).trans (hother q hq)⟩
  have hcreate : effect (onDisk (createContent i path)) (i, d) = (.ok i.emptyContent,
      (i, d.insert (path ++ [contentName]) (.generation i.emptyContent))) := by
    rw [effect_onDisk]
    unfold createContent
    rw [effect_bind, effect_perform_one, hpublish]
    rfl
  unfold startBuilding
  rw [effect_bind_ok (effect_current i d), effect_bind_ok hcreate, effect_bind, effect_onDisk, hwriter]
  rfl

/-- A rebuild of an open index makes the next generation, and changes nothing else on the disk. -/
theorem Kept.effect_beginRebuild (h : Kept i d l) (hready : i.isReady = true)
    (hmax : l.directory.current < Number.maxNat64) :
    ∃ d', effect beginRebuild (i, d) = (.ok ⟨l.directory.current + 1,
        ⟨l.directory.generationPath (l.directory.current + 1), d.holders, []⟩, []⟩,
        ({ i with journal := some [] }, d')) ∧
      d'.Sound ∧ d'.holders = d.holders + 1 ∧
      (∃ bytes, d'.node? (l.directory.generationPath (l.directory.current + 1) ++ [lockName]) =
        some (.file bytes (some d.holders))) ∧
      ∀ q, ¬ l.directory.generationPath (l.directory.current + 1) <+: q → d'.node? q = d.node? q := by
  have hnode := h.node?_next hmax
  have hbelow : ∀ x, d.node? (l.directory.generationPath (l.directory.current + 1) ++ [x]) = none :=
    fun x => h.sound.below hnode (List.prefix_append _ _)
  have hp : l.directory.generationPath (l.directory.current + 1) ≠ [] := by simp [generationPath]
  have hparent : d.isDirectory (Path.parent (l.directory.generationPath (l.directory.current + 1))) =
      true := by
    simpa [Path.parent, generationPath] using h.isDirectory_root
  have hmade := Disk.node?_insert_self d .directory hp
  have hother : ∀ q, l.directory.generationPath (l.directory.current + 1) ≠ q →
      (d.insert (l.directory.generationPath (l.directory.current + 1)) .directory).node? q = d.node? q :=
    fun q hq => Disk.node?_insert_ne d _ hp (Ne.symm hq)
  obtain ⟨d', hstart, hsound, hholders, hlock, hkeep⟩ := effect_startBuilding
    (i := { i with journal := some [] }) (n := l.directory.current + 1)
    (h.sound.insert (n := .directory) hp hparent (.inl rfl)) (decide_eq_true hmade)
    ((hother _ (by simp)).trans (hbelow _)) ((hother _ (by simp)).trans (hbelow _)) h.heap
  refine ⟨d', ?_, hsound, hholders, hlock, fun q hq => ?_⟩
  · have hlive : ({ i with journal := some [] } : Index).live = some l := h.live hready
    have hjournal : effect startJournal (i, d) = (.ok (), ({ i with journal := some [] }, d)) := by
      unfold startJournal
      rw [effect_bind_ok (effect_current i d), isRebuilding, h.journal]
      rfl
    have hcreate : effect (onDisk l.directory.create) ({ i with journal := some [] }, d) =
        (.ok (l.directory.current + 1), ({ i with journal := some [] },
          d.insert (l.directory.generationPath (l.directory.current + 1)) .directory)) := by
      rw [effect_onDisk, h.effect_create hmax]
    unfold Index.beginRebuild
    rw [effect_bind_ok hjournal, effect_tryCatch, effect_bind_ok (effect_liveDirectory hlive),
      effect_bind_ok hcreate, effect_tryCatch, hstart]
    rfl
  · rw [hkeep q (fun he => hq (he ▸ List.prefix_append _ _)) (fun he => hq (he ▸ List.prefix_append _ _)),
      hother q fun he => hq (he ▸ List.prefix_rfl)]

theorem mem_rebuildMask {hmax : l.directory.current < Number.maxNat64} {x : Hidden}
    (hx : x ∈ (rebuildMask d l hmax).hidden) :
    x = ⟨l.directory.path, l.directory.current + 1, hmax, d.holders, false⟩ :=
  (Option.some.inj hx).symm

/-- An index of which a rebuild has begun differs in its journal only. -/
theorem Kept.alike_begun (h : Kept i d l) (hready : i.isReady = true)
    (hmax : l.directory.current < Number.maxNat64) :
    Alike (rebuildMask d l hmax) { i with journal := some [] } i := by
  obtain ⟨w, hs⟩ := h.serving hready
  exact {
    schema := rfl
    config := rfl
    priority := rfl
    writer := by
      obtain ⟨bytes, hheld⟩ := hs.lock
      have hsame : (rebuildMask d l hmax).writer w = w := by
        simp [Mask.writer, Mask.holder, rebuildMask, h.counted _ _ _ hheld]
      rw [hs.writer, Option.map_some, hsame]
    live := rfl
    journal := fun hm => by simp [rebuildMask] at hm
    idle := fun _ => h.journal
    statistics := rfl
    path := fun x hx => by rw [mem_rebuildMask hx, h.root]
    current := fun x hx l' hl' => by
      obtain rfl := Option.some.inj (hs.live.symm.trans hl')
      rw [mem_rebuildMask hx]
      exact ⟨rfl, by simp⟩
    written := fun x hx w' hw' => by
      obtain rfl := Option.some.inj (hs.writer.symm.trans hw')
      rw [mem_rebuildMask hx]
      exact ⟨l.directory.current, by simp, hs.path⟩ }

/-- **A rebuild begins.** Only the new generation and its writer come to what there was. -/
theorem Kept.covers_begun (h : Kept i d l) (hready : i.isReady = true)
    (hmax : l.directory.current < Number.maxNat64) (hsound : d'.Sound)
    (hholders : d'.holders = d.holders + 1)
    (hlock : ∃ bytes, d'.node? (l.directory.generationPath (l.directory.current + 1) ++ [lockName]) =
      some (.file bytes (some d.holders)))
    (hother : ∀ q, ¬ l.directory.generationPath (l.directory.current + 1) <+: q →
      d'.node? q = d.node? q) :
    (rebuildMask d l hmax).Covers ({ i with journal := some [] }, d') (i, d) where
  index := h.alike_begun hready hmax
  disk := {
    sound := hsound
    sound' := h.sound
    first := Nat.le_refl _
    holders := hholders
    counted := h.counted
    node := fun q hq => by
      rw [h.counted.node (Nat.le_refl _), hother q]
      exact fun hroot => hq ⟨_, rfl, hroot⟩
    beside := fun x hx => by
      have hnext : ∀ name, generationNumber? name = some (l.directory.current + 1) →
          d.node? (l.directory.path ++ [name]) = none := fun name hname =>
        h.lone name _ hname fun he => absurd (number_of_generationName (he ▸ hname)) (by omega)
      obtain ⟨n, hn, hread⟩ := h.pointer
      rw [mem_rebuildMask hx]
      exact {
        bare := hnext _ (generationNumber?_generationName hmax)
        apart := fun name hname => by rw [hnext name hname]; simp
        pointer := ⟨l.directory.current, by simp, readPointer_name (hread h.countable)⟩
        room := .inr ⟨rfl, hlock⟩ } }

end Index

/-! ### The generation alone -/

/-- What is different once the rebuild has failed. -/
def Mask.undone (m : Mask) : Mask :=
  { m with hidden := none, failures := m.failures + 1 }

namespace Disk

variable {m : Mask} {x : Hidden} {d d' e : Disk} {p q : Path}

/-- Work within the generation that is being filled makes no difference elsewhere. -/
theorem Alike.within (h : Alike m d e) (hx : x ∈ m.hidden) (hd' : d'.Sound)
    (hholders : d'.holders = d.holders) (hother : ∀ q, ¬ x.root <+: q → d'.node? q = d.node? q)
    (hroom : d'.node? x.root = none ∨ x.removed = false ∧
      ∃ bytes, d'.node? (x.root ++ [lockName]) = some (.file bytes (some x.holder))) :
    Alike m d' e where
  sound := hd'
  sound' := h.sound'
  first := h.first
  holders := hholders.trans h.holders
  counted := h.counted
  node q hq := by rw [hother q fun hroot => hq ⟨x, hx, hroot⟩, h.node q hq]
  beside y hy := by
    obtain rfl : y = x := Option.some.inj (hy.symm.trans hx)
    exact { h.beside y hy with room := hroom }

/-- Its content can be written, or it is not there any more. -/
theorem Alike.place_content (h : Alike m d e) (hx : x ∈ m.hidden) {g : Generation}
    (hplace : DiskStep.place d (x.root ++ [contentName]) (.generation g) = some d') : Alike m d' e := by
  obtain ⟨hp, -, -, rfl⟩ := place_some hplace
  refine h.within hx (h.sound.place hplace) rfl (fun q hq => ?_) ?_
  · exact node?_insert_ne d _ hp fun he => hq (he ▸ List.prefix_append _ _)
  · rw [node?_insert_ne d _ hp (by simp), node?_insert_ne d _ hp
      (file_ne contentName_ne_lockName.symm _)]
    exact (h.beside x hx).room

/-- Nobody is kept from letting a lock go. -/
theorem Sound.unlock (hd : d.Sound) (p : Path) (k : Nat) : ∃ d', (DiskStep.unlock p k).run d = some d' ∧
    d'.Sound ∧ d'.holders = d.holders ∧ ∀ q, p ≠ q → d'.node? q = d.node? q := by
  have hsame : ∃ d', some d = some d' ∧ d'.Sound ∧ d'.holders = d.holders ∧
      ∀ q, p ≠ q → d'.node? q = d.node? q := ⟨d, rfl, hd, rfl, fun _ _ => rfl⟩
  simp only [DiskStep.run]
  split
  · rename_i bytes holder hnode
    split_ifs
    · have hp : p ≠ [] := by
        rintro rfl
        simp at hnode
      have hnot : d.isDirectory p = false := by simp [isDirectory, hnode]
      have hpar := hd.parent hnode
      exact ⟨_, place_of_directory hpar hnot, hd.insert hp hpar (.inr hnot), rfl,
        fun q hq => node?_insert_ne d _ hp (Ne.symm hq)⟩
    · exact hsame
  · exact hsame

/-- The generation is given up. -/
theorem Alike.discard (h : Alike m d e) (hx : x ∈ m.hidden) (k : Nat) :
    ∃ d', (DiskStep.unlock (x.root ++ [lockName]) k).run d = some d' ∧
      Alike m.undone (d'.runAll [.removeDirectory x.root]).2 e := by
  obtain ⟨d', hrun, hsound, hholders, hother⟩ := h.sound.unlock (x.root ++ [lockName]) k
  refine ⟨d', hrun, ?_⟩
  have hroot : d'.node? x.root = d.node? x.root := hother _ (by simp)
  -- what is left has nothing where the generation was, and all else as it was
  obtain ⟨d'', hd'', hsound'', hholders'', hgone, helse⟩ : ∃ d'', (d'.runAll [.removeDirectory x.root]).2 =
      d'' ∧ d''.Sound ∧ d''.holders = d.holders ∧ (∀ q, x.root <+: q → d''.node? q = none) ∧
      ∀ q, ¬ x.root <+: q → d''.node? q = d.node? q := by
    have helse : ∀ q, ¬ x.root <+: q → d'.node? q = d.node? q := fun q hq =>
      hother q fun he => hq (he ▸ List.prefix_append _ _)
    refine ⟨_, rfl, hsound.runAll, ?_⟩
    by_cases hdirectory : d'.isDirectory x.root = true
    · simp only [Disk.runAll, DiskStep.run, hdirectory, if_true]
      refine ⟨hholders, fun q hq => ?_, fun q hq => ?_⟩
      · have hne : q ≠ [] := by
          rintro rfl
          simp [Hidden.root] at hq
        rw [node?_erase, if_neg hne, if_pos hq]
      · rw [node?_erase_outside hq, helse q hq]
    · simp only [Disk.runAll, DiskStep.run, hdirectory]
      refine ⟨hholders, fun q hq => hsound.below ?_ hq, helse⟩
      refine hroot.trans ((h.beside x hx).room.resolve_right fun hroom => hdirectory ?_)
      obtain ⟨-, bytes, hlock⟩ := hroom
      have hpar := h.sound.parent hlock
      rw [Path.parent, List.dropLast_concat] at hpar
      rw [Disk.isDirectory, hroot]
      exact hpar
  rw [hd'']
  exact {
    sound := hsound''
    sound' := h.sound'
    first := h.first
    holders := hholders''.trans h.holders
    counted := h.counted
    node := fun q _ => by
      by_cases hq : x.root <+: q
      · rw [hgone q hq, h.sound'.below (h.beside x hx).bare hq]
        rfl
      · rw [helse q hq]
        refine h.node q ?_
        rintro ⟨y, hy, hroot'⟩
        obtain rfl : y = x := Option.some.inj (hy.symm.trans hx)
        exact hq hroot'
    beside := fun y hy => by simp [Mask.undone] at hy }

end Disk

namespace IndexDirectory

variable {d d' : Disk} {path : Path} {n : Nat}

/-- A pointer that can be read is a file. -/
theorem pointer_of_read {name : String} {c : Nat} (h : readPointer path name d = .ok (some c)) :
    ∃ bytes holder, d.node? (path ++ [pointerName]) = some (.file bytes holder) := by
  unfold readPointer at h
  cases hnode : d.node? (path ++ [pointerName]) with
  | none => simp [hnode] at h
  | some n => cases n with
    | file bytes holder => exact ⟨bytes, holder, rfl⟩
    | directory => simp [hnode, Disk.text?, Disk.bytes?] at h
    | generation g => simp [hnode, Disk.text?, Disk.bytes?] at h

theorem effect_readContent_state (path : Path) (d : Disk) :
    effect (Index.readContent path) d = ((effect (Index.readContent path) d).1, d) := by
  unfold Index.readContent
  rw [effect_bind_ok (effect_get d)]
  cases d.node? (path ++ [contentName]) with
  | none => rfl
  | some n => cases n <;> rfl

/-- Turning the pointer succeeds once the new one is drafted. -/
theorem runAll_pointerSteps (hpath : d.isDirectory path = true)
    (hpointer : d.isDirectory (path ++ [pointerName]) = false)
    (hwrite : ((DiskStep.write (path ++ [draftName])
      (generationName n ++ "\n").toUTF8.toList).run d).isSome) :
    (d.runAll (pointerSteps path n)).1 = true := by
  obtain ⟨d₁, hwrite⟩ := Option.isSome_iff_exists.mp hwrite
  have hne : path ++ [draftName] ≠ path ++ [pointerName] := by simp [draftName, pointerName]
  obtain ⟨holder₁, hplace⟩ : ∃ holder₁, DiskStep.place d (path ++ [draftName])
      (.file (generationName n ++ "\n").toUTF8.toList holder₁) = some d₁ := by
    simp only [DiskStep.run] at hwrite
    split at hwrite <;> exact ⟨_, hwrite⟩
  have hdraft := Disk.node?_place_self hplace
  have hother : ∀ q, path ++ [draftName] ≠ q → d₁.node? q = d.node? q := fun q => Disk.node?_place hplace
  have herased : ∀ q, ¬ path ++ [draftName] <+: q →
      (d₁.erase (path ++ [draftName])).node? q = d.node? q := fun q hq => by
    rw [Disk.node?_erase_outside hq, hother q fun he => hq (he ▸ List.prefix_rfl)]
  have hrename : (DiskStep.rename (path ++ [draftName]) (path ++ [pointerName])).run d₁ =
      some ((d₁.erase (path ++ [draftName])).insert (path ++ [pointerName])
        (.file (generationName n ++ "\n").toUTF8.toList holder₁)) := by
    rw [DiskStep.run, hdraft]
    refine Disk.place_of_directory ?_ ?_
    · rw [Path.parent, List.dropLast_concat, Disk.isDirectory, herased path fun hq => by
        simpa using hq.length_le]
      exact hpath
    · rw [Disk.isDirectory, herased _ fun hq => hne (hq.eq_of_length (by simp))]
      exact hpointer
  have hsync : ((d₁.erase (path ++ [draftName])).insert (path ++ [pointerName])
      (.file (generationName n ++ "\n").toUTF8.toList holder₁)).contains path = true := by
    rw [Disk.contains, Disk.node?_insert_ne _ _ (by simp) (by simp), herased path fun hq => by
      simpa using hq.length_le, of_decide_eq_true hpath]
    rfl
  have hfirst : (DiskStep.sync (path ++ [draftName])).run d₁ = some d₁ := by
    rw [DiskStep.run, Disk.contains, hdraft]
    rfl
  have hlast : (DiskStep.sync path).run ((d₁.erase (path ++ [draftName])).insert
      (path ++ [pointerName]) (.file (generationName n ++ "\n").toUTF8.toList holder₁)) =
        some ((d₁.erase (path ++ [draftName])).insert (path ++ [pointerName])
          (.file (generationName n ++ "\n").toUTF8.toList holder₁)) := by
    rw [DiskStep.run, hsync]
    rfl
  simp only [pointerSteps, Disk.runAll, hwrite, hfirst, hrename, hlast]

/-- So turning it can fail at its first step only. -/
theorem pointerSteps_fail (hd : d.Sound) {bytes : List UInt8} {holder : Option Nat}
    (hpointer : d.node? (path ++ [pointerName]) = some (.file bytes holder))
    (hfail : (d.runAll (pointerSteps path n)).1 = false) : (d.runAll (pointerSteps path n)).2 = d := by
  cases hwrite : (DiskStep.write (path ++ [draftName]) (generationName n ++ "\n").toUTF8.toList).run d with
  | none => rw [pointerSteps, Disk.runAll, hwrite]
  | some d₁ =>
    have hpath : d.isDirectory path = true := by simpa [Path.parent] using hd.parent hpointer
    rw [runAll_pointerSteps hpath (by simp [Disk.isDirectory, hpointer]) (by rw [hwrite]; rfl)] at hfail
    simp at hfail

theorem swap_fails {dir : IndexDirectory} {e : IndexError} (hd : d.Sound)
    (hpointer : ∃ bytes holder, d.node? (dir.path ++ [pointerName]) = some (.file bytes holder))
    (hfail : effect (dir.swap n) d = (.error e, d')) : d' = d := by
  obtain ⟨bytes, holder, hpointer⟩ := hpointer
  unfold swap at hfail
  rw [effect_bind_ok (effect_get d)] at hfail
  split at hfail
  · rcases bind_error hfail with hthrow | ⟨_, _, hthrow, -⟩
    · exact (Prod.mk.inj hthrow).2.symm
    · simp at hthrow
  · rcases bind_error hfail with hperform | ⟨_, _, -, hpure⟩
    · rw [effect_perform] at hperform
      split_ifs at hperform with hdone
      · simp at hperform
      · rw [← (Prod.mk.inj hperform).2]
        exact pointerSteps_fail hd hpointer (by simpa using hdone)
    · simp at hpure

end IndexDirectory

theorem Disk.Alike.pointer_file {m : Mask} {x : Hidden} {d e : Disk} {path : Path} (h : Disk.Alike m d e)
    (hx : x ∈ m.hidden) (hpath : path = x.path) :
    ∃ bytes holder, d.node? (path ++ [pointerName]) = some (.file bytes holder) := by
  obtain ⟨c, -, hread⟩ := (h.beside x hx).pointer
  have hsame : ∀ y ∈ m.hidden, y.path = path := fun y hy => by
    rw [Option.some.inj (hy.symm.trans hx), hpath]
  have hfound : IndexDirectory.readPointer path "" d = .ok (some c) := by
    rw [h.readPointer_path hsame, hpath, hread]
  exact pointer_of_read hfound

namespace Mask.Covers

open Index

variable {m : Mask} {x : Hidden} {s s' t : Index × Disk} {w v : Writer} {e : IndexError} {α : Type}

/-- What a writer of the generation writes makes no difference elsewhere. -/
theorem applyTo (h : m.Covers s t) (hx : x ∈ m.hidden) (hw : w.path = x.root) (changes : List Change) :
    m.Covers (effect (applyTo w changes) s).2 t := by
  obtain ⟨i, d⟩ := s
  rw [effect_applyTo]
  simp only
  split
  · rename_i d' hplace
    exact ⟨h.index, h.disk.place_content hx (hw ▸ hplace)⟩
  · exact h

theorem commitBuilding (h : m.Covers s t) (hx : x ∈ m.hidden) {b : Building}
    (hb : b.writer.path = x.root) : m.Covers (effect (commitBuilding b) s).2 t :=
  h.applyTo (w := { b.writer with documents := b.documents }) hx hb []

theorem replay (h : m.Covers s t) (hx : x ∈ m.hidden) (hw : w.path = x.root) (journal : List Change) :
    m.Covers (effect (replay w journal) s).2 t := by
  unfold Index.replay
  split_ifs
  · exact h
  · exact h.applyTo hx hw journal

/-- A rebuild that is given up leaves nothing but counters. -/
theorem abandonRebuild (h : m.Covers s t) (hx : x ∈ m.hidden) {b : Building}
    (hb : b.writer.path = x.root) (e : IndexError) :
    ∃ s', effect (abandonRebuild b e : IndexM α) s = (.error e, s') ∧ m.undone.Covers s' t := by
  obtain ⟨i, d⟩ := s
  have hidden : m.hidden ≠ none := fun hm => by simp [hm] at hx
  obtain ⟨d', hunlock, halike⟩ := h.disk.discard hx b.writer.holder
  have hrelease : effect (onDisk (perform IndexError.io (Writer.releaseSteps b.writer))) (i, d) =
      (.ok (), (i, d')) := by
    rw [effect_onDisk, Writer.releaseSteps, hb, effect_perform_one, hunlock]
  have hdiscard : effect (Index.discard b.writer.path) (i, d') =
      (.ok (), (i, (d'.runAll [.removeDirectory b.writer.path]).2)) := by
    unfold Index.discard
    rw [effect_onDisk]
    rfl
  refine ⟨({ i with journal := none, statistics := i.statistics.recordError },
    (d'.runAll [.removeDirectory b.writer.path]).2), ?_, ?_, ?_⟩
  · unfold Index.abandonRebuild
    rw [effect_bind_ok hrelease, effect_bind_ok hdiscard]
    rfl
  · exact { h.index with
      journal := fun _ => (h.index.idle hidden).symm
      idle := fun hm => absurd rfl hm
      statistics := by
        show i.statistics.recordError = _
        rw [h.index.statistics]
        rfl
      path := by simp [Mask.undone]
      current := by simp [Mask.undone]
      written := by simp [Mask.undone] }
  · rw [hb]
    exact halike

/-- The swap fails only before the pointer is turned. -/
theorem swapIn (h : m.Covers s t) (hx : x ∈ m.hidden) (hv : v.path = x.root) {n : Nat}
    (hfail : effect (swapIn n v) s = (.error e, s')) : m.Covers s' t := by
  obtain ⟨i, d⟩ := s
  have hidden : m.hidden ≠ none := fun hm => by simp [hm] at hx
  unfold Index.swapIn at hfail
  have htake : effect takeJournal (i, d) = (.ok (i.journal.getD []), ({ i with journal := none }, d)) := by
    unfold takeJournal
    rw [effect_bind_ok (effect_current i d), effect_bind_ok (effect_update _ i d)]
    rfl
  rw [effect_bind_ok htake] at hfail
  have h₁ : m.Covers ({ i with journal := none }, d) t :=
    ⟨{ h.index with journal := fun hm => absurd hm hidden }, h.disk⟩
  have h₂ := h₁.replay hx hv (i.journal.getD [])
  rcases bind_error hfail with hreplay | ⟨v', ⟨i₂, d₂⟩, hreplay, hrest⟩
  · rwa [hreplay] at h₂
  rw [hreplay] at h₂
  clear hfail hreplay htake
  -- reading changes nothing
  rcases bind_error hrest with hread | ⟨g, ⟨i₃, d₃⟩, hread, hswap⟩
  · rw [effect_onDisk, effect_readContent_state] at hread
    exact (Prod.mk.inj hread).2 ▸ h₂
  obtain ⟨rfl, hread'⟩ := onDisk_run hread
  obtain ⟨rfl, -⟩ := effect_readContent_ok hread'
  clear hrest hread hread'
  rcases Option.eq_none_or_eq_some i₃.live with hl | ⟨l, hl⟩
  · have hclosed : effect liveDirectory (i₃, d₃) = (.error (.closed i₃.name), (i₃, d₃)) := by
      unfold liveDirectory
      rw [effect_bind_ok (effect_current i₃ d₃), hl]
      rfl
    rw [effect_bind_error hclosed] at hswap
    exact (Prod.mk.inj hswap).2 ▸ h₂
  rw [effect_bind_ok (effect_liveDirectory hl)] at hswap
  rcases bind_error hswap with hturn | ⟨dir, ⟨i₄, d₄⟩, hturn, hend⟩
  · obtain ⟨i', d'⟩ := s'
    obtain ⟨rfl, hturn'⟩ := onDisk_run hturn
    have hpath : l.directory.path = x.path := (h₂.index.current x hx l (h₂.index.live ▸ hl)).1
    rw [swap_fails h₂.disk.sound (h₂.disk.pointer_file hx hpath) hturn']
    exact h₂
  -- once the pointer is turned nothing fails any more
  exfalso
  obtain ⟨rfl, hturn'⟩ := onDisk_run hturn
  have hsound : d₄.Sound := by
    have hrun := (swap_ok hturn').2
    have hafter : (d₃.runAll (pointerSteps l.directory.path n)).2.Sound := h₂.disk.sound.runAll
    rwa [hrun] at hafter
  rw [effect_bind_ok (effect_current _ _), effect_bind_ok (effect_update _ _ _)] at hend
  cases hw : i₄.writer with
  | none =>
    rw [hw] at hend
    simp at hend
  | some w =>
    rw [hw] at hend
    obtain ⟨d₅, hunlock, -⟩ := hsound.unlock (w.path ++ [lockName]) w.holder
    simp only at hend
    rw [effect_bind, effect_onDisk, Writer.releaseSteps, effect_perform_one, hunlock] at hend
    simp at hend

theorem commitBuilding_path {b : Building} (h : effect (Index.commitBuilding b) s = (.ok v, s')) :
    v.path = b.writer.path := by
  obtain ⟨i, d⟩ := s
  obtain ⟨i', d'⟩ := s'
  obtain ⟨-, hv, -⟩ := applyTo_ok h
  rw [hv]

/-- **A rebuild that fails at its end** leaves nothing but counters either. -/
theorem finishRebuild (h : m.Covers s t) (hx : x ∈ m.hidden) {b : Building}
    (hb : b.writer.path = x.root) (hfail : effect (finishRebuild b) s = (.error e, s')) :
    m.undone.Covers s' t := by
  have hremoves : ∀ n u, ∃ u', effect (removeRetired n) u = (.ok (), u') := fun n u => by
    unfold removeRetired
    rw [effect_tryCatch]
    split
    · exact ⟨_, rfl⟩
    · exact ⟨_, rfl⟩
  unfold Index.finishRebuild at hfail
  rcases bind_error hfail with hswap | ⟨⟨old, documents⟩, ⟨i₁, d₁⟩, -, hend⟩
  · rw [effect_tryCatch] at hswap
    split at hswap
    · simp at hswap
    · rename_i e₁ s₁ hfirst
      have h₁ : m.Covers s₁ t := by
        have hcommit := h.commitBuilding hx hb
        rcases bind_error hfirst with hfirst | ⟨v, s₂, hcommitted, hrest⟩
        · rwa [hfirst] at hcommit
        · rw [hcommitted] at hcommit
          have hv : v.path = x.root := (commitBuilding_path hcommitted).trans hb
          exact Covers.swapIn hcommit hx hv hrest
      obtain ⟨s₂, habandon, h₂⟩ := h₁.abandonRebuild (α := Nat × Nat) hx hb e₁
      rw [habandon] at hswap
      exact (Prod.mk.inj hswap).2 ▸ h₂
  · obtain ⟨⟨i₂, d₂⟩, hretired⟩ := hremoves old (i₁, d₁)
    simp only at hend
    rw [effect_bind_ok hretired, effect_bind_ok (effect_update _ i₂ d₂)] at hend
    simp at hend

end Mask.Covers

/-! ### Filling -/

section

variable {α : Type} [Indexed α] {m : Mask} {x : Hidden} {s t : Index × Disk} {l : Live}

/-- The first fault of the pages: one does not come, or an entity on it cannot be encoded. -/
def Moment.fault? (s : Schema) : List (Moment α) → Option IndexError
  | [] => none
  | .page (.error e) :: _ => some (.storage e)
  | .page (.ok as) :: moments =>
    match as.mapM (Document.encode s) with
    | .error e => some e
    | .ok _ => fault? s moments
  | .request _ :: moments => fault? s moments

/-- What is asked of the index up to the first fault of the pages. -/
def Moment.asked (s : Schema) : List (Moment α) → List Request
  | [] => []
  | .page (.error _) :: _ => []
  | .page (.ok as) :: moments =>
    match as.mapM (Document.encode s) with
    | .error _ => []
    | .ok _ => asked s moments
  | .request r :: moments => r :: asked s moments

theorem Index.effect_addPages_error (b : Building) (e : StoreError)
    (pages : List (Except StoreError (List α))) (s : Index × Disk) :
    effect (addPages b (.error e :: pages)) s = (.error (.storage e), s) := rfl

theorem Index.effect_addPages (b : Building) (as : List α) (pages : List (Except StoreError (List α)))
    (s : Index × Disk) : effect (addPages b (.ok as :: pages)) s =
      match as.mapM (Document.encode s.1.schema) with
      | .error e => (.error e, s)
      | .ok ds => effect (addPages (b.add ds) pages) s := by
  obtain ⟨i, d⟩ := s
  have hadd : effect (addEntities b as) (i, d) = match as.mapM (Document.encode i.schema) with
      | .error e => (.error e, (i, d))
      | .ok ds => (.ok (b.add ds), (i, d)) := by
    unfold addEntities
    rw [effect_bind_ok (effect_current i d), effect_bind, effect_lift]
    cases as.mapM (Document.encode i.schema) <;> rfl
  have hpage : effect (addPages b (.ok as :: pages)) (i, d) =
      effect (addEntities b as >>= fun b => addPages b pages) (i, d) := rfl
  rw [hpage, effect_bind, hadd]
  cases as.mapM (Document.encode i.schema) <;> rfl

theorem Request.effect_attempt (r : Request) (s : Index × Disk) :
    effect (r.attempt α) s = (.ok (), r.after α s) := by
  unfold Request.attempt Request.after
  rw [effect_tryCatch, effect_bind]
  rcases effect (r.work α) s with ⟨_ | _, u⟩ <;> rfl

theorem Mask.Covers.after (h : m.Covers s t) (r : Request) : m.Covers (r.after α s) (r.after α t) :=
  (r.tandem (α := α) s t h).same.2

/-- The index was closed meanwhile: it still is, or the generation was removed when it was opened
again. -/
def Mask.Interrupts (m : Mask) (s t : Index × Disk) : Prop :=
  t.1.isReady = false ∨ m.swept.Covers s t

/-- A rebuild that was interrupted stays so. -/
theorem Mask.Interrupts.after (h : m.Interrupts s t) (hcovers : m.Covers s t)
    (hkept : t.1.Kept t.2 l) (r : Request) : m.Interrupts (r.after α s) (r.after α t) := by
  rcases h with hclosed | hswept
  · obtain ⟨l', hprogress⟩ := hkept.request (α := α) r
    by_cases hopen : r = .open
    · subst hopen
      refine .inr ?_
      obtain ⟨w, d', hreopen, -⟩ := hkept.effect_open hclosed
      have hends := Index.leads_open s t ⟨hcovers, (hkept.closed hclosed).1⟩
      have hafter : ∀ u : Index × Disk, Request.after α u .open = (effect Index.open u).2 :=
        fun u => Index.effect_done _ _ u
      rw [hafter, hafter]
      rw [show effect Index.open t = _ from hreopen] at hends ⊢
      generalize effect Index.open s = a at hends ⊢
      cases hends with
      | ok _ hq => exact hq
    · refine .inl (hprogress.ready.trans ?_)
      rw [show t.1.isReady = false from hclosed]
      cases r <;> first | rfl | exact absurd rfl hopen
  · exact .inr (hswept.after r)

theorem Mask.Interrupts.close (hkept : t.1.Kept t.2 l) (s : Index × Disk) :
    m.Interrupts s (Request.after α t .close) := by
  obtain ⟨l', hprogress⟩ := hkept.request (α := α) .close
  exact .inl hprogress.ready

/-- **The generation is filled** up to the first fault, and requests are answered as without the
rebuild. -/
theorem Mask.Covers.fill : ∀ (moments : List (Moment α)) {b : Building} {s t : Index × Disk} {l : Live},
    m.Covers s t → t.1.Kept t.2 l → ∃ s',
      m.Covers s' (Request.afterAll α t (Moment.asked t.1.schema moments)) ∧
      (m.Interrupts s t ∨ .close ∈ Moment.asked t.1.schema moments →
        m.Interrupts s' (Request.afterAll α t (Moment.asked t.1.schema moments))) ∧
      match Moment.fault? t.1.schema moments with
      | none => ∃ b', b'.writer = b.writer ∧ b'.number = b.number ∧
        effect (Index.fill b moments) s = (.ok b', s')
      | some e => effect (Index.fill b moments) s = (.error e, s')
  | [], b, s, t, l, h, _ =>
    ⟨s, h, fun hi => hi.resolve_right (by simp [Moment.asked]), b, rfl, rfl, rfl⟩
  | .page (.error e) :: moments, b, s, t, l, h, _ =>
    ⟨s, h, fun hi => hi.resolve_right (by simp [Moment.asked]),
      effect_bind_error (Index.effect_addPages_error b e [] s) _⟩
  | .page (.ok as) :: moments, b, s, t, l, h, hkept => by
    have hadd := Index.effect_addPages b as [] s
    rw [h.index.schema] at hadd
    unfold Moment.asked Moment.fault?
    cases has : as.mapM (Document.encode t.1.schema) with
    | error e =>
      rw [has] at hadd
      exact ⟨s, h, fun hi => hi.resolve_right (by simp), effect_bind_error hadd _⟩
    | ok ds =>
      rw [has] at hadd
      obtain ⟨s', hcovers, hinterrupts, hresult⟩ := Mask.Covers.fill moments (b := b.add ds) h hkept
      have hfill : effect (Index.fill b (.page (.ok as) :: moments)) s =
          effect (Index.fill (b.add ds) moments) s := effect_bind_ok hadd _
      rw [hfill]
      exact ⟨s', hcovers, hinterrupts, hresult⟩
  | .request r :: moments, b, s, t, l, h, hkept => by
    obtain ⟨l', hprogress⟩ := hkept.request (α := α) r
    obtain ⟨s', hcovers, hinterrupts, hresult⟩ :=
      Mask.Covers.fill moments (b := b) (h.after (α := α) r) hprogress.kept
    have hschema : (r.after α t).1.schema = t.1.schema := (Prod.mk.inj hprogress.settings).1
    rw [hschema] at hcovers hinterrupts hresult
    refine ⟨s', hcovers, fun hi => hinterrupts ?_, ?_⟩
    · rcases hi with hi | hi
      · exact .inl (hi.after h hkept r)
      · rcases List.mem_cons.mp hi with rfl | hi
        · exact .inl (.close hkept _)
        · exact .inr hi
    · have hfill : effect (Index.fill b (.request r :: moments)) s =
          effect (Index.fill b moments) (r.after α s) := effect_bind_ok (r.effect_attempt s) _
      rw [hfill]
      exact hresult

end

end Codebook
