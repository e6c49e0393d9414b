/-
# What a disk holds

Whoever opens the directory of an index goes by what is on the disk: the generation that the pointer
names is the live one, and all others are left over. A disk holds an index with a content if an opening
would find that content. Nothing that is done beside the live generation changes this, however far it
gets; only the moment in which the pointer gets its name does.

Key definitions: `Disk.Orderly`, `Disk.Stores`, `Disk.Holds`, `IndexDirectory.Beside`,
`IndexDirectory.Aside`, `IndexDirectory.OnLock`, `Keeps`.
Key theorems: `Disk.Holds.beside`, `Disk.Holds.onLock`, `Disk.Holds.turn`, `Keeps.bind`,
`Disk.Holds.runAll_pointerSteps`.
-/
import Codebook.Proofs.Medium

namespace Codebook

open IndexDirectory

/-! ### What a disk holds -/

namespace Disk

/-- What is named like a generation in a directory is one, and nothing but directories lies on the way
to it. -/
structure Orderly (d : Disk) (path : Path) : Prop where
  sound : d.Sound
  tidy : d.Tidy path
  way : ∀ q n, q <+: path → d.node? q = some n → n = .directory

/-- A generation with its content. An empty content may not be written yet. -/
structure Stores (d : Disk) (dir : IndexDirectory) (g : Generation) : Prop where
  countable : dir.current ≤ Number.maxNat64
  content : d.node? (dir.currentPath ++ [contentName]) = some (.generation g) ∨
    g.documents = [] ∧ d.node? (dir.currentPath ++ [contentName]) = none
  lock : ∀ n, d.node? (dir.currentPath ++ [lockName]) = some n → ∃ bytes holder, n = .file bytes holder

/-- An opening finds this generation with this content. In a directory without a pointer that is the
first one. -/
structure Holds (d : Disk) (dir : IndexDirectory) (g : Generation) : Prop extends
    Orderly d dir.path, Stores d dir g where
  pointer : readPointer dir.path dir.name d = .ok (some dir.current) ∨
    dir.current = 1 ∧ d.node? (dir.path ++ [pointerName]) = none ∧
      d.isDirectory (dir.path ++ [draftName]) = false

end Disk

/-! ### What is done beside the live generation -/

namespace IndexDirectory

/-- Steps that do nothing to the live generation, nor to the pointer. -/
inductive Beside (dir : IndexDirectory) : DiskStep → Prop where
  | enter : Beside dir (.makeDirectory dir.path)
  | make (n : Nat) : Beside dir (.makeDirectory (dir.generationPath n))
  | remove {n : Nat} (hn : n ≠ dir.current) : Beside dir (.removeDirectory (dir.generationPath n))
  | sync (path : Path) : Beside dir (.sync path)
  | publish {n : Nat} (hn : n ≠ dir.current) (g : Generation) :
      Beside dir (.publish (dir.generationPath n ++ [contentName]) g)
  | lock {n : Nat} (hn : n ≠ dir.current) (holder : Nat) :
      Beside dir (.lock (dir.generationPath n ++ [lockName]) holder)
  | unlock {n : Nat} (hn : n ≠ dir.current) (holder : Nat) :
      Beside dir (.unlock (dir.generationPath n ++ [lockName]) holder)
  | draft (bytes : List UInt8) : Beside dir (.write (dir.path ++ [draftName]) bytes)

/-- What such steps leave, one after the other, however far each of them gets. -/
inductive Aside (dir : IndexDirectory) : Disk → Disk → Prop where
  | refl (d : Disk) : Aside dir d d
  | step {d d₁ d₂ : Disk} {step : DiskStep} (h : Aside dir d d₁) (hb : Beside dir step)
      (hl : step.Leaves d₁ d₂) : Aside dir d d₂

/-- Steps that do something to the lock of the live generation. -/
inductive OnLock (dir : IndexDirectory) : DiskStep → Prop where
  | take (holder : Nat) : OnLock dir (.lock (dir.currentPath ++ [lockName]) holder)
  | leave (holder : Nat) : OnLock dir (.unlock (dir.currentPath ++ [lockName]) holder)
  | clear : OnLock dir (.removeFile (dir.currentPath ++ [lockName]))

/-- The paths to which nothing happens beside the live generation. -/
structure Apart (dir : IndexDirectory) (q : Path) : Prop where
  above : ∀ n, ¬ q <+: dir.generationPath n
  within : ∀ n, n ≠ dir.current → ¬ dir.generationPath n <+: q
  draft : dir.path ++ [draftName] ≠ q

variable {dir : IndexDirectory} {step : DiskStep} {d d' : Disk} {q : Path} {n : Nat} {x : String}

theorem path_prefix_generationPath (dir : IndexDirectory) (n : Nat) :
    dir.path <+: dir.generationPath n := List.prefix_append _ _

theorem not_child_prefix : ¬ dir.path ++ [x] <+: dir.path := fun h => by simpa using h.length_le

theorem not_file_prefix {k : Nat} : ¬ dir.generationPath n ++ [x] <+: dir.generationPath k := fun h => by
  simpa [generationPath] using h.length_le

theorem name_of_above (h : dir.path ++ [x] <+: dir.generationPath n) : x = generationName n := by
  have := h.eq_of_length (by simp [generationPath])
  simpa [generationPath] using this

theorem apart_pointer (dir : IndexDirectory) : dir.Apart (dir.path ++ [pointerName]) where
  above n h := generationName_ne_pointer n (name_of_above h).symm
  within _ _ := not_prefix_pointer
  draft := file_ne (by decide) _

theorem apart_current (dir : IndexDirectory) (x : String) : dir.Apart (dir.currentPath ++ [x]) where
  above _ := not_file_prefix
  within _ hn := not_prefix_generationPath hn
  draft := file_ne_child.symm

namespace Beside

/-- What is apart stays as it is, also if the step fails on the way. -/
theorem apart (hb : dir.Beside step) (hq : dir.Apart q) (hl : step.Leaves d d') :
    d'.node? q = d.node? q := by
  rcases hl.found q with hsame | halters
  · exact hsame
  · cases hb with
    | enter => exact absurd (halters.1.trans (path_prefix_generationPath dir 0)) (hq.above 0)
    | make n => exact absurd halters.1 (hq.above n)
    | remove hn => exact absurd halters.1 (hq.within _ hn)
    | sync => exact halters.elim
    | publish hn | lock hn | unlock hn =>
      exact absurd (halters.1 ▸ List.prefix_append _ _) (hq.within _ hn)
    | draft => exact absurd halters.1 hq.draft

theorem orderly (hb : dir.Beside step) (h : d.Orderly dir.path) (hl : step.Leaves d d') :
    d'.Orderly dir.path where
  sound := hl.sound h.sound
  tidy name k node hname hnode := by
    rcases hl.found (dir.path ++ [name]) with hsame | halters
    · exact h.tidy name k node hname (hsame ▸ hnode)
    · rw [hnode] at halters
      cases hb with
      | enter => exact absurd halters.1 not_child_prefix
      | make n =>
        obtain ⟨hpre, -, hmade⟩ := halters
        obtain rfl := name_of_above hpre
        exact ⟨Option.some.inj hmade, by rw [number_of_generationName hname]⟩
      | remove => simp [DiskStep.Alters] at halters
      | sync => exact halters.elim
      | publish | lock | unlock => exact absurd halters.1 file_ne_child
      | draft => exact absurd halters.1 (file_ne (ne_of_numbered hname).2.symm _)
  way q node hq hnode := by
    rcases hl.found q with hsame | halters
    · exact h.way q node hq (hsame ▸ hnode)
    · rw [hnode] at halters
      cases hb with
      | enter | make => exact Option.some.inj halters.2.2
      | remove => simp [DiskStep.Alters] at halters
      | sync => exact halters.elim
      | publish | lock | unlock =>
        have hlength := (halters.1 ▸ hq).length_le
        simp [generationPath] at hlength
      | draft => exact absurd (halters.1 ▸ hq) not_child_prefix

/-- A draft of the pointer is a file. -/
theorem drafted (hb : dir.Beside step) (h : d.isDirectory (dir.path ++ [draftName]) = false)
    (hl : step.Leaves d d') : d'.isDirectory (dir.path ++ [draftName]) = false := by
  rcases hl.found (dir.path ++ [draftName]) with hsame | halters
  · rwa [Disk.isDirectory, hsame]
  · cases hb with
    | enter => exact absurd halters.1 not_child_prefix
    | make n => exact absurd (name_of_above halters.1).symm (generationName_ne_draft n)
    | remove => simp [Disk.isDirectory, halters.2]
    | sync => exact halters.elim
    | publish | lock | unlock => exact absurd halters.1 file_ne_child
    | draft =>
      obtain ⟨-, bytes, holder, hfile⟩ := halters
      simp [Disk.isDirectory, hfile]

theorem stores {g : Generation} (hb : dir.Beside step) (h : d.Stores dir g) (hl : step.Leaves d d') :
    d'.Stores dir g where
  countable := h.countable
  content := by
    rw [hb.apart (apart_current dir _) hl]
    exact h.content
  lock n hn := h.lock n (hb.apart (apart_current dir _) hl ▸ hn)

end Beside

/-- Only the lock changes. -/
theorem OnLock.found (ho : dir.OnLock step) (hl : step.Leaves d d') (q : Path) :
    d'.node? q = d.node? q ∨ dir.currentPath ++ [lockName] <+: q ∧
      ∀ n, d'.node? q = some n → ∃ bytes holder, n = .file bytes holder := by
  refine (hl.found q).imp_right fun halters => ?_
  cases ho with
  | take | leave =>
    obtain ⟨rfl, bytes, holder, hfile⟩ := halters
    exact ⟨List.prefix_rfl, fun n hn => ⟨bytes, holder, Option.some.inj (hn.symm.trans hfile)⟩⟩
  | clear => exact ⟨halters.1, fun n hn => by simp [halters.2] at hn⟩

end IndexDirectory

namespace Disk

variable {d d' : Disk} {dir : IndexDirectory} {g g' : Generation} {step : DiskStep} {n : Nat}

/-- **What is done beside the live generation changes nothing**, however far it gets. -/
theorem Holds.beside (h : d.Holds dir g) (hb : dir.Beside step) (hl : step.Leaves d d') :
    d'.Holds dir g where
  toOrderly := hb.orderly h.toOrderly hl
  toStores := hb.stores h.toStores hl
  pointer := by
    have hsame := hb.apart (apart_pointer dir) hl
    rw [readPointer_congr hsame, hsame]
    exact h.pointer.imp_right fun ⟨hfirst, hnone, hdraft⟩ => ⟨hfirst, hnone, hb.drafted hdraft hl⟩

theorem Holds.aside (h : d.Holds dir g) (ha : dir.Aside d d') : d'.Holds dir g := by
  induction ha with
  | refl => exact h
  | step _ hb hl ih => exact ih.beside hb hl

/-- Nor does what is done to its lock. -/
theorem Holds.onLock (h : d.Holds dir g) (ho : dir.OnLock step) (hl : step.Leaves d d') :
    d'.Holds dir g := by
  have hchild : ∀ x, d'.node? (dir.path ++ [x]) = d.node? (dir.path ++ [x]) := fun x =>
    (ho.found hl _).resolve_right fun ⟨hpre, _⟩ => by
      simpa [currentPath, generationPath] using hpre.length_le
  exact {
    sound := hl.sound h.sound
    tidy := h.tidy.congr fun name k _ => hchild name
    way := fun q node hq hnode => by
      rcases ho.found hl q with hsame | ⟨hpre, -⟩
      · exact h.way q node hq (hsame ▸ hnode)
      · have hlength := (hpre.trans hq).length_le
        simp [currentPath, generationPath] at hlength
    countable := h.countable
    content := by
      rcases ho.found hl (dir.currentPath ++ [contentName]) with hsame | ⟨hpre, -⟩
      · rw [hsame]
        exact h.content
      · have he := hpre.eq_of_length (by simp)
        exact absurd he (file_ne contentName_ne_lockName.symm _)
    lock := fun n hn => by
      rcases ho.found hl (dir.currentPath ++ [lockName]) with hsame | ⟨-, hfile⟩
      · exact h.lock n (hsame ▸ hn)
      · exact hfile n hn
    pointer := by
      rw [readPointer_congr (hchild _), hchild, Disk.isDirectory, hchild]
      exact h.pointer }

/-- Nor does writing its content. -/
theorem Holds.publish (h : d.Holds dir g)
    (hl : (DiskStep.publish (dir.currentPath ++ [contentName]) g).Leaves d d') : d'.Holds dir g := by
  have hother : ∀ q, dir.currentPath ++ [contentName] ≠ q → d'.node? q = d.node? q := fun q hq =>
    (hl.found q).resolve_right fun halters => hq halters.1
  have hchild : ∀ x, d'.node? (dir.path ++ [x]) = d.node? (dir.path ++ [x]) :=
    fun x => hother _ file_ne_child
  exact {
    sound := hl.sound h.sound
    tidy := h.tidy.congr fun name k _ => hchild name
    way := fun q node hq hnode => by
      refine h.way q node hq ((hother q ?_).symm.trans hnode)
      rintro rfl
      exact not_file_prefix (hq.trans (path_prefix_generationPath dir 0))
    countable := h.countable
    content := by
      rcases hl.found (dir.currentPath ++ [contentName]) with hsame | halters
      · rw [hsame]
        exact h.content
      · exact .inl halters.2
    lock := fun n hn => h.lock n (hother _ (file_ne contentName_ne_lockName _) ▸ hn)
    pointer := by
      rw [readPointer_congr (hchild _), hchild, Disk.isDirectory, hchild]
      exact h.pointer }

/-- Nor does it matter how many holders of locks there were. -/
theorem Holds.count (h : d.Holds dir g) (k : Nat) : ({ d with holders := k } : Disk).Holds dir g where
  sound := h.sound.count k
  tidy := h.tidy
  way := h.way
  countable := h.countable
  content := h.content
  lock := h.lock
  pointer := h.pointer

/-! ### The turn of the pointer -/

/-- When the pointer gets its name, another generation is found. -/
theorem Holds.turn (h : d.Holds dir g) (hs : d.Stores { dir with current := n } g') {holder : Option Nat}
    (hdraft : d.node? (dir.path ++ [draftName]) =
      some (.file (generationName n ++ "\n").toUTF8.toList holder))
    (hrun : (DiskStep.rename (dir.path ++ [draftName]) (dir.path ++ [pointerName])).run d = some d') :
    d'.Holds { dir with current := n } g' ∧ readPointer dir.path dir.name d' = .ok (some n) := by
  have hl : (DiskStep.rename (dir.path ++ [draftName]) (dir.path ++ [pointerName])).Leaves d d' :=
    .inl hrun
  have hother : ∀ q, ¬ dir.path ++ [draftName] <+: q → dir.path ++ [pointerName] ≠ q →
      d'.node? q = d.node? q := fun q hq hne =>
    (hl.found q).resolve_right fun halters => halters.elim (fun hpre => hq hpre.1) hne
  have hfile : ∀ x, d'.node? (dir.generationPath n ++ [x]) = d.node? (dir.generationPath n ++ [x]) :=
    fun x => hother _ not_draft_prefix file_ne_child.symm
  have hpointer : d'.node? (dir.path ++ [pointerName]) =
      some (.file (generationName n ++ "\n").toUTF8.toList holder) := by
    simp only [DiskStep.run, hdraft] at hrun
    exact node?_place_self hrun
  have hread : readPointer dir.path dir.name d' = .ok (some n) := readPointer_of_written hs.countable hpointer
  refine ⟨?_, hread⟩
  exact {
    sound := hl.sound h.sound
    tidy := h.tidy.congr fun name k hname => by
      obtain ⟨hpointer, hdraft⟩ := ne_of_numbered hname
      refine hother _ (fun hpre => hdraft ?_) (file_ne (Ne.symm hpointer) _)
      simpa using (hpre.eq_of_length (by simp)).symm
    way := fun q node hq hnode => by
      refine h.way q node hq ((hother q (fun hpre => not_child_prefix (hpre.trans hq)) ?_).symm.trans
        hnode)
      rintro rfl
      exact not_child_prefix hq
    countable := hs.countable
    content := by
      rw [show ({ dir with current := n } : IndexDirectory).currentPath = dir.generationPath n from rfl,
        hfile]
      exact hs.content
    lock := fun node hnode => hs.lock node ((hfile _).symm.trans hnode)
    pointer := .inl hread }

end Disk

/-! ### Work that keeps something -/

/-- Whatever the end of the work, the first holds after it if it held before, and the second of the value
with which it ends. -/
def Keeps {ε σ α : Type} (P : σ → Prop) (V : α → Prop) (x : ExceptT ε (StateM σ) α) : Prop :=
  ∀ s, P s → P (effect x s).2 ∧ ∀ a, (effect x s).1 = .ok a → V a

namespace Keeps

variable {ε σ α β : Type} {P : σ → Prop} {V : α → Prop} {W : β → Prop}

theorem pure {a : α} (ha : V a) : Keeps P V (Pure.pure a : ExceptT ε (StateM σ) α) :=
  fun _ h => ⟨h, fun _ hb => Except.ok.inj hb ▸ ha⟩

theorem throw (e : ε) : Keeps P V (MonadExcept.throw e : ExceptT ε (StateM σ) α) :=
  fun _ h => ⟨h, fun _ hb => by simp at hb⟩

theorem lift {r : Except ε α} (hr : ∀ a, r = .ok a → V a) :
    Keeps P V (liftM r : ExceptT ε (StateM σ) α) := fun s h => by
  rw [effect_lift]
  exact ⟨h, hr⟩

theorem mono {V' : α → Prop} {x : ExceptT ε (StateM σ) α} (hx : Keeps P V x) (h : ∀ a, V a → V' a) :
    Keeps P V' x := fun s hs => ⟨(hx s hs).1, fun a ha => h a ((hx s hs).2 a ha)⟩

theorem bind {x : ExceptT ε (StateM σ) α} {f : α → ExceptT ε (StateM σ) β} (hx : Keeps P V x)
    (hf : ∀ a, V a → Keeps P W (f a)) : Keeps P W (x >>= f) := by
  intro s hs
  obtain ⟨hfirst, hvalue⟩ := hx s hs
  rw [effect_bind]
  rcases hend : effect x s with ⟨e | a, t⟩ <;> rw [hend] at hfirst hvalue
  · exact ⟨hfirst, fun b hb => by simp at hb⟩
  · exact hf a (hvalue a rfl) t hfirst

theorem tryCatch {x : ExceptT ε (StateM σ) α} {handle : ε → ExceptT ε (StateM σ) α}
    (hx : Keeps P V x) (hf : ∀ e, Keeps P V (handle e)) : Keeps P V (MonadExcept.tryCatch x handle) := by
  intro s hs
  obtain ⟨hfirst, hvalue⟩ := hx s hs
  rw [effect_tryCatch]
  rcases hend : effect x s with ⟨e | a, t⟩ <;> rw [hend] at hfirst hvalue
  · exact hf e t hfirst
  · exact ⟨hfirst, hvalue⟩

end Keeps

section

variable {ε σ α β : Type} {m : Medium} {V : α → Prop} {W : β → Prop}

theorem keeps_steady {P : σ × Nat → Prop} {work : ExceptT ε (StateM σ) α}
    (h : ∀ n, Keeps (fun s => P (s, n)) V work) : Keeps P V (steady work) := by
  rintro ⟨s, n⟩ hs
  rw [effect_steady]
  exact h n s hs

theorem keeps_reach {P : (Index × Disk) × Nat → Prop} {work : TriedM ε Disk α}
    (h : ∀ i, Keeps (fun s => P ((i, s.1), s.2)) V work) : Keeps P V (reach work) := by
  rintro ⟨⟨i, d⟩, n⟩ hs
  rw [effect_reach]
  exact h i (d, n) hs

theorem effect_read (s : σ) (n : Nat) :
    effect (steady get : TriedM ε σ σ) (s, n) = (.ok s, (s, n)) := by
  rw [effect_steady]
  rfl

/-- Reading changes nothing, and what follows knows what was read. -/
theorem keeps_read {P : σ × Nat → Prop} {f : σ → TriedM ε σ β}
    (h : ∀ s n, P (s, n) → P (effect (f s) (s, n)).2 ∧ ∀ b, (effect (f s) (s, n)).1 = .ok b → W b) :
    Keeps P W (steady get >>= f) := by
  rintro ⟨s, n⟩ hs
  rw [effect_bind_ok (effect_read s n)]
  exact h s n hs

namespace Medium

theorem leaves (m : Medium) (n : Nat) (d : Disk) (step : DiskStep) :
    step.Leaves d (m.run n d step).2 := by
  rcases hrun : m.run n d step with ⟨_ | _, d'⟩
  · exact .inr (m.torn hrun)
  · exact .inl (m.done hrun)

theorem runAll_cons {P : Disk → Prop} {step : DiskStep} {steps : List DiskStep} {d : Disk} {n : Nat}
    (hfirst : P (m.run n d step).2) (hrest : ∀ d', P d' → P (m.runAll (n + 1) d' steps).2.1) :
    P (m.runAll n d (step :: steps)).2.1 := by
  rw [runAll]
  rcases hrun : m.run n d step with ⟨_ | _, d'⟩ <;> rw [hrun] at hfirst
  · exact hfirst
  · exact hrest d' hfirst

theorem runAll_keeps {P : Disk × Nat → Prop} : ∀ {steps : List DiskStep},
    (∀ step ∈ steps, ∀ d n, P (d, n) → P ((m.run n d step).2, n + 1)) →
      ∀ {d n}, P (d, n) → P (m.runAll n d steps).2
  | [], _, _, _, hp => hp
  | step :: steps, h, d, n, hp => by
    have hstep := h step List.mem_cons_self d n hp
    rw [runAll]
    rcases hrun : m.run n d step with ⟨_ | _, d'⟩ <;> rw [hrun] at hstep
    · exact hstep
    · exact runAll_keeps (fun s hs => h s (List.mem_cons_of_mem _ hs)) hstep

theorem node?_runAll {steps : List DiskStep} {d : Disk} {q : Path} {node : Node} (n : Nat)
    (hq : d.node? q = some node) (hh : ∀ step ∈ steps, ¬ step.harms q) :
    (m.runAll n d steps).2.1.node? q = some node :=
  runAll_keeps (P := fun s => s.1.node? q = some node)
    (fun step hstep d n hd => (m.leaves n d step).keep hd (hh step hstep)) hq

theorem keeps_perform {P : Disk × Nat → Prop} {failure : ε} {steps : List DiskStep}
    (h : ∀ step ∈ steps, ∀ d n, P (d, n) → P ((m.run n d step).2, n + 1)) :
    Keeps P (fun _ => True) (m.perform failure steps) := by
  rintro ⟨d, n⟩ hp
  rw [effect_perform]
  exact ⟨runAll_keeps h hp, fun _ _ => trivial⟩

end Medium

end

/-! ### Turning the pointer on a medium -/

namespace Disk

variable {m : Medium} {d d' : Disk} {dir : IndexDirectory} {g g' : Generation} {n k k' : Nat}
  {ε : Type}

theorem node?_write {p : Path} {bytes : List UInt8} (h : (DiskStep.write p bytes).run d = some d') :
    ∃ holder, d'.node? p = some (.file bytes holder) := by
  simp only [DiskStep.run] at h
  split at h <;> exact ⟨_, node?_place_self h⟩

/-- **The turn of the pointer on a medium.** Unless the pointer got its name only steps beside the live
generation were done, and not all of them. If it did, the other generation is found; the only step that
can have failed then is the last one. -/
theorem Holds.runAll_pointerSteps {done : Bool} (h : d.Holds dir g)
    (hs : d.Stores { dir with current := n } g')
    (hrun : m.runAll k d (pointerSteps dir.path n) = (done, d', k')) :
    dir.Aside d d' ∧ done = false ∨ d'.Holds { dir with current := n } g' ∧
      readPointer dir.path dir.name d' = .ok (some n) ∧
      (done = false → ∃ k₁, k' = k₁ + 1 ∧ m.run k₁ d' (.sync dir.path) = (false, d')) := by
  have hdraft : dir.Beside _ := .draft (generationName n ++ "\n").toUTF8.toList
  have hdraft' : ({ dir with current := n } : IndexDirectory).Beside _ :=
    .draft (generationName n ++ "\n").toUTF8.toList
  rw [pointerSteps, Medium.runAll] at hrun
  rcases hwrite : m.run k d (.write (dir.path ++ [draftName]) (generationName n ++ "\n").toUTF8.toList)
    with ⟨_ | _, d₁⟩ <;> rw [hwrite] at hrun
  · obtain ⟨rfl, hstate⟩ := Prod.mk.inj hrun
    obtain ⟨rfl, -⟩ := Prod.mk.inj hstate
    exact .inl ⟨.step (.refl d) hdraft (.inr (m.torn hwrite)), rfl⟩
  have haside : dir.Aside d d₁ := .step (.refl d) hdraft (.inl (m.done hwrite))
  have h₁ := h.aside haside
  have hs₁ := hdraft'.stores hs (.inl (m.done hwrite))
  obtain ⟨holder, hfile⟩ := node?_write (m.done hwrite)
  simp only [Medium.runAll] at hrun
  rcases hsync : m.run (k + 1) d₁ (.sync (dir.path ++ [draftName])) with ⟨_ | _, d₂⟩ <;> rw [hsync] at hrun
  · obtain ⟨rfl, hstate⟩ := Prod.mk.inj hrun
    obtain ⟨rfl, -⟩ := Prod.mk.inj hstate
    exact .inl ⟨.step haside (.sync _) (.inr (m.torn hsync)), rfl⟩
  have hsame : d₂ = d₁ := by
    have hdone := m.done hsync
    simp only [DiskStep.run] at hdone
    split_ifs at hdone
    exact (Option.some.inj hdone).symm
  subst hsame
  simp only at hrun
  rcases hrename : m.run (k + 1 + 1) d₂ (.rename (dir.path ++ [draftName]) (dir.path ++ [pointerName]))
    with ⟨_ | _, d₃⟩ <;> rw [hrename] at hrun
  · obtain ⟨rfl, hstate⟩ := Prod.mk.inj hrun
    obtain ⟨rfl, -⟩ := Prod.mk.inj hstate
    cases m.torn hrename
    exact .inl ⟨haside, rfl⟩
  obtain ⟨h₃, hread⟩ := h₁.turn hs₁ hfile (m.done hrename)
  simp only at hrun
  rcases hlast : m.run (k + 1 + 1 + 1) d₃ (.sync dir.path) with ⟨_ | _, d₄⟩ <;> rw [hlast] at hrun
  · obtain ⟨rfl, hstate⟩ := Prod.mk.inj hrun
    obtain ⟨rfl, rfl⟩ := Prod.mk.inj hstate
    cases m.torn hlast
    exact .inr ⟨h₃, hread, fun _ => ⟨_, rfl, hlast⟩⟩
  · obtain ⟨rfl, hstate⟩ := Prod.mk.inj hrun
    obtain ⟨rfl, -⟩ := Prod.mk.inj hstate
    have hdone := m.done hlast
    simp only [DiskStep.run] at hdone
    split_ifs at hdone
    obtain rfl := Option.some.inj hdone
    exact .inr ⟨h₃, hread, fun hfalse => by simp at hfalse⟩

end Disk

end Codebook
