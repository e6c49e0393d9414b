/-
# Disks that look alike

While a rebuild fills a generation, the disk differs from what it would be without the rebuild: there
is one more generation beside the live one, and one more holder of a lock was counted, so that the
holders that come later have other numbers. A step that leaves the generation alone, done on both
disks, succeeds on both or fails on both, and they differ in nothing else afterwards.

Key definitions: `Hidden`, `Mask`, `Mask.Spares`, `Disk.Counted`, `Disk.Alike`.
Key theorems: `Disk.Alike.run`, `Disk.Alike.runAll`, `Disk.Alike.lock`, `Disk.Alike.erase_hidden`.
-/
import Codebook.Proofs.Serving

namespace Codebook

open IndexDirectory

/-! ### What differs -/

/-- A generation that is being filled beside the live one. -/
structure Hidden where
  /-- The directory of the index. -/
  path : Path
  /-- The number of the generation. -/
  number : Nat
  /-- The number can be counted. -/
  countable : number ≤ Number.maxNat64
  /-- Who its writer is to its lock. -/
  holder : Nat
  /-- Whether it was removed for certain, before it was finished. -/
  removed : Bool := false

namespace Hidden

variable {h : Hidden} {c : Nat} {q : Path}

/-- The directory of the generation. -/
def root (h : Hidden) : Path :=
  h.path ++ [generationName h.number]

/-- The paths that work beside the generation leaves alone: what belongs to it, the pointer, and all
names under which it might be listed. -/
def Guards (h : Hidden) (q : Path) : Prop :=
  h.root <+: q ∨
    ∃ name, q = h.path ++ [name] ∧ (name = pointerName ∨ generationNumber? name = some h.number)

/-- Other generations are not guarded. -/
theorem not_guards_beside (hc : c ≠ h.number) (hq : h.path ++ [generationName c] <+: q) :
    ¬ h.Guards q := by
  rintro (hroot | ⟨name, rfl, hname⟩)
  · have hsame : h.path ++ [generationName c] = h.root :=
      (List.prefix_of_prefix_length_le hq hroot (by simp [root])).eq_of_length (by simp [root])
    exact hc (generationName_injective (by simpa [root] using hsame))
  · obtain rfl : generationName c = name := by
      simpa using (hq.eq_of_length (by simp) : h.path ++ [generationName c] = h.path ++ [name])
    rcases hname with hname | hname
    · exact generationName_ne_pointer c hname
    · exact hc (number_of_generationName hname).symm

/-- Nor is the directory of the index, or what lies above it. -/
theorem not_guards_above (hq : q <+: h.path) : ¬ h.Guards q := by
  have hlength := hq.length_le
  rintro (hroot | ⟨name, rfl, -⟩)
  · have hlonger := hroot.length_le
    rw [root, List.length_append, List.length_singleton] at hlonger
    omega
  · rw [List.length_append, List.length_singleton] at hlength
    omega

end Hidden

/-- What a rebuild makes different, for as long as it is under way and after it failed. -/
structure Mask where
  /-- The first holder of a lock that has another number. -/
  first : Nat := 0
  /-- By how many the numbers of holders are greater from there on. -/
  extra : Nat := 0
  /-- The generation that is being filled. -/
  hidden : Option Hidden := none
  /-- How many more failures were counted. -/
  failures : Nat := 0

namespace Mask

variable {m : Mask}

/-- The number of a holder. -/
def holder (m : Mask) (n : Nat) : Nat :=
  if n < m.first then n else n + m.extra

theorem holder_le (n : Nat) : m.holder n ≤ n + m.extra := by
  unfold holder
  split_ifs <;> omega

theorem holder_injective {a b : Nat} (h : m.holder a = m.holder b) : a = b := by
  unfold holder at h
  split_ifs at h <;> omega

/-- A node with the number of the holder of its lock. -/
def node (m : Mask) : Node → Node
  | .file bytes (some n) => .file bytes (some (m.holder n))
  | n => n

@[simp] theorem node_directory : m.node .directory = .directory := rfl

@[simp] theorem node_generation (g : Generation) : m.node (.generation g) = .generation g := rfl

@[simp] theorem node_free (bytes : List UInt8) : m.node (.file bytes none) = .file bytes none := rfl

@[simp] theorem node_locked (bytes : List UInt8) (n : Nat) :
    m.node (.file bytes (some n)) = .file bytes (some (m.holder n)) := rfl

theorem node_injective : Function.Injective m.node := by
  intro a b h
  rcases a with _ | ⟨bytes, _ | j⟩ | g <;> rcases b with _ | ⟨bytes', _ | k⟩ | g' <;>
    simp_all [node]
  exact holder_injective h.2

@[simp] theorem node_eq_directory {n : Node} : m.node n = .directory ↔ n = .directory := by
  unfold node
  split <;> simp

/-- A step with the number of the holder that lets a lock go. -/
def step (m : Mask) : DiskStep → DiskStep
  | .unlock path n => .unlock path (m.holder n)
  | s => s

/-- The generation that is being filled was removed for certain. -/
def swept (m : Mask) : Mask :=
  { m with hidden := m.hidden.map fun h => { h with removed := true } }

/-- What belongs to the generation that is being filled. -/
def Hides (m : Mask) (q : Path) : Prop :=
  ∃ h ∈ m.hidden, h.root <+: q

/-- What the generation that is being filled has guarded. -/
def Guards (m : Mask) (q : Path) : Prop :=
  ∃ h ∈ m.hidden, h.Guards q

theorem not_hides {q : Path} (h : ¬ m.Guards q) : ¬ m.Hides q :=
  fun ⟨x, hx, hq⟩ => h ⟨x, hx, .inl hq⟩

theorem not_hides_parent {q : Path} (h : ¬ m.Guards q) : ¬ m.Hides q.parent :=
  fun ⟨x, hx, hq⟩ => h ⟨x, hx, .inl (hq.trans (List.dropLast_prefix _))⟩

/-- The steps that leave the generation alone that is being filled. Locks are taken by new writers
only, which have numbers of their own. -/
def Spares (m : Mask) : DiskStep → Prop
  | .makeDirectory path => ∀ q, q <+: path → ¬ m.Guards q
  | .removeDirectory path | .removeFile path => ∀ q, path <+: q → ¬ m.Guards q
  | .write path _ | .sync path | .publish path _ | .unlock path _ => ¬ m.Guards path
  | .rename source target => (∀ q, source <+: q → ¬ m.Guards q) ∧ ¬ m.Guards target
  | .lock _ _ => False

@[simp] theorem hides_swept {q : Path} : m.swept.Hides q ↔ m.Hides q := by
  simp [Hides, swept, Hidden.root]

@[simp] theorem guards_swept {q : Path} : m.swept.Guards q ↔ m.Guards q := by
  simp [Guards, swept, Hidden.Guards, Hidden.root]

/-- Steps that leave the generation alone do no harm to what it has guarded. -/
theorem Spares.not_harms {s : DiskStep} {q : Path} (h : m.Spares s) (hq : m.Guards q) :
    ¬ s.harms q := by
  cases s with
  | makeDirectory | sync => exact id
  | removeDirectory | removeFile => exact fun hp => h q hp hq
  | write | publish | unlock => exact fun hp => h (hp ▸ hq)
  | rename source target => exact fun hp => hp.elim (fun hp => h.1 q hp hq) fun hp => h.2 (hp ▸ hq)
  | lock => exact h.elim

/-- Without a generation that is being filled there is nothing to leave alone. -/
theorem not_guards (hm : m.hidden = none) (q : Path) : ¬ m.Guards q := by
  rintro ⟨x, hx, -⟩
  simp [hm] at hx

theorem spares_of_none (hm : m.hidden = none) {s : DiskStep} (hs : ∀ path n, s ≠ .lock path n) :
    m.Spares s := by
  cases s with
  | lock path n => exact absurd rfl (hs path n)
  | rename source target => exact ⟨fun _ _ => not_guards hm _, not_guards hm _⟩
  | makeDirectory | removeDirectory | removeFile => exact fun _ _ => not_guards hm _
  | write | sync | publish | unlock => exact not_guards hm _

theorem not_hides_none (hm : m.hidden = none) (q : Path) : ¬ m.Hides q :=
  not_hides (not_guards hm q)

end Mask

/-! ### The relation -/

/-- A generation that is being filled is on the first disk only, locked by its writer unless it was
removed. The pointer, which is on both, names another generation. -/
structure Hidden.Beside (h : Hidden) (d e : Disk) : Prop where
  bare : e.node? h.root = none
  apart : ∀ name, generationNumber? name = some h.number → e.node? (h.path ++ [name]) ≠ some .directory
  pointer : ∃ c, c ≠ h.number ∧ ∀ name, readPointer h.path name e = .ok (some c)
  room : d.node? h.root = none ∨ h.removed = false ∧
    ∃ bytes, d.node? (h.root ++ [lockName]) = some (.file bytes (some h.holder))

/-- What is guarded decides. -/
theorem Hidden.Beside.congr {h : Hidden} {d d' e e' : Disk} (hb : h.Beside d e)
    (hd : ∀ q, h.Guards q → d'.node? q = d.node? q) (he : ∀ q, h.Guards q → e'.node? q = e.node? q) :
    h.Beside d' e' where
  bare := by rw [he _ (.inl List.prefix_rfl), hb.bare]
  apart name hname := by
    rw [he _ (.inr ⟨name, rfl, .inr hname⟩)]
    exact hb.apart name hname
  pointer := by
    obtain ⟨c, hc, hread⟩ := hb.pointer
    exact ⟨c, hc, fun name =>
      (readPointer_congr (he _ (.inr ⟨_, rfl, .inl rfl⟩))).trans (hread name)⟩
  room := by
    rw [hd _ (.inl List.prefix_rfl), hd _ (.inl (List.prefix_append _ _))]
    exact hb.room

namespace Disk

variable {m : Mask} {d d' e e' : Disk} {p q : Path} {n : Node}

/-- The holders of all locks were counted. -/
def Counted (d : Disk) : Prop :=
  ∀ q bytes n, d.node? q = some (.file bytes (some n)) → n < d.holders

theorem counted_empty : Counted {} := by
  intro q bytes n hq
  by_cases hne : q = []
  · simp [hne] at hq
  · simp [node?, hne] at hq

/-- The disks are the same apart from what the mask covers. -/
structure Alike (m : Mask) (d e : Disk) : Prop where
  sound : d.Sound
  sound' : e.Sound
  first : m.first ≤ e.holders
  holders : d.holders = e.holders + m.extra
  counted : e.Counted
  node : ∀ q, ¬ m.Hides q → d.node? q = (e.node? q).map m.node
  beside : ∀ h ∈ m.hidden, h.Beside d e

namespace Alike

theorem isDirectory (h : Alike m d e) (hq : ¬ m.Hides q) : d.isDirectory q = e.isDirectory q := by
  unfold Disk.isDirectory
  rw [h.node q hq]
  cases e.node? q <;> simp

theorem contains (h : Alike m d e) (hq : ¬ m.Hides q) : d.contains q = e.contains q := by
  unfold Disk.contains
  rw [h.node q hq, Option.isSome_map]

theorem text? (h : Alike m d e) (hq : ¬ m.Hides q) : d.text? q = e.text? q := by
  unfold Disk.text? bytes?
  rw [h.node q hq]
  cases e.node? q with
  | none => rfl
  | some n => cases n with
    | directory => rfl
    | generation g => rfl
    | file bytes holder => cases holder <;> rfl

theorem readPointer (h : Alike m d e) {path : Path} (hq : ¬ m.Hides (path ++ [pointerName]))
    (name : String) : readPointer path name d = readPointer path name e := by
  unfold IndexDirectory.readPointer
  rw [h.text? hq, h.node _ hq]
  cases e.node? (path ++ [pointerName]) <;> rfl

/-- The pointer of the index does not belong to a generation. -/
theorem readPointer_path (h : Alike m d e) {path : Path} (hpath : ∀ x ∈ m.hidden, x.path = path)
    (name : String) :
    IndexDirectory.readPointer path name d = IndexDirectory.readPointer path name e := by
  refine h.readPointer ?_ name
  rintro ⟨x, hx, hroot⟩
  obtain rfl := hpath x hx
  have hsame := hroot.eq_of_length (by simp [Hidden.root])
  exact generationName_ne_pointer x.number (by simpa [Hidden.root] using hsame)

/-- Where nothing is hidden the holders of all locks were counted on the first disk, too. -/
theorem counted_left (h : Alike m d e) (hm : m.hidden = none) : d.Counted := by
  intro q bytes n hq
  rw [h.node q (Mask.not_hides_none hm q)] at hq
  obtain ⟨n', hn', hsame⟩ := Option.map_eq_some_iff.mp hq
  rcases n' with _ | ⟨bytes', _ | k⟩ | g
  · simp at hsame
  · simp at hsame
  · simp only [Mask.node_locked, Node.file.injEq, Option.some.injEq] at hsame
    have hk := h.counted q bytes' k hn'
    have hle := m.holder_le k
    rw [h.holders]
    omega
  · simp at hsame

/-! ### Steps -/

theorem insert (h : Alike m d e) (hp : p ≠ []) (hg : ¬ m.Guards p) (hpar : e.isDirectory p.parent = true)
    (hn : n = .directory ∨ e.isDirectory p = false)
    (hcount : ∀ bytes k, n = .file bytes (some k) → k < e.holders) :
    Alike m (d.insert p (m.node n)) (e.insert p n) where
  sound := by
    refine h.sound.insert hp ?_ (hn.imp (by rintro rfl; rfl) fun hn => ?_)
    · rw [h.isDirectory (Mask.not_hides_parent hg), hpar]
    · rw [h.isDirectory (Mask.not_hides hg), hn]
  sound' := h.sound'.insert hp hpar hn
  first := h.first
  holders := h.holders
  counted q bytes k hq := by
    rw [node?_insert e n hp] at hq
    split_ifs at hq
    · exact hcount bytes k (Option.some.inj hq)
    · exact h.counted q bytes k hq
  node q hq := by
    rw [node?_insert d _ hp, node?_insert e _ hp]
    split_ifs
    · rfl
    · exact h.node q hq
  beside x hx := (h.beside x hx).congr
    (fun q hq => node?_insert_ne d _ hp fun he => hg (he ▸ ⟨x, hx, hq⟩))
    fun q hq => node?_insert_ne e _ hp fun he => hg (he ▸ ⟨x, hx, hq⟩)

theorem erase (h : Alike m d e) (hg : ∀ q, p <+: q → ¬ m.Guards q) :
    Alike m (d.erase p) (e.erase p) where
  sound := h.sound.erase p
  sound' := h.sound'.erase p
  first := h.first
  holders := h.holders
  counted q bytes k hq := by
    rw [node?_erase] at hq
    split_ifs at hq
    · simp at hq
    · exact h.counted q bytes k hq
  node q hq := by
    rw [node?_erase, node?_erase]
    split_ifs
    · rfl
    · rfl
    · exact h.node q hq
  beside x hx := (h.beside x hx).congr
    (fun q hq => node?_erase_outside fun hp => hg q hp ⟨x, hx, hq⟩)
    fun q hq => node?_erase_outside fun hp => hg q hp ⟨x, hx, hq⟩

theorem place (h : Alike m d e) (hg : ¬ m.Guards p)
    (hcount : ∀ bytes k, n = .file bytes (some k) → k < e.holders) :
    Option.Rel (Alike m) (DiskStep.place d p (m.node n)) (DiskStep.place e p n) := by
  unfold DiskStep.place
  rw [h.isDirectory (Mask.not_hides_parent hg), h.isDirectory (Mask.not_hides hg)]
  split_ifs with hplace
  · simp only [Bool.and_eq_true, Bool.not_eq_true'] at hplace
    refine .some (h.insert ?_ hg hplace.1 (.inr hplace.2) hcount)
    rintro rfl
    simp at hplace
  · exact .none

theorem enter (h : Alike m d e) (hg : ¬ m.Guards p) (hpar : e.isDirectory p.parent = true) :
    Option.Rel (Alike m) (d.enter p) (e.enter p) := by
  unfold Disk.enter
  rw [h.node p (Mask.not_hides hg)]
  cases hnode : e.node? p with
  | none =>
    have hp : p ≠ [] := by
      rintro rfl
      simp at hnode
    exact .some (h.insert hp hg hpar (.inl rfl) fun _ _ hn => by simp at hn)
  | some n => cases n with
    | directory => exact .some h
    | generation g => exact .none
    | file bytes holder => cases holder <;> exact .none

theorem makeDirectories (h : Alike m d e) (hg : ∀ q, q <+: p → ¬ m.Guards q) :
    Option.Rel (Alike m) (d.makeDirectories p) (e.makeDirectories p) := by
  have hstations : ∀ k ≤ p.length, Option.Rel (Alike m)
      (((List.range (k + 1)).map p.take).foldlM Disk.enter d)
      (((List.range (k + 1)).map p.take).foldlM Disk.enter e) := by
    intro k
    induction k with
    | zero =>
      intro _
      have htop := h.enter (p := []) (hg [] List.nil_prefix) (by simp [Path.parent])
      simpa using htop
    | succ k ih =>
      intro hk
      have hbefore := ih (by omega)
      rw [List.range_succ, List.map_append, List.foldlM_append, List.foldlM_append]
      have hhere : ∀ e₁, ((List.range (k + 1)).map p.take).foldlM Disk.enter e = some e₁ →
          e₁.isDirectory (Path.parent (p.take (k + 1))) = true := by
        intro e₁ he
        have hpar : Path.parent (p.take (k + 1)) = p.take k := by
          rw [← List.take_append_getElem (by omega : k < p.length)]
          exact List.dropLast_concat
        rw [hpar, Disk.isDirectory, (foldlM_enter (by omega) he).1]
        simp
      generalize ((List.range (k + 1)).map p.take).foldlM Disk.enter d = made at hbefore ⊢
      generalize ((List.range (k + 1)).map p.take).foldlM Disk.enter e = made' at hbefore hhere ⊢
      cases hbefore with
      | none => exact .none
      | some halike =>
        simpa using halike.enter (hg _ (List.take_prefix (k + 1) p)) (hhere _ rfl)
  have hall := hstations p.length (Nat.le_refl _)
  rwa [makeDirectories_eq, makeDirectories_eq, Path.stations]

/-- **Steps that leave the generation alone do the same on both disks.** -/
theorem run (h : Alike m d e) {step : DiskStep} (hstep : m.Spares step) :
    Option.Rel (Alike m) ((m.step step).run d) (step.run e) := by
  cases step with
  | makeDirectory path => exact h.makeDirectories hstep
  | removeDirectory path =>
    simp only [Mask.step, DiskStep.run]
    rw [h.isDirectory (Mask.not_hides (hstep _ List.prefix_rfl))]
    split_ifs
    · exact .some (h.erase hstep)
    · exact .none
  | removeFile path =>
    have hvisible := Mask.not_hides (hstep _ List.prefix_rfl)
    simp only [Mask.step, DiskStep.run]
    rw [h.isDirectory hvisible, h.contains hvisible]
    split_ifs
    · exact .some (h.erase hstep)
    · exact .none
  | write path bytes =>
    simp only [Mask.step, DiskStep.run]
    rw [h.node path (Mask.not_hides hstep)]
    have hfree := h.place (n := .file bytes none) hstep (by simp)
    cases hnode : e.node? path with
    | none => exact hfree
    | some n => cases n with
      | directory => exact hfree
      | generation g => exact hfree
      | file old holder => cases holder with
        | none => exact hfree
        | some k =>
          refine h.place (n := .file bytes (some k)) hstep fun _ _ he => ?_
          simp only [Node.file.injEq, Option.some.injEq] at he
          exact he.2 ▸ h.counted path old k hnode
  | rename source target =>
    simp only [Mask.step, DiskStep.run]
    rw [h.node source (Mask.not_hides (hstep.1 _ List.prefix_rfl))]
    cases hnode : e.node? source with
    | none => exact .none
    | some n =>
      have hmoved := (h.erase hstep.1).place (n := n) hstep.2 fun bytes k he =>
        h.counted source bytes k (hnode.trans (congrArg some he))
      cases n with
      | directory => exact .none
      | generation g => exact hmoved
      | file bytes holder => cases holder <;> exact hmoved
  | sync path =>
    simp only [Mask.step, DiskStep.run]
    rw [h.contains (Mask.not_hides hstep)]
    split_ifs
    · exact .some h
    · exact .none
  | publish path g => exact h.place (n := .generation g) hstep (by simp)
  | lock path holder => exact hstep.elim
  | unlock path holder =>
    simp only [Mask.step, DiskStep.run]
    rw [h.node path (Mask.not_hides hstep)]
    cases hnode : e.node? path with
    | none => exact .some h
    | some n => cases n with
      | directory => exact .some h
      | generation g => exact .some h
      | file bytes held => cases held with
        | none => exact .some h
        | some k =>
          by_cases hk : k = holder
          · subst hk
            simpa using h.place (n := .file bytes none) hstep (by simp)
          · have hk' : m.holder k ≠ m.holder holder := fun he => hk (Mask.holder_injective he)
            simpa [hk, hk'] using h

theorem runAll : ∀ {steps : List DiskStep} {d e : Disk}, Alike m d e → (∀ s ∈ steps, m.Spares s) →
    (d.runAll (steps.map m.step)).1 = (e.runAll steps).1 ∧
      Alike m (d.runAll (steps.map m.step)).2 (e.runAll steps).2
  | [], _, _, h, _ => ⟨rfl, h⟩
  | s :: steps, d, e, h, hsteps => by
    have hrun := h.run (hsteps s List.mem_cons_self)
    rw [List.map_cons, Disk.runAll, Disk.runAll]
    generalize (m.step s).run d = after at hrun ⊢
    generalize s.run e = after' at hrun ⊢
    cases hrun with
    | none => exact ⟨rfl, h⟩
    | some h₁ => exact runAll h₁ fun s hs => hsteps s (List.mem_cons_of_mem _ hs)

theorem count (h : Alike m d e) :
    Alike m { d with holders := d.holders + 1 } { e with holders := e.holders + 1 } where
  sound := ⟨h.sound.nodup, h.sound.named, h.sound.inside⟩
  sound' := ⟨h.sound'.nodup, h.sound'.named, h.sound'.inside⟩
  first := Nat.le_succ_of_le h.first
  holders := by
    show d.holders + 1 = e.holders + 1 + m.extra
    rw [h.holders]
    omega
  counted q bytes n hq := Nat.lt_succ_of_lt (h.counted q bytes n hq)
  node := h.node
  beside x hx := (h.beside x hx).congr (fun _ _ => rfl) fun _ _ => rfl

/-- A lock is taken by new holders, each with the number that is next on its disk. -/
theorem lock (h : Alike m d e) (hg : ¬ m.Guards p) :
    Option.Rel (fun d' e' => Alike m { d' with holders := d.holders + 1 }
      { e' with holders := e.holders + 1 })
      ((DiskStep.lock p d.holders).run d) ((DiskStep.lock p e.holders).run e) := by
  have htake : ∀ bytes, Option.Rel (fun d' e' => Alike m { d' with holders := d.holders + 1 }
      { e' with holders := e.holders + 1 })
      (DiskStep.place d p (.file bytes (some d.holders)))
      (DiskStep.place e p (.file bytes (some e.holders))) := by
    intro bytes
    unfold DiskStep.place
    rw [h.isDirectory (Mask.not_hides_parent hg), h.isDirectory (Mask.not_hides hg)]
    split_ifs with hplace
    · simp only [Bool.and_eq_true, Bool.not_eq_true'] at hplace
      have hp : p ≠ [] := by
        rintro rfl
        simp at hplace
      have hnumber : m.holder e.holders = d.holders := by
        rw [Mask.holder, if_neg (Nat.not_lt.mpr h.first), h.holders]
      have htaken := h.count.insert (n := .file bytes (some e.holders)) hp hg hplace.1 (.inr hplace.2)
        fun _ k he => by
          simp only [Node.file.injEq, Option.some.injEq] at he
          exact he.2 ▸ Nat.lt_succ_self _
      rw [Mask.node_locked, hnumber] at htaken
      exact .some htaken
    · exact .none
  simp only [DiskStep.run]
  rw [h.node p (Mask.not_hides hg)]
  cases e.node? p with
  | none => exact htake []
  | some n => cases n with
    | directory => exact .none
    | generation g => exact .none
    | file bytes holder => cases holder with
      | none => exact htake bytes
      | some k => exact .none

/-! ### Removing the generation -/

theorem of_swept (h : Alike m.swept d e) : Alike m d e where
  sound := h.sound
  sound' := h.sound'
  first := h.first
  holders := h.holders
  counted := h.counted
  node q hq := h.node q (by simpa using hq)
  beside x hx := by
    obtain ⟨hbare, hapart, hpointer, hroom⟩ := h.beside { x with removed := true } (by
      simp [Mask.swept, Option.mem_def.mp hx])
    exact ⟨hbare, hapart, hpointer, .inl (hroom.resolve_right fun hroom => by simp at hroom)⟩

/-- The generation that is being filled is not there any more. -/
theorem swept (h : Alike m d e) (hgone : ∀ x ∈ m.hidden, d.node? x.root = none) :
    Alike m.swept d e where
  sound := h.sound
  sound' := h.sound'
  first := h.first
  holders := h.holders
  counted := h.counted
  node q hq := h.node q (by simpa using hq)
  beside x hx := by
    obtain ⟨y, hy, rfl⟩ := Option.map_eq_some_iff.mp hx
    obtain ⟨hbare, hapart, hpointer, -⟩ := h.beside y hy
    exact ⟨hbare, hapart, hpointer, .inl (hgone y hy)⟩

/-- The generation that is being filled is removed. -/
theorem erase_hidden (h : Alike m d e) {x : Hidden} (hx : x ∈ m.hidden) :
    Alike m.swept (d.erase x.root) e := by
  have hsame : ∀ y ∈ m.hidden, y = x := fun y hy => Option.some.inj (hy.symm.trans hx)
  have hgone : (d.erase x.root).node? x.root = none := by
    rw [node?_erase, if_neg (by simp [Hidden.root]), if_pos List.prefix_rfl]
  refine swept (m := m) ⟨h.sound.erase _, h.sound', h.first, h.holders, h.counted, fun q hq => ?_,
    fun y hy => ?_⟩ fun y hy => hsame y hy ▸ hgone
  · rw [node?_erase_outside fun hroot => hq ⟨x, hx, hroot⟩]
    exact h.node q hq
  · obtain ⟨hbare, hapart, hpointer, -⟩ := h.beside y hy
    exact ⟨hbare, hapart, hpointer, .inl (hsame y hy ▸ hgone)⟩

end Alike

/-- Where the generation that is being filled is not there any more, no path makes a difference. -/
theorem Alike.node_of_gone (h : Alike m d e) (hgone : ∀ x ∈ m.hidden, d.node? x.root = none) (q : Path) :
    d.node? q = (e.node? q).map m.node := by
  by_cases hq : m.Hides q
  · obtain ⟨x, hx, hroot⟩ := hq
    rw [h.sound.below (hgone x hx) hroot, h.sound'.below (h.beside x hx).bare hroot]
    rfl
  · exact h.node q hq

theorem Alike.node_of_gone_erase (h : Alike m d e) {x : Hidden} (hx : x ∈ m.hidden) (q : Path) :
    (d.erase x.root).node? q = (e.node? q).map m.node := by
  refine (h.erase_hidden hx).of_swept.node_of_gone (fun y hy => ?_) q
  obtain rfl : y = x := Option.some.inj (hy.symm.trans hx)
  rw [node?_erase, if_neg (by simp [Hidden.root]), if_pos List.prefix_rfl]

end Disk
end Codebook
