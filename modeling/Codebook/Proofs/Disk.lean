/-
# The disk, step by step

What a step leaves at each path. A disk is sound if each path is listed once and lies in a
directory; the empty disk is, and steps keep it so. On a sound disk a directory that is there
already is made without any change. What steps do not name, or lie above of, they leave alone.

Key definitions: `Disk.Sound`.
Key theorems: `Disk.node?_insert`, `Disk.node?_erase`, `Disk.Sound.run`, `Disk.Sound.runAll`,
`Disk.Sound.makeDirectories_self`, `Disk.mem_children`, `Disk.node?_runAll`, `Disk.node?_runAll_none`.
-/
import Codebook.Disk
import Mathlib.Data.List.Induction
import Mathlib.Data.List.Nodup
import Mathlib.Tactic.Common

namespace Codebook

theorem lookup_filter {α β : Type} [BEq α] [LawfulBEq α] (keep : α → Bool) (key : α) :
    ∀ entries : List (α × β), (entries.filter fun e => keep e.1).lookup key =
      if keep key then entries.lookup key else none
  | [] => by simp
  | (k, b) :: entries => by
    have ih := lookup_filter keep key entries
    by_cases hk : keep k
    · rw [List.filter_cons_of_pos (by simpa using hk), List.lookup_cons, List.lookup_cons, ih]
      by_cases he : key = k
      · subst he
        simp [hk]
      · simp only [beq_false_of_ne he]
    · rw [List.filter_cons_of_neg (by simpa using hk), List.lookup_cons, ih]
      by_cases he : key = k
      · subst he
        simp [hk]
      · simp only [beq_false_of_ne he]

theorem mem_of_lookup {α β : Type} [BEq α] [LawfulBEq α] {key : α} {b : β} {entries : List (α × β)}
    (h : entries.lookup key = some b) : (key, b) ∈ entries := by
  obtain ⟨l₁, l₂, rfl, -⟩ := List.lookup_eq_some_iff.mp h
  simp

theorem lookup_of_mem {α β : Type} [BEq α] [LawfulBEq α] {key : α} {b : β} :
    ∀ {entries : List (α × β)}, (entries.map Prod.fst).Nodup → (key, b) ∈ entries →
      entries.lookup key = some b
  | (k, c) :: entries, hd, h => by
    simp only [List.map_cons, List.nodup_cons] at hd
    rcases List.mem_cons.mp h with he | h
    · simp only [Prod.mk.injEq] at he
      simp [he.1, he.2]
    · have hne : key ≠ k := fun e => hd.1 (e ▸ List.mem_map_of_mem (f := Prod.fst) h)
      rw [List.lookup_cons, beq_false_of_ne hne]
      exact lookup_of_mem hd.2 h

namespace Disk

variable {d d' : Disk} {p q : Path} {n : Node}

/-! ### What is found after a change -/

@[simp] theorem node?_nil (d : Disk) : d.node? [] = some .directory := rfl

@[simp] theorem isDirectory_nil (d : Disk) : d.isDirectory [] = true := by simp [isDirectory]

theorem node?_insert (d : Disk) (n : Node) (hp : p ≠ []) (q : Path) :
    (d.insert p n).node? q = if q = p then some n else d.node? q := by
  unfold node? insert
  by_cases hq : q = []
  · subst hq
    simp [hp.symm]
  · rw [if_neg hq, if_neg hq, List.lookup_cons]
    by_cases he : q = p
    · simp [he]
    · have hkept := lookup_filter (fun x => x != p) q d.nodes
      simp only [he, if_false, beq_false_of_ne he]
      refine Eq.trans hkept ?_
      simp [he]

theorem node?_insert_self (d : Disk) (n : Node) (hp : p ≠ []) : (d.insert p n).node? p = some n := by
  rw [node?_insert d n hp, if_pos rfl]

theorem node?_insert_ne (d : Disk) (n : Node) (hp : p ≠ []) (hq : q ≠ p) :
    (d.insert p n).node? q = d.node? q := by
  rw [node?_insert d n hp, if_neg hq]

theorem node?_erase (d : Disk) (p q : Path) :
    (d.erase p).node? q = if q = [] then some .directory else if p <+: q then none else d.node? q := by
  unfold node? erase
  by_cases hq : q = []
  · simp [hq]
  · have hkept := lookup_filter (fun x => !p.isPrefixOf x) q d.nodes
    simp only [hq, if_false]
    refine Eq.trans hkept ?_
    by_cases hpre : p <+: q
    · have : p.isPrefixOf q = true := List.isPrefixOf_iff_prefix.mpr hpre
      simp [this, hpre]
    · have : p.isPrefixOf q = false := by
        rw [← Bool.not_eq_true, List.isPrefixOf_iff_prefix]
        exact hpre
      simp [this, hpre]

theorem node?_erase_outside (h : ¬ p <+: q) : (d.erase p).node? q = d.node? q := by
  rw [node?_erase]
  split_ifs with hq
  · simp [hq]
  · rfl

/-! ### Sound disks -/

/-- Each path is listed once, the top is not listed, and every path lies in a directory. -/
structure Sound (d : Disk) : Prop where
  nodup : (d.nodes.map Prod.fst).Nodup
  named : ∀ e ∈ d.nodes, e.1 ≠ []
  inside : ∀ e ∈ d.nodes, d.isDirectory e.1.parent = true

theorem sound_empty : Sound {} := ⟨by simp, by simp, by simp⟩

theorem Sound.mem_iff (h : d.Sound) : (p, n) ∈ d.nodes ↔ p ≠ [] ∧ d.node? p = some n := by
  unfold node?
  constructor
  · intro hm
    have hp := h.named _ hm
    exact ⟨hp, by rw [if_neg hp]; exact lookup_of_mem h.nodup hm⟩
  · rintro ⟨hp, hl⟩
    rw [if_neg hp] at hl
    exact mem_of_lookup hl

theorem Sound.parent (h : d.Sound) (hn : d.node? p = some n) : d.isDirectory p.parent = true := by
  by_cases hp : p = []
  · subst hp
    simp [Path.parent]
  · exact h.inside _ (h.mem_iff.mpr ⟨hp, hn⟩)

/-- All that lies above a path is a directory. -/
theorem Sound.above (h : d.Sound) : ∀ {p : Path} {n : Node}, d.node? p = some n →
    ∀ {q : Path}, q <+: p → q ≠ p → d.isDirectory q = true := by
  intro p
  induction p using List.reverseRecOn with
  | nil =>
    intro n _ q hq hne
    exact absurd (List.prefix_nil.mp hq) hne
  | append_singleton p name ih =>
    intro n hn q hq hne
    have hpar : d.isDirectory p = true := by simpa [Path.parent] using h.parent hn
    rcases List.prefix_concat_iff.mp hq with rfl | hq
    · exact absurd rfl hne
    · by_cases he : q = p
      · exact he ▸ hpar
      · exact ih (by simpa [isDirectory] using hpar) hq he

/-- There is nothing where nothing lies above. -/
theorem Sound.below (h : d.Sound) (hp : d.node? p = none) (hq : p <+: q) : d.node? q = none := by
  by_cases hsame : p = q
  · exact hsame ▸ hp
  · refine Option.eq_none_iff_forall_ne_some.mpr fun n hn => ?_
    have hdirectory := h.above hn hq hsame
    rw [Disk.isDirectory, hp] at hdirectory
    simp at hdirectory

/-- A node may be put where there is none, and a file also in place of a file. -/
theorem Sound.insert (h : d.Sound) (hp : p ≠ []) (hpar : d.isDirectory p.parent = true)
    (hn : n = .directory ∨ d.isDirectory p = false) : (d.insert p n).Sound := by
  have hne : p.parent ≠ p := by
    intro e
    have h1 : p.length - 1 = p.length := by simpa [Path.parent] using congrArg List.length e
    have h2 := List.length_pos_iff.mpr hp
    omega
  have hdir : ∀ q, d.isDirectory q = true → (d.insert p n).isDirectory q = true := by
    intro q hq
    unfold isDirectory
    rw [node?_insert d n hp]
    split_ifs with he
    · subst he
      rcases hn with rfl | hn
      · simp
      · simp [hn] at hq
    · exact hq
  refine ⟨?_, ?_, ?_⟩
  · unfold Disk.insert
    rw [List.map_cons, List.nodup_cons]
    refine ⟨by simp, ?_⟩
    exact h.nodup.sublist (List.filter_sublist.map _)
  · intro e he
    rcases List.mem_cons.mp he with rfl | he
    · exact hp
    · exact h.named e (List.mem_filter.mp he).1
  · intro e he
    rcases List.mem_cons.mp he with rfl | he
    · exact hdir _ hpar
    · exact hdir _ (h.inside e (List.mem_filter.mp he).1)

theorem Sound.erase (h : d.Sound) (p : Path) : (d.erase p).Sound := by
  refine ⟨h.nodup.sublist (List.filter_sublist.map _),
    fun e he => h.named e (List.mem_filter.mp he).1, fun e he => ?_⟩
  obtain ⟨hm, hk⟩ := List.mem_filter.mp he
  have hpre : ¬ p <+: e.1.parent := by
    intro hc
    have : p.isPrefixOf e.1 = true :=
      List.isPrefixOf_iff_prefix.mpr (hc.trans (List.dropLast_prefix _))
    simp [this] at hk
  unfold isDirectory
  rw [node?_erase_outside hpre]
  exact h.inside e hm

/-! ### Making directories -/

/-- Makes a directory whose parent is there. -/
def enter (d : Disk) (p : Path) : Option Disk :=
  match d.node? p with
  | none => some (d.insert p .directory)
  | some .directory => some d
  | some _ => none

theorem makeDirectories_eq (d : Disk) (p : Path) :
    d.makeDirectories p = p.stations.foldlM enter d := rfl

theorem enter_some (h : d.enter p = some d') :
    (∀ q, d'.node? q = if q = p then some .directory else d.node? q) ∧
      (d.Sound → d.isDirectory p.parent = true → d'.Sound) := by
  unfold enter at h
  split at h
  · rename_i hn
    have hp : p ≠ [] := by
      rintro rfl
      simp at hn
    simp only [Option.some.injEq] at h
    subst h
    exact ⟨node?_insert d _ hp, fun hs hpar => hs.insert hp hpar (Or.inl rfl)⟩
  · rename_i hn
    simp only [Option.some.injEq] at h
    subst h
    refine ⟨fun q => ?_, fun hs _ => hs⟩
    split_ifs with he
    · rw [he, hn]
    · rfl
  · simp at h

theorem enter_self (h : d.isDirectory p = true) : d.enter p = some d := by
  have : d.node? p = some .directory := by simpa [isDirectory] using h
  simp [enter, this]

theorem foldlM_enter {d d' : Disk} : ∀ {k : ℕ}, k ≤ p.length →
    ((List.range (k + 1)).map p.take).foldlM enter d = some d' →
    (∀ q, d'.node? q = if q <+: p.take k then some .directory else d.node? q) ∧ (d.Sound → d'.Sound)
  | 0, _, h => by
    simp [enter] at h
    subst h
    refine ⟨fun q => ?_, id⟩
    split_ifs with hq
    · rw [List.take_zero, List.prefix_nil] at hq
      simp [hq]
    · rfl
  | k + 1, hk, h => by
    rw [List.range_succ, List.map_append, List.foldlM_append] at h
    cases hm : ((List.range (k + 1)).map p.take).foldlM enter d with
    | none => simp [hm] at h
    | some dm =>
      obtain ⟨hnode, hsound⟩ := foldlM_enter (by omega) hm
      simp only [hm, List.map_cons, List.map_nil, List.foldlM_cons, List.foldlM_nil, bind, pure,
        Option.bind_some, Option.bind_fun_some] at h
      obtain ⟨hlast, hkeep⟩ := enter_some h
      have hsplit : p.take (k + 1) = p.take k ++ [p[k]] := List.take_append_getElem (by omega) |>.symm
      refine ⟨fun q => ?_, fun hs => hkeep (hsound hs) ?_⟩
      · rw [hlast, hnode, hsplit]
        simp only [List.prefix_concat_iff]
        split_ifs <;> tauto
      · have hpar : Path.parent (p.take (k + 1)) = p.take k := by
          rw [hsplit]
          exact List.dropLast_concat
        rw [hpar, isDirectory, hnode]
        simp

/-- Making a directory makes all directories on the way to it, and nothing else. -/
theorem makeDirectories_some (h : d.makeDirectories p = some d') :
    (∀ q, d'.node? q = if q <+: p then some .directory else d.node? q) ∧ (d.Sound → d'.Sound) := by
  have := foldlM_enter (Nat.le_refl p.length) (by rwa [makeDirectories_eq, Path.stations] at h)
  rwa [List.take_length] at this

/-- A directory that is there is made without a change. -/
theorem Sound.makeDirectories_self (h : d.Sound) (hp : d.isDirectory p = true) :
    d.makeDirectories p = some d := by
  have hall : ∀ q ∈ p.stations, d.isDirectory q = true := by
    intro q hq
    obtain ⟨k, -, rfl⟩ := List.mem_map.mp hq
    by_cases he : p.take k = p
    · rw [he, hp]
    · have hn : d.node? p = some .directory := by simpa [isDirectory] using hp
      exact h.above hn (List.take_prefix k p) he
  rw [makeDirectories_eq]
  generalize p.stations = stations at hall
  induction stations with
  | nil => rfl
  | cons q qs ih =>
    rw [List.foldlM_cons, enter_self (hall q List.mem_cons_self)]
    exact ih fun x hx => hall x (List.mem_cons_of_mem _ hx)

/-- A directory is made in one that is there. -/
theorem Sound.makeDirectories_concat (h : d.Sound) (hp : d.isDirectory p = true) (name : String) :
    d.makeDirectories (p ++ [name]) = d.enter (p ++ [name]) := by
  have hstations : Path.stations (p ++ [name]) = p.stations ++ [p ++ [name]] := by
    have hbelow : ∀ k ∈ List.range (p.length + 1), (p ++ [name]).take k = p.take k := fun k hk => by
      rw [List.take_append_of_le_length (by simpa [Nat.lt_succ_iff] using hk)]
    rw [Path.stations, List.length_append, List.length_singleton, List.range_succ, List.map_append,
      List.map_congr_left hbelow, List.map_singleton, List.take_of_length_le (by simp)]
    rfl
  rw [makeDirectories_eq, hstations, List.foldlM_append, ← makeDirectories_eq, h.makeDirectories_self hp]
  simp

/-! ### Steps -/

theorem place_some (h : DiskStep.place d p n = some d') :
    p ≠ [] ∧ d.isDirectory p.parent = true ∧ d.isDirectory p = false ∧ d' = d.insert p n := by
  unfold DiskStep.place at h
  split_ifs at h with hc
  simp only [Bool.and_eq_true, Bool.not_eq_true', Option.some.injEq] at hc h
  refine ⟨?_, hc.1, hc.2, h.symm⟩
  rintro rfl
  simp at hc

theorem place_of_directory (hpar : d.isDirectory p.parent = true) (hp : d.isDirectory p = false) :
    DiskStep.place d p n = some (d.insert p n) := by
  simp [DiskStep.place, hpar, hp]

theorem Sound.place (h : d.Sound) (hr : DiskStep.place d p n = some d') : d'.Sound := by
  obtain ⟨hp, hpar, hnd, rfl⟩ := place_some hr
  exact h.insert hp hpar (Or.inr hnd)

/-- A sound disk stays sound. -/
theorem Sound.run (h : d.Sound) {step : DiskStep} (hr : step.run d = some d') : d'.Sound := by
  cases step with
  | makeDirectory path => exact (makeDirectories_some hr).2 h
  | removeDirectory path =>
    simp only [DiskStep.run] at hr
    split_ifs at hr
    exact (Option.some.inj hr) ▸ h.erase path
  | removeFile path =>
    simp only [DiskStep.run] at hr
    split_ifs at hr
    exact (Option.some.inj hr) ▸ h.erase path
  | write path bytes =>
    simp only [DiskStep.run] at hr
    split at hr <;> exact h.place hr
  | rename source target =>
    simp only [DiskStep.run] at hr
    split at hr
    · simp at hr
    · simp at hr
    · exact (h.erase source).place hr
  | sync path =>
    simp only [DiskStep.run] at hr
    split_ifs at hr
    exact (Option.some.inj hr) ▸ h
  | publish path g => exact h.place hr
  | lock path holder =>
    simp only [DiskStep.run] at hr
    split at hr
    · exact h.place hr
    · exact h.place hr
    · simp at hr
  | unlock path holder =>
    simp only [DiskStep.run] at hr
    split at hr
    · split_ifs at hr
      · exact h.place hr
      · exact (Option.some.inj hr) ▸ h
    · exact (Option.some.inj hr) ▸ h

theorem Sound.runAll : ∀ {steps : List DiskStep} {d : Disk}, d.Sound → (d.runAll steps).2.Sound
  | [], _, h => h
  | step :: steps, d, h => by
    simp only [Disk.runAll]
    split
    · rename_i d' hr
      exact Sound.runAll (h.run hr)
    · exact h

theorem mem_children {name : String} (h : d.Sound) :
    (name, n) ∈ d.children p ↔ d.node? (p ++ [name]) = some n := by
  unfold children
  rw [List.mem_filterMap]
  constructor
  · rintro ⟨⟨q, m⟩, hm, hq⟩
    cases hlast : q.getLast? with
    | none => simp [hlast] at hq
    | some last =>
      obtain ⟨front, rfl⟩ := List.getLast?_eq_some_iff.mp hlast
      simp only [hlast, List.dropLast_concat, Option.ite_none_right_eq_some, Option.some.injEq,
        Prod.mk.injEq] at hq
      obtain ⟨rfl, rfl, rfl⟩ := hq
      exact (h.mem_iff.mp hm).2
  · intro hn
    exact ⟨_, h.mem_iff.mpr ⟨by simp, hn⟩, by simp⟩

/-- Nothing is listed twice in a directory. -/
theorem nodup_children (h : d.Sound) (p : Path) : (d.children p).Nodup := by
  have hread : ∀ {a : Path × Node} {c : String × Node}, c ∈ ({ nodes := [a] } : Disk).children p →
      a = (p ++ [c.1], c.2) := by
    intro a c hlisted
    obtain ⟨⟨q, n⟩, ha, hc⟩ := List.mem_filterMap.mp hlisted
    obtain rfl := List.mem_singleton.mp ha
    cases hlast : q.getLast? with
    | none => simp [hlast] at hc
    | some last =>
      obtain ⟨front, rfl⟩ := List.getLast?_eq_some_iff.mp hlast
      simp only [hlast, List.dropLast_concat, Option.ite_none_right_eq_some, Option.some.injEq] at hc
      obtain ⟨rfl, rfl⟩ := hc
      rfl
  refine List.Nodup.filterMap (fun a b c ha hb => ?_) (List.Nodup.of_map _ h.nodup)
  exact (hread (List.mem_filterMap.mpr ⟨a, List.mem_singleton_self a, ha⟩)).trans
    (hread (List.mem_filterMap.mpr ⟨b, List.mem_singleton_self b, hb⟩)).symm

/-! ### What steps leave alone -/

end Disk

namespace DiskStep

/-- Whether a step can make something at a path where there is nothing. -/
def makes (q : Path) : DiskStep → Prop
  | makeDirectory path => q <+: path
  | removeDirectory _ | removeFile _ | sync _ => False
  | write path _ | publish path _ | lock path _ | unlock path _ => path = q
  | rename _ target => target = q

/-- Whether a step can change what is found at a path where there is something. -/
def harms (q : Path) : DiskStep → Prop
  | makeDirectory _ => False
  | removeDirectory path => path <+: q
  | removeFile path => path <+: q
  | write path _ => path = q
  | rename source target => source <+: q ∨ target = q
  | sync _ => False
  | publish path _ => path = q
  | lock path _ => path = q
  | unlock path _ => path = q

end DiskStep

namespace Disk

variable {d d' : Disk} {p q : Path} {n m : Node}

theorem node?_place (h : DiskStep.place d p m = some d') (hq : p ≠ q) : d'.node? q = d.node? q := by
  obtain ⟨hp, -, -, rfl⟩ := place_some h
  exact node?_insert_ne d m hp (Ne.symm hq)

theorem node?_place_self (h : DiskStep.place d p m = some d') : d'.node? p = some m := by
  obtain ⟨hp, -, -, rfl⟩ := place_some h
  exact node?_insert_self d m hp

theorem enter_keeps (h : d.enter p = some d') (hq : d.node? q = some n) : d'.node? q = some n := by
  rw [(enter_some h).1]
  split_ifs with he
  · subst he
    unfold enter at h
    cases n with
    | directory => rfl
    | file bytes holder => simp [hq] at h
    | generation g => simp [hq] at h
  · exact hq

theorem foldlM_enter_keeps : ∀ {stations : List Path} {d : Disk},
    stations.foldlM enter d = some d' → d.node? q = some n → d'.node? q = some n
  | [], d, h, hq => by
    simp only [List.foldlM_nil, pure, Option.some.injEq] at h
    exact h ▸ hq
  | p :: stations, d, h, hq => by
    rw [List.foldlM_cons] at h
    cases he : d.enter p with
    | none => simp [he] at h
    | some dm =>
      simp only [he, bind, Option.bind_some] at h
      exact foldlM_enter_keeps h (enter_keeps he hq)

/-- What is found at a path stays as it is unless a step harms it. -/
theorem node?_run {step : DiskStep} (hr : step.run d = some d') (hq : d.node? q = some n)
    (hh : ¬ step.harms q) : d'.node? q = some n := by
  have herase : ∀ {p}, ¬ p <+: q → (d.erase p).node? q = some n := fun hp => by
    rw [node?_erase_outside hp, hq]
  cases step with
  | makeDirectory path =>
    rw [DiskStep.run, makeDirectories_eq] at hr
    exact foldlM_enter_keeps hr hq
  | removeDirectory path =>
    simp only [DiskStep.run] at hr
    split_ifs at hr
    exact (Option.some.inj hr) ▸ herase hh
  | removeFile path =>
    simp only [DiskStep.run] at hr
    split_ifs at hr
    exact (Option.some.inj hr) ▸ herase hh
  | write path bytes =>
    simp only [DiskStep.run] at hr
    split at hr <;> rw [node?_place hr hh, hq]
  | rename source target =>
    simp only [DiskStep.harms, not_or] at hh
    simp only [DiskStep.run] at hr
    split at hr
    · simp at hr
    · simp at hr
    · rw [node?_place hr hh.2, herase hh.1]
  | sync path =>
    simp only [DiskStep.run] at hr
    split_ifs at hr
    exact (Option.some.inj hr) ▸ hq
  | publish path g => rw [node?_place hr hh, hq]
  | lock path holder =>
    simp only [DiskStep.run] at hr
    split at hr
    · rw [node?_place hr hh, hq]
    · rw [node?_place hr hh, hq]
    · simp at hr
  | unlock path holder =>
    simp only [DiskStep.run] at hr
    split at hr
    · split_ifs at hr
      · rw [node?_place hr hh, hq]
      · exact (Option.some.inj hr) ▸ hq
    · exact (Option.some.inj hr) ▸ hq

theorem runAll_cons_ok {step : DiskStep} {steps : List DiskStep}
    (h : d.runAll (step :: steps) = (true, d')) :
    ∃ d₁, step.run d = some d₁ ∧ d₁.runAll steps = (true, d') := by
  rw [runAll] at h
  split at h
  · rename_i d₁ hr
    exact ⟨d₁, hr, h⟩
  · simp at h

theorem runAll_append (d : Disk) (steps more : List DiskStep) : d.runAll (steps ++ more) =
    if (d.runAll steps).1 then (d.runAll steps).2.runAll more else d.runAll steps := by
  induction steps generalizing d with
  | nil => rfl
  | cons s steps ih =>
    rw [List.cons_append, runAll, runAll]
    cases s.run d with
    | none => rfl
    | some d₁ => exact ih d₁

/-- What is found at a path stays as it is if none of the steps harms it. -/
theorem node?_runAll : ∀ {steps : List DiskStep} {d : Disk}, d.node? q = some n →
    (∀ step ∈ steps, ¬ step.harms q) → (d.runAll steps).2.node? q = some n
  | [], _, hq, _ => hq
  | step :: steps, d, hq, hh => by
    simp only [runAll]
    split
    · rename_i d' hr
      exact node?_runAll (node?_run hr hq (hh _ List.mem_cons_self))
        fun s hs => hh s (List.mem_cons_of_mem _ hs)
    · exact hq

/-- There is still nothing at a path unless a step makes something there. -/
theorem node?_run_none {step : DiskStep} (hr : step.run d = some d') (hq : d.node? q = none)
    (hm : ¬ step.makes q) : d'.node? q = none := by
  have hne : q ≠ [] := by
    rintro rfl
    simp at hq
  have herase : ∀ p, (d.erase p).node? q = none := fun p => by
    rw [node?_erase, if_neg hne]
    split_ifs
    · rfl
    · exact hq
  cases step with
  | makeDirectory path =>
    rw [(makeDirectories_some hr).1, if_neg (show ¬ q <+: path from hm), hq]
  | removeDirectory path =>
    simp only [DiskStep.run] at hr
    split_ifs at hr
    exact (Option.some.inj hr) ▸ herase path
  | removeFile path =>
    simp only [DiskStep.run] at hr
    split_ifs at hr
    exact (Option.some.inj hr) ▸ herase path
  | write path bytes =>
    simp only [DiskStep.run] at hr
    split at hr <;> rw [node?_place hr hm, hq]
  | rename source target =>
    simp only [DiskStep.run] at hr
    split at hr
    · simp at hr
    · simp at hr
    · rw [node?_place hr hm, herase]
  | sync path =>
    simp only [DiskStep.run] at hr
    split_ifs at hr
    exact (Option.some.inj hr) ▸ hq
  | publish path g => rw [node?_place hr hm, hq]
  | lock path holder =>
    simp only [DiskStep.run] at hr
    split at hr
    · rw [node?_place hr hm, hq]
    · rw [node?_place hr hm, hq]
    · simp at hr
  | unlock path holder =>
    simp only [DiskStep.run] at hr
    split at hr
    · split_ifs at hr
      · rw [node?_place hr hm, hq]
      · exact (Option.some.inj hr) ▸ hq
    · exact (Option.some.inj hr) ▸ hq

/-- There is still nothing at a path if none of the steps makes something there. -/
theorem node?_runAll_none : ∀ {steps : List DiskStep} {d : Disk}, d.node? q = none →
    (∀ step ∈ steps, ¬ step.makes q) → (d.runAll steps).2.node? q = none
  | [], _, hq, _ => hq
  | step :: steps, d, hq, hm => by
    simp only [runAll]
    split
    · rename_i d' hr
      exact node?_runAll_none (node?_run_none hr hq (hm _ List.mem_cons_self))
        fun s hs => hm s (List.mem_cons_of_mem _ hs)
    · exact hq

/-- What is found at a path stays as it is if no step makes anything there or harms it. -/
theorem node?_runAll_eq {steps : List DiskStep} (d : Disk)
    (h : ∀ step ∈ steps, ¬ step.makes q ∧ ¬ step.harms q) : (d.runAll steps).2.node? q = d.node? q := by
  cases hq : d.node? q with
  | none => exact node?_runAll_none hq fun step hstep => (h step hstep).1
  | some n => exact node?_runAll hq fun step hstep => (h step hstep).2

end Disk
end Codebook
