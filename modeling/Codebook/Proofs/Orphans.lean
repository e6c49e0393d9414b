/-
# Orphans

What an interrupted rebuild left over is swept away when an index is opened. The sweep lists the
numbers of the generations and removes, for each number but the live one, the directory that has the
name of this number. A number can be written in more than one way, so a directory can be listed under a
number whose own name is another one. Where every generation that is listed has its own name, a sweep
removes all that is listed beside the live generation, leaves everything else as it was, and tells how
much it removed; where one has not, the sweep fails or the live generation stays listed twice.

Key definitions: `IndexDirectory.strays`, `IndexDirectory.Swept`.
Key theorems: `IndexDirectory.node?_sweep`, `IndexDirectory.Swept.spelled`,
`IndexDirectory.sweep_exact_iff`.
-/
import Codebook.Proofs.Recovery
import Mathlib.Data.List.Pairwise

namespace Codebook
namespace IndexDirectory

variable {d d' : Disk} {dir : IndexDirectory} {n k : Nat} {x y : String} {q : Path}

/-! ### What is to be removed -/

/-- The names of the directories that are listed as generations beside the live one. -/
def strays (dir : IndexDirectory) (d : Disk) : List String :=
  ((d.children dir.path).filter fun c => (numberOf c).any (· != dir.current)).map Prod.fst

/-- The second disk is the first one without what is listed beside the live generation, which is the
only one that is listed now. -/
structure Swept (dir : IndexDirectory) (d d' : Disk) : Prop where
  gone : ∀ q, d'.node? q =
    if ∃ name ∈ dir.strays d, dir.path ++ [name] <+: q then none else d.node? q
  lone : dir.generations d' = [dir.current]

theorem mem_strays (hd : d.Sound) : x ∈ dir.strays d ↔
    d.isDirectory (dir.path ++ [x]) = true ∧ ∃ n, generationNumber? x = some n ∧ n ≠ dir.current := by
  simp only [strays, List.mem_map, List.mem_filter, Option.any_eq_true, bne_iff_ne]
  constructor
  · rintro ⟨⟨name, node⟩, ⟨hc, n, hn, hne⟩, rfl⟩
    obtain ⟨rfl, hnumber⟩ := mem_numberOf.mp hn
    exact ⟨decide_eq_true ((Disk.mem_children hd).mp hc), n, hnumber, hne⟩
  · rintro ⟨hnode, n, hnumber, hne⟩
    exact ⟨(x, .directory), ⟨(Disk.mem_children hd).mpr (of_decide_eq_true hnode), n,
      mem_numberOf.mpr ⟨rfl, hnumber⟩, hne⟩, rfl⟩

theorem mem_orphans (hd : d.Sound) : n ∈ dir.orphans d ↔
    n ≠ dir.current ∧ ∃ x, d.isDirectory (dir.path ++ [x]) = true ∧ generationNumber? x = some n := by
  simp [orphans, mem_generations hd, Disk.isDirectory, and_comm]

/-- There are as many directories to remove as numbers. -/
theorem length_strays (dir : IndexDirectory) (d : Disk) :
    (dir.strays d).length = (dir.orphans d).length := by
  have hlisted : ∀ cs : List (String × Node), ((cs.filterMap numberOf).filter (· != dir.current)).length =
      (cs.filter fun c => (numberOf c).any (· != dir.current)).length := fun cs => by
    induction cs with
    | nil => rfl
    | cons c cs ih =>
      cases hn : numberOf c with
      | none => simpa [hn] using ih
      | some n => by_cases hlive : n = dir.current <;> simpa [hn, hlive] using ih
  rw [orphans, generations_eq, ((foldr_insertNumber_perm _).filter _).length_eq, hlisted, strays,
    List.length_map]

/-- If every generation has its own name, what is to be removed has the names of the orphans. -/
theorem stray_iff_orphan (hd : d.Sound) (hs : dir.Spelled d) :
    (∃ name ∈ dir.strays d, dir.path ++ [name] <+: q) ↔
      ∃ n ∈ dir.orphans d, dir.generationPath n <+: q := by
  constructor
  · rintro ⟨name, hname, hpre⟩
    obtain ⟨hnode, n, hnumber, hne⟩ := (mem_strays hd).mp hname
    obtain rfl := (spelled_iff hd).mp hs name n hnode hnumber
    exact ⟨n, (mem_orphans hd).mpr ⟨hne, _, hnode, hnumber⟩, hpre⟩
  · rintro ⟨n, hn, hpre⟩
    obtain ⟨hne, name, hnode, hnumber⟩ := (mem_orphans hd).mp hn
    obtain rfl := (spelled_iff hd).mp hs name n hnode hnumber
    exact ⟨_, (mem_strays hd).mpr ⟨hnode, n, hnumber, hne⟩, hpre⟩

/-- If no generation is listed twice, no number is written in two ways. -/
theorem eq_of_nodup (hd : d.Sound) (hnodup : (dir.generations d).Nodup)
    (hx : d.isDirectory (dir.path ++ [x]) = true) (hy : d.isDirectory (dir.path ++ [y]) = true)
    (hxn : generationNumber? x = some n) (hyn : generationNumber? y = some n) : x = y := by
  rw [generations_eq, (foldr_insertNumber_perm _).nodup_iff, List.Nodup, List.pairwise_filterMap]
    at hnodup
  have hchild : ∀ {z : String}, d.isDirectory (dir.path ++ [z]) = true →
      (z, .directory) ∈ d.children dir.path := fun hz =>
    (Disk.mem_children hd).mpr (of_decide_eq_true hz)
  have : Std.Symm fun c c' : String × Node => ∀ m ∈ numberOf c, ∀ k ∈ numberOf c', m ≠ k :=
    ⟨fun _ _ h m hm k hk => (h k hk m hm).symm⟩
  by_contra hne
  have happart := hnodup.forall (hchild hx) (hchild hy) fun he => hne (congrArg Prod.fst he)
  exact happart n (mem_numberOf.mpr ⟨rfl, hxn⟩) n (mem_numberOf.mpr ⟨rfl, hyn⟩) rfl

/-! ### What a sweep removes -/

theorem node?_removals : ∀ {ns : List Nat} {d : Disk}, (d.runAll (dir.removals ns)).1 = true →
    (d.runAll (dir.removals ns)).2.node? q =
      if ∃ n ∈ ns, dir.generationPath n <+: q then none else d.node? q
  | [], _, _ => by simp [removals, Disk.runAll]
  | n :: ns, d, h => by
    rw [removals_cons, Disk.runAll, DiskStep.run] at h ⊢
    by_cases hthere : d.isDirectory (dir.generationPath n) = true
    · rw [if_pos hthere] at h ⊢
      have hne : dir.generationPath n <+: q → q ≠ [] := fun hpre he => by
        simp [he, generationPath] at hpre
      rw [node?_removals h, Disk.node?_erase]
      by_cases hpre : dir.generationPath n <+: q
      · simp [hpre, hne hpre]
      · by_cases hq : q = []
        · simp [hq, generationPath]
        · simp [hpre, hq]
    · rw [if_neg hthere] at h
      simp at h

/-- A sweep that comes to its end has done all its removals. -/
theorem runAll_orphans (hroot : d.isDirectory dir.path = true)
    (h : effect dir.sweep d = (.ok k, d')) : d.runAll (dir.removals (dir.orphans d)) = (true, d') := by
  have hrun := runAll_sweep h
  rw [runAll_sweepSteps hroot, Disk.runAll_append] at hrun
  split_ifs at hrun with hdone
  · obtain ⟨d₂, hsync, hend⟩ := Disk.runAll_cons_ok hrun
    simp only [DiskStep.run, Option.ite_none_right_eq_some, Option.some.injEq] at hsync
    rw [Prod.ext_iff]
    exact ⟨hdone, hsync.2.trans (congrArg Prod.snd hend)⟩
  · exact absurd (congrArg Prod.fst hrun) hdone

/-- A sweep that comes to its end has removed what has the name of an orphan, and nothing else. -/
theorem node?_sweep (hroot : d.isDirectory dir.path = true) (h : effect dir.sweep d = (.ok k, d'))
    (q : Path) : d'.node? q =
      if ∃ n ∈ dir.orphans d, dir.generationPath n <+: q then none else d.node? q := by
  have hrun := runAll_orphans hroot h
  have hleft := node?_removals (q := q) (congrArg Prod.fst hrun)
  rwa [hrun] at hleft

/-- A directory that has not the name of its number is not removed. -/
theorem node?_sweep_misspelled (hroot : d.isDirectory dir.path = true)
    (h : effect dir.sweep d = (.ok k, d')) (hnumber : generationNumber? x = some n)
    (hname : x ≠ generationName n) : d'.node? (dir.path ++ [x]) = d.node? (dir.path ++ [x]) := by
  rw [node?_sweep hroot h, if_neg]
  rintro ⟨m, -, hpre⟩
  obtain rfl := name_of_below hpre
  exact hname (by rw [number_of_generationName hnumber])

/-- The live generation stays. -/
theorem isDirectory_current_sweep (hlive : d.isDirectory dir.currentPath = true)
    (h : effect dir.sweep d = (.ok k, d')) : d'.isDirectory dir.currentPath = true :=
  decide_eq_true ((sweep_ok h).2 _ _ (fun _ hne => not_prefix_other hne) (of_decide_eq_true hlive))

/-- After a sweep that left the live generation alone, every generation had its own name. -/
theorem Swept.spelled (hs : dir.Swept d d') (hd : d.Sound) (hmax : dir.current ≤ Number.maxNat64)
    (hroot : d.isDirectory dir.path = true) (hlive : d.isDirectory dir.currentPath = true)
    (h : effect dir.sweep d = (.ok k, d')) : dir.Spelled d := by
  rw [spelled_iff hd]
  intro name n hnode hnumber
  by_contra hname
  have hkept := node?_sweep_misspelled hroot h hnumber hname
  by_cases hcurrent : n = dir.current
  · -- both directories of the live number are there after the sweep, so it is listed twice
    subst hcurrent
    have hstay : d'.isDirectory (dir.path ++ [name]) = true := by rwa [Disk.isDirectory, hkept]
    exact hname (eq_of_nodup ((sweep_ok h).1 hd) (hs.lone ▸ List.nodup_singleton _) hstay
      (isDirectory_current_sweep hlive h) hnumber (generationNumber?_generationName hmax))
  · have hgone := hs.gone (dir.path ++ [name])
    rw [if_pos ⟨name, (mem_strays hd).mpr ⟨hnode, n, hnumber, hcurrent⟩, List.prefix_rfl⟩, hkept,
      of_decide_eq_true hnode] at hgone
    simp at hgone

/-- Where every generation has its own name, all but the live one are swept away. -/
theorem swept_of_spelled (hd : d.Sound) (hs : dir.Spelled d) (hmax : dir.current ≤ Number.maxNat64)
    (hroot : d.isDirectory dir.path = true) (hlive : d.isDirectory dir.currentPath = true)
    (h : effect dir.sweep d = (.ok k, d')) : dir.Swept d d' := by
  have hgone : ∀ q, d'.node? q =
      if ∃ name ∈ dir.strays d, dir.path ++ [name] <+: q then none else d.node? q := fun q => by
    rw [node?_sweep hroot h]
    exact if_congr (stray_iff_orphan hd hs).symm rfl rfl
  have hd' : d'.Sound := (sweep_ok h).1 hd
  have hleft : ∀ name n, d'.isDirectory (dir.path ++ [name]) = true → generationNumber? name = some n →
      d.isDirectory (dir.path ++ [name]) = true ∧ n = dir.current := by
    intro name n hnode hnumber
    rw [Disk.isDirectory, hgone] at hnode
    split_ifs at hnode with hstray
    · simp at hnode
    · refine ⟨hnode, by_contra fun hne => hstray ⟨name, ?_, List.prefix_rfl⟩⟩
      exact (mem_strays hd).mpr ⟨hnode, n, hnumber, hne⟩
  have hs' : dir.Spelled d' := (spelled_iff hd').mpr fun name n hnode hnumber =>
    (spelled_iff hd).mp hs name n (hleft name n hnode hnumber).1 hnumber
  refine ⟨hgone, generations_eq_live hd' hs' hmax (isDirectory_current_sweep hlive h) fun n hn => ?_⟩
  obtain ⟨name, hnode, hnumber⟩ := (mem_generations hd').mp hn
  exact (hleft name n (decide_eq_true hnode) hnumber).2

/-- **A sweep removes all orphans and nothing else exactly where every generation has its own name.**
It tells how many there were, and the live generation is the only one that is listed then. -/
theorem sweep_exact_iff (hd : d.Sound) (hmax : dir.current ≤ Number.maxNat64)
    (hlive : d.isDirectory dir.currentPath = true) :
    (∃ d', effect dir.sweep d = (.ok (dir.strays d).length, d') ∧ dir.Swept d d') ↔ dir.Spelled d := by
  have hroot : d.isDirectory dir.path = true := by
    have hparent := hd.parent (of_decide_eq_true hlive)
    rwa [Path.parent, currentPath, generationPath, List.dropLast_concat] at hparent
  constructor
  · rintro ⟨d', h, hs⟩
    exact hs.spelled hd hmax hroot hlive h
  · intro hs
    have h := effect_sweep_spelled hd hs hroot
    rw [← length_strays] at h
    exact ⟨_, h, swept_of_spelled hd hs hmax hroot hlive h⟩

/-! ### What lies beside the first generation -/

/-- The directory of an index whose first generation is live. -/
def first : IndexDirectory := ⟨["index", "Record"], "Record", 1⟩

/-- The first generation, and directories of these names beside it. -/
def littered (names : List String) : Disk :=
  (({} : Disk).runAll (("gen-000001" :: names).map fun x => .makeDirectory (first.path ++ [x]))).2

theorem sweep_exact_iff_of_padded :
    first.strays (littered ["gen-000007", "other", "gen-000003"]) = ["gen-000003", "gen-000007"] ∧
      ∃ d', effect first.sweep (littered ["gen-000007", "other", "gen-000003"]) =
          (.ok (first.strays (littered ["gen-000007", "other", "gen-000003"])).length, d') ∧
        first.Swept (littered ["gen-000007", "other", "gen-000003"]) d' :=
  ⟨by decide, (sweep_exact_iff (Disk.Sound.runAll Disk.sound_empty) (by decide) (by decide)).mpr
    (by decide)⟩

/-- A generation whose number is not written with six digits is listed, but a sweep fails on it. If it
has the number of the live one, this number is listed twice and the sweep changes nothing. -/
theorem sweep_of_unpadded :
    (first.generations (littered ["gen-2"]) = [1, 2] ∧
        (effect first.sweep (littered ["gen-2"])).1 = .error .io) ∧
      first.generations (littered ["gen-1"]) = [1, 1] ∧
        effect first.sweep (littered ["gen-1"]) = (.ok 0, littered ["gen-1"]) :=
  ⟨⟨by decide, rfl⟩, by decide, rfl⟩

end IndexDirectory
end Codebook
