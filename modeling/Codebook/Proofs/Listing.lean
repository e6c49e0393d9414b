/-
# Generations that are listed

Which generations there are is read off the names in the directory of an index. Disks that look alike
list the same generations, apart from the one that is being filled, which is listed on the first disk
only and has its place among the others. A sweep therefore removes one generation more there, after
which the disks list the same.

Key definitions: `IndexDirectory.numberOf`, `IndexDirectory.removals`.
Key theorems: `IndexDirectory.generations_congr`, `IndexDirectory.generations_erase`,
`Disk.Alike.runAll_sweep`.
-/
import Codebook.Proofs.Alike
import Mathlib.Data.List.Perm.Basic

namespace Codebook

open IndexDirectory

namespace IndexDirectory

variable {m : Mask} {d d' e e' : Disk} {dir : IndexDirectory} {n : Nat}

/-- What is listed in a directory depends on what is found there. -/
theorem perm_children (hd : d.Sound) (he : e.Sound) {p : Path}
    (hnode : ∀ name, d.node? (p ++ [name]) = (e.node? (p ++ [name])).map m.node) :
    (d.children p).Perm ((e.children p).map fun c => (c.1, m.node c.2)) := by
  have hinj : Function.Injective fun c : String × Node => (c.1, m.node c.2) := by
    rintro ⟨x, n⟩ ⟨y, k⟩ h
    simp only [Prod.mk.injEq] at h
    exact Prod.ext h.1 (Mask.node_injective h.2)
  refine (List.perm_ext_iff_of_nodup (d.nodup_children hd p)
    ((e.nodup_children he p).map hinj)).mpr fun ⟨name, n⟩ => ?_
  rw [Disk.mem_children hd, hnode, Option.map_eq_some_iff, List.mem_map]
  constructor
  · rintro ⟨k, hk, rfl⟩
    exact ⟨(name, k), (Disk.mem_children he).mpr hk, rfl⟩
  · rintro ⟨⟨x, k⟩, hk, hsame⟩
    obtain ⟨rfl, rfl⟩ := Prod.mk.inj hsame
    exact ⟨k, (Disk.mem_children he).mp hk, rfl⟩

/-- The number of a generation among what is listed. -/
def numberOf (c : String × Node) : Option Nat :=
  if c.2 = .directory then generationNumber? c.1 else none

theorem generations_eq (dir : IndexDirectory) (d : Disk) : dir.generations d =
    ((d.children dir.path).filterMap numberOf).foldr insertNumber [] := rfl

theorem insertNumber_comm (a b : Nat) : ∀ ns : List Nat,
    insertNumber a (insertNumber b ns) = insertNumber b (insertNumber a ns)
  | [] => by grind [insertNumber]
  | k :: ns => by grind [insertNumber, insertNumber_comm a b ns]

theorem foldr_insertNumber {ns ms : List Nat} (h : ns.Perm ms) :
    ns.foldr insertNumber [] = ms.foldr insertNumber [] := by
  have : LeftCommutative insertNumber := ⟨insertNumber_comm⟩
  exact h.foldr_eq []

/-- The same generations are listed where the same is found. -/
theorem generations_congr (hd : d.Sound) (he : e.Sound)
    (hnode : ∀ name, d.node? (dir.path ++ [name]) = (e.node? (dir.path ++ [name])).map m.node) :
    dir.generations d = dir.generations e := by
  rw [generations_eq, generations_eq]
  refine foldr_insertNumber (((perm_children hd he hnode).filterMap numberOf).trans ?_)
  rw [List.filterMap_map]
  refine List.Perm.of_eq (congrArg (List.filterMap · (e.children dir.path)) (funext fun c => ?_))
  simp [numberOf]

/-- A generation that is removed is not listed any more, and all others are. -/
theorem generations_erase (hd : d.Sound) (hn : n ≤ Number.maxNat64)
    (hroot : d.isDirectory (dir.generationPath n) = true) :
    dir.generations d = insertNumber n (dir.generations (d.erase (dir.generationPath n))) := by
  have hd' := hd.erase (dir.generationPath n)
  have hlisted : (d.children dir.path).Perm
      ((generationName n, .directory) :: (d.erase (dir.generationPath n)).children dir.path) := by
    have hgone : (d.erase (dir.generationPath n)).node? (dir.path ++ [generationName n]) = none := by
      rw [Disk.node?_erase, if_neg (by simp)]
      exact if_pos List.prefix_rfl
    refine (List.perm_ext_iff_of_nodup (d.nodup_children hd dir.path) (List.nodup_cons.mpr
      ⟨fun hmem => ?_, Disk.nodup_children hd' dir.path⟩)).mpr fun ⟨name, k⟩ => ?_
    · rw [Disk.mem_children hd', hgone] at hmem
      simp at hmem
    · rw [List.mem_cons, Disk.mem_children hd, Disk.mem_children hd', Prod.mk.injEq]
      by_cases hname : name = generationName n
      · subst hname
        rw [hgone, show d.node? (dir.path ++ [generationName n]) = some .directory from
          of_decide_eq_true hroot]
        simp [eq_comm]
      · rw [Disk.node?_erase_outside fun hpre => hname ?_]
        · simp [hname]
        · exact name_of_below hpre
  have hnumber : numberOf (generationName n, .directory) = some n := by
    rw [numberOf, if_pos rfl, generationNumber?_generationName hn]
  rw [generations_eq, generations_eq, foldr_insertNumber (hlisted.filterMap numberOf),
    List.filterMap_cons_some hnumber, List.foldr_cons]

theorem insertNumber_split (n : Nat) : ∀ ns : List Nat,
    ∃ before after, insertNumber n ns = before ++ n :: after ∧ ns = before ++ after
  | [] => ⟨[], [], rfl, rfl⟩
  | k :: ns => by
    rw [insertNumber]
    split_ifs
    · exact ⟨[], k :: ns, rfl, rfl⟩
    · obtain ⟨before, after, hinsert, hns⟩ := insertNumber_split n ns
      exact ⟨k :: before, after, by rw [hinsert]; rfl, by rw [hns]; rfl⟩

/-! ### Sweeps -/

/-- The steps that remove generations. -/
def removals (dir : IndexDirectory) (ns : List Nat) : List DiskStep :=
  ns.map fun n => .removeDirectory (dir.generationPath n)

/-- After generations were removed the directory is synced, which changes nothing if there were
none. -/
theorem runAll_sweepSteps (hpresent : d.isDirectory dir.path = true) :
    d.runAll (dir.sweepSteps d) = d.runAll (dir.removals (dir.orphans d) ++ [.sync dir.path]) := by
  unfold sweepSteps removals
  cases dir.orphans d with
  | nil =>
    have hcontains : d.contains dir.path = true := by
      rw [Disk.contains, of_decide_eq_true hpresent]
      rfl
    simp [Disk.runAll, DiskStep.run, hcontains]
  | cons n ns => rfl

theorem removals_cons (dir : IndexDirectory) (n : Nat) (ns : List Nat) :
    dir.removals (n :: ns) = .removeDirectory (dir.generationPath n) :: dir.removals ns := rfl

theorem removals_append (dir : IndexDirectory) (ns ms : List Nat) :
    dir.removals (ns ++ ms) = dir.removals ns ++ dir.removals ms :=
  List.map_append

/-- Steps that remove other generations leave alone the one that is being filled. -/
theorem spares_removals (hdir : ∀ x ∈ m.hidden, dir.path = x.path) {ns : List Nat}
    (hns : ∀ x ∈ m.hidden, x.number ∉ ns) : ∀ s ∈ dir.removals ns ++ [.sync dir.path], m.Spares s := by
  intro s hs
  rcases List.mem_append.mp hs with hs | hs
  · obtain ⟨k, hk, rfl⟩ := List.mem_map.mp hs
    rintro q hq ⟨x, hx, hguards⟩
    refine Hidden.not_guards_beside (fun hsame => hns x hx (hsame ▸ hk)) ?_ hguards
    rwa [← hdir x hx]
  · rw [List.mem_singleton.mp hs]
    rintro ⟨x, hx, hguards⟩
    exact Hidden.not_guards_above (hdir x hx ▸ List.prefix_rfl) hguards

end IndexDirectory

namespace Disk.Alike

open Disk

variable {m : Mask} {d e : Disk} {dir : IndexDirectory}

/-- The generation that is being filled is listed on the first disk only. -/
theorem number_not_mem (h : Alike m d e) (hdir : ∀ x ∈ m.hidden, dir.path = x.path) {x : Hidden}
    (hx : x ∈ m.hidden) : x.number ∉ dir.generations e := by
  intro hmem
  obtain ⟨name, hnode, hname⟩ := (mem_generations h.sound').mp hmem
  exact (h.beside x hx).apart name hname (hdir x hx ▸ hnode)

theorem runAll_removals (h : Alike m d e) (hdir : ∀ x ∈ m.hidden, dir.path = x.path) {ns : List Nat}
    (hns : ∀ x ∈ m.hidden, x.number ∉ ns) {steps : List DiskStep}
    (hsteps : steps ⊆ dir.removals ns ++ [.sync dir.path]) :
    (d.runAll steps).1 = (e.runAll steps).1 ∧ Alike m (d.runAll steps).2 (e.runAll steps).2 := by
  have hsame : steps.map m.step = steps := by
    refine (List.map_congr_left fun s hs => ?_).trans (List.map_id steps)
    rcases List.mem_append.mp (hsteps hs) with hs | hs
    · obtain ⟨k, -, rfl⟩ := List.mem_map.mp hs
      rfl
    · rw [List.mem_singleton.mp hs]
      rfl
  have hrun := h.runAll fun s hs => spares_removals hdir hns s (hsteps hs)
  rwa [hsame] at hrun

/-- The generation that is being filled has its place somewhere among those that are not live. -/
theorem orphans_split (h : Alike m d e)
    (hdir : ∀ x ∈ m.hidden, dir.path = x.path ∧ dir.current ≠ x.number) {x : Hidden}
    (hx : x ∈ m.hidden) (hroot : d.isDirectory x.root = true) : ∃ before after,
      dir.orphans d = before ++ x.number :: after ∧ dir.orphans e = before ++ after := by
  have hpath : dir.generationPath x.number = x.root := by
    rw [generationPath, (hdir x hx).1, Hidden.root]
  have hlisted : dir.generations d = insertNumber x.number (dir.generations e) := by
    rw [generations_erase h.sound x.countable (by rwa [hpath]), hpath,
      generations_congr (h.sound.erase x.root) h.sound' fun name => h.node_of_gone_erase hx _]
  obtain ⟨before, after, hinsert, hothers⟩ := insertNumber_split x.number (dir.generations e)
  have hcurrent : (x.number != dir.current) = true := by simpa using (hdir x hx).2.symm
  refine ⟨before.filter fun n => n != dir.current, after.filter fun n => n != dir.current, ?_, ?_⟩
  · rw [orphans, hlisted, hinsert, List.filter_append, List.filter_cons, if_pos hcurrent]
  · rw [orphans, hothers, List.filter_append]

/-- A sweep of the first disk removes the generation that is being filled as well. -/
theorem runAll_sweep (h : Alike m d e)
    (hdir : ∀ x ∈ m.hidden, dir.path = x.path ∧ dir.current ≠ x.number)
    (hpresent : e.isDirectory dir.path = true) :
    (d.runAll (dir.sweepSteps d)).1 = (e.runAll (dir.sweepSteps e)).1 ∧
      Alike m (d.runAll (dir.sweepSteps d)).2 (e.runAll (dir.sweepSteps e)).2 ∧
      ((e.runAll (dir.sweepSteps e)).1 = true →
        Alike m.swept (d.runAll (dir.sweepSteps d)).2 (e.runAll (dir.sweepSteps e)).2) := by
  have hpath : ∀ x ∈ m.hidden, dir.path = x.path := fun x hx => (hdir x hx).1
  have hpath' : ∀ x ∈ m.swept.hidden, dir.path = x.path := by
    simpa [Mask.swept] using hpath
  have hvisible : ¬ m.Hides dir.path := by
    refine Mask.not_hides ?_
    rintro ⟨x, hx, hguards⟩
    exact Hidden.not_guards_above (hpath x hx ▸ List.prefix_rfl) hguards
  have horphans : ∀ ns, ns ⊆ dir.generations e → ∀ x ∈ m.hidden, x.number ∉ ns :=
    fun ns hns x hx hmem => h.number_not_mem hpath hx (hns hmem)
  have horphans' : ∀ ns, ns ⊆ dir.generations e → ∀ x ∈ m.swept.hidden, x.number ∉ ns := by
    simpa [Mask.swept] using horphans
  rw [runAll_sweepSteps (by rwa [h.isDirectory hvisible]), runAll_sweepSteps hpresent]
  by_cases hroot : ∃ x ∈ m.hidden, d.isDirectory x.root = true
  · obtain ⟨x, hx, hroot⟩ := hroot
    obtain ⟨before, after, hleft, hright⟩ := h.orphans_split hdir hx hroot
    have hall : before ++ after ⊆ dir.generations e := hright ▸ List.filter_sublist.subset
    have hbefore := List.Subset.trans (List.subset_append_left before after) hall
    have hafter := List.Subset.trans (List.subset_append_right before after) hall
    have hfirst := h.runAll_removals hpath (horphans before hbefore) (List.subset_append_left _ _)
    rw [hleft, hright, removals_append, removals_append, List.append_assoc, List.append_assoc,
      runAll_append d (dir.removals before), runAll_append e (dir.removals before), hfirst.1]
    split_ifs with hdone
    · have hstill : (d.runAll (dir.removals before)).2.node? x.root = some .directory := by
        refine node?_runAll (of_decide_eq_true hroot) fun s hs => ?_
        exact (spares_removals hpath (horphans before hbefore) s (List.mem_append_left _ hs)).not_harms
          ⟨x, hx, .inl List.prefix_rfl⟩
      have hremove : (DiskStep.removeDirectory (dir.generationPath x.number)).run
          (d.runAll (dir.removals before)).2 = some ((d.runAll (dir.removals before)).2.erase x.root) := by
        rw [DiskStep.run, generationPath, hpath x hx, if_pos]
        · rfl
        · exact decide_eq_true hstill
      have hrest := (hfirst.2.erase_hidden hx).runAll_removals hpath' (horphans' after hafter)
        (List.Subset.refl _)
      rw [removals_cons, List.cons_append, Disk.runAll, hremove]
      exact ⟨hrest.1, hrest.2.of_swept, fun _ => hrest.2⟩
    · exact ⟨hfirst.1, hfirst.2, fun htrue => absurd htrue hdone⟩
  · have hgone : ∀ x ∈ m.hidden, d.node? x.root = none := fun x hx => by
      refine (h.beside x hx).room.resolve_right fun hroom => hroot ⟨x, hx, ?_⟩
      obtain ⟨-, bytes, hlock⟩ := hroom
      simpa [Path.parent] using h.sound.parent hlock
    have hsame : dir.orphans d = dir.orphans e := by
      rw [orphans, orphans, generations_congr h.sound h.sound' fun name => h.node_of_gone hgone _]
    obtain ⟨hdone, halike⟩ := (h.swept hgone).runAll_removals hpath'
      (horphans' _ List.filter_sublist.subset) (List.Subset.refl _)
    rw [hsame]
    exact ⟨hdone, halike.of_swept, fun _ => halike⟩

end Disk.Alike
end Codebook
