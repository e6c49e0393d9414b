/-
# Opening an index

Opening brings the directory of an index into order, finds or makes the live generation, and takes
its lock. What it leaves is an open index and a disk that agrees with it.

Key definitions: `Index.Opened`.
Key theorems: `IndexDirectory.open_ok`, `Index.openOrCreate_ok`, `Index.serving_open`,
`Index.Opened.serving`.
-/
import Codebook.Proofs.Building
import Codebook.Proofs.Schema

namespace Codebook

namespace IndexDirectory

variable {d d' : Disk} {dir : IndexDirectory} {root path : Path} {name : String} {n : Nat}

theorem makeDirectory_ok (hd : d.Sound)
    (h : effect (perform IndexError.io [.makeDirectory path]) d = (.ok (), d')) :
    d'.Sound ∧ ∀ q m, d.node? q = some m → d'.node? q = some m := by
  obtain ⟨hsound, hkeep⟩ := perform_keep h
  refine ⟨hsound hd, fun q m hm => hkeep q m (fun step hstep => ?_) hm⟩
  rw [List.mem_singleton.mp hstep]
  exact id

/-- The number that is found is that in the pointer. -/
theorem findCurrent_ok (hd : d.Sound) (h : effect (findCurrent path name) d = (.ok n, d')) :
    d'.Sound ∧ Points ⟨path, name, n⟩ d' := by
  unfold findCurrent at h
  rw [effect_bind_ok (effect_get d)] at h
  obtain ⟨found, d₀, hlift, h₁⟩ := bind_ok h
  obtain ⟨hread, rfl⟩ := lift_ok hlift
  cases found with
  | some m =>
    obtain ⟨rfl, rfl⟩ := pure_ok h₁
    refine ⟨hd, ?_⟩
    cases hnode : d.node? (path ++ [pointerName]) with
    | none => simp [readPointer, hnode] at hread
    | some node => exact ⟨node, hnode, fun _ => hread⟩
  | none =>
    obtain ⟨_, d₁, hfirst, hend⟩ := bind_ok h₁
    obtain ⟨rfl, rfl⟩ := pure_ok hend
    obtain ⟨d₂, hmake, hsteps⟩ := Disk.runAll_cons_ok (perform_ok hfirst)
    have hd₁ := congrArg Prod.snd hsteps
    simp only at hd₁
    obtain ⟨holder, hpointer⟩ := pointerSteps_ok hsteps
    exact ⟨hd₁ ▸ (hd.run hmake).runAll, _, hpointer, fun hmax => readPointer_of_written hmax hpointer⟩

/-- The directory of an index is where it was asked for, and its pointer names what is live. -/
theorem open_ok (hd : d.Sound) (h : effect (IndexDirectory.open root name) d = (.ok dir, d')) :
    dir.path = root ++ [name] ∧ dir.name = name ∧ d'.Sound ∧ dir.Points d' := by
  unfold IndexDirectory.open at h
  obtain ⟨_, d₁, hmake, h₁⟩ := bind_ok h
  obtain ⟨hd₁, -⟩ := makeDirectory_ok hd hmake
  obtain ⟨current, d₂, hfind, h₂⟩ := bind_ok h₁
  obtain ⟨hd₂, hpoints⟩ := findCurrent_ok hd₁ hfind
  obtain ⟨_, d₃, henter, h₃⟩ := bind_ok h₂
  obtain ⟨hd₃, hkeep⟩ := makeDirectory_ok hd₂ henter
  obtain ⟨rfl, rfl⟩ := pure_ok h₃
  exact ⟨rfl, rfl, hd₃, hpoints.keep fun n => hkeep _ n⟩

/-- A sweep that comes to its end has done all its steps. -/
theorem runAll_sweep (h : effect dir.sweep d = (.ok n, d')) :
    d.runAll (dir.sweepSteps d) = (true, d') := by
  unfold sweep at h
  obtain ⟨disk, d₁, hpresent, h₁⟩ := bind_ok h
  obtain ⟨rfl, rfl⟩ := presentDisk_ok hpresent
  obtain ⟨_, d₂, hperform, h₂⟩ := bind_ok h₁
  obtain ⟨-, rfl⟩ := pure_ok h₂
  exact perform_ok hperform

/-- A sweep touches nothing but generations that are not live. -/
theorem sweep_ok (h : effect dir.sweep d = (.ok n, d')) :
    (d.Sound → d'.Sound) ∧ ∀ q m, (∀ k, k ≠ dir.current → ¬ dir.generationPath k <+: q) →
      d.node? q = some m → d'.node? q = some m := by
  obtain rfl : (d.runAll (dir.sweepSteps d)).2 = d' := congrArg Prod.snd (runAll_sweep h)
  refine ⟨fun hd => hd.runAll, fun q m hq hm => Disk.node?_runAll hm fun step hstep => ?_⟩
  unfold sweepSteps at hstep
  simp only at hstep
  split_ifs at hstep
  · simp at hstep
  · rcases List.mem_append.mp hstep with hstep | hstep
    · obtain ⟨k, hk, rfl⟩ := List.mem_map.mp hstep
      exact hq k (by simpa using (List.mem_filter.mp hk).2)
    · rw [List.mem_singleton.mp hstep]
      exact id

theorem clearStaleLock_ok {cleared : Bool} (hd : d.Sound) (hp : dir.Points d)
    (h : effect (dir.clearStaleLock dir.currentPath) d = (.ok cleared, d')) :
    d'.Sound ∧ dir.Points d' := by
  unfold clearStaleLock at h
  rw [effect_bind_ok (effect_get d)] at h
  split at h
  · simp only [effect_pure, Prod.mk.injEq] at h
    exact h.2 ▸ ⟨hd, hp⟩
  · obtain ⟨_, d₁, hremove, h₁⟩ := bind_ok h
    obtain ⟨-, rfl⟩ := pure_ok h₁
    obtain ⟨hsound, hkeep⟩ := perform_keep hremove
    refine ⟨hsound hd, hp.keep fun m hm => hkeep _ m (fun step hstep => ?_) hm⟩
    rw [List.mem_singleton.mp hstep, DiskStep.harms]
    exact fun hpre => not_prefix_pointer ((List.prefix_append _ _).trans hpre)
  · simp at h
  · simp at h

end IndexDirectory

namespace Index

open IndexDirectory

variable {i i' : Index} {d d' : Disk} {dir : IndexDirectory} {g : Generation}

theorem effect_readContent_ok {path : Path} (h : effect (readContent path) d = (.ok g, d')) :
    d' = d ∧ d.node? (path ++ [contentName]) = some (.generation g) := by
  unfold readContent at h
  rw [effect_bind_ok (effect_get d)] at h
  split at h
  · rename_i hnode
    simp only [effect_pure, Prod.mk.injEq, Except.ok.injEq] at h
    exact ⟨h.2.symm, h.1 ▸ hnode⟩
  · simp at h

/-- The content that is opened is on the disk and was written under the fields of the schema. -/
theorem openOrCreate_ok (hd : d.Sound) (hp : dir.Points d)
    (h : effect (openOrCreate i dir.currentPath) d = (.ok g, d')) :
    g.layout = i.schema.layout ∧ d'.Sound ∧ dir.Points d' ∧
      d'.node? (dir.currentPath ++ [contentName]) = some (.generation g) := by
  have hcreate : ∀ {d₁}, d₁.Sound → dir.Points d₁ →
      effect (createContent i dir.currentPath) d₁ = (.ok g, d') → g.layout = i.schema.layout ∧
        d'.Sound ∧ dir.Points d' ∧
        d'.node? (dir.currentPath ++ [contentName]) = some (.generation g) := by
    intro d₁ hd₁ hp₁ hc
    obtain ⟨rfl, hsound, hnode, hkeep⟩ := createContent_ok hc
    refine ⟨rfl, hsound hd₁, hp₁.keep fun n hn => ?_, hnode⟩
    rw [hkeep _ generationPath_ne_pointer, hn]
  unfold openOrCreate at h
  rw [effect_bind_ok (effect_get d)] at h
  split_ifs at h with hcontains
  · obtain ⟨g₁, d₁, hread, h₁⟩ := bind_ok h
    obtain ⟨rfl, hnode⟩ := effect_readContent_ok hread
    split_ifs at h₁ with hlayout
    · obtain ⟨rfl, rfl⟩ := pure_ok h₁
      exact ⟨hlayout, hd, hp, hnode⟩
    · obtain ⟨_, d₂, hanew, h₂⟩ := bind_ok h₁
      obtain ⟨hsound, hkeep⟩ := perform_keep hanew
      refine hcreate (hsound hd) (hp.keep fun n hn => hkeep _ n (fun step hstep => ?_) hn) h₂
      simp only [List.mem_cons, List.not_mem_nil, or_false] at hstep
      rcases hstep with rfl | rfl
      · exact not_prefix_pointer
      · exact id
  · exact hcreate hd hp h

theorem serving_take (hd : d.Sound) (hp : dir.Points d)
    (hpath : dir.path = i.config.root ++ [i.name]) (hname : dir.name = i.name)
    (h : effect (do
      let content ← onDisk (openOrCreate i dir.currentPath)
      let writer ← onDisk (createWriter i dir.currentPath content.documents)
      update fun i => { i with writer := some writer, live := some ⟨dir, content⟩ }) (i, d) =
      (.ok (), (i', d'))) :
    ∃ l w, Serving i' d' l w ∧ i'.journal = i.journal ∧ i'.settings = i.settings := by
  obtain ⟨g, ⟨i₁, d₁⟩, hcontent, h₁⟩ := bind_ok h
  obtain ⟨rfl, hcontent'⟩ := onDisk_run hcontent
  obtain ⟨hlayout, hd₁, hp₁, hnode⟩ := openOrCreate_ok hd hp hcontent'
  obtain ⟨w, ⟨i₂, d₂⟩, hwriter, h₂⟩ := bind_ok h₁
  obtain ⟨rfl, hwriter'⟩ := onDisk_run hwriter
  obtain ⟨hwpath, hdocuments, hsound, hlock, hkeep⟩ := createWriter_ok hwriter'
  rw [effect_update] at h₂
  simp only [Prod.mk.injEq, true_and] at h₂
  obtain ⟨rfl, rfl⟩ := h₂
  refine ⟨⟨dir, g⟩, w, ?_, rfl, rfl⟩
  exact {
    live := rfl
    writer := rfl
    root := hpath
    name := hname
    path := hwpath
    documents := hdocuments
    layout := hlayout
    content := by rw [hwpath, hkeep _ (file_ne contentName_ne_lockName.symm _), hnode]
    lock := hwpath ▸ hlock
    pointer := hp₁.keep fun n hn => by rw [hkeep _ generationPath_ne_pointer, hn]
    sound := hsound hd₁ }

/-- **An index that was opened is open**, and what it shows is what the disk holds. -/
theorem serving_open (hd : d.Sound) (hclosed : i.isReady = false)
    (h : effect Index.open (i, d) = (.ok (), (i', d'))) :
    ∃ l w, Serving i' d' l w ∧ i'.journal = i.journal ∧ i'.settings = i.settings := by
  unfold Index.open at h
  rw [effect_bind_ok (effect_current i d)] at h
  simp only [hclosed, Bool.false_eq_true, if_false] at h
  obtain ⟨_, s, hvalid, h₁⟩ := bind_ok h
  obtain ⟨-, rfl⟩ := lift_ok hvalid
  obtain ⟨dir, ⟨i₁, d₁⟩, hopen, h₂⟩ := bind_ok h₁
  obtain ⟨rfl, hopen'⟩ := onDisk_run hopen
  obtain ⟨hpath, hname, hd₁, hp₁⟩ := open_ok hd hopen'
  obtain ⟨swept, ⟨i₂, d₂⟩, hsweep, h₃⟩ := bind_ok h₂
  obtain ⟨rfl, hsweep'⟩ := onDisk_run hsweep
  obtain ⟨hsound, hkeep⟩ := sweep_ok hsweep'
  have hd₂ := hsound hd₁
  have hp₂ : dir.Points d₂ := hp₁.keep fun n => hkeep _ n fun _ _ => not_prefix_pointer
  split_ifs at h₃
  · obtain ⟨cleared, ⟨i₃, d₃⟩, hclear, h₄⟩ := bind_ok h₃
    obtain ⟨rfl, hclear'⟩ := onDisk_run hclear
    obtain ⟨hd₃, hp₃⟩ := clearStaleLock_ok hd₂ hp₂ hclear'
    exact serving_take hd₃ hp₃ hpath hname h₄
  · exact serving_take hd₂ hp₂ hpath hname h₃

/-- The index was opened with these settings, on whatever disk. -/
def Opened (α : Type) [Indexed α] (config : Config) (i : Index) (d : Disk) : Prop :=
  ∃ closed before, Index.new α config = .ok closed ∧ before.Sound ∧
    effect Index.open (closed, before) = (.ok (), (i, d))

theorem Opened.serving {α : Type} [Indexed α] {config : Config} (h : Opened α config i d) :
    Schema.describe α = .ok i.schema ∧ i.config = config ∧ i.journal = none ∧
      ∃ l w, Serving i d l w := by
  obtain ⟨closed, before, hnew, hsound, hopen⟩ := h
  obtain ⟨schema, hschema, hclosed⟩ := bind_eq_ok.mp hnew
  obtain rfl := Except.ok.inj hclosed
  obtain ⟨l, w, hserving, hjournal, hset⟩ := serving_open hsound rfl hopen
  obtain ⟨hs, hc⟩ := Prod.mk.inj hset
  have hs : i.schema = schema := hs
  exact ⟨hs ▸ hschema, hc, hjournal, l, w, hserving⟩

end Index
end Codebook
