/-
# Failed rebuilds are invisible

An index is made, opened on a disk, and from then on requests and rebuilds are asked of it, while
others use the disk elsewhere. If a rebuild fails before its swap, whatever happened before and
whatever is asked meanwhile, then what is left is what the requests alone would have left: the
documents of the live generation with all changes that were committed, the pointer and the generations
as they were, and an index that answers whatever is asked of it as if the rebuild had never been
started. Only the failure was counted.

Key definitions: `Disk.Tidy`, `Index.Reached`, `Index.Unseen`.
Key theorems: `IndexDirectory.open_tidy`, `IndexDirectory.sweep_lone`, `Index.kept_open`,
`Index.Reached.kept`, `Index.Reached.rebuild_unseen`.
-/
import Codebook.Proofs.Ending

namespace Codebook

open IndexDirectory

/-! ### Bringing a directory into order -/

/-- What is named like a generation in the directory of an index is one, under its own name. -/
def Disk.Tidy (d : Disk) (path : Path) : Prop :=
  ∀ name k n, generationNumber? name = some k → d.node? (path ++ [name]) = some n →
    n = .directory ∧ name = generationName k

theorem Disk.tidy_empty (path : Path) : Disk.Tidy {} path := by
  intro name k n _ hn
  simp [Disk.node?] at hn

namespace Disk.Tidy

variable {d d' : Disk} {path : Path} {name : String} {n : Nat}

theorem congr (h : d.Tidy path) (hsame : ∀ name k, generationNumber? name = some k →
    d'.node? (path ++ [name]) = d.node? (path ++ [name])) : d'.Tidy path :=
  fun name k n hname hn => h name k n hname (hsame name k hname ▸ hn)

theorem makeDirectories_self (h : d.Tidy path) (hmake : d.makeDirectories path = some d') :
    d'.Tidy path := by
  refine h.congr fun name k _ => ?_
  rw [(Disk.makeDirectories_some hmake).1, if_neg fun hpre => by simpa using hpre.length_le]

theorem makeDirectories_generation (h : d.Tidy path)
    (hmake : d.makeDirectories (path ++ [generationName n]) = some d') : d'.Tidy path := by
  intro name k node hname hnode
  rw [(Disk.makeDirectories_some hmake).1] at hnode
  split_ifs at hnode with hpre
  · obtain rfl : name = generationName n := by
      simpa using hpre.eq_of_length (by simp)
    exact ⟨(Option.some.inj hnode).symm, by rw [number_of_generationName hname]⟩
  · exact h name k node hname hnode

end Disk.Tidy

namespace IndexDirectory

variable {d d' : Disk} {dir : IndexDirectory} {root path : Path} {name : String} {n : Nat}

theorem findCurrent_tidy (ht : d.Tidy path) (h : effect (findCurrent path name) d = (.ok n, d')) :
    d'.Tidy path ∧ n ≤ Number.maxNat64 := by
  unfold findCurrent at h
  rw [effect_bind_ok (effect_get d)] at h
  obtain ⟨found, d₀, hlift, h₁⟩ := bind_ok h
  obtain ⟨hread, rfl⟩ := lift_ok hlift
  cases found with
  | some m =>
    obtain ⟨rfl, rfl⟩ := pure_ok h₁
    exact ⟨ht, readPointer_le hread⟩
  | none =>
    obtain ⟨_, d₁, hfirst, hend⟩ := bind_ok h₁
    obtain ⟨rfl, rfl⟩ := pure_ok hend
    obtain ⟨d₂, hmake, hsteps⟩ := Disk.runAll_cons_ok (perform_ok hfirst)
    have hturned : d₁ = (d₂.runAll (pointerSteps path 1)).2 := by rw [hsteps]
    refine ⟨(ht.makeDirectories_generation hmake).congr fun name k hname => ?_, by decide⟩
    rw [hturned, Disk.node?_runAll_eq _ (pointerSteps_spare hname)]

/-- The directory of an index that was opened is as tidy as before. -/
theorem open_tidy (ht : d.Tidy (root ++ [name])) (h : effect (IndexDirectory.open root name) d =
    (.ok dir, d')) : d'.Tidy dir.path ∧ dir.current ≤ Number.maxNat64 := by
  unfold IndexDirectory.open at h
  obtain ⟨_, d₁, hmake, h₁⟩ := bind_ok h
  have ht₁ := ht.makeDirectories_self (perform_one_ok hmake)
  obtain ⟨current, d₂, hfind, h₂⟩ := bind_ok h₁
  obtain ⟨ht₂, hmax⟩ := findCurrent_tidy ht₁ hfind
  obtain ⟨_, d₃, henter, h₃⟩ := bind_ok h₂
  obtain ⟨rfl, rfl⟩ := pure_ok h₃
  exact ⟨ht₂.makeDirectories_generation (perform_one_ok henter), hmax⟩

/-- A sweep makes nothing. -/
theorem sweepSteps_makes (dir : IndexDirectory) (disk : Disk) {q : Path} : ∀ step ∈ dir.sweepSteps disk, ¬ step.makes q := by
  intro step hstep
  unfold sweepSteps at hstep
  simp only at hstep
  split_ifs at hstep
  · simp at hstep
  · exact removals_make_nothing dir _ step hstep

/-- After a sweep of a tidy directory the live generation is the only one. -/
theorem sweep_lone (hd : d.Sound) (ht : d.Tidy dir.path) (h : effect dir.sweep d = (.ok n, d'))
    {k : Nat} (hname : generationNumber? name = some k) (hne : name ≠ generationName dir.current) :
    d'.node? (dir.path ++ [name]) = none := by
  cases hnode : d.node? (dir.path ++ [name]) with
  | none =>
    have hkeeps := Disk.node?_runAll_none hnode (sweepSteps_makes dir d)
    rwa [runAll_sweep h] at hkeeps
  | some node =>
    obtain ⟨rfl, rfl⟩ := ht name k node hname hnode
    refine (sweep_removes h (k := k) (List.mem_filter.mpr ⟨?_, ?_⟩)).2
    · exact (mem_generations hd).mpr ⟨generationName k, hnode, hname⟩
    · simpa using fun he : k = dir.current => hne (he ▸ rfl)

theorem clearStaleLock_none {q generation : Path} {cleared : Bool} (hq : d.node? q = none)
    (h : effect (dir.clearStaleLock generation) d = (.ok cleared, d')) : d'.node? q = none := by
  unfold clearStaleLock at h
  rw [effect_bind_ok (effect_get d)] at h
  split at h
  · exact (pure_ok h).2 ▸ hq
  · obtain ⟨_, d₁, hremove, h₁⟩ := bind_ok h
    obtain ⟨-, rfl⟩ := pure_ok h₁
    exact Disk.node?_run_none (perform_one_ok hremove) hq id
  · simp at h
  · simp at h

end IndexDirectory

namespace Index

variable {i i' : Index} {d d' : Disk} {l : Live} {dir : IndexDirectory} {name : String} {k : Nat}

/-- Finding or making the live generation makes no other one. -/
theorem openOrCreate_none {g : Generation} (hne : name ≠ generationName dir.current)
    (hq : d.node? (dir.path ++ [name]) = none)
    (h : effect (openOrCreate i dir.currentPath) d = (.ok g, d')) :
    d'.node? (dir.path ++ [name]) = none := by
  have hcreate : ∀ {d₁}, d₁.node? (dir.path ++ [name]) = none →
      effect (createContent i dir.currentPath) d₁ = (.ok g, d') →
        d'.node? (dir.path ++ [name]) = none := fun hq₁ hc => by
    rw [(createContent_ok hc).2.2.2 _ file_ne_child, hq₁]
  have hout : ¬ dir.path ++ [name] <+: dir.currentPath := fun hpre => by
    have := hpre.eq_of_length (by simp [currentPath, generationPath])
    exact hne (by simpa [currentPath, generationPath] using this)
  unfold openOrCreate at h
  rw [effect_bind_ok (effect_get d)] at h
  split_ifs at h
  · obtain ⟨g₁, d₁, hread, h₁⟩ := bind_ok h
    obtain ⟨rfl, -⟩ := effect_readContent_ok hread
    split_ifs at h₁
    · exact (pure_ok h₁).2 ▸ hq
    · obtain ⟨_, d₂, hanew, h₂⟩ := bind_ok h₁
      have hmakes : ∀ step ∈ [DiskStep.removeDirectory dir.currentPath, .makeDirectory dir.currentPath],
          ¬ step.makes (dir.path ++ [name]) := by simp [DiskStep.makes, hout]
      have hnone := Disk.node?_runAll_none hq hmakes
      rw [perform_ok hanew] at hnone
      exact hcreate hnone h₂
  · exact hcreate hq h

theorem createWriter_heap {path : Path} {documents : List Document} {w : Writer}
    (h : effect (createWriter i path documents) d = (.ok w, d')) :
    i.config.heapPerThread < Config.maxWriterHeapBytes := by
  unfold createWriter at h
  rw [effect_bind_ok (effect_get d)] at h
  obtain ⟨_, d₁, -, h₁⟩ := bind_ok h
  obtain ⟨_, d₂, -, h₂⟩ := bind_ok h₁
  split_ifs at h₂ with hheap
  · obtain ⟨_, _, -, h₃⟩ := bind_ok h₂
    obtain ⟨_, _, hthrow, -⟩ := bind_ok h₃
    simp at hthrow
  · exact Nat.not_le.mp hheap

/-- Taking the lock of the live generation shows it, and makes no other one. -/
theorem takeOver_ok (h : effect (takeOver i dir) (i, d) = (.ok (), (i', d'))) :
    i.config.heapPerThread < Config.maxWriterHeapBytes ∧ (∃ g, i'.live = some ⟨dir, g⟩) ∧
      ∀ name, name ≠ generationName dir.current → d.node? (dir.path ++ [name]) = none →
        d'.node? (dir.path ++ [name]) = none := by
  unfold takeOver at h
  obtain ⟨g, ⟨i₁, d₁⟩, hcontent, h₁⟩ := bind_ok h
  obtain ⟨rfl, hfound⟩ := onDisk_run hcontent
  obtain ⟨w, ⟨i₂, d₂⟩, hwriter, h₂⟩ := bind_ok h₁
  obtain ⟨rfl, htaken⟩ := onDisk_run hwriter
  rw [effect_update] at h₂
  obtain ⟨rfl, rfl⟩ := Prod.mk.inj (Prod.mk.inj h₂).2
  refine ⟨createWriter_heap htaken, ⟨g, rfl⟩, fun name hne hq => ?_⟩
  rw [(createWriter_ok htaken).2.2.2.2 _ file_ne_child, openOrCreate_none hne hq hfound]

/-- **An index that was opened is kept.** -/
theorem kept_open (hd : d.Sound) (hcounted : d.Counted) (ht : d.Tidy (i.config.root ++ [i.name]))
    (hclosed : i.isReady = false) (hjournal : i.journal = none)
    (h : effect Index.open (i, d) = (.ok (), (i', d'))) : ∃ l, Kept i' d' l := by
  obtain ⟨l, w, hserving, hidle, hset⟩ := serving_open hd hclosed h
  obtain ⟨-, hconfig⟩ := Prod.mk.inj hset
  have hcounted' : d'.Counted := by
    have hc := counted_of_tandem (i := i) tandem_open hd hcounted
    rwa [h] at hc
  unfold Index.open at h
  rw [effect_bind_ok (effect_current i d)] at h
  simp only [hclosed, Bool.false_eq_true, if_false] at h
  obtain ⟨_, s, hcheck, h₁⟩ := bind_ok h
  obtain ⟨hvalid, rfl⟩ := lift_ok hcheck
  obtain ⟨dir, ⟨i₁, d₁⟩, hopen, h₂⟩ := bind_ok h₁
  obtain ⟨rfl, hopened⟩ := onDisk_run hopen
  obtain ⟨htidy, hcountable⟩ := open_tidy ht hopened
  obtain ⟨-, -, hd₁, -⟩ := open_ok hd hopened
  obtain ⟨swept, ⟨i₂, d₂⟩, hsweep, h₃⟩ := bind_ok h₂
  obtain ⟨rfl, hswept⟩ := onDisk_run hsweep
  obtain ⟨hheap, ⟨g, hlive⟩, hlone⟩ : i₂.config.heapPerThread < Config.maxWriterHeapBytes ∧
      (∃ g, i'.live = some ⟨dir, g⟩) ∧ ∀ name k, generationNumber? name = some k →
        name ≠ generationName dir.current → d'.node? (dir.path ++ [name]) = none := by
    split_ifs at h₃
    · obtain ⟨cleared, ⟨i₃, d₃⟩, hclear, h₄⟩ := bind_ok h₃
      obtain ⟨rfl, hcleared⟩ := onDisk_run hclear
      obtain ⟨hheap, hlive, hnone⟩ := takeOver_ok h₄
      exact ⟨hheap, hlive, fun name k hname hne => hnone name hne
        (clearStaleLock_none (sweep_lone hd₁ htidy hswept hname hne) hcleared)⟩
    · obtain ⟨hheap, hlive, hnone⟩ := takeOver_ok h₃
      exact ⟨hheap, hlive, fun name k hname hne => hnone name hne
        (sweep_lone hd₁ htidy hswept hname hne)⟩
  obtain rfl : l = ⟨dir, g⟩ := Option.some.inj (hserving.live.symm.trans hlive)
  exact ⟨_, .of_serving hserving (hidle.trans hjournal) (by rw [hconfig, hvalid])
    (by rw [hconfig]; exact hheap) hcountable hcounted' hlone⟩

/-! ### Indexes that can be reached -/

/-- What others do elsewhere on the disk does not matter. -/
theorem Kept.elsewhere (h : Kept i d l) (hsound : d'.Sound) (hcounted : d'.Counted)
    (hsame : ∀ q, l.directory.path <+: q → d'.node? q = d.node? q) : Kept i d' l := by
  have hbelow : ∀ x, l.directory.path <+: l.directory.currentPath ++ [x] := fun x => by
    simp [currentPath, generationPath]
  exact { h with
    sound := hsound
    counted := hcounted
    content := by rw [hsame _ (hbelow _), h.content]
    pointer := h.pointer.keep fun n hn => by rw [hsame _ (List.prefix_append _ _), hn]
    lone := fun name n hn hname => by
      rw [hsame _ (List.prefix_append _ _), h.lone name n hn hname]
    access := by
      rcases h.access with ⟨w, hs⟩ | ⟨hlive, hwriter, bytes, hlock⟩
      · refine .inl ⟨w, hs.keep hsound fun q n hq hn => ?_⟩
        rw [hsame q, hn]
        rcases hq with rfl | rfl | rfl
        · exact hs.path ▸ hbelow _
        · exact hs.path ▸ hbelow _
        · exact List.prefix_append _ _
      · exact .inr ⟨hlive, hwriter, bytes, by rw [hsame _ (hbelow _), hlock]⟩ }

/-- The live generation of a kept index is the only one, and has its own name. -/
theorem Kept.tidy (h : Kept i d l) : d.Tidy l.directory.path := by
  intro name k n hname hn
  by_cases hlive : name = generationName l.directory.current
  · subst hlive
    have hdirectory : d.node? (l.directory.path ++ [generationName l.directory.current]) =
        some .directory := of_decide_eq_true h.isDirectory_current
    exact ⟨Option.some.inj (hn.symm.trans hdirectory), by rw [number_of_generationName hname]⟩
  · rw [h.lone name k hname hlive] at hn
    simp at hn

/-- A rebuild of an index that is closed is refused, and nothing but the failure is counted. -/
theorem effect_beginRebuild_closed (hjournal : i.journal = none) (hlive : i.live = none) :
    effect beginRebuild (i, d) =
      (.error (.closed i.name), ({ i with statistics := i.statistics.recordError }, d)) := by
  have hstart : effect startJournal (i, d) = (.ok (), ({ i with journal := some [] }, d)) := by
    unfold startJournal
    rw [effect_bind_ok (effect_current i d), isRebuilding, hjournal]
    rfl
  have hdirectory : effect liveDirectory ({ i with journal := some [] }, d) =
      (.error (.closed i.name), ({ i with journal := some [] }, d)) := by
    unfold liveDirectory
    rw [effect_bind_ok (effect_current _ d)]
    simp only [hlive]
    rfl
  unfold beginRebuild
  rw [effect_bind_ok hstart, effect_tryCatch, effect_bind_error hdirectory]
  simp only
  unfold dropJournal
  rw [effect_bind_ok (effect_update _ _ d), effect_failed, ← hjournal]

theorem effect_rebuild_closed (fill : Building → IndexM Building) (hjournal : i.journal = none)
    (hlive : i.live = none) : effect (rebuild fill) (i, d) =
      (.error (.closed i.name), ({ i with statistics := i.statistics.recordError }, d)) :=
  effect_bind_error (effect_beginRebuild_closed hjournal hlive) _

/-- The states of an index that was made and opened on a disk, under any settings: requests and
rebuilds are asked of it, with whatever happens while it is rebuilt, and others use the disk elsewhere.
The number of the next generation can always be counted. -/
inductive Reached (α : Type) [Indexed α] : Index → Disk → Prop where
  | opened {config : Config} {closed i : Index} {before d : Disk}
      (hnew : Index.new α config = .ok closed) (hsound : before.Sound) (hcounted : before.Counted)
      (htidy : before.Tidy (closed.config.root ++ [closed.name]))
      (hopen : effect Index.open (closed, before) = (.ok (), (i, d))) : Reached α i d
  | request {i : Index} {d : Disk} (h : Reached α i d) (r : Request) :
      Reached α (r.after α (i, d)).1 (r.after α (i, d)).2
  | rebuild {i i' : Index} {d d' : Disk} {result : Except IndexError Nat} (h : Reached α i d)
      (hcountable : ∀ l, i.live = some l → l.directory.current < Number.maxNat64)
      (moments : List (Moment α))
      (hrebuild : effect (Index.rebuild fun b => fill b moments) (i, d) = (result, (i', d'))) :
      Reached α i' d'
  | elsewhere {i : Index} {d d' : Disk} (h : Reached α i d) (hsound : d'.Sound)
      (hcounted : d'.Counted)
      (hsame : ∀ q, i.config.root ++ [i.name] <+: q → d'.node? q = d.node? q) : Reached α i d'

/-- **Whatever happens to an index, it is kept.** -/
theorem Reached.kept {α : Type} [Indexed α] (h : Reached α i d) : ∃ l, Kept i d l := by
  induction h with
  | opened hnew hsound hcounted htidy hopen =>
    obtain ⟨schema, -, hclosed⟩ := bind_eq_ok.mp hnew
    obtain rfl := Except.ok.inj hclosed
    exact kept_open hsound hcounted htidy rfl rfl hopen
  | request _ r ih =>
    obtain ⟨l, hkept⟩ := ih
    obtain ⟨l', hprogress⟩ := hkept.request (α := α) r
    exact ⟨l', hprogress.kept⟩
  | @rebuild i i' d d' result _ hcountable moments hrebuild ih =>
    obtain ⟨l, hkept⟩ := ih
    cases hready : i.isReady with
    | true =>
      have hmax := hcountable l (hkept.live hready)
      cases result with
      | ok n =>
        obtain ⟨l', hkept', -⟩ := hkept.rebuild_ok hready hmax hrebuild
        exact ⟨l', hkept'⟩
      | error e =>
        obtain ⟨-, -, hundone⟩ := hkept.rebuild_ends hready hmax moments
        obtain ⟨l', hprogress⟩ := hkept.requests (α := α) (Moment.asked i.schema moments)
        exact ⟨l', (hundone e _ hrebuild).kept rfl hprogress.kept⟩
    | false =>
      have hclosed := effect_rebuild_closed (d := d) (fun b => fill b moments) hkept.journal
        (hkept.closed hready).1
      rw [hclosed] at hrebuild
      obtain ⟨rfl, rfl⟩ := Prod.mk.inj (Prod.mk.inj hrebuild).2
      exact ⟨l, hkept.congr rfl rfl rfl rfl rfl⟩
  | elsewhere _ hsound hcounted hsame ih =>
    obtain ⟨l, hkept⟩ := ih
    exact ⟨l, hkept.elsewhere hsound hcounted (hkept.root ▸ hsame)⟩

end Index

/-! ### What a rebuild reads -/

section

variable {α : Type} [Indexed α] {source : Source α} {size : Nat}

/-- A rebuild from a store, if nothing is asked of the index meanwhile. A store of which no page can be
read fails before the first. -/
def Source.moments (source : Source α) (size : Nat) : List (Moment α) :=
  match source.pages size with
  | .ok pages => pages.map .page
  | .error e => [.page (.error e)]

/-- A rebuild has no fault if all pages come and all entities on them can be encoded. -/
theorem Moment.fault?_eq_none_iff {s : Schema} : ∀ {m : List (Moment α)},
    fault? s m = none ↔ ∀ page, .page page ∈ m →
      ∃ as ds, page = .ok as ∧ as.mapM (Document.encode s) = .ok ds
  | [] => by simp [fault?]
  | .page (.error e) :: moments => by simp [fault?]
  | .page (.ok as) :: moments => by
    have ih := fault?_eq_none_iff (s := s) (m := moments)
    unfold fault?
    cases has : as.mapM (Document.encode s) with
    | error e => simp [has]
    | ok ds => simp [has, ih]
  | .request r :: moments => by
    have ih := fault?_eq_none_iff (s := s) (m := moments)
    simp [fault?, ih]

/-- A store that cannot be reached any more is a fault, after however many pages. -/
theorem Source.fault?_failing (s : Schema) (after : Nat) (items : List α) :
    Moment.fault? s ((failing after items).moments size) ≠ none := by
  obtain ⟨e, he⟩ : ∃ e, .page (.error e) ∈ (failing after items).moments size := by
    cases hpages : pagesOf size items <;> simp [moments, failing, hpages, Except.map]
  intro hnone
  obtain ⟨as, ds, hpage, -⟩ := Moment.fault?_eq_none_iff.mp hnone _ he
  simp at hpage

namespace Index

theorem effect_fill_pages : ∀ (pages : List (Except StoreError (List α))) (b : Building)
    (t : Index × Disk), effect (fill b (pages.map .page)) t = effect (addPages b pages) t
  | [], _, _ => rfl
  | .error _ :: _, _, _ => rfl
  | .ok as :: pages, b, t => by
    rw [List.map_cons, fill, effect_bind, effect_addPages, effect_addPages]
    cases as.mapM (Document.encode t.1.schema) with
    | error e => rfl
    | ok ds => exact effect_fill_pages pages (b.add ds) t

variable {i : Index} {d : Disk} {l : Live}

/-- A rebuild from a store is one in which nothing but the pages of the store comes. -/
theorem Kept.effect_rebuildFrom (h : Kept i d l) (hready : i.isReady = true)
    (hmax : l.directory.current < Number.maxNat64) {n : Nat} (hcount : source.count = .ok n) :
    effect (rebuildFrom source) (i, d) =
      effect (rebuild fun b => fill b (source.moments i.config.rebuildPageSize)) (i, d) := by
  obtain ⟨d₁, hbegin, -⟩ := h.effect_beginRebuild hready hmax
  have hcounted : effect (liftM (source.count.mapError IndexError.storage) : IndexM Nat) (i, d) =
      (.ok n, (i, d)) := by
    rw [effect_lift, hcount]
    rfl
  have hread : ∀ b : Building, effect (do
        let pages ← (source.pages (← current).config.rebuildPageSize).mapError IndexError.storage
        addPages b pages : IndexM Building) ({ i with journal := some [] }, d₁) =
      effect (fill b (source.moments i.config.rebuildPageSize)) ({ i with journal := some [] }, d₁) := by
    intro b
    rw [effect_bind_ok (effect_current _ d₁)]
    unfold Source.moments
    simp only
    cases hpages : source.pages i.config.rebuildPageSize with
    | error e => rfl
    | ok pages =>
      rw [effect_fill_pages]
      rfl
  unfold rebuildFrom
  rw [effect_bind_ok hcounted]
  unfold rebuild
  rw [effect_bind_ok hbegin, effect_bind_ok hbegin, effect_bind, effect_bind, effect_tryCatch,
    effect_tryCatch, hread]

/-! ### What a failed rebuild leaves -/

/-- On the disk nothing has changed but the content and the lock of the live generation. -/
structure Untouched (l : Live) (d d' : Disk) : Prop where
  others : ∀ q, ¬ l.directory.currentPath <+: q → d'.node? q = d.node? q
  pointer : d'.node? (l.directory.path ++ [pointerName]) = d.node? (l.directory.path ++ [pointerName])
  generations : l.directory.generations d' = l.directory.generations d

/-- What is left of an index where a rebuild failed while this was asked of it. Once it is open it shows
the documents of the live generation with what was committed. It answers whatever is asked of it as
without the rebuild, and stays the same but for the count of failures and the numbers of the holders of
locks. -/
structure Unseen (α : Type) [Indexed α] (i : Index) (d : Disk) (l : Live) (asked : List Request)
    (s : Index × Disk) : Prop where
  idle : s.1.isRebuilding = false
  ready : s.1.isReady = Request.leavesAll true asked
  failure : s.1.statistics = (Request.afterAll α (i, d) asked).1.statistics.recordError
  untouched : Untouched l d s.2
  shown : ∃ s' l', effect Index.open s = (.ok (), s') ∧ (s.1.isReady = true → s' = s) ∧
    s'.1.live = some l' ∧ s'.1.isRebuilding = false ∧ s'.1.generation? = i.generation? ∧
    l'.content.documents = applyChanges i.schema l.content.documents (Request.committed true asked) ∧
    Untouched l d s'.2
  later : ∃ m : Mask, m.hidden = none ∧ m.failures = 1 ∧ ∀ tasks : List (Task α),
    Task.answers s tasks = Task.answers (Request.afterAll α (i, d) asked) tasks ∧
      m.Covers (Task.afterAll s tasks) (Task.afterAll (Request.afterAll α (i, d) asked) tasks)

/-- The generations are the same where only the live one has changed. -/
theorem Kept.untouched {i' : Index} {d' : Disk} {l' : Live} (h : Kept i d l) (h' : Kept i' d' l')
    (hsame : l'.directory = l.directory)
    (hothers : ∀ q, ¬ l.directory.currentPath <+: q → d'.node? q = d.node? q) : Untouched l d d' where
  others := hothers
  pointer := hothers _ not_prefix_pointer
  generations := by
    refine generations_congr (m := { first := d.holders }) h'.sound h.sound fun name => ?_
    rw [h.counted.node (Nat.le_refl _)]
    by_cases hname : name = generationName l.directory.current
    · have hlive := h'.isDirectory_current
      rw [hsame] at hlive
      rw [hname]
      exact (of_decide_eq_true hlive).trans (of_decide_eq_true h.isDirectory_current).symm
    · exact hothers _ fun hpre => hname (name_of_below hpre)

/-- **A failed rebuild is invisible.** Whatever state an open index has reached, and whatever pages come
and is asked of it while it is rebuilt: a fault of the pages is the answer of the rebuild, one during
which the index is closed fails as well, and one that fails leaves nothing behind. A rebuild from a
store is the one in which the pages of the store come. -/
theorem Reached.rebuild_unseen (h : Reached α i d) (hlive : i.live = some l)
    (hmax : l.directory.current < Number.maxNat64) (moments : List (Moment α)) :
    (∀ (source : Source α) n, source.count = .ok n → effect (rebuildFrom source) (i, d) =
      effect (Index.rebuild fun b => fill b (source.moments i.config.rebuildPageSize)) (i, d)) ∧
    (∀ e, Moment.fault? i.schema moments = some e →
      (effect (Index.rebuild fun b => fill b moments) (i, d)).1 = .error e) ∧
    (.close ∈ Moment.asked i.schema moments →
      ∃ e, (effect (Index.rebuild fun b => fill b moments) (i, d)).1 = .error e) ∧
    ∀ e s, effect (Index.rebuild fun b => fill b moments) (i, d) = (.error e, s) →
      Unseen α i d l (Moment.asked i.schema moments) s := by
  obtain ⟨l₀, hkept⟩ := h.kept
  have hready : i.isReady = true := by rw [isReady, hlive]; rfl
  obtain rfl : l₀ = l := Option.some.inj ((hkept.live hready).symm.trans hlive)
  obtain ⟨hfault, hclose, hfails⟩ := hkept.rebuild_ends hready hmax moments
  refine ⟨fun source n => hkept.effect_rebuildFrom hready hmax, hfault, hclose, fun e s hfail => ?_⟩
  have hcovers := hfails e s hfail
  obtain ⟨l', hprogress⟩ := hkept.requests (α := α) (Moment.asked i.schema moments)
  rw [hready] at hprogress
  have hkept' := hcovers.kept rfl hprogress.kept
  have hothers : ∀ q, ¬ l₀.directory.currentPath <+: q → s.2.node? q = d.node? q := fun q hq => by
    rw [hcovers.disk.node q (Mask.not_hides_none rfl q), hprogress.others q hq]
    exact hkept.counted.node (Nat.le_refl _) q
  have hgeneration : ∀ {j : Index}, j.live = some l' → j.generation? = i.generation? := fun hl => by
    rw [generation?, generation?, hl, hlive, Option.map_some, Option.map_some, hprogress.directory]
  exact {
    idle := by rw [isRebuilding, hkept'.journal]; rfl
    ready := by rw [isReady, hcovers.index.live]; exact hprogress.ready
    failure := hcovers.index.statistics
    untouched := hkept.untouched hkept' hprogress.directory hothers
    shown := by
      cases hopen : s.1.isReady with
      | true =>
        exact ⟨s, l', effect_open_ready hopen, fun _ => rfl, hkept'.live hopen,
          by rw [isRebuilding, hkept'.journal]; rfl, hgeneration (hkept'.live hopen),
          hprogress.documents, hkept.untouched hkept' hprogress.directory hothers⟩
      | false =>
        obtain ⟨w, d', heffect, hreopened, hbeside⟩ := hkept'.effect_open hopen
        refine ⟨_, l', heffect, fun hfalse => by simp at hfalse, rfl,
          by rw [isRebuilding, hreopened.journal]; rfl, hgeneration rfl, hprogress.documents,
          hkept.untouched hreopened hprogress.directory fun q hq => ?_⟩
        rw [hbeside q (hprogress.directory ▸ hq), hothers q hq]
    later := ⟨_, rfl, rfl, fun tasks => Task.answers_covered rfl tasks hcovers⟩ }

end Index

end

/-- A rebuild of records during which one is written and the index is closed, until the connection to
the store is lost. -/
def Record.lost (t : Transaction) : List (Moment Record) :=
  [.page (.ok [.of "a" "x"]), .request (.commit t), .request .close,
    .page (.error (.unavailable "connection lost while paging"))]

theorem Index.Reached.rebuild_unseen_of_records : ∃ t l s,
    Transaction.upsert Record.schema {} (Record.of "b" "y") = .ok t ∧
    Reached Record (Record.opened {}).1 (Record.opened {}).2 ∧
    effect (Index.rebuild fun b => fill b (Record.lost t)) (Record.opened {}) =
      (.error (.storage (.unavailable "connection lost while paging")), s) ∧
    Unseen Record (Record.opened {}).1 (Record.opened {}).2 l [.commit t, .close] s := by
  obtain ⟨t, ht⟩ : ∃ t, Transaction.upsert Record.schema {} (Record.of "b" "y") = .ok t := ⟨_, rfl⟩
  have hlive : (Record.opened {}).1.live =
    some ⟨⟨["index", "Record"], "Record", 1⟩, ⟨Record.schema.layout, []⟩⟩ := rfl
  have hnew : Index.new Record {} = .ok { schema := Record.schema, priority := 60 } := rfl
  have hreached : Reached Record (Record.opened {}).1 (Record.opened {}).2 :=
    .opened hnew Disk.sound_empty Disk.counted_empty (Disk.tidy_empty _) rfl
  obtain ⟨-, hfault, -, hunseen⟩ := rebuild_unseen hreached hlive (by decide) (Record.lost t)
  have herror := hfault _ rfl
  exact ⟨t, _, _, ht, hreached, Prod.ext herror rfl, hunseen _ _ (Prod.ext herror rfl)⟩

end Codebook
