/-
# What single calls leave

Three things that hold of calls one by one, whatever happened before. Transactions end in commits and
rollbacks only, whatever else is done with the index. An opening that fails leaves the index as it was,
and its directory in such order that another opening can be tried. And while the index is closed, what
needs an open one is refused without a trace, but for the counter of failed rebuilds.

Key definitions: `Index.EndsNone`, `DiskStep.Neat`, `Index.FailsQuietly`, `Index.Shut`.
Key theorems: `Index.commit_tally`, `Index.tidy_open`, `Index.open_failsQuietly`, `Index.shut_of_closed`.
-/
import Codebook.Proofs.Handles
import Codebook.Proofs.Recovery

namespace Codebook

open IndexDirectory

/-! ### Transactions that end -/

namespace Index

variable {i i' : Index} {d d' : Disk} {α β : Type}

/-- What kind of index it is, how many transactions were committed, and how many were rolled back. -/
def tally (i : Index) : (Schema × Config) × Nat × Nat :=
  (i.settings, i.statistics.commits, i.statistics.rollbacks)

/-- Work in which no transaction ends, and the settings stay. -/
def EndsNone (work : IndexM α) : Prop :=
  ∀ n, Keeps (fun s : Index × Disk => s.1.tally = n) (fun _ => True) work

theorem EndsNone.bind {work : IndexM α} {next : α → IndexM β} (h : EndsNone work)
    (hnext : ∀ a, EndsNone (next a)) : EndsNone (work >>= next) :=
  fun n => (h n).bind fun a _ => hnext a n

theorem EndsNone.tryCatch {work : IndexM α} {handle : IndexError → IndexM α} (h : EndsNone work)
    (hhandle : ∀ e, EndsNone (handle e)) : EndsNone (MonadExcept.tryCatch work handle) :=
  fun n => (h n).tryCatch fun e => hhandle e n

theorem Quiet.endsNone {work : IndexM α} (h : Quiet work) : EndsNone work := by
  rintro n ⟨i, d⟩ hi
  exact ⟨(congrArg Index.tally (h i d)).trans hi, fun _ _ => trivial⟩

theorem endsNone_update {f : Index → Index} (hf : ∀ i, (f i).tally = i.tally) : EndsNone (update f) :=
  fun _ s hs => ⟨(hf s.1).trans hs, fun _ _ => trivial⟩

theorem endsNone_current {next : Index → IndexM β} (hnext : ∀ i, EndsNone (next i)) :
    EndsNone (current >>= next) :=
  fun n s hs => hnext s.1 n s hs

theorem EndsNone.tally {work : IndexM α} (h : EndsNone work) (s : Index × Disk) :
    (effect work s).2.1.tally = s.1.tally :=
  (h _ s rfl).1

theorem endsNone_open : EndsNone Index.open := by
  have htake : ∀ i dir, EndsNone (takeOver i dir) := fun i dir =>
    (quiet_onDisk _).endsNone.bind fun _ => (quiet_onDisk _).endsNone.bind fun _ =>
      endsNone_update fun _ => rfl
  refine endsNone_current fun i => ?_
  split_ifs
  · exact (quiet_pure _).endsNone
  · exact (quiet_lift _).endsNone.bind fun _ => (quiet_onDisk _).endsNone.bind fun dir =>
      (quiet_onDisk _).endsNone.bind fun _ => (quiet_onDisk _).endsNone.bind fun _ => htake i dir
  · exact (quiet_lift _).endsNone.bind fun _ => (quiet_onDisk _).endsNone.bind fun dir =>
      (quiet_onDisk _).endsNone.bind fun _ => htake i dir

theorem endsNone_close : EndsNone Index.close := by
  have hend : EndsNone (update fun i => { i with writer := none, live := none }) :=
    endsNone_update fun _ => rfl
  refine endsNone_current fun i => ?_
  cases i.writer with
  | none => exact hend
  | some w => exact (quiet_onDisk _).endsNone.bind fun _ => hend

theorem endsNone_failed (e : IndexError) : EndsNone (failed e : IndexM α) :=
  (endsNone_update fun _ => rfl).bind fun _ => (quiet_throw e).endsNone

theorem endsNone_dropJournal (e : IndexError) : EndsNone (dropJournal e : IndexM α) :=
  (endsNone_update fun _ => rfl).bind fun _ => endsNone_failed e

theorem endsNone_beginRebuild : EndsNone beginRebuild := by
  refine EndsNone.bind (endsNone_current fun i => ?_) fun _ => .tryCatch ?_ endsNone_dropJournal
  · split_ifs
    · exact (quiet_throw _).endsNone.bind fun _ => endsNone_update fun _ => rfl
    · exact endsNone_update fun _ => rfl
  · refine quiet_liveDirectory.endsNone.bind fun dir => (quiet_onDisk _).endsNone.bind fun n => ?_
    exact .tryCatch (quiet_startBuilding _ _).endsNone fun e =>
      (quiet_onDisk _).endsNone.bind fun _ => (quiet_throw e).endsNone

theorem endsNone_abandonRebuild (b : Building) (e : IndexError) :
    EndsNone (abandonRebuild b e : IndexM α) :=
  (quiet_onDisk _).endsNone.bind fun _ => (quiet_onDisk _).endsNone.bind fun _ => endsNone_dropJournal e

theorem endsNone_swapIn (n : Nat) (w : Writer) : EndsNone (swapIn n w) := by
  refine EndsNone.bind (endsNone_current fun _ => (endsNone_update fun _ => rfl).bind fun _ =>
    (quiet_pure _).endsNone) fun journal => ?_
  refine (quiet_replay w journal).endsNone.bind fun w' => (quiet_onDisk _).endsNone.bind fun g => ?_
  refine quiet_liveDirectory.endsNone.bind fun dir => (quiet_onDisk _).endsNone.bind fun dir' => ?_
  refine endsNone_current fun i => EndsNone.bind (endsNone_update fun _ => rfl) fun _ => ?_
  exact (quiet_retire i.writer dir.current g.size).endsNone

theorem endsNone_finishRebuild (b : Building) : EndsNone (finishRebuild b) := by
  have hswap : EndsNone (do swapIn b.number (← commitBuilding b)) :=
    (quiet_applyTo _ _).endsNone.bind fun w => endsNone_swapIn b.number w
  refine (hswap.tryCatch (endsNone_abandonRebuild b)).bind fun _ => ?_
  exact (quiet_removeRetired _).endsNone.bind fun _ => (endsNone_update fun _ => rfl).bind fun _ =>
    (quiet_pure _).endsNone

theorem endsNone_refresh : EndsNone refresh := by
  refine endsNone_current fun i => ?_
  cases i.live with
  | none => exact endsNone_current fun _ => (quiet_throw _).endsNone
  | some l => exact (quiet_onDisk _).endsNone.bind fun _ => endsNone_update fun _ => rfl

/-- **A transaction that is committed is counted once.** -/
theorem commit_tally {t : Transaction} (h : effect (commit t) (i, d) = (.ok (), (i', d'))) :
    i'.tally = (i.settings, i.statistics.commits + 1, i.statistics.rollbacks) := by
  unfold commit at h
  rw [effect_bind_ok (effect_current i d)] at h
  cases hwriter : i.writer with
  | none => simp [hwriter] at h
  | some w =>
    simp only [hwriter] at h
    split_ifs at h
    · rw [effect_update] at h
      obtain ⟨rfl, -⟩ := Prod.mk.inj (Prod.mk.inj h).2
      rfl
    · obtain ⟨w', ⟨i₁, d₁⟩, happly, hnote⟩ := bind_ok h
      have hfails : ∀ e s, ∃ e' s', effect (failed e : IndexM Writer) s = (.error e', s') :=
        fun e s => ⟨e, _, effect_failed e s.1 s.2⟩
      obtain rfl := (quiet_applyTo w t.changes).keeps (tryCatch_ok hfails happly)
      rw [effect_bind_ok (effect_update _ i₁ d₁)] at hnote
      have hshown := endsNone_refresh.tally ({ i₁ with
        writer := some w'
        journal := i₁.journal.map (· ++ t.changes)
        statistics := i₁.statistics.recordCommit (writtenCount t.changes)
          (t.size - writtenCount t.changes) }, d₁)
      rwa [hnote] at hshown

end Index


/-! ### Openings that fail -/

/-- What a step makes under the name of a generation is a directory, and has its own name. -/
def DiskStep.Neat (path : Path) (step : DiskStep) : Prop :=
  ∀ name k, generationNumber? name = some k → step.makes (path ++ [name]) →
    ∃ n, step = .makeDirectory (path ++ [generationName n])

namespace Disk.Tidy

variable {d d' : Disk} {path : Path}

theorem run {step : DiskStep} (h : d.Tidy path) (hneat : step.Neat path) (hrun : step.run d = some d') :
    d'.Tidy path := by
  intro name k node hname hnode
  rcases DiskStep.Leaves.found (.inl hrun) (path ++ [name]) with hsame | halters
  · exact h name k node hname (hsame ▸ hnode)
  · rw [hnode] at halters
    have hmakes : step.makes (path ++ [name]) := by
      cases step <;> simp_all [DiskStep.Alters, DiskStep.makes]
    obtain ⟨n, rfl⟩ := hneat name k hname hmakes
    obtain ⟨hpre, -, hmade⟩ := halters
    obtain rfl : name = generationName n := by
      simpa using hpre.eq_of_length (by simp)
    exact ⟨Option.some.inj hmade, by rw [number_of_generationName hname]⟩

theorem runAll : ∀ {steps : List DiskStep} {d : Disk}, d.Tidy path →
    (∀ step ∈ steps, step.Neat path) → (d.runAll steps).2.Tidy path
  | [], _, h, _ => h
  | step :: steps, d, h, hneat => by
    rw [Disk.runAll]
    cases hrun : step.run d with
    | none => exact h
    | some d₁ =>
      have hrest : ∀ s ∈ steps, s.Neat path := fun s hs => hneat s (List.mem_cons_of_mem _ hs)
      exact runAll (h.run (hneat _ List.mem_cons_self) hrun) hrest

end Disk.Tidy

section

variable {ε σ α : Type} {P : σ → Prop}

theorem Keeps.get : Keeps P (fun _ => True) (MonadState.get : ExceptT ε (StateM σ) σ) :=
  fun _ h => ⟨h, fun _ _ => trivial⟩

theorem Keeps.onDisk {Q : Disk → Prop} {V : α → Prop} {work : DiskM IndexError α} (h : Keeps Q V work) :
    Keeps (fun s : Index × Disk => Q s.2) V (Index.onDisk work) := by
  rintro ⟨i, d⟩ hd
  rw [Index.effect_onDisk]
  exact h d hd

end

namespace IndexDirectory

variable {dir : IndexDirectory} {path : Path} {n : Nat} {step : DiskStep}

theorem neat_of_not_makes (h : ∀ name k, generationNumber? name = some k →
    ¬ step.makes (path ++ [name])) : step.Neat path :=
  fun name k hname hmakes => absurd hmakes (h name k hname)

theorem neat_below {p : Path} {x : String} (hp : p = dir.generationPath n ++ [x])
    (hmakes : ∀ q, step.makes q → p = q) : step.Neat dir.path :=
  neat_of_not_makes fun _ _ _ hm => absurd (hp ▸ hmakes _ hm) file_ne_child

theorem tidy_perform {ε : Type} {failure : ε} {steps : List DiskStep}
    (h : ∀ step ∈ steps, step.Neat path) :
    Keeps (fun d : Disk => d.Tidy path) (fun _ => True) (perform failure steps) := by
  intro d hd
  rw [effect_perform]
  exact ⟨hd.runAll h, fun _ _ => trivial⟩

theorem tidy_openDirectory (root : Path) (name : String) :
    Keeps (fun d : Disk => d.Tidy (root ++ [name])) (fun dir => dir.path = root ++ [name])
      (IndexDirectory.open root name) := by
  have hfirst : ∀ step ∈ firstSteps (root ++ [name]), step.Neat (root ++ [name]) := by
    intro step hstep
    rcases List.mem_cons.mp hstep with rfl | hstep
    · exact fun _ _ _ _ => ⟨1, rfl⟩
    · exact neat_of_not_makes fun _ _ hname => (pointerSteps_spare hname step hstep).1
  have hfind : Keeps (fun d : Disk => d.Tidy (root ++ [name])) (fun _ => True)
      (findCurrent (root ++ [name]) name) := by
    refine Keeps.get.bind fun d _ => .bind (V := fun _ => True) (.lift fun _ _ => trivial) fun found _ => ?_
    cases found with
    | some n => exact .pure trivial
    | none => exact (tidy_perform hfirst).bind fun _ _ => .pure trivial
  refine (tidy_perform fun step hstep => ?_).bind fun _ _ => hfind.bind fun n _ =>
    (tidy_perform fun step hstep => ?_).bind fun _ _ => .pure rfl
  · rw [List.mem_singleton.mp hstep]
    exact neat_of_not_makes fun _ _ _ hm => by simpa using hm.length_le
  · rw [List.mem_singleton.mp hstep]
    exact fun _ _ _ _ => ⟨n, rfl⟩

theorem tidy_sweep (dir : IndexDirectory) :
    Keeps (fun d : Disk => d.Tidy dir.path) (fun _ => True) dir.sweep := by
  have hpresent : Keeps (fun d : Disk => d.Tidy dir.path) (fun _ => True) dir.presentDisk := by
    refine Keeps.get.bind fun d _ => ?_
    split_ifs
    · exact .pure trivial
    · exact .throw _
  exact hpresent.bind fun d _ => (tidy_perform fun step hstep =>
    neat_of_not_makes fun _ _ _ => sweepSteps_makes dir d step hstep).bind fun _ _ => .pure trivial

theorem tidy_clearStaleLock (generation : Path) :
    Keeps (fun d : Disk => d.Tidy path) (fun _ => True) (dir.clearStaleLock generation) := by
  refine Keeps.get.bind fun d _ => ?_
  split
  · exact .pure trivial
  · refine (tidy_perform fun step hstep => ?_).bind fun _ _ => .pure trivial
    rw [List.mem_singleton.mp hstep]
    exact neat_of_not_makes fun _ _ _ => id
  · exact .throw _
  · exact .throw _

end IndexDirectory

namespace Index

variable {i i' : Index} {d d' : Disk} {dir : IndexDirectory} {α β : Type} {e : IndexError}

theorem tidy_openOrCreate (i : Index) (dir : IndexDirectory) :
    Keeps (fun d : Disk => d.Tidy dir.path) (fun _ => True) (openOrCreate i dir.currentPath) := by
  have hcreate : Keeps (fun d : Disk => d.Tidy dir.path) (fun _ => True)
      (createContent i dir.currentPath) := by
    refine (tidy_perform fun step hstep => ?_).bind fun _ _ => .pure trivial
    rw [List.mem_singleton.mp hstep]
    exact neat_below rfl fun _ => id
  have hread : Keeps (fun d : Disk => d.Tidy dir.path) (fun _ => True)
      (readContent dir.currentPath) := fun d hd => by
    rw [effect_readContent_state]
    exact ⟨hd, fun _ _ => trivial⟩
  have hanew : ∀ step ∈ [DiskStep.removeDirectory dir.currentPath, .makeDirectory dir.currentPath],
      step.Neat dir.path := by
    intro step hstep
    rcases List.mem_pair.mp hstep with rfl | rfl
    · exact neat_of_not_makes fun _ _ _ => id
    · exact fun _ _ _ _ => ⟨dir.current, rfl⟩
  refine Keeps.get.bind fun d _ => ?_
  split_ifs
  · refine hread.bind fun g _ => ?_
    split_ifs
    · exact .pure trivial
    · exact (tidy_perform hanew).bind fun _ _ => hcreate
  · exact hcreate

theorem tidy_createWriter (i : Index) (dir : IndexDirectory) (documents : List Document) :
    Keeps (fun d : Disk => d.Tidy dir.path) (fun _ => True)
      (createWriter i dir.currentPath documents) := by
  have hcount : ∀ k, Keeps (fun d : Disk => d.Tidy dir.path) (fun _ => True)
      (modify fun disk => { disk with holders := k } : DiskM IndexError PUnit) :=
    fun _ _ hd => ⟨hd, fun _ _ => trivial⟩
  refine Keeps.get.bind fun d _ => (tidy_perform fun step hstep => ?_).bind fun _ _ =>
    (hcount _).bind fun _ _ => ?_
  · rw [List.mem_singleton.mp hstep]
    exact neat_below rfl fun _ => id
  · split_ifs
    · refine (tidy_perform fun step hstep => ?_).bind fun _ _ =>
        .bind (V := fun _ => True) (.throw _) fun _ _ => .pure trivial
      rw [List.mem_singleton.mp hstep]
      exact neat_below rfl fun _ => id
    · exact .pure trivial

/-- However far an opening gets, the directory of the index stays tidy. -/
theorem tidy_open (hclosed : i.isReady = false) (h : d.Tidy (i.config.root ++ [i.name])) :
    (effect Index.open (i, d)).2.2.Tidy (i.config.root ++ [i.name]) := by
  have htake : ∀ dir : IndexDirectory, dir.path = i.config.root ++ [i.name] →
      Keeps (fun s : Index × Disk => s.2.Tidy (i.config.root ++ [i.name])) (fun _ => True)
        (takeOver i dir) := fun dir hdir =>
    .bind (hdir ▸ (tidy_openOrCreate i dir).onDisk) fun g _ =>
      .bind (hdir ▸ (tidy_createWriter i dir g.documents).onDisk) fun _ _ =>
        fun _ hs => ⟨hs, fun _ _ => trivial⟩
  have hclaim : ∀ dir : IndexDirectory, dir.path = i.config.root ++ [i.name] →
      Keeps (fun s : Index × Disk => s.2.Tidy (i.config.root ++ [i.name])) (fun _ => True)
        (claim i dir) := fun dir hdir => by
    unfold claim
    split_ifs
    · exact .bind (tidy_clearStaleLock _).onDisk fun _ _ => htake dir hdir
    · exact htake dir hdir
  have henter : Keeps (fun s : Index × Disk => s.2.Tidy (i.config.root ++ [i.name]))
      (fun _ => True) (enter i) :=
    .bind (V := fun _ => True) (.lift fun _ _ => trivial) fun _ _ =>
      .bind (tidy_openDirectory _ _).onDisk fun dir hdir =>
        .bind (hdir ▸ (tidy_sweep dir).onDisk) fun _ _ => hclaim dir hdir
  rw [effect_open_closed hclosed]
  exact (henter (i, d) h).1

/-- Work that leaves the index alone if it fails. -/
def FailsQuietly (work : IndexM α) : Prop :=
  ∀ i d e s, effect work (i, d) = (.error e, s) → s.1 = i

theorem failsQuietly_update (f : Index → Index) : FailsQuietly (update f) := by
  intro i d e s he
  rw [effect_update] at he
  simp at he

theorem Quiet.bind_failsQuietly {work : IndexM α} {next : α → IndexM β} (h : Quiet work)
    (hnext : ∀ a, FailsQuietly (next a)) : FailsQuietly (work >>= next) := by
  intro i d e s he
  rcases bind_error he with hwork | ⟨a, ⟨i₁, d₁⟩, hwork, hrest⟩
  · exact h.keeps hwork
  · obtain rfl := h.keeps hwork
    exact hnext a i₁ d₁ e s hrest

/-- An opening that fails leaves the index as it was. -/
theorem open_failsQuietly (hclosed : i.isReady = false)
    (h : effect Index.open (i, d) = (.error e, (i', d'))) : i' = i := by
  have htake : ∀ dir, FailsQuietly (takeOver i dir) := fun dir =>
    (quiet_onDisk _).bind_failsQuietly fun _ => (quiet_onDisk _).bind_failsQuietly fun _ =>
      failsQuietly_update _
  have hclaim : ∀ dir, FailsQuietly (claim i dir) := fun dir => by
    unfold claim
    split_ifs
    · exact (quiet_onDisk _).bind_failsQuietly fun _ => htake dir
    · exact htake dir
  have henter : FailsQuietly (enter i) :=
    (quiet_lift _).bind_failsQuietly fun _ => (quiet_onDisk _).bind_failsQuietly fun dir =>
      (quiet_onDisk _).bind_failsQuietly fun _ => hclaim dir
  rw [effect_open_closed hclosed] at h
  exact henter i d e _ h

/-! ### Closed indexes -/

/-- What a closed index answers to whatever needs an open one. Only a rebuild that is refused leaves a
trace, in a counter. -/
structure Shut (i : Index) (d : Disk) : Prop where
  begin : effect begin (i, d) = (.error (.closed i.name), (i, d))
  commit : ∀ t, effect (commit t) (i, d) = (.error (.closed i.name), (i, d))
  refresh : effect refresh (i, d) = (.error (.closed i.name), (i, d))
  searcher : effect searcher i = (.error (.closed i.name), i)
  numDocs : effect numDocs i = (.error (.closed i.name), i)
  find : ∀ (γ : Type) [Indexed γ] (c : Criteria) (q : Compiled), i.compile c = .ok q →
    effect (find γ c) i = (.error (.closed i.name), i)
  isCorrupted : ∀ (γ : Type) (source : Source γ),
    effect (isCorrupted source) (i, d) = (.error (.closed i.name), (i, d))
  rebuild : i.isRebuilding = false → ∀ fill, effect (rebuild fill) (i, d) =
    (.error (.closed i.name), ({ i with statistics := i.statistics.recordError }, d))

theorem shut_of_closed (hwriter : i.writer = none) (hlive : i.live = none) (d : Disk) : i.Shut d := by
  have hsearcher : effect searcher i = (.error (.closed i.name), i) := by
    unfold searcher
    rw [effect_bind_ok (effect_get i), hlive]
    rfl
  have hnumDocs : effect numDocs i = (.error (.closed i.name), i) := effect_bind_error hsearcher _
  refine {
    begin := ?_
    commit := effect_commit_closed hwriter
    refresh := effect_refresh_closed hlive
    searcher := hsearcher
    numDocs := hnumDocs
    find := fun γ _ c q hq => ?_
    isCorrupted := fun γ source => ?_
    rebuild := fun hidle fill => effect_rebuild_closed fill (by simpa [isRebuilding] using hidle) hlive }
  · unfold Index.begin
    rw [effect_bind_ok (effect_current i d), hwriter]
    rfl
  · unfold Index.find
    rw [effect_bind_ok (effect_get i), hq, effect_bind_ok (effect_lift (.ok q) i),
      effect_bind_error hsearcher]
  · have hlookup : effect (lookup numDocs) (i, d) = (.error (.closed i.name), (i, d)) := by
      rw [effect_lookup, hnumDocs]
    exact effect_bind_error hlookup _

end Index

end Codebook
