/-
# Work done side by side

Two works in tandem are done from states that are related. Both end with values that are related, or
both with the same error, and leave states that are related again. Work that is put together from
parts in tandem is in tandem.

On an index and the disk the states are the same but for what a rebuild makes different. All that is
done with an open or closed index beside the rebuild does the same in both, and so does a rebuild
once the other one has failed.

Key definitions: `Ends`, `Leads`, `Tandem`, `Index.Alike`, `Mask.Covers`.
Key theorems: `Leads.bind`, `Leads.tryCatch`, `Index.tandem_commit`, `Index.leads_open`,
`Index.tandem_open`.
-/
import Codebook.Index.Find
import Codebook.Proofs.Contention
import Codebook.Proofs.Listing

namespace Codebook

section

variable {ε σ τ α α' β β' : Type} {P P' Q Q' E E' : σ → τ → Prop} {V : α → β → Prop}
  {V' : α → β → Prop} {W : α' → β' → Prop}

/-- How two works end: both with values, or both with the same error. -/
inductive Ends (Q E : σ → τ → Prop) (V : α → β → Prop) : Except ε α × σ → Except ε β × τ → Prop
  | ok {a : α} {b : β} {s : σ} {t : τ} : V a b → Q s t → Ends Q E V (.ok a, s) (.ok b, t)
  | error {e : ε} {s : σ} {t : τ} : E s t → Ends Q E V (.error e, s) (.error e, t)

theorem Ends.mono {r : Except ε α × σ} {u : Except ε β × τ} (h : Ends Q E V r u)
    (hv : ∀ a b, V a b → V' a b) (hq : ∀ s t, Q s t → Q' s t) (he : ∀ s t, E s t → E' s t) :
    Ends Q' E' V' r u := by
  cases h with
  | ok hv' hq' => exact .ok (hv _ _ hv') (hq _ _ hq')
  | error he' => exact .error (he _ _ he')

theorem Ends.same {r : Except ε α × σ} {u : Except ε α × τ} (h : Ends Q Q (· = ·) r u) :
    r.1 = u.1 ∧ Q r.2 u.2 := by
  cases h with
  | ok hv hq => exact ⟨congrArg Except.ok hv, hq⟩
  | error he => exact ⟨rfl, he⟩

/-- From states in the first relation two works lead to states in the second if they end with values,
and in the third if they fail. -/
def Leads (P Q E : σ → τ → Prop) (V : α → β → Prop) (x : ExceptT ε (StateM σ) α)
    (y : ExceptT ε (StateM τ) β) : Prop :=
  ∀ s t, P s t → Ends Q E V (effect x s) (effect y t)

/-- Two works keep their states related. -/
abbrev Tandem (R : σ → τ → Prop) (V : α → β → Prop) (x : ExceptT ε (StateM σ) α)
    (y : ExceptT ε (StateM τ) β) : Prop :=
  Leads R R R V x y

namespace Leads

variable {x : ExceptT ε (StateM σ) α} {y : ExceptT ε (StateM τ) β}

theorem pure {a : α} {b : β} (hv : V a b) :
    Leads P P E V (Pure.pure a : ExceptT ε (StateM σ) α) (Pure.pure b : ExceptT ε (StateM τ) β) :=
  fun _ _ h => .ok hv h

theorem throw (e : ε) : Leads P Q P V (MonadExcept.throw e : ExceptT ε (StateM σ) α)
    (MonadExcept.throw e : ExceptT ε (StateM τ) β) :=
  fun _ _ h => .error h

theorem throw_bind (e : ε) (f : α' → ExceptT ε (StateM σ) α) (g : β' → ExceptT ε (StateM τ) β) :
    Leads P Q P V ((MonadExcept.throw e : ExceptT ε (StateM σ) α') >>= f)
      ((MonadExcept.throw e : ExceptT ε (StateM τ) β') >>= g) := by
  intro s t h
  rw [effect_bind_error (effect_throw e s), effect_bind_error (effect_throw e t)]
  exact .error h

theorem lift (r : Except ε α) : Leads P P P (fun a b => a = b ∧ r = .ok b)
    (liftM r : ExceptT ε (StateM σ) α) (liftM r : ExceptT ε (StateM τ) α) := by
  intro s t h
  rw [effect_lift, effect_lift]
  cases r with
  | ok a => exact .ok ⟨rfl, rfl⟩ h
  | error e => exact .error h

theorem mono (hx : Leads P Q E V x y) (hp : ∀ s t, P' s t → P s t) (hv : ∀ a b, V a b → V' a b)
    (hq : ∀ s t, Q s t → Q' s t) (he : ∀ s t, E s t → E' s t) : Leads P' Q' E' V' x y :=
  fun s t h => (hx s t (hp s t h)).mono hv hq he

theorem bind {f : α → ExceptT ε (StateM σ) α'} {g : β → ExceptT ε (StateM τ) β'}
    (hx : Leads P Q E V x y) (hf : ∀ a b, V a b → Leads Q Q' E W (f a) (g b)) :
    Leads P Q' E W (x >>= f) (y >>= g) := by
  intro s t h
  have hends := hx s t h
  rw [effect_bind, effect_bind]
  generalize effect x s = r at hends ⊢
  generalize effect y t = u at hends ⊢
  cases hends with
  | ok hv hq => exact hf _ _ hv _ _ hq
  | error he => exact .error he

theorem tryCatch {h : ε → ExceptT ε (StateM σ) α} {k : ε → ExceptT ε (StateM τ) β}
    (hx : Leads P Q E V x y) (hh : ∀ e, Leads E Q E' V (h e) (k e)) :
    Leads P Q E' V (MonadExcept.tryCatch x h) (MonadExcept.tryCatch y k) := by
  intro s t hp
  have hends := hx s t hp
  rw [show effect (MonadExcept.tryCatch x h) s = _ from effect_tryCatch x h s,
    show effect (MonadExcept.tryCatch y k) t = _ from effect_tryCatch y k t]
  generalize effect x s = r at hends ⊢
  generalize effect y t = u at hends ⊢
  cases hends with
  | ok hv hq => exact .ok hv hq
  | error he => exact hh _ _ _ he

theorem get_bind {f : σ → ExceptT ε (StateM σ) α} {g : τ → ExceptT ε (StateM τ) β}
    (hf : ∀ s t, P s t → Leads P Q E V (f s) (g t)) : Leads P Q E V (get >>= f) (get >>= g) := by
  intro s t h
  rw [effect_bind_ok (effect_get s), effect_bind_ok (effect_get t)]
  exact hf s t h s t h

end Leads

end

/-! ### Indexes -/

/-- A writer with the number that it has as a holder. -/
def Mask.writer (m : Mask) (w : Writer) : Writer :=
  { w with holder := m.holder w.holder }

namespace Index

open IndexDirectory

variable {m : Mask} {i j : Index} {d e : Disk} {l : Live} {w : Writer}

/-- The indexes are the same apart from what the mask covers. While a generation is being filled only
the first one has a journal, and both use another generation of the same directory. -/
structure Alike (m : Mask) (i j : Index) : Prop where
  schema : i.schema = j.schema
  config : i.config = j.config
  priority : i.priority = j.priority
  writer : i.writer = j.writer.map m.writer
  live : i.live = j.live
  journal : m.hidden = none → i.journal = j.journal
  idle : m.hidden ≠ none → j.journal = none
  statistics : i.statistics = { j.statistics with errors := j.statistics.errors + m.failures }
  path : ∀ h ∈ m.hidden, h.path = j.config.root ++ [j.name]
  current : ∀ h ∈ m.hidden, ∀ l, j.live = some l →
    l.directory.path = h.path ∧ l.directory.current ≠ h.number
  written : ∀ h ∈ m.hidden, ∀ w, j.writer = some w →
    ∃ c, c ≠ h.number ∧ w.path = h.path ++ [generationName c]

namespace Alike

theorem name (h : Alike m i j) : i.name = j.name := by
  rw [Index.name, Index.name, h.schema]

theorem emptyContent (h : Alike m i j) : i.emptyContent = j.emptyContent := by
  rw [Index.emptyContent, Index.emptyContent, h.schema]

/-- The generation of the writer is not the one that is being filled. -/
theorem not_guards_writer (h : Alike m i j) (hw : j.writer = some w) {q : Path} (hq : w.path <+: q) :
    ¬ m.Guards q := by
  rintro ⟨x, hx, hguards⟩
  obtain ⟨c, hc, hpath⟩ := h.written x hx w hw
  exact Hidden.not_guards_beside hc (hpath ▸ hq) hguards

/-- Nor is the one that searches see. -/
theorem not_guards_live (h : Alike m i j) (hl : j.live = some l) {q : Path}
    (hq : l.directory.currentPath <+: q) : ¬ m.Guards q := by
  rintro ⟨x, hx, hguards⟩
  obtain ⟨hpath, hc⟩ := h.current x hx l hl
  exact Hidden.not_guards_beside hc (by rwa [currentPath, generationPath, hpath] at hq) hguards

theorem swept (h : Alike m i j) : Alike m.swept i j := by
  refine { h with journal := ?_, idle := ?_, path := ?_, current := ?_, written := ?_ }
  · simpa [Mask.swept] using h.journal
  · simpa [Mask.swept] using h.idle
  · simpa [Mask.swept] using h.path
  · simpa [Mask.swept] using h.current
  · simpa [Mask.swept] using h.written

theorem of_swept (h : Alike m.swept i j) : Alike m i j := by
  refine { h with journal := ?_, idle := ?_, path := ?_, current := ?_, written := ?_ }
  · simpa [Mask.swept] using h.journal
  · simpa [Mask.swept] using h.idle
  · simpa [Mask.swept] using h.path
  · simpa [Mask.swept] using h.current
  · simpa [Mask.swept] using h.written

end Alike
end Index

/-- The states are the same apart from what the mask covers. -/
structure Mask.Covers (m : Mask) (s t : Index × Disk) : Prop where
  index : Index.Alike m s.1 t.1
  disk : Disk.Alike m s.2 t.2

theorem Mask.Covers.of_swept {m : Mask} {s t : Index × Disk} (h : m.swept.Covers s t) : m.Covers s t :=
  ⟨h.index.of_swept, h.disk.of_swept⟩

namespace Index

open IndexDirectory

variable {α β : Type} {m m' : Mask} {V : α → β → Prop}

/-! ### Parts -/

theorem leads_onDisk {x : DiskM IndexError α} {y : DiskM IndexError β}
    (hindex : ∀ i j, Alike m i j → Alike m' i j)
    (h : Leads (Disk.Alike m) (Disk.Alike m') (Disk.Alike m) V x y) :
    Leads m.Covers m'.Covers m.Covers V (onDisk x) (onDisk y) := by
  rintro ⟨i, d⟩ ⟨j, e⟩ ⟨hij, hde⟩
  have hends := h d e hde
  rw [effect_onDisk, effect_onDisk]
  generalize effect x d = r at hends ⊢
  generalize effect y e = u at hends ⊢
  cases hends with
  | ok hv hq => exact .ok hv ⟨hindex i j hij, hq⟩
  | error he => exact .error ⟨hij, he⟩

theorem tandem_onDisk {x : DiskM IndexError α} {y : DiskM IndexError β}
    (h : Tandem (Disk.Alike m) V x y) : Tandem m.Covers V (onDisk x) (onDisk y) :=
  leads_onDisk (fun _ _ => id) h

theorem effect_lookup (search : LookupM α) (i : Index) (d : Disk) :
    effect (lookup search) (i, d) = ((effect search i).1, ((effect search i).2, d)) := by
  unfold lookup
  rw [effect_bind_ok (effect_get (i, d))]
  show effect (set ((effect search i).2, d) >>= fun _ => liftM (effect search i).1) (i, d) = _
  rw [effect_bind_ok (effect_set _ _), effect_lift]

theorem tandem_lookup {x : LookupM α} {y : LookupM β} (h : Tandem (Alike m) V x y) :
    Tandem m.Covers V (lookup x) (lookup y) := by
  rintro ⟨i, d⟩ ⟨j, e⟩ ⟨hij, hde⟩
  have hends := h i j hij
  rw [effect_lookup, effect_lookup]
  generalize effect x i = r at hends ⊢
  generalize effect y j = u at hends ⊢
  cases hends with
  | ok hv hq => exact .ok hv ⟨hq, hde⟩
  | error he => exact .error ⟨he, hde⟩

theorem tandem_update {f g : Index → Index}
    (h : ∀ i j, Alike m i j → Index.Alike m (f i) (g j)) :
    Tandem m.Covers (· = ·) (update f) (update g) :=
  fun _ _ hst => .ok rfl ⟨h _ _ hst.index, hst.disk⟩

theorem current_bind {P : Index × Disk → Index × Disk → Prop} {f : Index → IndexM α}
    {g : Index → IndexM β} {Q E : Index × Disk → Index × Disk → Prop}
    (h : ∀ s t, P s t → Leads P Q E V (f s.1) (g t.1)) :
    Leads P Q E V (current >>= f) (current >>= g) := by
  rintro ⟨i, d⟩ ⟨j, e⟩ hst
  rw [effect_bind_ok (effect_current i d), effect_bind_ok (effect_current j e)]
  exact h _ _ hst _ _ hst

theorem tandem_perform {steps steps' : List DiskStep} {failure : IndexError}
    (hsteps : ∀ s ∈ steps, m.Spares s) (hsame : steps' = steps.map m.step) :
    Tandem (Disk.Alike m) (· = ·) (perform failure steps') (perform failure steps) := by
  intro d e h
  obtain ⟨hdone, halike⟩ := h.runAll hsteps
  rw [effect_perform, effect_perform, hsame, hdone]
  split_ifs
  · exact .ok rfl halike
  · exact .error halike

theorem tandem_release {w : Writer} (hw : ¬ m.Guards (w.path ++ [lockName])) :
    Tandem m.Covers (· = ·) (onDisk (perform IndexError.io (Writer.releaseSteps (m.writer w))))
      (onDisk (perform IndexError.io (Writer.releaseSteps w))) := by
  have hspares : ∀ s ∈ Writer.releaseSteps w, m.Spares s := fun s hs => by
    rw [List.mem_singleton.mp hs]
    exact hw
  exact tandem_onDisk (tandem_perform hspares rfl)

theorem tandem_readContent {path : Path} (hg : ¬ m.Guards (path ++ [contentName])) :
    Tandem (Disk.Alike m) (· = ·) (readContent path) (readContent path) := by
  refine Leads.get_bind fun d e h => ?_
  rw [h.node _ (Mask.not_hides hg)]
  cases e.node? (path ++ [contentName]) with
  | none => exact Leads.throw _
  | some n => cases n with
    | directory => exact Leads.throw _
    | generation g => exact Leads.pure rfl
    | file bytes holder => cases holder <;> exact Leads.throw _

/-! ### Transactions -/

theorem tandem_failed (e : IndexError) :
    Tandem m.Covers V (failed e : IndexM α) (failed e : IndexM β) := by
  refine Leads.bind (tandem_update fun i j h => ?_) fun _ _ _ => Leads.throw e
  refine { h with statistics := ?_ }
  rw [h.statistics]
  simp only [Statistics.recordError, Statistics.mk.injEq, true_and]
  omega

/-- Changes are applied to what a writer has. -/
theorem tandem_applyTo {w : Writer} (hw : ∀ q, w.path <+: q → ¬ m.Guards q) (changes : List Change) :
    Tandem m.Covers (fun v v' => v = m.writer v' ∧ v'.path = w.path) (applyTo (m.writer w) changes)
      (applyTo w changes) := by
  refine current_bind fun s t h => ?_
  rw [h.index.emptyContent, h.index.schema]
  refine Leads.bind (tandem_onDisk (tandem_perform ?_ rfl)) fun _ _ _ => Leads.pure ⟨rfl, rfl⟩
  intro step hstep
  rw [List.mem_singleton.mp hstep]
  exact hw _ (List.prefix_append _ _)

theorem tandem_begin : Tandem m.Covers (· = ·) begin begin := by
  refine current_bind fun s t h => ?_
  rw [h.index.writer, h.index.name, Option.isNone_map]
  split_ifs
  · exact Leads.throw_bind _ _ _
  · exact Leads.pure rfl

theorem tandem_rollback : Tandem m.Covers (· = ·) rollback rollback :=
  tandem_update fun _ _ h => { h with statistics := congrArg Statistics.recordRollback h.statistics }

theorem tandem_refresh : Tandem m.Covers (· = ·) refresh refresh := by
  refine current_bind fun s t h => ?_
  rw [h.index.live]
  cases hl : t.1.live with
  | none =>
    refine current_bind fun s t h => ?_
    rw [h.index.name]
    exact Leads.throw _
  | some l =>
    refine Leads.bind (tandem_onDisk (tandem_readContent
      (h.index.not_guards_live hl (List.prefix_append _ _)))) fun g g' hg => ?_
    subst hg
    exact tandem_update fun i j hij => { hij with
      live := rfl
      current := fun x hx l' hl' => (Option.some.inj hl') ▸ h.index.current x hx l hl }

theorem tandem_commit (t : Transaction) : Tandem m.Covers (· = ·) (commit t) (commit t) := by
  refine current_bind fun s u h => ?_
  rw [h.index.writer]
  cases hw : u.1.writer with
  | none =>
    rw [h.index.name]
    exact Leads.throw _
  | some w =>
    rw [Option.map_some]
    dsimp only
    split_ifs
    · exact tandem_update fun i j hij => { hij with
        statistics := congrArg (Statistics.recordCommit · 0 0) hij.statistics }
    · have hbeside : ∀ q, w.path <+: q → ¬ m.Guards q := fun q => h.index.not_guards_writer hw
      refine Leads.bind (Leads.tryCatch (tandem_applyTo hbeside t.changes) tandem_failed) ?_
      rintro _ v ⟨rfl, hpath⟩
      refine Leads.bind (tandem_update fun i j hij => ?_) fun _ _ _ => tandem_refresh
      exact { hij with
        writer := rfl
        journal := fun hm => by rw [hij.journal hm]
        idle := fun hm => by rw [hij.idle hm]; rfl
        statistics := by rw [hij.statistics]; rfl
        written := fun x hx v' hv' => by
          obtain rfl := Option.some.inj hv'
          rw [hpath]
          exact h.index.written x hx w hw }

theorem tandem_close : Tandem m.Covers (· = ·) close close := by
  refine current_bind fun s t h => ?_
  rw [h.index.writer]
  have hend : Tandem m.Covers (· = ·) (update fun i => { i with writer := none, live := none })
      (update fun i => { i with writer := none, live := none }) :=
    tandem_update fun i j hij => { hij with
      writer := rfl
      live := rfl
      current := fun x hx l hl => by simp at hl
      written := fun x hx w hw => by simp at hw }
  cases hw : t.1.writer with
  | none => exact hend
  | some w =>
    have hguards := h.index.not_guards_writer hw (List.prefix_append w.path [lockName])
    exact Leads.bind (tandem_release hguards) fun _ _ _ => hend

theorem tandem_searcher : Tandem (Alike m) (· = ·) searcher searcher := by
  refine Leads.get_bind fun i j h => ?_
  rw [h.live]
  cases j.live with
  | none =>
    refine Leads.get_bind fun i j h => ?_
    rw [h.name]
    exact Leads.throw _
  | some l => exact Leads.pure rfl

theorem tandem_recordSearch : Tandem (Alike m) (· = ·) recordSearch recordSearch :=
  fun _ _ h => .ok rfl { h with statistics := congrArg Statistics.recordSearch h.statistics }

theorem tandem_find (α : Type) [Indexed α] (c : Criteria) :
    Tandem (Alike m) (· = ·) (find α c) (find α c) := by
  refine Leads.get_bind fun i j h => ?_
  rw [compile, compile, h.schema, h.config]
  refine Leads.bind (Leads.lift _) ?_
  rintro q _ ⟨rfl, -⟩
  refine Leads.bind tandem_searcher fun g g' hg => ?_
  subst hg
  refine Leads.bind tandem_recordSearch fun _ _ _ => ?_
  exact (Leads.lift _).mono (fun _ _ => id) (fun _ _ h => h.1) (fun _ _ => id) fun _ _ => id

/-! ### Opening -/

theorem spares_pointerSteps (hm : m.hidden = none) {path : Path} {n : Nat} :
    ∀ s ∈ pointerSteps path n, m.Spares s := by
  intro s hs
  simp only [pointerSteps, List.mem_cons, List.not_mem_nil, or_false] at hs
  rcases hs with rfl | rfl | rfl | rfl <;> exact Mask.spares_of_none hm (by simp)

theorem tandem_findCurrent {path : Path} {name : String} (hpath : ∀ x ∈ m.hidden, x.path = path) :
    Tandem (Disk.Alike m) (fun n n' => n = n' ∧ ∀ x ∈ m.hidden, n' ≠ x.number)
      (findCurrent path name) (findCurrent path name) := by
  refine Leads.get_bind fun d e h => ?_
  rw [h.readPointer_path hpath name]
  refine Leads.bind (Leads.lift _) ?_
  rintro found _ ⟨rfl, hread⟩
  cases found with
  | some n =>
    refine Leads.pure ⟨rfl, fun x hx => ?_⟩
    obtain ⟨c, hc, hpointer⟩ := (h.beside x hx).pointer
    rw [← hpath x hx, hpointer name] at hread
    obtain rfl : c = n := by simpa using hread
    exact hc
  | none =>
    -- where a generation is being filled there is a pointer
    have hnone : m.hidden = none := by
      refine Option.eq_none_iff_forall_not_mem.mpr fun x hx => ?_
      obtain ⟨c, -, hpointer⟩ := (h.beside x hx).pointer
      rw [← hpath x hx, hpointer name] at hread
      simp at hread
    have hspares : ∀ step ∈ firstSteps path, m.Spares step := fun step hstep => by
      rcases List.mem_cons.mp hstep with rfl | hstep
      · exact Mask.spares_of_none hnone (by simp)
      · exact spares_pointerSteps hnone step hstep
    exact Leads.bind (tandem_perform hspares rfl)
      fun _ _ _ => Leads.pure ⟨rfl, fun x hx => by simp [hnone] at hx⟩

theorem tandem_openDirectory {root : Path} {name : String}
    (hpath : ∀ x ∈ m.hidden, x.path = root ++ [name]) :
    Tandem (Disk.Alike m)
      (fun dir dir' => dir = dir' ∧ ∀ x ∈ m.hidden, dir'.path = x.path ∧ dir'.current ≠ x.number)
      (IndexDirectory.open root name) (IndexDirectory.open root name) := by
  have habove : ∀ q, q <+: root ++ [name] → ¬ m.Guards q := by
    rintro q hq ⟨x, hx, hguards⟩
    exact Hidden.not_guards_above (hpath x hx ▸ hq) hguards
  refine Leads.bind (tandem_perform ?_ rfl) fun _ _ _ => ?_
  · intro step hstep
    rw [List.mem_singleton.mp hstep]
    exact habove
  refine Leads.bind (tandem_findCurrent hpath) fun n n' => ?_
  rintro ⟨rfl, hn⟩
  refine Leads.bind (tandem_perform ?_ rfl) fun _ _ _ => Leads.pure ⟨rfl, fun x hx =>
    ⟨(hpath x hx).symm, hn x hx⟩⟩
  intro step hstep
  rw [List.mem_singleton.mp hstep]
  intro q hq
  rcases List.prefix_concat_iff.mp hq with rfl | hq
  · rintro ⟨x, hx, hguards⟩
    exact Hidden.not_guards_beside (hn x hx) (hpath x hx ▸ List.prefix_rfl) hguards
  · exact habove q hq

theorem tandem_clearStaleLock {dir : IndexDirectory} {path : Path}
    (hg : ∀ q, path <+: q → ¬ m.Guards q) :
    Tandem (Disk.Alike m) (· = ·) (dir.clearStaleLock path) (dir.clearStaleLock path) := by
  have hlock := hg _ (List.prefix_append path [lockName])
  refine Leads.get_bind fun d e h => ?_
  rw [h.node _ (Mask.not_hides hlock)]
  cases e.node? (path ++ [lockName]) with
  | none => exact Leads.pure rfl
  | some n => cases n with
    | directory => exact Leads.throw _
    | generation g => exact Leads.throw _
    | file bytes holder => cases holder with
      | some k => exact Leads.throw _
      | none =>
        refine Leads.bind (tandem_perform ?_ rfl) fun _ _ _ => Leads.pure rfl
        intro step hstep
        rw [List.mem_singleton.mp hstep]
        exact fun q hq => hg q ((List.prefix_append _ _).trans hq)

theorem tandem_createContent {i j : Index} (hi : i.emptyContent = j.emptyContent) {path : Path}
    (hg : ∀ q, path <+: q → ¬ m.Guards q) :
    Tandem (Disk.Alike m) (· = ·) (createContent i path) (createContent j path) := by
  unfold createContent
  rw [hi]
  refine Leads.bind (tandem_perform ?_ rfl) fun _ _ _ => Leads.pure rfl
  intro step hstep
  rw [List.mem_singleton.mp hstep]
  exact hg _ (List.prefix_append _ _)

theorem tandem_openOrCreate {i j : Index} (hi : i.schema = j.schema) {path : Path}
    (hg : ∀ q, path <+: q → ¬ m.Guards q) (habove : ∀ q, q <+: path → ¬ m.Guards q) :
    Tandem (Disk.Alike m) (· = ·) (openOrCreate i path) (openOrCreate j path) := by
  have hcontent := hg _ (List.prefix_append path [contentName])
  have hcreate := tandem_createContent (i := i) (j := j)
    (by rw [Index.emptyContent, Index.emptyContent, hi]) hg
  refine Leads.get_bind fun d e h => ?_
  rw [h.contains (Mask.not_hides hcontent), hi]
  split_ifs
  · refine Leads.bind (tandem_readContent hcontent) fun g g' hg' => ?_
    subst hg'
    split_ifs
    · exact Leads.pure rfl
    · refine Leads.bind (tandem_perform ?_ rfl) fun _ _ _ => hcreate
      intro step hstep
      simp only [List.mem_cons, List.not_mem_nil, or_false] at hstep
      rcases hstep with rfl | rfl
      · exact hg
      · exact habove
  · exact hcreate

theorem tandem_createWriter {i j : Index} (hname : i.name = j.name) (hconfig : i.config = j.config)
    {path : Path} (hg : ∀ q, path <+: q → ¬ m.Guards q) (documents : List Document) :
    Tandem (Disk.Alike m) (fun w w' => w = m.writer w' ∧ w'.path = path)
      (createWriter i path documents) (createWriter j path documents) := by
  intro d e h
  have hlock := hg _ (List.prefix_append path [lockName])
  have hnumber : m.holder e.holders = d.holders := by
    rw [Mask.holder, if_neg (Nat.not_lt.mpr h.first), h.holders]
  unfold createWriter
  rw [effect_bind_ok (effect_get d), effect_bind_ok (effect_get e), hname, hconfig, effect_bind,
    effect_bind, effect_perform_one, effect_perform_one]
  have hrel := h.lock hlock
  generalize (DiskStep.lock _ d.holders).run d = locked at hrel ⊢
  generalize (DiskStep.lock _ e.holders).run e = locked' at hrel ⊢
  cases hrel with
  | none => exact .error h
  | some halike =>
    simp only
    rw [effect_bind_ok (effect_modify _ _), effect_bind_ok (effect_modify _ _)]
    refine (?_ : Tandem (Disk.Alike m) _ _ _) _ _ halike
    split_ifs
    · have hspares : ∀ s ∈ [DiskStep.unlock (path ++ [lockName]) e.holders], m.Spares s :=
        fun s hs => by
          rw [List.mem_singleton.mp hs]
          exact hlock
      exact Leads.bind (tandem_perform hspares (by simp [Mask.step, hnumber]))
        fun _ _ _ => Leads.throw_bind _ _ _
    · exact Leads.pure ⟨by simp [Mask.writer, hnumber], rfl⟩

/-- A sweep removes the generation that is being filled along with those that are not live. -/
theorem leads_sweep {dir : IndexDirectory}
    (hdir : ∀ x ∈ m.hidden, dir.path = x.path ∧ dir.current ≠ x.number) :
    Leads (Disk.Alike m) (Disk.Alike m.swept) (Disk.Alike m) (fun _ _ => True) dir.sweep dir.sweep := by
  intro d e h
  have hvisible : ¬ m.Hides dir.path := by
    refine Mask.not_hides ?_
    rintro ⟨x, hx, hguards⟩
    exact Hidden.not_guards_above ((hdir x hx).1 ▸ List.prefix_rfl) hguards
  by_cases hpresent : e.isDirectory dir.path = true
  · obtain ⟨hdone, hany, hall⟩ := h.runAll_sweep hdir hpresent
    unfold sweep
    rw [effect_bind_ok (effect_presentDisk hpresent),
      effect_bind_ok (effect_presentDisk (by rwa [h.isDirectory hvisible])), effect_bind, effect_bind,
      effect_perform, effect_perform, hdone]
    split_ifs with hswept
    · exact .ok trivial (hall hswept)
    · exact .error hany
  · have habsent : ∀ {d : Disk}, d.isDirectory dir.path ≠ true →
        effect dir.sweep d = (.error .io, d) := by
      intro d hd
      refine effect_bind_error ?_ _
      unfold presentDisk
      rw [effect_bind_ok (effect_get d), if_neg hd]
      rfl
    rw [habsent hpresent, habsent (by rwa [h.isDirectory hvisible])]
    exact .error h

/-- The content and the writer of an index that is opened. -/
theorem tandem_take {i j : Index} (hij : Alike m i j) {dir : IndexDirectory}
    (hdir : ∀ x ∈ m.hidden, dir.path = x.path ∧ dir.current ≠ x.number) :
    Tandem m.Covers (· = ·)
      (do
        let content ← onDisk (openOrCreate i dir.currentPath)
        let writer ← onDisk (createWriter i dir.currentPath content.documents)
        update fun i => { i with writer := some writer, live := some ⟨dir, content⟩ })
      (do
        let content ← onDisk (openOrCreate j dir.currentPath)
        let writer ← onDisk (createWriter j dir.currentPath content.documents)
        update fun i => { i with writer := some writer, live := some ⟨dir, content⟩ }) := by
  have hbeside : ∀ q, dir.currentPath <+: q → ¬ m.Guards q := by
    rintro q hq ⟨x, hx, hguards⟩
    obtain ⟨hpath, hc⟩ := hdir x hx
    exact Hidden.not_guards_beside hc (by rwa [currentPath, generationPath, hpath] at hq) hguards
  have habove : ∀ q, q <+: dir.currentPath → ¬ m.Guards q := by
    rintro q hq
    rcases List.prefix_concat_iff.mp hq with rfl | hq
    · exact hbeside _ List.prefix_rfl
    · rintro ⟨x, hx, hguards⟩
      exact Hidden.not_guards_above ((hdir x hx).1 ▸ hq) hguards
  refine Leads.bind (tandem_onDisk (tandem_openOrCreate hij.schema hbeside habove)) fun g g' hg => ?_
  subst hg
  refine Leads.bind (tandem_onDisk (tandem_createWriter hij.name hij.config hbeside g.documents)) ?_
  rintro _ w ⟨rfl, hpath⟩
  exact tandem_update fun i j h => { h with
    writer := rfl
    live := rfl
    current := fun x hx l hl => by
      obtain rfl := Option.some.inj hl
      exact hdir x hx
    written := fun x hx w' hw' => by
      obtain rfl := Option.some.inj hw'
      exact ⟨dir.current, (hdir x hx).2, by rw [hpath, currentPath, generationPath, (hdir x hx).1]⟩ }

/-- A closed index is opened on both disks alike, and then there is no generation that is being filled
any more. -/
theorem leads_open : Leads (fun s t => m.Covers s t ∧ t.1.live = none) m.swept.Covers m.Covers (· = ·)
    Index.open Index.open := by
  refine current_bind fun s t ⟨h, hclosed⟩ => ?_
  have hready : t.1.isReady = false := isReady_of_none hclosed
  have hready' : s.1.isReady = false := isReady_of_none (h.index.live.trans hclosed)
  rw [hready, hready', h.index.config, h.index.name, if_neg Bool.false_ne_true,
    if_neg Bool.false_ne_true]
  refine Leads.mono (P := m.Covers) ?_ (fun _ _ h => h.1) (fun _ _ => id) (fun _ _ => id) fun _ _ => id
  refine Leads.bind (Leads.lift _) fun _ _ _ => ?_
  refine Leads.bind (tandem_onDisk (tandem_openDirectory h.index.path)) ?_
  rintro dir _ ⟨rfl, hdir⟩
  have hdir' : ∀ x ∈ m.swept.hidden, dir.path = x.path ∧ dir.current ≠ x.number := by
    simpa [Mask.swept] using hdir
  refine Leads.bind (leads_onDisk (fun _ _ => Alike.swept) (leads_sweep hdir)) fun _ _ _ => ?_
  refine Leads.mono (P := m.swept.Covers) ?_ (fun _ _ => id) (fun _ _ => id) (fun _ _ => id)
    fun _ _ => Mask.Covers.of_swept
  have htake := tandem_take h.index.swept hdir'
  split_ifs
  · refine Leads.bind (tandem_onDisk (tandem_clearStaleLock ?_)) fun _ _ _ => htake
    rintro q hq ⟨x, hx, hguards⟩
    obtain ⟨hpath, hc⟩ := hdir' x hx
    exact Hidden.not_guards_beside hc (by rwa [currentPath, generationPath, hpath] at hq) hguards
  · exact htake

/-- An open index stays as it is. -/
theorem effect_open_ready {i : Index} {d : Disk} (h : i.isReady = true) :
    effect Index.open (i, d) = (.ok (), (i, d)) := by
  unfold Index.open
  rw [effect_bind_ok (effect_current i d), if_pos h]
  rfl

theorem tandem_open : Tandem m.Covers (· = ·) Index.open Index.open := by
  intro s t h
  cases hl : t.1.live with
  | none => exact (leads_open s t ⟨h, hl⟩).mono (fun _ _ => id) (fun _ _ => Mask.Covers.of_swept) fun _ _ => id
  | some l =>
    have hready : t.1.isReady = true := isReady_of_live hl
    have hready' : s.1.isReady = true := isReady_of_live (h.index.live.trans hl)
    rw [effect_open_ready (i := s.1) hready', effect_open_ready (i := t.1) hready]
    exact .ok rfl h

end Index
end Codebook
