/-
# Rebuilding until all agree

The indexes of a catalog are verified by counting their documents, and a rebuild that is not forced
rebuilds those whose count is not that of their data file. A unit counts its own index and store and
changes no other service, and an index that was rebuilt has one document for each entity. So once a
rebuild has come through, nothing is left to repair; and if some unit failed, those that did not are
in order all the same.

Key definitions: `Service.Intact`, `Catalog.Accounts`, `Catalog.Turned`, `Session.rebuilding`,
`Session.Reached`, `Session.Passes`, `Session.SkipsAll`.
Key theorems: `Catalog.Orderly.runUnit`, `Catalog.Orderly.runUnits`, `Catalog.Orderly.effect_run`,
`Command.effect_runVerify`, `Session.Reached.orderly`, `Session.Reached.agrees`.
-/
import Codebook.Proofs.Sessions

namespace Codebook

/-! ### The count of a service -/

namespace Service

variable {α : Type} [Indexed α] {s s' : Service α} {d d' : Disk} {n : Nat}

/-- The index is open and has as many documents as the store has entities. -/
def Intact (s : Service α) : Prop :=
  ∃ l, s.index.live = some l ∧ l.content.size = s.store.entities.size

omit [Indexed α] in
theorem effect_count (s : Service α) (d : Disk) : effect (search Index.numDocs) (s, d) =
    (match s.index.live with
      | some l => .ok l.content.size
      | none => .error (.closed s.index.name), (s, d)) := by
  have hcount := Index.effect_lookup Index.numDocs s.index d
  rw [Index.effect_numDocs] at hcount
  exact (effect_onIndex (Index.lookup Index.numDocs) s.index s.store d).trans
    (congrArg (fun r => (r.1, (Service.mk r.2.1 s.store, r.2.2))) hcount)

/-- A service is checked without a trace, too. -/
theorem effect_check (s : Service α) (d : Disk) : effect isCorrupted (s, d) =
    (match s.index.live with
      | some l => .ok (l.content.size != s.store.entities.size)
      | none => .error (.closed s.index.name), (s, d)) := by
  cases hl : s.index.live with
  | some l => exact effect_isCorrupted hl s.store.source_counts.count
  | none =>
    have hcount := Index.effect_lookup Index.numDocs s.index d
    rw [Index.effect_numDocs, hl] at hcount
    have hchecked : effect (Index.isCorrupted s.store.source) (s.index, d) =
        (.error (.closed s.index.name), (s.index, d)) := effect_bind_error hcount _
    show effect (onIndex (Index.isCorrupted s.store.source)) (s, d) = _
    rw [effect_onIndex, hchecked]

/-- The check finds nothing wrong with a service that is intact, and with no other. -/
theorem check_iff (s : Service α) (d : Disk) :
    effect isCorrupted (s, d) = (.ok false, (s, d)) ↔ s.Intact := by
  rw [effect_check, Intact]
  cases s.index.live <;> simp

theorem effect_rebuild (s : Service α) (d : Disk) : effect rebuild (s, d) =
    ((effect (Index.rebuildFrom s.store.source) (s.index, d)).1,
      (⟨(effect (Index.rebuildFrom s.store.source) (s.index, d)).2.1, s.store⟩,
        (effect (Index.rebuildFrom s.store.source) (s.index, d)).2.2)) :=
  effect_onIndex _ _ _ _

/-- Whatever becomes of a rebuild, the index keeps its name. -/
theorem keepsName_rebuild : KeepsName (rebuild : ServiceM α Nat) :=
  fun s d => (Index.endsNone_rebuildFrom s.store.source).keepsName s d

/-- A service that was rebuilt is intact. -/
theorem rebuild_intact (h : effect rebuild (s, d) = (.ok n, (s', d'))) : s'.Intact := by
  rw [effect_rebuild, Prod.mk.injEq, Prod.mk.injEq] at h
  obtain ⟨hn, rfl, rfl⟩ := h
  exact (Index.rebuildFrom_counts s.store.source_counts (Prod.ext hn rfl)).2

end Service

/-! ### Units and their turns -/

namespace Coordinator

/-- Units of different names are all kept, as they were registered. -/
theorem units_registered {σ : Type} {us : List (RebuildUnit σ)}
    (h : (us.map RebuildUnit.name).Nodup) : (registered us).units = us := by
  induction us using List.reverseRecOn with
  | nil => rfl
  | append_singleton us u ih =>
    rw [List.map_append, List.nodup_append] at h
    obtain ⟨hnames, -, hnew⟩ := h
    rw [registered_concat, register, ih hnames, List.filter_eq_self.mpr]
    exact fun v hv => by simpa using hnew _ (List.mem_map_of_mem hv) u.name (by simp)

end Coordinator

theorem RebuildSummary.Exact.isSuccess_iff {summary : RebuildSummary} (h : summary.Exact) :
    summary.isSuccess = true ↔ ∀ r ∈ summary.units, r.status ≠ .failed := by
  simp [RebuildSummary.isSuccess, h.errors, List.countP_eq_zero]

/-- The unit of an entry of a catalog. -/
def CatalogEntry.unit (e : CatalogEntry) : RebuildUnit (Catalog × Disk) :=
  e.service.unit (Catalog.within e.kind)

namespace Catalog

open Coordinator

variable {c c' : Catalog} {d d' : Disk} {k : EntityKind} {e : CatalogEntry} {force : Bool}

/-- The index of a type is open and has as many documents as its data file has entities. -/
def Intact (c : Catalog) (k : EntityKind) : Prop :=
  ∃ s, c.service? k = some s ∧ s.Intact

/-- What the report on a type tells of the catalog before and after a run: unless it reports a failure,
the type is in order in the end, and it was passed over if it was in order before. -/
structure Accounts (force : Bool) (c c' : Catalog) (k : EntityKind) (r : RebuildReport) : Prop where
  name : r.entityType = k.name
  intact : r.status ≠ .failed → c'.Intact k
  skipped : r.status = .skipped ↔ force = false ∧ c.Intact k

theorem intact_iff {s : Service k.Entity} (h : c.service? k = some s) : c.Intact k ↔ s.Intact := by
  rw [Intact, h]
  simp

/-- What comes of the turn of a type: a report that accounts for it, no other service is changed, and
nothing at all if it is passed over. -/
structure Turned (force : Bool) (k : EntityKind) (c : Catalog) (d : Disk) (r : RebuildReport)
    (c' : Catalog) (d' : Disk) : Prop where
  orderly : c'.Orderly
  others : ∀ j ≠ k, c'.service? j = c.service? j
  accounts : Accounts force c c' k r
  idle : r.status = .skipped → c' = c ∧ d' = d

/-- A service that has to be rebuilt is intact after it, unless a failure is reported. -/
theorem Orderly.rebuildUnit (h : c.Orderly) (hname : e.service.index.name = e.kind.name)
    (hneeded : ¬ (force = false ∧ c.Intact e.kind)) (d : Disk) (bus : EventBus) : ∃ r c' d' bus',
      Coordinator.rebuildUnit e.unit ((c, d), bus) = (r, (c', d'), bus') ∧
        Turned force e.kind c d r c' d' := by
  obtain ⟨s, hs⟩ := h.exists_service e.kind
  have hnamed : s.index.name = e.kind.name := h.named _ (mem_of_service? hs)
  have hsame := Service.keepsName_rebuild s d
  have hwork : effect e.unit.rebuild (c, d) = _ := effect_within hs Service.rebuild d
  rcases hrebuilt : effect Service.rebuild (s, d) with ⟨answer, s', d'⟩
  rw [hrebuilt] at hwork hsame
  rw [rebuildUnit_eq, hwork]
  have horderly : (c.setService e.kind s').Orderly := h.setService (hsame.trans hnamed)
  have hothers : ∀ j ≠ e.kind, (c.setService e.kind s').service? j = c.service? j :=
    fun j hj => service?_setService_ne s' hj
  cases answer with
  | ok n =>
    have hintact : (c.setService e.kind s').Intact e.kind :=
      ⟨s', service?_setService_self s' hs, Service.rebuild_intact hrebuilt⟩
    exact ⟨_, _, d', _, rfl, horderly, hothers, ⟨hname, fun _ => hintact, by simp [hneeded]⟩,
      by simp⟩
  | error _ =>
    exact ⟨_, _, d', bus, rfl, horderly, hothers, ⟨hname, by simp, by simp [hneeded]⟩, by simp⟩

/-- **The turn of a service.** It is rebuilt if that is forced or its count is wrong. -/
theorem Orderly.runUnit (h : c.Orderly) (force : Bool) (hname : e.service.index.name = e.kind.name)
    (d : Disk) (bus : EventBus) : ∃ r c' d' bus',
      Coordinator.runUnit force e.unit ((c, d), bus) = (r, (c', d'), bus') ∧
        Turned force e.kind c d r c' d' := by
  obtain ⟨s, hs⟩ := h.exists_service e.kind
  cases force with
  | true => exact h.rebuildUnit hname (by simp) d bus
  | false =>
    have hcheck : effect e.unit.isCorrupted (c, d) = _ := effect_within hs Service.isCorrupted d
    rw [Service.effect_check, setService_same h.nodup hs] at hcheck
    rw [runUnit_eq, hcheck]
    cases hl : s.index.live with
    | none =>
      have hclosed : ¬ c.Intact e.kind := by simp [intact_iff hs, Service.Intact, hl]
      exact ⟨_, c, d, bus, rfl, h, fun _ _ => rfl, ⟨hname, by simp, by simp [hclosed]⟩, by simp⟩
    | some l =>
      by_cases hsize : l.content.size = s.store.entities.size
      · have hintact : c.Intact e.kind := (intact_iff hs).mpr ⟨l, hl, hsize⟩
        simp only [hsize, bne_self_eq_false]
        exact ⟨_, c, d, bus, rfl, h, fun _ _ => rfl, ⟨hname, fun _ => hintact, by simp [hintact]⟩,
          fun _ => ⟨rfl, rfl⟩⟩
      · have hcorrupted : ¬ c.Intact e.kind := by simpa [intact_iff hs, Service.Intact, hl] using hsize
        simp only [bne_iff_ne.mpr hsize]
        exact h.rebuildUnit hname (fun hboth => hcorrupted hboth.2) d bus

/-! ### A run over many services -/

/-- There is one report on each type, under its name. -/
theorem names_of_accounts {kinds : List EntityKind} {reports : List RebuildReport}
    (h : List.Forall₂ (Accounts force c c') kinds reports) :
    kinds.map EntityKind.name = reports.map RebuildReport.entityType := by
  rw [← List.forall₂_eq_eq_eq, List.forall₂_map_left_iff, List.forall₂_map_right_iff]
  exact h.imp fun _ _ hr => hr.name.symm

/-- **Turns one after the other.** Each service is accounted for, those that have no turn stay as they
are, and if all are passed over nothing changes at all. -/
theorem Orderly.runUnits : ∀ {es : List CatalogEntry} {c : Catalog} (_ : c.Orderly) (force : Bool)
    (_ : ∀ e ∈ es, e.service.index.name = e.kind.name) (_ : (es.map CatalogEntry.kind).Nodup)
    (d : Disk) (bus : EventBus) (summary : RebuildSummary), ∃ reports c' d' bus',
      Coordinator.runUnits (fun _ => false) force summary (es.map CatalogEntry.unit) ((c, d), bus) =
        (reports.foldl RebuildSummary.push summary, (c', d'), bus') ∧ c'.Orderly ∧
      (∀ k ∉ es.map CatalogEntry.kind, c'.service? k = c.service? k) ∧
      List.Forall₂ (Accounts force c c') (es.map CatalogEntry.kind) reports ∧
      ((∀ r ∈ reports, r.status = .skipped) → c' = c ∧ d' = d)
  | [], c, h, _, _, _, d, bus, summary =>
    ⟨[], c, d, bus, rfl, h, fun _ _ => rfl, .nil, fun _ => ⟨rfl, rfl⟩⟩
  | e :: es, c, h, force, hnamed, hkinds, d, bus, summary => by
    rw [List.forall_mem_cons] at hnamed
    rw [List.map_cons, List.nodup_cons] at hkinds
    obtain ⟨r, c₁, d₁, bus₁, hrun₁, hturn⟩ := h.runUnit force hnamed.1 d bus
    obtain ⟨reports, c', d', bus', hrun, hc', hothers, hall, hidle⟩ :=
      Orderly.runUnits hturn.orderly force hnamed.2 hkinds.2 d₁ bus₁ (summary.push r)
    refine ⟨r :: reports, c', d', bus', ?_, hc', fun k hk => ?_, .cons ?_ ?_, fun hrs => ?_⟩
    · rw [List.map_cons, runUnits_cons, takeTurn_eq, if_neg Bool.false_ne_true, hrun₁, hrun]
      rfl
    · rw [List.map_cons, List.mem_cons, not_or] at hk
      rw [hothers k hk.2, hturn.others k hk.1]
    · -- the turns that follow leave this service alone
      refine ⟨hturn.accounts.name, fun hs => ?_, hturn.accounts.skipped⟩
      rw [Intact, hothers _ hkinds.1]
      exact hturn.accounts.intact hs
    · have hkeep : ∀ k ∈ es.map CatalogEntry.kind, c₁.service? k = c.service? k :=
        fun k hk => hturn.others k fun hsame : k = e.kind => hkinds.1 (hsame ▸ hk)
      refine ((List.forall₂_and_left _ _).mpr ⟨hkeep, hall⟩).imp fun k r' ⟨hsame, hr'⟩ => ?_
      exact ⟨hr'.name, hr'.intact, by rw [hr'.skipped, Intact, Intact, hsame]⟩
    · obtain ⟨rfl, rfl⟩ := hidle fun r hr => hrs r (List.mem_cons_of_mem _ hr)
      exact hturn.idle (hrs r List.mem_cons_self)

/-! ### The coordinator of a catalog -/

/-- The units run in some order of the types. -/
theorem Orderly.ordered (h : c.Orderly) :
    ∃ es : List CatalogEntry, es.Perm c.entries ∧ c.coordinator.ordered = es.map CatalogEntry.unit := by
  have hnames : ((c.entries.map CatalogEntry.unit).map RebuildUnit.name).Nodup := by
    have hall : (c.entries.map CatalogEntry.unit).map RebuildUnit.name =
        EntityKind.all.map EntityKind.name := by
      rw [← h.kinds, List.map_map, List.map_map]
      exact List.map_congr_left h.named
    rw [hall]
    decide
  refine ⟨c.entries.mergeSort fun e f => isBefore e.unit f.unit, List.mergeSort_perm _ _, ?_⟩
  show (registered (c.entries.map CatalogEntry.unit)).ordered = _
  rw [Coordinator.ordered, units_registered hnames]
  exact (List.map_mergeSort (r := fun e f : CatalogEntry => isBefore e.unit f.unit) (s := isBefore)
    fun _ _ _ _ => rfl).symm

/-- **A run over a catalog.** Either a target is the name of no unit, and nothing is done, or all types
that are asked for are accounted for. -/
theorem Orderly.effect_run (h : c.Orderly) (r : RebuildRequest) (d : Disk) (bus : EventBus) :
    (∃ target ∈ r.targets.getD [], effect (c.coordinator.run (fun _ => false) r) ((c, d), bus) =
      (.error (.notFound "RebuildUnit" target), (c, d), bus)) ∨
    ∃ kinds reports c' d' bus', effect (c.coordinator.run (fun _ => false) r) ((c, d), bus) =
        (.ok (reports.foldl RebuildSummary.push {}), (c', d'), bus') ∧ c'.Orderly ∧
      List.Forall₂ (Accounts r.force c c') kinds reports ∧
      ((∀ r ∈ reports, r.status = .skipped) → c' = c ∧ d' = d) ∧
      (r.targets = none → kinds.Perm EntityKind.all) := by
  obtain ⟨es, hes, hordered⟩ := h.ordered
  have hresolve : c.coordinator.resolve r.targets = _ :=
    resolve_registered (c.entries.map CatalogEntry.unit) r
  cases hmissing : r.missing? (c.entries.map CatalogEntry.unit) with
  | some target =>
    rw [hmissing] at hresolve
    refine .inl ⟨target, List.mem_of_find?_eq_some hmissing, ?_⟩
    unfold Coordinator.run
    exact effect_bind_error (by rw [hresolve]; exact effect_lift _ _) _
  | none =>
    rw [hmissing] at hresolve
    have hunits : c.coordinator.resolve r.targets =
        .ok ((es.filter fun e => r.selects e.unit).map CatalogEntry.unit) := by
      rw [hresolve]
      exact congrArg _ (congrArg _ hordered |>.trans List.filter_map)
    have hkinds := hes.map CatalogEntry.kind
    have hsome := (List.filter_sublist (p := fun e => r.selects e.unit) (l := es)).map CatalogEntry.kind
    obtain ⟨reports, c', d', bus', hrun, hc', -, hall, hskip⟩ := h.runUnits r.force
      (fun e he => h.named e (hes.subset (List.mem_of_mem_filter he)))
      ((hkinds.nodup_iff.mpr h.nodup).sublist hsome) d bus {}
    refine .inr ⟨_, reports, c', d', bus', ?_, hc', hall, hskip, fun hnone => ?_⟩
    · rw [Coordinator.effect_run hunits, hrun]
    · have hsame : es.filter (fun e => r.selects e.unit) = es :=
        List.filter_eq_self.mpr fun e _ => by simp [RebuildRequest.selects, hnone]
      rw [hsame, ← h.kinds]
      exact hkinds

end Catalog

/-! ### Commands -/

/-- What the units report when a session rebuilds these targets, or all, and what is left then. -/
def Session.rebuilding (s : Session) (targets : List String) (force : Bool) :
    Except IndexError RebuildSummary × (Catalog × Disk) × EventBus :=
  effect (s.catalog.coordinator.run (fun _ => false)
    { targets := if targets.isEmpty then none else some targets, force }) ((s.catalog, s.disk), {})

namespace Command

theorem effect_printAll {α : Type} (text : α → String) : ∀ (as : List α) (s : Session),
    effect (forIn as PUnit.unit fun a _ => do
        printLine (text a)
        pure (ForInStep.yield PUnit.unit)) s =
      (.ok PUnit.unit, { s with lines := (as.map text).reverse ++ s.lines })
  | [], s => rfl
  | a :: as, s => by
    rw [List.forIn_cons, bind_assoc, effect_bind_ok (effect_printLine _ s)]
    simp only [pure_bind]
    rw [effect_printAll text as]
    simp

/-- A rebuild prints what the units report. -/
theorem effect_runRebuild (s : Session) (targets : List String) (force : Bool) :
    ∃ lines, effect (runRebuild targets force) s =
      (match (s.rebuilding targets force).1 with
        | .error e => .error (.index e)
        | .ok summary => if summary.isSuccess then .ok ()
          else .error (.failed s!"{summary.errors} rebuilds failed"),
        { s with
          catalog := (s.rebuilding targets force).2.1.1
          disk := (s.rebuilding targets force).2.1.2
          lines }) := by
  rcases hrun : s.rebuilding targets force with ⟨result, ⟨c, d⟩, bus⟩
  unfold Session.rebuilding effect at hrun
  unfold runRebuild
  rw [effect_bind_ok (effect_get s), hrun]
  simp only
  rw [effect_bind_ok (effect_set s _)]
  cases result with
  | error e => exact ⟨_, rfl⟩
  | ok summary =>
    simp only [Except.mapError]
    rw [effect_bind_ok (effect_lift _ _), effect_bind_ok (effect_printAll _ _ _),
      effect_bind_ok (effect_printLine _ _), effect_bind_ok (effect_printLine _ _)]
    cases summary.isSuccess <;> exact ⟨_, rfl⟩

/-- An entry is verified without a trace, but for what is printed. -/
theorem effect_verifyEntry {s : Session} (h : s.catalog.Orderly) {e : CatalogEntry}
    (he : s.catalog.service? e.kind = some e.service) : ∃ lines, effect (verifyEntry e) s =
      (match e.service.index.live with
        | some l => .ok (decide (l.content.size = e.service.store.entities.size))
        | none => .error (.index (.closed e.service.index.name)), { s with lines }) := by
  have hcount : effect (onCatalog (Catalog.ask e.kind (Service.search Index.numDocs))) s =
      (match e.service.index.live with
        | some l => .ok l.content.size
        | none => .error (.index (.closed e.service.index.name)), s) := by
    rw [effect_onCatalog, effect_ask, Catalog.effect_within he, Service.effect_count,
      Catalog.setService_same h.nodup he]
    cases e.service.index.live <;> rfl
  unfold verifyEntry
  cases hl : e.service.index.live with
  | none =>
    rw [hl] at hcount
    exact ⟨_, effect_bind_error hcount _⟩
  | some l =>
    rw [hl] at hcount
    rw [effect_bind_ok hcount]
    exact ⟨_, rfl⟩

/-- Entries that are verified one after the other, and the names of those that do not agree behind
others. -/
def verifyAll (es : List CatalogEntry) (corrupted : Array String) : CommandM (Array String) :=
  forIn es corrupted fun e corrupted => do
    if !(← verifyEntry e) then pure (.yield (corrupted.push e.kind.name)) else pure (.yield corrupted)

theorem effect_verifyAll : ∀ (es : List CatalogEntry) (corrupted : Array String) {s : Session},
    s.catalog.Orderly → (∀ e ∈ es, s.catalog.service? e.kind = some e.service) →
    ∃ lines result, effect (verifyAll es corrupted) s = (result, { s with lines }) ∧
      (result = .ok #[] ↔ corrupted = #[] ∧ ∀ e ∈ es, e.service.Intact)
  | [], corrupted, s, _, _ => ⟨s.lines, .ok corrupted, rfl, by simp⟩
  | e :: es, corrupted, s, h, hes => by
    rw [List.forall_mem_cons] at hes
    obtain ⟨lines, hentry⟩ := effect_verifyEntry h hes.1
    unfold verifyAll
    rw [List.forIn_cons, bind_assoc]
    cases hl : e.service.index.live with
    | none =>
      rw [hl] at hentry
      rw [effect_bind_error hentry]
      exact ⟨lines, _, rfl, by simp [Service.Intact, hl]⟩
    | some l =>
      rw [hl] at hentry
      rw [effect_bind_ok hentry]
      by_cases hsize : l.content.size = e.service.store.entities.size
      · obtain ⟨lines', result, hrest, hiff⟩ := effect_verifyAll es corrupted
          (s := { s with lines }) h hes.2
        have hintact : e.service.Intact := ⟨l, hl, hsize⟩
        refine ⟨lines', result, ?_, by simpa [hintact] using hiff⟩
        simpa [hsize, verifyAll] using hrest
      · obtain ⟨lines', result, hrest, hiff⟩ := effect_verifyAll es (corrupted.push e.kind.name)
          (s := { s with lines }) h hes.2
        have hcorrupted : ¬ e.service.Intact := by simpa [Service.Intact, hl] using hsize
        refine ⟨lines', result, ?_, by simpa [hcorrupted] using hiff⟩
        simpa [hsize, verifyAll] using hrest

/-- **Verification** succeeds exactly if all services are intact, and leaves no trace but what is
printed. -/
theorem effect_runVerify {s : Session} (h : s.catalog.Orderly) : ∃ lines result,
    effect runVerify s = (result, { s with lines }) ∧
      (result = .ok () ↔ ∀ k, s.catalog.Intact k) := by
  have hes : ∀ e ∈ s.catalog.entries, s.catalog.service? e.kind = some e.service :=
    fun e he => Catalog.service?_of_mem h.nodup he
  have hall : (∀ e ∈ s.catalog.entries, e.service.Intact) ↔ ∀ k, s.catalog.Intact k := by
    refine ⟨fun hentries k => ?_, fun hk e he => (Catalog.intact_iff (hes e he)).mp (hk e.kind)⟩
    obtain ⟨service, hservice⟩ := h.exists_service k
    exact (Catalog.intact_iff hservice).mpr (hentries _ (Catalog.mem_of_service? hservice))
  obtain ⟨lines, result, hverify, hiff⟩ := effect_verifyAll s.catalog.entries #[] h hes
  rw [hall] at hiff
  show ∃ lines result, effect (verifyAll s.catalog.entries #[] >>= _) s = _ ∧ _
  rw [effect_bind, hverify]
  cases result with
  | error e => exact ⟨lines, _, rfl, by simpa using hiff⟩
  | ok found =>
    simp only
    rw [effect_bind_ok (effect_printLine _ _)]
    by_cases hempty : found = #[]
    · subst hempty
      exact ⟨_, _, rfl, by simpa using hiff⟩
    · rw [if_neg (by simpa using hempty)]
      exact ⟨_, _, rfl, by simpa [hempty] using hiff⟩

theorem keepsOrder_runVerify : KeepsOrder runVerify := by
  intro s hs
  obtain ⟨lines, result, hverify, -⟩ := effect_runVerify hs
  rw [hverify]
  exact ⟨hs, fun _ _ => trivial⟩

end Command

namespace Session

open Catalog Command

variable {s s' : Session} {force : Bool}

/-! ### Rebuilds -/

/-- The summary of a rebuild accounts for types, one after the other, with what is left of the catalog
and the disk. -/
structure Accounted (s : Session) (force : Bool) (kinds : List EntityKind) (summary : RebuildSummary)
    (c : Catalog) (d : Disk) : Prop where
  orderly : c.Orderly
  exact : summary.Exact
  accounts : List.Forall₂ (Accounts force s.catalog c) kinds summary.units
  idle : (∀ r ∈ summary.units, r.status = .skipped) → c = s.catalog ∧ d = s.disk

/-- What a rebuild comes to: a target is the name of no unit, or all types that are asked for are
accounted for. -/
theorem rebuilding_cases (h : s.catalog.Orderly) (targets : List String) (force : Bool) :
    (∃ target ∈ targets, s.rebuilding targets force =
      (.error (.notFound "RebuildUnit" target), (s.catalog, s.disk), {})) ∨
    ∃ kinds summary c d bus, s.rebuilding targets force = (.ok summary, (c, d), bus) ∧
      s.Accounted force kinds summary c d ∧ (targets = [] → kinds.Perm EntityKind.all) := by
  rcases h.effect_run { targets := if targets.isEmpty then none else some targets, force } s.disk {} with
    ⟨target, htarget, hrun⟩ | ⟨kinds, reports, c, d, bus, hrun, hc, hall, hidle, hkinds⟩
  · refine .inl ⟨target, ?_, hrun⟩
    cases targets with
    | nil => simp at htarget
    | cons t ts => simpa using htarget
  · obtain ⟨hexact, hunits⟩ := RebuildSummary.exact_foldl (s := {}) ⟨rfl, rfl, rfl, rfl⟩ reports
    rw [List.nil_append] at hunits
    rw [← hunits] at hall hidle
    exact .inr ⟨kinds, _, c, d, bus, hrun, ⟨hc, hexact, hall, hidle⟩,
      fun hnone => hkinds (by simp [hnone])⟩

theorem rebuilding_all (h : s.catalog.Orderly) (force : Bool) : ∃ kinds summary c d bus,
    s.rebuilding [] force = (.ok summary, (c, d), bus) ∧ s.Accounted force kinds summary c d ∧
      kinds.Perm EntityKind.all := by
  rcases rebuilding_cases h [] force with ⟨_, hnone, -⟩ |
    ⟨kinds, summary, c, d, bus, hrun, hall, hkinds⟩
  · simp at hnone
  · exact ⟨kinds, summary, c, d, bus, hrun, hall, hkinds rfl⟩

theorem keepsOrder_runRebuild (targets : List String) (force : Bool) :
    KeepsOrder (runRebuild targets force) := by
  intro s hs
  obtain ⟨lines, hrun⟩ := effect_runRebuild s targets force
  rw [hrun]
  refine ⟨?_, fun _ _ => trivial⟩
  rcases rebuilding_cases hs targets force with ⟨_, -, hr⟩ | ⟨_, _, c, _, _, hr, hall, -⟩ <;> rw [hr]
  · exact hs
  · exact hall.orderly

/-! ### Sessions -/

/-- The sessions with a catalog that was opened on whatever disk. Commands have run, of which some may
have failed, the catalog may have been closed, and others may have changed the disk at any time. -/
inductive Reached : Session → Prop
  /-- The catalog was opened. -/
  | opened {directory : Path} {config : Config} {c : Catalog} {d d' : Disk}
      (h : effect (Catalog.open directory config) d = (.ok c, d')) : Reached { catalog := c, disk := d' }
  /-- A command has run. -/
  | ran {s : Session} (h : Reached s) (command : Command) : Reached (effect command.run s).2
  /-- The catalog was closed. -/
  | closed {s : Session} (h : Reached s) : Reached (effect (onCatalog Catalog.close) s).2
  /-- The disk was changed by others. -/
  | disturbed {s : Session} (h : Reached s) (disk : Disk) : Reached { s with disk }

theorem Reached.orderly (h : s.Reached) : s.catalog.Orderly := by
  induction h with
  | opened h => exact orderly_of_open h
  | ran _ command ih =>
    cases command with
    | rebuild targets force => exact (keepsOrder_runRebuild targets force _ ih).1
    | verify => exact (keepsOrder_runVerify _ ih).1
    | query entity criteria => exact (keepsOrder_runQuery entity criteria _ ih).1
    | stats format => exact (keepsOrder_runStats format _ ih).1
    | version => exact (keepsOrder_runVersion _ ih).1
  | closed _ ih => exact (keepsOrder_onCatalog keepsOrder_close _ ih).1
  | disturbed _ _ ih => exact ih

/-! ### Agreement -/

/-- The count of a type is found right, by its unit and by verification. -/
structure Passes (s : Session) (e : CatalogEntry) : Prop where
  checked : effect (Catalog.within e.kind Service.isCorrupted) (s.catalog, s.disk) =
    (.ok false, (s.catalog, s.disk))
  verified : (effect (verifyEntry e) s).1 = .ok true

/-- A rebuild that is not forced passes over the units of all types. -/
def SkipsAll (s : Session) : Prop :=
  ∃ summary state, s.rebuilding [] false = (.ok summary, state) ∧
    (summary.units.map RebuildReport.entityType).Perm (EntityKind.all.map EntityKind.name) ∧
    ∀ r ∈ summary.units, r.status = .skipped

theorem passes_of_intact (h : s.catalog.Orderly) {e : CatalogEntry} (he : e ∈ s.catalog.entries)
    (hintact : s.catalog.Intact e.kind) : s.Passes e := by
  have hservice := service?_of_mem h.nodup he
  have hs := (intact_iff hservice).mp hintact
  obtain ⟨lines, hverify⟩ := effect_verifyEntry h hservice
  constructor
  · rw [effect_within hservice, (Service.check_iff _ _).mpr hs, setService_same h.nodup hservice]
  · obtain ⟨l, hl, hsize⟩ := hs
    rw [hverify, hl]
    simp [hsize]

theorem skipsAll_iff (h : s.catalog.Orderly) : s.SkipsAll ↔ ∀ k, s.catalog.Intact k := by
  obtain ⟨kinds, summary, c, d, bus, hrun, hall, hkinds⟩ := rebuilding_all h false
  constructor
  · rintro ⟨summary', state, hrun', -, hskipped⟩ k
    obtain rfl : summary = summary' := Except.ok.inj (Prod.mk.inj (hrun.symm.trans hrun')).1
    have hk : k ∈ kinds := hkinds.mem_iff.mpr (by cases k <;> decide)
    obtain ⟨r, hr, haccounts⟩ := exists_of_mem_left hall.accounts hk
    exact (haccounts.skipped.mp (hskipped r hr)).2
  · refine fun hintact =>
      ⟨summary, _, hrun, names_of_accounts hall.accounts ▸ hkinds.map _, fun r hr => ?_⟩
    obtain ⟨k, -, haccounts⟩ := exists_of_mem_right hall.accounts hr
    exact haccounts.skipped.mpr ⟨rfl, hintact k⟩

/-- A rebuild that passes over all types leaves all as it was. -/
theorem effect_of_skipsAll (h : s.catalog.Orderly) (hskips : s.SkipsAll) :
    ∃ lines, effect (runRebuild [] false) s = (.ok (), { s with lines }) := by
  obtain ⟨lines, hrebuild⟩ := effect_runRebuild s [] false
  obtain ⟨summary, state, hrun, -, hskipped⟩ := hskips
  obtain ⟨kinds, summary', c, d, bus, hrun', hall, -⟩ := rebuilding_all h false
  obtain rfl : summary' = summary := Except.ok.inj (Prod.mk.inj (hrun'.symm.trans hrun)).1
  obtain ⟨rfl, rfl⟩ := hall.idle hskipped
  have hsuccess : summary'.isSuccess = true :=
    hall.exact.isSuccess_iff.mpr fun r hr => by simp [hskipped r hr]
  refine ⟨lines, ?_⟩
  rw [hrebuild, hrun']
  simp [hsuccess]

/-- After a rebuild of all types that came through, all are intact. -/
theorem intact_of_rebuild (h : s.catalog.Orderly)
    (hrebuild : effect (runRebuild [] force) s = (.ok (), s')) (k : EntityKind) : s'.catalog.Intact k := by
  obtain ⟨lines, hrun⟩ := effect_runRebuild s [] force
  obtain ⟨kinds, summary, c, d, bus, hr, hall, hkinds⟩ := rebuilding_all h force
  rw [hrebuild, hr] at hrun
  obtain ⟨hanswer, rfl⟩ := Prod.mk.inj hrun
  simp only at hanswer
  split_ifs at hanswer with hsuccess
  have hk : k ∈ kinds := hkinds.mem_iff.mpr (by cases k <;> decide)
  obtain ⟨r, hreport, haccounts⟩ := exists_of_mem_left hall.accounts hk
  exact haccounts.intact (hall.exact.isSuccess_iff.mp hsuccess r hreport)

/-- **Rebuilding and verifying agree.** Once a rebuild of all types has come through, forced or not,
verification succeeds, and a further rebuild that is not forced passes over all types and leaves
everything as it is, but for what is printed. Verification succeeds if and only if such a rebuild would
pass over all types. And if a rebuild fails, then a target is the name of no unit and nothing was done,
or the count of each type that it does not report as failed is right all the same. -/
theorem Reached.agrees (h : s.Reached) :
    (∀ force s', effect (Command.rebuild [] force).run s = (.ok (), s') →
      (effect Command.verify.run s').1 = .ok () ∧ s'.SkipsAll ∧
        ∃ lines, effect (Command.rebuild [] false).run s' = (.ok (), { s' with lines })) ∧
    ((effect Command.verify.run s).1 = .ok () ↔ s.SkipsAll) ∧
    ∀ targets force e s', effect (Command.rebuild targets force).run s = (.error e, s') →
      (∃ target ∈ targets, e = .index (.notFound "RebuildUnit" target) ∧
        s'.catalog = s.catalog ∧ s'.disk = s.disk) ∨
      ∃ summary state, s.rebuilding targets force = (.ok summary, state) ∧
        e = .failed s!"{summary.errors} rebuilds failed" ∧
        (targets = [] →
          (summary.units.map RebuildReport.entityType).Perm (EntityKind.all.map EntityKind.name)) ∧
        ∀ r ∈ summary.units, r.status ≠ .failed →
          ∃ entry ∈ s'.catalog.entries, entry.kind.name = r.entityType ∧ s'.Passes entry := by
  have horderly := h.orderly
  have hverify : ∀ {s : Session}, s.catalog.Orderly →
      ((effect Command.verify.run s).1 = .ok () ↔ s.SkipsAll) := by
    intro s hs
    obtain ⟨lines, result, hrun, hiff⟩ := effect_runVerify hs
    rw [skipsAll_iff hs, ← hiff]
    exact (congrArg (· = .ok ()) (congrArg Prod.fst hrun)).to_iff
  refine ⟨fun force s' hrebuild => ?_, hverify horderly, fun targets force e s' hfail => ?_⟩
  · have hs' : s'.catalog.Orderly := by
      have hkept := (keepsOrder_runRebuild [] force s horderly).1
      rwa [show effect (runRebuild [] force) s = _ from hrebuild] at hkept
    have hskips := (skipsAll_iff hs').mpr (intact_of_rebuild horderly hrebuild)
    exact ⟨(hverify hs').mpr hskips, hskips, effect_of_skipsAll hs' hskips⟩
  · obtain ⟨lines, hrun⟩ := effect_runRebuild s targets force
    rw [show effect (runRebuild targets force) s = _ from hfail] at hrun
    rcases rebuilding_cases horderly targets force with ⟨target, htarget, hr⟩ |
      ⟨kinds, summary, c, d, bus, hr, hall, hkinds⟩ <;> rw [hr] at hrun
    · obtain ⟨hanswer, rfl⟩ := Prod.mk.inj hrun
      exact .inl ⟨target, htarget, Except.error.inj hanswer, rfl, rfl⟩
    · obtain ⟨hanswer, rfl⟩ := Prod.mk.inj hrun
      simp only at hanswer
      split_ifs at hanswer
      refine .inr ⟨summary, _, hr, Except.error.inj hanswer, fun hnone => ?_, fun r hreport hs => ?_⟩
      · exact names_of_accounts hall.accounts ▸ (hkinds hnone).map _
      · obtain ⟨k, -, haccounts⟩ := exists_of_mem_right hall.accounts hreport
        obtain ⟨service, hservice⟩ := hall.orderly.exists_service k
        have hentry := mem_of_service? hservice
        exact ⟨_, hentry, haccounts.name.symm,
          passes_of_intact hall.orderly hentry (haccounts.intact hs)⟩

/-- A disk with an index of groups, in which there is a document, and without data files. -/
def strayDisk : Disk where
  nodes := [(["index"], .directory), (["index", "Group"], .directory),
    (["index", "Group", "gen-000001"], .directory),
    (["index", "Group", "gen-000001", "meta.json"], .generation {
      layout := ((Schema.describe Group).toOption.map Schema.layout).getD []
      documents := [{ values := [], search := none, payload := none }] })]

/-- Where units were registered in their order, they run in it. -/
theorem rebuilding_of_pairwise
    (h : s.catalog.coordinator.units.Pairwise fun u v => Coordinator.isBefore u v = true) (force : Bool) :
    s.rebuilding [] force =
      (.ok (Coordinator.runUnits (fun _ => false) force {} s.catalog.coordinator.units
          ((s.catalog, s.disk), {})).1,
        (Coordinator.runUnits (fun _ => false) force {} s.catalog.coordinator.units
          ((s.catalog, s.disk), {})).2) := by
  refine Coordinator.effect_run (r := { force }) (congrArg Except.ok ?_)
  exact List.mergeSort_of_pairwise h

/-- A document without a data file is found and goes with a rebuild. Another rebuild, for which the
pointer of the groups cannot be drafted, fails, and the count of the dictionaries is right. -/
theorem Reached.agrees_stray : ∃ c d, effect (Catalog.open ["data"] {}) strayDisk = (.ok c, d) ∧
    let s : Session := { catalog := c, disk := d }
    let t : Session := { s with disk := d.insert ["index", "Group", "CURRENT.tmp"] .directory }
    (effect Command.verify.run s).1 ≠ .ok () ∧
    (∃ s', effect (Command.rebuild [] false).run s = (.ok (), s') ∧
      (effect Command.verify.run s').1 = .ok () ∧ s'.SkipsAll) ∧
    ∃ e t', effect (Command.rebuild [] true).run t = (.error e, t') ∧
      ∃ entry ∈ t'.catalog.entries, entry.kind.name = "Dictionary" ∧ t'.Passes entry := by
  have hall : (match effect (Catalog.open ["data"] {}) strayDisk with
      | (.error _, _) => false
      | (.ok c, d) =>
        let run (force : Bool) (d : Disk) := (Coordinator.runUnits (fun _ => false) force {}
          c.coordinator.units ((c, d), {})).1
        let failed := run true (d.insert ["index", "Group", "CURRENT.tmp"] .directory)
        !(effect Command.verify.run { catalog := c, disk := d }).1.isOk &&
          decide (c.coordinator.units.Pairwise fun u v => Coordinator.isBefore u v = true) &&
          (run false d).isSuccess && !failed.isSuccess &&
          failed.units.any fun r => r.entityType = "Dictionary" && r.status = .finished) = true := by
    decide +kernel
  rcases hopen : effect (Catalog.open ["data"] {}) strayDisk with ⟨e | c, d⟩ <;> rw [hopen] at hall
  · simp at hall
  simp only [Bool.and_eq_true, decide_eq_true_eq] at hall
  obtain ⟨⟨⟨⟨hverify, hunits⟩, hsuccess⟩, hfailed⟩, hdictionary⟩ := hall
  refine ⟨c, d, rfl, fun hok => by simp [hok, Except.isOk, Except.toBool] at hverify, ?_, ?_⟩
  · obtain ⟨lines, hrebuild⟩ := effect_runRebuild { catalog := c, disk := d } [] false
    rw [rebuilding_of_pairwise hunits] at hrebuild
    simp only [hsuccess, if_true] at hrebuild
    obtain ⟨hverified, hskips, -⟩ := (Reached.agrees (.opened hopen)).1 false _ hrebuild
    exact ⟨_, hrebuild, hverified, hskips⟩
  · obtain ⟨r, hr, hname⟩ := List.any_eq_true.mp hdictionary
    simp only [Bool.and_eq_true, decide_eq_true_eq] at hname
    obtain ⟨lines, hrebuild⟩ := effect_runRebuild
      ⟨c, d.insert ["index", "Group", "CURRENT.tmp"] .directory, []⟩ [] true
    rw [rebuilding_of_pairwise hunits] at hrebuild
    simp only [Bool.not_eq_true'] at hfailed
    simp only [hfailed, Bool.false_eq_true, if_false] at hrebuild
    rcases (Reached.agrees (.disturbed (.opened hopen) _)).2.2 [] true _ _ hrebuild with
      ⟨_, hnone, -⟩ | ⟨summary, state, hrun, -, -, hpass⟩
    · simp at hnone
    · rw [rebuilding_of_pairwise hunits] at hrun
      obtain rfl := Except.ok.inj (Prod.mk.inj hrun).1
      obtain ⟨entry, hentry, he, hpasses⟩ := hpass r hr (by simp [hname.2])
      exact ⟨_, _, hrebuild, entry, hentry, he.trans hname.1, hpasses⟩

end Session

end Codebook
