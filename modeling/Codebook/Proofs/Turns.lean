/-
# Runs over many units

A coordinator gives every unit that is asked for one turn, in the order of priority and name. The
units are those that were registered last under their names. To see what is asked of them, each unit
keeps a record of the calls of its work with their answers. In its turn a unit is left alone if the
run is cancelled; otherwise it is checked, unless the run is forced, and rebuilt if it has to be. The
report on a unit follows from the last call that was made. Turns follow one another: each begins with
the state that the one before has left, whether that one failed or not. What is published are the events
of the units that were rebuilt, in their order, with the numbers of their documents.

Key definitions: `UnitCall`, `RebuildUnit.recorded`, `Turn`, `Turn.Fair`, `Turn.Follow`,
`Coordinator.registered`, `RebuildRequest.selects`.
Key theorems: `Coordinator.mem_registered`, `Coordinator.pairwise_ordered`,
`Coordinator.runUnits_turns`, `Turn.Follow.idle`, `Coordinator.run_in_turns`.
-/
import Codebook.Proofs.Delivery
import Codebook.Proofs.Repair

namespace Codebook

/-! ### Records -/

/-- A call of the work of a unit, with its answer. -/
inductive UnitCall where
  /-- It was asked whether it is corrupted. -/
  | check (name : String) (answer : Except IndexError Bool)
  /-- It was rebuilt. -/
  | rebuild (name : String) (answer : Except IndexError Nat)

/-- Whether the call is that of the rebuild of the unit of this name. -/
def UnitCall.rebuilds (unit : String) : UnitCall → Bool
  | check .. => false
  | rebuild name _ => name == unit

/-- What is reported of a unit after these calls: the last one decides. -/
def UnitCall.report (name : String) (calls : List UnitCall) : RebuildReport :=
  match calls.getLast? with
  | none => { entityType := name, status := .cancelled }
  | some (check _ (.ok _)) => { entityType := name, status := .skipped }
  | some (rebuild _ (.ok n)) => { entityType := name, status := .finished, documentCount := n }
  | some (check _ (.error e)) | some (rebuild _ (.error e)) =>
    { entityType := name, status := .failed, error := some e }

section

variable {σ α : Type}

/-- Work that is entered in the record, with its answer. -/
def recording (call : Except IndexError α → UnitCall) (work : ExceptT IndexError (StateM σ) α) :
    ExceptT IndexError (StateM (σ × List UnitCall)) α :=
  fun s => ((effect work s.1).1, (effect work s.1).2, s.2 ++ [call (effect work s.1).1])

theorem effect_recording (call : Except IndexError α → UnitCall)
    (work : ExceptT IndexError (StateM σ) α) (s : σ) (calls : List UnitCall) :
    effect (recording call work) (s, calls) =
      ((effect work s).1, (effect work s).2, calls ++ [call (effect work s).1]) := rfl

/-- The unit with a record of the calls of its work. -/
def RebuildUnit.recorded (u : RebuildUnit σ) : RebuildUnit (σ × List UnitCall) where
  name := u.name
  priority := u.priority
  isCorrupted := recording (.check u.name) u.isCorrupted
  rebuild := recording (.rebuild u.name) u.rebuild

end

/-! ### Turns -/

/-- The turn of a unit in a run. -/
structure Turn (σ : Type) where
  /-- The unit. -/
  unit : RebuildUnit σ
  /-- The state before. -/
  before : σ
  /-- The calls of its work. -/
  calls : List UnitCall
  /-- The state afterwards. -/
  after : σ

namespace Turn

variable {σ : Type}

/-- The report on the unit. -/
def report (t : Turn σ) : RebuildReport :=
  UnitCall.report t.unit.name t.calls

/-- The calls with these answers lead from one state to the other. -/
inductive Made (u : RebuildUnit σ) : σ → List UnitCall → σ → Prop
  | nothing {s : σ} : Made u s [] s
  | check {s s₁ t : σ} {answer : Except IndexError Bool} {calls : List UnitCall}
      (h : effect u.isCorrupted s = (answer, s₁)) (hrest : Made u s₁ calls t) :
      Made u s (.check u.name answer :: calls) t
  | rebuild {s s₁ t : σ} {answer : Except IndexError Nat} {calls : List UnitCall}
      (h : effect u.rebuild s = (answer, s₁)) (hrest : Made u s₁ calls t) :
      Made u s (.rebuild u.name answer :: calls) t

/-- The unit was asked what had to be asked, once, and nothing else. -/
structure Fair (stop : σ → Bool) (force : Bool) (t : Turn σ) : Prop where
  made : Made t.unit t.before t.calls t.after
  checked : (∃ answer, .check t.unit.name answer ∈ t.calls) ↔
    stop t.before = false ∧ force = false
  rebuilt : (∃ answer, .rebuild t.unit.name answer ∈ t.calls) ↔ stop t.before = false ∧
    (force = true ∨ .check t.unit.name (.ok true) ∈ t.calls)
  once : t.calls.countP (UnitCall.rebuilds t.unit.name) ≤ 1
  untouched : t.calls = [] ↔ stop t.before = true

/-- Each turn begins with the state that the one before has left. -/
def Follow : σ → List (Turn σ) → σ → Prop
  | s, [], s' => s = s'
  | s, t :: turns, s' => t.before = s ∧ Follow t.after turns s'

/-- Nothing was done to the unit, and this is what is reported of it. -/
structure Idle (t : Turn σ) : Prop where
  calls : t.calls = []
  after : t.after = t.before
  status : t.report.status = .cancelled

section

variable {stop : σ → Bool} {force : Bool} {s s' : σ} {turns : List (Turn σ)}

theorem Made.nil {u : RebuildUnit σ} (h : Made u s [] s') : s' = s := by
  cases h
  rfl

/-- All calls of a turn are those of its unit. -/
theorem Made.countP_rebuilds {u : RebuildUnit σ} {calls : List UnitCall} (h : Made u s calls s')
    {name : String} (hne : u.name ≠ name) : calls.countP (UnitCall.rebuilds name) = 0 := by
  induction h with
  | nothing => rfl
  | check _ _ ih => simpa [UnitCall.rebuilds] using ih
  | rebuild _ _ ih => simpa [UnitCall.rebuilds, List.countP_cons, hne] using ih

/-- No unit is rebuilt twice. -/
theorem Fair.rebuilt_once (hfair : ∀ t ∈ turns, t.Fair stop force)
    (hnames : (turns.map fun t => t.unit.name).Nodup) (name : String) :
    (turns.flatMap calls).countP (UnitCall.rebuilds name) ≤ 1 := by
  have hnone : ∀ {ts : List (Turn σ)}, (∀ t ∈ ts, t.Fair stop force) →
      (∀ t ∈ ts, t.unit.name ≠ name) → (ts.flatMap calls).countP (UnitCall.rebuilds name) = 0 := by
    intro ts hts hother
    induction ts with
    | nil => rfl
    | cons t ts ih =>
      rw [List.forall_mem_cons] at hts hother
      rw [List.flatMap_cons, List.countP_append, hts.1.made.countP_rebuilds hother.1,
        ih hts.2 hother.2]
  induction turns with
  | nil => simp
  | cons t ts ih =>
    rw [List.forall_mem_cons] at hfair
    rw [List.map_cons, List.nodup_cons] at hnames
    rw [List.flatMap_cons, List.countP_append]
    by_cases he : t.unit.name = name
    · have hother : ∀ u ∈ ts, u.unit.name ≠ name := fun u hu hname =>
        hnames.1 (he ▸ hname ▸ List.mem_map_of_mem (f := fun t : Turn σ => t.unit.name) hu)
      rw [hnone hfair.2 hother]
      exact he ▸ hfair.1.once
    · rw [hfair.1.made.countP_rebuilds he, Nat.zero_add]
      exact ih hfair.2 hnames.2

/-- A unit that is left alone leaves the state as it was. -/
theorem Fair.idle {t : Turn σ} (h : t.Fair stop force) (hstop : stop t.before = true) : t.Idle := by
  have hcalls := h.untouched.mpr hstop
  exact ⟨hcalls, (hcalls ▸ h.made).nil, by rw [report, hcalls]; rfl⟩

/-- Once the run is cancelled no unit is touched, as nothing is done that could change this. -/
theorem Follow.idle (h : Follow s turns s') (hfair : ∀ t ∈ turns, t.Fair stop force)
    (hs : stop s = true) : ∀ t ∈ turns, t.Idle := by
  induction turns generalizing s with
  | nil => simp
  | cons t turns ih =>
    obtain ⟨rfl, hrest⟩ := h
    have hfirst := (hfair t List.mem_cons_self).idle hs
    have hlater := ih hrest (fun u hu => hfair u (List.mem_cons_of_mem _ hu)) (by rw [hfirst.after, hs])
    exact List.forall_mem_cons.mpr ⟨hfirst, hlater⟩

theorem Follow.of_append {before after : List (Turn σ)} (h : Follow s (before ++ after) s') :
    ∃ t, Follow s before t ∧ Follow t after s' := by
  induction before generalizing s with
  | nil => exact ⟨s, rfl, h⟩
  | cons t before ih =>
    obtain ⟨hfirst, hrest⟩ := h
    obtain ⟨u, hbefore, hafter⟩ := ih hrest
    exact ⟨u, ⟨hfirst, hbefore⟩, hafter⟩

end

end Turn

/-! ### Summaries -/

/-- The events of the reports on units that were rebuilt. -/
def RebuildReport.events (reports : List RebuildReport) : List Event :=
  (reports.filter fun r => r.status = .finished).map fun r => .rebuilt r.entityType r.documentCount

theorem RebuildReport.events_append (rs rs' : List RebuildReport) :
    events (rs ++ rs') = events rs ++ events rs' := by
  simp [events]

/-- The numbers in the summary are those of its reports. -/
structure RebuildSummary.Exact (s : RebuildSummary) : Prop where
  finished : s.finished = s.units.countP fun r => r.status = .finished
  skipped : s.skipped = s.units.countP fun r => r.status = .skipped
  errors : s.errors = s.units.countP fun r => r.status = .failed
  cancelled : s.cancelled = s.units.countP fun r => r.status = .cancelled

theorem RebuildSummary.Exact.push {s : RebuildSummary} (h : s.Exact) (r : RebuildReport) :
    (s.push r).Exact := by
  obtain ⟨hfinished, hskipped, herrors, hcancelled⟩ := h
  rcases r with ⟨name, status, n, e⟩
  cases status <;> constructor <;> simp_all [RebuildSummary.push]

theorem RebuildSummary.units_push (s : RebuildSummary) (r : RebuildReport) :
    (s.push r).units = s.units ++ [r] := by
  rcases r with ⟨name, status, n, e⟩
  cases status <;> rfl

theorem RebuildSummary.exact_foldl {s : RebuildSummary} (h : s.Exact) (rs : List RebuildReport) :
    (rs.foldl push s).Exact ∧ (rs.foldl push s).units = s.units ++ rs := by
  induction rs generalizing s with
  | nil => exact ⟨h, (List.append_nil _).symm⟩
  | cons r rs ih =>
    obtain ⟨hexact, hunits⟩ := ih (h.push r)
    refine ⟨hexact, ?_⟩
    rw [List.foldl_cons, hunits, units_push, List.append_assoc]
    rfl

/-! ### Which units there are -/

namespace Coordinator

variable {σ : Type} {us : List (RebuildUnit σ)} {u v : RebuildUnit σ}

/-- A coordinator that units were registered with, one after the other. -/
def registered (us : List (RebuildUnit σ)) : Coordinator σ :=
  us.foldl register {}

theorem registered_concat (us : List (RebuildUnit σ)) (u : RebuildUnit σ) :
    registered (us ++ [u]) = (registered us).register u := by
  rw [registered, List.foldl_append]
  rfl

/-- A unit stands for its name until another one of this name is registered. -/
theorem mem_registered : u ∈ (registered us).units ↔
    ∃ before after, us = before ++ u :: after ∧ ∀ v ∈ after, v.name ≠ u.name := by
  induction us using List.reverseRecOn with
  | nil => simp [registered]
  | append_singleton us w ih =>
    rw [registered_concat, register, List.mem_append, List.mem_filter, ih, List.mem_singleton]
    constructor
    · rintro (⟨⟨before, after, rfl, hlast⟩, hne⟩ | rfl)
      · refine ⟨before, after ++ [w], by simp, fun v hv => ?_⟩
        rcases List.mem_append.mp hv with hv | hv
        · exact hlast v hv
        · rw [List.mem_singleton.mp hv]
          exact fun he => by simp [he] at hne
      · exact ⟨us, [], rfl, by simp⟩
    · rintro ⟨before, after, hsplit, hlast⟩
      rcases List.eq_nil_or_concat after with rfl | ⟨after, x, rfl⟩
      · exact .inr (List.append_inj_right' hsplit rfl |> List.cons.inj |>.1 |>.symm)
      · have hends : us ++ [w] = (before ++ u :: after) ++ [x] := by simpa using hsplit
        obtain ⟨hfront, hx⟩ := List.append_inj' hends rfl
        obtain rfl := (List.cons.inj hx).1
        refine .inl ⟨⟨before, after, hfront, fun v hv => hlast v (by simp [hv])⟩, ?_⟩
        simpa using fun he : u.name = w.name => hlast w (by simp) he.symm

/-- No two units have the same name. -/
theorem nodup_registered (us : List (RebuildUnit σ)) : ((registered us).units.map RebuildUnit.name).Nodup := by
  induction us using List.reverseRecOn with
  | nil => simp [registered]
  | append_singleton us w ih =>
    rw [registered_concat, register, List.map_append, List.nodup_append]
    refine ⟨ih.sublist (List.filter_sublist.map _), by simp, fun a ha b hb => ?_⟩
    obtain ⟨v, hv, rfl⟩ := List.mem_map.mp ha
    simp only [List.map_cons, List.map_nil, List.mem_singleton] at hb
    simpa [hb] using (List.mem_filter.mp hv).2

/-- Every name that was registered is that of a unit. -/
theorem exists_registered (hu : u ∈ us) : ∃ v ∈ (registered us).units, v.name = u.name := by
  induction us using List.reverseRecOn with
  | nil => simp at hu
  | append_singleton us w ih =>
    rw [registered_concat, register]
    by_cases he : w.name = u.name
    · exact ⟨w, by simp, he⟩
    · have hold : u ∈ us := (List.mem_append.mp hu).resolve_right fun h => he (by rw [List.mem_singleton.mp h])
      obtain ⟨v, hv, hname⟩ := ih hold
      refine ⟨v, List.mem_append_left _ (List.mem_filter.mpr ⟨hv, ?_⟩), hname⟩
      simpa [hname] using Ne.symm he

/-! ### In which order -/

/-- The turn of a unit comes before that of another one. -/
def Precedes (u v : RebuildUnit σ) : Prop :=
  u.priority < v.priority ∨ u.priority = v.priority ∧ u.name < v.name

theorem isBefore_iff : isBefore u v = true ↔
    u.priority < v.priority ∨ u.priority = v.priority ∧ u.name ≤ v.name := by
  simp only [isBefore, Bool.or_eq_true, Bool.and_eq_true, decide_eq_true_eq, beq_iff_eq,
    Bool.not_eq_true', decide_eq_false_iff_not, not_lt]

theorem pairwise_ordered (us : List (RebuildUnit σ)) :
    (registered us).ordered.Pairwise Precedes := by
  have htrans : ∀ u v w : RebuildUnit σ, isBefore u v = true → isBefore v w = true →
      isBefore u w = true := by
    intro u v w
    rw [isBefore_iff, isBefore_iff, isBefore_iff]
    rintro (h | ⟨h, hname⟩) (h' | ⟨h', hname'⟩)
    · exact .inl (h.trans h')
    · exact .inl (h' ▸ h)
    · exact .inl (h ▸ h')
    · exact .inr ⟨h.trans h', hname.trans hname'⟩
  have htotal : ∀ u v : RebuildUnit σ, (isBefore u v || isBefore v u) = true := by
    intro u v
    rw [Bool.or_eq_true, isBefore_iff, isBefore_iff]
    rcases lt_trichotomy u.priority v.priority with h | h | h
    · exact .inl (.inl h)
    · exact (le_total u.name v.name).imp (fun hn => .inr ⟨h, hn⟩) fun hn => .inr ⟨h.symm, hn⟩
    · exact .inr (.inl h)
  have hsorted := List.pairwise_mergeSort htrans htotal (registered us).units
  have hnames : ((registered us).ordered.map RebuildUnit.name).Nodup :=
    ((List.mergeSort_perm _ _).map _).nodup_iff.mpr (nodup_registered us)
  refine hsorted.imp₂ (fun u v hle hne => ?_) (List.pairwise_map.mp hnames)
  rcases isBefore_iff.mp hle with h | ⟨h, hname⟩
  · exact .inl h
  · exact .inr ⟨h, lt_of_le_of_ne hname hne⟩

/-! ### One turn -/

section

variable {s : σ} {calls : List UnitCall} {bus : EventBus} {stop : σ → Bool} {force : Bool}

/-- The bus after these events. -/
def publishAll (bus : EventBus) (events : List Event) : EventBus :=
  events.foldl EventBus.publish bus

/-- What a unit's calls, with their answers, leave of a run. -/
def After (t : Turn σ) (calls : List UnitCall) (bus : EventBus) :
    RebuildReport × (σ × List UnitCall) × EventBus :=
  (t.report, (t.after, calls ++ t.calls), publishAll bus (RebuildReport.events [t.report]))

theorem rebuildUnit_recorded (u : RebuildUnit σ) (s : σ) (calls : List UnitCall) (bus : EventBus) :
    ∃ answer s', effect u.rebuild s = (answer, s') ∧ ∀ first before,
      rebuildUnit u.recorded ((s, calls ++ first), bus) =
        After ⟨u, before, first ++ [.rebuild u.name answer], s'⟩ calls bus := by
  obtain ⟨answer, s', hanswer⟩ : ∃ answer s', effect u.rebuild s = (answer, s') := ⟨_, _, rfl⟩
  refine ⟨answer, s', hanswer, fun first before => ?_⟩
  have hrecorded : effect u.recorded.rebuild (s, calls ++ first) =
      (answer, s', (calls ++ first) ++ [.rebuild u.name answer]) := by
    rw [RebuildUnit.recorded, effect_recording, hanswer]
  rw [rebuildUnit_eq, hrecorded, List.append_assoc]
  cases answer <;> simp [After, Turn.report, UnitCall.report, RebuildReport.events, publishAll,
    RebuildUnit.recorded]

/-- What is done when it is the turn of a unit. -/
def takeTurn {τ : Type} (stop : τ → Bool) (force : Bool) (u : RebuildUnit τ) : RunM τ RebuildReport := do
  if stop (← get).1 then return { entityType := u.name, status := .cancelled }
  else runUnit force u

theorem takeTurn_eq {τ : Type} (stop : τ → Bool) (force : Bool) (u : RebuildUnit τ) (s : τ)
    (bus : EventBus) : takeTurn stop force u (s, bus) =
      if stop s then ({ entityType := u.name, status := .cancelled }, (s, bus))
      else runUnit force u (s, bus) := by
  show (if stop s then pure { entityType := u.name, status := .cancelled } else runUnit force u :
    RunM τ RebuildReport) (s, bus) = _
  cases stop s <;> rfl

/-- **The turn of a unit is a fair one**, whatever the unit does. -/
theorem exists_turn (stop : σ → Bool) (force : Bool) (u : RebuildUnit σ) (s : σ)
    (calls : List UnitCall) (bus : EventBus) :
    ∃ t : Turn σ, t.unit = u ∧ t.before = s ∧ t.Fair stop force ∧
      takeTurn (fun state => stop state.1) force u.recorded ((s, calls), bus) = After t calls bus := by
  rw [takeTurn_eq]
  cases hstop : stop s with
  | true =>
    refine ⟨⟨u, s, [], s⟩, rfl, rfl, ⟨.nothing, by simp [hstop], by simp [hstop], by simp, by simp [hstop]⟩, ?_⟩
    simp [After, Turn.report, UnitCall.report, publishAll, RebuildReport.events, RebuildUnit.recorded]
  | false =>
    cases force with
    | true =>
      obtain ⟨answer, s', hrebuild, hrun⟩ := rebuildUnit_recorded u s calls bus
      refine ⟨⟨u, s, [.rebuild u.name answer], s'⟩, rfl, rfl, ⟨.rebuild hrebuild .nothing, by simp,
        by simp [hstop], by simp [UnitCall.rebuilds], by simp [hstop]⟩, ?_⟩
      have hforced := hrun [] s
      rw [List.append_nil] at hforced
      simpa [runUnit] using hforced
    | false =>
      obtain ⟨found, s₁, hcheck⟩ : ∃ found s₁, effect u.isCorrupted s = (found, s₁) := ⟨_, _, rfl⟩
      have hrecorded : effect u.recorded.isCorrupted (s, calls) =
          (found, s₁, calls ++ [.check u.name found]) := by
        rw [RebuildUnit.recorded, effect_recording, hcheck]
      rw [if_neg Bool.false_ne_true, runUnit_eq, hrecorded]
      match found with
      | .ok true =>
        obtain ⟨answer, s', hrebuild, hrun⟩ := rebuildUnit_recorded u s₁ calls bus
        refine ⟨⟨u, s, [.check u.name (.ok true), .rebuild u.name answer], s'⟩, rfl, rfl,
          ⟨.check hcheck (.rebuild hrebuild .nothing), by simp [hstop], by simp [hstop],
            by simp [UnitCall.rebuilds], by simp [hstop]⟩, ?_⟩
        exact hrun [.check u.name (.ok true)] s
      | .ok false =>
        refine ⟨⟨u, s, [.check u.name (.ok false)], s₁⟩, rfl, rfl, ⟨.check hcheck .nothing,
          by simp [hstop], by simp, by simp [UnitCall.rebuilds], by simp [hstop]⟩, ?_⟩
        simp [After, Turn.report, UnitCall.report, publishAll, RebuildReport.events,
          RebuildUnit.recorded]
      | .error e =>
        refine ⟨⟨u, s, [.check u.name (.error e)], s₁⟩, rfl, rfl, ⟨.check hcheck .nothing,
          by simp [hstop], by simp, by simp [UnitCall.rebuilds], by simp [hstop]⟩, ?_⟩
        simp [After, Turn.report, UnitCall.report, publishAll, RebuildReport.events,
          RebuildUnit.recorded]

/-- A run without what is in the record. -/
def forget {α : Type} (x : α × (σ × List UnitCall) × EventBus) : α × σ × EventBus :=
  (x.1, x.2.1.1, x.2.2)

/-- The record changes nothing else. -/
theorem forget_takeTurn (stop : σ → Bool) (force : Bool) (u : RebuildUnit σ) (s : σ)
    (calls : List UnitCall) (bus : EventBus) :
    forget (takeTurn (fun state => stop state.1) force u.recorded ((s, calls), bus)) =
      takeTurn stop force u (s, bus) := by
  have hrebuild : ∀ s calls, forget (rebuildUnit u.recorded ((s, calls), bus)) =
      rebuildUnit u (s, bus) := by
    intro s calls
    rw [rebuildUnit_eq, rebuildUnit_eq, RebuildUnit.recorded, effect_recording]
    rcases effect u.rebuild s with ⟨_ | _, t⟩ <;> rfl
  rw [takeTurn_eq, takeTurn_eq]
  cases stop s with
  | true => rfl
  | false =>
    cases force with
    | true => exact hrebuild s calls
    | false =>
      simp only [Bool.false_eq_true, if_false]
      have hcheck : effect u.recorded.isCorrupted (s, calls) = _ := effect_recording _ _ _ _
      rw [runUnit_eq, runUnit_eq, hcheck]
      rcases effect u.isCorrupted s with ⟨_ | _ | _, t⟩
      · rfl
      · rfl
      · exact hrebuild t _

/-! ### Runs -/

theorem runUnits_cons {τ : Type} (stop : τ → Bool) (force : Bool) (summary : RebuildSummary)
    (u : RebuildUnit τ) (us : List (RebuildUnit τ)) (x : τ × EventBus) :
    runUnits stop force summary (u :: us) x =
      runUnits stop force (summary.push (takeTurn stop force u x).1) us (takeTurn stop force u x).2 := by
  unfold takeTurn
  rw [runUnits]
  simp only [bind, StateT.bind, get, getThe, MonadStateOf.get, StateT.get, pure]
  cases stop x.1 <;> rfl

theorem forget_runUnits (stop : σ → Bool) (force : Bool) : ∀ (us : List (RebuildUnit σ))
    (summary : RebuildSummary) (s : σ) (calls : List UnitCall) (bus : EventBus),
    forget (runUnits (fun state => stop state.1) force summary (us.map RebuildUnit.recorded)
      ((s, calls), bus)) = runUnits stop force summary us (s, bus)
  | [], _, _, _, _ => rfl
  | u :: us, summary, s, calls, bus => by
    have hfirst := forget_takeTurn stop force u s calls bus
    rw [List.map_cons, runUnits_cons, runUnits_cons, ← hfirst]
    exact forget_runUnits stop force us _ _ _ _

/-- **Units take their turns one after the other**, and the reports on them come in this order. -/
theorem runUnits_turns (stop : σ → Bool) (force : Bool) : ∀ (us : List (RebuildUnit σ))
    (summary : RebuildSummary) (s : σ) (calls : List UnitCall) (bus : EventBus),
    ∃ (turns : List (Turn σ)) (s' : σ), turns.map Turn.unit = us ∧ Turn.Follow s turns s' ∧
      (∀ t ∈ turns, t.Fair stop force) ∧
      runUnits (fun state => stop state.1) force summary (us.map RebuildUnit.recorded)
          ((s, calls), bus) =
        ((turns.map Turn.report).foldl RebuildSummary.push summary,
          (s', calls ++ turns.flatMap Turn.calls),
          publishAll bus (RebuildReport.events (turns.map Turn.report)))
  | [], summary, s, calls, bus => ⟨[], s, rfl, rfl, by simp, by
    rw [List.map_nil, List.flatMap_nil, List.append_nil]
    rfl⟩
  | u :: us, summary, s, calls, bus => by
    obtain ⟨t, rfl, rfl, hfair, hturn⟩ := exists_turn stop force u s calls bus
    obtain ⟨turns, s', hunits, hfollow, hturns, hrun⟩ := runUnits_turns stop force us
      (summary.push t.report) t.after (calls ++ t.calls) (publishAll bus (RebuildReport.events [t.report]))
    refine ⟨t :: turns, s', by rw [List.map_cons, hunits], ⟨rfl, hfollow⟩,
      List.forall_mem_cons.mpr ⟨hfair, hturns⟩, ?_⟩
    have hevents : RebuildReport.events ((t :: turns).map Turn.report) =
        RebuildReport.events [t.report] ++ RebuildReport.events (turns.map Turn.report) := by
      rw [← RebuildReport.events_append]
      rfl
    rw [List.map_cons, runUnits_cons, hturn, After, hrun, hevents, publishAll, publishAll, publishAll,
      List.foldl_append, List.flatMap_cons, List.append_assoc]
    rfl

end

/-! ### Which units are asked for -/

theorem registered_recorded (us : List (RebuildUnit σ)) :
    (registered (us.map RebuildUnit.recorded)).units = (registered us).units.map RebuildUnit.recorded := by
  induction us using List.reverseRecOn with
  | nil => rfl
  | append_singleton us w ih =>
    rw [List.map_append, List.map_singleton, registered_concat, registered_concat, register, ih,
      register, List.map_append, List.filter_map]
    rfl

theorem ordered_recorded (us : List (RebuildUnit σ)) :
    (registered (us.map RebuildUnit.recorded)).ordered =
      (registered us).ordered.map RebuildUnit.recorded := by
  rw [ordered, registered_recorded, ordered]
  exact (List.map_mergeSort (f := RebuildUnit.recorded) (r := isBefore) fun _ _ _ _ => rfl).symm

end Coordinator

namespace RebuildRequest

variable {σ : Type}

/-- Whether the name of a unit is among the targets, in any case. -/
def selects (r : RebuildRequest) (u : RebuildUnit σ) : Bool :=
  r.targets.all fun targets => targets.any fun target => Text.eqUpToLatinCase u.name target

/-- The first target that is the name of no unit. -/
def missing? (r : RebuildRequest) (us : List (RebuildUnit σ)) : Option String :=
  (r.targets.getD []).find? fun target => !us.any fun u => Text.eqUpToLatinCase u.name target

end RebuildRequest

namespace Coordinator

variable {σ : Type} {us : List (RebuildUnit σ)}

theorem mem_ordered_registered {u : RebuildUnit σ} : u ∈ (registered us).ordered ↔
    ∃ before after, us = before ++ u :: after ∧ ∀ v ∈ after, v.name ≠ u.name :=
  (List.mergeSort_perm _ _).mem_iff.trans mem_registered

/-- What is asked for is found among the units, unless a target is the name of none. -/
theorem resolve_registered (us : List (RebuildUnit σ)) (r : RebuildRequest) :
    (registered us).resolve r.targets = match r.missing? us with
      | some target => .error (.notFound "RebuildUnit" target)
      | none => .ok ((registered us).ordered.filter r.selects) := by
  have hnamed : ∀ target, (registered us).ordered.any
      (fun u => Text.eqUpToLatinCase u.name target) =
        us.any fun u => Text.eqUpToLatinCase u.name target := by
    intro target
    rw [Bool.eq_iff_iff, List.any_eq_true, List.any_eq_true]
    constructor
    · rintro ⟨u, hu, hname⟩
      obtain ⟨before, after, rfl, -⟩ := mem_ordered_registered.mp hu
      exact ⟨u, by simp, hname⟩
    · rintro ⟨u, hu, hname⟩
      obtain ⟨v, hv, he⟩ := exists_registered hu
      refine ⟨v, (List.mergeSort_perm _ _).mem_iff.mpr hv, ?_⟩
      rwa [← he] at hname
  rw [RebuildRequest.missing?]
  cases htargets : r.targets with
  | none =>
    have hall : ∀ u ∈ (registered us).ordered, r.selects u = true := fun u _ => by
      simp [RebuildRequest.selects, htargets]
    rw [resolve, List.filter_eq_self.mpr hall]
    rfl
  | some targets =>
    have hselects : (r.selects : RebuildUnit σ → Bool) =
        fun u => targets.any fun target => Text.eqUpToLatinCase u.name target := by
      funext u
      simp [RebuildRequest.selects, htargets]
    have hfind : (targets.find? fun target =>
        !(registered us).ordered.any fun u => Text.eqUpToLatinCase u.name target) =
        targets.find? fun target => !us.any fun u => Text.eqUpToLatinCase u.name target := by
      simp only [hnamed]
    rw [resolve, hselects, Option.getD_some]
    exact hfind ▸ rfl

theorem resolve_recorded (us : List (RebuildUnit σ)) (r : RebuildRequest) :
    (registered (us.map RebuildUnit.recorded)).resolve r.targets = match r.missing? us with
      | some target => .error (.notFound "RebuildUnit" target)
      | none => .ok (((registered us).ordered.filter r.selects).map RebuildUnit.recorded) := by
  have hmissing : r.missing? (us.map RebuildUnit.recorded) = r.missing? us := by
    simp only [RebuildRequest.missing?, List.any_map]
    rfl
  rw [resolve_registered, hmissing, ordered_recorded, List.filter_map]
  rfl

/-! ### Runs that were asked for -/

theorem effect_run {τ : Type} {c : Coordinator τ} {stop : τ → Bool} {r : RebuildRequest}
    {us : List (RebuildUnit τ)} {x : τ × EventBus} (h : c.resolve r.targets = .ok us) :
    effect (c.run stop r) x = (.ok (runUnits stop r.force {} us x).1, (runUnits stop r.force {} us x).2) := by
  unfold run
  rw [effect_bind_ok (by rw [h]; exact effect_lift _ _)]
  rfl

/-- What a run did: which units had their turns, in which order, what they were asked, what was
reported, and what became of the state. -/
structure Ran (us : List (RebuildUnit σ)) (stop : σ → Bool) (r : RebuildRequest) (s : σ)
    (turns : List (Turn σ)) (summary : RebuildSummary) (s' : σ) : Prop where
  /-- The turns are in the order of priority and name, one for each unit. -/
  ordered : (turns.map Turn.unit).Pairwise Precedes
  /-- The units are those that are asked for, each as it was registered last. -/
  selected : ∀ u, u ∈ turns.map Turn.unit ↔ r.selects u = true ∧
    ∃ before after, us = before ++ u :: after ∧ ∀ v ∈ after, v.name ≠ u.name
  /-- Each turn goes on from the state that the one before has left. -/
  follow : Turn.Follow s turns s'
  /-- Each unit was asked what had to be asked. -/
  fair : ∀ t ∈ turns, t.Fair stop r.force
  /-- No unit is rebuilt twice. -/
  once : ∀ name, (turns.flatMap Turn.calls).countP (UnitCall.rebuilds name) ≤ 1
  /-- Once the run was cancelled, no unit is touched any more. -/
  cancelled : ∀ before t after, turns = before ++ t :: after → stop t.after = true →
    ∀ u ∈ after, u.Idle
  /-- There is one report on each unit. -/
  reports : summary.units = turns.map Turn.report
  /-- The numbers of the summary are those of its reports. -/
  exact : summary.Exact

/-- **Every run is one in turns.** If a target is the name of no unit, the first such one is the
answer and no unit is asked anything. Otherwise the units that are asked for have their turns, and the
bus gains the events of those that were rebuilt and nothing else. If the units keep a record, it holds
the calls of the turns and no others. -/
theorem run_in_turns (us : List (RebuildUnit σ)) (stop : σ → Bool) (r : RebuildRequest) (s : σ)
    (bus : EventBus) : match r.missing? us with
    | some target =>
      effect ((registered us).run stop r) (s, bus) =
        (.error (.notFound "RebuildUnit" target), s, bus) ∧
      effect ((registered (us.map RebuildUnit.recorded)).run (fun x => stop x.1) r) ((s, []), bus) =
        (.error (.notFound "RebuildUnit" target), (s, []), bus)
    | none => ∃ turns summary s' bus', Ran us stop r s turns summary s' ∧
      bus.Gains (RebuildReport.events summary.units) bus' ∧
      effect ((registered us).run stop r) (s, bus) = (.ok summary, s', bus') ∧
      effect ((registered (us.map RebuildUnit.recorded)).run (fun x => stop x.1) r) ((s, []), bus) =
        (.ok summary, (s', turns.flatMap Turn.calls), bus') := by
  have hplain := resolve_registered us r
  have hresolve := resolve_recorded us r
  cases hmissing : r.missing? us with
  | some target =>
    rw [hmissing] at hplain hresolve
    simp only at hplain hresolve ⊢
    unfold run
    exact ⟨effect_bind_error (by rw [hplain]; exact effect_lift _ _) _,
      effect_bind_error (by rw [hresolve]; exact effect_lift _ _) _⟩
  | none =>
    rw [hmissing] at hplain hresolve
    simp only at hplain hresolve ⊢
    obtain ⟨turns, s', hunits, hfollow, hfair, hrun⟩ := runUnits_turns stop r.force
      ((registered us).ordered.filter r.selects) {} s [] bus
    obtain ⟨hexact, hreports⟩ := RebuildSummary.exact_foldl (s := {}) ⟨rfl, rfl, rfl, rfl⟩
      (turns.map Turn.report)
    have hnames : (turns.map fun t => t.unit.name).Nodup := by
      have hall := ((List.mergeSort_perm (registered us).units isBefore).map RebuildUnit.name).nodup_iff.mpr
        (nodup_registered us)
      have hsome := hall.sublist ((List.filter_sublist (p := r.selects)).map RebuildUnit.name)
      rwa [← ordered, ← hunits, List.map_map] at hsome
    rw [List.nil_append] at hreports
    refine ⟨turns, (turns.map Turn.report).foldl RebuildSummary.push {}, s',
      publishAll bus (RebuildReport.events (turns.map Turn.report)), ?_, ?_, ?_, ?_⟩
    · exact {
        ordered := hunits ▸ (pairwise_ordered us).filter _
        selected := fun u => by
          rw [hunits, List.mem_filter, mem_ordered_registered, and_comm]
        follow := hfollow
        fair := hfair
        once := Turn.Fair.rebuilt_once hfair hnames
        cancelled := fun before t after hsplit hstop => by
          rw [hsplit] at hfollow hfair
          obtain ⟨_, -, -, hafter⟩ := hfollow.of_append
          exact hafter.idle (fun u hu => hfair u (by simp [hu])) hstop
        reports := hreports
        exact := hexact }
    · rw [hreports]
      exact EventBus.gains_foldl _ bus
    · have hforget := forget_runUnits stop r.force ((registered us).ordered.filter r.selects) {} s [] bus
      rw [hrun] at hforget
      rw [effect_run (by rw [hplain]), ← hforget]
      rfl
    · rw [effect_run (by rw [hresolve]), hrun, List.nil_append]

end Coordinator
end Codebook
