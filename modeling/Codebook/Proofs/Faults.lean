/-
# Faults of criteria

Criteria are refused for what they ask of fields, and never for values. A test makes one demand of the
field of its name: that filters can use it, and with some tests that it holds dates, with others that
it does not. The demands of a clause are those of its filters, at its place; the name of a clause is
no field. In this order the first demand that is not met decides the error. Before it there is only
the count, and after it the order.

Whether a test leaves a trace in the query plays no part in this. So sets without values, blank texts
and clauses without content are checked like everything else.

Key definitions: `failure?`, `Demand`, `Test.demands`, `Schema.unmet?`, `Schema.unsortable?`,
`Criteria.fault?`.
Key theorems: `Schema.Describes.failure?_fieldQuery`, `Test.failure?_query`,
`Criteria.failure?_sortKeys`, `Criteria.failure?_compile`, `Criteria.compile_exact`.
-/
import Codebook.Proofs.Defaults

namespace Codebook

/-! ### Failures -/

section

variable {ε α β : Type} {x : Except ε α}

/-- The error of a result, if it is one. -/
def failure? : Except ε α → Option ε
  | .error e => some e
  | .ok _ => none

theorem failure?_eq_some {e : ε} : failure? x = some e ↔ x = .error e := by
  cases x <;> simp [failure?]

theorem failure?_eq_none : failure? x = none ↔ ∃ a, x = .ok a := by
  cases x <;> simp [failure?]

/-- The first of two steps that fails decides. -/
theorem failure?_bind {f : α → Except ε β} {later : Option ε}
    (h : ∀ a, x = .ok a → failure? (f a) = later) : failure? (x >>= f) = (failure? x).or later := by
  cases x with
  | error e => rfl
  | ok a => exact h a rfl

end

/-! ### Demands -/

/-- What a test demands of a field, beside that filters can use it. -/
inductive Demand where
  /-- Nothing else. -/
  | usable
  /-- Values that are compared as they are, which dates are not. -/
  | exact
  /-- Dates. -/
  | days
deriving DecidableEq, Repr

mutual

/-- The demands of a test, each with the name of its field. -/
def Test.demands (name : String) : Test → List (String × Demand)
  | .empty | .notEmpty => [(name, .usable)]
  | .boolean _ | .enumSet _ _ | .stringEq _ | .stringSet _ _ => [(name, .exact)]
  | .dateRange _ _ => [(name, .days)]
  | .clause filters => Test.demandsOf filters

/-- The demands of filters in order. -/
def Test.demandsOf : List (String × Joined Test) → List (String × Demand)
  | [] => []
  | (name, ⟨_, test⟩) :: rest => Test.demands name test ++ Test.demandsOf rest

end

/-- The error of a demand that is not met. -/
def Schema.unmet? (s : Schema) : String × Demand → Option IndexError
  | (name, demand) =>
    match (s.field? name).filter fun f => f.capabilities.filterable with
    | none => some (.unknownField s.entityType name)
    | some f =>
      if demand = .exact ∧ f.kind = .date then
        some (.criteria (.invalidCriteria
          s!"an exact-match filter does not apply to Date field '{name}' of {s.entityType}"))
      else if demand = .days ∧ f.kind ≠ .date then
        some (.criteria (.invalidCriteria
          s!"DateRange does not apply to {f.kind.label} field '{name}' of {s.entityType}"))
      else none

/-- The error of an order by a name, if the first field of the name cannot be sorted by. -/
def Schema.unsortable? (s : Schema) (name : String) : Option IndexError :=
  match (s.field? name).filter fun f => f.capabilities.sortable with
  | none => some (.unknownField s.entityType name)
  | some _ => none

/-- The error of criteria that show everything: that of the count, else that of the first demand that is
not met, else that of the order that was asked for, or of the natural order. -/
def Criteria.fault? (c : Criteria) (s : Schema) : Option IndexError :=
  if c.count < -1 then
    some (.criteria (.invalidCriteria s!"count must be >= 0 or -1, got {c.count}"))
  else
    ((Test.demandsOf c.filters).findSome? s.unmet?).or
      ((c.sortKey.or s.nameField).bind s.unsortable?)

section

variable {α : Type} [Indexed α] {s : Schema} {c : Criteria} {zone : Instant.Zone} {name : String}

theorem Schema.filterable_eq (s : Schema) (name : String) : s.filterable name =
    match (s.field? name).filter fun f => f.capabilities.filterable with
    | some f => .ok f
    | none => .error (.unknownField s.entityType name) := by
  rw [filterable, field]
  cases s.field? name with
  | none => rfl
  | some f =>
    by_cases hcap : f.capabilities.filterable = true <;>
      simp [hcap, Option.filter, bind, Except.bind, pure, Except.pure, throw, throwThe,
        MonadExceptOf.throw]

theorem Schema.sortable_eq (s : Schema) (name : String) : s.sortable name =
    match (s.field? name).filter fun f => f.capabilities.sortable with
    | some f => .ok f
    | none => .error (.unknownField s.entityType name) := by
  rw [sortable, field]
  cases s.field? name with
  | none => rfl
  | some f =>
    by_cases hcap : f.capabilities.sortable = true <;>
      simp [hcap, Option.filter, bind, Except.bind, pure, Except.pure, throw, throwThe,
        MonadExceptOf.throw]

/-! ### Filters -/

/-- On a column a test fails just if it is for values of another kind. -/
theorem Schema.failure?_testQuery {f : IndexedField} {t : Test} (ht : ∀ filters, t ≠ .clause filters)
    (hf : (s.field? name).filter (fun f => f.capabilities.filterable) = some f) :
    failure? (s.testQuery zone name f.kind t) = (t.demands name).findSome? s.unmet? := by
  have hexact : ∀ q : Option Query, failure? (if f.kind = .date then
      .error (s.mismatch name "an exact-match filter" f.kind) else .ok q) = s.unmet? (name, .exact) := by
    intro q
    simp only [unmet?, hf]
    split_ifs with hkind <;> simp_all [failure?]
    rfl
  have hdays : ∀ q : Option Query, failure? (if f.kind = .date then .ok q else
      .error (s.mismatch name "DateRange" f.kind)) = s.unmet? (name, .days) := by
    intro q
    simp only [unmet?, hf]
    split_ifs with hkind <;> simp_all [failure?]
    rfl
  have husable : s.unmet? (name, .usable) = none := by simp [unmet?, hf]
  have hone : ∀ demand, [(name, demand)].findSome? s.unmet? = s.unmet? (name, demand) :=
    fun demand => List.findSome?_singleton
  cases t with
  | clause filters => exact absurd rfl (ht filters)
  | empty | notEmpty => rw [Test.demands, hone, husable]; rfl
  | dateRange => rw [Test.demands, hone]; exact hdays _
  | boolean | enumSet | stringEq | stringSet => rw [Test.demands, hone]; exact hexact _

/-- A test that is no clause fails just if its demand is not met. -/
theorem Schema.Describes.failure?_fieldQuery (hs : s.Describes α) {t : Test}
    (ht : ∀ filters, t ≠ .clause filters) :
    failure? (s.fieldQuery zone name t) = (t.demands name).findSome? s.unmet? := by
  have hfilterable := s.filterable_eq name
  cases hfield : (s.field? name).filter fun f => f.capabilities.filterable with
  | some f =>
    rw [hfield] at hfilterable
    rw [hs.fieldQuery_eq hfilterable, Schema.failure?_testQuery ht hfield]
  | none =>
    rw [hfield] at hfilterable
    have hquery : s.fieldQuery zone name t = .error (.unknownField s.entityType name) := by
      rw [Schema.fieldQuery, hfilterable]
      rfl
    rw [hquery]
    cases t with
    | clause filters => exact absurd rfl (ht filters)
    | _ => simp [failure?, Test.demands, Schema.unmet?, hfield]

mutual

/-- A test fails just if one of its demands is not met, and then with the error of the first one. -/
theorem Test.failure?_query (hs : s.Describes α) {name : String} : ∀ t : Test,
    failure? (Test.query s zone name t) = (t.demands name).findSome? s.unmet?
  | .clause filters => by
    rw [Test.query, Test.demands]
    exact Test.failure?_queries hs filters
  | .empty => by rw [Test.query]; exact hs.failure?_fieldQuery (by simp); simp
  | .notEmpty => by rw [Test.query]; exact hs.failure?_fieldQuery (by simp); simp
  | .boolean b => by rw [Test.query]; exact hs.failure?_fieldQuery (by simp); simp
  | .enumSet vs i => by rw [Test.query]; exact hs.failure?_fieldQuery (by simp); simp
  | .stringSet vs i => by rw [Test.query]; exact hs.failure?_fieldQuery (by simp); simp
  | .stringEq v => by rw [Test.query]; exact hs.failure?_fieldQuery (by simp); simp
  | .dateRange a b => by rw [Test.query]; exact hs.failure?_fieldQuery (by simp); simp

theorem Test.failure?_queries (hs : s.Describes α) : ∀ (filters : List (String × Joined Test))
    {before : Option Query},
    failure? (Test.queries s zone before filters) = (Test.demandsOf filters).findSome? s.unmet?
  | [], before => by simp [Test.queries, Test.demandsOf, failure?]
  | (name, ⟨condition, test⟩) :: rest, before => by
    rw [Test.queries, Test.demandsOf, List.findSome?_append, ← Test.failure?_query hs test]
    refine failure?_bind fun q? _ => ?_
    -- what a test leaves in the query does not matter for the rest
    cases q? <;> exact Test.failure?_queries hs rest

end

/-! ### The order -/

/-- A key is added to an order just if the first field of the name can be sorted by. -/
theorem Criteria.failure?_addSortKey (hs : s.Describes α) (keys : List SortKey) (name : String)
    (descending : Bool) : failure? (addSortKey s keys name descending) = s.unsortable? name := by
  have hsortable := s.sortable_eq name
  unfold Schema.unsortable?
  cases hfield : (s.field? name).filter fun f => f.capabilities.sortable with
  | none =>
    rw [hfield] at hsortable
    rw [addSortKey, hsortable]
    rfl
  | some f =>
    rw [hfield] at hsortable
    exact failure?_eq_none.mpr (addSortKey_of_sortable hs hsortable keys descending)

/-- The order of criteria exists just if what they ask for, or else the name of the entities, can be
sorted by. -/
theorem Criteria.failure?_sortKeys (hs : s.Describes α) :
    failure? (c.sortKeys s) = (c.sortKey.or s.nameField).bind s.unsortable? := by
  have hlast : ∀ keys, failure? (addSortKey s keys s.primaryKey.name false) = none := fun keys =>
    failure?_eq_none.mpr (addSortKey_of_sortable hs hs.primaryKey_sortable keys false)
  have hfirst : ∀ name descending, failure? (addSortKey s [] name descending >>= fun keys =>
      addSortKey s keys s.primaryKey.name false) = s.unsortable? name := by
    intro name descending
    rw [failure?_bind fun keys _ => hlast keys, Option.or_none, failure?_addSortKey hs]
  unfold sortKeys
  cases c.sortKey with
  | some key => exact hfirst key _
  | none =>
    cases s.nameField with
    | some name => exact hfirst name false
    | none => exact hlast []

/-! ### Criteria -/

/-- Criteria that show everything fail with their fault. -/
theorem Criteria.failure?_compile (hs : s.Describes α) (hactivity : c.activity.admitsAll = true) :
    failure? (c.compile s zone) = c.fault? s := by
  have hquery : failure? (c.query s zone) = (Test.demandsOf c.filters).findSome? s.unmet? := by
    have hfilters : failure? (c.query s zone) =
        (failure? (Test.queries s zone none c.filters)).or none := failure?_bind fun _ _ => rfl
    rw [hfilters, Option.or_none, Test.failure?_queries hs]
  have hvisible : ∀ q keys, failure? (c.activityQuery s >>= fun activity =>
      (pure { query := q, sort := keys, activity } : Except IndexError Compiled)) = none := by
    intro q keys
    have hall : c.activityQuery s = .ok none := if_pos (by simp [hactivity])
    rw [hall]
    rfl
  unfold compile fault?
  by_cases hcount : c.count < -1
  · have hvalid : c.validate = .error _ := if_neg (by omega)
    rw [if_pos hcount, hvalid]
    rfl
  · have hvalid : c.validate = .ok () := if_pos (by omega)
    rw [if_neg hcount, hvalid]
    refine (failure?_bind fun q _ => (failure?_bind fun keys _ => hvisible q keys)).trans ?_
    rw [Option.or_none, hquery, failure?_sortKeys hs]

/-- **The errors of criteria are exact.** Criteria that show everything are refused just if they have a
fault, and then with the error of this fault: the count is negative and not the one that stands for
all; or else a test, the first one from the left and into the clauses, is under a name whose first
field filters cannot use, or is for values of another kind; or else the first field of the name to sort
by cannot be sorted by. In all other cases they compile. So criteria with the same count, the same
demands and the same name to sort by are refused alike, whatever values, conditions and free text they
have. -/
theorem Criteria.compile_exact (hs : Schema.describe α = .ok s) (hactivity : c.activity.admitsAll = true)
    (zone : Instant.Zone) :
    (∀ e, c.compile s zone = .error e ↔ c.fault? s = some e) ∧
      ((∃ q, c.compile s zone = .ok q) ↔ c.fault? s = none) ∧
      ∀ c' : Criteria, c'.activity.admitsAll = true → c'.count = c.count →
        Test.demandsOf c'.filters = Test.demandsOf c.filters → c'.sortKey = c.sortKey →
        ∀ e, c'.compile s zone = .error e ↔ c.compile s zone = .error e := by
  have hdescribes := Schema.describes_of_describe hs
  have herror : ∀ c : Criteria, c.activity.admitsAll = true →
      ∀ e, c.compile s zone = .error e ↔ c.fault? s = some e := by
    intro c hactivity e
    rw [← failure?_compile hdescribes hactivity, failure?_eq_some]
  refine ⟨herror c hactivity, ?_, fun c' hactivity' hcount hdemands hsort e => ?_⟩
  · rw [← failure?_compile hdescribes hactivity, failure?_eq_none]
  · have hfault : c'.fault? s = c.fault? s := by rw [fault?, fault?, hcount, hdemands, hsort]
    rw [herror c' hactivity', herror c hactivity, hfault]

end

/-- A request that is full of holes: sets without values, a blank text, clauses without content. Two of
its tests have faults, and so has its order. -/
def hollow : Criteria where
  sortKey := some "note"
  filters := [("name", ⟨.or, .stringSet [] .and⟩), ("nothing", ⟨.and, .clause []⟩),
    ("more", ⟨.not, .clause [("other", ⟨.and, .empty⟩), ("due", ⟨.and, .stringSet [] .or⟩)]⟩),
    ("rank", ⟨.and, .stringEq " "⟩)]
  activity := .all

theorem Criteria.compile_exact_of_hollow : ∃ s, Schema.describe Item = .ok s ∧
    hollow.compile s .universal = .error (.criteria (.invalidCriteria
      "an exact-match filter does not apply to Date field 'due' of Sample")) := by
  refine ⟨_, rfl, ?_⟩
  exact ((Criteria.compile_exact (α := Item) rfl (by decide) .universal).1 _).mpr (by decide)

end Codebook
