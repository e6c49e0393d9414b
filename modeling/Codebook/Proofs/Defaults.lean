/-
# Requests that name no field

Criteria without filters and without an order of their own name no field, yet they read two: the
field that names the entities, by which they are ordered, and the last change, by which they are
visible. A declaration is checked for the first of them only, and not as the request reads it: some
field of that name has to be sortable, but the request takes the first one. So a declaration can be
accepted under which such requests are refused, or are compiled to what the engine cannot run. Here
are the two conditions under which neither happens.

Key definitions: `Criteria.NamesNoField`, `Compiled.Backed`, `Schema.OrdersByName`, `Schema.Sees`.
Key theorems: `Criteria.sortKeys_natural`, `Criteria.activityQuery_backed_iff`,
`Criteria.backed_of_namesNoField_iff`.
-/
import Codebook.Entity.Field
import Codebook.Proofs.Paging
import Codebook.Proofs.Redeclared
import Codebook.Samples.Specimen

namespace Codebook

/-- The criteria have no filters and ask for no order. -/
structure Criteria.NamesNoField (c : Criteria) : Prop where
  sortKey : c.sortKey = none
  filters : c.filters = []

/-- The fields of the engine carry compiled criteria: values are looked up in fields that are
indexed, and compared in fields that are columnar. -/
structure Compiled.Backed (s : Schema) (q : Compiled) : Prop where
  indexed : ∀ name ∈ q.executable.columns, ∃ f ∈ s.layout, f.name = name ∧ f.indexed = true
  columnar : ∀ key ∈ q.sort, ∃ f ∈ s.layout, f.name = key.name ∧ f.columnar = true

namespace Schema

/-- The first field that has the name of the entities is sortable, if they are named. -/
def OrdersByName (s : Schema) : Prop :=
  ∀ name, s.nameField = some name → ∃ f, s.field? name = some f ∧ f.capabilities.sortable = true

/-- What an activity admits can be seen: it admits everything, or there is no last change, or the last
change has a column, which filters can use unless nothing is admitted anyway. -/
def Sees (s : Schema) (a : Activity) : Prop :=
  a.admitsAll = true ∨ s.isVersioned = false ∨ ∃ c, s.column? changeTypeField = some c ∧
    (a.admitted = [] ∨ c.capabilities.filterable = true)

variable {α : Type} [Indexed α] {s : Schema} {name : String}

/-! ### The order -/

theorem sortable_iff : (∃ f, s.sortable name = .ok f) ↔
    ∃ f, s.field? name = some f ∧ f.capabilities.sortable = true := by
  constructor
  · rintro ⟨f, hf⟩
    obtain ⟨g, hg, hcap⟩ := bind_eq_ok.mp hf
    have hfield : s.field? name = some g := by
      unfold field at hg
      split at hg
      · rename_i f' hf'
        rw [hf', Except.ok.inj hg]
      · cases hg
    split_ifs at hcap with hsort
    exact ⟨g, hfield, hsort⟩
  · rintro ⟨f, hf, hsort⟩
    have hfield : s.field name = .ok f := by rw [Schema.field, hf]
    exact ⟨f, bind_eq_ok.mpr ⟨f, hfield, if_pos hsort⟩⟩

/-- A sortable field has a column, which the engine keeps for comparing. -/
theorem Describes.columnar (hs : s.Describes α) {f : IndexedField} (hf : f ∈ s.primaryKey :: s.fields)
    (hsort : f.capabilities.sortable = true) :
    ∃ c, s.column? f.name = some c ∧ c.engineField ∈ s.layout ∧ c.engineField.name = f.name ∧
      c.engineField.columnar = true := by
  obtain ⟨c, hc⟩ := hs.column_of_usable hf (.inr hsort)
  have hmem := List.mem_of_find?_eq_some hc
  have hname := (hs.column_kind hc).1
  refine ⟨c, hc, List.mem_append_left _ (List.mem_map_of_mem hmem), hname, ?_⟩
  rw [Column.engineField, hs.columns.capabilities c hmem, hname]
  exact (usable_capabilitiesOf hf).2 hsort

theorem Describes.primaryKey_sortable (hs : s.Describes α) :
    s.sortable s.primaryKey.name = .ok s.primaryKey := by
  have hfield : s.field s.primaryKey.name = .ok s.primaryKey := by
    rw [Schema.field, field?, if_pos rfl]
  have hcap : s.primaryKey.capabilities.sortable = true := by rw [hs.key]
  exact bind_eq_ok.mpr ⟨s.primaryKey, hfield, if_pos hcap⟩

end Schema

namespace Criteria

variable {α : Type} [Indexed α] {s : Schema} {c : Criteria} {zone : Instant.Zone}

/-- A sortable field can be added to an order. -/
theorem addSortKey_of_sortable (hs : s.Describes α) {name : String} {f : IndexedField}
    (hf : s.sortable name = .ok f) (keys : List SortKey) (descending : Bool) :
    ∃ keys', addSortKey s keys name descending = .ok keys' := by
  obtain ⟨-, hmem, hsort⟩ := Schema.sortable_ok hf
  obtain ⟨column, hcolumn, -⟩ := hs.columnar hmem hsort
  have hcol : s.column f.name = .ok column := by rw [Schema.column, hcolumn]
  unfold addSortKey
  rw [hf]
  simp only [bind, Except.bind, hcol]
  split_ifs
  · exact ⟨_, rfl⟩
  · exact ⟨_, rfl⟩

/-- Every key that is added compares a columnar field of the engine. -/
theorem columnar_of_addSortKey (hs : s.Describes α) {keys keys' : List SortKey} {name : String}
    {descending : Bool}
    (hkeys : ∀ key ∈ keys, ∃ f ∈ s.layout, f.name = key.name ∧ f.columnar = true)
    (h : addSortKey s keys name descending = .ok keys') :
    ∀ key ∈ keys', ∃ f ∈ s.layout, f.name = key.name ∧ f.columnar = true := by
  obtain ⟨f, hf, h⟩ := bind_eq_ok.mp h
  obtain ⟨column, hcolumn, h⟩ := bind_eq_ok.mp h
  obtain ⟨-, hmem, hsort⟩ := Schema.sortable_ok hf
  obtain ⟨c, hc, hlayout, -, hcolumnar⟩ := hs.columnar hmem hsort
  obtain rfl : c = column := Option.some.inj (hc.symm.trans (Schema.column_ok hcolumn))
  split_ifs at h
  · exact Except.ok.inj h ▸ hkeys
  · intro key hkey
    obtain rfl := Except.ok.inj h
    rcases List.mem_append.mp hkey with hkey | hkey
    · exact hkeys key hkey
    · obtain rfl := List.mem_singleton.mp hkey
      exact ⟨_, hlayout, rfl, hcolumnar⟩

/-- **The natural order** exists just if the first field with the name of the entities is sortable.
All its keys compare columnar fields of the engine. -/
theorem sortKeys_natural (hs : s.Describes α) (hc : c.sortKey = none) :
    ((∃ keys, c.sortKeys s = .ok keys) ↔ s.OrdersByName) ∧
      ∀ keys, c.sortKeys s = .ok keys →
        ∀ key ∈ keys, ∃ f ∈ s.layout, f.name = key.name ∧ f.columnar = true := by
  have hprimary := fun keys => addSortKey_of_sortable hs hs.primaryKey_sortable keys false
  have hnone : ∀ key ∈ ([] : List SortKey), ∃ f ∈ s.layout, f.name = key.name ∧ f.columnar = true := by
    simp
  unfold sortKeys Schema.OrdersByName
  rw [hc]
  cases hname : s.nameField with
  | none =>
    refine ⟨iff_of_true (hprimary []) (by simp), fun keys hkeys => ?_⟩
    exact columnar_of_addSortKey hs hnone hkeys
  | some name =>
    constructor
    · constructor
      · rintro ⟨keys, hkeys⟩ n hn
        obtain rfl := Option.some.inj hn
        obtain ⟨before, hbefore, -⟩ := bind_eq_ok.mp hkeys
        obtain ⟨f, hf, -⟩ := bind_eq_ok.mp hbefore
        exact Schema.sortable_iff.mp ⟨f, hf⟩
      · intro hfirst
        obtain ⟨f, hf⟩ := Schema.sortable_iff.mpr (hfirst name rfl)
        obtain ⟨before, hbefore⟩ := addSortKey_of_sortable hs hf [] false
        obtain ⟨keys, hkeys⟩ := hprimary before
        exact ⟨keys, bind_eq_ok.mpr ⟨before, hbefore, hkeys⟩⟩
    · intro keys hkeys
      obtain ⟨before, hbefore, hlast⟩ := bind_eq_ok.mp hkeys
      exact columnar_of_addSortKey hs (columnar_of_addSortKey hs hnone hbefore) hlast

/-! ### What is visible -/

/-- A query looks in indexed fields of the engine just if it looks in columns that are open to
filters; the field of the free text is indexed, but no column has its name. -/
theorem indexed_iff_open (hs : s.Describes α) {q : Query} (hown : defaultSearchField ∉ q.columns) :
    (∀ name ∈ q.columns, ∃ f ∈ s.layout, f.name = name ∧ f.indexed = true) ↔ q.Open s := by
  have hrun : (Generation.canRun ⟨s.layout, []⟩ q = true) ↔
      ∀ name ∈ q.columns, ∃ f ∈ s.layout, f.name = name ∧ f.indexed = true := by
    simp [Generation.canRun, List.all_eq_true, List.any_eq_true]
  rw [← hrun]
  constructor
  · intro h name hname
    exact Generation.column_of_canRun hs rfl (fun he => hown (he ▸ hname)) hname h
  · exact Generation.canRun_of_open rfl

/-- The visibility can be asked for, in a column that filters can use, just if it can be seen. -/
theorem activityQuery_backed_iff : (∃ a, c.activityQuery s = .ok a ∧ ∀ q ∈ a, q.Open s) ↔
    s.Sees c.activity := by
  unfold activityQuery Schema.Sees
  by_cases hfree : (c.activity.admitsAll || !s.isVersioned) = true
  · rw [if_pos hfree]
    refine iff_of_true ⟨none, rfl, by simp⟩ ?_
    rcases (Bool.or_eq_true _ _).mp hfree with hall | hversioned
    · exact .inl hall
    · exact .inr (.inl (by simpa using hversioned))
  · obtain ⟨hall, hversioned⟩ : c.activity.admitsAll = false ∧ s.isVersioned = true := by
      simpa using hfree
    rw [if_neg hfree]
    simp only [hall, hversioned, Bool.false_eq_true, Bool.true_eq_false, false_or]
    constructor
    · rintro ⟨a, ha, hopen⟩
      obtain ⟨column, hcolumn, hq⟩ := bind_eq_ok.mp ha
      obtain rfl := Except.ok.inj hq
      have hcol := Schema.column_ok hcolumn
      have hname : column.name = changeTypeField := by simpa using List.find?_some hcol
      refine ⟨column, hcol, or_iff_not_imp_left.mpr fun hadmitted => ?_⟩
      obtain ⟨b, hb, hcap⟩ := hopen _ rfl column.name
        (Query.mem_columns_alternatives.mpr ⟨rfl, hadmitted⟩)
      rw [hname] at hb
      exact Option.some.inj (hb.symm.trans hcol) ▸ hcap
    · rintro ⟨column, hcol, hadmits⟩
      have hname : column.name = changeTypeField := by simpa using List.find?_some hcol
      have hcolumn : s.column changeTypeField = .ok column := by rw [Schema.column, hcol]
      refine ⟨_, bind_eq_ok.mpr ⟨column, hcolumn, rfl⟩, ?_⟩
      intro q hq name hmem
      obtain rfl := Option.some.inj hq
      obtain ⟨rfl, hsome⟩ := Query.mem_columns_alternatives.mp hmem
      exact ⟨column, hname ▸ hcol, hadmits.resolve_left hsome⟩

/-! ### Requests -/

/-- The query of criteria without filters looks in no column. -/
theorem columns_query_of_namesNoField (hc : c.NamesNoField) : ∃ q, c.query s zone = .ok q ∧
    q.columns = [] := by
  have hsearch : ∀ {text : String} {found : Query}, Query.ofSearch text = some found →
      found.columns = [] := by
    intro text found h
    unfold Query.ofSearch at h
    simp only at h
    split_ifs at h
    obtain rfl := Option.some.inj h
    refine List.eq_nil_iff_forall_not_mem.mpr fun name hname => ?_
    obtain ⟨clause, hclause, hin⟩ := Query.mem_clauseColumns.mp hname
    obtain ⟨token, -, rfl⟩ := List.mem_map.mp hclause
    simp [Query.columns] at hin
  unfold query
  rw [hc.filters, Test.queries]
  cases hfound : c.search.bind Query.ofSearch with
  | none => exact ⟨.all, rfl, rfl⟩
  | some found =>
    obtain ⟨text, -, htext⟩ := Option.bind_eq_some_iff.mp hfound
    refine ⟨_, rfl, ?_⟩
    cases c.searchCondition <;>
      simp [Query.fold, Query.negate, Query.columns, Query.clauseColumns, hsearch htext]

/-- The visibility is looked for in the column of the last change alone. -/
theorem columns_activityQuery {q : Query} (h : c.activityQuery s = .ok (some q)) :
    ∀ name ∈ q.columns, name = changeTypeField := by
  unfold activityQuery at h
  split_ifs at h
  · cases Except.ok.inj h
  · obtain ⟨column, hcolumn, h⟩ := bind_eq_ok.mp h
    obtain rfl := Option.some.inj (Except.ok.inj h)
    intro name hname
    rw [(Query.mem_columns_alternatives.mp hname).1]
    simpa using List.find?_some (Schema.column_ok hcolumn)

/-- What is looked up in fields of the engine is what the visibility is looked for in. -/
theorem indexed_iff_of_nowhere (hs : s.Describes α) {q : Compiled} (hq : q.query.columns = [])
    (hactivity : c.activityQuery s = .ok q.activity) :
    (∀ name ∈ q.executable.columns, ∃ f ∈ s.layout, f.name = name ∧ f.indexed = true) ↔
      ∀ a ∈ q.activity, a.Open s := by
  cases ha : q.activity with
  | none => simp [Compiled.executable, ha, hq]
  | some a =>
    have hnames := columns_activityQuery (hactivity.trans (congrArg _ ha))
    have hown : defaultSearchField ∉ a.columns := fun hmem => absurd (hnames _ hmem) (by decide)
    have hexecutable : q.executable.columns = a.columns := by
      simp [Compiled.executable, ha, Query.columns, Query.clauseColumns, hq]
    rw [hexecutable, indexed_iff_open hs hown]
    simp

theorem compile_of_parts (hcount : -1 ≤ c.count) {q : Compiled} (hquery : c.query s zone = .ok q.query)
    (hsort : c.sortKeys s = .ok q.sort) (hactivity : c.activityQuery s = .ok q.activity) :
    c.compile s zone = .ok q := by
  have hvalid : c.validate = .ok () := if_pos hcount
  simp only [compile, hvalid, hquery, hsort, hactivity]
  rfl

/-- **When a request that names no field can be served.** It compiles, to a query and an order that the
fields of the engine carry, just if its count is one, the first field with the name of the entities is
sortable, and what its activity admits can be seen. -/
theorem backed_of_namesNoField_iff (hs : Schema.describe α = .ok s) (hc : c.NamesNoField) :
    (∃ q, c.compile s zone = .ok q ∧ q.Backed s) ↔
      -1 ≤ c.count ∧ s.OrdersByName ∧ s.Sees c.activity := by
  have hdescribes := Schema.describes_of_describe hs
  obtain ⟨query, hquery, hnowhere⟩ : ∃ q, c.query s zone = .ok q ∧ q.columns = [] :=
    columns_query_of_namesNoField hc
  obtain ⟨horder, hcolumnar⟩ := sortKeys_natural hdescribes hc.sortKey
  constructor
  · rintro ⟨q, hcompile, hbacked⟩
    obtain ⟨_, hvalid, -⟩ := bind_eq_ok.mp hcompile
    obtain ⟨hquery', hsort, hactivity⟩ := compile_ok hcompile
    have hq : q.query.columns = [] := Except.ok.inj (hquery'.symm.trans hquery) ▸ hnowhere
    have hopen := (indexed_iff_of_nowhere hdescribes hq hactivity).mp hbacked.indexed
    have hcount : -1 ≤ c.count := by
      by_contra hcount
      rw [validate, if_neg hcount] at hvalid
      cases hvalid
    exact ⟨hcount, horder.mp ⟨_, hsort⟩, activityQuery_backed_iff.mp ⟨_, hactivity, hopen⟩⟩
  · rintro ⟨hcount, hnamed, hsees⟩
    obtain ⟨sort, hsort⟩ := horder.mpr hnamed
    obtain ⟨activity, hactivity, hopen⟩ := activityQuery_backed_iff.mpr hsees
    let q : Compiled := ⟨query, sort, activity⟩
    have hindexed := (indexed_iff_of_nowhere (q := q) hdescribes hnowhere hactivity).mpr hopen
    exact ⟨q, compile_of_parts hcount hquery hsort hactivity, hindexed, hcolumnar sort hsort⟩

/-- Rules share an alias between two of their fields, and can be found without naming any. -/
theorem backed_of_namesNoField_rules : ∃ s, Schema.describe RecodeRule = .ok s ∧
    ({} : Criteria).NamesNoField ∧ ∃ q, ({} : Criteria).compile s .universal = .ok q ∧ q.Backed s := by
  refine ⟨_, rfl, ⟨rfl, rfl⟩, ?_⟩
  refine (backed_of_namesNoField_iff (α := RecodeRule) rfl ⟨rfl, rfl⟩).mpr ⟨by decide, ?_, ?_⟩
  · exact fun _ h => nomatch h
  · exact .inr (.inr ⟨_, rfl, .inr rfl⟩)

/-- Fields under a declaration that names them by their label. The label of the name comes first and
is not sortable, the label of the value is. -/
def labelled : Declaration :=
  { primaryKey := "id"
    fields := [{ name := "name", sort := false, aliases := ["label"] },
      { name := "value", aliases := ["label"] }]
    nameField := some "label" }

/-- Two declarations are accepted under which requests that name no field are refused: one whose last
change is hidden, so that no activity but all of them can be seen, and one whose name is shadowed. -/
theorem refused_of_accepted :
    (∃ s, Schema.describe (Specimen 27) = .ok s ∧
      ({} : Criteria).compile s .universal = .error (.unknownField "HiddenActivity" "changeType")) ∧
    ∃ s, Schema.describe (Declared Field labelled) = .ok s ∧
      ({} : Criteria).compile s .universal = .error (.unknownField "Field" "label") :=
  ⟨⟨_, rfl, rfl⟩, _, rfl, rfl⟩

end Criteria
end Codebook
