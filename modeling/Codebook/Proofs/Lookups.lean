/-
# Where criteria look

An engine can look values up only in columns that are indexed. Filters look in columns that are open
to filters, so what they and the free text become can always be run. The visibility is another
matter: it looks in the column of the last change, which has to exist but may be closed to filters.
Then the criteria compile and the engine refuses them.

Key definitions: `Query.Open`, `Schema.decides`.
Key theorems: `Criteria.open_query`, `Criteria.canRun_executable`, `EntityKind.decides`.
-/
import Codebook.Entity.Kind
import Codebook.Generation
import Codebook.Proofs.Meaning
import Mathlib.Data.List.Nodup

namespace Codebook

/-! ### Columns of queries -/

/-- Every column in which a query looks values up is open to filters. -/
def Query.Open (s : Schema) (q : Query) : Prop :=
  ∀ name ∈ q.columns, ∃ c, s.column? name = some c ∧ c.capabilities.filterable = true

namespace Query

variable {s : Schema} {q : Query} {name : String}

theorem mem_clauseColumns : ∀ {clauses : List (Occurrence × Query)},
    name ∈ clauseColumns clauses ↔ ∃ clause ∈ clauses, name ∈ clause.2.columns
  | [] => by simp [clauseColumns]
  | (o, q) :: rest => by simp [clauseColumns, mem_clauseColumns]

theorem open_all : Open s all := by
  simp [Open, columns]

theorem open_combined {clauses : List (Occurrence × Query)} :
    Open s (combined clauses) ↔ ∀ clause ∈ clauses, Open s clause.2 := by
  unfold Open
  simp only [columns, mem_clauseColumns]
  constructor
  · intro h clause hclause name hname
    exact h name ⟨clause, hclause, hname⟩
  · rintro h name ⟨clause, hclause, hname⟩
    exact h clause hclause name hname

theorem open_pair {o o' : Occurrence} {q' : Query} :
    Open s (combined [(o, q), (o', q')]) ↔ Open s q ∧ Open s q' := by
  simp [open_combined]

theorem open_negate (h : Open s q) : Open s q.negate :=
  open_pair.mpr ⟨open_all, h⟩

theorem open_fold {before : Option Query} (c : Condition) (hbefore : ∀ b ∈ before, Open s b)
    (h : Open s q) : Open s (fold before c q) := by
  cases before with
  | none =>
    cases c with
    | not => exact open_negate h
    | and => exact h
    | or => exact h
  | some b =>
    have hb := hbefore b rfl
    cases c <;> exact open_pair.mpr ⟨hb, h⟩

theorem open_ofSet {inner : Condition} {qs : List Query} (hqs : ∀ q ∈ qs, Open s q)
    (h : ofSet inner qs = some q) : Open s q := by
  unfold ofSet at h
  split_ifs at h
  obtain rfl := Option.some.inj h
  refine open_combined.mpr fun clause hclause => ?_
  cases inner with
  | and =>
    obtain ⟨q, hq, rfl⟩ := List.mem_map.mp hclause
    exact hqs q hq
  | or =>
    obtain ⟨q, hq, rfl⟩ := List.mem_map.mp hclause
    exact hqs q hq
  | not =>
    rcases List.mem_cons.mp hclause with rfl | hclause
    · exact open_all
    · obtain ⟨q, hq, rfl⟩ := List.mem_map.mp hclause
      exact hqs q hq

end Query

/-! ### Tests and filters -/

section

variable {s : Schema} {zone : Instant.Zone} {name : String} {kind : ValueKind}

theorem columns_noValue : (Query.noValue name kind).columns = [name] := by
  unfold Query.noValue
  split_ifs <;> simp [Query.negate, Query.columns, Query.clauseColumns]

theorem columns_ofText (value : String) : (Query.ofText name kind value).columns = [name] := by
  unfold Query.ofText
  split_ifs
  · exact columns_noValue
  · split <;> simp [Query.columns]

/-- A test without filters of its own looks in one column. -/
theorem Schema.open_testQuery {t : Test} {q : Query}
    (hname : ∃ c, s.column? name = some c ∧ c.capabilities.filterable = true)
    (h : s.testQuery zone name kind t = .ok (some q)) : q.Open s := by
  have hone : ∀ {q : Query}, q.columns = [name] → q.Open s := by
    intro q hq n hn
    rw [hq, List.mem_singleton] at hn
    exact hn ▸ hname
  cases t with
  | empty =>
    simp only [testQuery, Except.ok.injEq, Option.some.injEq] at h
    exact h ▸ hone columns_noValue
  | notEmpty =>
    simp only [testQuery, Except.ok.injEq, Option.some.injEq] at h
    exact h ▸ Query.open_negate (hone columns_noValue)
  | boolean b =>
    simp only [testQuery] at h
    split_ifs at h
    simp only [Except.ok.injEq, Option.some.injEq] at h
    exact h ▸ hone (by simp [Query.columns])
  | enumSet values inner =>
    simp only [testQuery] at h
    split_ifs at h
    refine Query.open_ofSet (fun q hq => ?_) (Except.ok.inj h)
    obtain ⟨v, -, rfl⟩ := List.mem_map.mp hq
    exact hone (by simp [Query.columns])
  | stringSet values inner =>
    simp only [testQuery] at h
    split_ifs at h
    refine Query.open_ofSet (fun q hq => ?_) (Except.ok.inj h)
    obtain ⟨v, -, rfl⟩ := List.mem_map.mp hq
    exact hone (columns_ofText v)
  | stringEq value =>
    simp only [testQuery] at h
    split_ifs at h
    simp only [Except.ok.injEq, Option.some.injEq] at h
    exact h ▸ hone (columns_ofText value)
  | dateRange first last =>
    simp only [testQuery] at h
    split_ifs at h
    simp only [Except.ok.injEq, Option.some.injEq] at h
    exact h ▸ hone (by simp [Query.ofDays, Query.columns])
  | clause filters =>
    simp [testQuery] at h

variable {α : Type} [Indexed α]

/-- The column of a field that is open to filters is open to them, too. -/
theorem Schema.Describes.column_filterable (hs : s.Describes α) {f : IndexedField}
    (hf : f ∈ s.primaryKey :: s.fields) (hcap : f.capabilities.filterable = true) :
    ∃ c, s.column? f.name = some c ∧ c.capabilities.filterable = true := by
  obtain ⟨c, hc⟩ := hs.column_of_usable hf (Or.inl hcap)
  refine ⟨c, hc, ?_⟩
  have hname := (hs.column_kind hc).1
  rw [hs.columns.capabilities c (List.mem_of_find?_eq_some hc), hname]
  exact (Schema.usable_capabilitiesOf hf).1 hcap

theorem Schema.field_of_filterable {f : IndexedField} (hf : s.filterable name = .ok f) :
    s.field name = .ok f := by
  obtain ⟨g, hg, hf⟩ := bind_eq_ok.mp hf
  split_ifs at hf
  exact hg.trans hf

theorem Schema.field_of_sortable {f : IndexedField} (hf : s.sortable name = .ok f) :
    s.field name = .ok f := by
  obtain ⟨g, hg, hf⟩ := bind_eq_ok.mp hf
  split_ifs at hf
  exact hg.trans hf

/-- The values under a name are of the kind of its field. -/
theorem Schema.kind_of_field {f : IndexedField} (hf : s.field name = .ok f) {a : α} :
    (s.facts a).kind name = f.kind := by
  unfold Schema.field at hf
  split at hf
  · rename_i hfield
    simp [Schema.facts, hfield, Except.ok.inj hf]
  · cases hf

/-- A test on a field that is open to filters is made on the column of its name. -/
theorem Schema.Describes.fieldQuery_eq (hs : s.Describes α) {f : IndexedField}
    (hf : s.filterable name = .ok f) (zone : Instant.Zone) (t : Test) :
    s.fieldQuery zone name t = s.testQuery zone name f.kind t := by
  obtain ⟨hname, hmem, hcap⟩ := Schema.filterable_ok hf
  obtain ⟨c, hc, -⟩ := hs.column_filterable hmem hcap
  have hcolumn : s.column f.name = .ok c := by
    rw [Schema.column, hc]
  have hkind : c.kind = f.kind := (hs.column_kind hc).2 f hmem rfl
  rw [Schema.fieldQuery, hf]
  simp only [bind, Except.bind, hcolumn, hkind]

theorem Schema.Describes.column?_of_mem (hs : s.Describes α) {c : Column} (hc : c ∈ s.columns) :
    s.column? c.name = some c := by
  have hsome : (s.column? c.name).isSome := List.find?_isSome.mpr ⟨c, hc, by simp⟩
  obtain ⟨b, hb⟩ := Option.isSome_iff_exists.mp hsome
  have hname : b.name = c.name := (hs.column_kind hb).1
  rw [hb, List.inj_on_of_nodup_map hs.columns.nodup (List.mem_of_find?_eq_some hb) hc hname]

theorem Schema.Describes.open_fieldQuery (hs : s.Describes α) {t : Test} {q : Query}
    (h : s.fieldQuery zone name t = .ok (some q)) : q.Open s := by
  obtain ⟨f, hf, h⟩ := bind_eq_ok.mp h
  obtain ⟨rfl, hmem, hcap⟩ := Schema.filterable_ok hf
  obtain ⟨c, -, h⟩ := bind_eq_ok.mp h
  exact Schema.open_testQuery (hs.column_filterable hmem hcap) h

mutual

/-- The query of a test looks in columns that are open to filters. -/
theorem Test.open_query (hs : s.Describes α) {name : String} : ∀ {t : Test} {q : Query},
    Test.query s zone name t = .ok (some q) → q.Open s
  | .clause filters, q, h => by
    simp only [Test.query] at h
    exact Test.open_queries hs (by simp) h q rfl
  | .empty, q, h => hs.open_fieldQuery (by simpa only [Test.query] using h)
  | .notEmpty, q, h => hs.open_fieldQuery (by simpa only [Test.query] using h)
  | .boolean b, q, h => hs.open_fieldQuery (by simpa only [Test.query] using h)
  | .enumSet vs i, q, h => hs.open_fieldQuery (by simpa only [Test.query] using h)
  | .stringSet vs i, q, h => hs.open_fieldQuery (by simpa only [Test.query] using h)
  | .stringEq v, q, h => hs.open_fieldQuery (by simpa only [Test.query] using h)
  | .dateRange a b, q, h => hs.open_fieldQuery (by simpa only [Test.query] using h)

/-- So does the query of filters, if what it begins with does. -/
theorem Test.open_queries (hs : s.Describes α) : ∀ {filters : List (String × Joined Test)}
    {before r : Option Query}, (∀ b ∈ before, b.Open s) →
    Test.queries s zone before filters = .ok r → ∀ q ∈ r, q.Open s
  | [], before, r, hbefore, h => by
    simp only [Test.queries, Except.ok.injEq] at h
    exact h ▸ hbefore
  | (name, ⟨condition, test⟩) :: rest, before, r, hbefore, h => by
    simp only [Test.queries] at h
    obtain ⟨q?, hquery, hrest⟩ := bind_eq_ok.mp h
    cases q? with
    | none => exact Test.open_queries hs hbefore hrest
    | some q =>
      have hfold := Query.open_fold condition hbefore (Test.open_query hs hquery)
      exact Test.open_queries hs (by simpa using hfold) hrest

end

/-! ### Criteria -/

theorem Query.open_ofSearch {text : String} {q : Query} (h : ofSearch text = some q) :
    q.Open s := by
  unfold ofSearch at h
  simp only at h
  split_ifs at h
  obtain rfl := Option.some.inj h
  refine Query.open_combined.mpr fun clause hclause => ?_
  obtain ⟨token, -, rfl⟩ := List.mem_map.mp hclause
  simp [Open, columns]

/-- The query of the filters and the free text looks in columns that are open to filters. -/
theorem Criteria.open_query (hs : s.Describes α) {c : Criteria} {q : Query}
    (h : c.query s zone = .ok q) : q.Open s := by
  obtain ⟨filters, hfilters, hq⟩ := bind_eq_ok.mp h
  have hnone : ∀ b ∈ (none : Option Query), b.Open s := by simp
  have hopen := Test.open_queries hs hnone hfilters
  obtain rfl := Except.ok.inj hq
  cases hsearch : c.search.bind Query.ofSearch with
  | some found =>
    obtain ⟨text, -, hfound⟩ := Option.bind_eq_some_iff.mp hsearch
    exact Query.open_fold c.searchCondition hopen (Query.open_ofSearch hfound)
  | none =>
    cases filters with
    | some q => exact hopen q rfl
    | none => exact Query.open_all

/-- Criteria of the same order and the same visibility that look for nothing. -/
def Criteria.bare (c : Criteria) : Criteria :=
  { sortKey := c.sortKey, sortOrder := c.sortOrder, activity := c.activity }

/-- Criteria without free text whose filters compile are compiled just if their order and their
visibility are. -/
theorem Criteria.compile_of_filters {c : Criteria} {q? : Option Query} (hvalid : c.validate = .ok ())
    (hsearch : c.search = none) (hfilters : Test.queries s zone none c.filters = .ok q?) :
    c.compile s zone = (c.bare.compile s zone).map fun q => { q with query := q?.getD .all } := by
  have hquery : c.query s zone = .ok (q?.getD .all) := by
    rw [query, hfilters, hsearch]
    rfl
  have hbare : c.bare.query s zone = .ok .all := rfl
  have hsort : c.bare.sortKeys s = c.sortKeys s := rfl
  have hactivity : c.bare.activityQuery s = c.activityQuery s := rfl
  rw [compile, compile, hvalid, hquery, hbare, hsort, hactivity]
  cases c.sortKeys s with
  | error e => rfl
  | ok keys => cases c.activityQuery s <;> rfl

/-- The index can decide what is visible: everything is, or nothing is, or the column of the last
change is open to filters. -/
def Schema.decides (s : Schema) (a : Activity) : Bool :=
  a.admitsAll || !s.isVersioned || a.admitted.isEmpty ||
    (s.column? changeTypeField).any fun c => c.capabilities.filterable

theorem Schema.decides_eq_true {a : Activity} : s.decides a = true ↔
    (a.admitsAll || !s.isVersioned) = true ∨ a.admitted = [] ∨
      ∃ c, s.column? changeTypeField = some c ∧ c.capabilities.filterable = true := by
  simp [decides, or_assoc, Option.any_eq_true]

end

/-! ### What the engine can run -/

namespace Generation

variable {s : Schema} {g : Generation} {q : Query}

theorem canRun_of_open (hlayout : g.layout = s.layout) (h : q.Open s) : g.canRun q = true := by
  refine List.all_eq_true.mpr fun name hname => ?_
  obtain ⟨c, hc, hcap⟩ := h name hname
  have hcolumn : c.engineField ∈ s.layout :=
    List.mem_append_left _ (List.mem_map_of_mem (List.mem_of_find?_eq_some hc))
  have hcname : c.name = name := by simpa using List.find?_some hc
  rw [hlayout]
  exact List.any_eq_true.mpr ⟨c.engineField, hcolumn, by simp [Column.engineField, hcname, hcap]⟩

/-- Only the column of its name makes a name that the engine does not use itself indexed. -/
theorem column_of_canRun {α : Type} [Indexed α] (hs : s.Describes α) (hlayout : g.layout = s.layout)
    {name : String} (hown : name ≠ defaultSearchField) (hname : name ∈ q.columns)
    (h : g.canRun q = true) :
    ∃ c, s.column? name = some c ∧ c.capabilities.filterable = true := by
  obtain ⟨f, hf, hindexed⟩ := List.any_eq_true.mp (List.all_eq_true.mp h name hname)
  obtain ⟨hfname, hcap⟩ : f.name = name ∧ f.indexed = true := by simpa using hindexed
  rw [hlayout] at hf
  rcases List.mem_append.mp hf with hf | hf
  · obtain ⟨c, hc, rfl⟩ := List.mem_map.mp hf
    exact ⟨c, hfname ▸ hs.column?_of_mem hc, hcap⟩
  · rcases List.mem_cons.mp hf with rfl | hf
    · simp at hcap
    · obtain rfl := List.mem_singleton.mp hf
      exact absurd hfname.symm hown

end Generation

/-- Alternatives for the values of one column look in this column, if there are any. -/
theorem Query.mem_columns_alternatives {β : Type} {column name : String} {value : β → Cell}
    {l : List β} :
    name ∈ ((ofSet .or (l.map fun b => term column (value b))).getD (negate all)).columns ↔
      name = column ∧ l ≠ [] := by
  cases l with
  | nil => simp [ofSet, negate, columns, clauseColumns]
  | cons b l =>
    have hset : (ofSet .or ((b :: l).map fun b => term column (value b))).getD (negate all) =
        combined (((b :: l).map fun b => term column (value b)).map fun q => (.should, q)) := rfl
    simp only [hset, columns, mem_clauseColumns, List.mem_map]
    constructor
    · rintro ⟨clause, ⟨q, ⟨b', -, rfl⟩, rfl⟩, hname⟩
      exact ⟨by simpa [columns] using hname, List.cons_ne_nil b l⟩
    · rintro ⟨rfl, -⟩
      exact ⟨_, ⟨_, ⟨b, List.mem_cons_self, rfl⟩, rfl⟩, by simp [columns]⟩

variable {α : Type} [Indexed α] {s : Schema} {g : Generation} {zone : Instant.Zone}

/-- A document is selected just if the criteria hold for what it shows. -/
theorem Schema.Shows.selects_compiled {d : Document} {x : Facts} (hx : s.Shows d x) {c : Criteria}
    {q : Compiled} (h : c.compile s zone = .ok q) : q.executable.selects d = c.holds zone x := by
  obtain ⟨hquery, -, hactivity⟩ := Criteria.compile_ok h
  unfold Compiled.executable Criteria.holds
  rw [← Criteria.selects_query hx hquery, ← Criteria.selects_activityQuery hx hactivity]
  cases q.activity with
  | none => simp
  | some activity => simp [Query.selects, Query.clauseResults, Query.combine, Query.outcomes]

/-- **The engine runs what criteria compile to** just if the index can decide what is visible. -/
theorem Criteria.canRun_executable (hs : s.Describes α) (hlayout : g.layout = s.layout)
    {c : Criteria} {q : Compiled} (h : c.compile s zone = .ok q) :
    g.canRun q.executable = s.decides c.activity := by
  obtain ⟨hquery, -, hactivity⟩ := compile_ok h
  have hopen := open_query hs hquery
  unfold activityQuery at hactivity
  split_ifs at hactivity with hall
  · have hnone : q.activity = none := (Except.ok.inj hactivity).symm
    rw [Compiled.executable, hnone, Generation.canRun_of_open hlayout hopen]
    exact (Schema.decides_eq_true.mpr (Or.inl hall)).symm
  · obtain ⟨column, hcolumn, hq⟩ := bind_eq_ok.mp hactivity
    have hcol := Schema.column_ok hcolumn
    have hname : column.name = changeTypeField := by simpa using List.find?_some hcol
    rw [Compiled.executable, ← Except.ok.inj hq, hname, Bool.eq_iff_iff, Schema.decides_eq_true]
    simp only [hall, Bool.false_eq_true, false_or]
    by_cases hadmitted : c.activity.admitted = []
    · refine iff_of_true (Generation.canRun_of_open hlayout ?_) (Or.inl hadmitted)
      refine Query.open_pair.mpr ⟨hopen, fun name hmem => ?_⟩
      exact absurd hadmitted (Query.mem_columns_alternatives.mp hmem).2
    · simp only [hadmitted, false_or]
      constructor
      · refine Generation.column_of_canRun hs hlayout (show changeTypeField ≠ _ by decide) ?_
        refine Query.mem_clauseColumns.mpr ⟨_, List.mem_cons_of_mem _ List.mem_cons_self, ?_⟩
        exact Query.mem_columns_alternatives.mpr ⟨rfl, hadmitted⟩
      · intro hcap
        refine Generation.canRun_of_open hlayout ?_
        refine Query.open_pair.mpr ⟨hopen, fun name hmem => ?_⟩
        exact (Query.mem_columns_alternatives.mp hmem).1 ▸ hcap

/-- The types of the model keep their last change open to filters, if they have one. -/
theorem EntityKind.decides {k : EntityKind} (hs : Schema.describe k.Entity = .ok s) (a : Activity) :
    s.decides a = true := by
  refine Schema.decides_eq_true.mpr ?_
  cases k
  case record =>
    obtain rfl := Except.ok.inj (hs.symm.trans rfl)
    exact Or.inl ((Bool.or_eq_true _ _).mpr (Or.inr rfl))
  all_goals
    obtain rfl := Except.ok.inj (hs.symm.trans rfl)
    exact Or.inr (Or.inr ⟨_, rfl, rfl⟩)

end Codebook
