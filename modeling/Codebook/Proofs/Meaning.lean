/-
# The meaning of criteria

Criteria mean what they say of an entity when they are evaluated on it directly: filter by filter
from the left, then the free text, then the visibility. The query that is made of them selects the
document of the entity in just these cases (`Criteria.selects_executable`), whatever the shape of
the query: an "or" under an "and", a "not" in the first place, clauses in clauses, parts without
content.

A range of days is evaluated on the dates as they are indexed, in milliseconds; the mark of a
missing date comes before all of them, so an open beginning passes it over.

Key definitions: `Facts`, `Test.holds?`, `Criteria.holds`, `Schema.facts`.
Key theorems: `Query.selects_fold`, `Test.selects_query`, `Criteria.selects_executable`.
-/
import Codebook.Entity.Recode
import Codebook.Proofs.Document
import Codebook.Query.Compile

namespace Codebook

/-! ### Direct evaluation -/

/-- What criteria are evaluated on. -/
structure Facts where
  /-- The kind of the values under a name. -/
  kind : String → ValueKind
  /-- The values under a name. -/
  cells : String → List Cell
  /-- The tokens of the free text. -/
  tokens : List String
  /-- Whether there is a last change. -/
  versioned : Bool

namespace Facts

/-- Whether a value is missing: there is no text, or there is the mark of a missing date. -/
def lacks (x : Facts) (name : String) : Bool :=
  if x.kind name = .date then (x.cells name).contains (.date nullDate)
  else (x.cells name).all fun
    | .text _ => false
    | .date _ => true

/-- Whether there is this text. -/
def has (x : Facts) (name value : String) : Bool :=
  (x.cells name).contains (.text value)

/-- The text under which a number is indexed, for any spelling of it. -/
def spelling (x : Facts) (name value : String) : String :=
  if x.kind name = .number then
    ((Number.Double.read (Text.trim value)).map Number.Double.canonical).getD value
  else value

/-- Whether there is the value that a text asks for. A blank text asks for a missing one. -/
def fits (x : Facts) (name value : String) : Bool :=
  if Text.isBlank value then x.lacks name else x.has name (x.spelling name value)

/-- Whether there is a date on a day between two days. -/
def falls (x : Facts) (zone : Instant.Zone) (name : String) (first last : Option Instant) : Bool :=
  (x.cells name).any fun
    | .text _ => false
    | .date n =>
      (match first with
        | some i => decide (Instant.startOfDay zone i ≤ n)
        | none => decide (nullDate < n)) &&
      (match last with
        | some i => decide (n ≤ Instant.endOfDay zone i)
        | none => true)

end Facts

/-- The outcome for a set of values, if it has any. -/
def Condition.ofSet (inner : Condition) (results : List Bool) : Option Bool :=
  if results.isEmpty then none
  else some <|
    match inner with
    | .and => results.all id
    | .or => results.any id
    | .not => !results.any id

/-- Joins an outcome to that of everything before it. -/
def Condition.join : Condition → Option Bool → Bool → Bool
  | .not, none, b => !b
  | _, none, b => b
  | .and, some before, b => before && b
  | .or, some before, b => before || b
  | .not, some before, b => before && !b

mutual

/-- The outcome of a test under a name, if the test has any content. -/
def Test.holds? (zone : Instant.Zone) (x : Facts) (name : String) : Test → Option Bool
  | .empty => some (x.lacks name)
  | .notEmpty => some (!x.lacks name)
  | .boolean b => some (x.has name (Diagnostic.bool b))
  | .enumSet values inner => inner.ofSet (values.map (x.has name))
  | .stringEq value => some (x.fits name value)
  | .stringSet values inner => inner.ofSet (values.map (x.fits name))
  | .dateRange first last => some (x.falls zone name first last)
  | .clause filters => Test.folded zone x none filters

/-- The outcome of filters, each joined to those before it. -/
def Test.folded (zone : Instant.Zone) (x : Facts) :
    Option Bool → List (String × Joined Test) → Option Bool
  | before, [] => before
  | before, (name, ⟨condition, test⟩) :: rest =>
    match Test.holds? zone x name test with
    | some b => Test.folded zone x (some (condition.join before b)) rest
    | none => Test.folded zone x before rest

end

/-- The outcome of free text, if it has any tokens: each has to begin some token. -/
def Facts.found? (x : Facts) (text : String) : Option Bool :=
  let wanted := (Text.words text).flatMap Codebook.tokens
  if wanted.isEmpty then none
  else some (wanted.all fun w => x.tokens.any fun t => w.toList.isPrefixOf t.toList)

/-- Whether the last change is visible. -/
def Activity.shows (a : Activity) (x : Facts) : Bool :=
  a.admitsAll || !x.versioned ||
    ChangeType.all.any fun t => a.admits t && x.has changeTypeField t.name

/-- The outcome of the filters and then of the free text, if there are any. -/
def Criteria.outcome? (c : Criteria) (zone : Instant.Zone) (x : Facts) : Option Bool :=
  match c.search.bind x.found? with
  | some b => some (c.searchCondition.join (Test.folded zone x none c.filters) b)
  | none => Test.folded zone x none c.filters

/-- Whether criteria hold. Without any content they do, as far as the last change is visible. -/
def Criteria.holds (c : Criteria) (zone : Instant.Zone) (x : Facts) : Bool :=
  (c.outcome? zone x).getD true && c.activity.shows x

/-- The facts of an entity. -/
def Schema.facts {α : Type} [Indexed α] (s : Schema) (a : α) : Facts where
  kind name := ((s.field? name).map IndexedField.kind).getD .string
  cells := s.cellsOf a
  tokens := indexedTokens (s.searchTextOf a)
  versioned := s.isVersioned

/-! ### The engine's rule -/

namespace Query

variable {d : Document}

@[simp] theorem selects_all : all.selects d = true := by simp [selects]

@[simp] theorem selects_negate (q : Query) : q.negate.selects d = !q.selects d := by
  simp [negate, selects, clauseResults, combine, outcomes]

/-- Whatever stands before it, a joined part has its effect. -/
theorem selects_fold (before : Option Query) (c : Condition) (q : Query) :
    (fold before c q).selects d = c.join (before.map (selects d)) (q.selects d) := by
  cases before <;> cases c <;>
    simp [fold, Condition.join, selects, clauseResults, combine, outcomes]

theorem clauseResults_map (o : Occurrence) : ∀ qs : List Query,
    clauseResults d (qs.map fun q => (o, q)) = (qs.map (selects d)).map fun b => (o, b)
  | [] => by simp [clauseResults]
  | q :: qs => by simp [clauseResults, clauseResults_map o qs]

theorem outcomes_map (o o' : Occurrence) (bs : List Bool) :
    outcomes o (bs.map fun b => (o', b)) = if o' = o then bs else [] := by
  by_cases h : o' = o <;> simp [outcomes, List.filterMap_map, h]

theorem combine_must {bs : List Bool} (h : bs ≠ []) :
    combine (bs.map fun b => (.must, b)) = bs.all id := by
  simp only [combine, outcomes_map]
  simp [h]

theorem combine_should (bs : List Bool) : combine (bs.map fun b => (.should, b)) = bs.any id := by
  simp only [combine, outcomes_map]
  simp

theorem combine_mustNot (bs : List Bool) :
    combine ((.must, true) :: bs.map fun b => (.mustNot, b)) = !bs.any id := by
  have hcons : ∀ o, outcomes o ((.must, true) :: bs.map fun b => (.mustNot, b)) =
      (if o = .must then [true] else []) ++ outcomes o (bs.map fun b => (.mustNot, b)) := by
    intro o
    cases o <;> rfl
  simp only [combine, hcons, outcomes_map]
  simp

/-- The queries for the values of a set are combined as their outcomes are. -/
theorem selects_ofSet (inner : Condition) (qs : List Query) :
    (ofSet inner qs).map (selects d) = inner.ofSet (qs.map (selects d)) := by
  unfold ofSet Condition.ofSet
  by_cases he : qs = []
  · simp [he]
  · have hne : qs.map (selects d) ≠ [] := by simpa using he
    rw [if_neg (by simpa using he), if_neg (by simpa using he), Option.map_some, selects]
    congr 1
    cases inner
    · rw [clauseResults_map, combine_must hne]
    · rw [clauseResults_map, combine_should]
    · rw [clauseResults, clauseResults_map, selects_all, combine_mustNot]

/-! ### Tests -/

variable {x : Facts} {name : String}

theorem selects_term (hc : d.cells name = x.cells name) (value : String) :
    (term name (.text value)).selects d = x.has name value := by
  rw [selects, hc, Facts.has]

theorem selects_noValue (hc : d.cells name = x.cells name) :
    (noValue name (x.kind name)).selects d = x.lacks name := by
  unfold noValue Facts.lacks
  split_ifs
  · rw [selects, hc]
  · rw [selects_negate, selects, Document.texts, hc, List.any_filterMap, List.not_any_eq_all_not]
    congr 1
    funext cell
    cases cell <;> rfl

theorem selects_ofText (hc : d.cells name = x.cells name) (value : String) :
    (ofText name (x.kind name) value).selects d = x.fits name value := by
  unfold ofText Facts.fits Facts.spelling
  split_ifs with hb hk
  · exact selects_noValue hc
  · rw [hk]
    cases hr : Number.Double.read (Text.trim value) with
    | none => exact selects_term hc value
    | some n => exact selects_term hc n.canonical
  · rw [← selects_term hc]
    split
    · rename_i hnumber _
      exact absurd hnumber hk
    · rfl

theorem selects_ofDays (hc : d.cells name = x.cells name) (zone : Instant.Zone)
    (first last : Option Instant) :
    (ofDays zone name first last).selects d = x.falls zone name first last := by
  unfold ofDays Facts.falls
  rw [selects, hc]
  congr 1
  funext cell
  cases cell with
  | text s => rfl
  | date n => cases first <;> cases last <;> rfl

/-- The query of a test without filters of its own has the outcome of the test. -/
theorem selects_testQuery {s : Schema} {zone : Instant.Zone} (hc : d.cells name = x.cells name)
    {t : Test} (ht : ∀ filters, t ≠ .clause filters) {r : Option Query}
    (h : s.testQuery zone name (x.kind name) t = .ok r) :
    r.map (selects d) = t.holds? zone x name := by
  have hset : ∀ {inner : Condition} {values : List String} {make : String → Query} {b : String → Bool},
      (∀ v, (make v).selects d = b v) →
      (ofSet inner (values.map make)).map (selects d) = inner.ofSet (values.map b) := by
    intro inner values make b hb
    rw [selects_ofSet, List.map_map]
    congr 2
    funext v
    exact hb v
  cases t with
  | empty =>
    simp only [Schema.testQuery, Except.ok.injEq] at h
    simp [← h, Test.holds?, selects_noValue hc]
  | notEmpty =>
    simp only [Schema.testQuery, Except.ok.injEq] at h
    simp [← h, Test.holds?, selects_noValue hc]
  | boolean b =>
    simp only [Schema.testQuery] at h
    split_ifs at h
    simp only [Except.ok.injEq] at h
    simp [← h, Test.holds?, selects_term hc]
  | enumSet values inner =>
    simp only [Schema.testQuery] at h
    split_ifs at h
    simp only [Except.ok.injEq] at h
    rw [← h, Test.holds?]
    exact hset fun v => selects_term hc v
  | stringSet values inner =>
    simp only [Schema.testQuery] at h
    split_ifs at h
    simp only [Except.ok.injEq] at h
    rw [← h, Test.holds?]
    exact hset fun v => selects_ofText hc v
  | stringEq value =>
    simp only [Schema.testQuery] at h
    split_ifs at h
    simp only [Except.ok.injEq] at h
    simp [← h, Test.holds?, selects_ofText hc]
  | dateRange first last =>
    simp only [Schema.testQuery] at h
    split_ifs at h
    simp only [Except.ok.injEq] at h
    simp [← h, Test.holds?, selects_ofDays hc]
  | clause filters => exact absurd rfl (ht filters)

end Query

/-! ### Filters and clauses -/

/-- A document shows facts under a schema: under the name of each column it has their values, and
the column has their kind. -/
structure Schema.Shows (s : Schema) (d : Document) (x : Facts) : Prop where
  cells : ∀ name, (s.column? name).isSome → d.cells name = x.cells name
  kind : ∀ f ∈ s.primaryKey :: s.fields, ∀ c, s.column? f.name = some c → c.kind = x.kind f.name
  tokens : d.tokens = x.tokens
  versioned : s.isVersioned = x.versioned

section

variable {s : Schema} {zone : Instant.Zone} {d : Document} {x : Facts}

theorem Schema.Shows.selects_fieldQuery (hx : s.Shows d x) {name : String} {t : Test}
    (ht : ∀ filters, t ≠ .clause filters) {r : Option Query}
    (h : s.fieldQuery zone name t = .ok r) : r.map (Query.selects d) = t.holds? zone x name := by
  obtain ⟨f, hf, h⟩ := bind_eq_ok.mp h
  obtain ⟨rfl, hmem, -⟩ := Schema.filterable_ok hf
  obtain ⟨c, hc, h⟩ := bind_eq_ok.mp h
  have hcol := Schema.column_ok hc
  rw [hx.kind f hmem c hcol] at h
  exact Query.selects_testQuery (hx.cells f.name (by simp [hcol])) ht h

mutual

/-- The query of a test has the outcome of the test. -/
theorem Test.selects_query (hx : s.Shows d x) {name : String} : ∀ {t : Test} {r : Option Query},
    Test.query s zone name t = .ok r → r.map (Query.selects d) = t.holds? zone x name
  | .clause filters, r, h => by
    simp only [Test.query] at h
    rw [Test.holds?]
    exact Test.selects_queries hx h
  | .empty, r, h => hx.selects_fieldQuery (by simp) (by simpa only [Test.query] using h)
  | .notEmpty, r, h => hx.selects_fieldQuery (by simp) (by simpa only [Test.query] using h)
  | .boolean b, r, h => hx.selects_fieldQuery (by simp) (by simpa only [Test.query] using h)
  | .enumSet vs i, r, h => hx.selects_fieldQuery (by simp) (by simpa only [Test.query] using h)
  | .stringSet vs i, r, h => hx.selects_fieldQuery (by simp) (by simpa only [Test.query] using h)
  | .stringEq v, r, h => hx.selects_fieldQuery (by simp) (by simpa only [Test.query] using h)
  | .dateRange a b, r, h => hx.selects_fieldQuery (by simp) (by simpa only [Test.query] using h)

/-- The query of filters has the outcome of the filters, if what it begins with has the outcome
before them. -/
theorem Test.selects_queries (hx : s.Shows d x) : ∀ {filters : List (String × Joined Test)}
    {before r : Option Query}, Test.queries s zone before filters = .ok r →
    r.map (Query.selects d) = Test.folded zone x (before.map (Query.selects d)) filters
  | [], before, r, h => by
    simp only [Test.queries, Except.ok.injEq] at h
    rw [Test.folded, h]
  | (name, ⟨condition, test⟩) :: rest, before, r, h => by
    simp only [Test.queries] at h
    obtain ⟨q?, hquery, hrest⟩ := bind_eq_ok.mp h
    have hout := Test.selects_query hx hquery
    cases q? with
    | none =>
      rw [Test.folded, ← hout]
      exact Test.selects_queries hx hrest
    | some q =>
      rw [Test.folded, ← hout, Option.map_some]
      simp only
      rw [← Query.selects_fold]
      exact Test.selects_queries hx hrest

end

/-- A document that was encoded shows the facts of its entity. -/
theorem Schema.Describes.shows {α : Type} [Indexed α] {a : α} (hs : s.Describes α)
    (h : Document.encode s a = .ok d) : s.Shows d (s.facts a) where
  cells _ hc := Document.cells_encode hs h hc
  kind f hf c hc := by
    have hfield : (s.field? f.name).isSome := by
      unfold Schema.field?
      split_ifs with hn
      · rfl
      · rcases List.mem_cons.mp hf with rfl | hf
        · exact absurd rfl hn
        · exact List.find?_isSome.mpr ⟨f, hf, by simp⟩
    obtain ⟨g, hg⟩ := Option.isSome_iff_exists.mp hfield
    obtain ⟨hgn, hgm⟩ := Schema.mem_of_field? hg
    simp only [facts, hg, Option.map_some, Option.getD_some]
    exact (hs.column_kind hc).2 g hgm hgn
  tokens := Document.tokens_encode h
  versioned := rfl

/-! ### Criteria -/

theorem Query.selects_ofSearch (hx : s.Shows d x) (text : String) :
    (ofSearch text).map (selects d) = x.found? text := by
  unfold ofSearch Facts.found?
  simp only
  by_cases he : (Text.words text).flatMap tokens = []
  · simp [he]
  · rw [if_neg (by simpa using he), if_neg (by simpa using he), Option.map_some, selects]
    have hmap : ((Text.words text).flatMap tokens).map (fun token => (Occurrence.must, beginning token)) =
        (((Text.words text).flatMap tokens).map beginning).map fun q => (.must, q) := by
      simp
    rw [hmap, clauseResults_map, combine_must (by simpa using he), List.map_map, List.all_map]
    congr 2
    funext w
    simp [selects, hx.tokens]

theorem Criteria.selects_query (hx : s.Shows d x) {c : Criteria} {q : Query}
    (h : c.query s zone = .ok q) :
    q.selects d = (c.outcome? zone x).getD true := by
  obtain ⟨filters, hfilters, hq⟩ := bind_eq_ok.mp h
  have hout := Test.selects_queries hx hfilters
  rw [Option.map_none] at hout
  have hsearch : (c.search.bind Query.ofSearch).map (Query.selects d) = c.search.bind x.found? := by
    cases c.search with
    | none => rfl
    | some text => exact Query.selects_ofSearch hx text
  unfold Criteria.outcome?
  rw [← hsearch, ← hout, ← Except.ok.inj hq]
  cases c.search.bind Query.ofSearch with
  | some found => simp [Query.selects_fold]
  | none => cases filters <;> simp

/-- Of alternatives one has to be met, and none can be met if there are none. -/
theorem Query.selects_alternatives (qs : List Query) :
    ((ofSet .or qs).getD (negate all)).selects d = qs.any (selects d) := by
  have h := @selects_ofSet d .or qs
  cases ho : ofSet .or qs with
  | none =>
    have hq : qs = [] := by
      by_contra hne
      simp [ofSet, hne] at ho
    simp [hq]
  | some q =>
    have hq : qs ≠ [] := by
      rintro rfl
      simp [ofSet] at ho
    rw [ho, Option.map_some, Condition.ofSet, if_neg (by simpa using hq)] at h
    simpa using Option.some.inj h

theorem Criteria.selects_activityQuery (hx : s.Shows d x) {c : Criteria} {q : Option Query}
    (h : c.activityQuery s = .ok q) :
    (q.map (Query.selects d)).getD true = c.activity.shows x := by
  unfold Criteria.activityQuery at h
  unfold Activity.shows
  rw [← hx.versioned]
  split_ifs at h with hall
  · simp only [Except.ok.injEq] at h
    simp [← h, hall]
  · obtain ⟨column, hc, hq⟩ := bind_eq_ok.mp h
    have hcol := Schema.column_ok hc
    have hname : column.name = changeTypeField := by simpa using List.find?_some hcol
    rw [← Except.ok.inj hq, Option.map_some, Option.getD_some, Query.selects_alternatives, List.any_map,
      Activity.admitted, List.any_filter]
    have hout : (c.activity.admitsAll || !s.isVersioned) = false := by simpa using hall
    rw [hout, Bool.false_or]
    congr 1
    funext t
    rw [Function.comp_apply, hname, Query.selects_term (hx.cells _ (by simp [hcol]))]

theorem Criteria.compile_ok {c : Criteria} {q : Compiled} (h : c.compile s zone = .ok q) :
    c.query s zone = .ok q.query ∧ c.sortKeys s = .ok q.sort ∧ c.activityQuery s = .ok q.activity := by
  obtain ⟨_, -, h⟩ := bind_eq_ok.mp h
  obtain ⟨query, hquery, h⟩ := bind_eq_ok.mp h
  obtain ⟨sort, hsort, h⟩ := bind_eq_ok.mp h
  obtain ⟨activity, hactivity, h⟩ := bind_eq_ok.mp h
  cases h
  exact ⟨hquery, hsort, hactivity⟩

/-- **The query of criteria means what the criteria mean.** Of the documents of entities it selects
those whose entities fulfil the criteria when these are evaluated directly. -/
theorem Criteria.selects_executable {α : Type} [Indexed α] {s : Schema}
    (hs : Schema.describe α = .ok s) {zone : Instant.Zone} {c : Criteria} {q : Compiled}
    (hq : c.compile s zone = .ok q) {a : α} {d : Document} (hd : Document.encode s a = .ok d) :
    q.executable.selects d = c.holds zone (s.facts a) := by
  have hx := (Schema.describes_of_describe hs).shows hd
  obtain ⟨h1, -, h2⟩ := compile_ok hq
  unfold Compiled.executable Criteria.holds
  rw [← selects_query hx h1, ← selects_activityQuery hx h2]
  cases q.activity with
  | none => simp
  | some activity => simp [Query.selects, Query.clauseResults, Query.combine, Query.outcomes]

end

/-- A recoding rule. Its two ends share the alias `fieldId`. -/
def ruleFromTo : RecodeRule :=
  { id := "r", history := ⟨"h", .create, .epoch⟩, recodeRuleSetId := "s", fromFieldId := "a"
    toFieldId := "b" }

/-- Criteria that begin with a "not", nest a clause, and have a clause without content. -/
def nestedCriteria : Criteria where
  filters := [
    ("fieldId", ⟨.not, .stringEq "c"⟩),
    ("either", ⟨.and, .clause [("fromFieldId", ⟨.or, .stringSet ["a", " "] .not⟩),
      ("toFieldId", ⟨.or, .stringEq "b"⟩)]⟩),
    ("nothing", ⟨.not, .clause []⟩),
    ("changeDate", ⟨.not, .empty⟩)]

theorem selects_executable_rule :
    ∃ s q d, Schema.describe RecodeRule = .ok s ∧ nestedCriteria.compile s .universal = .ok q ∧
      Document.encode s ruleFromTo = .ok d ∧
      q.executable.selects d = nestedCriteria.holds .universal (s.facts ruleFromTo) ∧
      nestedCriteria.holds .universal (s.facts ruleFromTo) = true :=
  ⟨_, _, _, rfl, rfl, rfl, Criteria.selects_executable rfl rfl rfl, by decide⟩

end Codebook
