/-
# Values among siblings

Whether a value is taken among the children of a parent is answered by one search for two entities.
The search asks for two texts, and filters of the same name replace each other: where the field of the
value is the one that names the parent, the parent is not asked for at all. Apart from this the answer
is that of a direct look at the active entities, whatever the index has in which order, and it fails
only where the index cannot tell what is active.

A scan of all siblings says that their values are distinct just if each of them can keep its value.

Key definitions: `Scanner.rivals`, `Scanner.verdict`, `Schema.hasText`, `Schema.holders`.
Key theorems: `Scanner.holds_rivals`, `Index.Contains.isUnique`, `Index.Contains.findUniqueByRelative`,
`Index.values_among_siblings`, `Scanner.areAllUnique_iff`.
-/
import Codebook.Proofs.Progress
import Codebook.Proofs.Visibility

namespace Codebook

/-! ### The criteria -/

namespace Scanner

/-- Criteria for the children of a parent with a value in a field, two of them at most. -/
def rivals (relationField relatedId field value : String) : Criteria :=
  ((siblings relationField relatedId).filter field (Index.textFilter value)).page 0 2

variable {relationField relatedId field value : String}

theorem filters_rivals : (rivals relationField relatedId field value).filters =
    if relationField = field then [(field, ⟨.and, .stringEq value⟩)]
    else [(relationField, ⟨.and, .stringEq relatedId⟩), (field, ⟨.and, .stringEq value⟩)] := by
  show Filters.insert field ⟨.and, .stringEq value⟩ [(relationField, ⟨.and, .stringEq relatedId⟩)] = _
  rw [Filters.insert]
  split_ifs with hsame
  · rw [hsame]
  · rfl

/-- Both texts are asked for, unless they are asked for under one name: then it is the second one. -/
theorem holds_rivals (zone : Instant.Zone) (x : Facts) :
    (rivals relationField relatedId field value).holds zone x =
      (x.fits relationField (if relationField = field then value else relatedId) &&
        x.fits field value && Activity.actual.shows x) := by
  have hactivity : (rivals relationField relatedId field value).activity = .actual := rfl
  have hsearch : (rivals relationField relatedId field value).search = none := rfl
  rw [Criteria.holds, hactivity, Criteria.outcome?, hsearch]
  simp only [Option.bind_none, filters_rivals]
  by_cases hsame : relationField = field
  · rw [if_pos hsame, if_pos hsame, hsame, Bool.and_self]
    rfl
  · rw [if_neg hsame, if_neg hsame]
    rfl

section

variable {α : Type} [Indexed α] {s : Schema} {zone : Instant.Zone} {relation f : IndexedField}

theorem filters_rivals_ok (hs : s.Describes α) (hrelation : s.filterable relationField = .ok relation)
    (hrelated : relation.kind ≠ .date) (hfield : s.filterable field = .ok f) (hkind : f.kind ≠ .date) :
    ∃ q, Test.queries s zone none (rivals relationField relatedId field value).filters = .ok q := by
  have hfirst : Test.query s zone relationField (.stringEq relatedId) =
      .ok (some (Query.ofText relationField relation.kind relatedId)) := by
    rw [Test.query]
    · exact (hs.fieldQuery_eq hrelation zone _).trans (if_neg hrelated)
    · simp
  have hsecond : Test.query s zone field (.stringEq value) =
      .ok (some (Query.ofText field f.kind value)) := by
    rw [Test.query]
    · exact (hs.fieldQuery_eq hfield zone _).trans (if_neg hkind)
    · simp
  rw [filters_rivals]
  split_ifs
  · rw [Test.queries, hsecond]
    exact ⟨_, rfl⟩
  · rw [Test.queries, hfirst]
    simp only [bind, Except.bind]
    rw [Test.queries, hsecond]
    exact ⟨_, rfl⟩

end

/-! ### The decision -/

/-- What the primary keys of the entities that were found say of a value, if one entity may have it. -/
def verdict (excluding : Option String) : List (Option String) → Bool
  | [] => true
  | [some key] => excluding == some key
  | _ => false

/-- Two of them are enough to tell. -/
theorem verdict_take {keys : List String} {found : List (Option String)}
    (hperm : found.Perm (keys.map some)) (hdistinct : keys.Nodup) (excluding : Option String) :
    verdict excluding (found.take 2) = decide (∀ key ∈ keys, excluding = some key) := by
  match keys, hperm, hdistinct with
  | [], hperm, _ =>
    rw [List.map_nil, List.perm_nil] at hperm
    simp [hperm, verdict]
  | [key], hperm, _ =>
    rw [List.map_singleton, List.perm_singleton] at hperm
    simp [hperm, verdict, Bool.beq_eq_decide_eq]
  | key :: key' :: keys, hperm, hdistinct =>
    have hmany : ∃ first second rest, found = first :: second :: rest := by
      have hlength := hperm.length_eq
      match found, hlength with
      | first :: second :: rest, _ => exact ⟨first, second, rest, rfl⟩
    obtain ⟨first, second, rest, rfl⟩ := hmany
    have hother : ¬ ∀ k ∈ key :: key' :: keys, excluding = some k := by
      intro hall
      have hsame : some key = some key' := (hall key (by simp)).symm.trans (hall key' (by simp))
      have hne : key ≠ key' := by
        rintro rfl
        simp at hdistinct
      exact hne (Option.some.inj hsame)
    rw [decide_eq_false hother]
    cases first <;> rfl

end Scanner

/-! ### Texts of entities -/

section

variable {α : Type} [Indexed α] {s : Schema} {f : IndexedField} {name value : String} {a : α}
  {entities : List α}

/-- Whether an entity has a text in a field of a name. -/
def Schema.hasText (s : Schema) (a : α) (name value : String) : Bool :=
  (s.primaryKey :: s.fields).any fun f => f.name = name && f.read a = .text value

/-- Under a name of one field it is the text of this field. -/
theorem Schema.hasText_sole
    (hsole : (s.primaryKey :: s.fields).filter (fun g => g.name = f.name) = [f]) :
    s.hasText a f.name value = decide (f.read a = .text value) := by
  rw [hasText, ← List.any_filter, hsole]
  simp

/-- The active entities that have two texts, each in a field of its name. -/
def Schema.holders (s : Schema) (relationField relatedId field value : String) (entities : List α) :
    List α :=
  entities.filter fun a =>
    s.hasText a relationField relatedId && s.hasText a field value && Activity.actual.shows (s.facts a)

/-- A text is indexed as it is, unless it is blank. -/
theorem Schema.cellOf_text (hkind : f.kind = .string) (hvalue : Text.isBlank value = false) :
    s.cellOf a f = some (.text value) ↔ f.read a = .text value := by
  unfold cellOf
  rw [hkind]
  cases hread : f.read a with
  | text t =>
    by_cases hblank : Text.isBlank t = true
    · have hne : t ≠ value := by
        rintro rfl
        simp [hblank] at hvalue
      simp [encodeValue, hblank, hne]
    · simp [encodeValue, hblank]
  | _ => simp [encodeValue]

/-- A text that is not blank is looked for in all fields of its name. -/
theorem Schema.Describes.fits_text (hs : s.Describes α) (hf : s.filterable name = .ok f)
    (hkind : f.kind = .string) (hvalue : Text.isBlank value = false) :
    (s.facts a).fits name value = s.hasText a name value := by
  obtain ⟨hname, hmem, hcap⟩ := Schema.filterable_ok hf
  obtain ⟨c, hc, -⟩ := hs.column_filterable hmem hcap
  have hkinds : ∀ g ∈ s.primaryKey :: s.fields, g.name = name → g.kind = .string := by
    intro g hg hgname
    rw [← (hs.column_kind hc).2 g hg (hgname.trans hname.symm), (hs.column_kind hc).2 f hmem rfl, hkind]
  have hstring : (s.facts a).kind name = .string :=
    (Schema.kind_of_field (Schema.field_of_filterable hf)).trans hkind
  have hcells : (s.facts a).cells name = s.cellsOf a name := rfl
  rw [Facts.fits, if_neg (by simp [hvalue]), Facts.spelling, hstring, if_neg (by decide), Facts.has,
    hcells, Bool.eq_iff_iff, List.contains_iff_mem, hasText, List.any_eq_true]
  simp only [cellsOf, List.mem_filterMap, List.mem_filter, decide_eq_true_eq, Bool.and_eq_true]
  constructor
  · rintro ⟨g, ⟨hg, hgname⟩, hcell⟩
    exact ⟨g, hg, hgname, (Schema.cellOf_text (hkinds g hg hgname) hvalue).mp hcell⟩
  · rintro ⟨g, hg, hgname, hread⟩
    exact ⟨g, ⟨hg, hgname⟩, (Schema.cellOf_text (hkinds g hg hgname) hvalue).mpr hread⟩

/-- The document of an entity is found under the primary key of the entity. -/
theorem Document.key?_encoded (hs : s.Describes α) {d : Document} (hd : encode s a = .ok d)
    (hkey : Text.isBlank (s.keyOf a) = false) : d.key? s = some (s.keyOf a) := by
  have hcap : s.primaryKey.capabilities.filterable = true := by rw [hs.key]
  obtain ⟨c, hc, -⟩ := hs.column_filterable List.mem_cons_self hcap
  have hcells : d.cells s.primaryKey.name = s.cellsOf a s.primaryKey.name :=
    cells_encode hs hd (by simp [hc])
  rw [key?, texts, hcells, Schema.cellsOf, List.filter_cons_of_pos (by simp),
    List.filterMap_cons_some (hs.cellOf_key hkey)]
  rfl

end

/-! ### What an index answers -/

/-- The first documents that a query selects are the first ones in order. -/
theorem Generation.search_ordered {g : Generation} {q : Query} (hrun : g.canRun q = true)
    (keys : List ColumnKey) (limit : Nat) :
    ∃ rows, g.search q keys (some limit) = .ok rows ∧
      rows.map Row.document = (g.ordered q keys).take limit := by
  refine ⟨_, if_pos hrun, ?_⟩
  rw [Window.first_eq (fun _ => reads_of_mem_rows) (fun _ ha _ hb => eq_of_place ha hb), ordered,
    List.map_take]
  rfl

section

variable {α β : Type} [Indexed α] {i : Index} {g : Generation} {l : Live} {entities : List α}
  {relationField relatedId field value name : String} {relation f : IndexedField} {scanner : Scanner}

/-- An answer that needs to know what is active, and nothing else of what criteria compile to. -/
theorem Index.answer_active {c : Criteria} {change : Compiled → Compiled}
    (hc : i.compile c = (i.compile {}).map change) {answer : Compiled → Except IndexError β}
    {outcome : Except IndexError β}
    (hanswer : ∀ q, i.compile c = .ok q →
      answer q = if i.schema.decides .actual then outcome else .error .search) :
    (i.compile c).bind answer = i.tellsActive.bind fun _ => outcome := by
  unfold tellsActive
  cases hdefault : i.compile {} with
  | error e =>
    rw [hc, hdefault]
    rfl
  | ok q =>
    have hq : i.compile c = .ok (change q) := by
      rw [hc, hdefault]
      rfl
    rw [hq]
    show answer (change q) = _
    rw [hanswer _ hq]
    cases hdecides : i.schema.decides .actual <;> rfl

/-- Where default criteria compile, so do those for a value among siblings. -/
theorem Scanner.compile_rivals (hs : i.schema.Describes α)
    (hrelation : i.schema.filterable relationField = .ok relation) (hrelated : relation.kind ≠ .date)
    (hfield : i.schema.filterable field = .ok f) (hkind : f.kind ≠ .date) :
    ∃ change, i.compile (rivals relationField relatedId field value) = (i.compile {}).map change := by
  obtain ⟨q?, hq⟩ : ∃ q?, Test.queries i.schema i.config.zone none
      (rivals relationField relatedId field value).filters = .ok q? :=
    filters_rivals_ok hs hrelation hrelated hfield hkind
  exact ⟨_, Criteria.compile_of_filters rfl rfl hq⟩

theorem Scanner.answer_isUnique (hl : i.live = some l) (scanner : Scanner)
    (relationField relatedId value : String) (excluding : Option String) :
    (effect (scanner.isUnique relationField relatedId value excluding) i).1 =
      (i.compile (rivals relationField relatedId scanner.field.name value)).bind fun q =>
        (l.content.search q.executable (q.sort.map ColumnKey.sorting) (some 2)).map fun rows =>
          verdict excluding (rows.map fun row => row.document.key? i.schema) := by
  unfold isUnique
  rw [effect_bind_ok (effect_get i)]
  show (effect (liftM (i.compile (rivals relationField relatedId scanner.field.name value)) >>= _) i).1 = _
  cases i.compile (rivals relationField relatedId scanner.field.name value) with
  | error e => rw [effect_bind_error (effect_lift _ i)]; rfl
  | ok q =>
    rw [effect_bind_ok (effect_lift _ i), effect_bind_ok (Index.effect_searcher hl), Index.recordSearch,
      effect_bind_ok (effect_modify _ i)]
    show (effect (liftM (l.content.search q.executable _ (some 2)) >>= _) _).1 = Except.map _ _
    cases l.content.search q.executable (q.sort.map ColumnKey.sorting) (some 2) with
    | error e => rw [effect_bind_error (effect_lift _ _)]; rfl
    | ok rows =>
      rw [effect_bind_ok (effect_lift _ _)]
      simp only [Except.map]
      generalize (rows.map fun row => row.document.key? i.schema) = found
      rcases found with _ | ⟨_ | _, _ | _⟩ <;> rfl

theorem Index.answer_findUniqueByRelative (hl : i.live = some l)
    (relationField relatedId field value : String) :
    (effect (findUniqueByRelative α relationField relatedId field value) i).1 =
      (i.compile (Scanner.rivals relationField relatedId field value)).bind fun q =>
        (l.content.find α i.schema q 0 (some 2)).bind fun r =>
          if 1 < r.items.length then .error (.duplicateValue i.name field value)
          else .ok r.items.getLast? := by
  have hfind := answer_find (α := α) hl (Scanner.rivals relationField relatedId field value)
  obtain ⟨statistics, hstate⟩ := find_state α (Scanner.rivals relationField relatedId field value) i
  have hassoc : ((i.compile (Scanner.rivals relationField relatedId field value)).bind fun q =>
      (l.content.find α i.schema q 0 (some 2)).bind fun r =>
        if 1 < r.items.length then .error (.duplicateValue i.name field value)
        else .ok r.items.getLast?) =
      (effect (find α (Scanner.rivals relationField relatedId field value)) i).1.bind fun r =>
        if 1 < r.items.length then .error (.duplicateValue i.name field value)
        else .ok r.items.getLast? := by
    rw [hfind]
    cases i.compile (Scanner.rivals relationField relatedId field value) <;> rfl
  rw [hassoc, findUniqueByRelative]
  show (effect (find α (Scanner.rivals relationField relatedId field value) >>= _) i).1 = _
  rw [effect_bind]
  rcases heffect : effect (find α (Scanner.rivals relationField relatedId field value)) i with ⟨_ | r, j⟩
  · rfl
  · rw [heffect] at hstate
    obtain rfl : j = { i with statistics } := hstate
    show (effect (if 1 < r.items.length then _ else _) _).1 =
      if 1 < r.items.length then _ else _
    split_ifs <;> rfl

/-- The one entity of a list, if there are any. There must not be two of them. -/
def Index.sole (i : Index) (field value : String) : List α → Except IndexError (Option α)
  | [] => .ok none
  | [a] => .ok (some a)
  | _ => .error (.duplicateValue i.name field value)

omit [Indexed α] in
/-- The first two entities of a list in order are enough to tell whether there is one. -/
theorem Index.sole_eq (i : Index) (field value : String) (order : α → α → Ordering)
    [Std.TransCmp order] (found : List α) :
    (if 1 < ((sortBy order found).take 2).length then .error (.duplicateValue i.name field value)
      else .ok ((sortBy order found).take 2).getLast?) = i.sole field value found := by
  have hlength : (sortBy order found).length = found.length := (sortBy_perm_self order found).length_eq
  match found, hlength with
  | [], hlength =>
    rw [List.length_nil, List.length_eq_zero_iff] at hlength
    rw [hlength]
    rfl
  | [a], _ =>
    have hsingle : sortBy order [a] = [a] := List.perm_singleton.mp (sortBy_perm_self order [a])
    rw [hsingle]
    rfl
  | a :: b :: rest, hlength =>
    rw [if_pos (by rw [List.length_take, hlength, List.length_cons, List.length_cons]; omega)]
    rfl

namespace Index.Contains

/-- The primary keys in what a search finds are those of the entities that fulfil the criteria. -/
theorem keys_found (h : i.Contains g entities)
    (hkeyed : ∀ a ∈ entities, Text.isBlank (i.schema.keyOf a) = false) {c : Criteria} {q : Compiled}
    (hq : i.compile c = .ok q) :
    (g.documents.filter q.executable.selects).map (Document.key? i.schema) =
      ((c.matching i.schema i.config.zone entities).map i.schema.keyOf).map some := by
  have hs := Schema.describes_of_describe h.schema
  have hkept := (List.forall₂_and_left _ _).mpr
    ⟨fun a (ha : a ∈ c.matching i.schema i.config.zone entities) => List.mem_of_mem_filter ha,
      Criteria.kept_matching hs hq h.kept⟩
  have hkeys : List.Forall₂ (fun a d => some (i.schema.keyOf a) = Document.key? i.schema d)
      (c.matching i.schema i.config.zone entities) (g.documents.filter q.executable.selects) :=
    hkept.imp fun a d had => (Document.key?_encoded hs had.2.encoded (hkeyed a had.1)).symm
  have hmap := List.forall₂_map_left_iff.mpr (List.forall₂_map_right_iff.mpr hkeys)
  rw [List.forall₂_eq_eq_eq] at hmap
  rw [List.map_map, ← hmap]
  rfl

variable (h : i.Contains g entities)
  (hkeyed : ∀ a ∈ entities, Text.isBlank (i.schema.keyOf a) = false)
  (hdistinct : (entities.map i.schema.keyOf).Nodup)
  (hrelation : i.schema.filterable relationField = .ok relation) (hrelated : relation.kind ≠ .date)

include h hkeyed hdistinct hrelation hrelated

/-- A value is unique just if no entity has it that fulfils the criteria for it, apart from the one that
is excluded. -/
theorem isUnique (hfield : i.schema.filterable scanner.field.name = .ok f) (hkind : f.kind ≠ .date)
    (relatedId value : String) (excluding : Option String) :
    (effect (scanner.isUnique relationField relatedId value excluding) i).1 =
      i.tellsActive.bind fun _ => .ok (decide (∀ a ∈ (Scanner.rivals relationField relatedId
        scanner.field.name value).matching i.schema i.config.zone entities,
          excluding = some (i.schema.keyOf a))) := by
  obtain ⟨l, hl, rfl⟩ := Option.map_eq_some_iff.mp h.live
  have hs := Schema.describes_of_describe h.schema
  obtain ⟨change, hchange⟩ : ∃ change, i.compile (Scanner.rivals relationField relatedId
      scanner.field.name value) = (i.compile {}).map change :=
    Scanner.compile_rivals hs hrelation hrelated hfield hkind
  rw [Scanner.answer_isUnique hl]
  refine answer_active hchange fun q hq => ?_
  have hruns := Criteria.canRun_executable hs h.layout hq
  cases hdecides : i.schema.decides .actual with
  | false =>
    have hrefused : l.content.canRun q.executable = false := hruns.trans hdecides
    rw [Generation.search, hrefused]
    rfl
  | true =>
    obtain ⟨rows, hsearch, hrows⟩ := Generation.search_ordered (hruns.trans hdecides)
      (q.sort.map ColumnKey.sorting) 2
    have hperm : ((l.content.ordered q.executable (q.sort.map ColumnKey.sorting)).map
        (Document.key? i.schema)).Perm _ :=
      (Generation.ordered_perm.map _).trans (List.Perm.of_eq (h.keys_found hkeyed hq))
    have hfound : (rows.map fun row => row.document.key? i.schema) =
        ((l.content.ordered q.executable (q.sort.map ColumnKey.sorting)).map
          (Document.key? i.schema)).take 2 := by
      rw [← List.map_take, ← hrows, List.map_map]
      rfl
    rw [hsearch]
    show Except.ok (Scanner.verdict excluding _) = Except.ok _
    rw [hfound, Scanner.verdict_take hperm (hdistinct.sublist (List.filter_sublist.map _))]
    simp only [List.forall_mem_map]

/-- What is found is the one entity that fulfils the criteria. -/
theorem findUniqueByRelative (hfield : i.schema.filterable field = .ok f) (hkind : f.kind ≠ .date)
    (relatedId value : String) :
    (effect (Index.findUniqueByRelative α relationField relatedId field value) i).1 =
      i.tellsActive.bind fun _ => i.sole field value
        ((Scanner.rivals relationField relatedId field value).matching i.schema i.config.zone
          entities) := by
  obtain ⟨l, hl, rfl⟩ := Option.map_eq_some_iff.mp h.live
  have hs := Schema.describes_of_describe h.schema
  obtain ⟨change, hchange⟩ : ∃ change, i.compile (Scanner.rivals relationField relatedId field value) =
      (i.compile {}).map change :=
    Scanner.compile_rivals hs hrelation hrelated hfield hkind
  rw [answer_findUniqueByRelative hl]
  refine answer_active hchange fun q hq => ?_
  have hfind := Generation.find_of_stores hs h.layout ⟨h.kept, hkeyed, hdistinct⟩ h.countable hq
  rw [show l.content.find α i.schema q 0 (some 2) = _ from hfind]
  cases hdecides : i.schema.decides .actual with
  | false =>
    rw [show i.schema.decides (Scanner.rivals relationField relatedId field value).activity = false
      from hdecides]
    rfl
  | true =>
    rw [show i.schema.decides (Scanner.rivals relationField relatedId field value).activity = true
      from hdecides, if_pos rfl, if_pos rfl,
      ← sole_eq i field value ((Scanner.rivals relationField relatedId field value).order i.schema)]
    rfl

end Index.Contains

/-- The criteria for a value among siblings are fulfilled by the entities that have both texts, or by
those that have the value if there is one name for both. -/
theorem Schema.Describes.matching_rivals {s : Schema} (hs : s.Describes α)
    (hrelation : s.filterable relationField = .ok relation) (hrelated : relation.kind = .string)
    (hfield : s.filterable field = .ok f) (hkind : f.kind = .string)
    (hid : Text.isBlank relatedId = false) (hvalue : Text.isBlank value = false)
    (zone : Instant.Zone) :
    (Scanner.rivals relationField relatedId field value).matching s zone entities =
      s.holders relationField (if relationField = field then value else relatedId) field value
        entities := by
  have hasked : Text.isBlank (if relationField = field then value else relatedId) = false := by
    split_ifs
    · exact hvalue
    · exact hid
  refine List.filter_congr fun a _ => ?_
  rw [Scanner.holds_rivals, hs.fits_text hrelation hrelated hasked, hs.fits_text hfield hkind hvalue]

/-- **Values are looked for among the siblings.** Whether a value is unique depends on the active entities
that have the id of the parent in the one field and the value in the other: there must not be any apart
from the one that is excluded. The search for the one entity that has both finds it, finds nothing, or
fails, as there is one, none or several. There is one exception to what is looked for: if both fields have
the same name, the id of the parent is forgotten, and all active entities with the value count. And there
is no answer where the index cannot tell what is active. -/
theorem Index.values_among_siblings (h : i.Contains g entities)
    (hkeyed : ∀ a ∈ entities, Text.isBlank (i.schema.keyOf a) = false)
    (hdistinct : (entities.map i.schema.keyOf).Nodup)
    (hrelation : i.schema.filterable relationField = .ok relation) (hrelated : relation.kind = .string)
    (hscanner : Scanner.new i.schema field = .ok scanner) (hkind : scanner.field.kind = .string)
    (hid : Text.isBlank relatedId = false) (hvalue : Text.isBlank value = false) :
    (∀ excluding, (effect (scanner.isUnique relationField relatedId value excluding) i).1 =
      i.tellsActive.bind fun _ => .ok (decide (∀ a ∈ i.schema.holders relationField
        (if relationField = field then value else relatedId) field value entities,
          excluding = some (i.schema.keyOf a)))) ∧
    (effect (findUniqueByRelative α relationField relatedId field value) i).1 =
      i.tellsActive.bind fun _ => i.sole field value (i.schema.holders relationField
        (if relationField = field then value else relatedId) field value entities) := by
  have hs := Schema.describes_of_describe h.schema
  obtain ⟨hf, rfl⟩ := Scanner.new_ok hscanner
  have hmatching : (Scanner.rivals relationField relatedId scanner.field.name value).matching i.schema
      i.config.zone entities = _ := hs.matching_rivals hrelation hrelated hf hkind hid hvalue i.config.zone
  have hdate : relation.kind ≠ .date := by
    rw [hrelated]
    decide
  have hfdate : scanner.field.kind ≠ .date := by
    rw [hkind]
    decide
  constructor
  · intro excluding
    rw [h.isUnique hkeyed hdistinct hrelation hdate hf hfdate, hmatching]
  · rw [h.findUniqueByRelative hkeyed hdistinct hrelation hdate hf hfdate, hmatching]

end

/-- The documents of the versions give them back. -/
theorem recalled_sharedVersions : Document.recalled sharedVersions = .ok sharedVersions :=
  EntityKind.recalled_eq .dictionary (by decide)

/-- Of two versions with the same number one is closed, so the other one may have the number. -/
theorem Index.values_among_siblings_of_versions :
    ∃ i : Index, Index.stocked sharedVersions = .ok i ∧
      ∃ scanner, Scanner.new i.schema "version" = .ok scanner ∧
        (effect (scanner.isUnique "groupId" "g" "1" (some "d")) i).1 = .ok true ∧
        (effect (scanner.isUnique "groupId" "g" "2" (some "a")) i).1 = .ok false ∧
        (effect (Index.findUniqueByRelative Dictionary "groupId" "g" "version" "1") i).1 =
          .ok (some (dictionaryVersion "d" .update (some "1"))) := by
  obtain ⟨g, hg⟩ := Index.contains_stocked rfl recalled_sharedVersions (by decide)
  have hvalues := fun (value : String) (hvalue : Text.isBlank value = false) =>
    Index.values_among_siblings hg (by decide) (by decide)
      (show Schema.filterable _ "groupId" = .ok _ from rfl) rfl
      (show Scanner.new _ "version" = .ok _ from rfl) rfl (show Text.isBlank "g" = false by decide) hvalue
  refine ⟨_, rfl, _, rfl, ?_, ?_, ?_⟩
  · rw [(hvalues "1" (by decide)).1]
    decide
  · rw [(hvalues "2" (by decide)).1]
    decide
  · rw [(hvalues "1" (by decide)).2]
    decide

/-- Where one field names the parent and has the value, an entity of another parent takes the value. -/
theorem Index.parent_forgotten :
    ∃ (i : Index) (scanner : Scanner), Index.stocked sharedVersions = .ok i ∧
      Scanner.new i.schema "version" = .ok scanner ∧
      i.schema.holders "version" "1" "version" "2" sharedVersions = [] ∧
      (effect (scanner.isUnique "version" "1" "2" none) i).1 = .ok false ∧
      (effect (Index.findUniqueByRelative Dictionary "version" "1" "version" "2") i).1 =
        .error (.duplicateValue "Dictionary" "version" "2") := by
  obtain ⟨g, hg⟩ := Index.contains_stocked rfl recalled_sharedVersions (by decide)
  refine ⟨_, _, rfl, rfl, by decide, ?_, ?_⟩
  · rw [hg.isUnique (by decide) (by decide)
      (show Schema.filterable _ "version" = .ok _ from rfl) (by decide)
      (show Schema.filterable _ "version" = .ok _ from rfl) (by decide)]
    decide
  · rw [hg.findUniqueByRelative (by decide) (by decide)
      (show Schema.filterable _ "version" = .ok _ from rfl) (by decide)
      (show Schema.filterable _ "version" = .ok _ from rfl) (by decide)]
    decide

/-! ### All siblings at once -/

section

variable {α : Type} [Indexed α] {s : Schema} {f : IndexedField} {entities : List α}
  {relationField relatedId : String}

/-- A field with texts is scanned for its text, unless it is blank. -/
theorem Schema.encodedOf_string (hkind : f.kind = .string) (a : α) :
    s.encodedOf f a =
      match f.read a with
      | .text t => if Text.isBlank t then .missing else .text t
      | _ => .missing := by
  unfold encodedOf cellOf
  rw [hkind]
  cases f.read a with
  | text t => by_cases hblank : Text.isBlank t = true <;> simp [encodeValue, hblank, SortValue.ofCell]
  | _ => simp [encodeValue]

/-- The texts of siblings are distinct just if no two siblings have the same text. -/
theorem Schema.nodup_siblingValues_iff (hkind : f.kind = .string)
    (hdistinct : (entities.map s.keyOf).Nodup) :
    (s.siblingValues f relationField relatedId entities).Nodup ↔
      ∀ a ∈ s.siblings relationField relatedId entities, ∀ value, f.read a = .text value →
        Text.isBlank value = false → ∀ b ∈ s.siblings relationField relatedId entities,
          f.read b = .text value → s.keyOf a = s.keyOf b := by
  have hnodup : (s.siblings relationField relatedId entities).Nodup :=
    (List.Nodup.of_map _ hdistinct).sublist List.filter_sublist
  have hvalue : ∀ {a : α} {value : String}, f.read a = .text value → Text.isBlank value = false →
      s.encodedOf f a = .text value := fun hread hblank => by
    rw [encodedOf_string hkind, hread]
    simp [hblank]
  rw [siblingValues, List.filter_map, List.nodup_map_iff_inj_on (hnodup.filter _)]
  simp only [List.mem_filter, Function.comp_apply, decide_eq_true_eq]
  constructor
  · intro hinj a ha value hread hblank b hb hread'
    have hsame := hinj a ⟨ha, by simp [hvalue hread hblank]⟩ b ⟨hb, by simp [hvalue hread' hblank]⟩
      ((hvalue hread hblank).trans (hvalue hread' hblank).symm)
    rw [hsame]
  · rintro hkeys a ⟨ha, hmissing⟩ b ⟨hb, -⟩ hsame
    -- only texts that are not blank are values
    obtain ⟨value, hread, hblank⟩ : ∃ value, f.read a = .text value ∧ Text.isBlank value = false := by
      rw [encodedOf_string hkind] at hmissing
      split at hmissing
      · rename_i value hread
        exact ⟨value, hread, by simpa using hmissing⟩
      · exact absurd rfl hmissing
    have hread' : f.read b = .text value := by
      rw [hvalue hread hblank, encodedOf_string hkind] at hsame
      split at hsame
      · rename_i value' hread'
        split_ifs at hsame
        rw [hread', SortValue.text.inj hsame]
      · cases hsame
    exact List.inj_on_of_nodup_map hdistinct (List.mem_of_mem_filter ha) (List.mem_of_mem_filter hb)
      (hkeys a ha value hread hblank b hb hread')

namespace Scanner

variable {i : Index} {g : Generation} {q : Compiled} {name field value : String} {scanner : Scanner}
  {zone : Instant.Zone} {relation : IndexedField}

/-- Those who might have a value are siblings, where the parent is named by another field. -/
theorem matching_rivals_of_ne (hne : relationField ≠ field) :
    (rivals relationField relatedId field value).matching s zone entities =
      (s.siblings relationField relatedId entities).filter fun a => (s.facts a).fits field value := by
  rw [Schema.siblings, List.filter_filter]
  refine List.filter_congr fun a _ => ?_
  rw [holds_rivals, if_neg hne, Bool.and_right_comm, Bool.and_comm]

/-- **The two checks agree.** A scan of all siblings gives an answer, and it is that their values are
distinct just if each sibling can keep its value: the search for that value among the siblings finds
nobody apart from the sibling itself. There is no answer where the index cannot tell what is active. -/
theorem areAllUnique_iff (h : i.Contains g entities)
    (hkeyed : ∀ a ∈ entities, Text.isBlank (i.schema.keyOf a) = false)
    (hdistinct : (entities.map i.schema.keyOf).Nodup)
    (hscanner : new i.schema name = .ok scanner) (hkind : scanner.field.kind = .string)
    (hsole : (i.schema.primaryKey :: i.schema.fields).filter (fun f => f.name = name) =
      [scanner.field])
    (hrelation : i.schema.filterable relationField = .ok relation) (hrelated : relation.kind ≠ .date)
    (hne : relationField ≠ name) (relatedId : String) :
    (∀ e, i.tellsActive = .error e →
      (effect (scanner.areAllUnique α relationField relatedId) i).1 = .error e) ∧
    (i.tellsActive = .ok () →
      ∃ answer, (effect (scanner.areAllUnique α relationField relatedId) i).1 = .ok answer ∧
        (answer = true ↔ ∀ a ∈ i.schema.siblings relationField relatedId entities, ∀ value,
          scanner.field.read a = .text value → Text.isBlank value = false →
            (effect (scanner.isUnique relationField relatedId value (some (i.schema.keyOf a))) i).1 =
              .ok true)) := by
  refine ⟨fun e he => ?_, fun hactive => ?_⟩
  · rw [answer_areAllUnique, firstDuplicate_refused_alike h hrelation hrelated relatedId he]
    rfl
  · have hs := Schema.describes_of_describe h.schema
    obtain ⟨⟨q, hdefault⟩, hdecides⟩ := Index.tellsActive_eq_ok.mp hactive
    obtain ⟨hf, rfl⟩ := new_ok hscanner
    obtain ⟨q, hq⟩ := compile_siblings hs hdefault hrelation hrelated relatedId
    obtain ⟨found, hfound, hshared⟩ := firstDuplicate_of_decides h hdecides hq hscanner hsole
      fun _ _ _ => Schema.suits_cellOf_of_ne (by rw [hkind]; decide)
    refine ⟨found.isNone, ?_, ?_⟩
    · rw [answer_areAllUnique, hfound]
      rfl
    rw [Option.isNone_iff_eq_none, hshared.eq_none_iff, Schema.nodup_siblingValues_iff hkind hdistinct]
    refine forall₂_congr fun a _ => forall₃_congr fun value _ hvalue => ?_
    have hfits : ∀ b : α, (i.schema.facts b).fits scanner.field.name value =
        decide (scanner.field.read b = .text value) :=
      fun b => (hs.fits_text hf hkind hvalue).trans (Schema.hasText_sole hsole)
    rw [h.isUnique hkeyed hdistinct hrelation hrelated hf (by rw [hkind]; decide), hactive,
      matching_rivals_of_ne hne]
    show _ ↔ Except.ok (decide _) = Except.ok true
    simp only [hfits, Except.ok.injEq, decide_eq_true_eq, List.mem_filter, and_imp, Option.some.injEq]

end Scanner

end

/-- Of these versions two active ones have different numbers, and a closed one shares one of them. -/
def distinctVersions : List Dictionary :=
  [dictionaryVersion "a" .create (some "1"), dictionaryVersion "b" .close (some "1"),
    dictionaryVersion "c" .create none, dictionaryVersion "d" .update (some "2")]

theorem Scanner.areAllUnique_iff_of_versions :
    ∃ i : Index, Index.stocked distinctVersions = .ok i ∧
      ∃ scanner, Scanner.new i.schema "version" = .ok scanner ∧
        (effect (scanner.areAllUnique Dictionary "groupId" "g") i).1 = .ok true := by
  have hrecalled : Document.recalled distinctVersions = .ok distinctVersions :=
    EntityKind.recalled_eq .dictionary (by decide)
  obtain ⟨g, hg⟩ := Index.contains_stocked rfl hrecalled (by decide)
  refine ⟨_, rfl, _, rfl, ?_⟩
  obtain ⟨answer, hanswer, hiff⟩ := (Scanner.areAllUnique_iff hg (by decide)
    (by decide) (show Scanner.new _ "version" = .ok _ from rfl) rfl (by decide)
    (show Schema.filterable _ "groupId" = .ok _ from rfl) (by decide) (by decide) "g").2
      (by decide)
  rw [hanswer, hiff.mpr]
  intro a ha value hread _
  rw [hg.isUnique (by decide) (by decide)
    (show Schema.filterable _ "groupId" = .ok _ from rfl) (by decide)
    (show Schema.filterable _ "version" = .ok _ from rfl) (by decide)]
  simp only [distinctVersions, Schema.siblings, List.mem_filter, List.mem_cons, List.not_mem_nil,
    or_false] at ha
  rcases ha with ⟨rfl | rfl | rfl | rfl, hactive⟩
  · cases hread
    decide
  · exact absurd hactive (by decide)
  · cases hread
  · cases hread
    decide

/-- There is no answer under a parent that a field with dates is to name, even if nobody is under it. -/
theorem Scanner.areAllUnique_refused :
    ∃ (i : Index) (scanner : Scanner) (relation : IndexedField),
      Index.stocked [countedItem "a" none] = .ok i ∧ Scanner.new i.schema "name" = .ok scanner ∧
      scanner.field.kind = .string ∧
      (i.schema.primaryKey :: i.schema.fields).filter (fun f => f.name = "name") = [scanner.field] ∧
      i.schema.filterable "due" = .ok relation ∧
      i.schema.siblings "due" "x" [countedItem "a" none] = [] ∧
      (effect (scanner.areAllUnique Item "due" "x") i).1 = .error (.criteria (.invalidCriteria
        "an exact-match filter does not apply to Date field 'due' of Sample")) :=
  ⟨_, _, _, rfl, rfl, rfl, by decide, rfl, by decide, by decide⟩

end Codebook
