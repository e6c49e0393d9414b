/-
# Numbers in filters and orders

A field with whole numbers is indexed by their texts. A filter asks for the canonical text of the
number nearest to what it spells, and an order compares the numbers nearest to what the texts spell.
Up to 2 ^ 53 this is the same as filtering and ordering by the numbers themselves. Beyond, a filter
can miss the very number that it spells, and numbers that have the same nearest number are ordered as
if they were equal.

Key definitions: `IndexedField.integer?`, `IndexedField.HoldsInteger`, `Double.Stable`,
`Schema.Precedes`, `Schema.KeysAgree`.
Key theorems: `Schema.numbers_match`, `Index.find_sorted_by_number`.
-/
import Codebook.Proofs.Paging
import Codebook.Proofs.Spelling

namespace Codebook

open Number

/-! ### Texts of whole numbers -/

namespace Number

/-- Whether a whole number fits into 64 bits. -/
def Fits (n : Int) : Prop :=
  minInt64 ≤ n ∧ n ≤ maxInt64

instance (n : Int) : Decidable (Fits n) :=
  inferInstanceAs (Decidable (_ ∧ _))

theorem Fits.natAbs_lt {n : Int} (h : Fits n) : n.natAbs < 2 ^ 64 := by
  have hlow : (-0x8000000000000000 : Int) ≤ n := h.1
  have hhigh : n ≤ (0x7FFFFFFFFFFFFFFF : Int) := h.2
  omega

/-- Whether the text of a whole number is the canonical text of the number nearest to it. -/
def Double.Stable (n : Int) : Prop :=
  (Double.ofInt n).canonical = toString n

instance (n : Int) : Decidable (Double.Stable n) :=
  inferInstanceAs (Decidable (_ = _))

/-- Up to 2 ^ 53 the text of a whole number is the canonical one. -/
theorem Double.stable_of_le {n : Int} (hn : n.natAbs ≤ 2 ^ 53) : Double.Stable n :=
  canonical_ofInt hn

end Number

/-! ### Fields with whole numbers -/

section

variable {α : Type} [Indexed α] {s : Schema} {f : IndexedField} {a : α} {d : Document} {n : Int}

/-- The whole number in a field of an entity, if there is one. -/
def IndexedField.integer? (f : IndexedField) (a : α) : Option Int :=
  match f.read a with
  | .integer n => some n
  | _ => none

/-- A field of an entity holds a whole number of 64 bits or nothing. -/
def IndexedField.HoldsInteger (f : IndexedField) (a : α) : Prop :=
  f.read a = .null ∨ ∃ n, f.read a = .integer n ∧ Fits n

/-- Numbers are the values under the name of a field with whole numbers that no other field has. -/
theorem Schema.cells_number (hsole : (s.primaryKey :: s.fields).filter (fun g => g.name = f.name) = [f])
    (hkind : f.kind = .number) (ha : f.HoldsInteger a) :
    s.cellsOf a f.name = ((f.integer? a).map fun n => Cell.text (toString n)).toList := by
  rw [Schema.cellsOf, hsole]
  rcases ha with hread | ⟨n, hread, -⟩ <;>
    simp [Schema.cellOf, IndexedField.integer?, hread, hkind, encodeValue]

theorem Schema.has_number (hsole : (s.primaryKey :: s.fields).filter (fun g => g.name = f.name) = [f])
    (hkind : f.kind = .number) (ha : f.HoldsInteger a) (text : String) :
    (s.facts a).has f.name text = (f.integer? a).any fun n => toString n == text := by
  have hcells : (s.facts a).cells f.name = _ := Schema.cells_number hsole hkind ha
  rw [Facts.has, hcells]
  cases f.integer? a with
  | none => rfl
  | some n =>
    rw [Option.map_some, Option.toList_some, List.contains_cons, List.contains_nil, Bool.or_false,
      Option.any_some, Bool.eq_iff_iff, beq_iff_eq, beq_iff_eq, Cell.text.injEq, eq_comm]

/-! ### Filters -/

variable {name : String} {zone : Instant.Zone}

/-- Whether a number asks for the number in a field of an entity: the text of this one is the canonical
text of the number nearest to the other. -/
def IndexedField.meets (f : IndexedField) (n : Int) (a : α) : Bool :=
  (f.integer? a).any fun m => toString m == (Double.ofInt n).canonical

theorem IndexedField.meets_of_stable (hn : Double.Stable n) :
    f.meets n a = decide (f.integer? a = some n) := by
  unfold IndexedField.meets
  rw [hn]
  cases f.integer? a with
  | none => rfl
  | some m =>
    rw [Option.any_some, Bool.eq_iff_iff, beq_iff_eq, decide_eq_true_iff, Option.some.injEq,
      Numeral.toString_inj]

theorem IndexedField.not_meets (hn : ¬ Double.Stable n) (ha : f.integer? a = some n) :
    f.meets n a = false := by
  rw [IndexedField.meets, ha, Option.any_some, beq_eq_false_iff_ne]
  exact fun h => hn h.symm

/-- A text that spells a number fits the fields that the number asks for. -/
theorem Schema.fits_number (hf : s.filterable name = .ok f) (hkind : f.kind = .number)
    (hsole : (s.primaryKey :: s.fields).filter (fun g => g.name = name) = [f])
    (ha : f.HoldsInteger a) {x : Numeral} (hx : x.value = n) (hn : Fits n) :
    (s.facts a).fits name x.text = f.meets n a := by
  have hfacts : (s.facts a).kind name = .number :=
    (Schema.kind_of_field (Schema.field_of_filterable hf)).trans hkind
  obtain ⟨rfl, -, -⟩ := Schema.filterable_ok hf
  rw [Facts.fits, x.not_isBlank, if_neg (by decide), Facts.spelling, if_pos hfacts,
    x.canonical_of_value hn.natAbs_lt hx, Option.getD_some, Schema.has_number hsole hkind ha]
  rfl

/-- The filters by texts can be compiled for a field that is open to filters and has no dates. -/
theorem Schema.Describes.fieldQuery_texts (hs : s.Describes α) (hf : s.filterable name = .ok f)
    (hkind : f.kind ≠ .date) (zone : Instant.Zone) :
    (∀ text, ∃ q, s.fieldQuery zone name (.stringEq text) = .ok (some q)) ∧
      ∀ texts inner, texts ≠ [] →
        ∃ q, s.fieldQuery zone name (.stringSet texts inner) = .ok (some q) := by
  have hquery : ∀ t, s.fieldQuery zone name t = s.testQuery zone name f.kind t := hs.fieldQuery_eq hf zone
  constructor
  · intro text
    exact ⟨Query.ofText name f.kind text, (hquery _).trans (if_neg hkind)⟩
  · intro texts inner hne
    have hset : (Query.ofSet inner (texts.map (Query.ofText name f.kind))).isSome = true := by
      simp [Query.ofSet, hne]
    obtain ⟨q, hq⟩ := Option.isSome_iff_exists.mp hset
    exact ⟨q, (hquery _).trans ((if_neg hkind).trans (congrArg Except.ok hq))⟩

/-- **Numbers match by value.** A filter by a spelling of a whole number selects just the entities with
this number, if the canonical text of the nearest number is that of the number, and so does a filter by
several spellings. This is so up to 2 ^ 53. Where it is not, the filter misses the entities with the
very number. -/
theorem Schema.numbers_match (h : Schema.describe α = .ok s) (hf : s.filterable name = .ok f)
    (hkind : f.kind = .number)
    (hsole : (s.primaryKey :: s.fields).filter (fun g => g.name = name) = [f]) (zone : Instant.Zone) :
    (∀ (x : Numeral) (n : Int), x.value = n → Fits n →
      ∃ q, s.fieldQuery zone name (.stringEq x.text) = .ok (some q) ∧
        ∀ (a : α) d, Document.encode s a = .ok d → f.HoldsInteger a →
          (Double.Stable n → (q.selects d = true ↔ f.integer? a = some n)) ∧
          (¬ Double.Stable n → f.integer? a = some n → q.selects d = false)) ∧
    (∀ (xs : List Numeral) (ns : List Int) (inner : Condition), xs ≠ [] →
      List.Forall₂ (fun (x : Numeral) (n : Int) => x.value = n ∧ Fits n ∧ Double.Stable n) xs ns →
      ∃ q, s.fieldQuery zone name (.stringSet (xs.map Numeral.text) inner) = .ok (some q) ∧
        ∀ (a : α) d, Document.encode s a = .ok d → f.HoldsInteger a →
          inner.ofSet (ns.map fun n => decide (f.integer? a = some n)) = some (q.selects d)) ∧
    ∀ n : Int, n.natAbs ≤ 2 ^ 53 → Double.Stable n := by
  have hs := Schema.describes_of_describe h
  obtain ⟨heq, hset⟩ := hs.fieldQuery_texts hf (by rw [hkind]; decide) zone
  refine ⟨fun x n hx hn => ?_, fun xs ns inner hne hxs => ?_, fun n => Double.stable_of_le⟩
  · obtain ⟨q, hq⟩ := heq x.text
    refine ⟨q, hq, fun a d hd ha => ?_⟩
    have hselects : q.selects d = f.meets n a := by
      have hholds := (hs.shows hd).selects_fieldQuery (by simp) hq
      rw [Test.holds?, Schema.fits_number hf hkind hsole ha hx hn] at hholds
      exact Option.some.inj hholds
    rw [hselects]
    refine ⟨fun hstable => ?_, fun hunstable => IndexedField.not_meets hunstable⟩
    rw [IndexedField.meets_of_stable hstable, decide_eq_true_iff]
  · obtain ⟨q, hq⟩ := hset (xs.map Numeral.text) inner (by simpa using hne)
    refine ⟨q, hq, fun a d hd ha => ?_⟩
    have hholds := (hs.shows hd).selects_fieldQuery (by simp) hq
    rw [Test.holds?, List.map_map] at hholds
    have hfits : xs.map ((s.facts a).fits name ∘ Numeral.text) =
        ns.map fun n => decide (f.integer? a = some n) := by
      rw [← List.forall₂_eq_eq_eq, List.forall₂_map_left_iff, List.forall₂_map_right_iff]
      refine hxs.imp fun x n ⟨hx, hn, hstable⟩ => ?_
      rw [Function.comp_apply, Schema.fits_number hf hkind hsole ha hx hn,
        IndexedField.meets_of_stable hstable]
    rw [← hfits, ← hholds]
    rfl

end

/-- The number two between blanks, with places. -/
def paddedTwo : Numeral where
  before := [' ']
  sign := .none
  whole := ⟨['2'], by simp⟩
  places := some ⟨['0', '0'], by simp⟩
  power := none
  after := [' ']
  blank_before := by simp [Text.isSpace, Text.inRanges, Text.spaceRanges]
  blank_after := by simp [Text.isSpace, Text.inRanges, Text.spaceRanges]
  written := by simp

theorem value_paddedTwo : paddedTwo.value = (2 : Int) := by
  show (1 : ℚ) * (200 : Nat) * 10 ^ (-2 : Int) = (2 : Int)
  norm_num

theorem Schema.numbers_match_of_items :
    ∃ s f q q' d, Schema.describe Item = .ok s ∧ s.filterable "count" = .ok f ∧
      s.fieldQuery .universal "count" (.stringEq " 2.00 ") = .ok (some q) ∧
      s.fieldQuery .universal "count" (.stringSet [" 2.00 ", "-7"] .or) = .ok (some q') ∧
      Document.encode s (countedItem "a" (some 2)) = .ok d ∧
      q.selects d = true ∧ q'.selects d = true := by
  obtain ⟨heq, hset, -⟩ := Schema.numbers_match (s := _) (f := _) (α := Item) rfl
    (show Schema.filterable _ "count" = .ok _ from rfl) rfl (by decide +kernel) .universal
  have hvalue : IndexedField.HoldsInteger ⟨"count", "count", .number, ⟨true, true, true⟩, []⟩
      (countedItem "a" (some 2)) := Or.inr ⟨2, rfl, by decide, by decide⟩
  obtain ⟨q, hq, hselects⟩ := heq paddedTwo 2 value_paddedTwo (by decide)
  obtain ⟨q', hq', hselects'⟩ := hset [paddedTwo, .ofInt (-7)] [2, -7] .or (by simp)
    (.cons ⟨value_paddedTwo, by decide, Double.stable_of_le (by decide)⟩
      (.cons ⟨Numeral.value_ofInt _, by decide, Double.stable_of_le (by decide)⟩ .nil))
  refine ⟨_, _, q, q', _, rfl, rfl, hq, hq', rfl, ?_, ?_⟩
  · exact ((hselects _ _ rfl hvalue).1 (Double.stable_of_le (by decide))).mpr rfl
  · exact (Option.some.inj (hselects' _ _ rfl hvalue)).symm

/-- A filter can miss the number that it spells, and find another one. -/
theorem Schema.number_missed :
    ∃ s q d e, Schema.describe Item = .ok s ∧
      s.fieldQuery .universal "count" (.stringEq "9007199254740993") = .ok (some q) ∧
      Document.encode s (countedItem "a" (some 9007199254740993)) = .ok d ∧ q.selects d = false ∧
      Document.encode s (countedItem "b" (some 9007199254740992)) = .ok e ∧ q.selects e = true :=
  ⟨_, _, _, _, rfl, rfl, rfl, by decide +kernel, rfl, by decide +kernel⟩

/-! ### Orders -/

section

variable {α : Type} [Indexed α] {s : Schema} {f : IndexedField} {a : α} {name : String}

/-- In an order by the numbers in a field, or by what becomes of them, an entity comes before another
one: those without a number come first, and the primary key decides if there is no difference. In the
reverse order the greatest comes first, and those without a number last. -/
def Schema.Precedes (s : Schema) (f : IndexedField) (descending : Bool) (value : Int → Int) (a b : α) :
    Prop :=
  match f.integer? a, f.integer? b with
  | none, none => s.keyOf a < s.keyOf b
  | none, some _ => descending = false
  | some _, none => descending = true
  | some m, some n =>
    (if descending then value n < value m else value m < value n) ∨
      value m = value n ∧ s.keyOf a < s.keyOf b

/-- What becomes of a whole number in an order: the place of the number nearest to it. -/
def Number.Double.placeOf (n : Int) : Int :=
  (Double.ofInt n).rank

theorem Schema.rank_number (hf : s.field f.name = .ok f) (hkind : f.kind = .number)
    (hsole : (s.primaryKey :: s.fields).filter (fun g => g.name = f.name) = [f])
    (ha : f.HoldsInteger a) : (s.facts a).rank f.name =
      ((f.integer? a).map fun n => SortValue.number (Double.ofInt n)).getD .missing := by
  have hcells : (s.facts a).cells f.name = _ := Schema.cells_number hsole hkind ha
  rw [Facts.rank, Schema.kind_of_field hf, hkind, hcells]
  rcases ha with hread | ⟨n, hread, hn⟩
  · simp [IndexedField.integer?, hread, SortValue.ofCells]
  · simp only [IndexedField.integer?, hread, Option.map_some, Option.toList_some, SortValue.ofCells,
      List.head?_cons, SortValue.ofCell, if_true, Double.read_toString hn.natAbs_lt, Option.getD_some]

theorem Criteria.order_eq_lt_iff {c : Criteria} {b : α} (hsort : c.sortKey = some f.name)
    (hf : s.field f.name = .ok f) (hkind : f.kind = .number)
    (hsole : (s.primaryKey :: s.fields).filter (fun g => g.name = f.name) = [f])
    (ha : f.HoldsInteger a) (hb : f.HoldsInteger b) : c.order s a b = .lt ↔
      s.Precedes f (c.sortOrder == .descending) Double.placeOf a b := by
  have hkeys : compareOn s.keyOf a b = .lt ↔ s.keyOf a < s.keyOf b := compare_lt_iff_lt
  unfold Criteria.order
  simp only [hsort, compareLex, Ordering.then_eq_lt, hkeys, Schema.orderBy, SortValue.compareIn,
    Schema.rank_number hf hkind hsole ha, Schema.rank_number hf hkind hsole hb, Schema.Precedes]
  generalize (c.sortOrder == SortOrder.descending) = descending
  cases f.integer? a with
  | none =>
    cases f.integer? b with
    | none => cases descending <;> simp [SortValue.compare]
    | some n => cases descending <;> simp [SortValue.compare]
  | some m =>
    cases f.integer? b with
    | none => cases descending <;> simp [SortValue.compare]
    | some n =>
      cases descending <;>
        simp [SortValue.compare, Double.placeOf, compare_lt_iff_lt, compare_gt_iff_gt]

/-- Two entities whose numbers have the same nearest number stand in the order of their numbers, because
their primary keys do. -/
def Schema.KeysAgree (s : Schema) (f : IndexedField) (descending : Bool) (a b : α) : Prop :=
  ∀ m n, f.integer? a = some m → f.integer? b = some n → m < n → Double.ofInt m = Double.ofInt n →
    if descending then s.keyOf b < s.keyOf a else s.keyOf a < s.keyOf b

/-- The order by what is nearest is the order by the numbers, as far as the primary keys agree with it
where numbers have the same nearest number. -/
theorem Schema.Precedes.of_placeOf {b : α} {descending : Bool} (ha : f.HoldsInteger a)
    (hb : f.HoldsInteger b) (hab : s.KeysAgree f descending a b) (hba : s.KeysAgree f descending b a)
    (h : s.Precedes f descending Double.placeOf a b) : s.Precedes f descending id a b := by
  unfold Schema.Precedes at h ⊢
  rcases ha with hread | ⟨m, hread, hm⟩ <;> rcases hb with hread' | ⟨n, hread', hn⟩
  · simpa [IndexedField.integer?, hread, hread'] using h
  · simpa [IndexedField.integer?, hread, hread'] using h
  · simpa [IndexedField.integer?, hread, hread'] using h
  · have hma : f.integer? a = some m := by simp [IndexedField.integer?, hread]
    have hnb : f.integer? b = some n := by simp [IndexedField.integer?, hread']
    have hlogm := Double.log2_le_of_lt hm.natAbs_lt
    have hlogn := Double.log2_le_of_lt hn.natAbs_lt
    simp only [hma, hnb, Double.placeOf, id] at h ⊢
    have hmono : ∀ {k l : Int}, k.natAbs.log2 ≤ 1000 → l.natAbs.log2 ≤ 1000 →
        (Double.ofInt k).rank < (Double.ofInt l).rank → k < l := fun hk hl hlt => by
      by_contra hle
      exact absurd (Double.rank_ofInt_mono hl hk (not_lt.mp hle)) (not_le.mpr hlt)
    rcases h with hlt | ⟨halike, hkey⟩
    · cases descending with
      | false => exact Or.inl (hmono hlogm hlogn hlt)
      | true => exact Or.inl (hmono hlogn hlogm hlt)
    · have halike := (Double.rank_ofInt_inj hlogm hlogn).mp halike
      rcases lt_trichotomy m n with hlt | rfl | hlt
      · have hkeys := hab m n hma hnb hlt halike
        cases descending with
        | false => exact Or.inl hlt
        | true => exact absurd hkey (lt_asymm hkeys)
      · exact Or.inr ⟨rfl, hkey⟩
      · have hkeys := hba n m hnb hma hlt halike.symm
        cases descending with
        | false => exact absurd hkey (lt_asymm hkeys)
        | true => exact Or.inl hlt

/-- If both orders hold of two entities, their primary keys agree with the order of the numbers. -/
theorem Schema.Precedes.keysAgree {b : α} {descending : Bool}
    (hplace : s.Precedes f descending Double.placeOf a b) (hvalue : s.Precedes f descending id a b) :
    s.KeysAgree f descending a b ∧ s.KeysAgree f descending b a := by
  constructor <;> intro m n hm hn hlt halike <;>
    simp only [Schema.Precedes, hm, hn, Double.placeOf, halike, id, lt_irrefl, ite_self, false_or,
      true_and] at hplace hvalue
  · cases descending with
    | false => exact hplace
    | true =>
      rcases hvalue with hgt | ⟨heq, -⟩
      · exact absurd hgt (lt_asymm hlt)
      · omega
  · cases descending with
    | true => exact hplace
    | false =>
      rcases hvalue with hgt | ⟨heq, -⟩
      · exact absurd hgt (lt_asymm hlt)
      · omega

/-- Up to 2 ^ 53 no two numbers have the same nearest number. -/
theorem Schema.keysAgree_of_le {b : α} {descending : Bool}
    (ha : ∀ n, f.integer? a = some n → n.natAbs ≤ 2 ^ 53)
    (hb : ∀ n, f.integer? b = some n → n.natAbs ≤ 2 ^ 53) : s.KeysAgree f descending a b := by
  intro m n hm hn hlt halike
  have heq := Double.eq_of_ofInt_eq (ha m hm) (hb n hn) halike
  omega

variable {entities : List α} {c : Criteria}

/-- What is found is ordered by the numbers just if the primary keys agree with this order where
numbers have the same nearest number. -/
theorem Criteria.sorted_by_number (hsort : c.sortKey = some f.name) (hf : s.field f.name = .ok f)
    (hkind : f.kind = .number)
    (hsole : (s.primaryKey :: s.fields).filter (fun g => g.name = f.name) = [f])
    (hvalues : ∀ a ∈ entities, f.HoldsInteger a) (hdistinct : (entities.map s.keyOf).Nodup) :
    (sortBy (c.order s) entities).Pairwise
        (s.Precedes f (c.sortOrder == .descending) Double.placeOf) ∧
      ((sortBy (c.order s) entities).Pairwise (s.Precedes f (c.sortOrder == .descending) id) ↔
        ∀ a ∈ entities, ∀ b ∈ entities, s.KeysAgree f (c.sortOrder == .descending) a b) := by
  have hperm := sortBy_perm_self (c.order s) entities
  have hplaces : (sortBy (c.order s) entities).Pairwise
      (s.Precedes f (c.sortOrder == .descending) Double.placeOf) := by
    have hkeys : (sortBy (c.order s) entities).Pairwise fun a b => s.keyOf a ≠ s.keyOf b :=
      List.pairwise_map.mp ((hperm.map s.keyOf).nodup_iff.mpr hdistinct)
    refine ((pairwise_sortBy (c.order s) entities).and hkeys).imp_of_mem fun {a b} ha hb ⟨hle, hne⟩ => ?_
    rw [← order_eq_lt_iff hsort hf hkind hsole (hvalues a (hperm.subset ha)) (hvalues b (hperm.subset hb))]
    cases hcmp : c.order s a b with
    | lt => rfl
    | eq => exact absurd (keyOf_of_tie hcmp) hne
    | gt => simp [hcmp] at hle
  refine ⟨hplaces, fun hordered a ha b hb => ?_, fun hagree => ?_⟩
  · by_cases heq : a = b
    · subst heq
      intro m n hm hn hlt _
      rw [hm, Option.some.injEq] at hn
      omega
    · -- one of the two comes first, and then both orders say so
      have hboth : (sortBy (c.order s) entities).Pairwise fun a b =>
          s.KeysAgree f (c.sortOrder == .descending) a b ∧
            s.KeysAgree f (c.sortOrder == .descending) b a :=
        (hplaces.and hordered).imp fun ⟨hplace, hvalue⟩ => hplace.keysAgree hvalue
      have hsymm : Std.Symm fun a b : α => s.KeysAgree f (c.sortOrder == .descending) a b ∧
          s.KeysAgree f (c.sortOrder == .descending) b a := ⟨fun _ _ h => h.symm⟩
      exact (hboth.forall (hperm.symm.subset ha) (hperm.symm.subset hb) heq).1
  · refine hplaces.imp_of_mem fun {a b} ha hb hplace => ?_
    have ha := hperm.subset ha
    have hb := hperm.subset hb
    exact hplace.of_placeOf (hvalues a ha) (hvalues b hb) (hagree a ha b hb) (hagree b hb a ha)

/-- **Numbers sort by value.** What an index finds in the order of a field with whole numbers is a page
of the entities that fulfil the criteria, in the order of the numbers nearest to theirs: those without
a number first, in the reverse order last, and the primary key decides where there is no difference.
This is the order of the numbers themselves just if the primary keys agree with it where two numbers
have the same nearest number, which no two numbers up to 2 ^ 53 have. -/
theorem Index.find_sorted_by_number {i : Index} {g : Generation} (h : i.Contains g entities)
    (hkeyed : ∀ a ∈ entities, Text.isBlank (i.schema.keyOf a) = false)
    (hdistinct : (entities.map i.schema.keyOf).Nodup) (hf : i.schema.sortable name = .ok f)
    (hkind : f.kind = .number)
    (hsole : (i.schema.primaryKey :: i.schema.fields).filter (fun g => g.name = name) = [f])
    (hvalues : ∀ a ∈ entities, f.HoldsInteger a) (hsort : c.sortKey = some name) {q : Compiled}
    (hq : i.compile c = .ok q) (hdecides : i.schema.decides c.activity = true) :
    ∃ ordered : List α, ordered.Perm (c.matching i.schema i.config.zone entities) ∧
      (effect (Index.find α c) i).1 = .ok {
        items := (ordered.drop c.offset).take (c.limit?.getD ordered.length)
        countByFilter := ordered.length
        totalCount := entities.length } ∧
      ordered.Pairwise (i.schema.Precedes f (c.sortOrder == .descending) Double.placeOf) ∧
      (ordered.Pairwise (i.schema.Precedes f (c.sortOrder == .descending) id) ↔
        ∀ a ∈ ordered, ∀ b ∈ ordered, i.schema.KeysAgree f (c.sortOrder == .descending) a b) ∧
      ((∀ a ∈ ordered, ∀ n, f.integer? a = some n → n.natAbs ≤ 2 ^ 53) →
        ordered.Pairwise (i.schema.Precedes f (c.sortOrder == .descending) id)) := by
  have hfield := Schema.field_of_sortable hf
  obtain ⟨rfl, -, -⟩ := Schema.sortable_ok hf
  have hperm := sortBy_perm_self (c.order i.schema) (c.matching i.schema i.config.zone entities)
  have hmatching : ∀ a ∈ c.matching i.schema i.config.zone entities, f.HoldsInteger a := fun a ha =>
    hvalues a (List.mem_of_mem_filter ha)
  obtain ⟨hplaces, hiff⟩ := Criteria.sorted_by_number hsort hfield hkind hsole hmatching
    (hdistinct.sublist (List.filter_sublist.map _))
  have hiff' := hiff.trans ⟨fun hagree a ha b hb => hagree a (hperm.subset ha) b (hperm.subset hb),
    fun hagree a ha b hb => hagree a (hperm.symm.subset ha) b (hperm.symm.subset hb)⟩
  refine ⟨_, hperm, ?_, hplaces, hiff', fun hsmall => hiff'.mpr fun a ha b hb =>
    Schema.keysAgree_of_le (hsmall a ha) (hsmall b hb)⟩
  rw [h.find hkeyed hdistinct hq, if_pos hdecides, Criteria.pageOf, hperm.length_eq]
  cases c.limit? with
  | some limit => rfl
  | none =>
    have hrest := List.take_of_length_le
      (l := (sortBy (c.order i.schema) (c.matching i.schema i.config.zone entities)).drop c.offset)
      (i := (sortBy (c.order i.schema) (c.matching i.schema i.config.zone entities)).length)
      (by rw [List.length_drop]; omega)
    rw [hperm.length_eq] at hrest
    simp only [Option.getD_none, hrest]

end

/-- All items by their counts. -/
def byCount : Criteria where
  sortKey := some "count"

/-- The field of an item with its count. -/
def countField : IndexedField :=
  ⟨"count", "count", .number, ⟨true, true, true⟩, []⟩

theorem holdsInteger_countField {id : String} {count : Option Int} (h : ∀ n ∈ count, Fits n) :
    countField.HoldsInteger (countedItem id count) := by
  cases count with
  | none => exact Or.inl rfl
  | some n => exact Or.inr ⟨n, rfl, h n rfl⟩

/-- Items whose keys go against the order of their counts. -/
def itemsAgainstKeys : List Item :=
  [countedItem "c" none, countedItem "b" (some (-7)), countedItem "a" (some 2)]

theorem Index.find_sorted_by_number_of_items :
    ∃ i : Index, ∃ ordered : List Item, Index.stocked itemsAgainstKeys = .ok i ∧
      ordered.Perm itemsAgainstKeys ∧
      (effect (Index.find Item byCount) i).1 =
        .ok { items := ordered, countByFilter := 3, totalCount := 3 } ∧
      ordered.Pairwise (i.schema.Precedes countField false id) := by
  have hrecalled : Document.recalled itemsAgainstKeys = .ok itemsAgainstKeys := by decide +kernel
  obtain ⟨g, hg⟩ := Index.contains_stocked rfl hrecalled (by decide)
  have hvalues : ∀ a ∈ itemsAgainstKeys, countField.HoldsInteger a := by
    simp only [itemsAgainstKeys, List.mem_cons, List.not_mem_nil, or_false]
    rintro a (rfl | rfl | rfl) <;> exact holdsInteger_countField (by decide)
  obtain ⟨ordered, hperm, hfind, -, -, hsmall⟩ := Index.find_sorted_by_number (c := byCount) hg
    (by decide +kernel) (by decide +kernel) (show Schema.sortable _ "count" = .ok countField from rfl) rfl
    (by decide +kernel) hvalues rfl (rfl : Index.compile _ byCount = .ok _) (by decide +kernel)
  rw [show byCount.matching _ _ itemsAgainstKeys = itemsAgainstKeys by decide +kernel] at hperm
  have hlength : ordered.length = 3 := hperm.length_eq
  have hbounded : ∀ a ∈ itemsAgainstKeys, ∀ n ∈ countField.integer? a, n.natAbs ≤ 2 ^ 53 := by decide
  refine ⟨_, ordered, rfl, hperm, ?_, hsmall fun a ha n hn => hbounded a (hperm.subset ha) n hn⟩
  rw [hfind, hlength, show byCount.offset = 0 from rfl, List.drop_zero,
    List.take_of_length_le (hlength.le.trans (by decide))]
  rfl

/-- Beyond 2 ^ 53 an index can find a number before a smaller one. -/
theorem Index.numbers_out_of_order :
    ∃ i : Index, Index.stocked
        [countedItem "a" (some 9007199254740993), countedItem "b" (some 9007199254740992)] = .ok i ∧
      (effect (Index.find Item byCount) i).1 = .ok {
        items := [countedItem "a" (some 9007199254740993), countedItem "b" (some 9007199254740992)]
        countByFilter := 2
        totalCount := 2 } := by
  refine ⟨_, rfl, ?_⟩
  have hrecalled : Document.recalled
      [countedItem "a" (some 9007199254740993), countedItem "b" (some 9007199254740992)] =
      .ok [countedItem "a" (some 9007199254740993), countedItem "b" (some 9007199254740992)] := by
    decide +kernel
  obtain ⟨g, hg⟩ := Index.contains_stocked rfl hrecalled (by decide)
  rw [hg.find (by decide +kernel) (by decide +kernel) (rfl : Index.compile _ byCount = .ok _),
    if_pos (by decide +kernel), Criteria.pageOf,
    show byCount.matching _ _
        [countedItem "a" (some 9007199254740993), countedItem "b" (some 9007199254740992)] =
      [countedItem "a" (some 9007199254740993), countedItem "b" (some 9007199254740992)]
      by decide +kernel,
    sortBy_of_pairwise (by decide +kernel)]
  rfl

end Codebook
