/-
# Pages of a result

Criteria ask for a page: of the entities that fulfil them, in the order they ask for, those from the
offset on, as many as are wanted. An index keeps documents and finds them through windows, one for
each part of its content. What it gives back is still exactly the page. So pages that follow one
another give every entity once.

The index can refuse criteria that compile, but only if it cannot decide what is visible; then it
refuses all of them alike.

Key definitions: `Criteria.order`, `Criteria.pageOf`, `Criteria.pages`.
Key theorems: `Criteria.compareDocuments_eq`, `Generation.find_of_stores`, `Index.find_eq_pageOf`.
-/
import Codebook.Proofs.Values
import Codebook.Samples.Item
import Mathlib.Algebra.GroupWithZero.Nat

namespace Codebook

/-! ### The order of entities -/

/-- The order of values, or its reverse. -/
def SortValue.compareIn (descending : Bool) (v w : SortValue) : Ordering :=
  if descending then (v.compare w).swap else v.compare w

section

variable {α : Type} [Indexed α]

/-- The order of entities by the values under a name. -/
def Schema.orderBy (s : Schema) (name : String) (descending : Bool) (a b : α) : Ordering :=
  SortValue.compareIn descending ((s.facts a).rank name) ((s.facts b).rank name)

/-- The order that criteria ask for: by the requested key in the requested direction, or else by the
name of named entities, and then by the primary key. -/
def Criteria.order (c : Criteria) (s : Schema) : α → α → Ordering :=
  compareLex
    (match c.sortKey, s.nameField with
      | some name, _ => s.orderBy name (c.sortOrder == .descending)
      | none, some name => s.orderBy name false
      | none, none => fun _ _ => .eq)
    (compareOn s.keyOf)

/-- The page of the entities that criteria ask for. -/
def Criteria.pageOf (c : Criteria) (s : Schema) (zone : Instant.Zone) (entities : List α) :
    FilterResult α :=
  let wanted := (sortBy (c.order s) (c.matching s zone entities)).drop c.offset
  { items := match c.limit? with
      | some limit => wanted.take limit
      | none => wanted
    countByFilter := (c.matching s zone entities).length
    totalCount := entities.length }

/-- Criteria for pages of these sizes that follow one another, from an offset on. -/
def Criteria.pages (c : Criteria) : Nat → List Nat → List Criteria
  | _, [] => []
  | offset, size :: sizes => c.page offset size :: c.pages (offset + size) sizes

end

instance (descending : Bool) : Std.OrientedCmp (SortValue.compareIn descending) where
  eq_swap {v w} := by
    have hswap : v.compare w = (w.compare v).swap := Std.OrientedCmp.eq_swap
    unfold SortValue.compareIn
    rw [hswap]
    split_ifs <;> rfl

instance (descending : Bool) : Std.TransCmp (SortValue.compareIn descending) where
  isLE_trans {v w x} hvw hwx := by
    unfold SortValue.compareIn at hvw hwx ⊢
    split_ifs at hvw hwx ⊢
    · rw [← Std.OrientedCmp.eq_swap] at hvw hwx ⊢
      exact Std.TransCmp.isLE_trans hwx hvw
    · exact Std.TransCmp.isLE_trans hvw hwx

section

variable {α : Type} [Indexed α] {s : Schema} {c : Criteria} {a b : α} {d e : Document}

instance (s : Schema) (name : String) (descending : Bool) :
    Std.TransCmp (s.orderBy name descending : α → α → Ordering) where
  eq_swap {a b} :=
    (Std.OrientedCmp.eq_swap : SortValue.compareIn descending ((s.facts a).rank name)
      ((s.facts b).rank name) = _)
  isLE_trans {a _ b} hax hxb :=
    (Std.TransCmp.isLE_trans hax hxb : (SortValue.compareIn descending ((s.facts a).rank name)
      ((s.facts b).rank name)).isLE = true)

instance (c : Criteria) (s : Schema) : Std.TransCmp (c.order s : α → α → Ordering) := by
  unfold Criteria.order
  split
  · infer_instance
  · infer_instance
  · have : Std.TransCmp fun _ _ : α => Ordering.eq := { eq_swap := rfl, isLE_trans := fun _ _ => rfl }
    infer_instance

/-- No two entities with different keys tie. -/
theorem Criteria.keyOf_of_tie (h : c.order s a b = .eq) : s.keyOf a = s.keyOf b :=
  Std.LawfulEqCmp.eq_of_compare (Ordering.then_eq_eq.mp
    (h : (Ordering.then _ (compareOn s.keyOf a b)) = .eq)).2

/-! ### The order of documents -/

/-- A key is added to an order for a field with a column, unless its name is compared already. -/
theorem Criteria.addSortKey_eq {keys keys' : List SortKey} {name : String} {descending : Bool}
    (h : addSortKey s keys name descending = .ok keys') :
    ∃ f ∈ s.primaryKey :: s.fields, f.name = name ∧ ∃ column, s.column? f.name = some column ∧
      keys' = if keys.any (fun key => key.name == name) then keys
        else keys ++ [⟨f.name, column.kind, descending⟩] := by
  obtain ⟨f, hf, h⟩ := bind_eq_ok.mp h
  obtain ⟨column, hcolumn, h⟩ := bind_eq_ok.mp h
  obtain ⟨hname, hmem, -⟩ := Schema.sortable_ok hf
  have hcol := Schema.column_ok hcolumn
  have hcname : column.name = f.name := by simpa using List.find?_some hcol
  refine ⟨f, hmem, hname, column, hcol, ?_⟩
  rw [hcname, hname] at h
  split_ifs at h ⊢ with hany
  · exact (Except.ok.inj h).symm
  · rw [hname]
    exact (Except.ok.inj h).symm

/-- A key of an order orders documents as its name orders their entities. -/
theorem Schema.Describes.compare_sorting (hs : s.Describes α) (hd : Document.encode s a = .ok d)
    (he : Document.encode s b = .ok e) {f : IndexedField} (hf : f ∈ s.primaryKey :: s.fields)
    {column : Column} (hcolumn : s.column? f.name = some column) (descending : Bool) :
    (ColumnKey.sorting ⟨f.name, column.kind, descending⟩).compare d e =
      s.orderBy f.name descending a b := by
  unfold Schema.orderBy
  rw [← hs.read_sorting hd hf hcolumn descending, ← hs.read_sorting he hf hcolumn descending]
  rfl

theorem Schema.Describes.orderBy_key (hs : s.Describes α) (ha : Text.isBlank (s.keyOf a) = false)
    (hb : Text.isBlank (s.keyOf b) = false) (descending : Bool) :
    s.orderBy s.primaryKey.name descending a b =
      if descending then (compare (s.keyOf a) (s.keyOf b)).swap
      else compare (s.keyOf a) (s.keyOf b) := by
  unfold Schema.orderBy
  rw [hs.rank_key ha, hs.rank_key hb]
  rfl

/-- Documents are ordered as their entities are. -/
theorem Criteria.compareDocuments_eq (hs : s.Describes α) {keys : List SortKey}
    (h : c.sortKeys s = .ok keys) (hd : Document.encode s a = .ok d)
    (he : Document.encode s b = .ok e) (ha : Text.isBlank (s.keyOf a) = false)
    (hb : Text.isBlank (s.keyOf b) = false) :
    compareDocuments (keys.map ColumnKey.sorting) d e = c.order s a b := by
  have hkey := hs.orderBy_key ha hb
  have htie : compareOn s.keyOf a b = compare (s.keyOf a) (s.keyOf b) := rfl
  -- after a first name there is the primary key, unless the name is that of the primary key
  have hfirst : ∀ {before : List SortKey} {name : String} {descending : Bool},
      addSortKey s [] name descending = .ok before →
      addSortKey s before s.primaryKey.name false = .ok keys →
      compareDocuments (keys.map ColumnKey.sorting) d e =
        compareLex (s.orderBy name descending) (compareOn s.keyOf) a b := by
    intro before name descending hbefore hlast
    obtain ⟨f, hf, rfl, column, hcolumn, rfl⟩ := addSortKey_eq hbefore
    obtain ⟨g, hg, hgname, gcolumn, hgcolumn, rfl⟩ := addSortKey_eq hlast
    have hdecides := hs.compare_sorting hd he hf hcolumn descending
    have hbreaks : (ColumnKey.sorting ⟨g.name, gcolumn.kind, false⟩).compare d e =
        compare (s.keyOf a) (s.keyOf b) := by
      rw [hs.compare_sorting hd he hg hgcolumn, hgname, hkey]
      rfl
    simp only [List.any_nil, Bool.false_eq_true, if_false, List.nil_append, List.any_cons,
      Bool.or_false, beq_iff_eq, compareLex, htie]
    by_cases hsame : f.name = s.primaryKey.name
    · -- the first name tells the entities apart as the primary key does
      rw [if_pos hsame, List.map_cons, List.map_nil, compareDocuments, compareLex, hdecides, hsame,
        hkey]
      cases compare (s.keyOf a) (s.keyOf b) <;> cases descending <;> rfl
    · rw [if_neg hsame, List.map_append, List.map_cons, List.map_cons, List.map_nil, List.cons_append,
        List.nil_append, compareDocuments, compareLex, compareDocuments, compareLex, hdecides, hbreaks]
      cases compare (s.keyOf a) (s.keyOf b) <;> rfl
  unfold sortKeys at h
  unfold Criteria.order
  cases hsort : c.sortKey with
  | some name =>
    simp only [hsort] at h ⊢
    obtain ⟨before, hbefore, h⟩ := bind_eq_ok.mp h
    exact hfirst hbefore h
  | none =>
    cases hname : s.nameField with
    | some name =>
      simp only [hsort, hname] at h ⊢
      obtain ⟨before, hbefore, h⟩ := bind_eq_ok.mp h
      exact hfirst hbefore h
    | none =>
      simp only [hsort, hname] at h ⊢
      obtain ⟨f, hf, hfname, column, hcolumn, rfl⟩ := addSortKey_eq h
      have hbreaks : (ColumnKey.sorting ⟨f.name, column.kind, false⟩).compare d e =
          compare (s.keyOf a) (s.keyOf b) := by
        rw [hs.compare_sorting hd he hf hcolumn, hfname, hkey]
        rfl
      show ((ColumnKey.sorting ⟨f.name, column.kind, false⟩).compare d e).then .eq =
        Ordering.eq.then (compare (s.keyOf a) (s.keyOf b))
      rw [hbreaks]
      cases compare (s.keyOf a) (s.keyOf b) <;> rfl

/-! ### Answers of a content -/

variable {entities : List α} {documents : List Document} {zone : Instant.Zone} {q : Compiled}

namespace Schema.Stores

theorem encoded (h : s.Stores entities documents) :
    List.Forall₂ (fun a d => Document.encode s a = .ok d) entities documents :=
  h.kept.imp fun _ _ => Document.Keeps.encoded

/-- Every order that criteria ask for tells the documents apart. -/
theorem untied (h : s.Stores entities documents) (hs : s.Describes α) {keys : List SortKey}
    (hkeys : c.sortKeys s = .ok keys) : Untied (keys.map ColumnKey.sorting) documents := by
  intro d hd e he htie
  obtain ⟨a, ha, had⟩ := exists_of_mem_right h.encoded hd
  obtain ⟨b, hb, hbe⟩ := exists_of_mem_right h.encoded he
  rw [Criteria.compareDocuments_eq hs hkeys had hbe (h.keyed a ha) (h.keyed b hb)] at htie
  have hkey := Criteria.keyOf_of_tie htie
  obtain rfl := List.inj_on_of_nodup_map h.distinct ha hb hkey
  exact Except.ok.inj (had.symm.trans hbe)

/-- The documents that are found are those of the entities that fulfil the criteria. -/
theorem matching (h : s.Stores entities documents) (hs : s.Describes α)
    (hq : c.compile s zone = .ok q) :
    s.Stores (c.matching s zone entities) (documents.filter q.executable.selects) := by
  refine ⟨Criteria.kept_matching hs hq h.kept, fun a ha => ?_, ?_⟩
  · exact h.keyed a (List.mem_of_mem_filter ha)
  · exact h.distinct.sublist (List.filter_sublist.map _)

/-- Documents in order keep the entities in order. -/
theorem sorted (h : s.Stores entities documents) (hs : s.Describes α) {keys : List SortKey}
    (hkeys : c.sortKeys s = .ok keys) :
    List.Forall₂ (Document.Keeps s) (sortBy (c.order s) entities)
      (sortBy (compareDocuments (keys.map ColumnKey.sorting)) documents) := by
  have hkeyed : List.Forall₂ (fun a d => Text.isBlank (s.keyOf a) = false ∧ Document.Keeps s a d)
      entities documents := (List.forall₂_and_left _ _).mpr ⟨h.keyed, h.kept⟩
  refine (forall₂_sortBy hkeyed fun a d had b e hbe => ?_).imp fun _ _ => And.right
  exact (Criteria.compareDocuments_eq hs hkeys had.2.encoded hbe.2.encoded had.1 hbe.1).symm

theorem decoded (h : List.Forall₂ (Document.Keeps s) entities documents) :
    documents.mapM (Document.decode α s) = .ok entities :=
  mapM_of_forall₂ (h.flip.imp fun _ _ => Document.Keeps.decoded)

end Schema.Stores

/-- A slice of the first rows is a slice of all rows, if there are no more rows than can be
counted. -/
theorem drop_take_window {β : Type} {l : List β} (hl : l.length ≤ maxCount) (offset : Nat)
    (limit : Option Nat) :
    (l.take ((limit.map fun n => min (offset + n) maxCount).getD l.length)).drop offset =
      match limit with
      | some n => (l.drop offset).take n
      | none => l.drop offset := by
  cases limit with
  | none => simp
  | some n =>
    simp only [Option.map_some, Option.getD_some]
    by_cases hmax : offset + n ≤ maxCount
    · rw [Nat.min_eq_left hmax, List.drop_take, Nat.add_sub_cancel_left]
    · have hrest : (l.drop offset).length ≤ n := by
        rw [List.length_drop]
        omega
      rw [Nat.min_eq_right (by omega), List.take_of_length_le hl, List.take_of_length_le hrest]

namespace Schema.Stores

/-- The documents of the first rows, wherever the rows have their places, give back the entities of
the page. -/
theorem items (h : s.Stores entities documents) (hs : s.Describes α)
    (hsize : entities.length ≤ maxCount) (hq : c.compile s zone = .ok q) {rows : List Row}
    (hrows : ∀ a ∈ rows, a.Reads (q.sort.map ColumnKey.sorting))
    (hplaces : ∀ a ∈ rows, ∀ b ∈ rows, a.place = b.place → a = b)
    (hdocuments : (rows.map Row.document).Perm (documents.filter q.executable.selects)) :
    Generation.itemsOf α s c.offset (Window.first (q.sort.map ColumnKey.sorting)
      (c.limit?.map fun limit => min (c.offset + limit) maxCount) rows) =
        .ok (c.pageOf s zone entities).items := by
  have hkeys := (Criteria.compile_ok hq).2.1
  have hmatching := h.matching hs hq
  have hsorted := hmatching.sorted hs hkeys
  have hlength : (sortBy (c.order s) (c.matching s zone entities)).length ≤ maxCount := by
    rw [(sortBy_perm_self _ _).length_eq]
    exact (List.length_filter_le _ _).trans hsize
  unfold Generation.itemsOf
  rw [Window.map_first hrows hplaces hdocuments (hmatching.untied hs hkeys),
    ← (sortBy_perm_self (compareDocuments _) _).length_eq,
    drop_take_window (hsorted.length_eq.symm.trans_le hlength), Criteria.pageOf]
  cases c.limit? with
  | none => exact decoded (List.forall₂_drop _ hsorted)
  | some n => exact decoded (List.forall₂_take _ (List.forall₂_drop _ hsorted))

end Schema.Stores

namespace Generation

variable {g : Generation}

theorem count_of_stores (hs : s.Describes α) (hlayout : g.layout = s.layout)
    (h : s.Stores entities g.documents) (hq : c.compile s zone = .ok q) :
    g.count q = if s.decides c.activity then .ok (c.matching s zone entities).length
      else .error .search := by
  have hlength : (g.selected q.executable).length = (c.matching s zone entities).length := by
    rw [(h.matching hs hq).kept.length_eq, ← map_selected, List.length_map]
  rw [count, Criteria.canRun_executable hs hlayout hq, hlength]

/-- A content gives back the page of its entities that criteria ask for. -/
theorem find_of_stores (hs : s.Describes α) (hlayout : g.layout = s.layout)
    (h : s.Stores entities g.documents) (hsize : entities.length ≤ maxCount)
    (hq : c.compile s zone = .ok q) :
    g.find α s q c.offset c.limit? =
      if s.decides c.activity then .ok (c.pageOf s zone entities) else .error .search := by
  rw [find_eq, count_of_stores hs hlayout h hq]
  by_cases hdecides : s.decides c.activity = true
  · have hitems := h.items hs hsize hq (fun _ => reads_of_mem_rows)
      (fun _ ha _ hb => eq_of_place ha hb) (by rw [map_rows])
    have htotal : g.size = entities.length := h.kept.length_eq.symm
    rw [if_pos hdecides, if_pos hdecides, htotal]
    simp only [bind, Except.bind, hitems]
    by_cases hnone : c.limit? = some 0
    · simp [hnone, Criteria.pageOf, pure, Except.pure]
    · rw [if_neg hnone]
      rfl
  · rw [if_neg hdecides, if_neg hdecides]
    rfl

end Generation

/-! ### Pages that follow one another -/

namespace Criteria

/-- Where the page begins and how long it is does not matter to what is looked for. -/
theorem compile_page (hq : c.compile s zone = .ok q) (offset : Nat) {count : Int}
    (hcount : -1 ≤ count) : (c.page offset count).compile s zone = .ok q := by
  obtain ⟨hquery, hsort, hactivity⟩ := compile_ok hq
  have hvalid : (c.page offset count).validate = .ok () := if_pos hcount
  have hquery' : (c.page offset count).query s zone = .ok q.query := hquery
  have hsort' : (c.page offset count).sortKeys s = .ok q.sort := hsort
  have hactivity' : (c.page offset count).activityQuery s = .ok q.activity := hactivity
  rw [compile, hvalid, hquery', hsort', hactivity']
  rfl

/-- Pages that follow one another are one page. -/
theorem flatMap_pages (c : Criteria) (s : Schema) (zone : Instant.Zone) (entities : List α) :
    ∀ (offset : Nat) (sizes : List Nat),
      (c.pages offset sizes).flatMap (fun p => (p.pageOf s zone entities).items) =
        ((sortBy (c.order s) (c.matching s zone entities)).drop offset).take sizes.sum
  | _, [] => by simp [pages]
  | offset, size :: sizes => by
    have hpage : ((c.page offset size).pageOf s zone entities).items =
        ((sortBy (c.order s) (c.matching s zone entities)).drop offset).take size := rfl
    rw [pages, List.flatMap_cons, hpage, flatMap_pages c s zone entities (offset + size) sizes,
      List.sum_cons, List.take_add, List.drop_drop]

theorem mem_pages {p : Criteria} : ∀ {offset : Nat} {sizes : List Nat}, p ∈ c.pages offset sizes →
    ∃ offset size : Nat, p = c.page offset size
  | offset, size :: sizes, h => by
    rcases List.mem_cons.mp h with rfl | h
    · exact ⟨offset, size, rfl⟩
    · exact mem_pages h

end Criteria

/-! ### Answers of an index -/

namespace Index

variable {i : Index} {g : Generation}

theorem Contains.find (h : i.Contains g entities)
    (hkeyed : ∀ a ∈ entities, Text.isBlank (i.schema.keyOf a) = false)
    (hdistinct : (entities.map i.schema.keyOf).Nodup) (hq : i.compile c = .ok q) :
    (effect (find α c) i).1 = if i.schema.decides c.activity then
      .ok (c.pageOf i.schema i.config.zone entities) else .error .search := by
  obtain ⟨l, hl, rfl⟩ := Option.map_eq_some_iff.mp h.live
  have hs := Schema.describes_of_describe h.schema
  rw [answer_find hl, hq]
  exact Generation.find_of_stores hs h.layout ⟨h.kept, hkeyed, hdistinct⟩ h.countable hq

/-- **Pages are exact.** What criteria that compile find in an index is the page of its entities
that they ask for: of those that fulfil the criteria, in the order of the criteria, the ones from
the offset on, as many as are wanted, with the number of all that fulfil them, which is also what is
counted, and of all there are. The windows of the parts of a content, in whatever way it is divided,
show the same page together. Pages of any sizes that follow one another to the end of the result
make up the unbounded result. The only exception are types whose last change is closed to filters:
for them all requests are refused in which the visibility matters. -/
theorem find_eq_pageOf (h : i.Contains g entities)
    (hkeyed : ∀ a ∈ entities, Text.isBlank (i.schema.keyOf a) = false)
    (hdistinct : (entities.map i.schema.keyOf).Nodup) (hq : i.compile c = .ok q) :
    (effect (find α c) i).1 = (if i.schema.decides c.activity then
      .ok (c.pageOf i.schema i.config.zone entities) else .error .search) ∧
    (effect (count c) i).1 = (if i.schema.decides c.activity then
      .ok (c.pageOf i.schema i.config.zone entities).countByFilter else .error .search) ∧
    (∀ parts : List (List Row), (∀ a ∈ parts.flatten, a.Reads (q.sort.map ColumnKey.sorting)) →
      (∀ a ∈ parts.flatten, ∀ b ∈ parts.flatten, a.place = b.place → a = b) →
      (parts.flatten.map Row.document).Perm (g.documents.filter q.executable.selects) →
      Generation.itemsOf α i.schema c.offset (Window.merge (q.sort.map ColumnKey.sorting)
        (c.limit?.map fun limit => min (c.offset + limit) maxCount) parts) =
          .ok (c.pageOf i.schema i.config.zone entities).items) ∧
    ∀ sizes : List Nat, i.schema.decides c.activity = true →
      (c.matching i.schema i.config.zone entities).length ≤ sizes.sum →
      ((c.pages 0 sizes).mapM fun p => (effect (find α p) i).1.map FilterResult.items).map
        List.flatten = (effect (find α (c.page 0 (-1))) i).1.map FilterResult.items := by
  obtain ⟨l, hl, hg⟩ := Option.map_eq_some_iff.mp h.live
  have hs := Schema.describes_of_describe h.schema
  have hstores : i.schema.Stores entities g.documents := ⟨h.kept, hkeyed, hdistinct⟩
  refine ⟨h.find hkeyed hdistinct hq, ?_, fun parts hreads hplaces hdocuments => ?_,
    fun sizes hdecides hsizes => ?_⟩
  · rw [answer_count hl, hq, hg]
    exact Generation.count_of_stores hs h.layout hstores hq
  · rw [Window.merge_eq hreads hplaces]
    exact hstores.items hs h.countable hq hreads hplaces hdocuments
  · have hpage : ∀ (offset : Nat) {n : Int}, -1 ≤ n →
        (effect (find α (c.page offset n)) i).1 =
          .ok ((c.page offset n).pageOf i.schema i.config.zone entities) := by
      intro offset n hn
      rw [h.find hkeyed hdistinct (Criteria.compile_page hq offset hn)]
      exact if_pos hdecides
    have hall : ((c.pages 0 sizes).mapM fun p => (effect (find α p) i).1.map FilterResult.items) =
        .ok ((c.pages 0 sizes).map fun p => (p.pageOf i.schema i.config.zone entities).items) := by
      refine mapM_of_forall₂ (List.forall₂_map_right_iff.mpr (List.forall₂_same.mpr fun p hp => ?_))
      obtain ⟨offset, size, rfl⟩ := Criteria.mem_pages hp
      rw [hpage offset (by omega)]
      rfl
    have hlength : (sortBy (c.order i.schema) (c.matching i.schema i.config.zone entities)).length ≤
        sizes.sum := (sortBy_perm_self _ _).length_eq.trans_le hsizes
    rw [hall, hpage 0 (by omega)]
    show Except.ok (List.flatten _) = Except.ok _
    rw [← List.flatMap_def, Criteria.flatMap_pages, List.drop_zero, List.take_of_length_le hlength]
    rfl

end Index
end

/-- An item with a count or without one. -/
def countedItem (id : String) (count : Option Int) : Item where
  id := id
  count := count
  name := none
  price := none
  flag := none
  due := none
  seen := none
  level := none
  left := none
  right := none
  note := none
  rank := none
  broken := none
  tags := []

/-- The second of the items by their counts, the greatest first. -/
def secondByCount : Criteria where
  sortKey := some "count"
  sortOrder := .descending
  offset := 1
  count := 1

/-- Two items are found in the order of their counts, wherever the index has them. -/
theorem Index.find_eq_pageOf_of_items :
    ∃ i : Index, Index.stocked [countedItem "b" none, countedItem "a" (some 2)] = .ok i ∧
      (effect (Index.find Item secondByCount) i).1 =
        .ok { items := [countedItem "b" none], countByFilter := 2, totalCount := 2 } := by
  refine ⟨_, rfl, ?_⟩
  have hrecalled : Document.recalled [countedItem "b" none, countedItem "a" (some 2)] =
      .ok [countedItem "b" none, countedItem "a" (some 2)] := by decide +kernel
  obtain ⟨g, hg⟩ := Index.contains_stocked rfl hrecalled (by decide)
  obtain ⟨hfind, -⟩ := Index.find_eq_pageOf hg (by decide +kernel) (by decide +kernel)
    (rfl : Index.compile _ secondByCount = .ok _)
  rw [hfind, if_pos (by decide +kernel), Criteria.pageOf,
    show secondByCount.matching _ _ [countedItem "b" none, countedItem "a" (some 2)] =
      [countedItem "b" none, countedItem "a" (some 2)] by decide +kernel,
    sortBy_perm (List.Perm.swap _ _ []) (by decide +kernel), sortBy_of_pairwise (by decide +kernel)]
  rfl

end Codebook
