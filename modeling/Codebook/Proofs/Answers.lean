/-
# Answers do not depend on the order of documents

Two indexes that mirror the same store hold the same documents, though perhaps in different orders.
Which documents match does not depend on where they stand, and neither does their order in a result:
every order ends with the primary key, and no two documents share one. So both give the same answer
to every question.

Key definitions: `Untied`, `Index.Agree`.
Key theorems: `Generation.find_perm`, `Mirrors.untied`, `Index.answer_find`, `Index.Agree.find`,
`Index.Agree.count`, `Index.Agree.findById`.
-/
import Codebook.Index.Find
import Codebook.Proofs.Effect
import Codebook.Proofs.Keys
import Codebook.Proofs.Meaning
import Codebook.Proofs.Window

namespace Codebook

/-! ### Contents -/

/-- The keys tell all documents apart. -/
def Untied (keys : List ColumnKey) (documents : List Document) : Prop :=
  ∀ d ∈ documents, ∀ e ∈ documents, compareDocuments keys d e = .eq → d = e

/-- The first rows show the first of the documents in order, wherever the rows have their places. -/
theorem Window.map_first {keys : List ColumnKey} {limit : Option Nat} {rows : List Row}
    {documents : List Document} (hrows : ∀ a ∈ rows, a.Reads keys)
    (hplaces : ∀ a ∈ rows, ∀ b ∈ rows, a.place = b.place → a = b)
    (hdocuments : (rows.map Row.document).Perm documents) (h : Untied keys documents) :
    (Window.first keys limit rows).map Row.document =
      (sortBy (compareDocuments keys) documents).take (limit.getD documents.length) := by
  rw [first_eq hrows hplaces, List.map_take, ← hdocuments.length_eq, List.length_map]
  congr 1
  -- both sides are the documents in order, and no two of them tie
  have hperm := ((sortBy_perm_self (Row.order keys) rows).map Row.document).trans hdocuments
  refine (hperm.trans (sortBy_perm_self _ _).symm).eq_of_pairwise (fun d e hd he hde hed => ?_)
    (List.pairwise_map.mpr ((pairwise_sortBy _ _).imp fun hle => ?_)) (pairwise_sortBy _ _)
  · have hd := hperm.subset hd
    have he := (sortBy_perm_self _ _).subset he
    exact h d hd e he (Std.OrientedCmp.isLE_antisymm hde hed)
  · exact Ordering.isLE_left_of_isLE_then hle

namespace Generation

variable {g g' : Generation} {q : Query} {keys : List ColumnKey} {limit : Option Nat}

theorem canRun_congr (h : g.layout = g'.layout) (q : Query) : g.canRun q = g'.canRun q := by
  unfold canRun
  rw [h]

theorem map_selected (g : Generation) (q : Query) :
    (g.selected q).map Prod.fst = g.documents.filter q.selects := by
  have hcomp : (fun x : Document × Nat => q.selects x.1) = (fun d => q.selects d) ∘ Prod.fst := rfl
  rw [selected, hcomp, ← List.filter_map, List.zipIdx_map_fst]

theorem map_rows (g : Generation) (q : Query) (keys : List ColumnKey) :
    (g.rows q keys).map Row.document = g.documents.filter q.selects := by
  rw [← map_selected, rows, List.map_map]
  rfl

theorem reads_of_mem_rows {row : Row} (h : row ∈ g.rows q keys) : row.Reads keys := by
  obtain ⟨x, -, rfl⟩ := List.mem_map.mp h
  rfl

theorem eq_of_place {a b : Row} (ha : a ∈ g.rows q keys) (hb : b ∈ g.rows q keys)
    (h : a.place = b.place) : a = b := by
  obtain ⟨⟨d, m⟩, hd, rfl⟩ := List.mem_map.mp ha
  obtain ⟨⟨e, n⟩, he, rfl⟩ := List.mem_map.mp hb
  obtain rfl : m = n := h
  have hd := List.mem_zipIdx' (List.mem_filter.mp hd).1
  have he := List.mem_zipIdx' (List.mem_filter.mp he).1
  obtain rfl : d = e := hd.2.trans he.2.symm
  rfl

/-- The first rows show the first of the selected documents in order. -/
theorem map_first (h : Untied keys g.documents) :
    (Window.first keys limit (g.rows q keys)).map Row.document =
      (sortBy (compareDocuments keys) (g.documents.filter q.selects)).take
        (limit.getD (g.documents.filter q.selects).length) :=
  Window.map_first (fun _ => reads_of_mem_rows) (fun _ ha _ hb => eq_of_place ha hb)
    (by rw [map_rows]) fun d hd e he => h d (List.mem_of_mem_filter hd) e (List.mem_of_mem_filter he)

theorem count_perm (hlayout : g.layout = g'.layout) (hperm : g.documents.Perm g'.documents)
    (c : Compiled) : g.count c = g'.count c := by
  have hlength : (g.selected c.executable).length = (g'.selected c.executable).length := by
    have hmap := ((hperm.filter c.executable.selects).length_eq)
    rw [← map_selected, ← map_selected, List.length_map, List.length_map] at hmap
    exact hmap
  unfold count
  rw [canRun_congr hlayout, hlength]

/-- The entities of rows, but for the first ones. -/
def itemsOf (α : Type) [Indexed α] (s : Schema) (offset : Nat) (rows : List Row) :
    Except IndexError (List α) :=
  ((rows.map Row.document).drop offset).mapM (Document.decode α s)

theorem itemsOf_perm {α : Type} [Indexed α] {s : Schema} (hperm : g.documents.Perm g'.documents)
    (h : Untied keys g.documents) (offset : Nat) (limit : Option Nat) :
    itemsOf α s offset (Window.first keys limit (g.rows q keys)) =
      itemsOf α s offset (Window.first keys limit (g'.rows q keys)) := by
  have h' : Untied keys g'.documents := fun d hd e he =>
    h d (hperm.symm.subset hd) e (hperm.symm.subset he)
  have hfilter := hperm.filter q.selects
  have hsort : sortBy (compareDocuments keys) (g.documents.filter q.selects) =
      sortBy (compareDocuments keys) (g'.documents.filter q.selects) :=
    sortBy_perm hfilter fun d hd e he => h d (List.mem_of_mem_filter hd) e (List.mem_of_mem_filter he)
  unfold itemsOf
  rw [map_first h, map_first h', hsort, hfilter.length_eq]

theorem find_eq {α : Type} [Indexed α] {s : Schema} {c : Compiled} (offset : Nat)
    (limit : Option Nat) : g.find α s c offset limit = do
      let countByFilter ← g.count c
      if limit = some 0 then return { items := [], countByFilter, totalCount := g.size }
      let keys := c.sort.map ColumnKey.sorting
      let items ← itemsOf α s offset (Window.first keys
        (limit.map fun limit => min (offset + limit) maxCount) (g.rows c.executable keys))
      return { items, countByFilter, totalCount := g.size } := by
  unfold find count search
  split_ifs with hrun hnone
  · rfl
  · simp only [itemsOf, ← List.map_drop, List.mapM_map]
    rfl
  · rfl
  · rfl

/-- The page that criteria ask for does not depend on the order of the documents. -/
theorem find_perm {α : Type} [Indexed α] {s : Schema} {c : Compiled}
    (hlayout : g.layout = g'.layout) (hperm : g.documents.Perm g'.documents)
    (h : Untied (c.sort.map ColumnKey.sorting) g.documents) (offset : Nat) (limit : Option Nat) :
    g.find α s c offset limit = g'.find α s c offset limit := by
  have hsize : g.size = g'.size := hperm.length_eq
  simp only [find_eq, count_perm hlayout hperm, itemsOf_perm hperm h, hsize]

end Generation

/-! ### The primary key in orders -/

section

variable {α : Type} [Indexed α] {s : Schema} {c : Criteria}

theorem Criteria.addSortKey_ok {keys keys' : List SortKey} {name : String} {descending : Bool}
    (h : addSortKey s keys name descending = .ok keys') :
    (∀ k ∈ keys', k ∈ keys ∨ ∃ column, s.column? k.name = some column ∧ k.kind = column.kind) ∧
      ∃ k ∈ keys', k.name = name := by
  obtain ⟨f, hf, h⟩ := bind_eq_ok.mp h
  obtain ⟨column, hcolumn, h⟩ := bind_eq_ok.mp h
  have hcol := Schema.column_ok hcolumn
  have hname : column.name = name := by
    rw [← (Schema.sortable_ok hf).1]
    simpa using List.find?_some hcol
  split_ifs at h with hany
  · cases h
    obtain ⟨k, hk, hkname⟩ := List.any_eq_true.mp hany
    exact ⟨fun k hk => .inl hk, k, hk, (by simpa using hkname : k.name = column.name).trans hname⟩
  · cases h
    refine ⟨fun k hk => ?_, _, List.mem_append_right _ (List.mem_singleton_self _), hname⟩
    rcases List.mem_append.mp hk with hk | hk
    · exact .inl hk
    · obtain rfl := List.mem_singleton.mp hk
      exact .inr ⟨column, by rwa [hname, ← (Schema.sortable_ok hf).1], rfl⟩

/-- Every order has the primary key among its keys, as the kind of its column has it. -/
theorem Criteria.primaryKey_mem_sortKeys {keys : List SortKey} (h : c.sortKeys s = .ok keys) :
    ∃ k ∈ keys, k.name = s.primaryKey.name ∧
      ∃ column, s.column? k.name = some column ∧ k.kind = column.kind := by
  have hlast : ∃ before, addSortKey s before s.primaryKey.name false = .ok keys ∧
      ∀ k ∈ before, ∃ column, s.column? k.name = some column ∧ k.kind = column.kind := by
    unfold sortKeys at h
    split at h
    · obtain ⟨before, hbefore, h⟩ := bind_eq_ok.mp h
      exact ⟨before, h, fun k hk => ((addSortKey_ok hbefore).1 k hk).resolve_left (by simp)⟩
    · obtain ⟨before, hbefore, h⟩ := bind_eq_ok.mp h
      exact ⟨before, h, fun k hk => ((addSortKey_ok hbefore).1 k hk).resolve_left (by simp)⟩
    · exact ⟨[], h, by simp⟩
  obtain ⟨before, hlast, hbefore⟩ := hlast
  obtain ⟨hall, k, hk, hname⟩ := addSortKey_ok hlast
  exact ⟨k, hk, hname, (hall k hk).elim (hbefore k) id⟩

/-- The primary key tells the documents of a mirror apart. -/
theorem Mirrors.untied (hs : s.KeyedBy α) {documents : List Document} {entity? : String → Option α}
    (h : Mirrors s documents entity?) {keys : List SortKey} (hkeys : c.sortKeys s = .ok keys) :
    Untied (keys.map ColumnKey.sorting) documents := by
  intro d hd e he htie
  obtain ⟨k, hk, hname, column, hcolumn, hkind⟩ := Criteria.primaryKey_mem_sortKeys hkeys
  have hstring : k.kind = .string := by
    rw [hkind, (hs.describes.column_kind hcolumn).2 _ List.mem_cons_self hname.symm, hs.describes.key]
  have hread : ∀ {a : α} {x : Document}, Document.Of s a x →
      (ColumnKey.sorting k).read x = .text (Indexed.id a) := by
    intro a x hx
    simp [ColumnKey.sorting, ColumnKey.read, hstring, Document.texts, hname, hx.cells hs]
  obtain ⟨a, ha⟩ := h.owned d hd
  obtain ⟨b, hb⟩ := h.owned e he
  have hsame := compareDocuments_eq htie (List.mem_map_of_mem hk)
  rw [hread ha, hread hb] at hsame
  have hid : Indexed.id a = Indexed.id b :=
    Std.LawfulEqOrd.compare_eq_iff_eq.mp hsame
  exact h.unique hd he ((ha.hasKey hs _).mpr rfl) ((hb.hasKey hs _).mpr hid.symm)

end

/-! ### Answers -/

namespace Index

variable {α : Type} [Indexed α] {i j : Index} {l l' : Live} {c : Criteria}

theorem effect_searcher (hl : i.live = some l) : effect searcher i = (.ok l.content, i) := by
  unfold searcher
  rw [effect_bind_ok (effect_get i), hl]
  rfl

theorem answer_find (hl : i.live = some l) (c : Criteria) :
    (effect (find α c) i).1 = (i.compile c).bind fun compiled =>
      l.content.find α i.schema compiled c.offset c.limit? := by
  unfold find
  rw [effect_bind_ok (effect_get i)]
  cases hcompiled : i.compile c with
  | error e => exact congrArg Prod.fst (effect_bind_error (effect_lift _ i) _)
  | ok compiled =>
    rw [effect_bind_ok (effect_lift _ i), effect_bind_ok (effect_searcher hl), recordSearch,
      effect_bind_ok (effect_modify _ i), effect_lift]
    rfl

/-- A search changes nothing but a counter. -/
theorem find_state (α : Type) [Indexed α] (c : Criteria) (i : Index) :
    ∃ statistics, (effect (find α c) i).2 = { i with statistics } := by
  unfold find
  rw [effect_bind_ok (effect_get i), effect_bind, effect_lift]
  cases i.compile c with
  | error e => exact ⟨i.statistics, rfl⟩
  | ok q =>
    simp only
    rw [effect_bind]
    rcases Option.eq_none_or_eq_some i.live with hl | ⟨l, hl⟩
    · have hsearcher : effect searcher i = (.error (.closed i.name), i) := by
        unfold searcher
        rw [effect_bind_ok (effect_get i), hl]
        rfl
      rw [hsearcher]
      exact ⟨i.statistics, rfl⟩
    · have hrecord : effect recordSearch i =
          (.ok (), { i with statistics := i.statistics.recordSearch }) := rfl
      rw [effect_searcher hl]
      simp only
      rw [effect_bind_ok hrecord, effect_lift]
      exact ⟨i.statistics.recordSearch, rfl⟩

theorem find_name (α : Type) [Indexed α] (c : Criteria) (i : Index) :
    (effect (find α c) i).2.name = i.name := by
  obtain ⟨statistics, hstate⟩ := find_state α c i
  rw [hstate]
  rfl

theorem answer_count (hl : i.live = some l) (c : Criteria) :
    (effect (count c) i).1 = (i.compile c).bind l.content.count := by
  unfold count
  rw [effect_bind_ok (effect_get i)]
  cases hcompiled : i.compile c with
  | error e => exact congrArg Prod.fst (effect_bind_error (effect_lift _ i) _)
  | ok compiled =>
    rw [effect_bind_ok (effect_lift _ i), effect_bind_ok (effect_searcher hl), recordSearch,
      effect_bind_ok (effect_modify _ i), effect_lift]
    rfl

theorem answer_findById (id : String) (i : Index) :
    (effect (findById α id) i).1 = if Text.isBlank id then .ok none else
      (effect (find α (({ activity := .all : Criteria }.filter keyField (textFilter id)).page 0 1)) i).1.map
        fun result => result.items.head? := by
  unfold findById
  split_ifs
  · rfl
  · exact congrArg Prod.fst (effect_bind_pure _ _ i)

/-- The indexes show the same documents of the entities, perhaps in different orders. -/
structure Agree (α : Type) [Indexed α] (i j : Index) (l l' : Live) : Prop where
  live : i.live = some l
  live' : j.live = some l'
  schema : j.schema = i.schema
  zone : j.config.zone = i.config.zone
  layout : l.content.layout = l'.content.layout
  perm : l.content.documents.Perm l'.content.documents
  keyed : i.schema.KeyedBy α
  mirrors : ∃ entity? : String → Option α, Mirrors i.schema l.content.documents entity?

namespace Agree

theorem compile (h : Agree α i j l l') (c : Criteria) : j.compile c = i.compile c := by
  rw [Index.compile, Index.compile, h.schema, h.zone]

theorem find (h : Agree α i j l l') (c : Criteria) :
    (effect (find α c) i).1 = (effect (find α c) j).1 := by
  rw [answer_find h.live, answer_find h.live', h.compile, h.schema]
  cases hcompiled : i.compile c with
  | error e => rfl
  | ok compiled =>
    obtain ⟨entity?, hmirrors⟩ := h.mirrors
    have huntied := hmirrors.untied h.keyed (Criteria.compile_ok hcompiled).2.1
    exact Generation.find_perm h.layout h.perm huntied c.offset c.limit?

theorem count (h : Agree α i j l l') (c : Criteria) :
    (effect (count c) i).1 = (effect (count c) j).1 := by
  have hcount : l.content.count = l'.content.count :=
    funext (Generation.count_perm h.layout h.perm)
  rw [answer_count h.live, answer_count h.live', h.compile, hcount]

theorem findById (h : Agree α i j l l') (id : String) :
    (effect (findById α id) i).1 = (effect (findById α id) j).1 := by
  rw [answer_findById, answer_findById, h.find]

end Agree
end Index
end Codebook
