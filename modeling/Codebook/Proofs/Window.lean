/-
# The first rows in order

Values of keys are in a total order, so documents are, too, up to ties, and rows without ties, since
a tie is decided by their places. A window drops only rows that have as many rows before them as are
wanted, so what it shows in the end is the beginning of all rows in order: it does not matter in
which order they came, nor what was dropped on the way, nor how they were divided among several
windows.

Key definitions: `sortBy`, `compareDocuments`, `compareValues`, `Row.Reads`, `Row.Filled`.
Key theorems: `take_sortBy_cons`, `sortBy_perm`, `sortBy_filter`, `Window.first_eq_take`,
`Window.merge_eq_first`, `Window.first_eq`, `Window.merge_eq`.
-/
import Codebook.Generation
import Mathlib.Data.List.Forall2
import Mathlib.Data.List.Perm.Basic
import Mathlib.Data.List.Sort

namespace Codebook

/-! ### Sorting -/

section

variable {α β : Type} {cmp : α → α → Ordering} {cmp' : β → β → Ordering}

/-- A list in order. -/
def sortBy (cmp : α → α → Ordering) (l : List α) : List α :=
  l.mergeSort fun a b => (cmp a b).isLE

variable {a b : α} {l l' : List α} {n : Nat}

theorem sortBy_perm_self (cmp : α → α → Ordering) (l : List α) : (sortBy cmp l).Perm l :=
  List.mergeSort_perm l _

theorem sortBy_of_pairwise (h : l.Pairwise fun a b => (cmp a b).isLE) : sortBy cmp l = l :=
  List.mergeSort_of_pairwise h

/-- Lists that correspond still do when they are put in order, if the orders correspond. -/
theorem forall₂_sortBy {r : α → β → Prop} {m : List β} (h : List.Forall₂ r l m)
    (hcmp : ∀ a b, r a b → ∀ a' b', r a' b' → cmp a a' = cmp' b b') :
    List.Forall₂ r (sortBy cmp l) (sortBy cmp' m) := by
  obtain ⟨hlength, hzip⟩ := List.forall₂_iff_zip.mp h
  -- the pairs are sorted once, and both lists are what the sorted pairs have on their sides
  have hfst : (l.zip m).map Prod.fst = l := List.map_fst_zip (by omega)
  have hsnd : (l.zip m).map Prod.snd = m := List.map_snd_zip (by omega)
  let le : α × β → α × β → Bool := fun p q => (cmp p.1 q.1).isLE
  have hleft : ((l.zip m).mergeSort le).map Prod.fst = sortBy cmp l := by
    have hmap := List.map_mergeSort (f := Prod.fst) (r := le) (s := fun a b => (cmp a b).isLE)
      (l := l.zip m) fun p _ q _ => rfl
    rw [hmap, hfst, sortBy]
  have hright : ((l.zip m).mergeSort le).map Prod.snd = sortBy cmp' m := by
    have hmap := List.map_mergeSort (f := Prod.snd) (r := le) (s := fun a b => (cmp' a b).isLE)
      (l := l.zip m) fun p hp q hq => by
        show (cmp p.1 q.1).isLE = _
        rw [hcmp _ _ (hzip hp) _ _ (hzip hq)]
    rw [hmap, hsnd, sortBy]
  have hpairs : ∀ p ∈ (l.zip m).mergeSort le, r p.1 p.2 := fun p hp =>
    hzip ((List.mergeSort_perm _ _).subset hp)
  rw [← hleft, ← hright, List.forall₂_map_left_iff, List.forall₂_map_right_iff, List.forall₂_same]
  exact hpairs

variable [Std.TransCmp cmp]

/-- What is compared by something of it is in the order of that. -/
theorem transCmp_comap {γ : Type} (cmp : α → α → Ordering) [Std.TransCmp cmp] (f : γ → α) :
    Std.TransCmp fun a b => cmp (f a) (f b) where
  eq_swap := Std.OrientedCmp.eq_swap
  isLE_trans := Std.TransCmp.isLE_trans

theorem isLE_total (cmp : α → α → Ordering) [Std.TransCmp cmp] (a b : α) :
    ((cmp a b).isLE || (cmp b a).isLE) = true := by
  have hswap : cmp b a = (cmp a b).swap := Std.OrientedCmp.eq_swap
  rw [hswap]
  cases cmp a b <;> rfl

theorem pairwise_sortBy (cmp : α → α → Ordering) [Std.TransCmp cmp] (l : List α) :
    (sortBy cmp l).Pairwise fun a b => (cmp a b).isLE :=
  List.pairwise_mergeSort (fun _ _ _ => Std.TransCmp.isLE_trans) (isLE_total cmp) l

theorem orderedInsert_append {r : α → α → Prop} [DecidableRel r] :
    ∀ {before after : List α}, (∀ b ∈ before, ¬ r a b) → (∀ b ∈ after, r a b) →
      (before ++ after).orderedInsert r a = before ++ a :: after
  | [], [], _, _ => rfl
  | [], b :: after, _, h => List.orderedInsert_cons_of_le r after (h b List.mem_cons_self)
  | b :: before, after, h, h' => by
    rw [List.cons_append, List.orderedInsert_of_not_le r _ (h b List.mem_cons_self),
      orderedInsert_append (fun c hc => h c (List.mem_cons_of_mem _ hc)) h']
    rfl

/-- An item goes to its place among the others in order. -/
theorem sortBy_cons (a : α) (l : List α) :
    sortBy cmp (a :: l) = (sortBy cmp l).orderedInsert (fun a b => (cmp a b).isLE) a := by
  obtain ⟨before, after, hcons, hrest, hbefore⟩ :=
    List.mergeSort_cons (fun _ _ _ => Std.TransCmp.isLE_trans) (isLE_total cmp) a l
  have hsorted := pairwise_sortBy cmp (a :: l)
  unfold sortBy at hsorted ⊢
  rw [hcons] at hsorted ⊢
  rw [hrest]
  have hafter := (List.pairwise_cons.mp (List.pairwise_append.mp hsorted).2.1).1
  exact (orderedInsert_append (fun b hb => by simpa using hbefore b hb) hafter).symm

/-- What is behind the first `n` does not come before place `n` when an item is let in. -/
theorem take_orderedInsert {r : α → α → Prop} [DecidableRel r] (a : α) : ∀ (n : Nat) (l : List α),
    (l.orderedInsert r a).take n = ((l.take n).orderedInsert r a).take n
  | 0, _ => by simp
  | n + 1, [] => by simp
  | n + 1, b :: l => by
    rw [List.take_succ_cons]
    by_cases hab : r a b
    · rw [List.orderedInsert_cons_of_le r _ hab, List.orderedInsert_cons_of_le r _ hab,
        List.take_succ_cons, List.take_succ_cons]
      cases n with
      | zero => rfl
      | succ n => simp [List.take_take]
    · rw [List.orderedInsert_of_not_le r _ hab, List.orderedInsert_of_not_le r _ hab,
        List.take_succ_cons, List.take_succ_cons, take_orderedInsert a n l]

/-- If the first `n` are the same, they are still the same when an item is let in. -/
theorem take_sortBy_cons (a : α) (h : (sortBy cmp l).take n = (sortBy cmp l').take n) :
    (sortBy cmp (a :: l)).take n = (sortBy cmp (a :: l')).take n := by
  rw [sortBy_cons, sortBy_cons, take_orderedInsert, h, ← take_orderedInsert]

/-- Sorting forgets the order, unless there are ties. -/
theorem sortBy_perm (hl : l.Perm l') (hties : ∀ a ∈ l, ∀ b ∈ l, cmp a b = .eq → a = b) :
    sortBy cmp l = sortBy cmp l' := by
  have hperm := ((sortBy_perm_self cmp l).trans hl).trans (sortBy_perm_self cmp l').symm
  refine hperm.eq_of_pairwise (fun a b ha hb hab hba => ?_) (pairwise_sortBy cmp l)
    (pairwise_sortBy cmp l')
  have hal := (sortBy_perm_self cmp l).subset ha
  have hbl := hl.symm.subset ((sortBy_perm_self cmp l').subset hb)
  exact hties a hal b hbl (Std.OrientedCmp.isLE_antisymm hab hba)

/-- What is taken out of a list in order is in order. -/
theorem sortBy_filter (p : α → Bool) (hties : ∀ a ∈ l, ∀ b ∈ l, cmp a b = .eq → a = b) :
    sortBy cmp (l.filter p) = (sortBy cmp l).filter p := by
  have hsorted := (pairwise_sortBy cmp l).sublist (List.filter_sublist (p := p))
  rw [← sortBy_of_pairwise hsorted]
  refine sortBy_perm ((sortBy_perm_self cmp l).symm.filter p) fun a ha b hb => ?_
  exact hties a (List.mem_of_mem_filter ha) b (List.mem_of_mem_filter hb)

/-- Only the first `n` of some items matter for the first `n` of all. -/
theorem take_sortBy_append (before : List α)
    (h : (sortBy cmp l).take n = (sortBy cmp l').take n) :
    (sortBy cmp (before ++ l)).take n = (sortBy cmp (before ++ l')).take n := by
  induction before with
  | nil => exact h
  | cons a before ih => exact take_sortBy_cons a ih

/-- Two lots of items may be put in order in either order. -/
theorem sortBy_append_comm (hties : ∀ a ∈ l ++ l', ∀ b ∈ l ++ l', cmp a b = .eq → a = b) :
    sortBy cmp (l ++ l') = sortBy cmp (l' ++ l) :=
  sortBy_perm List.perm_append_comm hties

/-- The first `n` of several lots are among the first `n` of each. -/
theorem take_sortBy_flatMap (n : Nat) : ∀ {parts : List (List α)},
    (∀ a ∈ parts.flatten, ∀ b ∈ parts.flatten, cmp a b = .eq → a = b) →
      (sortBy cmp (parts.flatMap fun part => (sortBy cmp part).take n)).take n =
        (sortBy cmp parts.flatten).take n
  | [], _ => rfl
  | part :: parts, hties => by
    have hcut : (sortBy cmp ((sortBy cmp part).take n)).take n = (sortBy cmp part).take n := by
      have hsorted := (pairwise_sortBy cmp part).sublist (List.take_sublist n _)
      rw [sortBy_of_pairwise hsorted, List.take_take, Nat.min_self]
    have hkept : (sortBy cmp part).take n ++ parts.flatten ⊆ part ++ parts.flatten := by
      intro a ha
      rcases List.mem_append.mp ha with ha | ha
      · exact List.mem_append_left _ ((sortBy_perm_self cmp part).subset (List.mem_of_mem_take ha))
      · exact List.mem_append_right _ ha
    have hties' : ∀ a ∈ (sortBy cmp part).take n ++ parts.flatten,
        ∀ b ∈ (sortBy cmp part).take n ++ parts.flatten, cmp a b = .eq → a = b :=
      fun a ha b hb => hties a (hkept ha) b (hkept hb)
    have hrest := take_sortBy_flatMap n fun a ha b hb =>
      hties a (List.mem_append_right _ ha) b (List.mem_append_right _ hb)
    calc (sortBy cmp ((sortBy cmp part).take n ++
            parts.flatMap fun part => (sortBy cmp part).take n)).take n
        = (sortBy cmp ((sortBy cmp part).take n ++ parts.flatten)).take n :=
          take_sortBy_append _ hrest
      _ = (sortBy cmp (parts.flatten ++ (sortBy cmp part).take n)).take n := by
          rw [sortBy_append_comm hties']
      _ = (sortBy cmp (parts.flatten ++ part)).take n := take_sortBy_append _ hcut
      _ = (sortBy cmp (part ++ parts.flatten)).take n := by
          rw [sortBy_append_comm hties]

end

/-! ### Values and documents -/

namespace SortValue

instance : Std.OrientedCmp SortValue.compare where
  eq_swap {a b} := by
    cases a <;> cases b <;> simp [SortValue.compare, ← Std.OrientedOrd.eq_swap]

instance : Std.TransCmp SortValue.compare where
  isLE_trans {a b c} hab hbc := by
    cases a <;> cases b <;> cases c <;> simp_all [SortValue.compare] <;>
      exact Std.TransOrd.isLE_trans hab hbc

end SortValue

/-- The order of values by one key. -/
def ColumnKey.compareValues (k : ColumnKey) (a b : SortValue) : Ordering :=
  if k.descending then (a.compare b).swap else a.compare b

instance (k : ColumnKey) : Std.OrientedCmp k.compareValues where
  eq_swap {a b} := by
    unfold ColumnKey.compareValues
    have hswap : a.compare b = (b.compare a).swap := Std.OrientedCmp.eq_swap
    rw [hswap]
    split_ifs <;> rfl

instance (k : ColumnKey) : Std.TransCmp k.compareValues where
  isLE_trans {a b c} hab hbc := by
    unfold ColumnKey.compareValues at hab hbc ⊢
    split_ifs at hab hbc ⊢
    · rw [← Std.OrientedCmp.eq_swap] at hab hbc ⊢
      exact Std.TransCmp.isLE_trans hbc hab
    · exact Std.TransCmp.isLE_trans hab hbc

/-- The order of lists of values by keys, in which a value that is not there is missing. -/
def compareValues : List ColumnKey → List SortValue → List SortValue → Ordering
  | [], _, _ => .eq
  | k :: keys, as, bs =>
    compareLex (fun as bs => k.compareValues (as.headD .missing) (bs.headD .missing))
      (fun as bs => compareValues keys as.tail bs.tail) as bs

theorem transCmp_compareValues : ∀ keys : List ColumnKey, Std.TransCmp (compareValues keys)
  | [] => { eq_swap := rfl, isLE_trans := fun _ _ => rfl }
  | k :: keys =>
    have := transCmp_compareValues keys
    have := transCmp_comap k.compareValues fun as : List SortValue => as.headD .missing
    have := transCmp_comap (compareValues keys) (List.tail (α := SortValue))
    inferInstanceAs (Std.TransCmp (compareLex _ _))

instance (keys : List ColumnKey) : Std.TransCmp (compareValues keys) :=
  transCmp_compareValues keys

theorem compareRows_eq_compareValues : ∀ {keys : List ColumnKey} {as bs : List SortValue},
    keys.length ≤ as.length → keys.length ≤ bs.length →
      compareRows keys as bs = compareValues keys as bs
  | [], _, _, _, _ => rfl
  | k :: keys, a :: as, b :: bs, ha, hb => by
    rw [compareRows, compareRows_eq_compareValues (Nat.le_of_succ_le_succ ha) (Nat.le_of_succ_le_succ hb)]
    rfl

/-- The order of documents by one key. -/
def ColumnKey.compare (k : ColumnKey) (d e : Document) : Ordering :=
  if k.descending then ((k.read d).compare (k.read e)).swap else (k.read d).compare (k.read e)

instance (k : ColumnKey) : Std.TransCmp k.compare :=
  transCmp_comap k.compareValues k.read

/-- The order of documents by keys, the most significant key first. -/
def compareDocuments : List ColumnKey → Document → Document → Ordering
  | [], _, _ => .eq
  | k :: keys, d, e => compareLex k.compare (compareDocuments keys) d e

theorem transCmp_compareDocuments : ∀ keys : List ColumnKey, Std.TransCmp (compareDocuments keys)
  | [] => { eq_swap := rfl, isLE_trans := fun _ _ => rfl }
  | k :: keys =>
    have := transCmp_compareDocuments keys
    inferInstanceAs (Std.TransCmp (compareLex k.compare (compareDocuments keys)))

instance (keys : List ColumnKey) : Std.TransCmp (compareDocuments keys) :=
  transCmp_compareDocuments keys

theorem compareRows_read (d e : Document) : ∀ keys : List ColumnKey,
    compareRows keys (keys.map (·.read d)) (keys.map (·.read e)) = compareDocuments keys d e
  | [] => rfl
  | k :: keys => by
    rw [List.map_cons, List.map_cons, compareRows, compareRows_read d e keys]
    rfl

/-- Documents that no key tells apart have the same value under every key. -/
theorem compareDocuments_eq {d e : Document} {k : ColumnKey} : ∀ {keys : List ColumnKey},
    compareDocuments keys d e = .eq → k ∈ keys → (k.read d).compare (k.read e) = .eq
  | k' :: keys, h, hk => by
    obtain ⟨hfirst, hrest⟩ := Ordering.then_eq_eq.mp (h : (k'.compare d e).then _ = .eq)
    rcases List.mem_cons.mp hk with rfl | hk
    · unfold ColumnKey.compare at hfirst
      split_ifs at hfirst
      · simpa using hfirst
      · exact hfirst
    · exact compareDocuments_eq hrest hk

/-! ### Rows -/

namespace Row

/-- The row has the values of its document. -/
def Reads (keys : List ColumnKey) (row : Row) : Prop :=
  row.values = keys.map fun k => k.read row.document

/-- The order of rows that have the values of their documents. -/
def order (keys : List ColumnKey) : Row → Row → Ordering :=
  compareLex (fun a b => compareDocuments keys a.document b.document) (compareOn Row.place)

instance (keys : List ColumnKey) : Std.TransCmp (order keys) :=
  have := transCmp_comap (compareDocuments keys) Row.document
  inferInstanceAs (Std.TransCmp (compareLex _ _))

/-- The row has a value for each key. -/
def Filled (keys : List ColumnKey) (row : Row) : Prop :=
  keys.length ≤ row.values.length

instance (keys : List ColumnKey) (row : Row) : Decidable (row.Filled keys) :=
  inferInstanceAs (Decidable (_ ≤ _))

/-- The order of rows that have a value for each key. -/
def ranking (keys : List ColumnKey) : Row → Row → Ordering :=
  compareLex (fun a b => compareValues keys a.values b.values) (compareOn Row.place)

instance (keys : List ColumnKey) : Std.TransCmp (ranking keys) :=
  have := transCmp_comap (compareValues keys) Row.values
  inferInstanceAs (Std.TransCmp (compareLex _ _))

variable {keys : List ColumnKey} {a b : Row} {rows : List Row}

theorem Reads.filled (h : a.Reads keys) : a.Filled keys := by
  simp [Filled, show a.values = _ from h]

theorem compare_eq_ranking (ha : a.Filled keys) (hb : b.Filled keys) :
    Row.compare keys a b = ranking keys a b := by
  rw [Row.compare, compareRows_eq_compareValues ha hb]
  rfl

theorem place_of_ranking (h : ranking keys a b = .eq) : a.place = b.place :=
  Std.LawfulEqCmp.eq_of_compare (Ordering.then_eq_eq.mp
    (h : (compareValues keys _ _).then (compareOn Row.place a b) = .eq)).2

theorem compare_eq_order (ha : a.Reads keys) (hb : b.Reads keys) :
    Row.compare keys a b = order keys a b := by
  rw [Row.compare, ha, hb, compareRows_read]
  rfl

end Row

/-- Rows are put in order by any comparison that agrees on them with theirs. -/
theorem sortRows_eq_sortBy {keys : List ColumnKey} {rows : List Row} {cmp : Row → Row → Ordering}
    (h : ∀ a ∈ rows, ∀ b ∈ rows, Row.compare keys a b = cmp a b) :
    sortRows keys rows = sortBy cmp rows := by
  have hle : ∀ o : Ordering, (o != .gt) = o.isLE := fun o => by cases o <;> rfl
  simp only [sortRows, sortBy, hle]
  simpa using List.map_mergeSort (f := id) (s := fun a b => (cmp a b).isLE)
    fun a ha b hb => congrArg Ordering.isLE (h a ha b hb)

theorem sortRows_eq {keys : List ColumnKey} {rows : List Row} (h : ∀ a ∈ rows, a.Reads keys) :
    sortRows keys rows = sortBy (Row.order keys) rows :=
  sortRows_eq_sortBy fun a ha b hb => Row.compare_eq_order (h a ha) (h b hb)

theorem sortRows_of_filled {keys : List ColumnKey} {rows : List Row} (h : ∀ a ∈ rows, a.Filled keys) :
    sortRows keys rows = sortBy (Row.ranking keys) rows :=
  sortRows_eq_sortBy fun a ha b hb => Row.compare_eq_ranking (h a ha) (h b hb)

/-! ### Windows -/

namespace Window

variable {keys : List ColumnKey} {n : Nat} {w : Window} {seen rows : List Row}

/-- The window has let these rows in: it holds some of them, among which are the first `n`. -/
structure Holds (keys : List ColumnKey) (n : Nat) (seen : List Row) (w : Window) : Prop where
  same : w.keys = keys
  limit : w.limit = some n
  filled : ∀ a ∈ w.rows, a.Filled keys
  first : (sortBy (Row.ranking keys) w.rows).take n = (sortBy (Row.ranking keys) seen).take n

theorem Holds.shrink (h : Holds keys n seen w) : Holds keys n seen (w.shrink n) := by
  unfold Window.shrink
  split_ifs
  · exact h
  · have hsort : sortRows w.keys w.rows = sortBy (Row.ranking keys) w.rows := by
      rw [h.same, sortRows_of_filled h.filled]
    refine ⟨h.same, h.limit, fun a ha => ?_, ?_⟩
    · rw [hsort] at ha
      exact h.filled a ((sortBy_perm_self _ _).subset (List.mem_of_mem_take ha))
    · have hsorted := (pairwise_sortBy (Row.ranking keys) w.rows).sublist (List.take_sublist n _)
      rw [hsort, sortBy_of_pairwise hsorted, List.take_take, Nat.min_self, h.first]

theorem Holds.push (h : Holds keys n seen w) {row : Row} (hrow : row.Filled keys) :
    Holds keys n (row :: seen) (w.push row) := by
  -- the row goes in first, and only then is the window cut to size
  have hwider : Holds keys n (row :: seen) { w with rows := row :: w.rows } :=
    ⟨h.same, h.limit, List.forall_mem_cons.mpr ⟨hrow, h.filled⟩, take_sortBy_cons row h.first⟩
  have hlimit := h.limit
  unfold Window.push
  split
  · rename_i limit hsome
    obtain rfl : limit = n := Option.some.inj (hsome.symm.trans hlimit)
    show Holds keys limit _ (if _ then _ else _)
    split_ifs
    · exact hwider.shrink
    · exact hwider
  · exact hwider

theorem Holds.pushAll (h : Holds keys n seen w) (hrows : ∀ a ∈ rows, a.Filled keys) :
    Holds keys n (rows.reverse ++ seen) (rows.foldl Window.push w) := by
  induction rows generalizing w seen with
  | nil => exact h
  | cons row rows ih =>
    obtain ⟨hrow, hrest⟩ := List.forall_mem_cons.mp hrows
    rw [List.reverse_cons, List.append_assoc]
    exact ih (h.push hrow) hrest

theorem Holds.finish (h : Holds keys n seen w) :
    w.finish = (sortBy (Row.ranking keys) seen).take n := by
  have hshrunk := h.shrink
  have hlength : (sortBy (Row.ranking keys) (w.shrink n).rows).length ≤ n := by
    rw [(sortBy_perm_self _ _).length_eq]
    unfold Window.shrink
    split_ifs with hle
    · exact hle
    · exact List.length_take_le n _
  unfold Window.finish
  simp only [h.limit]
  rw [hshrunk.same, sortRows_of_filled hshrunk.filled, ← hshrunk.first, List.take_of_length_le hlength]

theorem foldl_push_all : ∀ (rows kept : List Row),
    rows.foldl Window.push { keys, limit := none, rows := kept } =
      { keys, limit := none, rows := rows.reverse ++ kept }
  | [], _ => rfl
  | row :: rows, kept => by
    rw [List.foldl_cons, List.reverse_cons, List.append_assoc]
    exact foldl_push_all rows (row :: kept)

theorem place_of_tie {a b : Row} (h : Row.order keys a b = .eq) : a.place = b.place :=
  Std.LawfulEqCmp.eq_of_compare (Ordering.then_eq_eq.mp
    (h : (compareDocuments keys _ _).then (compareOn Row.place a b) = .eq)).2

/-- **A window shows the first rows in order**, as many as are wanted. -/
theorem first_eq_take {limit : Option Nat} (hrows : ∀ a ∈ rows, a.Filled keys)
    (hplaces : ∀ a ∈ rows, ∀ b ∈ rows, a.place = b.place → a = b) :
    Window.first keys limit rows = (sortRows keys rows).take (limit.getD rows.length) := by
  have hreverse : sortBy (Row.ranking keys) rows.reverse = sortBy (Row.ranking keys) rows := by
    refine (sortBy_perm rows.reverse_perm.symm fun a ha b hb htie => ?_).symm
    exact hplaces a ha b hb (Row.place_of_ranking htie)
  unfold Window.first
  cases limit with
  | none =>
    have hfilled : ∀ a ∈ rows.reverse, a.Filled keys := fun a ha => hrows a (List.mem_reverse.mp ha)
    rw [foldl_push_all, List.append_nil, Window.finish, sortRows_of_filled hfilled, hreverse,
      sortRows_of_filled hrows]
    refine (List.take_of_length_le ?_).symm
    rw [(sortBy_perm_self _ _).length_eq]
    exact Nat.le_refl _
  | some n =>
    have hempty : Holds keys n [] { keys, limit := some n } := ⟨rfl, rfl, by simp, rfl⟩
    rw [(hempty.pushAll hrows).finish, List.append_nil, hreverse, sortRows_of_filled hrows]
    rfl

/-- **Windows that are brought together show what one window would have shown**, however the rows
were divided among them. -/
theorem merge_eq_first {limit : Option Nat} {parts : List (List Row)}
    (hrows : ∀ a ∈ parts.flatten, a.Filled keys)
    (hplaces : ∀ a ∈ parts.flatten, ∀ b ∈ parts.flatten, a.place = b.place → a = b) :
    Window.merge keys limit parts = Window.first keys limit parts.flatten := by
  have hties : ∀ a ∈ parts.flatten, ∀ b ∈ parts.flatten, Row.ranking keys a b = .eq → a = b :=
    fun a ha b hb htie => hplaces a ha b hb (Row.place_of_ranking htie)
  have hpart : ∀ part ∈ parts, Window.first keys limit part =
      (sortBy (Row.ranking keys) part).take (limit.getD part.length) := by
    intro part hpart
    have hsub : part ⊆ parts.flatten := fun a ha => List.mem_flatten.mpr ⟨part, hpart, ha⟩
    rw [← sortRows_of_filled fun a ha => hrows a (hsub ha)]
    exact first_eq_take (fun a ha => hrows a (hsub ha)) fun a ha b hb => hplaces a (hsub ha) b (hsub hb)
  have hparts : parts.flatMap (Window.first keys limit) =
      parts.flatMap fun part => (sortBy (Row.ranking keys) part).take (limit.getD part.length) := by
    rw [List.flatMap_def, List.flatMap_def, List.map_congr_left hpart]
  have hsub : (parts.flatMap (Window.first keys limit)) ⊆ parts.flatten := by
    intro a ha
    obtain ⟨part, hmem, ha⟩ := List.mem_flatMap.mp ha
    rw [hpart part hmem] at ha
    exact List.mem_flatten.mpr ⟨part, hmem,
      (sortBy_perm_self _ _).subset (List.mem_of_mem_take ha)⟩
  unfold Window.merge
  rw [first_eq_take (fun a ha => hrows a (hsub ha)) fun a ha b hb => hplaces a (hsub ha) b (hsub hb),
    first_eq_take hrows hplaces, sortRows_of_filled fun a ha => hrows a (hsub ha),
    sortRows_of_filled hrows, hparts]
  cases limit with
  | some n => exact take_sortBy_flatMap n hties
  | none =>
    have hall : parts.flatMap (fun part =>
        (sortBy (Row.ranking keys) part).take ((none : Option Nat).getD part.length)) =
        parts.flatMap (sortBy (Row.ranking keys)) := by
      congr 1
      funext part
      exact List.take_of_length_le (sortBy_perm_self _ _).length_eq.le
    have hperm : (parts.flatMap (sortBy (Row.ranking keys))).Perm parts.flatten := by
      rw [← List.flatMap_id]
      exact List.Perm.flatMap_left parts fun part _ => sortBy_perm_self _ part
    rw [hall, ← sortBy_perm hperm.symm hties]
    simp [hperm.length_eq]

/-- A window shows the first rows in the order of their documents. -/
theorem first_eq {limit : Option Nat} (hrows : ∀ a ∈ rows, a.Reads keys)
    (hplaces : ∀ a ∈ rows, ∀ b ∈ rows, a.place = b.place → a = b) :
    Window.first keys limit rows =
      (sortBy (Row.order keys) rows).take (limit.getD rows.length) := by
  rw [← sortRows_eq hrows]
  exact first_eq_take (fun a ha => (hrows a ha).filled) hplaces

/-- So do windows that are brought together. -/
theorem merge_eq {limit : Option Nat} {parts : List (List Row)} (hrows : ∀ a ∈ parts.flatten, a.Reads keys)
    (hplaces : ∀ a ∈ parts.flatten, ∀ b ∈ parts.flatten, a.place = b.place → a = b) :
    Window.merge keys limit parts = Window.first keys limit parts.flatten :=
  merge_eq_first (fun a ha => (hrows a ha).filled) hplaces

end Window
end Codebook
