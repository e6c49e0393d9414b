/-
# What a window selects, and in how much room

Rows with a value for each key and places of their own are in a strict order. A window that lets them
in shows the first of them, as many as are wanted: in which order they came and how they were
divided among windows makes no difference. A window with a limit never holds more rows than its
capacity, since it cuts itself to the limit as soon as it does.

Key theorems: `Window.length_pushAll_le`, `pairwise_sortRows`, `Window.selects_first`.
-/
import Codebook.Proofs.Window

namespace Codebook

variable {keys : List ColumnKey} {rows : List Row}

/-- Rows in order come strictly one after the other. -/
theorem pairwise_sortRows (hfilled : ∀ row ∈ rows, row.Filled keys)
    (hplaces : (rows.map Row.place).Nodup) :
    (sortRows keys rows).Pairwise fun a b => Row.compare keys a b = .lt := by
  rw [sortRows_of_filled hfilled]
  have hperm := sortBy_perm_self (Row.ranking keys) rows
  have hapart : (sortBy (Row.ranking keys) rows).Pairwise fun a b => a.place ≠ b.place :=
    List.pairwise_map.mp ((hperm.map Row.place).nodup_iff.mpr hplaces)
  refine ((pairwise_sortBy (Row.ranking keys) rows).and hapart).imp_of_mem fun ha hb hab => ?_
  rw [Row.compare_eq_ranking (hfilled _ (hperm.subset ha)) (hfilled _ (hperm.subset hb))]
  obtain ⟨hle, hne⟩ := hab
  have hnotie : Row.ranking keys _ _ ≠ .eq := fun htie => hne (Row.place_of_ranking htie)
  exact (Ordering.isLE_iff_eq_lt_or_eq_eq.mp hle).resolve_right hnotie

namespace Window

variable {w : Window} {n : Nat}

/-- The limit is not above the capacity. -/
theorem le_capacity (hn : n ≤ maxCount) : n ≤ capacity n := by
  unfold capacity
  omega

theorem limit_push (w : Window) (row : Row) : (w.push row).limit = w.limit := by
  unfold push shrink
  dsimp only
  split
  · split_ifs <;> rfl
  · rfl

theorem length_shrink_le (w : Window) (n : Nat) : (w.shrink n).rows.length ≤ n := by
  unfold shrink
  split_ifs with hfits
  · exact hfits
  · exact List.length_take_le ..

/-- A window that was let in one row holds no more than its capacity. -/
theorem length_push_le (hlimit : w.limit = some n) (hn : n ≤ maxCount) (row : Row) :
    (w.push row).rows.length ≤ capacity n := by
  simp only [push, hlimit]
  split_ifs with hover
  · exact (length_shrink_le _ n).trans (le_capacity hn)
  · exact Nat.le_of_not_lt hover

theorem length_pushAll_le (hlimit : w.limit = some n) (hn : n ≤ maxCount)
    (hw : w.rows.length ≤ capacity n) (rows : List Row) :
    (rows.foldl push w).rows.length ≤ capacity n := by
  induction rows generalizing w with
  | nil => exact hw
  | cons row rows ih =>
    exact ih ((limit_push w row).trans hlimit) (length_push_le hlimit hn row)

/-- **A window selects the first rows**, in whatever order they come and into however many windows
they are divided, and a limited window never holds more than twice as many as are wanted, or 64 if
that is more. -/
theorem selects_first (limit : Option Nat) (hfilled : ∀ row ∈ rows, row.Filled keys)
    (hplaces : (rows.map Row.place).Nodup) :
    (sortRows keys rows).Perm rows ∧
    ((sortRows keys rows).Pairwise fun a b => Row.compare keys a b = .lt) ∧
    (∀ pushed : List Row, pushed.Perm rows →
      first keys limit pushed = (sortRows keys rows).take (limit.getD rows.length)) ∧
    (∀ parts : List (List Row), parts.flatten.Perm rows →
      merge keys limit parts = (sortRows keys rows).take (limit.getD rows.length)) ∧
    ∀ (n : Nat) (pushed : List Row), limit = some n → n ≤ maxCount →
      (pushed.foldl push { keys, limit }).rows.length ≤ max (min (2 * n) maxCount) 64 := by
  have hsort := sortRows_of_filled hfilled
  have hone : ∀ a ∈ rows, ∀ b ∈ rows, a.place = b.place → a = b := fun a ha b hb h =>
    List.inj_on_of_nodup_map hplaces ha hb h
  have hfirst : ∀ pushed : List Row, pushed.Perm rows →
      first keys limit pushed = (sortRows keys rows).take (limit.getD rows.length) := by
    intro pushed hperm
    have hfilled' : ∀ row ∈ pushed, row.Filled keys := fun row hrow => hfilled row (hperm.subset hrow)
    have hone' : ∀ a ∈ pushed, ∀ b ∈ pushed, a.place = b.place → a = b := fun a ha b hb =>
      hone a (hperm.subset ha) b (hperm.subset hb)
    have hsame : sortBy (Row.ranking keys) pushed = sortBy (Row.ranking keys) rows :=
      sortBy_perm hperm fun a ha b hb htie => hone' a ha b hb (Row.place_of_ranking htie)
    rw [first_eq_take hfilled' hone', hperm.length_eq, sortRows_of_filled hfilled', hsort, hsame]
  refine ⟨hsort ▸ sortBy_perm_self _ rows, pairwise_sortRows hfilled hplaces, hfirst, ?parts, ?room⟩
  case parts =>
    intro parts hperm
    rw [merge_eq_first (fun row hrow => hfilled row (hperm.subset hrow)) fun a ha b hb =>
      hone a (hperm.subset ha) b (hperm.subset hb)]
    exact hfirst _ hperm
  case room =>
    rintro n pushed rfl hn
    rw [Nat.mul_comm]
    exact length_pushAll_le rfl hn (Nat.zero_le _) pushed

/-- Of three rows that come out of order and in several windows, the first two are those with the
greatest date, and of these the one with the lower place comes first. -/
theorem selects_first_of_tie :
    let keys : List ColumnKey := [⟨"released", .date, true⟩, ⟨"name", .text, false⟩]
    let row (place : Nat) (values : List SortValue) : Row := ⟨values, place, ⟨[], none, none⟩⟩
    let undated := row 0 [.missing, .text "a"]
    let earlier := row 1 [.date 5, .text "b"]
    let later := row 2 [.date 5, .text "b"]
    merge keys (some 2) [[later, undated], [], [earlier]] = [earlier, later] ∧
    first keys (some 2) [undated, later, earlier] = [earlier, later] ∧
    ([later, undated, earlier].foldl push { keys, limit := some 2 }).rows.length ≤ 64 := by
  intro keys row undated earlier later
  obtain ⟨-, -, hfirst, hparts, hroom⟩ :=
    @selects_first keys [earlier, later, undated] (some 2) (by decide) (by decide)
  have hsort : sortRows keys [earlier, later, undated] = [earlier, later, undated] := by
    rw [sortRows_of_filled (by decide)]
    exact sortBy_of_pairwise (by decide)
  rw [hsort] at hfirst hparts
  exact ⟨hparts _ (by decide), hfirst _ (by decide), hroom 2 _ rfl (by decide)⟩

end Window
end Codebook
