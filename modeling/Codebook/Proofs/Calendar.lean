/-
# Days and dates

Every day has one date, and the date tells the day: the estimate of its year is put right by one
step at most, and the walk through the months ends within the year.

Key theorems: `Date.yearOf_spec`, `Date.monthOf_spec`, `Date.dayNumber_ofDayNumber`,
`Date.ofParts?_ofDayNumber`.
-/
import Codebook.Instant.Calendar
import Mathlib.Tactic.Ring

namespace Codebook.Instant

theorem yearStart_eq (year : Int) :
    yearStart year = 365 * year + (year + 3) / 4 - (year + 99) / 100 + (year + 399) / 400 := by
  rw [yearStart, Int.fdiv_eq_ediv_of_nonneg _ (by decide), Int.fdiv_eq_ediv_of_nonneg _ (by decide),
    Int.fdiv_eq_ediv_of_nonneg _ (by decide)]

/-- A year has 365 days or one more. -/
theorem yearStart_succ (year : Int) :
    yearStart (year + 1) = yearStart year + if isLeap year then 366 else 365 := by
  have hdays : yearStart (year + 1) - yearStart year = 365 ∨
      yearStart (year + 1) - yearStart year = 366 := by
    rw [yearStart_eq, yearStart_eq]
    omega
  unfold isLeap
  rcases hdays with h | h
  · rw [h]
    simp only [show ¬ (365 : Int) = 366 by decide, decide_false, if_neg Bool.false_ne_true]
    omega
  · rw [h]
    simp only [decide_true, if_true]
    omega

/-- The months of a year hold its days. -/
theorem sum_monthLengths (year : Int) :
    ((monthLengths year).sum : Int) = yearStart (year + 1) - yearStart year := by
  rw [yearStart_succ, monthLengths]
  cases isLeap year <;> simp

namespace Date

/-- The estimate of a year is right after one step. -/
theorem yearOf_spec (day : Int) :
    yearStart (yearOf day) ≤ day ∧ day < yearStart (yearOf day + 1) := by
  obtain ⟨guess, hguess⟩ : ∃ guess, guess = (400 * day).fdiv 146097 := ⟨_, rfl⟩
  have hbound : guess = 400 * day / 146097 := by
    rw [hguess, Int.fdiv_eq_ediv_of_nonneg _ (by decide)]
  rw [yearOf, ← hguess]
  by_cases hlate : yearStart (guess + 1) ≤ day
  · rw [if_pos hlate]
    refine ⟨hlate, ?_⟩
    rw [yearStart_eq]
    omega
  rw [if_neg hlate]
  by_cases hearly : day < yearStart guess
  · rw [if_pos hearly, Int.sub_add_cancel]
    refine ⟨?_, hearly⟩
    rw [yearStart_eq]
    omega
  · rw [if_neg hearly]
    exact ⟨Int.not_lt.mp hearly, Int.not_le.mp hlate⟩

/-- What a sum begins with can be added to it as well. -/
theorem foldl_add (ns : List Nat) (m : Nat) : ns.foldl Nat.add m = m + ns.foldl Nat.add 0 := by
  induction ns generalizing m with
  | nil => rfl
  | cons n ns ih =>
    rw [List.foldl_cons, List.foldl_cons, ih (Nat.add m n), ih (Nat.add 0 n)]
    show m + n + _ = m + (0 + n + _)
    omega

/-- The walk through the months ends in the one that holds the day. -/
theorem monthOf_spec : ∀ {lengths : List Nat} {first day : Nat}, day < lengths.sum →
    ∃ k length d, monthOf first lengths day = (first + k, d + 1) ∧ lengths[k]? = some length ∧
      d < length ∧ (lengths.take k).foldl Nat.add 0 + d = day
  | [], _, _, h => by simp at h
  | length :: lengths, first, day, h => by
    rw [monthOf]
    by_cases hday : day < length
    · rw [if_pos hday]
      exact ⟨0, length, day, rfl, rfl, hday, by simp⟩
    · rw [if_neg hday]
      rw [List.sum_cons] at h
      have hrest : day - length < lengths.sum := by omega
      obtain ⟨k, length', d, hmonth, hlength, hd, hsum⟩ := @monthOf_spec lengths (first + 1) _ hrest
      refine ⟨k + 1, length', d, ?_, hlength, hd, ?_⟩
      · rw [hmonth]
        congr 1
        omega
      · rw [List.take_succ_cons, List.foldl_cons, foldl_add]
        show 0 + length + _ + d = day
        omega

/-- The parts of the date of a day. -/
theorem ofDayNumber_spec (number : Int) :
    ∃ k length d, ofDayNumber number = ⟨yearOf (number + epochDay), k + 1, d + 1⟩ ∧
      (monthLengths (yearOf (number + epochDay)))[k]? = some length ∧ d < length ∧
      yearStart (yearOf (number + epochDay)) +
        ((monthLengths (yearOf (number + epochDay))).take k).foldl Nat.add 0 + d =
          number + epochDay := by
  obtain ⟨hfrom, hto⟩ := yearOf_spec (number + epochDay)
  obtain ⟨year, hyear⟩ : ∃ year, year = yearOf (number + epochDay) := ⟨_, rfl⟩
  have hwithin : (number + epochDay - yearStart year).toNat < (monthLengths year).sum := by
    have hsum := sum_monthLengths year
    rw [← hyear] at hfrom hto
    omega
  obtain ⟨k, length, d, hmonth, hlength, hd, hdays⟩ := @monthOf_spec _ 1 _ hwithin
  rw [ofDayNumber, ← hyear]
  refine ⟨k, length, d, ?_, hlength, hd, ?_⟩
  · simp only [hmonth, Nat.add_comm 1 k]
  · rw [← hyear] at hfrom
    omega

/-- **The date of a day tells the day.** -/
theorem dayNumber_ofDayNumber (number : Int) : (ofDayNumber number).dayNumber = number := by
  obtain ⟨k, length, d, hdate, -, -, hdays⟩ := ofDayNumber_spec number
  rw [hdate, dayNumber, daysBefore]
  simp only [Nat.add_sub_cancel]
  omega

/-- The date of a day is one of the calendar. -/
theorem ofParts?_ofDayNumber {number : Int} (hlow : -262143 ≤ (ofDayNumber number).year)
    (hhigh : (ofDayNumber number).year ≤ 262142) :
    ofParts? (ofDayNumber number).year (ofDayNumber number).month (ofDayNumber number).day =
      some (ofDayNumber number) := by
  obtain ⟨k, length, d, hdate, hlength, hd, -⟩ := ofDayNumber_spec number
  rw [hdate] at hlow hhigh ⊢
  unfold ofParts?
  rw [if_pos ⟨hlow, hhigh, by simp, by simp⟩]
  simp only [Nat.add_sub_cancel, hlength]
  rw [if_pos (by omega)]

/-- Months and days of the month have two digits at most. -/
theorem ofDayNumber_lt (number : Int) :
    (ofDayNumber number).month < 100 ∧ (ofDayNumber number).day < 100 := by
  obtain ⟨k, length, d, hdate, hlength, hd, -⟩ := ofDayNumber_spec number
  obtain ⟨hk, hget⟩ := List.getElem?_eq_some_iff.mp hlength
  have hmonths : (monthLengths (yearOf (number + epochDay))).length = 12 := rfl
  have hall : ∀ n ∈ monthLengths (yearOf (number + epochDay)), n ≤ 31 := by
    unfold monthLengths
    cases isLeap (yearOf (number + epochDay)) <;> decide
  have hle : length ≤ 31 := hall length (hget ▸ List.getElem_mem hk)
  rw [hdate]
  constructor <;> simp only <;> omega

end Date
end Codebook.Instant
