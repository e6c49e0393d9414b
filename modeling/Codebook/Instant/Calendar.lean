/-
# The calendar

Days are counted from the first of January 1970, and dates are those of the Gregorian calendar
carried back without end: the year 0 comes before the year 1. A year is found from the day it
holds by an estimate that is off by one at most, and the month by walking through the months.

Key definitions: `Date`, `yearStart`, `isLeap`, `Date.dayNumber`, `Date.ofDayNumber`,
`Date.ofParts?`.
-/

namespace Codebook.Instant

/-- A year, a month from 1 to 12 and a day from 1 on. -/
structure Date where
  /-- The year. -/
  year : Int
  /-- The month. -/
  month : Nat
  /-- The day of the month. -/
  day : Nat
deriving DecidableEq, Repr

/-- The number of the first of January 1970, counted from the first of January of the year 0. -/
def epochDay : Int := 719528

/-- The days from the first of January of the year 0 to the one of `year`. Every fourth year
before it has a day more, but of the hundredth ones only every fourth. -/
def yearStart (year : Int) : Int :=
  365 * year + (year + 3).fdiv 4 - (year + 99).fdiv 100 + (year + 399).fdiv 400

/-- Whether a year has 366 days. -/
def isLeap (year : Int) : Bool :=
  yearStart (year + 1) - yearStart year = 366

/-- The lengths of the months. -/
def monthLengths (year : Int) : List Nat :=
  [31, if isLeap year then 29 else 28, 31, 30, 31, 30, 31, 31, 30, 31, 30, 31]

/-- The month and the day of the month, both from 1, on which a day of the year falls, counted
from 0. -/
def monthOf (month : Nat) : List Nat → Nat → Nat × Nat
  | [], day => (month, day + 1)
  | length :: rest, day =>
    if day < length then (month, day + 1) else monthOf (month + 1) rest (day - length)

namespace Date

/-- The days of the year before the first of a month. -/
def daysBefore (year : Int) (month : Nat) : Nat :=
  ((monthLengths year).take (month - 1)).foldl Nat.add 0

/-- The number of the day, counted from the epoch. -/
def dayNumber (date : Date) : Int :=
  yearStart date.year + daysBefore date.year date.month + (date.day - 1 : Nat) - epochDay

/-- The year in which a day of the calendar falls, counted from the first of January of the year
0. There are 146097 days in 400 years. -/
def yearOf (day : Int) : Int :=
  let guess := (400 * day).fdiv 146097
  if yearStart (guess + 1) ≤ day then guess + 1
  else if day < yearStart guess then guess - 1
  else guess

/-- The date of a day. -/
def ofDayNumber (number : Int) : Date :=
  let day := number + epochDay
  let year := yearOf day
  let (month, day) := monthOf 1 (monthLengths year) (day - yearStart year).toNat
  ⟨year, month, day⟩

/-- The date with the given parts, if there is one. The years are bounded as far out as days are
counted. -/
def ofParts? (year : Int) (month day : Nat) : Option Date :=
  if -262143 ≤ year ∧ year ≤ 262142 ∧ 1 ≤ month ∧ 1 ≤ day then
    match (monthLengths year)[month - 1]? with
    | some length => if day ≤ length then some ⟨year, month, day⟩ else none
    | none => none
  else none

end Date

end Codebook.Instant
