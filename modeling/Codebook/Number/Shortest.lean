/-
# Shortest decimals

The shortest decimal of a positive double-precision number: of the decimals that are nearer to it
than to any other such number, one with the fewest digits, and of those the nearest. The numbers
that round to a given one form an interval, which includes its ends exactly when the mantissa is
even. On the grid of the decimals of `n` digits only the two neighbours of the number itself can
be the nearest ones inside, so testing these for `n` from 1 to 17 finds it.

Key definitions: `Decimal`, `RoundingInterval`, `RoundingInterval.pick?`, `shortest`.
-/
import Codebook.Number.Double

namespace Codebook.Number

/-- The number `digits * 10 ^ exponent`. -/
structure Decimal where
  /-- The digits, as a whole number. -/
  digits : Nat
  /-- The power of ten. -/
  exponent : Int
deriving DecidableEq, Repr

/-- The positive reals that round to one double-precision number, over a common denominator. -/
structure RoundingInterval where
  /-- The numerator of the lower end. -/
  low : Nat
  /-- The numerator of the number itself. -/
  value : Nat
  /-- The numerator of the upper end. -/
  high : Nat
  /-- The common denominator. -/
  den : Nat
  /-- Whether the ends round to the number too. -/
  closed : Bool

namespace RoundingInterval

/-- The interval of `mantissa * 2 ^ exponent`. The gap below a power of two is half as wide as
the gap above it, except at the least exponent. -/
def ofParts (mantissa : Nat) (exponent : Int) : RoundingInterval :=
  let unit := twoTo exponent.toNat
  let below := if mantissa = Double.leastFull ∧ Double.leastExponent < exponent then 1 else 2
  { low := (4 * mantissa - below) * unit
    value := 4 * mantissa * unit
    high := (4 * mantissa + 2) * unit
    den := 4 * twoTo (-exponent).toNat
    closed := mantissa % 2 = 0 }

/-- A decimal over the denominator of the interval: its numerator, after the bounds of the
interval have been multiplied by `factor`. -/
def numerator (i : RoundingInterval) (x : Decimal) : Nat :=
  x.digits * tenTo x.exponent.toNat * i.den

/-- What the bounds are multiplied by when a decimal with a negative exponent is compared. -/
def factor (x : Decimal) : Nat :=
  tenTo (-x.exponent).toNat

/-- Whether the decimal lies in the interval. -/
def holds (i : RoundingInterval) (x : Decimal) : Bool :=
  let n := i.numerator x
  let f := factor x
  if i.closed then i.low * f ≤ n && n ≤ i.high * f else i.low * f < n && n < i.high * f

/-- The distance of the decimal from the number. -/
def distance (i : RoundingInterval) (x : Decimal) : Nat :=
  ((i.numerator x : Int) - i.value * factor x).natAbs

/-- The exponent of the first digit of the number. -/
def leadingExponent (i : RoundingInterval) : Int :=
  if i.den ≤ i.value then ((toString (i.value / i.den)).length : Int) - 1
  else
    -- the first power of ten that lifts the number to one or more
    match (List.range 400).find? fun j => i.den ≤ i.value * tenTo j with
    | some j => -j
    | none => -400

/-- Of the two decimals of `count` digits around the number, the nearest one inside. -/
def pick? (i : RoundingInterval) (count : Nat) : Option Decimal :=
  let exponent := i.leadingExponent - ((count : Int) - 1)
  let below : Decimal :=
    ⟨i.value * tenTo (-exponent).toNat / (i.den * tenTo exponent.toNat), exponent⟩
  let above : Decimal := ⟨below.digits + 1, exponent⟩
  match i.holds below, i.holds above with
  | true, true => some (if i.distance above < i.distance below then above else below)
  | true, false => some below
  | false, true => some above
  | false, false => none

end RoundingInterval

/-- The shortest decimal of the positive number `mantissa * 2 ^ exponent`. Seventeen digits tell
all such numbers apart, so the search always ends. -/
def shortest (mantissa : Nat) (exponent : Int) : Decimal :=
  let interval := RoundingInterval.ofParts mantissa exponent
  ((List.range 17).findSome? fun n => interval.pick? (n + 1)).getD ⟨0, 0⟩

end Codebook.Number
