/-
# Double-precision numbers

Binary numbers of 53 significant bits, as values: a sign, a mantissa and an exponent, next to the
two infinities and the numbers that are none. Nothing is ever computed with them here. They are
rounded from decimal numerals, compared, and written again, and all three are done exactly on
whole numbers.

A finite number is kept normal: its mantissa is below 2 ^ 53, its exponent at least -1074, and a
mantissa below 2 ^ 52 only goes with the exponent -1074. So two finite numbers are equal exactly
when their parts are, zeros of different signs apart.

Key definitions: `Double`, `Double.nearest`, `Double.whole?`, `Double.rank`, `Double.sameValue`.
-/
import Codebook.Number.Range

namespace Codebook.Number

/-- A double-precision number. -/
inductive Double where
  /-- Not a number. -/
  | nan (negative : Bool)
  /-- An infinity. -/
  | infinite (negative : Bool)
  /-- The number `mantissa * 2 ^ exponent`, or its opposite. -/
  | finite (negative : Bool) (mantissa : Nat) (exponent : Int)
deriving DecidableEq, Repr

namespace Double

/-- The exponent of the smallest numbers. -/
def leastExponent : Int := -1074

/-- The exponent of the largest numbers. -/
def greatestExponent : Int := 971

/-- The least mantissa of 53 bits. -/
def leastFull : Nat := twoTo 52

/-- A fraction divided by a power of two, as a fraction. -/
def scale (num den : Nat) (exponent : Int) : Nat × Nat :=
  (num * twoTo (-exponent).toNat, den * twoTo exponent.toNat)

/-- The whole number nearest to a fraction; of two equally near ones, the even one. -/
def roundEven (num den : Nat) : Nat :=
  let low := num / den
  let rest := num % den
  if 2 * rest < den ∨ (2 * rest = den ∧ low % 2 = 0) then low else low + 1

/-- The exponent at which a positive fraction has a mantissa of 53 bits, or the least exponent
if the fraction is too small for that. -/
def exponentOf (num den : Nat) : Int :=
  let guess := (num.log2 : Int) - den.log2 - 52
  let (n, d) := scale num den guess
  max leastExponent (if n / d < leastFull then guess - 1 else guess)

/-- The number nearest to a fraction of whole numbers, ties to the even mantissa. Past the
largest number it is the infinity. -/
def nearest (negative : Bool) (num den : Nat) : Double :=
  if num = 0 then finite negative 0 leastExponent
  else
    let exponent := exponentOf num den
    let (n, d) := scale num den exponent
    let mantissa := roundEven n d
    let (mantissa, exponent) :=
      if mantissa = 2 * leastFull then (leastFull, exponent + 1) else (mantissa, exponent)
    if greatestExponent < exponent then infinite negative else finite negative mantissa exponent

/-- Whether the number carries a minus sign. -/
def isNegative : Double → Bool
  | nan negative | infinite negative | finite negative _ _ => negative

/-- The magnitude of a finite number as a fraction. -/
def fraction (mantissa : Nat) (exponent : Int) : Nat × Nat :=
  (mantissa * twoTo exponent.toNat, twoTo (-exponent).toNat)

/-- The number as a whole number, if it is one. -/
def whole? : Double → Option Int
  | finite negative mantissa exponent =>
    let (n, d) := fraction mantissa exponent
    if n % d = 0 then some (if negative then -(n / d : Nat) else (n / d : Nat)) else none
  | _ => none

/-- The place of a magnitude among all magnitudes: zero first, numbers by size, then the
infinity, then what is not a number. -/
def magnitudeRank : Double → Int
  | finite _ mantissa exponent => (exponent - leastExponent) * (2 * leastFull : Nat) + mantissa
  | infinite _ => (greatestExponent + 1 - leastExponent) * (2 * leastFull : Nat)
  | nan _ => (greatestExponent + 2 - leastExponent) * (2 * leastFull : Nat)

/-- The place of a number in the total order of all of them: negative ones come before
positive ones, and the negative zero before the positive zero. -/
def rank (x : Double) : Int :=
  if x.isNegative then -1 - x.magnitudeRank else x.magnitudeRank

/-- Equality of values: zeros of either sign are equal, and what is not a number equals nothing,
itself included. -/
def sameValue : Double → Double → Bool
  | nan _, _ => false
  | _, nan _ => false
  | finite s m e, finite t n f => (m == 0 && n == 0) || (s == t && m == n && e == f)
  | infinite s, infinite t => s == t
  | _, _ => false

end Double

end Codebook.Number
