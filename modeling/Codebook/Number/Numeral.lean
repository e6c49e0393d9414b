/-
# Numerals of double-precision numbers

A numeral is read as an exact decimal and rounded once. The grammar: an optional sign, then
decimal digits with an optional point, at least one digit, then an optional exponent; or one of
the words `inf`, `infinity` and `nan` in any case.

Key definitions: `Double.read`, `Double.ofDecimal`.
-/
import Codebook.Number.Digits
import Codebook.Number.Double
import Codebook.Text.LowerCase

namespace Codebook.Number.Double

/-- The number nearest to `digits * 10 ^ exponent`. Powers far outside the range are not
computed: with this many digits the value is past the largest number, or below half the smallest. -/
def ofDecimal (negative : Bool) (digits : Nat) (exponent : Int) : Double :=
  let size := (toString digits).length + exponent
  if digits = 0 ∨ size < -400 then nearest negative 0 1
  else if 400 < size then infinite negative
  else nearest negative (digits * tenTo exponent.toNat) (tenTo (-exponent).toNat)

/-- The exponent of a numeral, which may be left out, up to the end of the text. -/
def readExponent : List Char → Option Int
  | [] => some 0
  | c :: cs =>
    if c = 'e' ∨ c = 'E' then
      let (negative, cs) := match cs with
        | '+' :: cs => (false, cs)
        | '-' :: cs => (true, cs)
        | cs => (false, cs)
      match splitDigits cs with
      | ([], _) => none
      | (ds, []) => some (if negative then -(ofDigits ds : Nat) else (ofDigits ds : Nat))
      | _ => none
    else none

/-- A numeral without its sign. -/
def readMagnitude (negative : Bool) (cs : List Char) : Option Double :=
  match Text.lowerLatin (String.ofList cs) with
  | "inf" | "infinity" => some (infinite negative)
  | "nan" => some (nan negative)
  | _ =>
    let (whole, rest) := splitDigits cs
    let (places, rest) := match rest with
      | '.' :: rest => splitDigits rest
      | rest => ([], rest)
    if whole.isEmpty && places.isEmpty then none
    else do
      let exponent ← readExponent rest
      return ofDecimal negative (ofDigits (whole ++ places)) (exponent - places.length)

/-- Reads a numeral that is the whole text. -/
def read (s : String) : Option Double :=
  match s.toList with
  | '+' :: cs => readMagnitude false cs
  | '-' :: cs => readMagnitude true cs
  | cs => readMagnitude false cs

end Codebook.Number.Double
