/-
# The text of numbers

Three ways to write a double-precision number by its shortest decimal. `plain` never uses an
exponent. `diagnostic` always shows a point or an exponent, and takes the exponent for magnitudes
below 0.0001 and from 10 ^ 16 on. `canonical` is the form under which numbers are indexed: whole
numbers below 10 ^ 15 as integers, so that 5 and 5.0 are one value, and anything else plainly.

Key definitions: `Decimal.positional`, `Decimal.scientific`, `Double.plain`, `Double.diagnostic`,
`Double.canonical`.
-/
import Codebook.Number.Shortest

namespace Codebook.Number

namespace Decimal

/-- Zeros in a row. -/
def zeros (count : Nat) : String :=
  String.ofList (List.replicate count '0')

/-- The decimal without an exponent. -/
def positional (x : Decimal) : String :=
  let digits := toString x.digits
  if 0 ≤ x.exponent then digits ++ zeros x.exponent.toNat
  else
    let places := (-x.exponent).toNat
    if places < digits.length then
      String.ofList (digits.toList.take (digits.length - places)) ++ "." ++
        String.ofList (digits.toList.drop (digits.length - places))
    else "0." ++ zeros (places - digits.length) ++ digits

/-- The decimal with one digit before the point and an exponent. -/
def scientific (x : Decimal) : String :=
  match (toString x.digits).toList with
  | [] => ""
  | first :: rest =>
    let mark := if rest.isEmpty then "" else "."
    String.ofList [first] ++ mark ++ String.ofList rest ++ "e" ++ toString (x.exponent + rest.length)

/-- The exponent of the first digit. -/
def leading (x : Decimal) : Int :=
  x.exponent + (toString x.digits).length - 1

/-- The same number without zeros at the end of its digits. -/
def strip (x : Decimal) : Decimal :=
  go (toString x.digits).length x
where
  /-- Removes up to `fuel` zeros; there are no more of them than digits. -/
  go : Nat → Decimal → Decimal
    | 0, x => x
    | fuel + 1, x =>
      if x.digits ≠ 0 ∧ x.digits % 10 = 0 then go fuel ⟨x.digits / 10, x.exponent + 1⟩ else x

end Decimal

namespace Double

/-- A minus sign for negative numbers. -/
def signText (negative : Bool) : String :=
  if negative then "-" else ""

/-- The number without an exponent, however long that gets. -/
def plain : Double → String
  | nan _ => "NaN"
  | infinite negative => signText negative ++ "inf"
  | finite negative mantissa exponent =>
    signText negative ++
      if mantissa = 0 then "0" else (shortest mantissa exponent).strip.positional

/-- The number with a point or an exponent in any case. -/
def diagnostic : Double → String
  | nan _ => "NaN"
  | infinite negative => signText negative ++ "inf"
  | finite negative mantissa exponent =>
    signText negative ++
      if mantissa = 0 then "0.0"
      else
        let x := (shortest mantissa exponent).strip
        if x.leading < -4 ∨ 16 ≤ x.leading then x.scientific
        else if 0 ≤ x.exponent then x.positional ++ ".0"
        else x.positional

/-- The text under which a number is indexed. -/
def canonical (x : Double) : String :=
  match x.whole? with
  | some n => if n.natAbs < tenTo 15 then toString n else x.plain
  | none => x.plain

end Double

end Codebook.Number
