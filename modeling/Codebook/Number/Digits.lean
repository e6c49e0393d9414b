/-
# Decimal numerals

Reading of runs of decimal digits, and of whole numbers written with them. Only the ten digits
of ASCII count.

Key definitions: `digit?`, `ofDigits`, `splitDigits`, `readUnsigned`.
-/
import Codebook.Number.Range

namespace Codebook.Number

/-- The value of a decimal digit. -/
def digit? (c : Char) : Option Nat :=
  if '0' ≤ c ∧ c ≤ '9' then some (c.toNat - 48) else none

/-- The number that a run of digits writes, the most significant digit first. -/
def ofDigits (ds : List Nat) : Nat :=
  ds.foldl (fun n d => 10 * n + d) 0

/-- The digits at the start of a text, and what follows them. -/
def splitDigits : List Char → List Nat × List Char
  | [] => ([], [])
  | c :: cs =>
    match digit? c with
    | some d => let (ds, rest) := splitDigits cs; (d :: ds, rest)
    | none => ([], c :: cs)

/-- A whole number of at most 64 bits: digits only, after an optional plus sign. -/
def readUnsigned (s : String) : Option Nat :=
  let cs := match s.toList with
    | '+' :: cs => cs
    | cs => cs
  match splitDigits cs with
  | ([], _) => none
  | (ds, []) => if ofDigits ds ≤ maxNat64 then some (ofDigits ds) else none
  | _ => none

/-- A number with zeros in front, to `width` digits at least. -/
def padded (width n : Nat) : String :=
  let s := toString n
  String.ofList (List.replicate (width - s.length) '0') ++ s

end Codebook.Number
