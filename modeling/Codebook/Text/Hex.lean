/-
# Bytes as text

Each byte is written as two hexadecimal digits in lower case.

Key definitions: `Text.toHex`, `Text.ofHex?`.
-/
import Codebook.Data.Json

namespace Codebook.Text

/-- The digits of a byte. -/
def byteDigits (b : UInt8) : List Char :=
  [hexDigit (b.toNat / 16), hexDigit (b.toNat % 16)]

/-- Bytes as text. -/
def toHex (bytes : List UInt8) : String :=
  String.ofList (bytes.flatMap byteDigits)

/-- Reads bytes from their digits. -/
def ofHexDigits? : List Char → Option (List UInt8)
  | [] => some []
  | [_] => none
  | a :: b :: rest => do
    let high ← Json.hexValue? a
    let low ← Json.hexValue? b
    return UInt8.ofNat (high * 16 + low) :: (← ofHexDigits? rest)

/-- Reads bytes. -/
def ofHex? (s : String) : Option (List UInt8) :=
  ofHexDigits? s.toList

end Codebook.Text
