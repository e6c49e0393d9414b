/-
# Blank text

Text without its surrounding white space, its words, and the test for text that holds nothing
else.

Key definitions: `trim`, `isBlank`, `words`.
-/
import Codebook.Text.Class

namespace Codebook.Text

/-- The longest suffix that does not begin with white space. -/
def dropSpace (cs : List Char) : List Char :=
  cs.dropWhile isSpace

/-- The characters without the white space at either end. -/
def trimChars (cs : List Char) : List Char :=
  (dropSpace (dropSpace cs).reverse).reverse

/-- The text without the white space at either end. -/
def trim (s : String) : String :=
  String.ofList (trimChars s.toList)

/-- Text is blank when it holds nothing but white space. -/
def isBlank (s : String) : Bool :=
  s.toList.all isSpace

/-- The maximal runs of characters that satisfy `keep`, in order. -/
def runs (keep : Char → Bool) : List Char → List (List Char)
  | [] => []
  | c :: cs =>
    if keep c then
      match cs, runs keep cs with
      | d :: _, run :: rest => if keep d then (c :: run) :: rest else [c] :: run :: rest
      | _, rest => [c] :: rest
    else runs keep cs

/-- The words of a text: its maximal runs of characters other than white space. -/
def words (s : String) : List String :=
  (runs (fun c => !isSpace c) s.toList).map String.ofList

end Codebook.Text
