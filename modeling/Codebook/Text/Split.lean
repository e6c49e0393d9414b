/-
# Splitting text

A text is split at the first or the last place where a mark stands; neither part keeps the mark.

Key definitions: `splitFirst`, `splitLast`, `dropEnd`.
-/

namespace Codebook.Text

/-- What is left of a text that begins with a mark. -/
def dropStart : List Char → List Char → Option (List Char)
  | [], cs => some cs
  | m :: mark, c :: cs => if m = c then dropStart mark cs else none
  | _, [] => none

/-- The parts before and after the first place where the mark stands. -/
def splitFirst (mark : List Char) : List Char → Option (List Char × List Char)
  | [] => if mark.isEmpty then some ([], []) else none
  | c :: cs =>
    match dropStart mark (c :: cs) with
    | some rest => some ([], rest)
    | none => (splitFirst mark cs).map fun (before, after) => (c :: before, after)

/-- The parts before and after the last place where the character stands. -/
def splitLast (mark : Char) : List Char → Option (List Char × List Char)
  | [] => none
  | c :: cs =>
    match splitLast mark cs with
    | some (before, after) => some (c :: before, after)
    | none => if c = mark then some ([], cs) else none

/-- A text without the character at its end. -/
def dropEnd (mark : Char) (cs : List Char) : Option (List Char) :=
  match cs.reverse with
  | c :: rest => if c = mark then some rest.reverse else none
  | [] => none

end Codebook.Text
