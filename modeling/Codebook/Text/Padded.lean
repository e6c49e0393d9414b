/-
# Padding

Texts in the columns of a table: blanks are added until the text is as long as the column is wide.
Longer texts stay as they are.

Key definitions: `Text.padEnd`, `Text.padStart`.
-/

namespace Codebook.Text

/-- A text at the left of a column. -/
def padEnd (width : Nat) (s : String) : String :=
  s ++ String.ofList (List.replicate (width - s.length) ' ')

/-- A text at the right of a column. -/
def padStart (width : Nat) (s : String) : String :=
  String.ofList (List.replicate (width - s.length) ' ') ++ s

end Codebook.Text
