/-
# Diagnostic forms

How values show themselves in diagnostics, on one line: a name and its members between braces,
lists between brackets, and values that may be missing.

Key definitions: `Diagnostic.members`, `Diagnostic.someMembers`, `Diagnostic.list`,
`Diagnostic.option`.
-/

namespace Codebook.Diagnostic

/-- Members with their values. -/
def pairs (ms : List (String × String)) : List String :=
  ms.map fun (name, value) => name ++ ": " ++ value

/-- A name with all of its members. -/
def members (name : String) (ms : List (String × String)) : String :=
  name ++ " \x7b " ++ ", ".intercalate (pairs ms) ++ " \x7d"

/-- A name with some of its members; there are others. -/
def someMembers (name : String) (ms : List (String × String)) : String :=
  name ++ " \x7b " ++ ", ".intercalate (pairs ms ++ [".."]) ++ " \x7d"

/-- A list. -/
def list (items : List String) : String :=
  "[" ++ ", ".intercalate items ++ "]"

/-- A value that may be missing. -/
def option : Option String → String
  | some s => "Some(" ++ s ++ ")"
  | none => "None"

/-- A truth value. -/
def bool (b : Bool) : String :=
  if b then "true" else "false"

end Codebook.Diagnostic
