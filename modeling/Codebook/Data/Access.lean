/-
# Looking into plain data

Short ways to the members of a record that a request is made of. What is not there, or not of the
kind that is asked for, counts as empty: a missing text as the empty one, a missing number as zero.

Key definitions: `Data.get`, `Data.str`, `Data.nat`, `Data.flag`, `Data.items`, `Data.strs`.
-/
import Codebook.Data.Reader

namespace Codebook.Data

/-- A record of members. -/
def obj (members : List (String × Data)) : Data :=
  record members

/-- A count. -/
def num (n : Nat) : Data :=
  int n

/-- Null in place of a value that is missing. -/
def orNull {α : Type} (f : α → Data) (a : Option α) : Data :=
  (a.map f).getD null

/-- The member of a name, or null. -/
def get (d : Data) (name : String) : Data :=
  (d.member? name).getD null

/-- Whether there is a member of a name. -/
def has (d : Data) (name : String) : Bool :=
  (d.member? name).isSome

/-- Whether there is a member of a name, and it is not null. -/
def given (d : Data) (name : String) : Bool :=
  match d.get name with
  | null => false
  | _ => true

/-- The text of a member, if it is one. -/
def str? (d : Data) (name : String) : Option String :=
  (d.get name).toText?

/-- The text of a member. -/
def str (d : Data) (name : String) : String :=
  (d.str? name).getD ""

/-- The whole number of a member. -/
def whole (d : Data) (name : String) : Int :=
  match d.get name with
  | int n => n
  | _ => 0

/-- The count of a member. -/
def nat (d : Data) (name : String) : Nat :=
  (d.whole name).toNat

/-- The count of a member, if there is one. -/
def natOr (d : Data) (name : String) (n : Nat) : Nat :=
  if d.has name then d.nat name else n

/-- Whether a member is true. -/
def flag (d : Data) (name : String) : Bool :=
  (d.get name).toBool? == some true

/-- The items of a member. -/
def items (d : Data) (name : String) : List Data :=
  match d.get name with
  | list items => items
  | _ => []

/-- The texts among the items of a member. -/
def strs (d : Data) (name : String) : List String :=
  (d.items name).filterMap toText?

/-- The members of a record, or the pairs of a list. -/
def entries : Data → List (String × Data)
  | record members => members
  | list items => items.filterMap fun
    | list [text name, value] => some (name, value)
    | _ => none
  | _ => []

end Codebook.Data
