/-
# Plain data

Everything that is stored or sent is first plain data: null, truth values, whole numbers, text,
lists, and records, whose members keep their order. The text form and the binary form of plain
data are two modules of their own; what is here is independent of them.

Values that a reader of this library can meet but never asks for are lumped together as `other`.
A reader that keeps all it meets, to look at it twice, still refuses some of them which a reader
that passes over them does not notice: numbers too large for a double, and text with half of a
surrogate pair. These are the unsound ones.

Key definitions: `Data`, `Data.member?`, `Data.without`, `Data.soundWithin`.
-/

namespace Codebook

/-- Plain data. -/
inductive Data where
  /-- The absence of a value. -/
  | null
  /-- A truth value. -/
  | bool (value : Bool)
  /-- A whole number. -/
  | int (value : Int)
  /-- A text. -/
  | text (value : String)
  /-- Values in order. -/
  | list (items : List Data)
  /-- Named values in order. -/
  | record (members : List (String × Data))
  /-- A value that nobody asks for, and whether it could be kept. -/
  | other (sound : Bool)
deriving Inhabited, Repr

namespace Data

/-- The first member of that name. -/
def member? (name : String) : Data → Option Data
  | record members => members.lookup name
  | _ => none

/-- A record without the members of the given names. Anything else stays as it is. -/
def without (names : List String) : Data → Data
  | record members => record (members.filter fun (name, _) => !names.contains name)
  | d => d

mutual

/-- Whether the data can be kept as it is: it nests lists and records at most `depth` levels deep
and holds nothing unsound. -/
def soundWithin (depth : Nat) : Data → Bool
  | list items => 0 < depth && soundItems (depth - 1) items
  | record members => 0 < depth && soundMembers (depth - 1) members
  | other sound => sound
  | _ => true

/-- Every item can be kept. -/
def soundItems (depth : Nat) : List Data → Bool
  | [] => true
  | item :: items => soundWithin depth item && soundItems depth items

/-- Every member can be kept. -/
def soundMembers (depth : Nat) : List (String × Data) → Bool
  | [] => true
  | (_, value) :: members => soundWithin depth value && soundMembers depth members

end

/-- A text, or null if there is none. -/
def ofText? : Option String → Data
  | some s => text s
  | none => null

/-- A list of texts. -/
def ofTexts (texts : List String) : Data :=
  list (texts.map text)

end Data

end Codebook
