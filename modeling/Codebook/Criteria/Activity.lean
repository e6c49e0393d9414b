/-
# Activity

An activity decides by the last change which versioned entities are visible. It holds a set of
change types and a condition: an entity has one change type, so "and" over several of them admits
nothing, "or" admits the members of the set, and "not" all the others.

Key definitions: `Condition`, `Activity`, `Activity.admits`, `Activity.all`, `Activity.actual`,
`Activity.closed`.
-/
import Codebook.Change

namespace Codebook

/-- How a part of a request combines with the parts before it. -/
inductive Condition where
  /-- Both have to hold. -/
  | and
  /-- One of them has to hold. -/
  | or
  /-- The part must not hold. -/
  | not
deriving DecidableEq, Repr, Inhabited

namespace Condition

/-- The name in data. -/
def name : Condition → String
  | and => "AND"
  | or => "OR"
  | not => "NOT"

/-- The condition of that name. -/
def named? (s : String) : Option Condition :=
  [and, or, not].find? fun c => c.name == s

/-- Reads a condition. -/
def ofData? (form : Form) : Data → Option Condition :=
  Data.toName? form named?

end Condition

/-- Which change types are visible. -/
structure Activity where
  /-- The change types. -/
  changeTypes : ChangeSet
  /-- How they combine. -/
  condition : Condition
deriving BEq

namespace Activity

/-- Everything is visible. -/
def all : Activity := ⟨.ofList ChangeType.all, .or⟩

/-- What was created, updated or restored is visible. -/
def actual : Activity := ⟨.ofList [.create, .update, .restore], .or⟩

/-- Only what was closed is visible. -/
def closed : Activity := ⟨.ofList [.close], .and⟩

/-- Whether an entity with that change type is visible. -/
def admits (a : Activity) (t : ChangeType) : Bool :=
  match a.condition with
  | .not => !a.changeTypes.contains t
  | .and => a.changeTypes.size ≤ 1 && a.changeTypes.contains t
  | .or => a.changeTypes.contains t

/-- The visible change types. -/
def admitted (a : Activity) : List ChangeType :=
  ChangeType.all.filter a.admits

/-- Whether everything is visible. -/
def admitsAll (a : Activity) : Bool :=
  ChangeType.all.all a.admits

/-- The activity of one of the three names, in any case. -/
def named? (s : String) : Option Activity :=
  match Text.upperLatin s with
  | "ALL" => some all
  | "ACTUAL" => some actual
  | "CLOSED" => some closed
  | _ => none

/-- The activity as data. -/
def toData (a : Activity) : Data :=
  .record [("changeTypes", a.changeTypes.toData), ("condition", .text a.condition.name)]

/-- Reads a name, or the change types with their condition, "or" if it is left out. The data has
to be sound, with lists and records at most `depth` levels deep. -/
def ofData? (depth : Nat) (d : Data) : Option Activity :=
  if d.soundWithin depth then
    match d with
    | .text s => named? s
    | .record _ => do
      let ms ← d.toMembers? .packed ["changeTypes", "condition"] []
      return {
        changeTypes := ← ms.required "changeTypes" ChangeSet.ofData?
        condition := ← ms.defaulted "condition" .or (Condition.ofData? .written) }
    | _ => none
  else none

end Activity

end Codebook
