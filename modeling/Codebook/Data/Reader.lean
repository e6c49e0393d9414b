/-
# Reading plain data

Readers of single values, and the reader of records. A record gives each of its members at most
once and may hold others, which are passed over. Where the data came as text, a record may also be
given as the list of its members' values in their order; then no member may be left out but those
at the end that have a default.

Key definitions: `Form`, `Data.toText?`, `Data.toInt?`, `Data.toName?`, `Data.toList?`,
`Members`, `Data.toMembers?`, `Members.required`, `Members.optional`, `Members.defaulted`.
-/
import Codebook.Data.Basic
import Codebook.Instant.Text

namespace Codebook

/-- The form in which data arrived. -/
inductive Form where
  /-- As text. -/
  | written
  /-- As text, which was looked at before it is read. -/
  | buffered
  /-- As bytes. -/
  | packed
deriving DecidableEq, Repr

namespace Data

/-- A text. -/
def toText? : Data → Option String
  | text s => some s
  | _ => none

/-- A whole number between two bounds, both included. -/
def toInt? (low high : Int) : Data → Option Int
  | int n => if low ≤ n ∧ n ≤ high then some n else none
  | _ => none

/-- A signed number of 32 bits. -/
def toInt32? : Data → Option Int :=
  toInt? Number.minInt32 Number.maxInt32

/-- A signed number of 64 bits. -/
def toInt64? : Data → Option Int :=
  toInt? Number.minInt64 Number.maxInt64

/-- An unsigned number of 64 bits. -/
def toNat64? (d : Data) : Option Nat :=
  (d.toInt? 0 Number.maxNat64).map Int.toNat

/-- A truth value. -/
def toBool? : Data → Option Bool
  | bool b => some b
  | _ => none

/-- An instant, written as text. -/
def toInstant? (d : Data) : Option Instant :=
  d.toText?.bind Instant.read

/-- Whether this is what a name holds that stands as a record. Once the text was looked at, a record
without members is as good as null. -/
def isNothing (form : Form) : Data → Bool
  | null => form ≠ .packed
  | record [] => form = .buffered
  | _ => false

/-- One of several named values. In text it may also be a record of one member of that name,
which holds nothing. -/
def toName? {α : Type} (form : Form) (named : String → Option α) : Data → Option α
  | text s => named s
  | record [(s, held)] => if held.isNothing form then named s else none
  | _ => none

/-- A list of values that are all readable. -/
def toList? {α : Type} (read : Data → Option α) : Data → Option (List α)
  | list items => items.mapM read
  | _ => none

/-- Null, or a value. -/
def toOption? {α : Type} (read : Data → Option α) : Data → Option (Option α)
  | null => some none
  | d => (read d).map some

end Data

/-- The members of a record that were asked for, each at most once. -/
abbrev Members := List (String × Data)

namespace Data

/-- The members of the given names. Those of `names` that have a default may be missing from the
end of a list. -/
def toMembers? (form : Form) (names defaults : List String) : Data → Option Members
  | record members =>
    let known := members.filter fun (name, _) => names.contains name
    if (known.map (·.1)).Nodup then some known else none
  | list items =>
    if form ≠ .packed ∧ items.length ≤ names.length ∧
        (names.drop items.length).all defaults.contains then
      some (names.zip items)
    else none
  | _ => none

end Data

namespace Members

/-- The value of a member that has to be there. -/
def required {α : Type} (ms : Members) (name : String) (read : Data → Option α) : Option α :=
  (ms.lookup name).bind read

/-- The value of a member that may be missing or null. -/
def optional {α : Type} (ms : Members) (name : String) (read : Data → Option α) :
    Option (Option α) :=
  match ms.lookup name with
  | some d => d.toOption? read
  | none => some none

/-- The value of a member, or another value if it is missing. Null is not missing. -/
def defaulted {α : Type} (ms : Members) (name : String) (value : α) (read : Data → Option α) :
    Option α :=
  match ms.lookup name with
  | some d => read d
  | none => some value

end Members

end Codebook
