/-
# Entries in the order of their keys

A list of entries under distinct keys, kept in the order of the keys, that is of the code points
of their characters.

Key definitions: `Keyed`, `Keyed.insert`, `Keyed.get?`, `Keyed.erase`, `Keyed.ofList`.
-/

namespace Codebook

/-- Entries by key. All operations here keep the keys in increasing order. -/
abbrev Keyed (α : Type) := List (String × α)

namespace Keyed

variable {α : Type}

/-- Sets the entry of a key. -/
def insert (key : String) (a : α) : Keyed α → Keyed α
  | [] => [(key, a)]
  | (k, b) :: rest =>
    if key = k then (key, a) :: rest
    else if key < k then (key, a) :: (k, b) :: rest
    else (k, b) :: insert key a rest

/-- The entry of a key. -/
def get? (key : String) : Keyed α → Option α
  | [] => none
  | (k, b) :: rest => if key = k then some b else get? key rest

/-- Removes the entry of a key. -/
def erase (key : String) : Keyed α → Keyed α
  | [] => []
  | (k, b) :: rest => if key = k then rest else (k, b) :: erase key rest

/-- Sets the entries of a list one after the other. -/
def ofList (entries : List (String × α)) : Keyed α :=
  entries.foldl (fun acc (key, a) => acc.insert key a) []

/-- The entries in the order of their keys. -/
def values (entries : Keyed α) : List α :=
  entries.map (·.2)

end Keyed

end Codebook
