/-
# Equal neighbours

In a sorted sequence equal values are neighbours, so it is enough to compare each value with the
one before it.

Key definitions: `Neighbours`, `Neighbours.observe`.
-/
import Codebook.Search.Value

namespace Codebook

/-- What has been seen of a sequence. -/
structure Neighbours where
  /-- The value seen last, if any was seen. -/
  last : Option SortValue := none
deriving DecidableEq, Repr

namespace Neighbours

/-- Looks at the next value, and tells whether it equals the one before. -/
def observe (n : Neighbours) (value : SortValue) : Bool × Neighbours :=
  ((n.last.map fun before => before.same value).getD false, { last := some value })

end Neighbours

end Codebook
