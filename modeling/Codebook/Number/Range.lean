/-
# Powers and bounds

Powers of two and of ten, and the bounds of the whole numbers that fit into 32 or 64 bits.

Key definitions: `twoTo`, `tenTo`, `minInt32`, `maxInt32`, `minInt64`, `maxInt64`, `maxNat64`.
-/

namespace Codebook.Number

/-- A power of two. -/
def twoTo (n : Nat) : Nat :=
  Nat.pow 2 n

/-- A power of ten. -/
def tenTo (n : Nat) : Nat :=
  Nat.pow 10 n

/-- The least signed number of 32 bits. -/
def minInt32 : Int := -0x80000000

/-- The greatest signed number of 32 bits. -/
def maxInt32 : Int := 0x7FFFFFFF

/-- The least signed number of 64 bits. -/
def minInt64 : Int := -0x8000000000000000

/-- The greatest signed number of 64 bits. -/
def maxInt64 : Int := 0x7FFFFFFFFFFFFFFF

/-- The greatest unsigned number of 32 bits. -/
def maxNat32 : Nat := 0xFFFFFFFF

/-- The greatest unsigned number of 64 bits. -/
def maxNat64 : Nat := 0xFFFFFFFFFFFFFFFF

end Codebook.Number
