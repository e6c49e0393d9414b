/-
# Instants

A moment in universal time: a day, a second of that day, and the nanoseconds gone since. During a
leap second the second stays where it is and the nanoseconds count on past a thousand million.

Key definitions: `Instant`, `Instant.milliseconds`, `Instant.isBefore`.
-/
import Codebook.Instant.Calendar

namespace Codebook

/-- A moment in universal time. -/
structure Instant where
  /-- The number of the day, counted from the epoch. -/
  day : Int
  /-- The second of the day, below 86400. -/
  second : Nat
  /-- The nanoseconds of the second, below 2000000000. -/
  nanos : Nat
deriving DecidableEq, Repr

namespace Instant

/-- The seconds of a day. -/
def daySeconds : Nat := 86400

/-- The first moment counted. -/
def epoch : Instant := ⟨0, 0, 0⟩

/-- Whole seconds since the epoch. -/
def seconds (i : Instant) : Int :=
  i.day * daySeconds + i.second

/-- Whole milliseconds since the epoch. Those of a leap second run into the next second. -/
def milliseconds (i : Instant) : Int :=
  i.seconds * 1000 + (i.nanos / 1000000 : Nat)

/-- The moment with a count of whole seconds since the epoch. -/
def ofSeconds (seconds : Int) (nanos : Nat) : Instant :=
  ⟨seconds.fdiv daySeconds, (seconds.fmod daySeconds).toNat, nanos⟩

/-- The moment some seconds later. -/
def addSeconds (i : Instant) (seconds : Int) : Instant :=
  ofSeconds (i.seconds + seconds) i.nanos

/-- Whether the first moment comes before the second one. -/
def isBefore (i j : Instant) : Bool :=
  i.seconds < j.seconds || (i.seconds == j.seconds && i.nanos < j.nanos)

end Instant

end Codebook
