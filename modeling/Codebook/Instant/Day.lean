/-
# Whole days

A zone gives the moments of universal time their local date and time. The day of an instant in a
zone runs from its first local millisecond to its last one. Where the clocks were turned back, a
local time is reached twice and the earlier moment counts. Where they were turned forward and the
local time never came, the time one hour later stands in for it, and, if that never came either,
the same reading of the clock in universal time.

Key definitions: `Zone`, `Zone.offsetAt`, `Zone.moment`, `startOfDay`, `endOfDay`.
-/
import Codebook.Instant.Basic

namespace Codebook.Instant

/-- How local time follows from universal time. Offsets are seconds to the east. -/
inductive Zone where
  /-- The same offset at all times. -/
  | fixed (offset : Int)
  /-- One offset before an instant and another one from it on. -/
  | turning (before after : Int) (turn : Instant)
deriving DecidableEq, Repr

/-- Universal time. -/
def Zone.universal : Zone := .fixed 0

/-- The offset in force at an instant. -/
def Zone.offsetAt (zone : Zone) (i : Instant) : Int :=
  match zone with
  | .fixed offset => offset
  | .turning before after turn => if i.isBefore turn then before else after

/-- The date in the zone on which an instant falls, as the number of a day. -/
def Zone.dayOf (zone : Zone) (i : Instant) : Int :=
  (i.addSeconds (zone.offsetAt i)).day

/-- The earliest instant at which clocks in the zone show the given local time. -/
def Zone.moment (zone : Zone) (clock : Instant) : Option Instant :=
  match zone with
  | .fixed offset => some (clock.addSeconds (-offset))
  | .turning before after turn =>
    let early := clock.addSeconds (-before)
    let late := clock.addSeconds (-after)
    if early.isBefore turn then some early
    else if late.isBefore turn then none
    else some late

/-- The milliseconds since the epoch at which clocks in the zone show the given local time. -/
def Zone.millisecondsAt (zone : Zone) (clock : Instant) : Int :=
  let moment := (zone.moment clock).orElse fun _ => zone.moment (clock.addSeconds 3600)
  (moment.getD clock).milliseconds

/-- The first millisecond of the day of an instant. -/
def startOfDay (zone : Zone) (i : Instant) : Int :=
  zone.millisecondsAt ⟨zone.dayOf i, 0, 0⟩

/-- The last millisecond of the day of an instant. -/
def endOfDay (zone : Zone) (i : Instant) : Int :=
  zone.millisecondsAt ⟨zone.dayOf i, 86399, 999000000⟩

end Codebook.Instant
