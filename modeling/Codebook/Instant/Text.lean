/-
# The text of instants

Instants are written as date, time and a `Z`, with no fraction or one of 3, 6 or 9 places,
whichever is the shortest that loses nothing. A leap second is written as second 60.

They are read more freely: the date and the time may be parted by `T`, `t` or a blank, numbers
may have fewer digits and blanks in front of them or behind, a year may carry a sign, a fraction
may have any number of places, and the offset from universal time may be `Z`, `UTC` in any case,
or hours and minutes. Without an offset nothing is read.

Key definitions: `Instant.toText`, `Instant.read`, `readDate`, `readTime`, `readOffset`.
-/
import Codebook.Instant.Basic
import Codebook.Number.Digits
import Codebook.Text.Space

namespace Codebook.Instant

open Number (digit? ofDigits splitDigits padded)

/-- A year of four digits, or with its sign if it does not fit. -/
def yearText (year : Int) : String :=
  if 0 ≤ year ∧ year ≤ 9999 then padded 4 year.toNat
  else (if year < 0 then "-" else "+") ++ padded 4 year.natAbs

/-- The fraction of a second. -/
def fractionText (nanos : Nat) : String :=
  if nanos = 0 then ""
  else if nanos % 1000000 = 0 then "." ++ padded 3 (nanos / 1000000)
  else if nanos % 1000 = 0 then "." ++ padded 6 (nanos / 1000)
  else "." ++ padded 9 nanos

/-- The instant as text. -/
def toText (i : Instant) : String :=
  let date := Date.ofDayNumber i.day
  let leap := 1000000000 ≤ i.nanos
  let second := i.second % 60 + if leap then 1 else 0
  let nanos := if leap then i.nanos - 1000000000 else i.nanos
  yearText date.year ++ "-" ++ padded 2 date.month ++ "-" ++ padded 2 date.day ++ "T" ++
    padded 2 (i.second / 3600) ++ ":" ++ padded 2 (i.second / 60 % 60) ++ ":" ++ padded 2 second ++
    fractionText nanos ++ "Z"

/-- The digits at the start, at most `width` of them. -/
def takeDigits : Nat → List Char → List Nat × List Char
  | width + 1, c :: cs =>
    match digit? c with
    | some d => let (ds, rest) := takeDigits width cs; (d :: ds, rest)
    | none => ([], c :: cs)
  | _, cs => ([], cs)

/-- A number of one to `width` digits, after blanks. -/
def readNumber (width : Nat) (cs : List Char) : Option (Nat × List Char) :=
  match takeDigits width (Text.dropSpace cs) with
  | ([], _) => none
  | (ds, rest) => some (ofDigits ds, rest)

/-- A year: up to four digits, or any number of them after a sign. -/
def readYear (cs : List Char) : Option (Int × List Char) :=
  match Text.dropSpace cs with
  | '-' :: rest => signed rest fun n => -n
  | '+' :: rest => signed rest fun n => n
  | rest => (readNumber 4 rest).map fun (n, rest) => (n, rest)
where
  /-- The digits after a sign. -/
  signed (cs : List Char) (f : Int → Int) : Option (Int × List Char) :=
    match splitDigits cs with
    | ([], _) => none
    | (ds, rest) => some (f (ofDigits ds), rest)

/-- A mark, after blanks. -/
def readMark (mark : Char) (cs : List Char) : Option (List Char) :=
  match Text.dropSpace cs with
  | c :: rest => if c = mark then some rest else none
  | [] => none

/-- A date, which has to be one of the calendar. -/
def readDate (cs : List Char) : Option (Date × List Char) := do
  let (year, cs) ← readYear cs
  let cs ← readMark '-' cs
  let (month, cs) ← readNumber 2 cs
  let cs ← readMark '-' cs
  let (day, cs) ← readNumber 2 cs
  let date ← Date.ofParts? year month day
  return (date, cs)

/-- A fraction as nanoseconds. Places after the ninth are dropped. -/
def readFraction : List Char → Option (Nat × List Char)
  | '.' :: cs =>
    match splitDigits cs with
    | ([], _) => none
    | (ds, rest) => some (ofDigits ((ds ++ List.replicate 9 0).take 9), rest)
  | cs => some (0, cs)

/-- A time of day, as seconds and nanoseconds. Second 60 is the second before it, a thousand
million nanoseconds on. -/
def readTime (cs : List Char) : Option ((Nat × Nat) × List Char) := do
  let (hour, cs) ← readNumber 2 cs
  let cs ← readMark ':' cs
  let (minute, cs) ← readNumber 2 cs
  let cs ← readMark ':' cs
  let (second, cs) ← readNumber 2 cs
  let (nanos, cs) ← readFraction cs
  if hour < 24 ∧ minute < 60 ∧ second ≤ 60 then
    let whole := hour * 3600 + minute * 60
    return (if second = 60 then (whole + 59, nanos + 1000000000) else (whole + second, nanos), cs)
  else none

/-- Hours and minutes of an offset, in seconds. Colons and blanks may stand between them. -/
def readHoursMinutes (cs : List Char) : Option (Nat × List Char) :=
  match cs with
  | a :: b :: cs =>
    match digit? a, digit? b, cs.dropWhile fun c => c = ':' || Text.isSpace c with
    | some a, some b, c :: d :: cs =>
      match digit? c, digit? d with
      | some c, some d =>
        if c < 6 then some ((10 * a + b) * 3600 + (10 * c + d) * 60, cs) else none
      | _, _ => none
    | _, _, _ => none
  | _ => none

/-- An offset from universal time, in seconds, below a day. -/
def readOffset (cs : List Char) : Option (Int × List Char) :=
  match cs with
  | 'Z' :: cs | 'z' :: cs => some (0, cs)
  | u :: t :: c :: cs =>
    if [u, t, c].map Char.toUpper = ['U', 'T', 'C'] then some (0, cs)
    else signed u (t :: c :: cs)
  | c :: cs => signed c cs
  | [] => none
where
  /-- The sign and what follows it. The typographic minus sign counts too. -/
  signed (sign : Char) (cs : List Char) : Option (Int × List Char) := do
    let (offset, cs) ← readHoursMinutes cs
    if daySeconds ≤ offset then none
    else if sign = '+' then return (offset, cs)
    else if sign = '-' ∨ sign = '−' then return (-(offset : Int), cs)
    else none

/-- Whether a character may part the date from the time. -/
def isSeparator (c : Char) : Bool :=
  c = 'T' || c = 't' || c = ' '

/-- Reads an instant that is the whole text. -/
def read (s : String) : Option Instant := do
  let (date, cs) ← readDate s.toList
  let separator :: cs := cs | none
  if !isSeparator separator then none
  let ((second, nanos), cs) ← readTime cs
  let (offset, cs) ← readOffset (Text.dropSpace cs)
  if !(Text.dropSpace cs).isEmpty then none
  return addSeconds ⟨date.dayNumber, second, nanos⟩ (-offset)

end Codebook.Instant
