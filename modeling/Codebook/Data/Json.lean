/-
# Plain data as text

The usual text notation of plain data. It is printed in two ways: without any blanks, and over
several lines with an indentation of two blanks. Members are printed in the order they have.

Texts stand between double quotes. Printed ones escape the quote, the backslash and the control
characters below the blank, by their letter where they have one, else by their code in four
digits; everything else stands for itself.

Reading goes in two steps for a text: its escapes are found first and put together afterwards,
since a character past the first 65536 is escaped as a pair of surrogates. A text in which a
surrogate stays single is no text, but data that is passed over may hold it.

Key definitions: `Data.toJson`, `Data.toPrettyJson`, `Data.ofJson?`, `Json.scanText`,
`Json.joinPieces`, `Json.readNumber`, `Json.value`.
-/
import Codebook.Data.Basic
import Codebook.Number.Numeral
import Codebook.Text.Quoted

namespace Codebook

namespace Json

/-- The escape of a control character by its code. -/
def codeEscape (code : Nat) : List Char :=
  ['\\', 'u', '0', '0', Text.hexDigit (code / 16), Text.hexDigit (code % 16)]

/-- A character between the quotes. -/
def escapeChar (c : Char) : List Char :=
  match c with
  | '"' => ['\\', '"']
  | '\\' => ['\\', '\\']
  | '\n' => ['\\', 'n']
  | '\r' => ['\\', 'r']
  | '\t' => ['\\', 't']
  | '\x08' => ['\\', 'b']
  | '\x0c' => ['\\', 'f']
  | c => if c.toNat < 32 then codeEscape c.toNat else [c]

/-- A text between its quotes. -/
def textChars (s : String) : List Char :=
  '"' :: s.toList.flatMap escapeChar ++ ['"']

/-- The characters of parts, with a separator between them. -/
def joined (separator : List Char) : List (List Char) → List Char
  | [] => []
  | [part] => part
  | part :: parts => part ++ separator ++ joined separator parts

/-- A value without parts. -/
def scalarChars : Data → List Char
  | .bool true => "true".toList
  | .bool false => "false".toList
  | .int n => (toString n).toList
  | .text s => textChars s
  | _ => "null".toList

mutual

/-- The data without blanks. -/
def chars : Data → List Char
  | .list items => '[' :: joined [','] (itemChars items) ++ [']']
  | .record members => '\x7b' :: joined [','] (memberChars members) ++ ['\x7d']
  | d => scalarChars d

/-- The items of a list, each without blanks. -/
def itemChars : List Data → List (List Char)
  | [] => []
  | item :: items => chars item :: itemChars items

/-- The members of a record, each without blanks. -/
def memberChars : List (String × Data) → List (List Char)
  | [] => []
  | (name, value) :: members => (textChars name ++ ':' :: chars value) :: memberChars members

end

/-- A new line, indented. -/
def newLine (indent : Nat) : List Char :=
  '\n' :: List.replicate (2 * indent) ' '

/-- Parts between brackets, each on a line of its own. -/
def block (indent : Nat) (opening closing : Char) (parts : List (List Char)) : List Char :=
  if parts.isEmpty then [opening, closing]
  else opening :: newLine (indent + 1) ++ joined (',' :: newLine (indent + 1)) parts ++
    newLine indent ++ [closing]

mutual

/-- The data over several lines, the first of which is already indented. -/
def prettyChars (indent : Nat) : Data → List Char
  | .list items => block indent '[' ']' (prettyItems (indent + 1) items)
  | .record members => block indent '\x7b' '\x7d' (prettyMembers (indent + 1) members)
  | d => scalarChars d

/-- The items of a list over several lines. -/
def prettyItems (indent : Nat) : List Data → List (List Char)
  | [] => []
  | item :: items => prettyChars indent item :: prettyItems indent items

/-- The members of a record over several lines. -/
def prettyMembers (indent : Nat) : List (String × Data) → List (List Char)
  | [] => []
  | (name, value) :: members =>
    (textChars name ++ ':' :: ' ' :: prettyChars indent value) :: prettyMembers indent members

end

/-! ### Reading -/

/-- The characters without the blanks, tabs and line ends at their start. -/
def skipBlanks (cs : List Char) : List Char :=
  cs.dropWhile fun c => c = ' ' || c = '\n' || c = '\t' || c = '\r'

/-- A piece of a text: a character, or the code unit of an escape. -/
inductive Piece where
  /-- A character that stands for itself, or is escaped by a letter. -/
  | char (c : Char)
  /-- The code of an escape of four digits. -/
  | unit (code : Nat)

/-- The value of a hexadecimal digit of either case. -/
def hexValue? (c : Char) : Option Nat :=
  if '0' ≤ c ∧ c ≤ '9' then some (c.toNat - 48)
  else if 'a' ≤ c ∧ c ≤ 'f' then some (c.toNat - 87)
  else if 'A' ≤ c ∧ c ≤ 'F' then some (c.toNat - 55)
  else none

/-- The code of four hexadecimal digits. -/
def hexCode? (a b c d : Char) : Option Nat := do
  return (((← hexValue? a) * 16 + (← hexValue? b)) * 16 + (← hexValue? c)) * 16 + (← hexValue? d)

/-- The character that a letter after a backslash stands for. -/
def letterEscape? : Char → Option Char
  | '"' => some '"'
  | '\\' => some '\\'
  | '/' => some '/'
  | 'b' => some '\x08'
  | 'f' => some '\x0c'
  | 'n' => some '\n'
  | 'r' => some '\r'
  | 't' => some '\t'
  | _ => none

/-- The pieces of a text up to its closing quote, and what follows it. -/
def scanText : List Char → Option (List Piece × List Char)
  | [] => none
  | '"' :: cs => some ([], cs)
  | '\\' :: 'u' :: a :: b :: c :: d :: cs => do
    let code ← hexCode? a b c d
    let (pieces, rest) ← scanText cs
    return (.unit code :: pieces, rest)
  | '\\' :: e :: cs => do
    let c ← letterEscape? e
    let (pieces, rest) ← scanText cs
    return (.char c :: pieces, rest)
  | c :: cs =>
    if c.toNat < 32 ∨ c = '\\' then none
    else do
      let (pieces, rest) ← scanText cs
      return (.char c :: pieces, rest)

/-- Whether a code is the first half of a surrogate pair. -/
def isHighHalf (code : Nat) : Bool :=
  0xD800 ≤ code && code < 0xDC00

/-- Whether a code is the second half of a surrogate pair. -/
def isLowHalf (code : Nat) : Bool :=
  0xDC00 ≤ code && code < 0xE000

/-- The characters that pieces stand for. A half of a pair without the other half stands for
none. -/
def joinPieces : List Piece → Option (List Char)
  | [] => some []
  | .char c :: pieces => (joinPieces pieces).map (c :: ·)
  | .unit high :: .unit low :: pieces =>
    if isHighHalf high then
      if isLowHalf low then
        let code := 0x10000 + (high - 0xD800) * 0x400 + (low - 0xDC00)
        (joinPieces pieces).map (Char.ofNat code :: ·)
      else none
    else if isLowHalf high then none
    else (joinPieces (.unit low :: pieces)).map (Char.ofNat high :: ·)
  | .unit code :: pieces =>
    if isHighHalf code || isLowHalf code then none
    else (joinPieces pieces).map (Char.ofNat code :: ·)

/-- A text after its opening quote. It is unsound if its escapes do not make one. -/
def readText (cs : List Char) : Option (Option String × List Char) := do
  let (pieces, rest) ← scanText cs
  return ((joinPieces pieces).map String.ofList, rest)

/-- The digits after a mark that introduces them; without the mark there are none. -/
def readPlaces : List Char → Option (Option (List Nat) × List Char)
  | '.' :: cs =>
    match Number.splitDigits cs with
    | ([], _) => none
    | (ds, rest) => some (some ds, rest)
  | cs => some (none, cs)

/-- The exponent of a number, if it has one. -/
def readPower : List Char → Option (Option Int × List Char)
  | c :: cs =>
    if c = 'e' ∨ c = 'E' then
      let (negative, cs) := match cs with
        | '+' :: cs => (false, cs)
        | '-' :: cs => (true, cs)
        | cs => (false, cs)
      match Number.splitDigits cs with
      | ([], _) => none
      | (ds, rest) =>
        let power : Int := Number.ofDigits ds
        some (some (if negative then -power else power), rest)
    else some (none, c :: cs)
  | [] => some (none, [])

/-- Whether a whole number fits into 64 bits, with or without a sign. -/
def fits (n : Int) : Bool :=
  Number.minInt64 ≤ n && n ≤ Number.maxNat64

/-- A number. It is a whole one if it has neither point nor exponent, fits into 64 bits and is
not the negative zero. Of the others only those that round to no finite double are unsound. -/
def readNumber (cs : List Char) : Option (Data × List Char) := do
  let (negative, cs) := match cs with
    | '-' :: cs => (true, cs)
    | cs => (false, cs)
  let (digits, cs) := Number.splitDigits cs
  if digits.isEmpty || (digits.length > 1 && digits.head? == some 0) then none
  let (places, cs) ← readPlaces cs
  let (power, cs) ← readPower cs
  let magnitude := Number.ofDigits digits
  let whole : Int := if negative then -magnitude else magnitude
  if places.isNone && power.isNone && fits whole && !(negative && magnitude == 0) then
    return (.int whole, cs)
  else
    let ds := digits ++ places.getD []
    let value := Number.Double.ofDecimal negative (Number.ofDigits ds)
      (power.getD 0 - (places.getD []).length)
    match value with
    | .finite .. => return (.other true, cs)
    | _ => return (.other false, cs)

/-- What is left after a word. -/
def dropWord : List Char → List Char → Option (List Char)
  | [], cs => some cs
  | w :: ws, c :: cs => if w = c then dropWord ws cs else none
  | _, [] => none

mutual

/-- A value, without blanks before it. Every step reads at least one character, so as much fuel
as there are characters is always enough. -/
def value : Nat → List Char → Option (Data × List Char)
  | 0, _ => none
  | fuel + 1, cs =>
    match cs with
    | 'n' :: _ => (dropWord "null".toList cs).map fun rest => (.null, rest)
    | 't' :: _ => (dropWord "true".toList cs).map fun rest => (.bool true, rest)
    | 'f' :: _ => (dropWord "false".toList cs).map fun rest => (.bool false, rest)
    | '"' :: cs => do
      let (s, rest) ← readText cs
      return (s.elim (.other false) .text, rest)
    | '[' :: cs =>
      match skipBlanks cs with
      | ']' :: rest => some (.list [], rest)
      | cs => do
        let (items, rest) ← values fuel cs
        return (.list items, rest)
    | '\x7b' :: cs =>
      match skipBlanks cs with
      | '\x7d' :: rest => some (.record [], rest)
      | cs => do
        let (members, rest) ← members fuel cs
        return (members.elim (.other false) .record, rest)
    | cs => readNumber cs

/-- The items of a list up to its closing bracket, without blanks before the first. -/
def values : Nat → List Char → Option (List Data × List Char)
  | 0, _ => none
  | fuel + 1, cs => do
    let (item, cs) ← value fuel cs
    match skipBlanks cs with
    | ',' :: cs => do
      let (items, rest) ← values fuel (skipBlanks cs)
      return (item :: items, rest)
    | ']' :: rest => return ([item], rest)
    | _ => none

/-- The members of a record up to its closing brace, without blanks before the first. There are
none to speak of if a name is unsound. -/
def members : Nat → List Char → Option (Option (List (String × Data)) × List Char)
  | 0, _ => none
  | fuel + 1, cs => do
    let '"' :: cs := cs | none
    let (name, cs) ← readText cs
    let ':' :: cs := skipBlanks cs | none
    let (item, cs) ← value fuel (skipBlanks cs)
    let first := name.map fun name => (name, item)
    match skipBlanks cs with
    | ',' :: cs => do
      let (others, rest) ← members fuel (skipBlanks cs)
      return ((first.bind fun first => others.map (first :: ·)), rest)
    | '\x7d' :: rest => return (first.map fun first => [first], rest)
    | _ => none

end

end Json

namespace Data

/-- The data as text without blanks. -/
def toJson (d : Data) : String :=
  String.ofList (Json.chars d)

/-- The data as text over several lines. -/
def toPrettyJson (d : Data) : String :=
  String.ofList (Json.prettyChars 0 d)

/-- Reads data that is the whole text, blanks around it apart. -/
def ofJson? (s : String) : Option Data := do
  let cs := s.toList
  let (d, rest) ← Json.value (cs.length + 1) (Json.skipBlanks cs)
  if (Json.skipBlanks rest).isEmpty then return d else none

mutual

/-- The data with the members of every record sorted by name. -/
def sorted : Data → Data
  | list items => list (sortedItems items)
  | record members =>
    record ((sortedMembers members).mergeSort fun a b => !decide (b.1 < a.1))
  | d => d

/-- The items with sorted members. -/
def sortedItems : List Data → List Data
  | [] => []
  | item :: items => sorted item :: sortedItems items

/-- The members with sorted members. -/
def sortedMembers : List (String × Data) → List (String × Data)
  | [] => []
  | (name, value) :: members => (name, sorted value) :: sortedMembers members

end

end Data

end Codebook
