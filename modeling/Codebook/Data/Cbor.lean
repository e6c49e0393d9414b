/-
# Plain data as bytes

The binary form of plain data. An item begins with a head: three bits for its kind and a number,
which says how long the item is or is the item itself. Heads are written as short as they go, and
lengths are always given.

They are read more freely. A head may be longer than it needs to be, a text, list or record may
come in pieces up to a mark, items may carry tags, which are dropped, and the bytes after the
first item are left alone. Items nest at most 256 levels deep.

Key definitions: `Data.toCbor`, `Data.ofCbor?`, `Cbor.head`, `Cbor.readHead`, `Cbor.item`.
-/
import Codebook.Data.Basic
import Codebook.Number.Range

namespace Codebook

namespace Cbor

/-- The `count` low bytes of a number, the most significant first. -/
def bigEndian : Nat → Nat → List UInt8
  | 0, _ => []
  | count + 1, n => UInt8.ofNat (n / Nat.pow 256 count) :: bigEndian count n

/-- The head of an item of a kind below 8, with its number. -/
def head (kind n : Nat) : List UInt8 :=
  let first (low : Nat) := UInt8.ofNat (kind * 32 + low)
  if n < 24 then [first n]
  else if n < 0x100 then first 24 :: bigEndian 1 n
  else if n < 0x10000 then first 25 :: bigEndian 2 n
  else if n < 0x100000000 then first 26 :: bigEndian 4 n
  else first 27 :: bigEndian 8 n

/-- A text with its head. -/
def textBytes (s : String) : List UInt8 :=
  let bytes := s.toUTF8.toList
  head 3 bytes.length ++ bytes

/-- A whole number. -/
def intBytes : Int → List UInt8
  | .ofNat n => head 0 n
  | .negSucc n => head 1 n

mutual

/-- The bytes of an item. -/
def bytes : Data → List UInt8
  | .null | .other _ => head 7 22
  | .bool false => head 7 20
  | .bool true => head 7 21
  | .int n => intBytes n
  | .text s => textBytes s
  | .list items => head 4 items.length ++ itemBytes items
  | .record members => head 5 members.length ++ memberBytes members

/-- The bytes of items, one after the other. -/
def itemBytes : List Data → List UInt8
  | [] => []
  | item :: items => bytes item ++ itemBytes items

/-- The bytes of names and values, one after the other. -/
def memberBytes : List (String × Data) → List UInt8
  | [] => []
  | (name, value) :: members => textBytes name ++ bytes value ++ memberBytes members

end

/-! ### Reading -/

/-- The number of a head: a value, or the sign that the item comes in pieces. -/
inductive Count where
  /-- The number itself, and the bytes that it took after the first one. -/
  | exactly (n width : Nat)
  /-- The pieces go on up to a mark. -/
  | open_

/-- The number that bytes write, the most significant first. -/
def ofBigEndian (bytes : List UInt8) : Nat :=
  bytes.foldl (fun n b => 256 * n + b.toNat) 0

/-- The first bytes, if there are so many, and the rest. -/
def splitBytes (count : Nat) (bytes : List UInt8) : Option (List UInt8 × List UInt8) :=
  if (bytes.take count).length = count then some (bytes.take count, bytes.drop count) else none

/-- The kind and the number of a head, and what follows it. -/
def readHead : List UInt8 → Option (Nat × Count × List UInt8)
  | [] => none
  | first :: rest =>
    let kind := first.toNat / 32
    let low := first.toNat % 32
    if low < 24 then some (kind, .exactly low 0, rest)
    else if low < 28 then do
      let width := Number.twoTo (low - 24)
      let (bytes, rest) ← splitBytes width rest
      return (kind, .exactly (ofBigEndian bytes) width, rest)
    else if low = 31 then some (kind, .open_, rest)
    else none

/-- Bytes as text, if they are well formed. -/
def decodeText? (bytes : List UInt8) : Option String :=
  String.fromUTF8? (ByteArray.mk bytes.toArray)

/-- The pieces of a text, or of a run of bytes, up to the mark. Each piece of a text is text by
itself. -/
def pieces (kind : Nat) : Nat → List UInt8 → Option (List UInt8 × List UInt8)
  | 0, _ => none
  | fuel + 1, bs => do
    match ← readHead bs with
    | (7, .open_, rest) => return ([], rest)
    | (k, .exactly n _, rest) =>
      if k ≠ kind then none
      let (piece, rest) ← splitBytes n rest
      if kind = 3 ∧ (decodeText? piece).isNone then none
      let (others, rest) ← pieces kind fuel rest
      return (piece ++ others, rest)
    | _ => none

/-- What a head of kind 7 stands for: one of the simple values, or a fraction. -/
def simple (n width : Nat) : Option Data :=
  if 2 ≤ width then some (.other true)
  else match n with
    | 20 => some (.bool false)
    | 21 => some (.bool true)
    | 22 | 23 => some .null
    | _ => none

/-- Members under texts make a record; under other names they are of no use. -/
def ofPairs (pairs : List (Data × Data)) : Data :=
  let named := pairs.mapM fun (name, value) =>
    match name with
    | .text s => some (s, value)
    | _ => none
  named.elim (.other true) .record

mutual

/-- An item. Every head takes a byte and at most two steps, so twice as much fuel as there are bytes
is always enough. -/
def item : Nat → Nat → List UInt8 → Option (Data × List UInt8)
  | 0, _, _ => none
  | fuel + 1, depth, bs => do
    let (kind, count, rest) ← readHead bs
    match kind, count with
    | 0, .exactly n _ => return (.int n, rest)
    | 1, .exactly n _ => return (.int (-1 - n), rest)
    | 2, .exactly n _ => (splitBytes n rest).map fun (_, rest) => (.other true, rest)
    | 2, .open_ => (pieces 2 fuel rest).map fun (_, rest) => (.other true, rest)
    | 3, .exactly n _ => do
      let (bytes, rest) ← splitBytes n rest
      let s ← decodeText? bytes
      return (.text s, rest)
    | 3, .open_ => do
      let (bytes, rest) ← pieces 3 fuel rest
      let s ← decodeText? bytes
      return (.text s, rest)
    | 4, count => do
      if depth = 0 then none
      let (items, rest) ← items fuel (depth - 1) (limit count) rest
      return (.list items, rest)
    | 5, count => do
      if depth = 0 then none
      let (pairs, rest) ← pairs fuel (depth - 1) (limit count) rest
      return (ofPairs pairs, rest)
    | 6, .exactly .. => item fuel depth rest
    | 7, .exactly n width => do
      let d ← simple n width
      return (d, rest)
    | _, _ => none
where
  /-- The number of parts, if it was given. -/
  limit : Count → Option Nat
    | .exactly n _ => some n
    | .open_ => none

/-- The items of a list: as many as announced, or up to the mark. -/
def items : Nat → Nat → Option Nat → List UInt8 → Option (List Data × List UInt8)
  | 0, _, _, _ => none
  | _ + 1, _, some 0, bs => some ([], bs)
  | fuel + 1, depth, count, bs =>
    match count, readHead bs with
    | none, some (7, .open_, rest) => some ([], rest)
    | _, _ => do
      let (first, rest) ← item fuel depth bs
      let (others, rest) ← items fuel depth (count.map (· - 1)) rest
      return (first :: others, rest)

/-- The names and values of a record: as many as announced, or up to the mark. -/
def pairs : Nat → Nat → Option Nat → List UInt8 → Option (List (Data × Data) × List UInt8)
  | 0, _, _, _ => none
  | _ + 1, _, some 0, bs => some ([], bs)
  | fuel + 1, depth, count, bs =>
    match count, readHead bs with
    | none, some (7, .open_, rest) => some ([], rest)
    | _, _ => do
      let (name, rest) ← item fuel depth bs
      let (value, rest) ← item fuel depth rest
      let (others, rest) ← pairs fuel depth (count.map (· - 1)) rest
      return ((name, value) :: others, rest)

end

end Cbor

namespace Data

/-- The data as bytes. -/
def toCbor (d : Data) : List UInt8 :=
  Cbor.bytes d

/-- Reads the item at the start of the bytes. -/
def ofCbor? (bytes : List UInt8) : Option Data :=
  (Cbor.item (2 * bytes.length + 2) 256 bytes).map (·.1)

end Data

end Codebook
