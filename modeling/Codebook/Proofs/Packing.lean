/-
# Data to bytes and back

What was written as bytes is read as the same data, whatever follows it. The bounds are those of
the form itself: numbers and lengths fit into 64 bits, lists and records nest no deeper than they
are read, and values that nobody asks for have no bytes of their own.

Every item takes a byte, and the reader takes at most two steps for each of them, one into the item
and one along the items beside it. So twice as much fuel as there are bytes is enough.

Key definitions: `Data.Packs`.
Key theorems: `Cbor.readHead_head`, `Cbor.decodeText?_utf8`, `Cbor.item_bytes`,
`Data.ofCbor?_toCbor`.
-/
import Codebook.Data.Cbor
import Codebook.Proofs.Directory
import Mathlib.Tactic.Ring

namespace Codebook

/-! ### Data that has bytes -/

namespace Data

/-- The number of bytes of a text can be counted in 64 bits. -/
def Fits (s : String) : Prop :=
  s.utf8ByteSize < 2 ^ 64

mutual

/-- The data can be written and read: its numbers fit into the bytes of a head, and it nests lists
and records at most `depth` levels deep. -/
def Packs (depth : Nat) : Data → Prop
  | int n => -2 ^ 64 ≤ n ∧ n < 2 ^ 64
  | text s => Fits s
  | list items => 0 < depth ∧ items.length < 2 ^ 64 ∧ PacksItems (depth - 1) items
  | record members => 0 < depth ∧ members.length < 2 ^ 64 ∧ PacksMembers (depth - 1) members
  | other _ => False
  | null | bool _ => True

/-- Every item can. -/
def PacksItems (depth : Nat) : List Data → Prop
  | [] => True
  | item :: items => Packs depth item ∧ PacksItems depth items

/-- Every member can, with its name. -/
def PacksMembers (depth : Nat) : List (String × Data) → Prop
  | [] => True
  | (name, value) :: members => Fits name ∧ Packs depth value ∧ PacksMembers depth members

end

@[simp] theorem packs_text (depth : Nat) (s : String) : (text s).Packs depth ↔ Fits s := by
  rw [Packs]

@[simp] theorem packs_record (depth : Nat) (members : List (String × Data)) :
    (record members).Packs (depth + 1) ↔ members.length < 2 ^ 64 ∧ PacksMembers depth members := by
  simp [Packs]

@[simp] theorem packsMembers_nil (depth : Nat) : PacksMembers depth [] := by
  rw [PacksMembers]
  trivial

@[simp] theorem packsMembers_cons (depth : Nat) (name : String) (value : Data)
    (members : List (String × Data)) : PacksMembers depth ((name, value) :: members) ↔
      Fits name ∧ value.Packs depth ∧ PacksMembers depth members := by
  rw [PacksMembers]

end Data

namespace Cbor

/-! ### Heads -/

theorem length_bigEndian : ∀ count n, (bigEndian count n).length = count
  | 0, _ => rfl
  | count + 1, n => by rw [bigEndian, List.length_cons, length_bigEndian count n]

theorem splitBytes_append (bytes rest : List UInt8) :
    splitBytes bytes.length (bytes ++ rest) = some (bytes, rest) := by
  simp [splitBytes]

/-- The low bytes of a number write the number, as far as they reach. -/
theorem foldl_bigEndian : ∀ count n m : Nat,
    (bigEndian count n).foldl (fun k b => 256 * k + b.toNat) m = m * 256 ^ count + n % 256 ^ count
  | 0, n, m => by simp [bigEndian, Nat.mod_one]
  | count + 1, n, m => by
    have hbyte : (UInt8.ofNat (n / Nat.pow 256 count)).toNat = n / 256 ^ count % 256 := by
      simp
    have hsplit : n % 256 ^ (count + 1) = 256 ^ count * (n / 256 ^ count % 256) + n % 256 ^ count := by
      rw [Nat.pow_succ, Nat.mod_mul, Nat.add_comm]
    rw [bigEndian, List.foldl_cons, foldl_bigEndian count n, hbyte, hsplit, Nat.pow_succ]
    ring

theorem ofBigEndian_bigEndian {count n : Nat} (h : n < 256 ^ count) :
    ofBigEndian (bigEndian count n) = n := by
  rw [ofBigEndian, foldl_bigEndian, Nat.mod_eq_of_lt h]
  simp

/-- A head whose number takes bytes of its own. -/
theorem readHead_wide {kind low width n : Nat} {rest : List UInt8} (hkind : kind < 8)
    (hlow : 24 ≤ low ∧ low < 28) (hwidth : Number.twoTo (low - 24) = width) (hn : n < 256 ^ width) :
    readHead (UInt8.ofNat (kind * 32 + low) :: bigEndian width n ++ rest) =
      some (kind, .exactly n width, rest) := by
  have hfirst : (UInt8.ofNat (kind * 32 + low)).toNat = kind * 32 + low := by
    rw [UInt8.toNat_ofNat']
    omega
  have hsplit : splitBytes width (bigEndian width n ++ rest) = some (bigEndian width n, rest) := by
    have hlength := splitBytes_append (bigEndian width n) rest
    rwa [length_bigEndian] at hlength
  have hdiv : (kind * 32 + low) / 32 = kind := by omega
  have hmod : (kind * 32 + low) % 32 = low := by omega
  rw [List.cons_append, readHead]
  simp only [hfirst, hdiv, hmod]
  rw [if_neg (by omega), if_pos hlow.2, hwidth, hsplit, ← ofBigEndian_bigEndian hn]
  simp [ofBigEndian_bigEndian hn]

/-- A head whose number is small. -/
theorem readHead_small {kind n : Nat} (hkind : kind < 8) (hn : n < 24) (rest : List UInt8) :
    readHead (head kind n ++ rest) = some (kind, .exactly n 0, rest) := by
  have hfirst : (UInt8.ofNat (kind * 32 + n)).toNat = kind * 32 + n := by
    rw [UInt8.toNat_ofNat']
    omega
  have hdiv : (kind * 32 + n) / 32 = kind := by omega
  have hmod : (kind * 32 + n) % 32 = n := by omega
  rw [head, if_pos hn, List.singleton_append, readHead]
  simp only [hfirst, hdiv, hmod]
  rw [if_pos hn]

/-- **A head reads back.** -/
theorem readHead_head {kind n : Nat} (hkind : kind < 8) (hn : n < 2 ^ 64) (rest : List UInt8) :
    ∃ width, readHead (head kind n ++ rest) = some (kind, .exactly n width, rest) := by
  by_cases h24 : n < 24
  · exact ⟨0, readHead_small hkind h24 rest⟩
  unfold head
  rw [if_neg h24]
  by_cases h1 : n < 0x100
  · rw [if_pos h1]
    exact ⟨1, readHead_wide hkind (by decide) rfl h1⟩
  rw [if_neg h1]
  by_cases h2 : n < 0x10000
  · rw [if_pos h2]
    exact ⟨2, readHead_wide hkind (by decide) rfl h2⟩
  rw [if_neg h2]
  by_cases h4 : n < 0x100000000
  · rw [if_pos h4]
    exact ⟨4, readHead_wide hkind (by decide) rfl h4⟩
  · rw [if_neg h4]
    exact ⟨8, readHead_wide hkind (by decide) rfl hn⟩

theorem head_ne_nil (kind n : Nat) : 0 < (head kind n).length := by
  unfold head
  split_ifs <;> simp

/-! ### Texts -/

theorem length_utf8 (s : String) : s.toUTF8.toList.length = s.utf8ByteSize := by
  rw [toList_bytes]
  rfl

theorem decodeText?_utf8 (s : String) : decodeText? s.toUTF8.toList = some s := by
  rw [decodeText?, toList_bytes, Array.toArray_toList]
  simp only [String.fromUTF8?, String.toUTF8_eq_toByteArray]
  rw [dif_pos s.isValidUTF8]
  rfl

/-- A text with its head is read as an item. -/
theorem item_textBytes {s : String} (hs : Data.Fits s) (fuel depth : Nat) (rest : List UInt8) :
    item (fuel + 1) depth (textBytes s ++ rest) = some (.text s, rest) := by
  have hlength : s.toUTF8.toList.length < 2 ^ 64 := by
    rw [length_utf8]
    exact hs
  obtain ⟨width, hhead⟩ := readHead_head (show 3 < 8 by decide) hlength (s.toUTF8.toList ++ rest)
  rw [textBytes, List.append_assoc, item, hhead]
  simp only [Option.bind_eq_bind, Option.bind_some, splitBytes_append, decodeText?_utf8]
  rfl

/-! ### Items -/

theorem length_textBytes (s : String) : 0 < (textBytes s).length := by
  have hhead := head_ne_nil 3 s.toUTF8.toList.length
  simp only [textBytes, List.length_append]
  omega

theorem length_bytes (d : Data) : 0 < (bytes d).length := by
  cases d with
  | null | other => exact head_ne_nil 7 22
  | bool b =>
    cases b with
    | false => exact head_ne_nil 7 20
    | true => exact head_ne_nil 7 21
  | int n => cases n <;> exact head_ne_nil _ _
  | text s => exact length_textBytes s
  | list items =>
    have hhead := head_ne_nil 4 items.length
    simp only [bytes, List.length_append]
    omega
  | record members =>
    have hhead := head_ne_nil 5 members.length
    simp only [bytes, List.length_append]
    omega

/-- Names and values that were read make the record again. -/
theorem ofPairs_texts (members : List (String × Data)) :
    ofPairs (members.map fun (name, value) => (.text name, value)) = .record members := by
  have hnamed : members.mapM some = some members :=
    (List.mapM_pure (f := id)).trans (congrArg some (List.map_id members))
  unfold ofPairs
  rw [List.mapM_map]
  exact congrArg (Option.elim · (Data.other true) Data.record) hnamed

section

variable {fuel depth count : Nat} {bs rest rest' rest'' : List UInt8}

/-- Of a list whose length was announced one item is read after the other. -/
theorem items_cons {first : Data} {others : List Data}
    (hfirst : item fuel depth bs = some (first, rest))
    (hothers : items fuel depth (some count) rest = some (others, rest')) :
    items (fuel + 1) depth (some (count + 1)) bs = some (first :: others, rest') := by
  rw [items]
  · simp [hfirst, hothers]
  · simp
  · simp

theorem pairs_cons {name value : Data} {others : List (Data × Data)}
    (hname : item fuel depth bs = some (name, rest))
    (hvalue : item fuel depth rest = some (value, rest'))
    (hothers : pairs fuel depth (some count) rest' = some (others, rest'')) :
    pairs (fuel + 1) depth (some (count + 1)) bs = some ((name, value) :: others, rest'') := by
  rw [pairs]
  · simp [hname, hvalue, hothers]
  · simp
  · simp

end

mutual

/-- **What was written reads back**, whatever follows it. -/
theorem item_bytes : ∀ {d : Data} {fuel depth : Nat}, d.Packs depth →
    2 * (bytes d).length ≤ fuel → ∀ rest, item fuel depth (bytes d ++ rest) = some (d, rest)
  | d, 0, _, _, hfuel, _ => by
    have hpos := length_bytes d
    omega
  | .null, fuel + 1, depth, _, _, rest => by
    rw [bytes, item, readHead_small (by decide) (by decide)]
    rfl
  | .bool false, fuel + 1, depth, _, _, rest => by
    rw [bytes, item, readHead_small (by decide) (by decide)]
    rfl
  | .bool true, fuel + 1, depth, _, _, rest => by
    rw [bytes, item, readHead_small (by decide) (by decide)]
    rfl
  | .int (.ofNat n), fuel + 1, depth, h, _, rest => by
    have hn : n < 2 ^ 64 := Int.ofNat_lt.mp h.2
    obtain ⟨width, hhead⟩ := readHead_head (show 0 < 8 by decide) hn rest
    rw [bytes, intBytes, item, hhead]
    rfl
  | .int (.negSucc n), fuel + 1, depth, h, _, rest => by
    have hn : n < 2 ^ 64 := by
      have hlow := h.1
      rw [Int.negSucc_eq] at hlow
      omega
    obtain ⟨width, hhead⟩ := readHead_head (show 1 < 8 by decide) hn rest
    rw [bytes, intBytes, item, hhead]
    show some (Data.int (-1 - n), rest) = _
    rw [show (-1 - n : Int) = Int.negSucc n by omega]
  | .text s, fuel + 1, depth, h, _, rest => item_textBytes h fuel depth rest
  | .list xs, fuel + 1, depth, h, hfuel, rest => by
    obtain ⟨hdepth, hcount, hitems⟩ := h
    obtain ⟨width, hhead⟩ := readHead_head (show 4 < 8 by decide) hcount (itemBytes xs ++ rest)
    have hpos := head_ne_nil 4 xs.length
    rw [bytes, List.length_append] at hfuel
    rw [bytes, List.append_assoc, item, hhead]
    simp only [Option.bind_eq_bind, Option.bind_some, if_neg (Nat.ne_of_gt hdepth), item.limit]
    rw [items_itemBytes hitems (by omega) rest]
    rfl
  | .record ms, fuel + 1, depth, h, hfuel, rest => by
    obtain ⟨hdepth, hcount, hmembers⟩ := h
    obtain ⟨width, hhead⟩ := readHead_head (show 5 < 8 by decide) hcount (memberBytes ms ++ rest)
    have hpos := head_ne_nil 5 ms.length
    rw [bytes, List.length_append] at hfuel
    rw [bytes, List.append_assoc, item, hhead]
    simp only [Option.bind_eq_bind, Option.bind_some, if_neg (Nat.ne_of_gt hdepth), item.limit]
    rw [pairs_memberBytes hmembers (by omega) rest]
    simp only [Option.bind_some, ofPairs_texts]
    rfl

theorem items_itemBytes : ∀ {xs : List Data} {fuel depth : Nat}, Data.PacksItems depth xs →
    2 * (itemBytes xs).length + 1 ≤ fuel →
    ∀ rest, items fuel depth (some xs.length) (itemBytes xs ++ rest) = some (xs, rest)
  | [], fuel + 1, _, _, _, _ => rfl
  | x :: xs, fuel + 1, depth, h, hfuel, rest => by
    have hpos := length_bytes x
    rw [itemBytes, List.length_append] at hfuel
    rw [itemBytes, List.append_assoc, List.length_cons]
    exact items_cons (item_bytes h.1 (by omega) _) (items_itemBytes h.2 (by omega) rest)

theorem pairs_memberBytes : ∀ {ms : List (String × Data)} {fuel depth : Nat},
    Data.PacksMembers depth ms → 2 * (memberBytes ms).length + 1 ≤ fuel →
    ∀ rest, pairs fuel depth (some ms.length) (memberBytes ms ++ rest) =
      some (ms.map fun (name, value) => (.text name, value), rest)
  | [], fuel + 1, _, _, _, _ => rfl
  | (name, value) :: ms, fuel + 1, depth, h, hfuel, rest => by
    obtain ⟨hname, hvalue, hrest⟩ := h
    have hpos := length_textBytes name
    have hpos' := length_bytes value
    rw [memberBytes, List.length_append, List.length_append] at hfuel
    obtain ⟨fuel, rfl⟩ : ∃ k, fuel = k + 1 := ⟨fuel - 1, by omega⟩
    rw [memberBytes, List.append_assoc, List.append_assoc, List.length_cons]
    exact pairs_cons (item_textBytes hname fuel depth _) (item_bytes hvalue (by omega) _)
      (pairs_memberBytes hrest (by omega) rest)

end

end Cbor

/-- **Data that was written as bytes is read from them.** -/
theorem Data.ofCbor?_toCbor {d : Data} (h : d.Packs 256) : Data.ofCbor? d.toCbor = some d := by
  have hread := Cbor.item_bytes h (Nat.le_add_right (2 * (Cbor.bytes d).length) 2) []
  rw [List.append_nil] at hread
  rw [ofCbor?, toCbor, hread]
  rfl

end Codebook
