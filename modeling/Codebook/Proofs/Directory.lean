/-
# Names in the directory of an index

Generations have names of their own: no two have the same, and none is that of the pointer. A name
reads back as the number it was made from, as long as the number can be counted, and so does the
pointer after it was turned.

Key definitions: `IndexDirectory.Points`.
Key theorems: `Number.readUnsigned_padded`, `Disk.text?_of_utf8`,
`IndexDirectory.generationName_injective`, `IndexDirectory.generationNumber?_generationName`,
`IndexDirectory.mem_generations`, `IndexDirectory.readPointer_of_written`.
-/
import Codebook.Index.Directory
import Codebook.Proofs.Disk

namespace Codebook

/-! ### Numerals -/

namespace Number

theorem digit?_of_isDigit {c : Char} (h : c.isDigit) : digit? c = some (c.toNat - 48) := by
  unfold digit?
  rw [if_pos]
  simpa [Char.isDigit, Char.le_def] using h

theorem splitDigits_of_isDigit : ∀ {cs : List Char}, (∀ c ∈ cs, c.isDigit) →
    splitDigits cs = (cs.map fun c => c.toNat - 48, [])
  | [], _ => rfl
  | c :: cs, h => by
    have hc := digit?_of_isDigit (h c List.mem_cons_self)
    have ih := splitDigits_of_isDigit fun d hd => h d (List.mem_cons_of_mem _ hd)
    simp [splitDigits, hc, ih]

theorem ofDigits_map (cs : List Char) :
    ofDigits (cs.map fun c => c.toNat - 48) = Nat.ofDigitChars 10 cs 0 := by
  rw [ofDigits, List.foldl_map]
  rfl

theorem toList_padded (width n : Nat) :
    (padded width n).toList =
      List.replicate (width - (toString n).length) '0' ++ Nat.toDigits 10 n := by
  simp [padded, String.toList_append, Nat.toList_repr]

theorem isDigit_of_mem_padded {width n : Nat} {c : Char} (h : c ∈ (padded width n).toList) :
    c.isDigit := by
  rw [toList_padded, List.mem_append] at h
  rcases h with h | h
  · rw [List.eq_of_mem_replicate h]
    rfl
  · exact Nat.isDigit_of_mem_toDigits (by decide) (by decide) h

theorem ofDigitChars_padded (width n : Nat) : Nat.ofDigitChars 10 (padded width n).toList 0 = n := by
  rw [toList_padded, Nat.ofDigitChars_append, Nat.ofDigitChars_replicate_zero]
  simp

theorem padded_ne_nil (width n : Nat) : (padded width n).toList ≠ [] := by
  rw [toList_padded]
  simp

theorem readUnsigned_of_digits {s : String} {ds : List Nat} (hplus : ∀ cs, s.toList ≠ '+' :: cs)
    (hs : splitDigits s.toList = (ds, [])) (hne : ds ≠ []) :
    readUnsigned s = if ofDigits ds ≤ maxNat64 then some (ofDigits ds) else none := by
  unfold readUnsigned
  split
  · next cs heq => exact absurd heq (hplus cs)
  · cases ds with
    | nil => exact absurd rfl hne
    | cons d ds => simp only [hs]

/-- A padded number reads back, unless it is too great. -/
theorem readUnsigned_padded (width n : Nat) :
    readUnsigned (padded width n) = if n ≤ maxNat64 then some n else none := by
  have hdigit : ∀ c ∈ (padded width n).toList, c.isDigit := fun c => isDigit_of_mem_padded
  have hplus : ∀ cs, (padded width n).toList ≠ '+' :: cs := by
    intro cs heq
    have := hdigit '+' (heq ▸ List.mem_cons_self)
    exact absurd this (by decide)
  rw [readUnsigned_of_digits hplus (splitDigits_of_isDigit hdigit) (by simpa using padded_ne_nil width n),
    ofDigits_map, ofDigitChars_padded]

theorem readUnsigned_le {s : String} {n : Nat} (h : readUnsigned s = some n) : n ≤ maxNat64 := by
  unfold readUnsigned at h
  simp only at h
  split at h
  · simp at h
  · split_ifs at h with hle
    exact Option.some.inj h ▸ hle
  · simp at h

end Number

/-! ### Text files -/

theorem toList_bytes (bytes : ByteArray) : bytes.toList = bytes.data.toList := by
  have hloop : ∀ k i (r : List UInt8), bytes.size - i = k → i ≤ bytes.size →
      ByteArray.toList.loop bytes i r = r.reverse ++ bytes.data.toList.drop i := by
    intro k
    induction k with
    | zero =>
      intro i r hk hi
      have hsize : bytes.data.toList.length = bytes.size := rfl
      rw [ByteArray.toList.loop, if_neg (by omega), List.drop_eq_nil_of_le (by omega)]
      simp
    | succ k ih =>
      intro i r hk hi
      have hlt : i < bytes.data.toList.length := by
        show i < bytes.size
        omega
      have hget : bytes.get! i = bytes.data.toList[i] := by
        show bytes.data[i]! = _
        rw [getElem!_pos bytes.data i hlt]
        rfl
      rw [ByteArray.toList.loop, if_pos (by omega), ih (i + 1) _ (by omega) (by omega), hget,
        List.drop_eq_getElem_cons hlt]
      simp
  simpa [ByteArray.toList] using hloop bytes.size 0 [] rfl (Nat.zero_le _)

/-- What was written as text is read as the same text. -/
theorem Disk.text?_of_utf8 {d : Disk} {p : Path} {s : String} {holder : Option Nat}
    (h : d.node? p = some (.file s.toUTF8.toList holder)) : d.text? p = some s := by
  have hbytes : d.bytes? p = some s.toUTF8.toList := by rw [bytes?, h]
  rw [text?, hbytes, Option.bind_some, toList_bytes, Array.toArray_toList]
  simp only [String.fromUTF8?, String.toUTF8_eq_toByteArray]
  rw [dif_pos s.isValidUTF8]
  rfl

/-! ### Names of generations -/

theorem Text.dropStart_append (mark cs : List Char) : dropStart mark (mark ++ cs) = some cs := by
  induction mark with
  | nil => cases cs <;> rfl
  | cons c mark ih => simp [dropStart, ih]

/-- Trimming takes away the end of a line, and no more of a text that has no white space at its
ends. -/
theorem Text.trim_line {s : String} {c d : Char} {rest before : List Char}
    (hfirst : s.toList = c :: rest) (hc : isSpace c = false) (hlast : s.toList = before ++ [d])
    (hd : isSpace d = false) : trim (s ++ "\n") = s := by
  have hreverse : s.toList.reverse = d :: before.reverse := by simp [hlast]
  have hfront : dropSpace (s.toList ++ ['\n']) = s.toList ++ ['\n'] := by
    simp [dropSpace, hfirst, hc]
  have hback : dropSpace (s.toList ++ ['\n']).reverse = s.toList.reverse := by
    have hline : isSpace '\n' = true := by decide
    simp [dropSpace, hreverse, hline, hd]
  rw [trim, trimChars, String.toList_append, show "\n".toList = ['\n'] from rfl, hfront, hback,
    List.reverse_reverse, String.ofList_toList]

namespace IndexDirectory

theorem toList_generationName (n : Nat) :
    (generationName n).toList = "gen-".toList ++ (Number.padded 6 n).toList :=
  String.toList_append ..

theorem generationName_injective {m n : Nat} (h : generationName m = generationName n) : m = n := by
  have hchars := congrArg String.toList h
  rw [toList_generationName, toList_generationName, List.append_cancel_left_eq] at hchars
  rw [← Number.ofDigitChars_padded 6 m, hchars, Number.ofDigitChars_padded]

theorem generationNumber?_eq (n : Nat) :
    generationNumber? (generationName n) = if n ≤ Number.maxNat64 then some n else none := by
  rw [generationNumber?, toList_generationName, Text.dropStart_append, Option.bind_some,
    String.ofList_toList, Number.readUnsigned_padded]

/-- The name of a generation gives its number, if that can be counted. -/
theorem generationNumber?_generationName {n : Nat} (hn : n ≤ Number.maxNat64) :
    generationNumber? (generationName n) = some n := by
  rw [generationNumber?_eq, if_pos hn]

/-- The number in the name of a generation is the one that the name was made from. -/
theorem number_of_generationName {n k : Nat} (h : generationNumber? (generationName n) = some k) :
    k = n := by
  rw [generationNumber?_eq] at h
  split_ifs at h
  exact (Option.some.inj h).symm

theorem generationNumber?_le {name : String} {n : Nat} (h : generationNumber? name = some n) :
    n ≤ Number.maxNat64 := by
  obtain ⟨digits, -, hread⟩ := Option.bind_eq_some_iff.mp h
  exact Number.readUnsigned_le hread

theorem generationName_ne {n : Nat} {s : String} (hs : s.toList.head? ≠ some 'g') :
    generationName n ≠ s := by
  rintro rfl
  rw [toList_generationName] at hs
  exact hs rfl

theorem generationName_ne_pointer (n : Nat) : generationName n ≠ pointerName :=
  generationName_ne (by decide)

theorem generationName_ne_draft (n : Nat) : generationName n ≠ draftName :=
  generationName_ne (by decide)

/-- The pointer and its draft are not named like generations. -/
theorem ne_of_numbered {name : String} {n : Nat} (h : generationNumber? name = some n) : name ≠ pointerName ∧ name ≠ draftName := by
  have hpointer : generationNumber? pointerName = none := by decide
  have hdraft : generationNumber? draftName = none := by decide
  constructor <;> rintro rfl <;> simp_all

theorem mem_insertNumber {m n : Nat} : ∀ {ns : List Nat}, n ∈ insertNumber m ns ↔ n = m ∨ n ∈ ns
  | [] => by simp [insertNumber]
  | k :: ns => by
    rw [insertNumber]
    split_ifs
    · exact List.mem_cons
    · rw [List.mem_cons, mem_insertNumber, List.mem_cons]
      tauto

/-- The generations are the directories with the name of one. -/
theorem mem_generations {dir : IndexDirectory} {d : Disk} {n : Nat} (hd : d.Sound) : n ∈ dir.generations d ↔
    ∃ name, d.node? (dir.path ++ [name]) = some .directory ∧ generationNumber? name = some n := by
  have hmem : ∀ ns : List Nat, n ∈ ns.foldr insertNumber [] ↔ n ∈ ns := by
    intro ns
    induction ns with
    | nil => rfl
    | cons m ns ih => rw [List.foldr_cons, mem_insertNumber, ih, List.mem_cons]
  rw [generations, hmem, List.mem_filterMap]
  constructor
  · rintro ⟨⟨name, node⟩, hchild, hnumber⟩
    simp only [Option.ite_none_right_eq_some] at hnumber
    obtain ⟨rfl, hnumber⟩ := hnumber
    exact ⟨name, (Disk.mem_children hd).mp hchild, hnumber⟩
  · rintro ⟨name, hnode, hnumber⟩
    exact ⟨(name, .directory), (Disk.mem_children hd).mpr hnode, by simp [hnumber]⟩

theorem isSpace_of_isDigit {c : Char} (h : c.isDigit) : Text.isSpace c = false := by
  have hrange : 48 ≤ c.toNat ∧ c.toNat ≤ 57 := by
    simpa [Char.isDigit, UInt32.le_iff_toNat_le] using h
  simp only [Text.isSpace, Text.inRanges, Text.spaceRanges, List.any_cons, List.any_nil,
    Bool.or_false, Bool.or_eq_false_iff, Bool.and_eq_false_iff, decide_eq_false_iff_not]
  omega

theorem trim_pointer (n : Nat) : Text.trim (generationName n ++ "\n") = generationName n := by
  have hne := Number.padded_ne_nil 6 n
  have hlast : (generationName n).toList =
      ("gen-".toList ++ (Number.padded 6 n).toList.dropLast) ++ [(Number.padded 6 n).toList.getLast hne] := by
    rw [List.append_assoc, List.dropLast_concat_getLast hne, toList_generationName]
  refine Text.trim_line (toList_generationName n) (by decide) hlast ?_
  exact isSpace_of_isDigit (Number.isDigit_of_mem_padded (List.getLast_mem hne))

/-- A pointer that was turned to a generation is read as the number of this generation. -/
theorem readPointer_of_written {path : Path} {name : String} {d : Disk} {n : Nat}
    {holder : Option Nat} (hn : n ≤ Number.maxNat64)
    (h : d.node? (path ++ [pointerName]) =
      some (.file (generationName n ++ "\n").toUTF8.toList holder)) :
    readPointer path name d = .ok (some n) := by
  rw [readPointer, h]
  simp only [Disk.text?_of_utf8 h, trim_pointer, generationNumber?_generationName hn]

theorem readPointer_congr {path : Path} {name : String} {d d' : Disk}
    (h : d'.node? (path ++ [pointerName]) = d.node? (path ++ [pointerName])) :
    readPointer path name d' = readPointer path name d := by
  simp only [readPointer, Disk.text?, Disk.bytes?, h]

theorem readPointer_le {path : Path} {name : String} {d : Disk} {n : Nat}
    (h : readPointer path name d = .ok (some n)) : n ≤ Number.maxNat64 := by
  unfold readPointer at h
  split at h
  · simp at h
  · split at h
    · simp at h
    · split at h
      · rename_i k hk
        simp only [Except.ok.injEq, Option.some.injEq] at h
        exact h ▸ generationNumber?_le hk
      · simp at h

/-- There is a pointer to the live generation. A number that cannot be counted is not read back
from it. -/
def Points (dir : IndexDirectory) (d : Disk) : Prop :=
  ∃ n, d.node? (dir.path ++ [pointerName]) = some n ∧
    (dir.current ≤ Number.maxNat64 → readPointer dir.path dir.name d = .ok (some dir.current))

theorem Points.keep {dir : IndexDirectory} {d d' : Disk} (h : dir.Points d)
    (hk : ∀ n, d.node? (dir.path ++ [pointerName]) = some n →
      d'.node? (dir.path ++ [pointerName]) = some n) : dir.Points d' := by
  obtain ⟨n, hn, hread⟩ := h
  refine ⟨n, hk n hn, fun hmax => ?_⟩
  rw [readPointer_congr ((hk n hn).trans hn.symm)]
  exact hread hmax

end IndexDirectory
end Codebook
