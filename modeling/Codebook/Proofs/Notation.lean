/-
# Data to text and back

What was written as text is read as the same data, whatever follows it, unless that would carry a
number on. Texts may hold any characters: those that would end a text or a line are escaped, and each
escape is read as the character it was made from. The data itself may nest as deep as it likes; how
deep a reader goes is its own affair.

Every step of the reader takes a character, so as much fuel as there are characters is enough.

Key definitions: `Data.Notes`, `Json.EndsNumber`.
Key theorems: `Json.readText_textChars`, `Json.readNumber_toString`, `Json.value_chars`,
`Data.ofJson?_toJson`.
-/
import Codebook.Proofs.Instants

namespace Codebook

namespace Data

mutual

/-- The data has a text of its own: its numbers are among those that are read as whole ones, and
nothing in it stands for a value that nobody asks for. -/
def Notes : Data → Prop
  | int n => Json.fits n = true
  | list items => NotesItems items
  | record members => NotesMembers members
  | other _ => False
  | null | bool _ | text _ => True

/-- Every item has. -/
def NotesItems : List Data → Prop
  | [] => True
  | item :: items => Notes item ∧ NotesItems items

/-- Every member has. -/
def NotesMembers : List (String × Data) → Prop
  | [] => True
  | (_, value) :: members => Notes value ∧ NotesMembers members

end

@[simp] theorem notes_list {items : List Data} : (list items).Notes ↔ ∀ d ∈ items, d.Notes := by
  rw [Notes]
  induction items with
  | nil => simp [NotesItems]
  | cons d items ih => rw [NotesItems, ih, List.forall_mem_cons]

@[simp] theorem notes_record {members : List (String × Data)} :
    (record members).Notes ↔ ∀ m ∈ members, m.2.Notes := by
  rw [Notes]
  induction members with
  | nil => simp [NotesMembers]
  | cons m members ih => rw [NotesMembers, ih, List.forall_mem_cons]

@[simp] theorem notes_text (s : String) : (text s).Notes := trivial

@[simp] theorem notes_bool (b : Bool) : (bool b).Notes := trivial

@[simp] theorem notes_null : null.Notes := trivial

@[simp] theorem notes_int (n : Int) : (int n).Notes ↔ Json.fits n = true := .rfl

@[simp] theorem notes_ofText? (o : Option String) : (ofText? o).Notes := by
  cases o <;> trivial

@[simp] theorem notes_ofTexts (texts : List String) : (ofTexts texts).Notes := by
  simp [ofTexts]

end Data

/-! ### Numbers -/

namespace Json

theorem fits_int32 {n : Int} (hlow : Number.minInt32 ≤ n) (hhigh : n ≤ Number.maxInt32) :
    fits n = true := by
  have hbounds : Number.minInt64 ≤ Number.minInt32 ∧ Number.maxInt32 ≤ Number.maxNat64 := by decide
  simp [fits, hbounds.1.trans hlow, hhigh.trans hbounds.2]

theorem fits_nat64 {n : Nat} (h : n ≤ Number.maxNat64) : fits n = true := by
  have hlow : Number.minInt64 ≤ n := (by decide : Number.minInt64 ≤ 0).trans (Int.natCast_nonneg n)
  simp [fits, hlow, Int.ofNat_le.mpr h]

end Json

namespace Json

/-! ### Texts -/

theorem hexValue?_hexDigit : ∀ n < 16, hexValue? (Text.hexDigit n) = some n := by decide

/-- Codes below the surrogates stand for themselves. -/
theorem joinPieces_unit {code : Nat} (h : code < 0xD800) (pieces : List Piece) :
    joinPieces (.unit code :: pieces) = (joinPieces pieces).map (Char.ofNat code :: ·) := by
  have hhigh : isHighHalf code = false := by
    simp only [isHighHalf, Bool.and_eq_false_imp, decide_eq_true_eq, decide_eq_false_iff_not]
    omega
  have hlow : isLowHalf code = false := by
    simp only [isLowHalf, Bool.and_eq_false_imp, decide_eq_true_eq, decide_eq_false_iff_not]
    omega
  cases pieces with
  | nil => simp [joinPieces, hhigh, hlow]
  | cons piece pieces => cases piece <;> simp [joinPieces, hhigh, hlow]

/-- A letter after a backslash is read as the character that it stands for. -/
theorem scanText_letter {e c : Char} (hletter : letterEscape? e = some c) (hcode : e ≠ 'u')
    (cs : List Char) : scanText ('\\' :: e :: cs) = (scanText cs).map fun (pieces, rest) =>
      (.char c :: pieces, rest) := by
  rw [scanText]
  · rw [hletter]
    cases scanText cs <;> rfl
  · rintro - - - - - rfl
    exact absurd rfl hcode

/-- Four digits of a code below 32 are read as this code. -/
theorem scanText_code {n : Nat} (h : n < 32) (cs : List Char) :
    scanText (codeEscape n ++ cs) = (scanText cs).map fun (pieces, rest) =>
      (.unit n :: pieces, rest) := by
  have hcode : hexCode? '0' '0' (Text.hexDigit (n / 16)) (Text.hexDigit (n % 16)) = some n := by
    have hzero : hexValue? '0' = some 0 := rfl
    simp only [hexCode?, hzero, hexValue?_hexDigit (n / 16) (by omega),
      hexValue?_hexDigit (n % 16) (by omega), Option.bind_eq_bind, Option.bind_some]
    exact congrArg some (by omega)
  simp only [codeEscape, List.cons_append, List.nil_append]
  rw [scanText, hcode]
  cases scanText cs <;> rfl

/-- What is read of an escaped character is a piece that stands for it. -/
theorem scanText_escapeChar (c : Char) : ∃ piece,
    (∀ cs, scanText (escapeChar c ++ cs) = (scanText cs).map fun (pieces, rest) =>
      (piece :: pieces, rest)) ∧
    ∀ pieces, joinPieces (piece :: pieces) = (joinPieces pieces).map (c :: ·) := by
  have hjoin : ∀ (c : Char) pieces, joinPieces (.char c :: pieces) = (joinPieces pieces).map (c :: ·) :=
    fun _ _ => rfl
  unfold escapeChar
  split
  case h_1 => exact ⟨.char '"', scanText_letter rfl (by decide), hjoin _⟩
  case h_2 => exact ⟨.char '\\', scanText_letter rfl (by decide), hjoin _⟩
  case h_3 => exact ⟨.char '\n', scanText_letter rfl (by decide), hjoin _⟩
  case h_4 => exact ⟨.char '\r', scanText_letter rfl (by decide), hjoin _⟩
  case h_5 => exact ⟨.char '\t', scanText_letter rfl (by decide), hjoin _⟩
  case h_6 => exact ⟨.char '\x08', scanText_letter rfl (by decide), hjoin _⟩
  case h_7 => exact ⟨.char '\x0c', scanText_letter rfl (by decide), hjoin _⟩
  case h_8 hquote hslash _ _ _ _ _ =>
    split_ifs with hcontrol
    · refine ⟨.unit c.toNat, scanText_code hcontrol, fun pieces => ?_⟩
      rw [joinPieces_unit (by omega), Char.ofNat_toNat]
    · refine ⟨.char c, fun cs => ?_, hjoin c⟩
      rw [List.singleton_append, scanText, if_neg (not_or.mpr ⟨hcontrol, hslash⟩)]
      · cases scanText cs <;> rfl
      · exact fun h => hquote h
      · rintro - - - - - h
        exact absurd h hslash
      · rintro - - h
        exact absurd h hslash

/-- Escaped characters are read up to the quote that ends them. -/
theorem scanText_escaped : ∀ (cs rest : List Char), ∃ pieces,
    scanText (cs.flatMap escapeChar ++ '"' :: rest) = some (pieces, rest) ∧ joinPieces pieces = some cs
  | [], rest => ⟨[], rfl, rfl⟩
  | c :: cs, rest => by
    obtain ⟨piece, hscan, hjoin⟩ := scanText_escapeChar c
    obtain ⟨pieces, hpieces, hcs⟩ := scanText_escaped cs rest
    refine ⟨piece :: pieces, ?_, ?_⟩
    · rw [List.flatMap_cons, List.append_assoc, hscan, hpieces]
      rfl
    · rw [hjoin, hcs]
      rfl

/-- **A text that was written is read**, after its opening quote. -/
theorem readText_textChars (s : String) (rest : List Char) :
    readText (s.toList.flatMap escapeChar ++ '"' :: rest) = some (some s, rest) := by
  obtain ⟨pieces, hscan, hjoin⟩ := scanText_escaped s.toList rest
  rw [readText, hscan]
  simp only [Option.bind_eq_bind, Option.bind_some, hjoin, Option.map_some, String.ofList_toList]
  rfl

/-! ### Numbers -/

/-- What follows a number does not carry it on. -/
def EndsNumber (rest : List Char) : Prop :=
  ∀ c ∈ rest.head?, c ∈ [',', ']', '\x7d']

/-- The digits of a number do not begin with a zero, unless it is zero. -/
theorem head?_toDigits (n : Nat) (hpos : 0 < n) : (Nat.toDigits 10 n).head? ≠ some '0' := by
  induction n using Nat.strong_induction_on with
  | _ n ih =>
    by_cases hsmall : n < 10
    · have hdigits : ∀ n < 10, 0 < n → Nat.digitChar n ≠ '0' := by decide
      rw [Nat.toDigits_of_lt_base hsmall, List.head?_cons]
      exact fun h => hdigits n hsmall hpos (Option.some.inj h)
    · rw [Nat.toDigits_of_base_le (by decide) (by omega), List.head?_append]
      have hhead := ih (n / 10) (by omega) (by omega)
      cases hdigits : (Nat.toDigits 10 (n / 10)).head? with
      | none => exact absurd (List.head?_eq_none_iff.mp hdigits) Nat.toDigits_ne_nil
      | some c => rwa [hdigits] at hhead

theorem digits_rest {rest : List Char} (h : EndsNumber rest) :
    Number.splitDigits rest = ([], rest) ∧ readPlaces rest = some (none, rest) ∧
      readPower rest = some (none, rest) := by
  cases rest with
  | nil => exact ⟨rfl, rfl, rfl⟩
  | cons c rest =>
    have hmark := h c rfl
    simp only [List.mem_cons, List.not_mem_nil, or_false] at hmark
    rcases hmark with rfl | rfl | rfl <;> exact ⟨rfl, rfl, rfl⟩

/-- The digits of a number are read, and no zero stands before them. -/
theorem splitDigits_toDigits (n : Nat) {rest : List Char} (hrest : EndsNumber rest) :
    ∃ ds, Number.splitDigits (Nat.toDigits 10 n ++ rest) = (ds, rest) ∧ Number.ofDigits ds = n ∧
      (ds.isEmpty || (ds.length > 1 && ds.head? == some 0)) = false := by
  have hdigit : ∀ c ∈ Nat.toDigits 10 n, c.isDigit := fun c hc =>
    Nat.isDigit_of_mem_toDigits (by decide) (by decide) hc
  refine ⟨_, Number.splitDigits_append hdigit (digits_rest hrest).1, ?_, ?_⟩
  · rw [Number.ofDigits_map]
    simp
  cases n with
  | zero => rfl
  | succ n =>
    have hfirst := head?_toDigits (n + 1) (Nat.succ_pos n)
    cases hdigits : Nat.toDigits 10 (n + 1) with
    | nil => exact absurd hdigits Nat.toDigits_ne_nil
    | cons c cs =>
      rw [hdigits] at hfirst
      have hc : c.isDigit := hdigit c (hdigits ▸ List.mem_cons_self)
      have hvalue : c.toNat - 48 ≠ 0 := by
        intro hzero
        refine hfirst (congrArg some (Char.toNat_inj.mp ?_))
        have hrange : 48 ≤ c.toNat := by
          simp only [Char.isDigit, Bool.and_eq_true, decide_eq_true_eq] at hc
          exact hc.1
        show c.toNat = 48
        omega
      simp [hvalue]

theorem toDigits_cons (n : Nat) : ∃ c cs, Nat.toDigits 10 n = c :: cs ∧ c.isDigit := by
  cases hdigits : Nat.toDigits 10 n with
  | nil => exact absurd hdigits Nat.toDigits_ne_nil
  | cons c cs =>
    have hmem : c ∈ Nat.toDigits 10 n := hdigits ▸ List.mem_cons_self
    exact ⟨c, cs, rfl, Nat.isDigit_of_mem_toDigits (by decide) (by decide) hmem⟩

theorem toList_ofNat (n : Nat) : (toString (Int.ofNat n)).toList = Nat.toDigits 10 n := by
  rw [Int.toString_eq_repr]
  exact Nat.toList_repr

theorem toList_negSucc (n : Nat) :
    (toString (Int.negSucc n)).toList = '-' :: Nat.toDigits 10 (n + 1) := by
  rw [Int.toString_eq_repr]
  show ("-" ++ Nat.repr (n + 1)).toList = _
  rw [String.toList_append, Nat.toList_repr]
  rfl

/-- What a whole number begins with. -/
theorem toString_cons (n : Int) : ∃ c cs, (toString n).toList = c :: cs ∧ (c = '-' ∨ c.isDigit) := by
  cases n with
  | ofNat n =>
    obtain ⟨c, cs, hcs, hc⟩ := toDigits_cons n
    exact ⟨c, cs, (toList_ofNat n).trans hcs, .inr hc⟩
  | negSucc n => exact ⟨'-', _, toList_negSucc n, .inl rfl⟩

/-- **A whole number that was written is read**, if it is among those that are read as such. -/
theorem readNumber_toString {n : Int} (hfits : fits n = true) {rest : List Char}
    (hrest : EndsNumber rest) : readNumber ((toString n).toList ++ rest) = some (.int n, rest) := by
  obtain ⟨-, hplaces, hpower⟩ := digits_rest hrest
  cases n with
  | ofNat n =>
    obtain ⟨ds, hsplit, hds, hsound⟩ := splitDigits_toDigits n hrest
    obtain ⟨c, cs, hcs, hc⟩ := toDigits_cons n
    have hfits' : fits (n : Int) = true := hfits
    rw [toList_ofNat]
    unfold readNumber
    split
    rename_i negative digits heq
    split at heq
    · rename_i digits' hsign
      rw [hcs, List.cons_append] at hsign
      rw [(List.cons.inj hsign).1] at hc
      exact absurd hc (by decide)
    · obtain ⟨rfl, rfl⟩ := Prod.mk.inj heq
      simp [hsplit, hplaces, hpower, hds, hsound, hfits']
  | negSucc n =>
    obtain ⟨ds, hsplit, hds, hsound⟩ := splitDigits_toDigits (n + 1) hrest
    have hvalue : -((n + 1 : Nat) : Int) = Int.negSucc n := rfl
    rw [toList_negSucc, List.cons_append]
    unfold readNumber
    simp only [hsplit, hplaces, hpower, hds, hsound, hvalue, hfits, Option.bind_eq_bind,
      Option.bind_some, if_true, Option.isNone_none, Bool.true_and]
    simp

/-! ### Values -/

theorem skipBlanks_cons {c : Char} (h : c ∉ [' ', '\n', '\t', '\r']) (cs : List Char) :
    skipBlanks (c :: cs) = c :: cs := by
  unfold skipBlanks
  rw [List.dropWhile_cons_of_neg]
  simpa [or_assoc] using h

theorem chars_int (n : Int) : chars (.int n) = (toString n).toList := by
  simp [chars, scalarChars]

theorem textChars_append (s : String) (rest : List Char) :
    textChars s ++ rest = '"' :: (s.toList.flatMap escapeChar ++ '"' :: rest) := by
  simp [textChars]

/-- What a value begins with, which is no blank and closes nothing. -/
theorem chars_cons {d : Data} (h : d.Notes) :
    ∃ c cs, chars d = c :: cs ∧ c ∉ [' ', '\n', '\t', '\r'] ∧ c ≠ ']' := by
  cases d with
  | null => exact ⟨'n', _, rfl, by decide, by decide⟩
  | bool b => cases b <;> exact ⟨_, _, rfl, by decide, by decide⟩
  | text s => exact ⟨'"', _, rfl, by decide, by decide⟩
  | list items => exact ⟨'[', _, by rw [chars]; rfl, by decide, by decide⟩
  | record members => exact ⟨'\x7b', _, by rw [chars]; rfl, by decide, by decide⟩
  | other sound => exact h.elim
  | int n =>
    obtain ⟨c, cs, hcs, hc⟩ := toString_cons n
    refine ⟨c, cs, (chars_int n).trans hcs, ?_, ?_⟩
    · rintro hmem
      simp only [List.mem_cons, List.not_mem_nil, or_false] at hmem
      rcases hmem with rfl | rfl | rfl | rfl <;> exact absurd hc (by decide)
    · rintro rfl
      exact absurd hc (by decide)

/-- A value that begins with a sign or a digit is a number. -/
theorem value_number {c : Char} (hc : c = '-' ∨ c.isDigit) (fuel : Nat) (cs : List Char) :
    value (fuel + 1) (c :: cs) = readNumber (c :: cs) := by
  rw [value]
  all_goals
    intro _ h
    rw [(List.cons.inj h).1] at hc
    exact absurd hc (by decide)

/-- A text is read, with its quotes. -/
theorem value_text (s : String) (fuel : Nat) (rest : List Char) :
    value (fuel + 1) (textChars s ++ rest) = some (.text s, rest) := by
  rw [textChars_append, value]
  simp only [readText_textChars, Option.bind_eq_bind, Option.bind_some]
  rfl

theorem endsNumber_cons {c : Char} (hc : c ∈ [',', ']', '\x7d']) (rest : List Char) :
    EndsNumber (c :: rest) := by
  rintro d hd
  obtain rfl := Option.some.inj hd
  exact hc

/-- The items of a list, up to its end. -/
theorem values_last {fuel : Nat} {x : Data} {cs rest : List Char}
    (hx : value fuel cs = some (x, ']' :: rest)) : values (fuel + 1) cs = some ([x], rest) := by
  rw [values, hx]
  rfl

theorem values_more {fuel : Nat} {x : Data} {xs : List Data} {cs cs' rest : List Char}
    (hx : value fuel cs = some (x, ',' :: cs')) (hblank : skipBlanks cs' = cs')
    (hxs : values fuel cs' = some (xs, rest)) : values (fuel + 1) cs = some (x :: xs, rest) := by
  rw [values, hx]
  simp only [Option.bind_eq_bind, Option.bind_some, skipBlanks_cons (show ',' ∉ _ by decide), hblank,
    hxs]
  rfl

/-- The members of a record, up to its end. -/
theorem members_last {fuel : Nat} {name : String} {x : Data} {cs rest : List Char}
    (hblank : skipBlanks cs = cs) (hx : value fuel cs = some (x, '\x7d' :: rest)) :
    members (fuel + 1) (textChars name ++ ':' :: cs) = some (some [(name, x)], rest) := by
  rw [textChars_append, members]
  simp only [readText_textChars, Option.bind_eq_bind, Option.bind_some,
    skipBlanks_cons (show ':' ∉ _ by decide), hblank, hx]
  rfl

theorem members_more {fuel : Nat} {name : String} {x : Data} {ms : List (String × Data)}
    {cs cs' rest : List Char} (hblank : skipBlanks cs = cs)
    (hx : value fuel cs = some (x, ',' :: cs')) (hblank' : skipBlanks cs' = cs')
    (hms : members fuel cs' = some (some ms, rest)) :
    members (fuel + 1) (textChars name ++ ':' :: cs) = some (some ((name, x) :: ms), rest) := by
  rw [textChars_append, members]
  simp only [readText_textChars, Option.bind_eq_bind, Option.bind_some,
    skipBlanks_cons (show ':' ∉ _ by decide), skipBlanks_cons (show ',' ∉ _ by decide), hblank, hx,
    hblank', hms]
  rfl

theorem skipBlanks_chars {d : Data} (h : d.Notes) (rest : List Char) :
    skipBlanks (chars d ++ rest) = chars d ++ rest := by
  obtain ⟨c, cs, hcs, hc, -⟩ := chars_cons h
  rw [hcs]
  exact skipBlanks_cons hc _

theorem skipBlanks_textChars (s : String) (rest : List Char) :
    skipBlanks (textChars s ++ rest) = textChars s ++ rest := by
  rw [textChars_append]
  exact skipBlanks_cons (by decide) _

/-- A list is read that has items, which begin with no bracket that closes it. -/
theorem value_list {fuel : Nat} {c : Char} {cs rest : List Char} {items : List Data}
    (hc : c ∉ [' ', '\n', '\t', '\r']) (hclose : c ≠ ']')
    (hitems : values fuel (c :: cs) = some (items, rest)) :
    value (fuel + 1) ('[' :: c :: cs) = some (.list items, rest) := by
  rw [value, skipBlanks_cons hc]
  split
  · rename_i heq
    exact absurd (List.cons.inj heq).1 hclose
  · rw [hitems]
    rfl

/-- A record is read that has members, the first of which has a name. -/
theorem value_record {fuel : Nat} {cs rest : List Char} {ms : List (String × Data)}
    (hms : members fuel ('"' :: cs) = some (some ms, rest)) :
    value (fuel + 1) ('\x7b' :: '"' :: cs) = some (.record ms, rest) := by
  rw [value, skipBlanks_cons (by decide)]
  split
  · rename_i heq
    exact absurd (List.cons.inj heq).1 (by decide)
  · rw [hms]
    rfl

/-! ### Lists and records -/

theorem list_append (xs : List Data) (rest : List Char) :
    chars (.list xs) ++ rest = '[' :: (joined [','] (itemChars xs) ++ ']' :: rest) := by
  simp [chars]

theorem record_append (ms : List (String × Data)) (rest : List Char) :
    chars (.record ms) ++ rest = '\x7b' :: (joined [','] (memberChars ms) ++ '\x7d' :: rest) := by
  simp [chars]

theorem items_append (x y : Data) (ys : List Data) (rest : List Char) :
    joined [','] (itemChars (x :: y :: ys)) ++ rest =
      chars x ++ ',' :: (joined [','] (itemChars (y :: ys)) ++ rest) := by
  simp [itemChars, joined]

theorem member_append (name : String) (x : Data) (rest : List Char) :
    joined [','] (memberChars [(name, x)]) ++ rest = textChars name ++ ':' :: (chars x ++ rest) := by
  simp [memberChars, joined]

theorem members_append (name : String) (x : Data) (m : String × Data) (ms : List (String × Data))
    (rest : List Char) : joined [','] (memberChars ((name, x) :: m :: ms)) ++ rest =
      textChars name ++ ':' :: (chars x ++ ',' :: (joined [','] (memberChars (m :: ms)) ++ rest)) := by
  simp [memberChars, joined]

/-- The characters of items begin with those of the first one. -/
theorem itemChars_cons (x : Data) (xs : List Data) (rest : List Char) :
    ∃ more, joined [','] (itemChars (x :: xs)) ++ rest = chars x ++ more := by
  cases xs with
  | nil => exact ⟨rest, rfl⟩
  | cons y ys => exact ⟨_, items_append x y ys rest⟩

/-- The characters of members begin with the name of the first one. -/
theorem memberChars_cons (m : String × Data) (ms : List (String × Data)) (rest : List Char) :
    ∃ more, joined [','] (memberChars (m :: ms)) ++ rest = textChars m.1 ++ more := by
  cases ms with
  | nil => exact ⟨_, member_append m.1 m.2 rest⟩
  | cons m' ms => exact ⟨_, members_append m.1 m.2 m' ms rest⟩

mutual

/-- **What was written reads back**, whatever follows it. -/
theorem value_chars : ∀ {d : Data} {fuel : Nat}, d.Notes → (chars d).length ≤ fuel →
    ∀ {rest}, EndsNumber rest → value fuel (chars d ++ rest) = some (d, rest)
  | d, 0, h, hfuel, _, _ => by
    obtain ⟨c, cs, hcs, -⟩ := chars_cons h
    rw [hcs] at hfuel
    exact absurd hfuel (by simp)
  | .null, fuel + 1, _, _, rest, _ => rfl
  | .bool false, fuel + 1, _, _, rest, _ => rfl
  | .bool true, fuel + 1, _, _, rest, _ => rfl
  | .int n, fuel + 1, h, _, rest, hrest => by
    obtain ⟨c, cs, hcs, hc⟩ := toString_cons n
    have hread := readNumber_toString h hrest
    rw [chars_int, hcs, List.cons_append] at *
    rw [value_number hc, hread]
  | .text s, fuel + 1, _, _, rest, _ => by
    rw [chars]
    · exact value_text s fuel rest
    all_goals simp
  | .list [], fuel + 1, _, _, rest, _ => rfl
  | .list (x :: xs), fuel + 1, h, hfuel, rest, _ => by
    have hitems := values_itemChars h (by simpa [chars] using hfuel) rest
    obtain ⟨c, cs, hcs, hc, hclose⟩ := chars_cons h.1
    obtain ⟨more, hmore⟩ := itemChars_cons x xs (']' :: rest)
    rw [hmore, hcs] at hitems
    rw [list_append, hmore, hcs]
    exact value_list hc hclose hitems
  | .record [], fuel + 1, _, _, rest, _ => rfl
  | .record (m :: ms), fuel + 1, h, hfuel, rest, _ => by
    have hmembers := members_memberChars h (by simpa [chars] using hfuel) rest
    obtain ⟨more, hmore⟩ := memberChars_cons m ms ('\x7d' :: rest)
    rw [hmore, textChars_append] at hmembers
    rw [record_append, hmore, textChars_append]
    exact value_record hmembers

theorem values_itemChars : ∀ {x : Data} {xs : List Data} {fuel : Nat}, Data.NotesItems (x :: xs) →
    (joined [','] (itemChars (x :: xs))).length + 1 ≤ fuel → ∀ rest,
    values fuel (joined [','] (itemChars (x :: xs)) ++ ']' :: rest) = some (x :: xs, rest)
  | x, [], fuel + 1, h, hfuel, rest => by
    exact values_last (value_chars h.1 (by simpa [itemChars, joined] using hfuel)
      (endsNumber_cons (by decide) rest))
  | x, y :: ys, fuel + 1, h, hfuel, rest => by
    have hlength := congrArg List.length (items_append x y ys [])
    simp only [List.append_nil, List.length_append, List.length_cons] at hlength
    obtain ⟨more, hmore⟩ := itemChars_cons y ys (']' :: rest)
    have hblank : skipBlanks (joined [','] (itemChars (y :: ys)) ++ ']' :: rest) =
        joined [','] (itemChars (y :: ys)) ++ ']' :: rest := by
      rw [hmore]
      exact skipBlanks_chars h.2.1 more
    rw [items_append]
    exact values_more (value_chars h.1 (by omega) (endsNumber_cons (by decide) _)) hblank
      (values_itemChars h.2 (by omega) rest)

theorem members_memberChars : ∀ {m : String × Data} {ms : List (String × Data)} {fuel : Nat},
    Data.NotesMembers (m :: ms) → (joined [','] (memberChars (m :: ms))).length + 1 ≤ fuel → ∀ rest,
    members fuel (joined [','] (memberChars (m :: ms)) ++ '\x7d' :: rest) =
      some (some (m :: ms), rest)
  | (name, x), [], fuel + 1, h, hfuel, rest => by
    have hlength := congrArg List.length (member_append name x [])
    simp only [List.append_nil, List.length_append, List.length_cons] at hlength
    rw [member_append]
    exact members_last (skipBlanks_chars h.1 _)
      (value_chars h.1 (by omega) (endsNumber_cons (by decide) rest))
  | (name, x), m :: ms, fuel + 1, h, hfuel, rest => by
    have hlength := congrArg List.length (members_append name x m ms [])
    simp only [List.append_nil, List.length_append, List.length_cons] at hlength
    obtain ⟨more, hmore⟩ := memberChars_cons m ms ('\x7d' :: rest)
    have hblank : skipBlanks (joined [','] (memberChars (m :: ms)) ++ '\x7d' :: rest) =
        joined [','] (memberChars (m :: ms)) ++ '\x7d' :: rest := by
      rw [hmore]
      exact skipBlanks_textChars m.1 more
    rw [members_append]
    exact members_more (skipBlanks_chars h.1 _)
      (value_chars h.1 (by omega) (endsNumber_cons (by decide) _)) hblank
      (members_memberChars h.2 (by omega) rest)

end

end Json

/-- **Data that was written as text is read from it.** -/
theorem Data.ofJson?_toJson {d : Data} (h : d.Notes) : Data.ofJson? d.toJson = some d := by
  have hend : Json.EndsNumber [] := by simp [Json.EndsNumber]
  have hread := Json.value_chars h (Nat.le_succ _) hend
  have hblank := Json.skipBlanks_chars h []
  rw [List.append_nil] at hread hblank
  rw [ofJson?, toJson, String.toList_ofList]
  simp only [hblank, hread, Option.bind_eq_bind, Option.bind_some]
  rfl

end Codebook
