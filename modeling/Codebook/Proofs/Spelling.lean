/-
# Spellings of whole numbers

A number can be spelled in many ways: with blanks around it, with a plus sign, with zeros in front or
after the point, with an exponent. All spellings of a whole number are read as the number nearest to
it. So a filter by any of them asks for the same text, which is that of the whole number if this has
at most 53 bits. Beyond, the text may be another one; then an entity with the very number is not
found, but entities with another number can be.

Key definitions: `Numeral`, `Numeral.text`, `Numeral.value`.
Key theorems: `Double.ofDecimal_eq`, `Numeral.read_trim`, `Numeral.canonical_of_value`.
-/
import Codebook.Proofs.Decimals
import Codebook.Proofs.Directory
import Codebook.Proofs.Instants
import Codebook.Proofs.Meaning
import Codebook.Proofs.Notation
import Mathlib.Algebra.Order.Field.Power
import Mathlib.Algebra.Order.Field.Rat
import Mathlib.Tactic.Linarith
import Mathlib.Tactic.Positivity

namespace Codebook.Number

/-! ### Numerals -/

/-- Decimal digits in a row. -/
structure DigitRun where
  /-- The digits. -/
  chars : List Char
  digits : ∀ c ∈ chars, c.isDigit

namespace DigitRun

/-- The number that the digits write. -/
def value (r : DigitRun) : Nat :=
  Nat.ofDigitChars 10 r.chars 0

/-- What is read from the digits. -/
def read (r : DigitRun) : List Nat :=
  r.chars.map fun c => c.toNat - 48

/-- One run after another. -/
def append (r t : DigitRun) : DigitRun where
  chars := r.chars ++ t.chars
  digits c hc := (List.mem_append.mp hc).elim (r.digits c) (t.digits c)

theorem ofDigits_read (r : DigitRun) : ofDigits r.read = r.value :=
  ofDigits_map r.chars

theorem read_append (r t : DigitRun) : (r.append t).read = r.read ++ t.read :=
  List.map_append

theorem splitDigits_chars (r : DigitRun) {rest : List Char} (hrest : splitDigits rest = ([], rest)) :
    splitDigits (r.chars ++ rest) = (r.read, rest) :=
  splitDigits_append r.digits hrest

end DigitRun

/-- A sign, if there is one. -/
inductive Sign where
  /-- No sign. -/
  | none
  /-- A plus sign. -/
  | plus
  /-- A minus sign. -/
  | minus
deriving DecidableEq

namespace Sign

/-- The sign as it is written. -/
def chars : Sign → List Char
  | none => []
  | plus => ['+']
  | minus => ['-']

/-- A number with the sign. -/
def apply (s : Sign) (n : Int) : Int :=
  if s = minus then -n else n

end Sign

/-- A power of ten in a numeral. -/
structure Numeral.Power where
  /-- Whether its mark is a capital letter. -/
  capital : Bool
  /-- The sign of the exponent. -/
  sign : Sign
  /-- The digits of the exponent. -/
  digits : DigitRun
  written : digits.chars ≠ []

/-- A numeral between blanks. It has digits before or after the point, if there is a point, or on both
sides. -/
structure Numeral where
  /-- What stands before it. -/
  before : List Char
  /-- The sign. -/
  sign : Sign
  /-- The digits before the point. -/
  whole : DigitRun
  /-- The digits after the point, if there is a point. -/
  places : Option DigitRun
  /-- The power of ten, if there is one. -/
  power : Option Numeral.Power
  /-- What stands after it. -/
  after : List Char
  blank_before : ∀ c ∈ before, Text.isSpace c = true
  blank_after : ∀ c ∈ after, Text.isSpace c = true
  written : whole.chars ++ ((places.map DigitRun.chars).getD []) ≠ []

namespace Numeral

/-- The power of ten as it is written. -/
def Power.chars (p : Power) : List Char :=
  (if p.capital then 'E' else 'e') :: (p.sign.chars ++ p.digits.chars)

/-- The exponent. -/
def Power.value (p : Power) : Int :=
  p.sign.apply p.digits.value

/-- The places as they are written. -/
def placesChars : Option DigitRun → List Char
  | none => []
  | some r => '.' :: r.chars

variable (x : Numeral)

/-- The power as it is written. -/
def powerChars : List Char :=
  (x.power.map Power.chars).getD []

/-- The numeral without its sign and the blanks. -/
def magnitudeChars : List Char :=
  x.whole.chars ++ (placesChars x.places ++ x.powerChars)

/-- The text of the numeral with the blanks around it. -/
def text : String :=
  String.ofList (x.before ++ (x.sign.chars ++ x.magnitudeChars) ++ x.after)

/-- The digits after the point. -/
def placesRun : DigitRun :=
  x.places.getD ⟨[], by simp⟩

/-- All digits, without the point. -/
def digits : Nat :=
  (x.whole.append x.placesRun).value

/-- The exponent that goes with all digits. -/
def exponent : Int :=
  (x.power.map Power.value).getD 0 - x.placesRun.chars.length

/-- Whether the numeral has a minus sign. -/
def negative : Bool :=
  decide (x.sign = .minus)

/-- The number that is written. -/
def value : ℚ :=
  (if x.negative then -1 else 1) * x.digits * (10 : ℚ) ^ x.exponent

end Numeral

/-! ### Reading numerals -/

theorem toNat_le_of_isDigit {c : Char} (h : c.isDigit) : c.toNat ≤ 57 := by
  simp only [Char.isDigit, Bool.and_eq_true, decide_eq_true_eq] at h
  exact h.2

theorem toLower_of_isDigit {c : Char} (h : c.isDigit) : c.toLower = c := by
  have hle := toNat_le_of_isDigit h
  refine dif_neg fun hupper => ?_
  have hlow : 65 ≤ c.toNat := hupper.1
  omega

theorem isAlpha_of_isDigit {c : Char} (h : c.isDigit) : c.isAlpha = false := by
  have hle := toNat_le_of_isDigit h
  rw [Bool.eq_false_iff]
  intro halpha
  rcases Bool.or_eq_true_iff.mp halpha with hupper | hlower
  · have hlow : 65 ≤ c.toNat := (of_decide_eq_true hupper).1
    omega
  · have hlow : 97 ≤ c.toNat := of_decide_eq_true (Bool.and_eq_true_iff.mp hlower).1
    omega

/-- Trimming takes away the blanks around a text without blanks. -/
theorem trimChars_append {before cs after : List Char} (hbefore : ∀ c ∈ before, Text.isSpace c = true)
    (hcs : ∀ c ∈ cs, Text.isSpace c = false) (hne : cs ≠ [])
    (hafter : ∀ c ∈ after, Text.isSpace c = true) : Text.trimChars (before ++ cs ++ after) = cs := by
  have hkeep : ∀ {ds : List Char}, (∀ c ∈ ds, Text.isSpace c = false) → ds ≠ [] → ∀ rest,
      Text.dropSpace (ds ++ rest) = ds ++ rest := by
    intro ds hds hne rest
    obtain ⟨c, ds, rfl⟩ := List.exists_cons_of_ne_nil hne
    rw [Text.dropSpace, List.cons_append, List.dropWhile_cons_of_neg]
    simp [hds c List.mem_cons_self]
  rw [Text.trimChars, Text.dropSpace, Text.dropSpace, List.append_assoc,
    List.dropWhile_append_of_pos hbefore]
  rw [show List.dropWhile Text.isSpace (cs ++ after) = cs ++ after from hkeep hcs hne after,
    List.reverse_append, List.dropWhile_append_of_pos fun c hc => hafter c (List.mem_reverse.mp hc)]
  have hreverse : ∀ c ∈ cs.reverse, Text.isSpace c = false := fun c hc =>
    hcs c (List.mem_reverse.mp hc)
  have hback := hkeep hreverse (by simpa using hne) []
  rw [List.append_nil, Text.dropSpace] at hback
  rw [hback, List.reverse_reverse]

namespace Numeral

open Double

theorem readExponent_power (p : Power) : readExponent p.chars = some p.value := by
  obtain ⟨capital, sign, digits, hwritten⟩ := p
  obtain ⟨c, cs, hcs⟩ := List.exists_cons_of_ne_nil hwritten
  have hdigit : c.isDigit := digits.digits c (by rw [hcs]; exact List.mem_cons_self)
  have hsplit : splitDigits (c :: cs) = (digits.read, []) := by
    rw [← hcs, ← List.append_nil digits.chars]
    exact digits.splitDigits_chars rfl
  obtain ⟨d, ds, hds⟩ : ∃ d ds, digits.read = d :: ds := by
    rw [DigitRun.read, hcs]
    exact ⟨_, _, rfl⟩
  have hvalue : ofDigits (d :: ds) = digits.value := hds ▸ digits.ofDigits_read
  have hmark : (if capital then 'E' else 'e') = 'e' ∨ (if capital then 'E' else 'e') = 'E' := by
    cases capital <;> simp
  unfold readExponent Power.chars Power.value
  simp only [if_pos hmark, hcs]
  cases sign with
  | none =>
    have hplus : c ≠ '+' := by
      rintro rfl
      exact absurd hdigit (by decide)
    have hminus : c ≠ '-' := by
      rintro rfl
      exact absurd hdigit (by decide)
    simp [Sign.chars, Sign.apply, hplus, hminus, hsplit, hds, hvalue]
  | plus => simp [Sign.chars, Sign.apply, hsplit, hds, hvalue]
  | minus => simp [Sign.chars, Sign.apply, hsplit, hds, hvalue]

variable (x : Numeral)

theorem readExponent_powerChars :
    readExponent x.powerChars = some ((x.power.map Power.value).getD 0) := by
  unfold powerChars
  cases x.power with
  | none => rfl
  | some p => exact readExponent_power p

/-- A power does not begin with a digit or a point. -/
theorem powerChars_cases : x.powerChars = [] ∨ ∃ c cs, x.powerChars = c :: cs ∧ (c = 'e' ∨ c = 'E') := by
  unfold powerChars
  cases x.power with
  | none => exact Or.inl rfl
  | some p =>
    refine Or.inr ⟨_, _, rfl, ?_⟩
    cases p.capital <;> simp

theorem splitDigits_powerChars : splitDigits x.powerChars = ([], x.powerChars) := by
  rcases x.powerChars_cases with h | ⟨c, cs, h, rfl | rfl⟩ <;> rw [h] <;> rfl

theorem splitDigits_magnitudeChars : splitDigits x.magnitudeChars =
    (x.whole.read, placesChars x.places ++ x.powerChars) := by
  refine x.whole.splitDigits_chars ?_
  cases x.places with
  | none => exact x.splitDigits_powerChars
  | some r => rfl

/-- A numeral begins with a digit or a point. -/
theorem magnitudeChars_cons : ∃ c cs, x.magnitudeChars = c :: cs ∧ (c.isDigit ∨ c = '.') := by
  unfold magnitudeChars
  cases hwhole : x.whole.chars with
  | cons c cs => exact ⟨c, _, rfl, Or.inl (x.whole.digits c (hwhole ▸ List.mem_cons_self))⟩
  | nil =>
    cases hplaces : x.places with
    | none =>
      refine absurd ?_ x.written
      rw [hwhole, hplaces]
      rfl
    | some r => exact ⟨'.', _, rfl, Or.inr rfl⟩

/-- A numeral is none of the words that are read as numbers. -/
theorem lowerLatin_ne {w : String} (hw : ∀ c ∈ w.toList.head?, c.isAlpha = true) (hne : w.toList ≠ []) :
    Text.lowerLatin (String.ofList x.magnitudeChars) ≠ w := by
  obtain ⟨c, cs, hcs, hc⟩ := x.magnitudeChars_cons
  rintro rfl
  have hlower : c.toLower = c := by
    rcases hc with hdigit | rfl
    · exact toLower_of_isDigit hdigit
    · rfl
  have halpha := hw c.toLower (by simp [Text.lowerLatin, hcs])
  rw [hlower] at halpha
  rcases hc with hdigit | rfl
  · exact absurd halpha (by simp [isAlpha_of_isDigit hdigit])
  · exact absurd halpha (by decide)

theorem readMagnitude_magnitudeChars (negative : Bool) :
    readMagnitude negative x.magnitudeChars = some (ofDecimal negative x.digits x.exponent) := by
  have hdigits : ofDigits (x.whole.read ++ x.placesRun.read) = x.digits := by
    rw [← DigitRun.read_append, DigitRun.ofDigits_read, digits]
  have hwritten : (x.whole.read.isEmpty && x.placesRun.read.isEmpty) = false := by
    rw [Bool.eq_false_iff]
    intro hempty
    refine x.written ?_
    simp only [Bool.and_eq_true, List.isEmpty_iff, DigitRun.read, List.map_eq_nil_iff] at hempty
    rw [hempty.1, List.nil_append]
    cases hplaces : x.places with
    | none => rfl
    | some r => simpa [placesRun, hplaces] using hempty.2
  unfold readMagnitude
  split
  · rename_i hword
    exact absurd hword (x.lowerLatin_ne (by simp) (by simp))
  · rename_i hword
    exact absurd hword (x.lowerLatin_ne (by simp) (by simp))
  · rename_i hword
    exact absurd hword (x.lowerLatin_ne (by simp) (by simp))
  · have hread := x.readExponent_powerChars
    have hexponent : x.exponent = (x.power.map Power.value).getD 0 - (x.placesRun.read.length : Int) := by
      rw [exponent, DigitRun.read, List.length_map]
    rw [hexponent]
    cases hplaces : x.places with
    | none =>
      have hrun : x.placesRun.read = [] := by rw [placesRun, hplaces]; rfl
      rw [hrun] at hdigits hwritten ⊢
      have hwhole : x.whole.read ≠ [] := by simpa using hwritten
      rw [List.append_nil] at hdigits
      rcases x.powerChars_cases with h | ⟨c, cs, h, rfl | rfl⟩ <;> rw [h] at hread <;>
        simp [splitDigits_magnitudeChars, hplaces, placesChars, h, hwhole, hdigits, hread]
    | some r =>
      have hrun : x.placesRun = r := by rw [placesRun, hplaces]; rfl
      have hsplit := r.splitDigits_chars x.splitDigits_powerChars
      rw [hrun] at hdigits hwritten ⊢
      simp only [splitDigits_magnitudeChars, hplaces, placesChars, List.cons_append, hsplit, hwritten,
        hread, hdigits]
      rfl

/-- There are no blanks inside a numeral. -/
theorem not_isSpace : ∀ c ∈ x.sign.chars ++ x.magnitudeChars, Text.isSpace c = false := by
  have hrun : ∀ r : DigitRun, ∀ c ∈ r.chars, Text.isSpace c = false := fun r c hc =>
    IndexDirectory.isSpace_of_isDigit (r.digits c hc)
  have hsign : ∀ s : Sign, ∀ c ∈ s.chars, Text.isSpace c = false := by
    intro s
    cases s <;> simp [Sign.chars, Text.isSpace, Text.inRanges, Text.spaceRanges]
  intro c hc
  simp only [magnitudeChars, List.mem_append] at hc
  rcases hc with hc | hc | hc | hc
  · exact hsign _ c hc
  · exact hrun _ c hc
  · cases hplaces : x.places with
    | none => simp [hplaces, placesChars] at hc
    | some r =>
      rw [hplaces] at hc
      rcases List.mem_cons.mp hc with rfl | hc
      · decide
      · exact hrun _ c hc
  · cases hpower : x.power with
    | none => simp [powerChars, hpower] at hc
    | some p =>
      simp only [powerChars, hpower, Option.map_some, Option.getD_some, Power.chars, List.mem_cons,
        List.mem_append] at hc
      rcases hc with rfl | hc | hc
      · cases p.capital <;> decide
      · exact hsign _ c hc
      · exact hrun _ c hc

theorem core_ne_nil : x.sign.chars ++ x.magnitudeChars ≠ [] := by
  obtain ⟨c, cs, hcs, -⟩ := x.magnitudeChars_cons
  simp [hcs]

theorem trim_text : Text.trim x.text = String.ofList (x.sign.chars ++ x.magnitudeChars) := by
  rw [Text.trim, text, String.toList_ofList,
    trimChars_append x.blank_before x.not_isSpace x.core_ne_nil x.blank_after]

theorem not_isBlank : Text.isBlank x.text = false := by
  obtain ⟨c, hc⟩ := List.exists_mem_of_ne_nil _ x.core_ne_nil
  rw [Text.isBlank, text, String.toList_ofList, Bool.eq_false_iff]
  intro hall
  have hspace := List.all_eq_true.mp hall c (by simp only [List.mem_append] at hc ⊢; tauto)
  rw [x.not_isSpace c hc] at hspace
  exact absurd hspace (by decide)

/-- **A numeral is read as the number that its digits and its exponent make.** -/
theorem read_trim :
    Double.read (Text.trim x.text) = some (ofDecimal x.negative x.digits x.exponent) := by
  rw [trim_text, Double.read, String.toList_ofList, negative]
  cases x.sign with
  | none =>
    obtain ⟨c, cs, hcs, hc⟩ := x.magnitudeChars_cons
    have hplus : c ≠ '+' := by
      rintro rfl
      exact absurd hc (by decide)
    have hminus : c ≠ '-' := by
      rintro rfl
      exact absurd hc (by decide)
    have hread := x.readMagnitude_magnitudeChars false
    rw [hcs] at hread
    simpa [Sign.chars, hcs, hplus, hminus] using hread
  | plus => exact x.readMagnitude_magnitudeChars false
  | minus => exact x.readMagnitude_magnitudeChars true

end Numeral

/-! ### Decimals that are whole numbers -/

/-- A decimal that is a whole number, without fractions. -/
theorem mul_tenTo_eq {d m : Nat} {e : Int} (h : (d : ℚ) * 10 ^ e = m) :
    d * tenTo e.toNat = m * tenTo (-e).toNat := by
  cases e with
  | ofNat k =>
    have hk : (Int.ofNat k).toNat = k := rfl
    have hk' : (-Int.ofNat k).toNat = 0 := by
      rw [Int.ofNat_eq_natCast]
      omega
    rw [Int.ofNat_eq_natCast, zpow_natCast] at h
    rw [hk, hk']
    show d * 10 ^ k = m * 10 ^ 0
    exact_mod_cast (by simpa using h : (d : ℚ) * 10 ^ k = m * 10 ^ 0)
  | negSucc k =>
    have hk : (Int.negSucc k).toNat = 0 := rfl
    have hk' : (-Int.negSucc k).toNat = k + 1 := rfl
    rw [zpow_negSucc, ← div_eq_mul_inv, div_eq_iff (by positivity)] at h
    rw [hk, hk']
    show d * 10 ^ 0 = m * 10 ^ (k + 1)
    exact_mod_cast (by simpa using h : (d : ℚ) * 10 ^ 0 = m * 10 ^ (k + 1))

/-- The size of a decimal that is a positive whole number is that of the number. -/
theorem size_bounds {d m : Nat} {e : Int} (hd : 0 < d) (hm : m < 10 ^ 20)
    (h : d * tenTo e.toNat = m * tenTo (-e).toNat) :
    0 < (toString d).length + e ∧ (toString d).length + e ≤ 20 := by
  have hpos := length_toString_pos d
  change d * 10 ^ e.toNat = m * 10 ^ (-e).toNat at h
  rcases le_total 0 e with he | he
  · obtain ⟨k, rfl⟩ := Int.eq_ofNat_of_zero_le he
    rw [Int.toNat_natCast, show (-(k : Int)).toNat = 0 by omega, pow_zero, Nat.mul_one] at h
    refine ⟨by omega, ?_⟩
    by_contra hlt
    have hlow : ¬ d < 10 ^ ((toString d).length - 1) := by
      by_cases hone : (toString d).length = 1
      · rw [hone]
        omega
      · rw [← length_toString_le_iff (by omega)]
        omega
    have hpow : 10 ^ 20 ≤ 10 ^ ((toString d).length - 1) * 10 ^ k := by
      rw [← pow_add]
      exact Nat.pow_le_pow_right (by decide) (by omega)
    have hmul := Nat.mul_le_mul_right (10 ^ k) (Nat.le_of_not_lt hlow)
    omega
  · obtain ⟨k, hk⟩ := Int.eq_ofNat_of_zero_le (Int.neg_nonneg_of_nonpos he)
    obtain rfl : e = -(k : Int) := by omega
    rw [Int.neg_neg, Int.toNat_natCast, show (-(k : Int)).toNat = 0 by omega, pow_zero,
      Nat.mul_one] at h
    have hm' : 0 < m := by
      rw [Nat.pos_iff_ne_zero]
      rintro rfl
      omega
    constructor
    · by_contra hlt
      have hk : k ≠ 0 := by omega
      have hlow : d < 10 ^ k := (length_toString_le_iff (by omega)).mp (by omega)
      have hmul := Nat.mul_le_mul_right (10 ^ k) hm'
      omega
    · have hhigh : d < 10 ^ (20 + k) := by
        rw [h, pow_add]
        exact Nat.mul_lt_mul_of_pos_right hm (Nat.pow_pos (by decide))
      have hlen := (length_toString_le_iff (by omega)).mpr hhigh
      omega

/-- **A decimal that is a whole number is read as the number nearest to it**, however it is written. -/
theorem Double.ofDecimal_eq {negative : Bool} {d m : Nat} {e : Int} (hm : m < 2 ^ 64)
    (h : d * tenTo e.toNat = m * tenTo (-e).toNat) : ofDecimal negative d e = ofNat negative m := by
  have hpos : ∀ k, 0 < tenTo k := fun k => Nat.pow_pos (by decide)
  rcases d.eq_zero_or_pos with rfl | hd
  · obtain rfl : m = 0 := by
      rw [Nat.zero_mul] at h
      exact (Nat.mul_eq_zero.mp h.symm).resolve_right (hpos _).ne'
    simp [ofDecimal, ofNat]
  · have hsize := size_bounds hd (hm.trans (by decide)) h
    unfold ofDecimal
    simp only [if_neg (show ¬ (d = 0 ∨ (toString d).length + e < -400) by omega),
      if_neg (show ¬ 400 < (toString d).length + e by omega), h]
    exact nearest_mul_eq_ofNat m (log2_le_of_lt hm) (hpos _)

namespace Numeral

variable (x : Numeral) {n : Int}

/-- What a numeral for a whole number is read as: the number nearest to it, with the sign that is
written, which matters only to zero. -/
theorem read_of_value (hn : n.natAbs < 2 ^ 64) (hx : x.value = n) :
    Double.read (Text.trim x.text) = some (.ofNat x.negative n.natAbs) ∧
      (n ≠ 0 → x.negative = decide (n < 0)) := by
  have hnonneg : (0 : ℚ) ≤ x.digits * 10 ^ x.exponent := by positivity
  rw [value, mul_assoc] at hx
  have hmagnitude : (x.digits : ℚ) * 10 ^ x.exponent = n.natAbs := by
    rw [Nat.cast_natAbs, Int.cast_abs, ← hx, abs_mul, abs_of_nonneg hnonneg]
    split_ifs <;> simp
  refine ⟨?_, fun hne => ?_⟩
  · rw [read_trim, Double.ofDecimal_eq hn (mul_tenTo_eq hmagnitude)]
  · have hne' : (n : ℚ) ≠ 0 := by exact_mod_cast hne
    cases hnegative : x.negative with
    | true =>
      rw [hnegative, if_pos rfl] at hx
      have hneg : (n : ℚ) < 0 := lt_of_le_of_ne (by rw [← hx]; linarith) hne'
      exact (decide_eq_true (by exact_mod_cast hneg)).symm
    | false =>
      rw [hnegative, if_neg (by decide)] at hx
      have hpos : (0 : ℚ) ≤ n := by rw [← hx]; linarith
      exact (decide_eq_false (by exact_mod_cast hpos.not_gt)).symm

/-- The canonical text for any spelling of a whole number is that of the number nearest to it. -/
theorem canonical_of_value (hn : n.natAbs < 2 ^ 64) (hx : x.value = n) :
    (Double.read (Text.trim x.text)).map Double.canonical = some (Double.ofInt n).canonical := by
  obtain ⟨hread, hsign⟩ := x.read_of_value hn hx
  rw [hread, Option.map_some, Double.ofInt]
  by_cases hzero : n = 0
  · subst hzero
    have hcanonical : ∀ s, (Double.ofNat s 0).canonical = "0" := fun s => by
      rw [Double.canonical_ofNat (by decide)]
      cases s <;> rfl
    exact congrArg some ((hcanonical _).trans (hcanonical _).symm)
  · rw [hsign hzero]

/-- The text of a whole number, as a numeral. -/
def ofInt (n : Int) : Numeral where
  before := []
  sign := if n < 0 then .minus else .none
  whole := ⟨Nat.toDigits 10 n.natAbs, fun _ hc =>
    Nat.isDigit_of_mem_toDigits (by decide) (by decide) hc⟩
  places := none
  power := none
  after := []
  blank_before := by simp
  blank_after := by simp
  written := by simp

theorem negative_ofInt (n : Int) : (ofInt n).negative = decide (n < 0) := by
  unfold negative ofInt
  by_cases hneg : n < 0 <;> simp [hneg]

theorem text_ofInt (n : Int) : (ofInt n).text = toString n := by
  rw [← String.toList_inj, text, String.toList_ofList]
  simp only [ofInt, magnitudeChars, powerChars, placesChars, Option.map_none, Option.getD_none,
    List.append_nil, List.nil_append]
  cases n with
  | ofNat k =>
    rw [Json.toList_ofNat, if_neg (by rw [Int.ofNat_eq_natCast]; omega)]
    rfl
  | negSucc k =>
    rw [Json.toList_negSucc, if_pos (Int.negSucc_lt_zero k)]
    rfl

/-- Different whole numbers have different texts. -/
theorem toString_inj {m n : Int} : toString m = toString n ↔ m = n := by
  refine ⟨fun h => ?_, fun h => h ▸ rfl⟩
  have hdigits : ∀ {k l : Nat}, Nat.toDigits 10 k = Nat.toDigits 10 l → k = l := fun {k l} h => by
    rw [← Nat.ofDigitChars_ten_toDigits (n := k), h, Nat.ofDigitChars_ten_toDigits]
  have hmark : ∀ {k l : Nat}, Nat.toDigits 10 k ≠ '-' :: Nat.toDigits 10 l := fun {k l} h => by
    have hdigit := Nat.isDigit_of_mem_toDigits (n := k) (by decide) (by decide) (h ▸ List.mem_cons_self)
    exact absurd hdigit (by decide)
  have hchars := congrArg String.toList h
  cases m with
  | ofNat k =>
    cases n with
    | ofNat l => rw [Json.toList_ofNat, Json.toList_ofNat] at hchars; rw [hdigits hchars]
    | negSucc l =>
      rw [Json.toList_ofNat, Json.toList_negSucc] at hchars
      exact absurd hchars hmark
  | negSucc k =>
    cases n with
    | ofNat l =>
      rw [Json.toList_ofNat, Json.toList_negSucc] at hchars
      exact absurd hchars.symm hmark
    | negSucc l =>
      rw [Json.toList_negSucc, Json.toList_negSucc, List.cons.injEq] at hchars
      rw [Nat.succ.inj (hdigits hchars.2)]

theorem trim_text_ofInt (n : Int) : Text.trim (toString n) = toString n := by
  have htext : (ofInt n).text =
      String.ofList ([] ++ ((ofInt n).sign.chars ++ (ofInt n).magnitudeChars) ++ []) :=
    rfl
  rw [List.nil_append, List.append_nil, ← trim_text] at htext
  rw [← text_ofInt]
  exact htext.symm

theorem value_ofInt (n : Int) : (ofInt n).value = n := by
  have hdigits : (ofInt n).digits = n.natAbs := by
    show Nat.ofDigitChars 10 (Nat.toDigits 10 n.natAbs ++ []) 0 = _
    rw [List.append_nil]
    exact Nat.ofDigitChars_ten_toDigits
  have hexponent : (ofInt n).exponent = 0 := rfl
  rw [value, hdigits, hexponent, negative_ofInt, zpow_zero, mul_one, Nat.cast_natAbs, Int.cast_abs]
  by_cases hneg : n < 0
  · rw [decide_eq_true hneg, if_pos rfl, abs_of_neg (by exact_mod_cast hneg)]
    ring
  · rw [decide_eq_false hneg, if_neg (by decide), abs_of_nonneg (by exact_mod_cast not_lt.mp hneg)]
    ring

end Numeral

/-- The text of a whole number is read as the number nearest to it. -/
theorem Double.read_toString {n : Int} (hn : n.natAbs < 2 ^ 64) :
    Double.read (toString n) = some (Double.ofInt n) := by
  have hread := ((Numeral.ofInt n).read_of_value hn (Numeral.value_ofInt n)).1
  rwa [Numeral.text_ofInt, Numeral.trim_text_ofInt, Numeral.negative_ofInt] at hread

end Codebook.Number
