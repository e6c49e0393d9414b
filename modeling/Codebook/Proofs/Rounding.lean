/-
# Whole numbers as double-precision numbers

A whole number has a nearest double-precision number, the one that is read from any decimal that
writes it. Up to 2 ^ 53 this is the number itself. Beyond, neighbours fall together, but never change
places: what is greater is not rounded to less.

Key definitions: `Double.ofNat`, `Double.ofInt`, `Double.mantissaOf`.
Key theorems: `Double.nearest_mul`, `Double.ofNat_eq`, `Double.whole?_ofNat`, `Double.rank_ofInt_mono`,
`Double.rank_ofInt_inj`.
-/
import Codebook.Number.Text
import Mathlib.Data.Nat.Log
import Mathlib.Tactic.Ring

namespace Codebook.Number.Double

/-! ### Nearest whole numbers -/

variable {n m d c : Nat} {s : Bool}

theorem roundEven_mul (n d : Nat) (hc : 0 < c) : roundEven (n * c) (d * c) = roundEven n d := by
  have hlt : 2 * (n % d * c) < d * c ↔ 2 * (n % d) < d := by
    rw [← Nat.mul_assoc, Nat.mul_lt_mul_right hc]
  have heq : 2 * (n % d * c) = d * c ↔ 2 * (n % d) = d := by
    rw [← Nat.mul_assoc, Nat.mul_left_inj hc.ne']
  simp only [roundEven, Nat.mul_div_mul_right _ _ hc, Nat.mul_mod_mul_right, hlt, heq]

theorem roundEven_one (n : Nat) : roundEven n 1 = n := by
  simp [roundEven, Nat.mod_one]

theorem le_roundEven (n d : Nat) : n / d ≤ roundEven n d := by
  simp only [roundEven]
  split_ifs <;> omega

theorem roundEven_le (n d : Nat) : roundEven n d ≤ n / d + 1 := by
  simp only [roundEven]
  split_ifs <;> omega

theorem roundEven_mono (d : Nat) (h : n ≤ m) : roundEven n d ≤ roundEven m d := by
  rcases (Nat.div_le_div_right (c := d) h).lt_or_eq with hlt | heq
  · exact (roundEven_le n d).trans (hlt.trans_le (le_roundEven m d))
  · have hrest : n % d ≤ m % d := by
      have hn := Nat.div_add_mod n d
      have hm := Nat.div_add_mod m d
      rw [heq] at hn
      omega
    simp only [roundEven, heq]
    split_ifs <;> omega

/-! ### Mantissas -/

/-- The mantissa of a positive whole number, before a carry: its first 53 bits, rounded. -/
def mantissaOf (n : Nat) : Nat :=
  roundEven (n * twoTo (52 - n.log2)) (twoTo (n.log2 - 52))

theorem quotient_bounds (h : 0 < n) :
    leastFull * twoTo (n.log2 - 52) ≤ n * twoTo (52 - n.log2) ∧
      n * twoTo (52 - n.log2) < 2 * leastFull * twoTo (n.log2 - 52) := by
  have hlow : 2 ^ n.log2 ≤ n := Nat.log2_self_le h.ne'
  have hhigh : n < 2 ^ (n.log2 + 1) := Nat.lt_log2_self
  show 2 ^ 52 * 2 ^ (n.log2 - 52) ≤ n * 2 ^ (52 - n.log2) ∧
    n * 2 ^ (52 - n.log2) < 2 * 2 ^ 52 * 2 ^ (n.log2 - 52)
  rcases le_total n.log2 52 with hle | hle
  · rw [Nat.sub_eq_zero_of_le hle]
    have h52 : 2 ^ n.log2 * 2 ^ (52 - n.log2) = 2 ^ 52 := by rw [← pow_add]; congr 1; omega
    rw [pow_succ] at hhigh
    have hlow' := Nat.mul_le_mul_right (2 ^ (52 - n.log2)) hlow
    have hhigh' := Nat.mul_lt_mul_of_pos_right hhigh (Nat.two_pow_pos (52 - n.log2))
    rw [Nat.mul_right_comm, h52] at hhigh'
    rw [h52] at hlow'
    omega
  · rw [Nat.sub_eq_zero_of_le hle]
    have h52 : 2 ^ 52 * 2 ^ (n.log2 - 52) = 2 ^ n.log2 := by rw [← pow_add]; congr 1; omega
    rw [pow_succ] at hhigh
    rw [Nat.mul_assoc, h52]
    omega

theorem le_mantissaOf (h : 0 < n) : leastFull ≤ mantissaOf n := by
  refine le_trans ?_ (le_roundEven _ _)
  exact (Nat.le_div_iff_mul_le (Nat.two_pow_pos _)).mpr (quotient_bounds h).1

theorem mantissaOf_le (h : 0 < n) : mantissaOf n ≤ 2 * leastFull := by
  refine (roundEven_le _ _).trans ?_
  exact (Nat.div_lt_iff_lt_mul (Nat.two_pow_pos _)).mpr (quotient_bounds h).2

theorem mantissaOf_mono (hlog : n.log2 = m.log2) (h : n ≤ m) : mantissaOf n ≤ mantissaOf m := by
  unfold mantissaOf
  rw [hlog]
  exact roundEven_mono _ (Nat.mul_le_mul_right _ h)

/-! ### Nearest double-precision numbers -/

/-- The number nearest to a whole number, or its opposite. -/
def ofNat (negative : Bool) (n : Nat) : Double :=
  nearest negative n 1

/-- The number nearest to a whole number. -/
def ofInt (n : Int) : Double :=
  ofNat (decide (n < 0)) n.natAbs

theorem scale_mul (n c : Nat) (e : Int) : scale (n * c) c e =
    (n * twoTo (-e).toNat * c, twoTo e.toNat * c) := by
  rw [scale, Nat.mul_right_comm, Nat.mul_comm c]

/-- The exponent of a whole number makes its mantissa one of 53 bits, however it is written as a
fraction. -/
theorem log2_mul (h : 0 < n) (hc : 0 < c) :
    (n * c).log2 = n.log2 + c.log2 ∨ (n * c).log2 = n.log2 + c.log2 + 1 := by
  have hlow : n.log2 + c.log2 ≤ (n * c).log2 := by
    rw [Nat.le_log2 (Nat.mul_pos h hc).ne', pow_add]
    exact Nat.mul_le_mul (Nat.log2_self_le h.ne') (Nat.log2_self_le hc.ne')
  have hhigh : (n * c).log2 < n.log2 + 1 + (c.log2 + 1) := by
    rw [Nat.log2_lt (Nat.mul_pos h hc).ne', pow_add]
    exact Nat.mul_lt_mul'' Nat.lt_log2_self Nat.lt_log2_self
  omega

theorem exponentOf_mul (h : 0 < n) (hc : 0 < c) : exponentOf (n * c) c = (n.log2 : Int) - 52 := by
  obtain ⟨hlow, hhigh⟩ := quotient_bounds h
  -- the guess is right, or one too great, and then it is corrected
  unfold exponentOf
  simp only [scale_mul, Nat.mul_div_mul_right _ _ hc]
  rcases log2_mul h hc with hlog | hlog
  · rw [hlog, show ((n.log2 + c.log2 : Nat) : Int) - c.log2 - 52 = n.log2 - 52 by omega,
      show (-((n.log2 : Int) - 52)).toNat = 52 - n.log2 by omega,
      show ((n.log2 : Int) - 52).toNat = n.log2 - 52 by omega, if_neg, max_eq_right]
    · unfold leastExponent
      omega
    · rw [not_lt]
      exact (Nat.le_div_iff_mul_le (Nat.two_pow_pos _)).mpr hlow
  · rw [hlog, show ((n.log2 + c.log2 + 1 : Nat) : Int) - c.log2 - 52 = n.log2 - 51 by omega,
      show (-((n.log2 : Int) - 51)).toNat = 51 - n.log2 by omega,
      show ((n.log2 : Int) - 51).toNat = n.log2 - 51 by omega, if_pos]
    · rw [show (n.log2 : Int) - 51 - 1 = n.log2 - 52 by omega, max_eq_right]
      unfold leastExponent
      omega
    · refine (Nat.div_lt_iff_lt_mul (Nat.two_pow_pos _)).mpr ?_
      show n * 2 ^ (51 - n.log2) < 2 ^ 52 * 2 ^ (n.log2 - 51)
      rw [← pow_add]
      calc n * 2 ^ (51 - n.log2) < 2 ^ (n.log2 + 1) * 2 ^ (51 - n.log2) :=
            Nat.mul_lt_mul_of_pos_right Nat.lt_log2_self (Nat.two_pow_pos _)
        _ = 2 ^ (52 + (n.log2 - 51)) := by
            rw [← pow_add]
            congr 1
            omega

/-- **What is nearest to a whole number** has the mantissa of the number, or the carry of it. -/
theorem nearest_mul (h : 0 < n) (hlog : n.log2 ≤ 1000) (hc : 0 < c) : nearest s (n * c) c =
    if mantissaOf n = 2 * leastFull then finite s leastFull (n.log2 - 51)
    else finite s (mantissaOf n) (n.log2 - 52) := by
  have hne : n * c ≠ 0 := (Nat.mul_pos h hc).ne'
  simp only [nearest, if_neg hne, exponentOf_mul h hc, scale_mul, roundEven_mul _ _ hc]
  rw [show (-((n.log2 : Int) - 52)).toNat = 52 - n.log2 by omega,
    show ((n.log2 : Int) - 52).toNat = n.log2 - 52 by omega,
    show roundEven (n * twoTo (52 - n.log2)) (twoTo (n.log2 - 52)) = mantissaOf n from rfl]
  unfold greatestExponent
  by_cases hcarry : mantissaOf n = 2 * leastFull
  · simp only [if_pos hcarry]
    rw [if_neg (by omega), show (n.log2 : Int) - 52 + 1 = n.log2 - 51 by omega]
  · simp only [if_neg hcarry]
    rw [if_neg (by omega)]

theorem ofNat_eq (h : 0 < n) (hlog : n.log2 ≤ 1000) : ofNat s n =
    if mantissaOf n = 2 * leastFull then finite s leastFull (n.log2 - 51)
    else finite s (mantissaOf n) (n.log2 - 52) := by
  have hone := nearest_mul (s := s) h hlog Nat.one_pos
  rwa [Nat.mul_one] at hone

theorem nearest_mul_eq_ofNat (n : Nat) (hlog : n.log2 ≤ 1000) (hc : 0 < c) :
    nearest s (n * c) c = ofNat s n := by
  rcases n.eq_zero_or_pos with rfl | h
  · simp [ofNat, nearest]
  · rw [nearest_mul h hlog hc, ofNat_eq h hlog]

/-! ### Numbers of 53 bits -/

theorem log2_lt_of_lt {k : Nat} (hk : 0 < k) (hn : n < 2 ^ k) : n.log2 < k := by
  rcases n.eq_zero_or_pos with rfl | h
  · rwa [Nat.log2_zero]
  · exact (Nat.log2_lt h.ne').mpr hn

/-- Whole numbers of 64 bits are far from the infinity. -/
theorem log2_le_of_lt (hn : n < 2 ^ 64) : n.log2 ≤ 1000 :=
  (log2_lt_of_lt (by decide) hn).le.trans (by decide)

theorem mantissaOf_of_lt (hn : n < 2 ^ 53) : mantissaOf n = n * twoTo (52 - n.log2) := by
  have hlog := log2_lt_of_lt (by decide) hn
  unfold mantissaOf
  rw [show n.log2 - 52 = 0 by omega]
  exact roundEven_one _

/-- A whole number of at most 53 bits is kept as it is. -/
theorem ofNat_of_lt (h : 0 < n) (hn : n < 2 ^ 53) :
    ofNat s n = finite s (n * twoTo (52 - n.log2)) (n.log2 - 52) := by
  have hlog := log2_lt_of_lt (by decide) hn
  rw [ofNat_eq h (by omega), mantissaOf_of_lt hn, if_neg]
  have hhigh := (quotient_bounds h).2
  rw [show n.log2 - 52 = 0 by omega] at hhigh
  exact (by simpa [twoTo] using hhigh : n * twoTo (52 - n.log2) < 2 * leastFull).ne

theorem whole?_ofNat (hn : n ≤ 2 ^ 53) : (ofNat s n).whole? = some (if s then -(n : Int) else n) := by
  rcases n.eq_zero_or_pos with rfl | h
  · cases s <;> simp [ofNat, nearest, whole?, fraction]
  rcases hn.lt_or_eq with hn | rfl
  · have hlog := log2_lt_of_lt (by decide) hn
    have hdiv : n * twoTo (52 - n.log2) / twoTo (52 - n.log2) = n :=
      Nat.mul_div_cancel _ (Nat.two_pow_pos _)
    rw [ofNat_of_lt h hn, whole?, fraction]
    simp only [show ((n.log2 : Int) - 52).toNat = 0 by omega,
      show (-((n.log2 : Int) - 52)).toNat = 52 - n.log2 by omega]
    rw [show twoTo 0 = 1 from rfl, Nat.mul_one, Nat.mul_mod_left, hdiv, if_pos rfl]
  · cases s <;> decide

theorem whole?_ofInt {n : Int} (hn : n.natAbs ≤ 2 ^ 53) : (ofInt n).whole? = some n := by
  rw [ofInt, whole?_ofNat hn, Option.some.injEq]
  split_ifs with hneg <;> simp only [decide_eq_true_iff] at hneg <;> omega

/-- Up to 2 ^ 53 different whole numbers have different nearest numbers. -/
theorem eq_of_ofInt_eq {m n : Int} (hm : m.natAbs ≤ 2 ^ 53) (hn : n.natAbs ≤ 2 ^ 53)
    (h : ofInt m = ofInt n) : m = n := by
  have hwhole := whole?_ofInt hm
  rw [h, whole?_ofInt hn] at hwhole
  exact (Option.some.inj hwhole).symm

/-! ### The order of what is nearest -/

theorem magnitudeRank_ofNat (h : 0 < n) (hlog : n.log2 ≤ 1000) : (ofNat s n).magnitudeRank =
    if mantissaOf n = 2 * leastFull then ((n.log2 : Int) + 1023) * (2 * leastFull : Nat) + leastFull
    else ((n.log2 : Int) + 1022) * (2 * leastFull : Nat) + mantissaOf n := by
  rw [ofNat_eq h hlog]
  split_ifs <;> simp only [magnitudeRank, leastExponent] <;> congr 2 <;> omega

theorem magnitudeRank_ofNat_zero : (ofNat s 0).magnitudeRank = 0 := by
  simp [ofNat, nearest, magnitudeRank]

/-- Of positive whole numbers the greater one is not rounded to less. -/
theorem magnitudeRank_ofNat_mono {t : Bool} (h : 0 < n) (hlog : m.log2 ≤ 1000) (hle : n ≤ m) :
    (ofNat s n).magnitudeRank ≤ (ofNat t m).magnitudeRank := by
  have hm : 0 < m := h.trans_le hle
  have hlogs : n.log2 ≤ m.log2 := by
    rw [Nat.le_log2 hm.ne']
    exact (Nat.log2_self_le h.ne').trans hle
  have hmono : n.log2 = m.log2 → mantissaOf n ≤ mantissaOf m := fun heq => mantissaOf_mono heq hle
  have hn₁ := le_mantissaOf h
  have hn₂ := mantissaOf_le h
  have hm₁ := le_mantissaOf hm
  have hm₂ := mantissaOf_le hm
  rw [magnitudeRank_ofNat h (hlogs.trans hlog), magnitudeRank_ofNat hm hlog]
  have hfull : leastFull = 4503599627370496 := rfl
  simp only [hfull] at *
  split_ifs <;> omega

theorem magnitudeRank_ofNat_pos (h : 0 < n) (hlog : n.log2 ≤ 1000) : 0 < (ofNat s n).magnitudeRank := by
  have hn₁ := le_mantissaOf h
  rw [magnitudeRank_ofNat h hlog]
  have hfull : leastFull = 4503599627370496 := rfl
  simp only [hfull] at *
  split_ifs <;> omega

theorem isNegative_ofNat (h : 0 < n) (hlog : n.log2 ≤ 1000) : (ofNat s n).isNegative = s := by
  rw [ofNat_eq h hlog]
  split_ifs <;> rfl

/-- The place of a magnitude tells which one it is. -/
theorem ofNat_eq_of_magnitudeRank (hn : 0 < n) (hm : 0 < m) (hlogn : n.log2 ≤ 1000)
    (hlogm : m.log2 ≤ 1000) (h : (ofNat s n).magnitudeRank = (ofNat s m).magnitudeRank) :
    ofNat s n = ofNat s m := by
  have hn₁ := le_mantissaOf hn
  have hn₂ := mantissaOf_le hn
  have hm₁ := le_mantissaOf hm
  have hm₂ := mantissaOf_le hm
  rw [magnitudeRank_ofNat hn hlogn, magnitudeRank_ofNat hm hlogm] at h
  rw [ofNat_eq hn hlogn, ofNat_eq hm hlogm]
  have hfull : leastFull = 4503599627370496 := rfl
  simp only [hfull] at *
  split_ifs at h ⊢ <;> congr 1 <;> omega

section

variable {m n : Int}

theorem rank_ofInt_of_nonneg (h : 0 ≤ n) (hlog : n.natAbs.log2 ≤ 1000) :
    (ofInt n).rank = (ofNat false n.natAbs).magnitudeRank := by
  rw [ofInt, decide_eq_false (by omega)]
  rcases n.natAbs.eq_zero_or_pos with hzero | hpos
  · rw [hzero]
    rfl
  · rw [rank, isNegative_ofNat hpos hlog]
    rfl

theorem rank_ofInt_of_neg (h : n < 0) (hlog : n.natAbs.log2 ≤ 1000) :
    (ofInt n).rank = -1 - (ofNat true n.natAbs).magnitudeRank := by
  rw [ofInt, decide_eq_true h, rank, isNegative_ofNat (by omega) hlog]
  rfl

theorem magnitudeRank_ofNat_nonneg (n : Nat) (hlog : n.log2 ≤ 1000) : 0 ≤ (ofNat s n).magnitudeRank := by
  rcases n.eq_zero_or_pos with rfl | h
  · exact magnitudeRank_ofNat_zero.ge
  · exact (magnitudeRank_ofNat_pos h hlog).le

/-- **What is greater is not rounded to less.** -/
theorem rank_ofInt_mono (hm : m.natAbs.log2 ≤ 1000) (hn : n.natAbs.log2 ≤ 1000) (h : m ≤ n) :
    (ofInt m).rank ≤ (ofInt n).rank := by
  rcases lt_or_ge m 0 with hneg | hpos
  · rw [rank_ofInt_of_neg hneg hm]
    have hm₁ := magnitudeRank_ofNat_nonneg (s := true) _ hm
    rcases lt_or_ge n 0 with hneg' | hpos'
    · rw [rank_ofInt_of_neg hneg' hn]
      have hle := magnitudeRank_ofNat_mono (s := true) (t := true) (n := n.natAbs) (m := m.natAbs)
        (by omega) hm (by omega)
      omega
    · rw [rank_ofInt_of_nonneg hpos' hn]
      have hn₁ := magnitudeRank_ofNat_nonneg (s := false) _ hn
      omega
  · rw [rank_ofInt_of_nonneg hpos hm, rank_ofInt_of_nonneg (hpos.trans h) hn]
    rcases hpos.eq_or_lt with rfl | hlt
    · exact magnitudeRank_ofNat_zero.le.trans (magnitudeRank_ofNat_nonneg _ hn)
    · exact magnitudeRank_ofNat_mono (by omega) hn (by omega)

/-- Whole numbers at the same place have the same nearest number. -/
theorem rank_ofInt_inj (hm : m.natAbs.log2 ≤ 1000) (hn : n.natAbs.log2 ≤ 1000) :
    (ofInt m).rank = (ofInt n).rank ↔ ofInt m = ofInt n := by
  refine ⟨fun h => ?_, fun h => by rw [h]⟩
  have hm₁ := magnitudeRank_ofNat_nonneg (s := true) _ hm
  have hm₂ := magnitudeRank_ofNat_nonneg (s := false) _ hm
  have hn₁ := magnitudeRank_ofNat_nonneg (s := true) _ hn
  have hn₂ := magnitudeRank_ofNat_nonneg (s := false) _ hn
  rcases lt_or_ge m 0 with hneg | hpos <;> rcases lt_or_ge n 0 with hneg' | hpos'
  · rw [rank_ofInt_of_neg hneg hm, rank_ofInt_of_neg hneg' hn] at h
    rw [ofInt, ofInt, decide_eq_true hneg, decide_eq_true hneg']
    exact ofNat_eq_of_magnitudeRank (by omega) (by omega) hm hn (by omega)
  · rw [rank_ofInt_of_neg hneg hm, rank_ofInt_of_nonneg hpos' hn] at h
    omega
  · rw [rank_ofInt_of_nonneg hpos hm, rank_ofInt_of_neg hneg' hn] at h
    omega
  · rw [rank_ofInt_of_nonneg hpos hm, rank_ofInt_of_nonneg hpos' hn] at h
    rw [ofInt, ofInt, decide_eq_false (by omega), decide_eq_false (by omega)]
    rcases m.natAbs.eq_zero_or_pos with hzero | hm' <;> rcases n.natAbs.eq_zero_or_pos with hzero' | hn'
    · rw [hzero, hzero']
    · have hlt := magnitudeRank_ofNat_pos (s := false) hn' hn
      rw [hzero, magnitudeRank_ofNat_zero] at h
      omega
    · have hlt := magnitudeRank_ofNat_pos (s := false) hm' hm
      rw [hzero', magnitudeRank_ofNat_zero] at h
      omega
    · exact ofNat_eq_of_magnitudeRank hm' hn' hm hn h

end

end Codebook.Number.Double
