/-
# Decimals of whole numbers

The shortest decimal of a whole number of at most 53 bits is the number itself: the decimals that
round to it and have no places after the point are no other whole numbers. So the canonical text of
the number nearest to such a whole number is that of the whole number, which is also the text under
which a whole number is indexed.

Key definitions: `Decimal.Writes`.
Key theorems: `RoundingInterval.writes_of_pick?`, `writes_shortest`, `Double.canonical_ofInt`.
-/
import Codebook.Proofs.Rounding
import Mathlib.Data.Nat.Digits.Defs

namespace Codebook.Number

/-! ### Decimals that write a whole number -/

/-- The decimal is this whole number and has no places after the point. -/
structure Decimal.Writes (x : Decimal) (n : Nat) : Prop where
  whole : 0 ≤ x.exponent
  value : x.digits * tenTo x.exponent.toNat = n

namespace Decimal

variable {x : Decimal} {n : Nat}

theorem toString_mul_tenTo (h : 0 < n) : ∀ k, toString (n * tenTo k) = toString n ++ zeros k
  | 0 => by simp [tenTo, zeros]
  | k + 1 => by
    have hpos : 0 < n * tenTo k := Nat.mul_pos h (Nat.pow_pos (by decide))
    have hstep : n * tenTo (k + 1) = 10 * (n * tenTo k) + 0 := by
      show n * 10 ^ (k + 1) = 10 * (n * 10 ^ k) + 0
      ring
    have hzeros : (zeros (k + 1)).toList = (zeros k).toList ++ Nat.toDigits 10 0 := by
      simp only [zeros, String.toList_ofList, List.replicate_succ']
      rfl
    have ih := congrArg String.toList (toString_mul_tenTo h k)
    rw [String.toList_append] at ih
    rw [← String.toList_inj, String.toList_append, hzeros, ← List.append_assoc, ← ih, hstep]
    show (Nat.repr _).toList = (Nat.repr _).toList ++ _
    rw [Nat.toList_repr, Nat.toList_repr, Nat.toDigits_append_toDigits (by decide) hpos (by decide)]

/-- A decimal without places is written digit by digit. -/
theorem Writes.positional (hx : x.Writes n) (h : 0 < n) : x.positional = toString n := by
  have hdigits : 0 < x.digits := by
    rw [Nat.pos_iff_ne_zero]
    intro hzero
    have hvalue := hx.value
    rw [hzero, Nat.zero_mul] at hvalue
    omega
  rw [Decimal.positional, if_pos hx.whole, ← toString_mul_tenTo hdigits, hx.value]

theorem Writes.strip (hx : x.Writes n) : x.strip.Writes n := by
  suffices hgo : ∀ fuel (x : Decimal), x.Writes n → (Decimal.strip.go fuel x).Writes n from hgo _ x hx
  intro fuel
  induction fuel with
  | zero => exact fun x hx => hx
  | succ fuel ih =>
    intro x hx
    rw [Decimal.strip.go]
    split_ifs with hzero
    · refine ih _ ⟨by have := hx.whole; show 0 ≤ x.exponent + 1; omega, ?_⟩
      have hwhole := hx.whole
      rw [← hx.value]
      show x.digits / 10 * 10 ^ (x.exponent + 1).toNat = x.digits * 10 ^ x.exponent.toNat
      rw [show (x.exponent + 1).toNat = x.exponent.toNat + 1 by omega, pow_succ', ← Nat.mul_assoc,
        Nat.div_mul_cancel (Nat.dvd_of_mod_eq_zero hzero.2)]
    · exact hx

end Decimal

/-! ### Intervals around whole numbers -/

namespace RoundingInterval

variable {i : RoundingInterval} {n : Nat}

/-- The numbers that round to a whole number are all less than half of one away from it. -/
structure Around (i : RoundingInterval) (n : Nat) : Prop where
  value : i.value = n * i.den
  low : i.value < i.low + i.den
  high : i.high < i.value + i.den
  inside : i.low < i.value ∧ i.value < i.high

theorem holds_iff_of_whole (h : i.Around n) {x : Decimal} (hx : 0 ≤ x.exponent) :
    i.holds x = true ↔ x.Writes n := by
  have hfactor : factor x = 1 := by
    rw [factor, show (-x.exponent).toNat = 0 by omega]
    rfl
  have hvalue := h.value
  obtain ⟨hbelow, habove⟩ := h.inside
  have hlow := h.low
  have hhigh := h.high
  rw [holds, hfactor, Nat.mul_one, Nat.mul_one, numerator]
  generalize hm : x.digits * tenTo x.exponent.toNat = m
  constructor
  · intro hholds
    refine ⟨hx, hm.trans ?_⟩
    have hbounds : i.low ≤ m * i.den ∧ m * i.den ≤ i.high := by
      split_ifs at hholds <;> simp only [Bool.and_eq_true, decide_eq_true_eq] at hholds <;> omega
    by_contra hne
    rcases Nat.lt_or_gt_of_ne hne with hlt | hlt
    · have hle := Nat.mul_le_mul_right i.den hlt
      rw [Nat.succ_mul] at hle
      omega
    · have hle := Nat.mul_le_mul_right i.den hlt
      rw [Nat.succ_mul] at hle
      omega
  · intro hwrites
    rw [← hm, hwrites.value, ← hvalue]
    split_ifs <;> simp only [Bool.and_eq_true, decide_eq_true_eq] <;> omega

theorem leadingExponent_eq (h : i.Around n) (hn : 0 < n) (hden : 0 < i.den) :
    i.leadingExponent = (toString n).length - 1 := by
  rw [leadingExponent, if_pos, h.value, Nat.mul_div_cancel _ hden]
  rw [h.value]
  exact Nat.le_mul_of_pos_left _ hn

/-- What is picked among the decimals without places writes the whole number. -/
theorem writes_of_pick? (h : i.Around n) {count : Nat} (hcount : (count : Int) - 1 ≤ i.leadingExponent)
    {x : Decimal} (hx : i.pick? count = some x) : x.Writes n := by
  simp only [pick?] at hx
  split at hx
  · rename_i hbelow habove
    rw [holds_iff_of_whole h (by simpa using hcount)] at hbelow habove
    obtain rfl := Option.some.inj hx
    split_ifs
    · exact habove
    · exact hbelow
  · rename_i hbelow _
    rw [holds_iff_of_whole h (by simpa using hcount)] at hbelow
    exact Option.some.inj hx ▸ hbelow
  · rename_i _ habove
    rw [holds_iff_of_whole h (by simpa using hcount)] at habove
    exact Option.some.inj hx ▸ habove
  · exact absurd hx (by simp)

/-- Among the decimals with all digits of the whole number there is this number. -/
theorem isSome_pick? (h : i.Around n) (hden : 0 < i.den) {count : Nat}
    (hcount : (count : Int) - 1 = i.leadingExponent) : (i.pick? count).isSome = true := by
  have hone : tenTo 0 = 1 := rfl
  have hbelow : i.holds ⟨i.value * tenTo (-(0 : Int)).toNat / (i.den * tenTo (0 : Int).toNat), 0⟩ = true := by
    rw [holds_iff_of_whole h le_rfl]
    refine ⟨le_rfl, ?_⟩
    show i.value * tenTo 0 / (i.den * tenTo 0) * tenTo 0 = n
    rw [hone, Nat.mul_one, Nat.mul_one, Nat.mul_one, h.value, Nat.mul_div_cancel _ hden]
  simp only [pick?, hcount, sub_self, hbelow]
  split <;> simp_all

end RoundingInterval

/-! ### Shortest decimals -/

variable {n : Nat}

theorem around_ofParts (h : 0 < n) (hn : n < 2 ^ 53) :
    (RoundingInterval.ofParts (n * twoTo (52 - n.log2)) (n.log2 - 52)).Around n := by
  have hlog := Double.log2_lt_of_lt (by decide) hn
  have hpos : 0 < twoTo (52 - n.log2) := Nat.two_pow_pos _
  have hmantissa : 0 < n * twoTo (52 - n.log2) := Nat.mul_pos h hpos
  unfold RoundingInterval.ofParts
  simp only [show ((n.log2 : Int) - 52).toNat = 0 by omega,
    show (-((n.log2 : Int) - 52)).toNat = 52 - n.log2 by omega, show twoTo 0 = 1 from rfl, Nat.mul_one]
  refine ⟨?_, ?_, ?_, ?_⟩
  · show 4 * (n * twoTo (52 - n.log2)) = n * (4 * twoTo (52 - n.log2))
    ring
  · simp only
    split_ifs <;> omega
  · simp only
    omega
  · simp only
    constructor
    · split_ifs <;> omega
    · omega

/-- The number of decimal digits of a whole number. -/
theorem length_toString_le_iff {k : Nat} (hk : 0 < k) : (toString n).length ≤ k ↔ n < 10 ^ k := by
  have hdigits : (toString n).length = (Nat.toDigits 10 n).length := by
    rw [← String.length_toList]
    exact congrArg List.length Nat.toList_repr
  rw [hdigits, Nat.length_toDigits_le_iff (by decide) hk]

theorem length_toString_pos (n : Nat) : 0 < (toString n).length := by
  rw [← String.length_toList]
  exact (congrArg List.length Nat.toList_repr).trans_gt (List.length_pos_iff.mpr Nat.toDigits_ne_nil)

theorem mem_before_of_range {m j k : Nat} {before after : List Nat}
    (h : List.range m = before ++ k :: after) (hj : j < k) : j ∈ before := by
  have hsorted := List.pairwise_lt_range (n := m)
  have hk : k ∈ List.range m := by
    rw [h]
    simp
  have hmem : j ∈ List.range m := List.mem_range.mpr (hj.trans (List.mem_range.mp hk))
  rw [h] at hsorted hmem
  refine (List.mem_append.mp hmem).resolve_right fun hmem => ?_
  rcases List.mem_cons.mp hmem with heq | hmem
  · omega
  · have hafter := (List.pairwise_cons.mp (List.pairwise_append.mp hsorted).2.1).1 _ hmem
    omega

/-- **The shortest decimal of a whole number of at most 53 bits** is this number. -/
theorem writes_shortest (h : 0 < n) (hn : n < 2 ^ 53) :
    (shortest (n * twoTo (52 - n.log2)) (n.log2 - 52)).Writes n := by
  have haround := around_ofParts h hn
  have hden : 0 < (RoundingInterval.ofParts (n * twoTo (52 - n.log2)) (n.log2 - 52)).den :=
    Nat.mul_pos (by decide) (Nat.two_pow_pos _)
  have hleading := RoundingInterval.leadingExponent_eq haround h hden
  simp only [shortest]
  generalize RoundingInterval.ofParts (n * twoTo (52 - n.log2)) (n.log2 - 52) = i at *
  have hpos := length_toString_pos n
  have hlength : (toString n).length ≤ 16 := (length_toString_le_iff (by decide)).mpr (by omega)
  have hsome : (i.pick? ((toString n).length - 1 + 1)).isSome = true :=
    RoundingInterval.isSome_pick? haround hden (by rw [hleading]; omega)
  -- the search ends where there is this number, if not before
  cases hfound : (List.range 17).findSome? fun n => i.pick? (n + 1) with
  | none =>
    have hnone := List.findSome?_eq_none_iff.mp hfound ((toString n).length - 1)
      (List.mem_range.mpr (by omega))
    rw [hnone] at hsome
    exact absurd hsome (by decide)
  | some x =>
    obtain ⟨before, k, after, hrange, hk, hbefore⟩ := List.findSome?_eq_some_iff.mp hfound
    rw [Option.getD_some]
    refine RoundingInterval.writes_of_pick? haround ?_ hk
    rw [hleading]
    by_contra hlt
    have hmem := mem_before_of_range (j := (toString n).length - 1) hrange (by omega)
    rw [hbefore _ hmem] at hsome
    exact absurd hsome (by decide)

namespace Double

variable {s : Bool}

theorem plain_ofNat (h : 0 < n) (hn : n < 2 ^ 53) : (ofNat s n).plain = signText s ++ toString n := by
  have hne : n * twoTo (52 - n.log2) ≠ 0 := (Nat.mul_pos h (Nat.two_pow_pos _)).ne'
  rw [ofNat_of_lt h hn, plain, if_neg hne, (writes_shortest h hn).strip.positional h]

/-- **The canonical text of the number nearest to a whole number** of at most 53 bits is that of the
whole number. -/
theorem canonical_ofNat (hn : n ≤ 2 ^ 53) :
    (ofNat s n).canonical = toString (if s then -(n : Int) else n) := by
  rcases hn.lt_or_eq with hlt | rfl
  · have hsize : (if s then -(n : Int) else n).natAbs = n := by cases s <;> simp
    simp only [canonical, whole?_ofNat hn, hsize]
    by_cases hsmall : n < tenTo 15
    · rw [if_pos hsmall]
    · have h : 0 < n := by
        by_contra hzero
        exact hsmall (lt_of_le_of_lt (Nat.le_of_not_lt hzero) (by decide))
      rw [if_neg hsmall, plain_ofNat h hlt]
      cases s with
      | false => rfl
      | true =>
        obtain ⟨k, rfl⟩ : ∃ k, n = k + 1 := ⟨n - 1, by omega⟩
        rfl
  · cases s <;> decide

theorem canonical_ofInt {n : Int} (hn : n.natAbs ≤ 2 ^ 53) : (ofInt n).canonical = toString n := by
  rw [ofInt, canonical_ofNat hn]
  congr 1
  by_cases hneg : n < 0
  · rw [decide_eq_true hneg, if_pos rfl]
    omega
  · rw [decide_eq_false hneg, if_neg (by decide)]
    omega

end Double

end Codebook.Number
