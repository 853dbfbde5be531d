import Mathlib
import Provenance.Json.Numeral
import Provenance.Proofs.Binary64.Rounding

/-!
# Scaling by powers of ten

The double of a numeral is found from its digits, as one significand, and a power
of ten.  If both of them are doubles, only the result is rounded, so it is the
nearest double (`scaled?_exact`).  In general up to three roundings are made; even
so digits that are well below the greatest double give a double (`exists_scaled?`).
-/

namespace Provenance.Json.Numeral

open Binary64

theorem exists_ofNat?_exact {n bits scale : Nat} (isScaled : n = bits * 2 ^ scale)
    (fits : bits ≤ 2 * fractionCount) (small : n < 2 ^ 1024) :
    ∃ x, ofNat? n = some x ∧ x.size = n := by
  obtain ⟨x, notNegative, isSize⟩ := exists_size_eq isScaled fits small
  have nearest := isNearest_ofNat? n
  rw [← isSize] at nearest
  exact ⟨x, nearest.eq_some_of_size notNegative, isSize⟩

/-- Powers of ten up to `10^22` are doubles. -/
theorem exists_powerOfTen?_exact {exponent : Nat} (small : exponent ≤ 22) :
    ∃ x, powerOfTen? exponent = some x ∧ x.size = (10 : ℚ) ^ exponent := by
  have isScaled : Nat.pow 10 exponent = 5 ^ exponent * 2 ^ exponent := by
    rw [Nat.pow_eq, ← Nat.mul_pow]
  have fits : 5 ^ exponent ≤ 2 * fractionCount :=
    (Nat.pow_le_pow_right (by decide) small).trans (by decide)
  have few : Nat.pow 10 exponent < 2 ^ 74 :=
    (Nat.pow_le_pow_right (by decide) small).trans_lt (by decide)
  have finite : Nat.pow 10 exponent < 2 ^ 1024 := lt_two_pow_of_lt few (by decide)
  obtain ⟨x, isPower, isSize⟩ := exists_ofNat?_exact isScaled fits finite
  refine ⟨x, isPower, ?_⟩
  rw [isSize, Nat.pow_eq]
  push_cast
  rfl

section Scaled

variable {significand exponent : Nat} {x : Binary64}

theorem scaled?_up (isSignificand : ofNat? significand = some x) :
    scaled? significand exponent = scaleUp x exponent := by
  unfold scaled?
  simp only [isSignificand, Option.bind_eq_bind, Option.bind_some, Int.natCast_nonneg, if_true,
    Int.toNat_natCast]

theorem scaled?_down (isSignificand : ofNat? significand = some x) (positive : 0 < exponent) :
    scaled? significand (-exponent) = scaleDown x exponent := by
  have negative : ¬ (0 ≤ (-exponent : ℤ)) := by omega
  unfold scaled?
  simp only [isSignificand, Option.bind_eq_bind, Option.bind_some, negative, if_false, neg_neg,
    Int.toNat_natCast]

theorem scaleUp_eq (few : exponent ≤ greatestPower) :
    scaleUp x exponent = (powerOfTen? exponent).bind x.times? := by
  unfold scaleUp
  split
  · rfl
  · contradiction

theorem scaleDown_eq (few : exponent ≤ greatestPower) :
    scaleDown x exponent = (powerOfTen? exponent).bind x.over? := by
  unfold scaleDown
  split
  · rfl
  · contradiction

theorem scaleDown_eq_twice (many : ¬ exponent ≤ greatestPower)
    (twice : exponent ≤ 2 * greatestPower) :
    scaleDown x exponent = ((powerOfTen? greatestPower).bind x.over?).bind fun reduced =>
      (powerOfTen? (exponent - greatestPower)).bind reduced.over? := by
  unfold scaleDown
  rw [if_neg many, if_pos twice]
  exact (Option.bind_assoc _ _ _).symm

end Scaled

/-- A significand and a power of ten that are doubles are scaled with one rounding. -/
theorem scaled?_exact {significand bits scale : Nat} {power : Int}
    (isScaled : significand = bits * 2 ^ scale) (fits : bits ≤ 2 * fractionCount)
    (small : significand < 2 ^ 1024) (few : power.natAbs ≤ 22) {magnitude : Nat}
    (finite : magnitude < infinite)
    (rounds : Rounds magnitude (halvesOf (significand * (10 : ℚ) ^ power))) :
    scaled? significand power = some ⟨false, magnitude, finite⟩ := by
  obtain ⟨x, isSignificand, xSize⟩ := exists_ofNat?_exact isScaled fits small
  cases power with
  | ofNat exponent =>
      change exponent ≤ 22 at few
      obtain ⟨y, isPower, ySize⟩ := exists_powerOfTen?_exact few
      have nearest := isNearest_times? x y
      rw [xSize, ySize, ← zpow_natCast] at nearest
      rw [Int.ofNat_eq_natCast, scaled?_up isSignificand, scaleUp_eq (few.trans (by decide)),
        isPower, Option.bind_some, nearest.eq_some finite rounds]
  | negSucc before =>
      change before + 1 ≤ 22 at few
      obtain ⟨y, isPower, ySize⟩ := exists_powerOfTen?_exact few
      have positive : 0 < y.units := by
        apply units_pos_of_one_le
        rw [ySize]
        exact one_le_pow₀ (by norm_num)
      have nearest := isNearest_over? x positive
      rw [Int.negSucc_eq] at rounds ⊢
      rw [← Nat.cast_one, ← Nat.cast_add] at rounds ⊢
      rw [xSize, ySize, div_eq_mul_inv, ← zpow_natCast, ← zpow_neg] at nearest
      rw [scaled?_down isSignificand (Nat.succ_pos before), scaleDown_eq (few.trans (by decide)),
        isPower, Option.bind_some, nearest.eq_some finite rounds]

/-! ## Results that exist -/

theorem exists_ofNat? {n : Nat} (fits : n ≤ significandLimit) :
    ∃ x, ofNat? n = some x ∧ Rounds x.magnitude (halvesOf n) := by
  obtain ⟨bound, -, isBound⟩ := @exists_size_eq (2 ^ 64) 1 64 rfl (by decide)
    (lt_two_pow_of_lt (by decide : 2 ^ 64 < 2 ^ 65) (by decide))
  have order : (n : ℚ) ≤ bound.size := by
    rw [isBound]
    exact Nat.cast_le.mpr (fits.trans (by decide))
  obtain ⟨x, isResult, -, -, rounds⟩ :=
    (isNearest_ofNat? n).exists_of_le bound.finite bound.rounds_size order
  exact ⟨x, isResult, rounds⟩

theorem exists_powerOfTen? {exponent : Nat} (few : exponent ≤ greatestPower) :
    ∃ x, powerOfTen? exponent = some x ∧ Rounds x.magnitude (halvesOf ((10 : ℚ) ^ exponent)) := by
  obtain ⟨bound, -, isBound⟩ :=
    @exists_size_eq (3 * 2 ^ 1022) 3 1022 rfl (by decide)
      (mul_two_pow_lt (by decide : 3 < 2 ^ 2) (by decide))
  have order : (10 : ℚ) ^ exponent ≤ bound.size := by
    have least : 10 ^ exponent ≤ 3 * 2 ^ 1022 :=
      (Nat.pow_le_pow_right (by decide) few).trans (by decide +kernel)
    rw [isBound, ← Nat.cast_ofNat, ← Nat.cast_pow]
    exact Nat.cast_le.mpr least
  obtain ⟨x, isResult, -, -, rounds⟩ :=
    (isNearest_powerOfTen? exponent).exists_of_le bound.finite bound.rounds_size order
  exact ⟨x, isResult, rounds⟩

/-- The first power of ten that is no double is not below `2^1024`. -/
theorem two_pow_le_ten_pow : 2 ^ 1024 ≤ 10 ^ (greatestPower + 1) := by
  decide +kernel

/-- Dividing by a power of ten never gives more than there was. -/
theorem exists_over?_powerOfTen (x : Binary64) {exponent : Nat} (few : exponent ≤ greatestPower) :
    ∃ y, (powerOfTen? exponent).bind x.over? = some y := by
  obtain ⟨power, isPower, rounds⟩ := exists_powerOfTen? few
  have least : 1 ≤ power.size := one_le_size rounds (one_le_pow₀ (by norm_num))
  have order : x.size / power.size ≤ x.size := div_le_self x.size_nonneg least
  obtain ⟨y, isResult, -⟩ := (isNearest_over? x (units_pos_of_one_le least)).exists_of_le x.finite
    x.rounds_size order
  exact ⟨y, by rw [isPower, Option.bind_some, isResult]⟩

theorem exists_scaleDown (x : Binary64) (exponent : Nat) : ∃ y, scaleDown x exponent = some y := by
  by_cases few : exponent ≤ greatestPower
  · rw [scaleDown_eq few]
    exact exists_over?_powerOfTen x few
  by_cases twice : exponent ≤ 2 * greatestPower
  · obtain ⟨reduced, isReduced⟩ := exists_over?_powerOfTen x (le_refl greatestPower)
    obtain ⟨y, isResult⟩ := @exists_over?_powerOfTen reduced (exponent - greatestPower) (by omega)
    exact ⟨y, by rw [scaleDown_eq_twice few twice, isReduced, Option.bind_some, isResult]⟩
  · refine ⟨.zero, ?_⟩
    unfold scaleDown
    rw [if_neg few, if_neg twice]

/-- Multiplying does not pass the greatest double if the exact product is well below
it: each of the three roundings adds at most a `2^53`th part. -/
theorem exists_times? {x y : Binary64} {significand exponent : Nat} (nonzero : 0 < significand)
    (isSignificand : Rounds x.magnitude (halvesOf significand))
    (isPower : Rounds y.magnitude (halvesOf ((10 : ℚ) ^ exponent)))
    (bounded : significand * (10 : ℚ) ^ exponent ≤ 18014398509481975 * 2 ^ 970) :
    ∃ z, x.times? y = some z := by
  obtain ⟨greatest, isGreatest⟩ := exists_size_eq_greatest
  have least : (1 : ℚ) ≤ significand := Nat.one_le_cast.mpr nonzero
  have xSize := size_le_of_rounds isSignificand least
  have ySize := size_le_of_rounds isPower (one_le_pow₀ (by norm_num))
  have order : x.size * y.size ≤ greatest.size := by
    have product := mul_le_mul xSize ySize (mul_nonneg y.size_nonneg (by norm_num))
      (mul_nonneg (Nat.cast_nonneg _) (by norm_num))
    have scaled := mul_le_mul_of_nonneg_right bounded (by norm_num : (0 : ℚ) ≤ (2 ^ 53 + 1) ^ 2)
    have positive : (0 : ℚ) < 2 ^ 970 := pow_pos two_pos _
    rw [isGreatest, pow_succ]
    generalize (2 : ℚ) ^ 970 = power at scaled positive ⊢
    apply le_of_mul_le_mul_right _ (by norm_num : (0 : ℚ) < 2 ^ 106)
    calc
      x.size * y.size * 2 ^ 106 = x.size * 2 ^ 53 * (y.size * 2 ^ 53) := by ring
      _ ≤ significand * (2 ^ 53 + 1) * ((10 : ℚ) ^ exponent * (2 ^ 53 + 1)) := product
      _ = significand * (10 : ℚ) ^ exponent * (2 ^ 53 + 1) ^ 2 := by ring
      _ ≤ 18014398509481975 * power * (2 ^ 53 + 1) ^ 2 := scaled
      _ ≤ 9007199254740991 * (power * 2) * 2 ^ 106 := by linarith only [positive]
  obtain ⟨z, isResult, -⟩ := (isNearest_times? x y).exists_of_le greatest.finite
    greatest.rounds_size order
  exact ⟨z, isResult⟩

/-- A zero is scaled by any power of ten. -/
theorem exists_scaled?_zero (power : Int) : ∃ y, scaled? 0 power = some y := by
  have isZero : ofNat? 0 = some .zero := by
    have nearest := isNearest_ofNat? 0
    rw [Nat.cast_zero, ← @size_of_zero .zero rfl] at nearest
    exact nearest.eq_some_of_size rfl
  cases power with
  | ofNat exponent =>
      rw [Int.ofNat_eq_natCast, scaled?_up isZero]
      by_cases inRange : exponent ≤ greatestPower
      · obtain ⟨y, isPower, -⟩ := exists_powerOfTen? inRange
        have product : Binary64.zero.size * y.size ≤ Binary64.zero.size := by
          rw [size_of_zero rfl, zero_mul]
        obtain ⟨z, isResult, -⟩ := (isNearest_times? Binary64.zero y).exists_of_le
          Binary64.zero.finite Binary64.zero.rounds_size product
        exact ⟨z, by rw [scaleUp_eq inRange, isPower, Option.bind_some, isResult]⟩
      · exact ⟨.zero, by rw [scaleUp, if_neg inRange]; rfl⟩
  | negSucc before =>
      rw [Int.negSucc_eq, ← Nat.cast_one, ← Nat.cast_add, scaled?_down isZero (Nat.succ_pos before)]
      exact exists_scaleDown .zero (before + 1)

/-- Digits that fit the significand give a double if they are well below the greatest
double with their power of ten. -/
theorem exists_scaled? {significand : Nat} {power : Int} (fits : significand ≤ significandLimit)
    (bounded : significand * (10 : ℚ) ^ power ≤ 18014398509481975 * 2 ^ 970) :
    ∃ y, scaled? significand power = some y := by
  rcases Nat.eq_zero_or_pos significand with rfl | nonzero
  · exact exists_scaled?_zero power
  obtain ⟨x, isSignificand, rounds⟩ := exists_ofNat? fits
  cases power with
  | ofNat exponent =>
      rw [Int.ofNat_eq_natCast, zpow_natCast] at bounded
      have inRange : exponent ≤ greatestPower := by
        by_contra many
        have below : 18014398509481975 * 2 ^ 970 < 2 ^ 1024 :=
          mul_two_pow_lt (by decide : 18014398509481975 < 2 ^ 54) (by decide)
        have beyond : 18014398509481975 * 2 ^ 970 < 10 ^ exponent :=
          (below.trans_le two_pow_le_ten_pow).trans_le
            (Nat.pow_le_pow_right (by decide) (Nat.lt_of_not_le many))
        have least : (10 : ℚ) ^ exponent ≤ significand * (10 : ℚ) ^ exponent :=
          le_mul_of_one_le_left (pow_pos (by norm_num) _).le (Nat.one_le_cast.mpr nonzero)
        have cast := (Nat.cast_lt (α := ℚ)).mpr beyond
        rw [Nat.cast_mul, Nat.cast_pow, Nat.cast_pow, Nat.cast_ofNat, Nat.cast_ofNat,
          Nat.cast_ofNat] at cast
        exact absurd (least.trans bounded) (not_le.mpr cast)
      obtain ⟨y, isPower, roundsPower⟩ := exists_powerOfTen? inRange
      obtain ⟨z, isResult⟩ := exists_times? nonzero rounds roundsPower bounded
      refine ⟨z, ?_⟩
      rw [Int.ofNat_eq_natCast, scaled?_up isSignificand, scaleUp_eq inRange, isPower,
        Option.bind_some, isResult]
  | negSucc before =>
      obtain ⟨y, isResult⟩ := exists_scaleDown x (before + 1)
      refine ⟨y, ?_⟩
      rw [Int.negSucc_eq, ← Nat.cast_one, ← Nat.cast_add,
        scaled?_down isSignificand (Nat.succ_pos before), isResult]

end Provenance.Json.Numeral
