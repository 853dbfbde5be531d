import Mathlib
import Provenance.Proofs.Binary64.Closeness
import Provenance.Proofs.Json.Scaled
import Provenance.Proofs.Json.Truncation

/-!
# How accurate reading is

Scaling a significand rounds it, rounds the power of ten and rounds the result: at most
three steps, however the double comes out (`near_scaled?`).  Together with what the
significand leaves out of a long numeral this bounds the distance of the double from the
number that is written (`exists_near_double`).
-/

namespace Provenance.Json.Numeral

open Binary64

section Scaled

variable {significand exponent : Nat} {power : ℤ} {x y : Binary64}

theorem near_powerOfTen? (isPower : powerOfTen? exponent = some x) :
    1 ≤ x.size ∧ Near 1 x.size ((10 : ℚ) ^ exponent) := by
  have nearest := isNearest_powerOfTen? exponent
  rw [isPower] at nearest
  have rounds := nearest.of_some.2
  have least : (1 : ℚ) ≤ 10 ^ exponent := one_le_pow₀ (by norm_num)
  exact ⟨one_le_size rounds least, near_of_one_le rounds least⟩

theorem near_ofNat? (positive : 0 < significand) (isSignificand : ofNat? significand = some x) :
    1 ≤ x.size ∧ Near 1 x.size significand := by
  have nearest := isNearest_ofNat? significand
  rw [isSignificand] at nearest
  have rounds := nearest.of_some.2
  have least : (1 : ℚ) ≤ significand := Nat.one_le_cast.mpr positive
  exact ⟨one_le_size rounds least, near_of_one_le rounds least⟩

/-- Multiplied by a power of ten, a number of at least one stays at least one. -/
theorem near_scaleUp (least : 1 ≤ x.size) (isResult : scaleUp x exponent = some y) :
    1 ≤ y.size ∧ Near 2 y.size (x.size * (10 : ℚ) ^ exponent) := by
  have few : exponent ≤ greatestPower := by
    by_contra many
    have nonzero : x.isZero = false :=
      beq_false_of_ne (Nat.ne_of_gt (Nat.zero_lt_of_lt (fractionCount_lt_of_one_le least)))
    rw [scaleUp, if_neg many, nonzero] at isResult
    contradiction
  rw [scaleUp_eq few] at isResult
  obtain ⟨t, isPower, isProduct⟩ := Option.bind_eq_some_iff.mp isResult
  rcases near_powerOfTen? isPower with ⟨leastPower, nearPower⟩
  have nearest := isNearest_times? x t
  rw [isProduct] at nearest
  have leastProduct : 1 ≤ x.size * t.size := one_le_mul_of_one_le_of_one_le least leastPower
  have scaled := (Near.refl x.size).mul nearPower t.size_nonneg (by positivity) x.size_nonneg
    x.size_nonneg
  have rounds := nearest.of_some.2
  exact ⟨one_le_size rounds leastProduct, (near_of_one_le rounds leastProduct).trans scaled⟩

/-- Divided by a power of ten that is a double, a number is as near to the exact quotient as
long as the result is normal. -/
theorem near_scaleDown (few : exponent ≤ greatestPower) (isResult : scaleDown x exponent = some y)
    (normal : fractionCount ≤ y.magnitude) : Near 2 y.size (x.size / (10 : ℚ) ^ exponent) := by
  rw [scaleDown_eq few] at isResult
  obtain ⟨t, isPower, isQuotient⟩ := Option.bind_eq_some_iff.mp isResult
  rcases near_powerOfTen? isPower with ⟨leastPower, nearPower⟩
  have nearest := isNearest_over? x (units_pos_of_one_le leastPower)
  rw [isQuotient] at nearest
  have scaled := (Near.refl x.size).div nearPower (zero_lt_one.trans_le leastPower) (by positivity)
    x.size_nonneg x.size_nonneg
  exact (near_of_rounds nearest.of_some.2 normal).trans scaled

theorem magnitude_le_of_over?
    (isResult : (powerOfTen? exponent).bind x.over? = some y) : y.magnitude ≤ x.magnitude := by
  obtain ⟨t, isPower, isQuotient⟩ := Option.bind_eq_some_iff.mp isResult
  have least := (near_powerOfTen? isPower).1
  have nearest := isNearest_over? x (units_pos_of_one_le least)
  rw [isQuotient] at nearest
  exact nearest.of_some.2.mono x.rounds_size (halvesOf_mono (div_le_self x.size_nonneg least))

/-- Dividing in two steps, or by more, leaves no more than the first step. -/
theorem exists_reduced (many : greatestPower < exponent)
    (isResult : scaleDown x exponent = some y) :
    ∃ reduced, scaleDown x greatestPower = some reduced ∧ y.magnitude ≤ reduced.magnitude := by
  by_cases twice : exponent ≤ 2 * greatestPower
  · rw [scaleDown_eq_twice (Nat.not_le.mpr many) twice] at isResult
    obtain ⟨reduced, isReduced, isQuotient⟩ := Option.bind_eq_some_iff.mp isResult
    exact ⟨reduced, (scaleDown_eq le_rfl).trans isReduced, magnitude_le_of_over? isQuotient⟩
  · rw [scaleDown, if_neg (Nat.not_le.mpr many), if_neg twice] at isResult
    obtain rfl := Option.some.inj isResult
    obtain ⟨reduced, isReduced⟩ := exists_scaleDown x greatestPower
    exact ⟨reduced, isReduced, Nat.zero_le _⟩

theorem magnitude_scaleDown_le (isResult : scaleDown x exponent = some y) :
    y.magnitude ≤ x.magnitude := by
  rcases Nat.lt_or_ge greatestPower exponent with many | few
  · obtain ⟨reduced, isReduced, order⟩ := exists_reduced many isResult
    rw [scaleDown_eq le_rfl] at isReduced
    exact order.trans (magnitude_le_of_over? isReduced)
  · rw [scaleDown_eq few] at isResult
    exact magnitude_le_of_over? isResult

theorem magnitude_eq_zero_of_rounds {magnitude : Nat} (rounds : Rounds magnitude (halvesOf 0)) :
    magnitude = 0 := by
  apply rounds.unique
  rw [halvesOf, zero_mul]
  exact_mod_cast rounds_units 0

/-- A significand of zero stays zero. -/
theorem magnitude_of_scaled?_zero (isZero : significand = 0)
    (isScaled : scaled? significand power = some y) : y.magnitude = 0 := by
  obtain ⟨x, isSignificand, -⟩ := Option.bind_eq_some_iff.mp isScaled
  have nearest := isNearest_ofNat? significand
  rw [isSignificand, isZero, Nat.cast_zero] at nearest
  have xZero := magnitude_eq_zero_of_rounds nearest.of_some.2
  cases power with
  | ofNat exponent =>
      rw [Int.ofNat_eq_natCast, scaled?_up isSignificand, scaleUp] at isScaled
      split at isScaled
      · obtain ⟨t, -, isProduct⟩ := Option.bind_eq_some_iff.mp isScaled
        have nearest := isNearest_times? x t
        rw [isProduct, size_of_zero xZero, zero_mul] at nearest
        exact magnitude_eq_zero_of_rounds nearest.of_some.2
      · split at isScaled
        · exact Option.some.inj isScaled ▸ xZero
        · contradiction
  | negSucc before =>
      rw [Int.negSucc_eq, ← Nat.cast_one, ← Nat.cast_add,
        scaled?_down isSignificand (Nat.succ_pos before)] at isScaled
      exact Nat.eq_zero_of_le_zero ((magnitude_scaleDown_le isScaled).trans xZero.le)

/-- A normal result is at three steps from the significand times the power of ten, if it was
not divided twice. -/
theorem near_scaled?_of_normal (positive : 0 < significand)
    (inRange : -(greatestPower : ℤ) ≤ power) (isScaled : scaled? significand power = some y)
    (normal : fractionCount ≤ y.magnitude) : Near 3 y.size (significand * (10 : ℚ) ^ power) := by
  obtain ⟨x, isSignificand, -⟩ := Option.bind_eq_some_iff.mp isScaled
  rcases near_ofNat? positive isSignificand with ⟨least, nearSignificand⟩
  cases power with
  | ofNat exponent =>
      rw [Int.ofNat_eq_natCast, scaled?_up isSignificand] at isScaled
      have scaled := nearSignificand.mul (Near.refl ((10 : ℚ) ^ exponent)) (by positivity)
        (by positivity) x.size_nonneg (by positivity)
      rw [Int.ofNat_eq_natCast, zpow_natCast]
      exact (near_scaleUp least isScaled).2.trans scaled
  | negSucc before =>
      have few : before + 1 ≤ greatestPower := by omega
      rw [Int.negSucc_eq, ← Nat.cast_one, ← Nat.cast_add] at isScaled ⊢
      rw [scaled?_down isSignificand (Nat.succ_pos before)] at isScaled
      have scaled := nearSignificand.div (Near.refl ((10 : ℚ) ^ (before + 1))) (by positivity)
        (by positivity) x.size_nonneg (by positivity)
      rw [zpow_neg, zpow_natCast, ← div_eq_mul_inv]
      exact (near_scaleDown few isScaled normal).trans scaled

/-- A double that is not small is normal. -/
theorem normal_of_notSmall (notSmall : 1 / 10 ≤ x.size) : fractionCount ≤ x.magnitude := by
  have units : unitsPerOne ≤ 10 * x.units := by
    have scaled := mul_le_mul_of_nonneg_right notSmall (Nat.cast_nonneg (α := ℚ) unitsPerOne)
    rw [size_mul_unitsPerOne, one_div_mul_eq_div, div_le_iff₀ (by norm_num), mul_comm] at scaled
    exact_mod_cast scaled
  have small := unitsOf_fractionCount_lt
  have order : unitsOf fractionCount < x.units := by omega
  exact (unitsOf_strictMono.lt_iff_lt.mp order).le

/-- Scaled up, a significand stays at least one. -/
theorem one_le_size_of_scaled?_up (positive : 0 < significand)
    (isScaled : scaled? significand exponent = some y) : 1 ≤ y.size := by
  obtain ⟨x, isSignificand, -⟩ := Option.bind_eq_some_iff.mp isScaled
  rw [scaled?_up isSignificand] at isScaled
  exact (near_scaleUp (near_ofNat? positive isSignificand).1 isScaled).1

/-- A result that is not small is not divided twice, so it is at three steps. -/
theorem near_scaled? (fits : significand ≤ significandLimit)
    (isScaled : scaled? significand power = some y) (notSmall : 1 / 10 ≤ y.size) :
    Near 3 y.size (significand * (10 : ℚ) ^ power) := by
  have normal := normal_of_notSmall notSmall
  have positive : 0 < significand := by
    rcases Nat.eq_zero_or_pos significand with isZero | positive
    · rw [magnitude_of_scaled?_zero isZero isScaled] at normal
      exact absurd normal (by decide)
    · exact positive
  rcases le_or_gt (-(greatestPower : ℤ)) power with inRange | beyond
  · exact near_scaled?_of_normal positive inRange isScaled normal
  · exfalso
    obtain ⟨x, isSignificand, -⟩ := Option.bind_eq_some_iff.mp isScaled
    obtain ⟨exponent, rfl⟩ : ∃ exponent : ℕ, power = -(exponent : ℤ) := ⟨power.natAbs, by omega⟩
    rw [scaled?_down isSignificand (by omega)] at isScaled
    obtain ⟨reduced, isReduced, order⟩ := exists_reduced (by omega) isScaled
    rw [← scaled?_down isSignificand (by decide)] at isReduced
    have large := notSmall.trans (size_mono order)
    have near := near_scaled?_of_normal positive le_rfl isReduced (normal_of_notSmall large)
    -- What is left of a significand after one division is far too small.
    have tiny : (10 : ℚ) ^ (-(greatestPower : ℤ)) ≤ 10 ^ (-22 : ℤ) :=
      zpow_le_zpow_right₀ (by norm_num) (by decide)
    have most : (significand : ℚ) ≤ significandLimit := Nat.cast_le.mpr fits
    have bound := near.left.trans (mul_le_mul most tiny (by positivity) (by positivity))
    have least := mul_le_mul_of_nonneg_right large (pow_pos step_pos 3).le
    have impossible := least.trans bound
    norm_num [step, significandLimit] at impossible

end Scaled

/-! ## Numerals -/

variable {numeral : Numeral} {x : Binary64}

/-- The digits left out change a numeral at most by a `10^18`th part. -/
theorem Truncated.abs_sub_le {unread leading left : Nat}
    (truncated : numeral.Truncated unread leading left) :
    |((numeral.significand.value * 10 ^ unread : Nat) : ℚ) - numeral.decimal.coefficient| *
      10 ^ 18 ≤ numeral.decimal.coefficient := by
  have manyDigits : 10 ^ 18 ≤ leading := by
    have full := truncated.full
    rw [significandLimit] at full
    omega
  have apart : |((numeral.significand.value * 10 ^ unread : Nat) : ℚ) -
      numeral.decimal.coefficient| ≤ (10 ^ left : Nat) := by
    have lower : numeral.decimal.coefficient ≤
        numeral.significand.value * 10 ^ unread + 10 ^ left := by
      have least := truncated.le_value
      have most := truncated.digits_lt
      rw [Nat.add_mul, Nat.one_mul] at most
      omega
    have upper : numeral.significand.value * 10 ^ unread ≤
        numeral.decimal.coefficient + 10 ^ left := by
      have least := truncated.le_digits
      have most := truncated.value_lt
      rw [Nat.add_mul, Nat.one_mul] at most
      omega
    rw [abs_le, neg_le_sub_iff_le_add, sub_le_iff_le_add']
    exact ⟨by exact_mod_cast lower, by exact_mod_cast upper⟩
  have leads : 10 ^ left * 10 ^ 18 ≤ numeral.decimal.coefficient := by
    rw [Nat.mul_comm]
    exact (Nat.mul_le_mul_right _ manyDigits).trans truncated.le_digits
  calc
    _ ≤ ((10 ^ left : Nat) : ℚ) * 10 ^ 18 := mul_le_mul_of_nonneg_right apart (by norm_num)
    _ ≤ numeral.decimal.coefficient := by exact_mod_cast leads

/-- The point and the digits left out count towards the power of ten. -/
theorem power_add_exponent {unread : Nat}
    (isPower : numeral.significand.power = unread - (numeral.fraction.length : ℤ)) :
    numeral.significand.power + (numeral.exponent.map Exponent.value).getD 0 =
      unread + numeral.decimal.scale := by
  rw [isPower, decimal]
  ring

/-- An exponent out of reach decides alone: nothing is left of the significand or it gets
too large, unless it is zero. -/
theorem exists_double_eq_of_far {exponent : Exponent}
    (isExponent : numeral.exponent = some exponent)
    (far : exponentLimit < digitsOnto 0 exponent.digits) :
    ∃ unread, numeral.double =
      if numeral.significand.value ≠ 0 ∧ exponent.negative = false then .error ⟨unread⟩
      else .ok (Binary64.zero.withSign numeral.negative) := by
  -- The cases are split before the rest is reduced, or scaling would be evaluated.
  unfold double
  split
  · rename_i noExponent
    rw [isExponent] at noExponent
    contradiction
  · rename_i found isFound
    obtain rfl := Option.some.inj (isExponent.symm.trans isFound)
    rcases absorb_cases exponentLimit 0 exponent.digits with ⟨used, isSplit, isTaken, bounded, -⟩
    split
    · rename_i size isSize
      rw [isSize, List.append_nil] at isSplit
      rw [isSize] at isTaken bounded
      rw [isSplit] at isTaken
      exact absurd (isTaken.symm.le.trans (bounded (Nat.zero_le _))) (Nat.not_le.mpr far)
    · exact ⟨_, rfl⟩

theorem exists_scaled?_of_inReach (inReach : numeral.InReach) (isDouble : numeral.double = .ok x) :
    ∃ y, scaled? numeral.significand.value (numeral.significand.power +
        (numeral.exponent.map Exponent.value).getD 0) = some y ∧
      x = y.withSign numeral.negative := by
  rw [double_of_inReach inReach] at isDouble
  generalize isScaled : scaled? _ _ = result at isDouble ⊢
  cases result with
  | none => contradiction
  | some y => exact ⟨y, rfl, (Except.ok.inj isDouble).symm⟩

/-- A double comes from scaling the significand by all powers of ten that the numeral shows,
unless it is the zero that a numeral with an exponent out of reach is read as. -/
theorem exists_scaled?_of_double (isDouble : numeral.double = .ok x)
    (reached : x.magnitude = 0 → numeral.exponent = none) :
    ∃ y, scaled? numeral.significand.value (numeral.significand.power +
        (numeral.exponent.map Exponent.value).getD 0) = some y ∧
      x = y.withSign numeral.negative := by
  by_cases inReach : numeral.InReach
  · exact exists_scaled?_of_inReach inReach isDouble
  · simp only [InReach, not_forall, Nat.not_le] at inReach
    obtain ⟨exponent, isExponent, far⟩ := inReach
    obtain ⟨unread, isResult⟩ := exists_double_eq_of_far isExponent far
    rw [isResult] at isDouble
    split at isDouble
    · contradiction
    · obtain rfl := Except.ok.inj isDouble
      have noExponent := reached rfl
      rw [isExponent] at noExponent
      contradiction

/-- The number that is scaled differs from what is written at most by a `10^18`th part. -/
theorem abs_scaled_sub_le (areDigits : numeral.AreDigits) :
    |numeral.significand.value * (10 : ℚ) ^ (numeral.significand.power +
        (numeral.exponent.map Exponent.value).getD 0) - numeral.decimal.value| * 10 ^ 18 ≤
      numeral.decimal.value := by
  rcases significand_cases areDigits with ⟨unread, isPower, cases⟩
  have apart : |((numeral.significand.value * 10 ^ unread : Nat) : ℚ) -
      numeral.decimal.coefficient| * 10 ^ 18 ≤ numeral.decimal.coefficient := by
    rcases cases with ⟨rfl, isValue⟩ | ⟨leading, left, truncated⟩
    · rw [isValue, pow_zero, Nat.mul_one, sub_self, abs_zero, zero_mul]
      exact Nat.cast_nonneg _
    · exact truncated.abs_sub_le
  have positive : (0 : ℚ) < 10 ^ numeral.decimal.scale := zpow_pos (by norm_num) _
  have isTaken : (numeral.significand.value : ℚ) * 10 ^ (unread + numeral.decimal.scale) =
      ((numeral.significand.value * 10 ^ unread : Nat) : ℚ) * 10 ^ numeral.decimal.scale := by
    rw [zpow_add₀ (by norm_num), zpow_natCast]
    push_cast
    ring
  rw [power_add_exponent isPower, isTaken, Decimal.value, ← sub_mul, abs_mul,
    abs_of_pos positive, mul_right_comm]
  exact mul_le_mul_of_nonneg_right apart positive.le

/-- A double that is not small is at three steps from a number that differs from what is
written at most by a `10^18`th part. -/
theorem exists_near_double (areDigits : numeral.AreDigits) (isDouble : numeral.double = .ok x)
    (notSmall : 1 / 10 ≤ x.size) :
    ∃ taken, Near 3 x.size taken ∧
      |taken - numeral.decimal.value| * 10 ^ 18 ≤ numeral.decimal.value := by
  have normal := normal_of_notSmall notSmall
  have notZero : x.magnitude ≠ 0 := Nat.ne_of_gt (Nat.lt_of_lt_of_le (by decide) normal)
  obtain ⟨y, isScaled, rfl⟩ := exists_scaled?_of_double isDouble (absurd · notZero)
  have near := near_scaled? numeral.significand_value_le isScaled notSmall
  exact ⟨_, near, abs_scaled_sub_le areDigits⟩

/-- The number that a numeral denotes. -/
def value (numeral : Numeral) : ℚ :=
  if numeral.negative then -numeral.decimal.value else numeral.decimal.value

theorem decimal_value_nonneg (numeral : Numeral) : 0 ≤ numeral.decimal.value :=
  mul_nonneg (Nat.cast_nonneg _) (zpow_nonneg (by norm_num) _)

theorem integer?_ne_double (negative : Bool) (significand : Nat) (x : Binary64) :
    integer? negative significand ≠ some (.double x) := by
  rw [integer?]
  split
  · split
    · exact fun isDouble => Number.noConfusion (Option.some.inj isDouble)
    · exact (Option.some_ne_none _).symm
  · split
    · exact fun isDouble => Number.noConfusion (Option.some.inj isDouble)
    · exact (Option.some_ne_none _).symm

/-- A double that is read is the double of the numeral. -/
theorem double_of_number {x : Binary64} (isNumber : numeral.number = .ok (.double x)) :
    numeral.double = .ok x := by
  rw [number] at isNumber
  split at isNumber
  · rename_i number isInteger
    obtain rfl := Except.ok.inj isNumber
    split at isInteger
    · exact absurd isInteger (integer?_ne_double _ _ _)
    · contradiction
  · cases isDouble : numeral.double with
    | error range =>
        rw [isDouble] at isNumber
        contradiction
    | ok found =>
        rw [isDouble] at isNumber
        rw [Number.double.inj (Except.ok.inj isNumber)]

end Provenance.Json.Numeral

namespace Provenance.Json.NumeralSpelling

/-- The number that a literal denotes. -/
def value (literal : NumeralSpelling) : ℚ :=
  literal.numeral.value

theorem areDigits (literal : NumeralSpelling) : literal.numeral.AreDigits := by
  intro digit isDigit
  rw [numeral, ← List.map_append] at isDigit
  obtain ⟨spelled, -, rfl⟩ := List.mem_map.mp isDigit
  exact Nat.le_of_lt_succ spelled.isLt

theorem length_le_length_bytes (literal : NumeralSpelling) :
    literal.numeral.whole.length + literal.numeral.fraction.length ≤ literal.bytes.length := by
  have unsigned : literal.whole.digits.length + literal.fraction.length ≤
      literal.unsignedBytes.length := by
    rw [unsignedBytes]
    split
    · rename_i noFraction
      simp [noFraction]
    · simp only [List.length_append, List.length_cons, List.length_map]
      omega
  rw [bytes, numeral, List.length_map, List.length_map]
  split
  · exact unsigned.trans (Nat.le_succ _)
  · exact unsigned

end Provenance.Json.NumeralSpelling
