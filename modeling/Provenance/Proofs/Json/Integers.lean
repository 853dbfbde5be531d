import Mathlib
import Provenance.Proofs.Json.Accuracy

/-!
# Integers of any size

An integer that fits sixty-four bits is read as itself, but for a negative zero.  Any other
integer is read as a double.  So two integers that are read as one number are read as one
double (`number_eq_iff`).  That happens only beyond sixty-four bits, and there
only to integers that are close (`number_ne_of_fits`, `number_ne_of_apart`).
-/

namespace Provenance.Json

open Binary64

namespace Numeral

/-- The numeral has neither a point nor an exponent. -/
structure IsInteger (numeral : Numeral) : Prop where
  noFraction : numeral.fraction = []
  noExponent : numeral.exponent = none

/-- The integer that the digits in front of the point spell. -/
def integer (numeral : Numeral) : ℤ :=
  if numeral.negative then -(digitsOnto 0 numeral.whole : ℤ) else digitsOnto 0 numeral.whole

/-- The integer has sixty-four bits at most, with a sign or without one. -/
def FitsWord (numeral : Numeral) : Prop :=
  -0x8000000000000000 ≤ numeral.integer ∧ numeral.integer < 0x10000000000000000

theorem fitsWord_of_integer_eq_zero {numeral : Numeral} (isZero : numeral.integer = 0) :
    numeral.FitsWord := by
  rw [FitsWord, isZero]
  decide

theorem natAbs_integer (numeral : Numeral) :
    numeral.integer.natAbs = digitsOnto 0 numeral.whole := by
  rw [integer]
  split
  · rw [Int.natAbs_neg, Int.natAbs_natCast]
  · exact Int.natAbs_natCast _

/-- Integers of one sign are as far apart as without it. -/
theorem abs_sub_integer {first second : Numeral} (sameSign : first.negative = second.negative) :
    |first.integer - second.integer| = |(|first.integer| - |second.integer|)| := by
  rw [Int.abs_eq_natAbs first.integer, Int.abs_eq_natAbs second.integer, natAbs_integer,
    natAbs_integer, integer, integer, sameSign]
  split
  · rw [neg_sub_neg, abs_sub_comm]
  · rfl

namespace IsInteger

variable {numeral : Numeral} (isInteger : numeral.IsInteger)

include isInteger

theorem decimal_eq : numeral.decimal = ⟨numeral.integer.natAbs, 0⟩ := by
  rw [decimal, natAbs_integer, isInteger.noFraction, isInteger.noExponent, List.append_nil]
  rfl

/-- If all digits are taken, the significand is the integer without its sign. -/
theorem value_of_wholeFits (fits : numeral.significand.wholeFits = true) :
    numeral.significand.value = numeral.integer.natAbs := by
  obtain ⟨taken⟩ := numeral.nonempty_taken
  have noneDropped : taken.dropped = [] := by
    rwa [taken.wholeFits, List.isEmpty_iff] at fits
  have noBack : taken.back = [] := by
    have isFraction := taken.isFraction
    rw [isInteger.noFraction, List.append_eq_nil_iff] at isFraction
    exact isFraction.1
  have isWhole := taken.isWhole
  rw [noneDropped, List.append_nil] at isWhole
  rw [taken.isValue, noBack, isWhole, natAbs_integer]
  rfl

end IsInteger

/-- A significand that needs no double stands for itself with its sign. -/
theorem integer?_eq_some {negative : Bool} {significand : Nat} {value : ℤ}
    {inRange : -0x8000000000000000 ≤ value ∧ value < 0x10000000000000000}
    (isInteger : integer? negative significand = some (.integer value inRange)) :
    value = if negative then -(significand : ℤ) else significand := by
  rw [integer?] at isInteger
  split at isInteger
  · rename_i isNegative
    split at isInteger
    · rw [if_pos isNegative]
      exact (Number.integer.inj (Option.some.inj isInteger)).symm
    · contradiction
  · rename_i notNegative
    split at isInteger
    · rw [if_neg notNegative]
      exact (Number.integer.inj (Option.some.inj isInteger)).symm
    · contradiction

section Read

variable {numeral : Numeral}

/-- An integer that is read as an integer is read as itself. -/
theorem IsInteger.eq_of_number (isInteger : numeral.IsInteger) {value : ℤ}
    {inRange : -0x8000000000000000 ≤ value ∧ value < 0x10000000000000000}
    (isNumber : numeral.number = .ok (.integer value inRange)) : value = numeral.integer := by
  rw [number] at isNumber
  split at isNumber
  · rename_i found isFound
    obtain rfl := Except.ok.inj isNumber
    split at isFound
    · rename_i fits
      rw [Bool.and_eq_true, Bool.and_eq_true] at fits
      rw [integer?_eq_some isFound, isInteger.value_of_wholeFits fits.1.1, natAbs_integer]
      rfl
    · contradiction
  · cases isDouble : numeral.double with
    | error range =>
        rw [isDouble] at isNumber
        contradiction
    | ok found =>
        rw [isDouble] at isNumber
        exact Number.noConfusion (Except.ok.inj isNumber)

/-- The integers of sixty-four bits, with one sign or without, are read as integers, but for
the negative zero. -/
theorem IsInteger.exists_number (isInteger : numeral.IsInteger) (fits : numeral.FitsWord)
    (signed : numeral.negative = true → numeral.integer ≠ 0) :
    numeral.number = .ok (.integer numeral.integer fits) := by
  have least := fits.1
  have most := fits.2
  have isCoefficient : numeral.decimal.coefficient = numeral.integer.natAbs := by
    rw [isInteger.decimal_eq]
  have isSignificand := @significand_eq numeral (by rw [isCoefficient, significandLimit]; omega)
  rw [isCoefficient] at isSignificand
  have isRead : integer? numeral.negative numeral.integer.natAbs =
      some (.integer numeral.integer fits) := by
    rw [natAbs_integer, integer?]
    cases negative : numeral.negative with
    | true =>
        have isInteger : numeral.integer = -(digitsOnto 0 numeral.whole : ℤ) := by
          rw [integer, negative, if_pos rfl]
        have notZero := signed negative
        have inRange : 0 < digitsOnto 0 numeral.whole ∧
            digitsOnto 0 numeral.whole ≤ 0x8000000000000000 := by
          omega
        rw [if_pos rfl, dif_pos inRange]
        simp only [isInteger]
    | false =>
        have isInteger : numeral.integer = digitsOnto 0 numeral.whole := by
          rw [integer, negative, if_neg Bool.false_ne_true]
        have inRange : digitsOnto 0 numeral.whole < 0x10000000000000000 := by
          omega
        rw [if_neg Bool.false_ne_true, dif_pos inRange]
        simp only [isInteger, Number.ofNat]
  have isTried : (numeral.significand.wholeFits && numeral.fraction.isEmpty &&
      numeral.exponent.isNone) = true := by
    rw [isSignificand, isInteger.noFraction, isInteger.noExponent]
    rfl
  rw [number, if_pos isTried, isSignificand, isRead]

end Read

/-- A `10^18`th part is less than a step. -/
theorem near_of_abs_sub {x y : ℚ} (apart : |x - y| * 10 ^ 18 ≤ y) : Near 1 x y := by
  have bounds := abs_le.mp (le_div_iff₀ (by norm_num) |>.mpr apart)
  have nonneg : 0 ≤ y := (by positivity : 0 ≤ |x - y| * 10 ^ 18).trans apart
  constructor
  · rw [pow_one, step]
    linarith only [bounds.2, nonneg]
  · rw [pow_one, step]
    linarith only [bounds.1, nonneg]

/-- A significand is zero only if all digits are. -/
theorem significand_value_eq_zero_iff {numeral : Numeral} (areDigits : numeral.AreDigits) :
    numeral.significand.value = 0 ↔ numeral.decimal.coefficient = 0 := by
  rcases significand_cases areDigits with ⟨unread, -, ⟨rfl, isValue⟩ | ⟨leading, left, truncated⟩⟩
  · rw [isValue]
  · have full := truncated.full
    rw [significandLimit] at full
    have leads : 0 < leading * 10 ^ left :=
      Nat.mul_pos (by omega) (Nat.pow_pos (by decide))
    have notZero : 0 < numeral.significand.value :=
      Nat.pos_of_mul_pos_right (leads.trans_le truncated.le_value)
    have notZeroToo := leads.trans_le truncated.le_digits
    exact ⟨fun isZero => absurd isZero notZero.ne', fun isZero => absurd isZero notZeroToo.ne'⟩

section Double

variable {numeral : Numeral} (isInteger : numeral.IsInteger) (areDigits : numeral.AreDigits)
  {x : Binary64} (isDouble : numeral.double = .ok x)

namespace IsInteger

include isInteger areDigits isDouble

/-- The significand of an integer is only scaled up, by the digits left out. -/
theorem exists_scaled? :
    ∃ (unread : Nat) (y : Binary64), scaled? numeral.significand.value unread = some y ∧
      x = y.withSign numeral.negative := by
  obtain ⟨y, isScaled, isSigned⟩ := exists_scaled?_of_double isDouble fun _ => isInteger.noExponent
  rcases significand_cases areDigits with ⟨unread, isPower, -⟩
  rw [isPower, isInteger.noFraction, isInteger.noExponent, List.length_nil, Nat.cast_zero,
    sub_zero, Option.map_none, Option.getD_none, add_zero] at isScaled
  exact ⟨unread, y, isScaled, isSigned⟩

theorem negative_eq : x.negative = numeral.negative := by
  obtain ⟨unread, y, -, rfl⟩ := isInteger.exists_scaled? areDigits isDouble
  rfl

/-- A zero is read as a zero. -/
theorem magnitude_eq_zero (isZero : numeral.integer = 0) : x.magnitude = 0 := by
  obtain ⟨unread, y, isScaled, rfl⟩ := isInteger.exists_scaled? areDigits isDouble
  have noDigits : numeral.decimal.coefficient = 0 := by
    rw [isInteger.decimal_eq, isZero]
    rfl
  change y.magnitude = 0
  exact magnitude_of_scaled?_zero ((significand_value_eq_zero_iff areDigits).mpr noDigits) isScaled

/-- Any other integer is read as a number that is not less than one, at four steps: three
roundings, and one step for the digits left out. -/
theorem near_size (notZero : numeral.integer ≠ 0) :
    1 ≤ x.size ∧ Near 4 x.size numeral.integer.natAbs := by
  obtain ⟨unread, y, isScaled, rfl⟩ := isInteger.exists_scaled? areDigits isDouble
  have someDigit : numeral.decimal.coefficient ≠ 0 := by
    rw [isInteger.decimal_eq]
    exact Int.natAbs_ne_zero.mpr notZero
  have positive : 0 < numeral.significand.value :=
    Nat.pos_of_ne_zero fun isZero =>
      someDigit ((significand_value_eq_zero_iff areDigits).mp isZero)
  have least : 1 ≤ y.size := one_le_size_of_scaled?_up positive isScaled
  obtain ⟨taken, near, apart⟩ := exists_near_double areDigits isDouble
    ((by norm_num : (1 / 10 : ℚ) ≤ 1).trans least)
  have isValue : numeral.decimal.value = numeral.integer.natAbs := by
    rw [isInteger.decimal_eq, Decimal.value, zpow_zero, mul_one]
  rw [isValue] at apart
  exact ⟨least, near.trans (near_of_abs_sub apart)⟩

end IsInteger

end Double

/-! ## Two integers -/

section Two

variable {first second : Numeral} (isInteger : first.IsInteger) (isIntegerToo : second.IsInteger)
  (different : first.integer ≠ second.integer) {number other : Number}

include isInteger isIntegerToo different

/-- Different integers that are read as one number are read as one double. -/
theorem exists_double_of_number_eq (isFirst : first.number = .ok number)
    (isSecond : second.number = .ok number) :
    ∃ x, number = .double x ∧ first.double = .ok x ∧ second.double = .ok x := by
  cases number with
  | integer value inRange =>
      have isValue := isInteger.eq_of_number isFirst
      exact absurd (isValue.symm.trans (isIntegerToo.eq_of_number isSecond)) different
  | double x => exact ⟨x, rfl, double_of_number isFirst, double_of_number isSecond⟩

/-- Different integers are read as one number only if this is a double. -/
theorem number_eq_iff (isFirst : first.number = .ok number) (isSecond : second.number = .ok other) :
    number = other ↔ ∃ x, first.number = .ok (.double x) ∧ second.number = .ok (.double x) := by
  constructor
  · rintro rfl
    obtain ⟨x, rfl, -⟩ :=
      exists_double_of_number_eq isInteger isIntegerToo different isFirst isSecond
    exact ⟨x, isFirst, isSecond⟩
  · rintro ⟨x, isDouble, isDoubleToo⟩
    rw [isFirst] at isDouble
    rw [isSecond] at isDoubleToo
    exact (Except.ok.inj isDouble).trans (Except.ok.inj isDoubleToo).symm

variable (areDigits : first.AreDigits) (areDigitsToo : second.AreDigits)

include areDigits areDigitsToo

/-- An integer of sixty-four bits is read as no other integer is. -/
theorem number_ne_of_fits (fits : first.FitsWord) (isFirst : first.number = .ok number)
    (isSecond : second.number = .ok other) : number ≠ other := by
  rintro rfl
  obtain ⟨x, rfl, isDouble, isDoubleToo⟩ :=
    exists_double_of_number_eq isInteger isIntegerToo different isFirst isSecond
  by_cases isZero : first.integer = 0
  · -- A negative zero is a double, but of no other integer.
    have noMagnitude := isInteger.magnitude_eq_zero areDigits isDouble isZero
    have notZero : second.integer ≠ 0 := fun isZeroToo => different (isZero.trans isZeroToo.symm)
    have least := (isIntegerToo.near_size areDigitsToo isDoubleToo notZero).1
    exact Nat.not_lt_zero _ (noMagnitude ▸ fractionCount_lt_of_one_le least)
  · have isRead := isInteger.exists_number fits fun _ => isZero
    exact Number.noConfusion (Except.ok.inj (isRead.symm.trans isFirst))

/-- Integers that are further apart than a `2^50`th part of the greater one are read as
different numbers. -/
theorem number_ne_of_apart
    (apart : max |first.integer| |second.integer| < 2 ^ 50 * |first.integer - second.integer|)
    (isFirst : first.number = .ok number) (isSecond : second.number = .ok other) :
    number ≠ other := by
  rintro rfl
  obtain ⟨x, rfl, isDouble, isDoubleToo⟩ :=
    exists_double_of_number_eq isInteger isIntegerToo different isFirst isSecond
  by_cases isZero : first.integer = 0
  · exact number_ne_of_fits isInteger isIntegerToo different areDigits areDigitsToo
      (fitsWord_of_integer_eq_zero isZero) isFirst isSecond rfl
  by_cases isZeroToo : second.integer = 0
  · exact number_ne_of_fits isIntegerToo isInteger different.symm areDigitsToo areDigits
      (fitsWord_of_integer_eq_zero isZeroToo) isSecond isFirst rfl
  have near := (isInteger.near_size areDigits isDouble isZero).2
  have nearToo := (isIntegerToo.near_size areDigitsToo isDoubleToo isZeroToo).2
  have close := (near.symm.trans nearToo).abs_sub_le (Nat.cast_nonneg _) (Nat.cast_nonneg _)
  have sameSign : first.negative = second.negative :=
    (isInteger.negative_eq areDigits isDouble).symm.trans
      (isIntegerToo.negative_eq areDigitsToo isDoubleToo)
  have bounded : |first.integer - second.integer| * 2 ^ 53 ≤
      (4 + 4) * max |first.integer| |second.integer| := by
    rw [Nat.cast_natAbs, Nat.cast_natAbs] at close
    rw [abs_sub_integer sameSign]
    exact_mod_cast close
  omega

end Two

end Numeral
end Provenance.Json
