import Mathlib
import Provenance.Proofs.Json.Acceptance
import Provenance.Proofs.Json.Integers

/-!
# Which numbers convert

A number of a text converts if its double is finite, integers of sixty-four bits included
(`Numeral.exists_number_iff`).  Three roundings and the digits left out of the significand
shift the end of the range by less than `2^974`.  So a literal whose value is at least that
far from `2^1024` converts exactly if its absolute value is below
(`NumeralSpelling.converts_iff`).

An exponent of `2^31` or more is not read.  It decides alone
(`NumeralSpelling.converts_iff_of_far`), and in agreement with the value unless the literal
itself is about as long.
-/

namespace Provenance.Json

open Binary64

namespace Numeral

/-- A significand that a power of ten makes greater is scaled up, so it stays at least one. -/
theorem one_le_size_of_large {significand : Nat} {power : ℤ} {y : Binary64}
    (large : significand < significand * (10 : ℚ) ^ power)
    (isScaled : scaled? significand power = some y) : 1 ≤ y.size := by
  have positive : 0 < significand := by
    rcases Nat.eq_zero_or_pos significand with rfl | positive
    · rw [Nat.cast_zero, zero_mul] at large
      exact absurd large (lt_irrefl 0)
    · exact positive
  have up : 0 ≤ power := by
    by_contra down
    have most : (10 : ℚ) ^ power ≤ 1 := zpow_le_one_of_nonpos₀ (by norm_num) (by omega)
    exact absurd large (not_lt.mpr (mul_le_of_le_one_right (Nat.cast_nonneg _) most))
  obtain ⟨exponent, rfl⟩ := Int.eq_ofNat_of_zero_le up
  exact one_le_size_of_scaled?_up positive isScaled

theorem significand_value_cast_le (numeral : Numeral) :
    (numeral.significand.value : ℚ) ≤ 2 ^ 64 := by
  have fits := numeral.significand_value_le.trans (by decide : significandLimit ≤ 2 ^ 64)
  exact_mod_cast fits

section Range

variable {numeral : Numeral} (areDigits : numeral.AreDigits) {x : Binary64}

include areDigits

/-- Well below `2^1024` three roundings do not pass the greatest double. -/
theorem exists_double_of_le (inReach : numeral.InReach)
    (bounded : numeral.decimal.value ≤ 2 ^ 1024 - 2 ^ 974) : ∃ x, numeral.double = .ok x := by
  have apart := abs_scaled_sub_le areDigits
  generalize isPower : numeral.significand.power + _ = power at apart
  have scaledBound : numeral.significand.value * (10 : ℚ) ^ power ≤
      18014398509481975 * 2 ^ 970 := by
    have most := (abs_le.mp (le_div_iff₀ (by norm_num) |>.mpr apart)).2
    have positive : (0 : ℚ) < 2 ^ 970 := pow_pos two_pos _
    rw [pow_add 2 970 54, pow_add 2 970 4] at bounded
    generalize (2 : ℚ) ^ 970 = unit at bounded positive ⊢
    linarith only [most, bounded, positive]
  obtain ⟨y, isScaled⟩ := exists_scaled? numeral.significand_value_le scaledBound
  rw [← isPower] at isScaled
  exact ⟨_, double_of_scaled? inReach isScaled⟩

/-- No significand is as large as `2^65`, so one is scaled up for such a number. -/
theorem one_le_size_of_le (inReach : numeral.InReach) (isDouble : numeral.double = .ok x)
    (beyond : 2 ^ 65 ≤ numeral.decimal.value) : 1 ≤ x.size := by
  obtain ⟨y, isScaled, rfl⟩ := exists_scaled?_of_inReach inReach isDouble
  have near := (near_of_abs_sub (abs_scaled_sub_le areDigits)).right
  generalize numeral.significand.power + _ = power at isScaled near
  have fits := numeral.significand_value_cast_le
  have large : numeral.significand.value < numeral.significand.value * (10 : ℚ) ^ power := by
    norm_num [step] at near
    linarith only [near, fits, beyond]
  have least : 1 ≤ y.size := one_le_size_of_large large isScaled
  exact least

/-- Well above `2^1024` too much is left after all steps for a double. -/
theorem double_ne_of_le (inReach : numeral.InReach)
    (beyond : 2 ^ 1024 + 2 ^ 974 ≤ numeral.decimal.value) : numeral.double ≠ .ok x := by
  intro isDouble
  have finite := x.size_lt
  have unitLarge : (2 : ℚ) ^ 65 ≤ 2 ^ 974 := pow_le_pow_right₀ one_le_two (by decide)
  rw [pow_add 2 974 50] at beyond finite
  generalize (2 : ℚ) ^ 974 = unit at beyond finite unitLarge
  have large : 2 ^ 65 ≤ numeral.decimal.value := by
    linarith only [beyond, unitLarge]
  have notSmall := one_le_size_of_le areDigits inReach isDouble large
  obtain ⟨taken, near, apart⟩ := exists_near_double areDigits isDouble
    ((by norm_num : (1 / 10 : ℚ) ≤ 1).trans notSmall)
  have least : numeral.decimal.value * step ^ 4 ≤ x.size :=
    (near.trans (near_of_abs_sub apart)).right
  have lost := mul_le_mul_of_nonneg_left (sub_mul_le_step_pow 4) numeral.decimal_value_nonneg
  norm_num at lost
  linarith only [lost, least, finite, beyond, unitLarge]

/-- A value that is not close to the end of the range tells whether there is a double. -/
theorem exists_double_iff_lt (inReach : numeral.InReach)
    (apart : 2 ^ 974 ≤ |numeral.decimal.value - 2 ^ 1024|) :
    (∃ x, numeral.double = .ok x) ↔ numeral.decimal.value < 2 ^ 1024 := by
  have positive : (0 : ℚ) < 2 ^ 974 := pow_pos two_pos _
  rcases le_abs.mp apart with above | below
  · have beyond := le_sub_iff_add_le'.mp above
    refine iff_of_false ?_ (not_lt.mpr ((le_add_of_nonneg_right positive.le).trans beyond))
    rintro ⟨x, isDouble⟩
    exact double_ne_of_le areDigits inReach beyond isDouble
  · rw [neg_sub] at below
    have bounded := le_sub_comm.mp below
    exact iff_of_true (exists_double_of_le areDigits inReach bounded)
      (bounded.trans_lt (sub_lt_self _ positive))

/-- An integer that needs no double has one all the same. -/
theorem exists_double_of_wholeFits (isInteger : numeral.IsInteger)
    (whole : numeral.significand.wholeFits = true) : ∃ x, numeral.double = .ok x := by
  have inReach : numeral.InReach := by
    intro exponent isExponent
    rw [isInteger.noExponent] at isExponent
    contradiction
  have isValue : numeral.decimal.value = numeral.significand.value := by
    rw [isInteger.decimal_eq, Decimal.value, zpow_zero, mul_one,
      isInteger.value_of_wholeFits whole]
  have fits := numeral.significand_value_cast_le
  have unitLarge : (2 : ℚ) ^ 64 ≤ 2 ^ 974 := pow_le_pow_right₀ one_le_two (by decide)
  apply exists_double_of_le areDigits inReach
  rw [isValue, pow_add 2 974 50]
  generalize (2 : ℚ) ^ 974 = unit at unitLarge ⊢
  linarith only [fits, unitLarge]

/-- A numeral is a number if it has a double, even one that is an integer. -/
theorem exists_number_iff :
    (∃ number, numeral.number = .ok number) ↔ ∃ x, numeral.double = .ok x := by
  constructor
  · rintro ⟨found, isNumber⟩
    rw [number] at isNumber
    split at isNumber
    · rename_i isFound
      split at isFound
      · rename_i isWhole
        simp only [Bool.and_eq_true, List.isEmpty_iff, Option.isNone_iff_eq_none] at isWhole
        rcases isWhole with ⟨⟨whole, noFraction⟩, noExponent⟩
        exact exists_double_of_wholeFits areDigits ⟨noFraction, noExponent⟩ whole
      · contradiction
    · cases isDouble : numeral.double with
      | error range =>
          rw [isDouble] at isNumber
          contradiction
      | ok x => exact ⟨x, rfl⟩
  · rintro ⟨x, isDouble⟩
    rw [number]
    split
    · exact ⟨_, rfl⟩
    · exact ⟨.double x, by rw [isDouble]; rfl⟩

end Range

section Far

variable {numeral : Numeral} {exponent : Exponent} (isExponent : numeral.exponent = some exponent)
  (far : exponentLimit < digitsOnto 0 exponent.digits)

include isExponent far

theorem exists_double_iff_of_far (areDigits : numeral.AreDigits) :
    (∃ x, numeral.double = .ok x) ↔
      exponent.negative = true ∨ numeral.decimal.coefficient = 0 := by
  obtain ⟨unread, isResult⟩ := exists_double_eq_of_far isExponent far
  rw [isResult, ← significand_value_eq_zero_iff areDigits]
  split
  · rename_i refused
    rcases refused with ⟨nonzero, positive⟩
    simp [nonzero, positive]
  · rename_i accepted
    rw [not_and_or, not_not, Bool.not_eq_false] at accepted
    exact iff_of_true ⟨_, rfl⟩ accepted.symm

/-- Divided by so large a power of ten, a number with fewer digits is less than one. -/
theorem value_lt_one_of_far (areDigits : numeral.AreDigits) (negative : exponent.negative = true)
    (short : numeral.whole.length ≤ exponentLimit) : numeral.decimal.value < 1 := by
  have digits := digitsOnto_lt areDigits
  rw [List.length_append] at digits
  have isScale : numeral.decimal.scale =
      -(digitsOnto 0 exponent.digits : ℤ) - numeral.fraction.length := by
    rw [decimal, isExponent, Option.map_some, Option.getD_some, Exponent.value, if_pos negative]
  have order : ((numeral.whole.length + numeral.fraction.length : Nat) : ℤ) +
      numeral.decimal.scale ≤ 0 := by
    omega
  calc
    numeral.decimal.value
      < (10 : ℚ) ^ ((numeral.whole.length + numeral.fraction.length : Nat) : ℤ) *
          10 ^ numeral.decimal.scale := by
        apply mul_lt_mul_of_pos_right _ (zpow_pos (by norm_num) _)
        rw [zpow_natCast]
        exact_mod_cast digits
    _ = (10 : ℚ) ^ (((numeral.whole.length + numeral.fraction.length : Nat) : ℤ) +
          numeral.decimal.scale) := (zpow_add₀ (by norm_num) _ _).symm
    _ ≤ 1 := zpow_le_one_of_nonpos₀ (by norm_num) order

/-- Multiplied by so large a power of ten, a number with fewer digits is beyond all doubles. -/
theorem le_value_of_far (positive : exponent.negative = false)
    (nonzero : numeral.decimal.coefficient ≠ 0)
    (short : numeral.fraction.length + 309 ≤ 2 ^ 31) : 2 ^ 1024 ≤ numeral.decimal.value := by
  have isScale : numeral.decimal.scale =
      (digitsOnto 0 exponent.digits : ℤ) - numeral.fraction.length := by
    rw [decimal, isExponent, Option.map_some, Option.getD_some, Exponent.value, positive,
      if_neg Bool.false_ne_true]
  have order : ((greatestPower + 1 : Nat) : ℤ) ≤ numeral.decimal.scale := by
    rw [exponentLimit] at far
    rw [greatestPower]
    omega
  have least : (1 : ℚ) ≤ numeral.decimal.coefficient :=
    Nat.one_le_cast.mpr (Nat.pos_of_ne_zero nonzero)
  have powers := (Nat.cast_le (α := ℚ)).mpr two_pow_le_ten_pow
  rw [Nat.cast_pow, Nat.cast_pow, Nat.cast_ofNat, Nat.cast_ofNat] at powers
  calc
    (2 : ℚ) ^ 1024 ≤ 10 ^ (greatestPower + 1) := powers
    _ = 10 ^ ((greatestPower + 1 : Nat) : ℤ) := (zpow_natCast _ _).symm
    _ ≤ 10 ^ numeral.decimal.scale := zpow_le_zpow_right₀ (by norm_num) order
    _ ≤ numeral.decimal.value := le_mul_of_one_le_left (zpow_nonneg (by norm_num) _) least

/-- An exponent that is not read decides as the value does. -/
theorem exists_double_iff_lt_of_far (areDigits : numeral.AreDigits)
    (short : numeral.whole.length + numeral.fraction.length + 309 ≤ 2 ^ 31) :
    (∃ x, numeral.double = .ok x) ↔ numeral.decimal.value < 2 ^ 1024 := by
  have one : (1 : ℚ) ≤ 2 ^ 1024 := one_le_pow₀ one_le_two
  rw [exists_double_iff_of_far isExponent far areDigits]
  cases negative : exponent.negative with
  | true =>
      have wholeShort : numeral.whole.length ≤ exponentLimit := by
        rw [exponentLimit]
        omega
      have small := value_lt_one_of_far isExponent far areDigits negative wholeShort
      exact iff_of_true (.inl rfl) (small.trans_le one)
  | false =>
      by_cases isZero : numeral.decimal.coefficient = 0
      · refine iff_of_true (.inr isZero) ?_
        rw [Decimal.value, isZero, Nat.cast_zero, zero_mul]
        exact zero_lt_one.trans_le one
      · have large := le_value_of_far isExponent far negative isZero (by omega)
        exact iff_of_false (by simp [isZero]) (not_lt.mpr large)

end Far

end Numeral

namespace NumeralSpelling

variable {literal : NumeralSpelling}

theorem abs_value (literal : NumeralSpelling) :
    |literal.value| = literal.numeral.decimal.value := by
  rw [value, Numeral.value]
  split
  · rw [abs_neg, abs_of_nonneg literal.numeral.decimal_value_nonneg]
  · exact abs_of_nonneg literal.numeral.decimal_value_nonneg

theorem value_eq_zero_iff : literal.value = 0 ↔ literal.numeral.decimal.coefficient = 0 := by
  have nonzero : (10 : ℚ) ^ literal.numeral.decimal.scale ≠ 0 := zpow_ne_zero _ (by norm_num)
  rw [← abs_eq_zero, abs_value, Decimal.value, mul_eq_zero_iff_right nonzero, Nat.cast_eq_zero]

/-- A literal with an exponent of `2^31` or more converts only if the exponent is negative,
unless it spells zero. -/
theorem converts_iff_of_far {exponent : Exponent}
    (isExponent : literal.numeral.exponent = some exponent)
    (far : 2 ^ 31 ≤ digitsOnto 0 exponent.digits) :
    literal.Converts ↔ exponent.negative = true ∨ literal.value = 0 := by
  rw [Converts, Numeral.exists_number_iff literal.areDigits,
    Numeral.exists_double_iff_of_far isExponent far literal.areDigits, value_eq_zero_iff]

/-- The value of a literal tells whether it converts: the literal has too few digits to make
up for an exponent that is not read, and its value is not close to the end of the range. -/
structure ValueDecides (literal : NumeralSpelling) : Prop where
  short : literal.bytes.length + 309 ≤ 2 ^ 31
  apart : 2 ^ 974 ≤ |(|literal.value| - 2 ^ 1024)|

theorem converts_iff (decides : literal.ValueDecides) :
    literal.Converts ↔ |literal.value| < 2 ^ 1024 := by
  have length := literal.length_le_length_bytes
  rcases decides with ⟨short, apart⟩
  rw [abs_value] at apart ⊢
  rw [Converts, Numeral.exists_number_iff literal.areDigits]
  by_cases inReach : literal.numeral.InReach
  · exact Numeral.exists_double_iff_lt literal.areDigits inReach apart
  · simp only [Numeral.InReach, not_forall, Nat.not_le] at inReach
    obtain ⟨exponent, isExponent, far⟩ := inReach
    exact Numeral.exists_double_iff_lt_of_far isExponent far literal.areDigits (by omega)

end NumeralSpelling

/-- A text with literals whose values decide is the text of a document if it is not nested too
deep and its numbers are in the range of doubles. -/
theorem isDocumentText_bytes_iff_of_decides {text : WholeText}
    (decides : ∀ literal ∈ text.content.numerals, literal.ValueDecides) :
    IsDocumentText text.bytes ↔
      text.content.depth ≤ nestingLimit ∧
        ∀ literal ∈ text.content.numerals, |literal.value| < 2 ^ 1024 := by
  rw [isDocumentText_bytes_iff]
  constructor
  · rintro ⟨shallow, converts⟩
    refine ⟨shallow, ?_⟩
    intro literal within
    exact (NumeralSpelling.converts_iff (decides literal within)).mp (converts literal within)
  · rintro ⟨shallow, inRange⟩
    refine ⟨shallow, ?_⟩
    intro literal within
    exact (NumeralSpelling.converts_iff (decides literal within)).mpr (inRange literal within)

end Provenance.Json
