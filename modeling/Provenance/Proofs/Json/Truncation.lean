import Mathlib
import Provenance.Proofs.Json.Digits

/-!
# Digits that are dropped

A significand takes digits while they fit, so of a long numeral it holds only some.  The
digits left out change it by less than one unit of the leading digits, which are then so
many that this is little (`significand_cases`).  A digit behind the point may still be
taken when one in front of it was left out; it stands at the wrong place then, but the
bound holds all the same.
-/

namespace Provenance.Json

section DigitsOnto

variable (taken : Nat) {digits : List Nat}

/-- Digits are put behind a number by moving it to the left. -/
theorem digitsOnto_eq_add (digits : List Nat) :
    digitsOnto taken digits = taken * 10 ^ digits.length + digitsOnto 0 digits := by
  induction digits generalizing taken with
  | nil => exact (Nat.mul_one taken).symm
  | cons digit digits ih =>
      calc
        digitsOnto (taken * 10 + digit) digits
          = (taken * 10 + digit) * 10 ^ digits.length + digitsOnto 0 digits := ih _
        _ = taken * 10 ^ (digits.length + 1) +
              ((0 * 10 + digit) * 10 ^ digits.length + digitsOnto 0 digits) := by ring
        _ = taken * 10 ^ (digits.length + 1) + digitsOnto (0 * 10 + digit) digits := by rw [← ih]

theorem digitsOnto_lt (areDigits : ∀ digit ∈ digits, digit ≤ 9) :
    digitsOnto 0 digits < 10 ^ digits.length := by
  induction digits with
  | nil => decide
  | cons digit digits ih =>
      rcases List.forall_mem_cons.mp areDigits with ⟨isDigit, areDigits⟩
      calc
        digitsOnto (0 * 10 + digit) digits
          = (0 * 10 + digit) * 10 ^ digits.length + digitsOnto 0 digits := digitsOnto_eq_add _ _
        _ < (0 * 10 + digit) * 10 ^ digits.length + 10 ^ digits.length :=
          Nat.add_lt_add_left (ih areDigits) _
        _ = (digit + 1) * 10 ^ digits.length := by ring
        _ ≤ 10 * 10 ^ digits.length := Nat.mul_le_mul_right _ (by omega)
        _ = 10 ^ (digits.length + 1) := (pow_succ' 10 digits.length).symm

theorem mul_le_digitsOnto (digits : List Nat) :
    taken * 10 ^ digits.length ≤ digitsOnto taken digits :=
  (Nat.le_add_right _ _).trans (digitsOnto_eq_add taken digits).ge

theorem digitsOnto_lt_mul (areDigits : ∀ digit ∈ digits, digit ≤ 9) :
    digitsOnto taken digits < (taken + 1) * 10 ^ digits.length := by
  rw [digitsOnto_eq_add, Nat.add_mul, Nat.one_mul]
  exact Nat.add_lt_add_left (digitsOnto_lt areDigits) _

end DigitsOnto

namespace Numeral

/-! ## Digits that are taken -/

/-- Digits are taken from the left, up to the first that does not fit. -/
theorem absorb_cases (limit taken : Nat) (digits : List Nat) :
    ∃ used, used ++ (absorb limit taken digits).2 = digits ∧
      (absorb limit taken digits).1 = digitsOnto taken used ∧
      (taken ≤ limit → (absorb limit taken digits).1 ≤ limit) ∧
      ∀ digit ∈ (absorb limit taken digits).2.head?,
        limit < (absorb limit taken digits).1 * 10 + digit := by
  induction digits generalizing taken with
  | nil => exact ⟨[], rfl, rfl, id, by simp [absorb]⟩
  | cons digit digits ih =>
      rw [absorb]
      by_cases fits : taken * 10 + digit ≤ limit
      · rw [if_pos fits]
        rcases ih (taken * 10 + digit) with ⟨used, isSplit, isTaken, bounded, stops⟩
        exact ⟨digit :: used, congrArg (digit :: ·) isSplit, isTaken, fun _ => bounded fits, stops⟩
      · rw [if_neg fits]
        refine ⟨[], rfl, rfl, id, ?_⟩
        rintro first ⟨⟩
        exact Nat.lt_of_not_le fits

/-- The digits of a numeral are decimal digits. -/
def AreDigits (numeral : Numeral) : Prop :=
  ∀ digit ∈ numeral.whole ++ numeral.fraction, digit ≤ 9

/-- The digits of a numeral as its significand takes them: the front of the whole part and
then the front of the fraction. -/
structure Taken (numeral : Numeral) where
  front : List Nat
  dropped : List Nat
  back : List Nat
  ignored : List Nat
  isWhole : front ++ dropped = numeral.whole
  isFraction : back ++ ignored = numeral.fraction
  frontFits : digitsOnto 0 front ≤ significandLimit
  frontStops : ∀ digit ∈ dropped.head?, significandLimit < digitsOnto 0 front * 10 + digit
  isValue : numeral.significand.value = digitsOnto (digitsOnto 0 front) back
  valueFits : numeral.significand.value ≤ significandLimit
  valueStops : ∀ digit ∈ ignored.head?, significandLimit < numeral.significand.value * 10 + digit
  isPower : numeral.significand.power =
    (dropped.length + ignored.length : Nat) - (numeral.fraction.length : Int)
  wholeFits : numeral.significand.wholeFits = dropped.isEmpty

theorem nonempty_taken (numeral : Numeral) : Nonempty numeral.Taken := by
  rcases absorb_cases significandLimit 0 numeral.whole with
    ⟨front, isWhole, isFront, frontFits, frontStops⟩
  rcases absorb_cases significandLimit (digitsOnto 0 front) numeral.fraction with
    ⟨back, isFraction, isBack, backFits, backStops⟩
  have isValue : numeral.significand.value =
      (absorb significandLimit (digitsOnto 0 front) numeral.fraction).1 := by
    rw [← isFront]
    rfl
  have isPower : numeral.significand.power =
      ((absorb significandLimit 0 numeral.whole).2.length : Int) - (numeral.fraction.length -
        (absorb significandLimit (digitsOnto 0 front) numeral.fraction).2.length : Nat) := by
    rw [← isFront]
    rfl
  have fits := frontFits (Nat.zero_le _)
  rw [isFront] at fits frontStops
  have shorter := congrArg List.length isFraction
  rw [List.length_append] at shorter
  exact ⟨{
    front, back, isWhole, isFraction, frontStops
    dropped := _
    ignored := _
    frontFits := fits
    isValue := isValue.trans isBack
    valueFits := isValue ▸ backFits fits
    valueStops := isValue ▸ backStops
    isPower := by rw [isPower]; omega
    wholeFits := rfl }⟩

/-- Digits are left out of a significand.  The leading digits, in front of all that are
left out, fill the significand.  Both the numeral and the significand, as long as the
numeral again with zeros behind it, begin with them. -/
structure Truncated (numeral : Numeral) (unread leading left : Nat) : Prop where
  fits : leading ≤ significandLimit
  full : significandLimit < leading * 10 + 9
  le_digits : leading * 10 ^ left ≤ numeral.decimal.coefficient
  digits_lt : numeral.decimal.coefficient < (leading + 1) * 10 ^ left
  le_value : leading * 10 ^ left ≤ numeral.significand.value * 10 ^ unread
  value_lt : numeral.significand.value * 10 ^ unread < (leading + 1) * 10 ^ left
  /-- If nothing but zeros is left out, nothing is lost. -/
  value_eq : numeral.decimal.coefficient = leading * 10 ^ left →
    numeral.significand.value * 10 ^ unread = leading * 10 ^ left

namespace Taken

variable {numeral : Numeral} (taken : numeral.Taken)

/-- How many digits are left out. -/
def unread : Nat :=
  taken.dropped.length + taken.ignored.length

theorem coefficient_eq : numeral.decimal.coefficient =
    digitsOnto (digitsOnto (digitsOnto (digitsOnto 0 taken.front) taken.dropped) taken.back)
      taken.ignored := by
  change digitsOnto 0 (numeral.whole ++ numeral.fraction) = _
  rw [← taken.isWhole, ← taken.isFraction]
  simp only [digitsOnto_append]

theorem areDigits (areDigits : numeral.AreDigits) :
    (∀ digit ∈ taken.dropped, digit ≤ 9) ∧ (∀ digit ∈ taken.back, digit ≤ 9) ∧
      ∀ digit ∈ taken.ignored, digit ≤ 9 := by
  rw [AreDigits, ← taken.isWhole, ← taken.isFraction] at areDigits
  simp only [List.forall_mem_append] at areDigits
  exact ⟨areDigits.1.2, areDigits.2⟩

/-- If the fraction alone is cut, the leading digits are the significand. -/
theorem truncated_of_ignored (digits : numeral.AreDigits) (noneDropped : taken.dropped = [])
    (areIgnored : taken.ignored ≠ []) :
    numeral.Truncated taken.unread numeral.significand.value taken.ignored.length := by
  have ignoredDigits := (taken.areDigits digits).2.2
  have isUnread : taken.unread = taken.ignored.length := by
    rw [unread, noneDropped]
    exact Nat.zero_add _
  have digitsBehind : numeral.decimal.coefficient =
      digitsOnto numeral.significand.value taken.ignored := by
    rw [taken.coefficient_eq, taken.isValue, noneDropped]
    rfl
  rw [isUnread]
  refine
    { fits := taken.valueFits
      full := ?_
      le_digits := digitsBehind ▸ mul_le_digitsOnto _ _
      digits_lt := digitsBehind ▸ digitsOnto_lt_mul _ ignoredDigits
      le_value := le_rfl
      value_lt := Nat.mul_lt_mul_of_pos_right (Nat.lt_succ_self _) (Nat.pow_pos (by decide))
      value_eq := fun _ => rfl }
  obtain ⟨digit, ignored, isCons⟩ := List.exists_cons_of_ne_nil areIgnored
  have isDigit := ignoredDigits digit (isCons ▸ List.mem_cons_self)
  have stops := taken.valueStops digit (by rw [isCons]; rfl)
  omega

/-- If the whole part is cut, the leading digits are what is taken of it. -/
theorem truncated_of_dropped (digits : numeral.AreDigits) (areDropped : taken.dropped ≠ []) :
    numeral.Truncated taken.unread (digitsOnto 0 taken.front)
      (taken.back.length + taken.unread) := by
  rcases taken.areDigits digits with ⟨droppedDigits, backDigits, ignoredDigits⟩
  have digitsBehind : numeral.decimal.coefficient =
      digitsOnto (digitsOnto 0 taken.front) (taken.dropped ++ (taken.back ++ taken.ignored)) := by
    rw [taken.coefficient_eq, digitsOnto_append, digitsOnto_append]
  have behindDigits : ∀ digit ∈ taken.dropped ++ (taken.back ++ taken.ignored), digit ≤ 9 :=
    List.forall_mem_append.mpr
      ⟨droppedDigits, List.forall_mem_append.mpr ⟨backDigits, ignoredDigits⟩⟩
  have isLeft : (taken.dropped ++ (taken.back ++ taken.ignored)).length =
      taken.back.length + taken.unread := by
    rw [List.length_append, List.length_append, unread]
    omega
  rw [← isLeft]
  refine
    { fits := taken.frontFits
      full := ?_
      le_digits := digitsBehind ▸ mul_le_digitsOnto _ _
      digits_lt := digitsBehind ▸ digitsOnto_lt_mul _ behindDigits
      le_value := ?_
      value_lt := ?_
      value_eq := ?_ }
  · obtain ⟨digit, dropped, isCons⟩ := List.exists_cons_of_ne_nil areDropped
    have isDigit := droppedDigits digit (isCons ▸ List.mem_cons_self)
    have stops := taken.frontStops digit (by rw [isCons]; rfl)
    omega
  · rw [isLeft, pow_add, ← Nat.mul_assoc, taken.isValue]
    exact Nat.mul_le_mul_right _ (mul_le_digitsOnto _ taken.back)
  · rw [isLeft, pow_add, ← Nat.mul_assoc, taken.isValue]
    exact Nat.mul_lt_mul_of_pos_right (digitsOnto_lt_mul _ backDigits) (Nat.pow_pos (by decide))
  · intro isRound
    have noBack : digitsOnto 0 taken.back = 0 := by
      rw [digitsBehind, digitsOnto_eq_add, Nat.add_eq_left, digitsOnto_append, digitsOnto_append]
        at isRound
      have atMost := (le_digitsOnto _ taken.ignored).trans isRound.le
      rw [digitsOnto_eq_add] at atMost
      omega
    rw [isLeft, taken.isValue, digitsOnto_eq_add, noBack, Nat.add_zero, pow_add, Nat.mul_assoc]

end Taken

/-- A significand takes all digits, or leaves out all behind the leading ones but one. -/
theorem significand_cases {numeral : Numeral} (areDigits : numeral.AreDigits) :
    ∃ unread : Nat,
      numeral.significand.power = unread - (numeral.fraction.length : Int) ∧
        (unread = 0 ∧ numeral.significand.value = numeral.decimal.coefficient ∨
          ∃ leading left, numeral.Truncated unread leading left) := by
  obtain ⟨taken⟩ := numeral.nonempty_taken
  refine ⟨taken.unread, taken.isPower, ?_⟩
  by_cases noneDropped : taken.dropped = []
  · by_cases noneIgnored : taken.ignored = []
    · left
      rw [Taken.unread, taken.coefficient_eq, taken.isValue, noneDropped, noneIgnored]
      exact ⟨rfl, rfl⟩
    · exact .inr ⟨_, _, taken.truncated_of_ignored areDigits noneDropped noneIgnored⟩
  · exact .inr ⟨_, _, taken.truncated_of_dropped areDigits noneDropped⟩

theorem significand_value_le (numeral : Numeral) :
    numeral.significand.value ≤ significandLimit := by
  obtain ⟨taken⟩ := numeral.nonempty_taken
  exact taken.valueFits

namespace Truncated

variable {numeral : Numeral} {unread leading left : Nat}

/-- Of digits that fit with zeros behind them only zeros are left out. -/
theorem coefficient_eq (truncated : numeral.Truncated unread leading left) {digits zeros : Nat}
    (isMultiple : numeral.decimal.coefficient = digits * 10 ^ zeros)
    (few : digits + 9 ≤ significandLimit) :
    numeral.decimal.coefficient = leading * 10 ^ left := by
  have full := truncated.full
  have most := truncated.le_digits
  have least := truncated.digits_lt
  rw [isMultiple] at most least ⊢
  rcases le_or_gt left zeros with within | beyond
  · obtain ⟨more, rfl⟩ := Nat.exists_eq_add_of_le within
    have split : digits * 10 ^ (left + more) = digits * 10 ^ more * 10 ^ left := by ring
    rw [split] at most least ⊢
    have positive : 0 < 10 ^ left := Nat.pow_pos (by decide)
    have lower := Nat.le_of_mul_le_mul_right most positive
    have upper := Nat.lt_of_mul_lt_mul_right least
    rw [Nat.le_antisymm lower (Nat.le_of_lt_succ upper)]
  · -- Otherwise the leading digits would be fewer than those that fill the significand.
    obtain ⟨more, rfl⟩ := Nat.exists_eq_add_of_lt beyond
    have split : leading * 10 ^ (zeros + more + 1) = leading * 10 ^ (more + 1) * 10 ^ zeros := by
      ring
    rw [split] at most
    have lower := Nat.le_of_mul_le_mul_right most (Nat.pow_pos (by decide))
    have tenfold : leading * 10 ≤ leading * 10 ^ (more + 1) :=
      Nat.mul_le_mul_left _ (Nat.le_self_pow (Nat.succ_ne_zero more) 10)
    omega

end Truncated

/-- A significand of few digits is exact, whatever zeros stand behind them. -/
theorem significand_exact {numeral : Numeral} (areDigits : numeral.AreDigits) {digits zeros : Nat}
    (isMultiple : numeral.decimal.coefficient = digits * 10 ^ zeros)
    (few : digits + 9 ≤ significandLimit) :
    ∃ unread : Nat,
      numeral.significand.power = unread - (numeral.fraction.length : Int) ∧
        numeral.significand.value * 10 ^ unread = numeral.decimal.coefficient := by
  rcases significand_cases areDigits with
    ⟨unread, isPower, ⟨rfl, isValue⟩ | ⟨leading, left, truncated⟩⟩
  · exact ⟨0, isPower, by rw [isValue, pow_zero, Nat.mul_one]⟩
  · have isRound := truncated.coefficient_eq isMultiple few
    exact ⟨unread, isPower, (truncated.value_eq isRound).trans isRound.symm⟩

end Numeral

end Provenance.Json
