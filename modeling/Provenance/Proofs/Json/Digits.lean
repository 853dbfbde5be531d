import Mathlib
import Provenance.Proofs.Json.Spelling
import Provenance.Proofs.Text.Decimal

/-!
# Digits and what they stand for

Digits are written as bytes in a spelling and as characters in a text, and spell
one number.  If the digits of a numeral make a number that fits the significand,
and its exponent is small, all of them count: the numeral is the decimal of its
digits (`Numeral.decimal`), and the double of it is found by scaling this decimal
(`Numeral.double_eq`).
-/

namespace Provenance.Json

open Text.Utf8 (encode)

/-- The characters of digits. -/
def digitText (digits : List (Fin 10)) : List Char :=
  digits.map fun digit => Nat.digitChar digit.val

theorem encode_digitText (digits : List (Fin 10)) :
    encode (digitText digits) = digits.map digitByte := by
  have each : ∀ digit : Fin 10, encode [Nat.digitChar digit] = [digitByte digit] := by decide
  induction digits with
  | nil => rfl
  | cons digit digits ih =>
      rw [digitText, List.map_cons, List.map_cons, ← List.singleton_append,
        Text.Utf8.encode_append, each]
      exact congrArg (digitByte digit :: ·) ih

theorem exists_digitChar_eq {char : Char} (isDigit : char.isDigit = true) :
    ∃ digit : Fin 10, Nat.digitChar digit = char := by
  obtain ⟨least, greatest⟩ := Char.isDigit_iff_toNat.mp isDigit
  change 48 ≤ char.toNat at least
  change char.toNat ≤ 57 at greatest
  have isChar : ∀ digit : Fin 10, Nat.digitChar digit = Char.ofNat (48 + digit) := by decide
  refine ⟨⟨char.toNat - 48, by omega⟩, ?_⟩
  rw [isChar, Nat.add_sub_cancel' least, Char.ofNat_toNat]

/-- A text of digits is made of digits. -/
theorem exists_digitText {text : List Char} (allDigits : AllDigits text) :
    ∃ digits, digitText digits = text := by
  induction text with
  | nil => exact ⟨[], rfl⟩
  | cons char text ih =>
      obtain ⟨digit, rfl⟩ := exists_digitChar_eq (allDigits char List.mem_cons_self)
      obtain ⟨digits, rfl⟩ :=
        ih fun other isOther => allDigits other (List.mem_cons_of_mem _ isOther)
      exact ⟨digit :: digits, rfl⟩

/-- The number that digits spell behind others. -/
def digitsOnto (taken : Nat) (digits : List Nat) : Nat :=
  digits.foldl (fun taken digit => taken * 10 + digit) taken

theorem digitsOnto_append (taken : Nat) (first second : List Nat) :
    digitsOnto taken (first ++ second) = digitsOnto (digitsOnto taken first) second :=
  List.foldl_append

theorem le_digitsOnto (taken : Nat) (digits : List Nat) : taken ≤ digitsOnto taken digits := by
  induction digits generalizing taken with
  | nil => exact Nat.le_refl taken
  | cons digit digits ih =>
      exact Nat.le_trans (by omega : taken ≤ taken * 10 + digit) (ih (taken * 10 + digit))

/-- All digits of a number that is not too large are taken. -/
theorem absorb_eq {limit taken : Nat} {digits : List Nat}
    (bound : digitsOnto taken digits ≤ limit) :
    Numeral.absorb limit taken digits = (digitsOnto taken digits, []) := by
  induction digits generalizing taken with
  | nil => rfl
  | cons digit digits ih =>
      have fits : taken * 10 + digit ≤ limit := Nat.le_trans (le_digitsOnto _ digits) bound
      rw [Numeral.absorb, if_pos fits]
      exact ih bound

/-- Digits spell the number of their text. -/
theorem digitsOnto_eq (taken : Nat) (digits : List (Fin 10)) :
    digitsOnto taken (digits.map Fin.val) = Nat.ofDigitChars 10 (digitText digits) taken := by
  have each : ∀ digit : Fin 10, (Nat.digitChar digit).toNat - 48 = digit := by decide
  induction digits generalizing taken with
  | nil => rfl
  | cons digit digits ih =>
      rw [digitText, List.map_cons, List.map_cons, Nat.ofDigitChars_cons]
      change digitsOnto (taken * 10 + digit) _ =
        Nat.ofDigitChars 10 (digitText digits) (10 * taken + ((Nat.digitChar digit).toNat - 48))
      rw [each, Nat.mul_comm 10, ih]

/-- Digits are a whole part if no zero stands in front of others. -/
theorem exists_whole {text : List Char} (allDigits : AllDigits text) (notEmpty : text ≠ [])
    (zeroAlone : text.head? = some '0' → text = ['0']) :
    ∃ whole : WholeSpelling, digitText whole.digits = text := by
  obtain ⟨digits, rfl⟩ := exists_digitText allDigits
  cases digits with
  | nil => contradiction
  | cons first others =>
      by_cases isZero : first = 0
      · subst isZero
        exact ⟨.zero, (zeroAlone rfl).symm⟩
      · exact ⟨.positive first isZero others, rfl⟩

/-- A natural number is written as a whole part. -/
theorem exists_whole_toDigits (n : Nat) :
    ∃ whole : WholeSpelling, digitText whole.digits = Nat.toDigits 10 n := by
  apply exists_whole (allDigits_toDigits n) Nat.toDigits_ne_nil
  intro isZero
  obtain rfl : n = 0 := by
    by_contra nonzero
    exact Decimal.head?_toDigits_ne_zero (Nat.pos_of_ne_zero nonzero) isZero
  rfl

/-! ## Numerals with few digits -/

/-- The number that an exponent stands for. -/
def Exponent.value (exponent : Exponent) : Int :=
  if exponent.negative then -(digitsOnto 0 exponent.digits : Int)
  else digitsOnto 0 exponent.digits

namespace Numeral

/-- The digits of a numeral as one number, and the power of ten that the last of
them counts. -/
def decimal (numeral : Numeral) : Decimal where
  coefficient := digitsOnto 0 (numeral.whole ++ numeral.fraction)
  scale := (numeral.exponent.map Exponent.value).getD 0 - numeral.fraction.length

/-- The exponent, if there is one, is small enough to be read. -/
def InReach (numeral : Numeral) : Prop :=
  ∀ exponent ∈ numeral.exponent, digitsOnto 0 exponent.digits ≤ exponentLimit

variable {numeral : Numeral}

/-- All digits are taken if they fit. -/
theorem significand_eq (fits : numeral.decimal.coefficient ≤ significandLimit) :
    numeral.significand =
      ⟨numeral.decimal.coefficient, -(numeral.fraction.length : Int), true⟩ := by
  have both : digitsOnto 0 (numeral.whole ++ numeral.fraction) =
      digitsOnto (digitsOnto 0 numeral.whole) numeral.fraction :=
    digitsOnto_append 0 numeral.whole numeral.fraction
  change digitsOnto 0 (numeral.whole ++ numeral.fraction) ≤ _ at fits
  rw [both] at fits
  have wholeFits := (le_digitsOnto _ _).trans fits
  rw [decimal, both, significand, absorb_eq wholeFits]
  dsimp only
  rw [absorb_eq fits]
  simp

/-- If the exponent can be read, the double is found by scaling. -/
theorem double_of_inReach (inReach : numeral.InReach) :
    numeral.double = (scaled? numeral.significand.value (numeral.significand.power +
      (numeral.exponent.map Exponent.value).getD 0)).elim (.error ⟨0⟩) fun x =>
        .ok (x.withSign numeral.negative) := by
  unfold double
  split
  · rename_i isExponent
    rw [isExponent, Option.map_none, Option.getD_none, add_zero]
    dsimp only
    generalize scaled? _ _ = result
    cases result <;> rfl
  · rename_i exponent isExponent
    have isTaken := absorb_eq (inReach exponent isExponent)
    split
    · rename_i size isSize
      obtain ⟨rfl, -⟩ := Prod.mk.inj (isSize.symm.trans isTaken)
      have isPower : (if exponent.negative = true then
            numeral.significand.power - (digitsOnto 0 exponent.digits : ℤ)
          else numeral.significand.power + digitsOnto 0 exponent.digits) =
          numeral.significand.power + (numeral.exponent.map Exponent.value).getD 0 := by
        rw [isExponent, Option.map_some, Option.getD_some, Exponent.value]
        split <;> ring
      dsimp only
      rw [isPower]
      generalize scaled? _ _ = result
      cases result <;> rfl
    · rename_i isSize
      exact absurd (Prod.mk.inj (isSize.symm.trans isTaken)).2 (List.cons_ne_nil _ _)

theorem double_of_scaled? {x : Binary64} (inReach : numeral.InReach)
    (isScaled : scaled? numeral.significand.value (numeral.significand.power +
      (numeral.exponent.map Exponent.value).getD 0) = some x) :
    numeral.double = .ok (x.withSign numeral.negative) := by
  rw [double_of_inReach inReach, isScaled, Option.elim_some]

/-- A numeral whose digits fit and whose exponent is small is scaled once. -/
theorem double_eq (fits : numeral.decimal.coefficient ≤ significandLimit)
    (inReach : numeral.InReach) {x : Binary64}
    (scaled : scaled? numeral.decimal.coefficient numeral.decimal.scale = some x) :
    numeral.double = .ok (x.withSign numeral.negative) := by
  apply double_of_scaled? inReach
  have isScale : -(numeral.fraction.length : Int) + (numeral.exponent.map Exponent.value).getD 0 =
      numeral.decimal.scale := by
    rw [decimal]
    ring
  rw [significand_eq fits, isScale]
  exact scaled

/-- With a fraction or an exponent, no integer is tried. -/
theorem number_eq_double (isMarked : numeral.fraction ≠ [] ∨ numeral.exponent ≠ none)
    {x : Binary64} (isDouble : numeral.double = .ok x) : numeral.number = .ok (.double x) := by
  have notInteger : (numeral.significand.wholeFits && numeral.fraction.isEmpty &&
      numeral.exponent.isNone) = false := by
    rcases isMarked with hasFraction | hasExponent
    · rw [List.isEmpty_eq_false_iff.mpr hasFraction, Bool.and_false, Bool.false_and]
    · rw [Option.isNone_eq_false_iff.mpr (Option.isSome_iff_ne_none.mpr hasExponent),
        Bool.and_false]
  rw [number, if_neg (Bool.eq_false_iff.mp notInteger), isDouble]
  rfl

end Numeral

end Provenance.Json
