import Mathlib
import Provenance.Text.Decimal

/-!
# What the text of a decimal spells

A decimal text is read as digits with a point among them and an exponent behind
an `e`.  This reading is written down on its own and knows nothing of the two
forms in which decimals are written.

The text of a decimal spells the decimal in every style (`spelledValue_text`),
so decimals that are written alike are equal as numbers.
-/

namespace Provenance

/-- The exponent behind the mark `e`; none counts as zero. -/
def spelledExponent : List Char → ℤ
  | _ :: '-' :: digits => -(Nat.ofDigitChars 10 digits 0 : ℤ)
  | _ :: _ :: digits => Nat.ofDigitChars 10 digits 0
  | _ => 0

/-- The decimal that a text without sign spells: its digits as one number, scaled
by the exponent and by the digits behind the point. -/
def spelledDecimal (text : List Char) : Decimal :=
  let mantissa := text.takeWhile (· != 'e')
  let fraction := (mantissa.dropWhile (· != '.')).tail
  ⟨Nat.ofDigitChars 10 (mantissa.takeWhile (· != '.') ++ fraction) 0,
    spelledExponent (text.dropWhile (· != 'e')) - fraction.length⟩

/-- A decimal as a rational number. -/
def Decimal.value (x : Decimal) : ℚ :=
  x.coefficient * (10 : ℚ) ^ x.scale

/-- The number that a text without sign spells. -/
def spelledValue (text : List Char) : ℚ :=
  (spelledDecimal text).value

/-- A text of decimal digits. -/
def AllDigits (text : List Char) : Prop :=
  ∀ char ∈ text, char.isDigit = true

theorem allDigits_nil : AllDigits [] := by
  intro char member
  contradiction

theorem AllDigits.append {left right : List Char} (leftDigits : AllDigits left)
    (rightDigits : AllDigits right) : AllDigits (left ++ right) := by
  intro char member
  rcases List.mem_append.mp member with inLeft | inRight
  · exact leftDigits char inLeft
  · exact rightDigits char inRight

theorem allDigits_replicate_zero (count : Nat) : AllDigits (List.replicate count '0') := by
  intro char member
  rw [List.eq_of_mem_replicate member]
  rfl

theorem allDigits_toDigits (n : Nat) : AllDigits (Nat.toDigits 10 n) := by
  intro char member
  exact Nat.isDigit_of_mem_toDigits (by decide) (by decide) member

theorem ofDigitChars_lt {text : List Char} (allDigits : AllDigits text) :
    Nat.ofDigitChars 10 text 0 < 10 ^ text.length := by
  induction text with
  | nil => exact Nat.one_pos
  | cons char text ih =>
      have small : char.toNat ≤ 57 :=
        (Char.isDigit_iff_toNat.mp (allDigits char List.mem_cons_self)).2
      have rest := ih fun other isOther => allDigits other (List.mem_cons_of_mem _ isOther)
      have first : 10 ^ text.length * (char.toNat - 48) ≤ 10 ^ text.length * 9 :=
        Nat.mul_le_mul_left _ (by omega)
      rw [Nat.ofDigitChars_cons, Nat.mul_zero, Nat.zero_add, Nat.ofDigitChars_eq_ofDigitChars_zero,
        List.length_cons, pow_succ]
      change 10 ^ text.length * (char.toNat - 48) + _ < _
      omega

/-- A character of decimal numerals. -/
def isNumeralChar (char : Char) : Bool :=
  char.isDigit || char == '.' || char == 'e' || char == '-' || char == '+'

theorem AllDigits.all_isNumeralChar {text : List Char} (allDigits : AllDigits text) :
    text.all isNumeralChar = true := by
  rw [List.all_eq_true]
  intro char member
  rw [isNumeralChar, allDigits char member]
  rfl

theorem AllDigits.head?_ne_minus {text : List Char} (allDigits : AllDigits text) :
    text.head? ≠ some '-' := by
  intro head
  exact absurd (allDigits '-' (List.mem_of_mem_head? head)) (by decide)

/-- Digits are skipped on the way to a character that is no digit. -/
private theorem span_digits {digits rest : List Char} {mark : Char} (allDigits : AllDigits digits)
    (notDigit : mark.isDigit = false) (stops : rest = [] ∨ rest.head? = some mark) :
    (digits ++ rest).takeWhile (· != mark) = digits ∧
      (digits ++ rest).dropWhile (· != mark) = rest := by
  have passes : ∀ char ∈ digits, (char != mark) = true := by
    intro char member
    have isDigit := allDigits char member
    rw [bne_iff_ne]
    rintro rfl
    rw [notDigit] at isDigit
    contradiction
  rw [List.takeWhile_append_of_pos passes, List.dropWhile_append_of_pos passes]
  rcases stops with rfl | head
  · simp
  · cases rest with
    | nil => simp at head
    | cons first rest =>
        obtain rfl : first = mark := by simpa using head
        simp

/-- A text with a point spells the digits on both sides of it. -/
theorem spelledDecimal_point {whole fraction mark : List Char} (wholeDigits : AllDigits whole)
    (fractionDigits : AllDigits fraction) (marked : mark = [] ∨ mark.head? = some 'e') :
    spelledDecimal (whole ++ '.' :: fraction ++ mark) =
      ⟨Nat.ofDigitChars 10 (whole ++ fraction) 0,
        spelledExponent mark - fraction.length⟩ := by
  have mantissaPasses : ∀ char ∈ whole ++ '.' :: fraction, (char != 'e') = true := by
    intro char member
    rw [bne_iff_ne]
    rintro rfl
    rcases List.mem_append.mp member with inWhole | inRest
    · exact absurd (wholeDigits _ inWhole) (by decide)
    · rcases List.mem_cons.mp inRest with isPoint | inFraction
      · exact absurd isPoint (by decide)
      · exact absurd (fractionDigits _ inFraction) (by decide)
  have behind : mark.takeWhile (· != 'e') = [] ∧ mark.dropWhile (· != 'e') = mark := by
    simpa using span_digits allDigits_nil (by decide) marked
  have split : (whole ++ '.' :: fraction).takeWhile (· != '.') = whole ∧
      (whole ++ '.' :: fraction).dropWhile (· != '.') = '.' :: fraction :=
    span_digits wholeDigits (by decide) (Or.inr rfl)
  simp only [spelledDecimal, List.takeWhile_append_of_pos mantissaPasses,
    List.dropWhile_append_of_pos mantissaPasses, behind, List.append_nil, split, List.tail_cons]

/-- A text without a point spells its digits. -/
theorem spelledDecimal_whole {whole mark : List Char} (wholeDigits : AllDigits whole)
    (marked : mark = [] ∨ mark.head? = some 'e') :
    spelledDecimal (whole ++ mark) = ⟨Nat.ofDigitChars 10 whole 0, spelledExponent mark⟩ := by
  have split := span_digits wholeDigits (by decide) marked
  have noPoint : whole.takeWhile (· != '.') = whole ∧ whole.dropWhile (· != '.') = [] := by
    simpa using span_digits wholeDigits (by decide : '.'.isDigit = false) (Or.inl rfl)
  simp only [spelledDecimal, split, noPoint, List.tail_nil, List.append_nil, List.length_nil,
    Nat.cast_zero, sub_zero]

/-- Digits behind a point; without digits there is no point. -/
def pointed (fraction : List Char) : List Char :=
  if fraction = [] then [] else '.' :: fraction

/-- A text with or without a point spells its digits. -/
theorem spelledDecimal_pointed {whole fraction mark : List Char} (wholeDigits : AllDigits whole)
    (fractionDigits : AllDigits fraction) (marked : mark = [] ∨ mark.head? = some 'e') :
    spelledDecimal (whole ++ pointed fraction ++ mark) =
      ⟨Nat.ofDigitChars 10 (whole ++ fraction) 0,
        spelledExponent mark - fraction.length⟩ := by
  by_cases noFraction : fraction = []
  · rw [pointed, if_pos noFraction, List.append_nil, spelledDecimal_whole wholeDigits marked,
      noFraction, List.append_nil, List.length_nil, Nat.cast_zero, sub_zero]
  · rw [pointed, if_neg noFraction]
    exact spelledDecimal_point wholeDigits fractionDigits marked

namespace Decimal

/-! ## The digits of a decimal -/

/-- The digits that are left out of the text are zeros. -/
theorem allDigits_eq_digits_append (x : Decimal) :
    ∃ count, x.allDigits = x.digits ++ List.replicate count '0' := by
  refine ⟨(x.allDigits.reverse.takeWhile (· == '0')).length, ?_⟩
  have zeros : x.allDigits.reverse.takeWhile (· == '0') =
      List.replicate (x.allDigits.reverse.takeWhile (· == '0')).length '0' := by
    apply List.eq_replicate_of_mem
    intro char member
    simpa using List.mem_takeWhile_imp member
  calc
    x.allDigits = (x.allDigits.reverse.takeWhile (· == '0') ++
        x.allDigits.reverse.dropWhile (· == '0')).reverse := by
          rw [List.takeWhile_append_dropWhile, List.reverse_reverse]
    _ = x.digits ++ (x.allDigits.reverse.takeWhile (· == '0')).reverse := by
          rw [List.reverse_append, digits]
    _ = x.digits ++ List.replicate (x.allDigits.reverse.takeWhile (· == '0')).length '0' := by
          rw [zeros, List.reverse_replicate, List.length_replicate]

theorem digits_allDigits (x : Decimal) : AllDigits x.digits := by
  rcases x.allDigits_eq_digits_append with ⟨count, split⟩
  intro char member
  apply allDigits_toDigits x.coefficient
  change char ∈ x.allDigits
  rw [split]
  exact List.mem_append_left _ member

/-- The coefficient is the number of the digits, with the zeros that are left out. -/
theorem exists_coefficient_eq (x : Decimal) :
    ∃ count, x.allDigits.length = x.digits.length + count ∧
      x.coefficient = 10 ^ count * Nat.ofDigitChars 10 x.digits 0 := by
  rcases x.allDigits_eq_digits_append with ⟨count, split⟩
  refine ⟨count, ?_, ?_⟩
  · rw [split, List.length_append, List.length_replicate]
  · rw [← Nat.ofDigitChars_replicate_zero, ← Nat.ofDigitChars_append, ← split, allDigits,
      Nat.ofDigitChars_ten_toDigits]

/-- A decimal is its digits, scaled so that the first of them counts the leading
power of ten. -/
theorem value_eq_digits (x : Decimal) :
    x.value = Nat.ofDigitChars 10 x.digits 0 *
      (10 : ℚ) ^ (x.leadingExponent + 1 - x.digits.length) := by
  obtain ⟨count, length, coefficient⟩ := x.exists_coefficient_eq
  have exponent : x.leadingExponent + 1 - x.digits.length = count + x.scale := by
    rw [leadingExponent, length]
    push_cast
    ring
  rw [value, exponent, zpow_add₀ (by norm_num), coefficient]
  push_cast
  rw [zpow_natCast]
  ring

/-- The digits count no more than the coefficient. -/
theorem ofDigitChars_digits_le (x : Decimal) :
    Nat.ofDigitChars 10 x.digits 0 ≤ x.coefficient := by
  obtain ⟨count, -, coefficient⟩ := x.exists_coefficient_eq
  rw [coefficient]
  exact Nat.le_mul_of_pos_left _ (Nat.pow_pos (by decide))

theorem head?_toDigits_ne_zero {n : Nat} (positive : 0 < n) :
    (Nat.toDigits 10 n).head? ≠ some '0' := by
  have digitChar_ne : ∀ digit : Fin 10, digit ≠ 0 → Nat.digitChar digit ≠ '0' := by decide
  induction n using Nat.strongRecOn with
  | ind n ih =>
      by_cases small : n < 10
      · rw [Nat.toDigits_of_lt_base small]
        have notZero : (⟨n, small⟩ : Fin 10) ≠ 0 := fun isZero =>
          positive.ne' (congrArg Fin.val isZero)
        exact fun isZero => digitChar_ne ⟨n, small⟩ notZero (Option.some.inj isZero)
      · have large : 10 ≤ n := not_lt.mp small
        rw [Nat.toDigits_of_base_le (by decide) large,
          List.head?_append_of_ne_nil _ Nat.toDigits_ne_nil]
        exact ih (n / 10) (Nat.div_lt_self positive (by decide)) (Nat.div_pos large (by decide))

/-- A positive decimal has digits, and the first of them is no zero. -/
theorem digits_of_positive {x : Decimal} (positive : 0 < x.coefficient) :
    x.digits ≠ [] ∧ x.digits.head? ≠ some '0' := by
  have head := head?_toDigits_ne_zero positive
  rcases x.allDigits_eq_digits_append with ⟨count, split⟩
  rw [allDigits] at split
  rw [split] at head
  have notEmpty : x.digits ≠ [] := by
    intro empty
    rw [empty, List.nil_append] at split head
    cases count with
    | zero => exact Nat.toDigits_ne_nil split
    | succ count => exact head rfl
  rw [List.head?_append_of_ne_nil _ notEmpty] at head
  exact ⟨notEmpty, head⟩

/-- The digits in front of the point: those that count ones and more, and zeros
where there are too few. -/
def plainWhole (digits : List Char) (exponent : ℤ) : List Char :=
  if exponent < 0 then ['0']
  else digits.take (exponent.toNat + 1) ++
    List.replicate (exponent.toNat + 1 - digits.length) '0'

/-- The digits behind the point, a single zero if there are none. -/
def plainFraction (digits : List Char) (exponent : ℤ) : List Char :=
  if exponent < 0 then List.replicate (-exponent - 1).toNat '0' ++ digits
  else if digits.length ≤ exponent.toNat + 1 then ['0']
  else digits.drop (exponent.toNat + 1)

section Plain

variable {digits : List Char}

/-- The plain form has digits on both sides of a point and no exponent. -/
theorem plain_eq (digits : List Char) (exponent : ℤ) :
    plain digits exponent = plainWhole digits exponent ++ '.' :: plainFraction digits exponent := by
  unfold plain plainWhole plainFraction
  by_cases negative : exponent < 0
  · simp [negative]
  rw [if_neg negative, if_neg negative, if_neg negative]
  by_cases short : digits.length ≤ exponent.toNat + 1
  · simp [short, List.take_of_length_le short]
  · have noZeros : exponent.toNat + 1 - digits.length = 0 := by omega
    simp [short, noZeros]

theorem allDigits_plainWhole (allDigits : AllDigits digits) (exponent : ℤ) :
    AllDigits (plainWhole digits exponent) := by
  unfold plainWhole
  split
  · exact allDigits_replicate_zero 1
  · exact AllDigits.append (fun char member => allDigits char (List.mem_of_mem_take member))
      (allDigits_replicate_zero _)

theorem allDigits_plainFraction (allDigits : AllDigits digits) (exponent : ℤ) :
    AllDigits (plainFraction digits exponent) := by
  unfold plainFraction
  split
  · exact (allDigits_replicate_zero _).append allDigits
  split
  · exact allDigits_replicate_zero 1
  · exact fun char member => allDigits char (List.mem_of_mem_drop member)

theorem plainWhole_ne_nil (notEmpty : digits ≠ []) (exponent : ℤ) :
    plainWhole digits exponent ≠ [] := by
  unfold plainWhole
  split
  · exact List.cons_ne_nil _ _
  · simp [notEmpty]

theorem plainFraction_ne_nil (notEmpty : digits ≠ []) (exponent : ℤ) :
    plainFraction digits exponent ≠ [] := by
  unfold plainFraction
  split
  · simp [notEmpty]
  split
  · exact List.cons_ne_nil _ _
  · rename_i long
    simpa using long

/-- In front of the point, no zero stands in front of other digits. -/
theorem plainWhole_eq_zero (notEmpty : digits ≠ []) (notZero : digits.head? ≠ some '0')
    {exponent : ℤ} (isZero : (plainWhole digits exponent).head? = some '0') :
    plainWhole digits exponent = ['0'] := by
  unfold plainWhole at isZero ⊢
  split
  · rfl
  · rename_i notNegative
    rw [if_neg notNegative] at isZero
    cases digits with
    | nil => contradiction
    | cons first others => exact absurd isZero notZero

/-- The plain form has the digits, with zeros behind them as long as they do not
reach the point. -/
theorem exists_zeros_plain (digits : List Char) (exponent : ℤ) :
    ∃ zeros : Nat,
      Nat.ofDigitChars 10 (plainWhole digits exponent ++ plainFraction digits exponent) 0 =
        10 ^ zeros * Nat.ofDigitChars 10 digits 0 ∧
      -((plainFraction digits exponent).length : ℤ) = exponent + 1 - digits.length - zeros ∧
      (zeros = 0 ∨ digits.length + zeros ≤ exponent.toNat + 2) := by
  unfold plainWhole plainFraction
  by_cases negative : exponent < 0
  · refine ⟨0, ?_, ?_, Or.inl rfl⟩
    · rw [if_pos negative, if_pos negative, ← List.append_assoc, ← List.replicate_one,
        List.replicate_append_replicate, Nat.ofDigitChars_append, Nat.ofDigitChars_replicate_zero,
        Nat.mul_zero, pow_zero, one_mul]
    · rw [if_pos negative, List.length_append, List.length_replicate]
      push_cast
      omega
  rw [if_neg negative, if_neg negative]
  by_cases short : digits.length ≤ exponent.toNat + 1
  · refine ⟨exponent.toNat + 1 - digits.length + 1, ?_, ?_, Or.inr (by omega)⟩
    · rw [if_pos short, List.take_of_length_le short, List.append_assoc, ← List.replicate_one,
        List.replicate_append_replicate, Nat.ofDigitChars_append, Nat.ofDigitChars_replicate_zero]
    · rw [if_pos short, List.length_singleton]
      omega
  · refine ⟨0, ?_, ?_, Or.inl rfl⟩
    · have noZeros : exponent.toNat + 1 - digits.length = 0 := by omega
      rw [if_neg short, noZeros, List.replicate_zero, List.append_nil, List.take_append_drop,
        pow_zero, one_mul]
    · rw [if_neg short, List.length_drop]
      omega

end Plain

/-- An exponent with its mark and its sign. -/
def marked (exponent : ℤ) : List Char :=
  'e' :: (if exponent < 0 then '-' else '+') :: Nat.toDigits 10 exponent.natAbs

theorem spelledExponent_marked (exponent : ℤ) : spelledExponent (marked exponent) = exponent := by
  rw [marked]
  by_cases negative : exponent < 0
  · rw [if_pos negative, spelledExponent, Nat.ofDigitChars_ten_toDigits]
    omega
  · rw [if_neg negative, spelledExponent, Nat.ofDigitChars_ten_toDigits]
    · omega
    · simp

/-- The scientific form has one digit in front of the point. -/
theorem scientific_cons (first : Char) (others : List Char) (exponent : ℤ) :
    scientific (first :: others) exponent = [first] ++ pointed others ++ marked exponent := by
  cases others <;> rfl

/-- The scientific form spells its digits, the first of them counting the
exponent. -/
theorem spelledDecimal_scientific {digits : List Char} (allDigits : AllDigits digits)
    (notEmpty : digits ≠ []) (exponent : ℤ) :
    spelledDecimal (scientific digits exponent) =
      ⟨Nat.ofDigitChars 10 digits 0, exponent + 1 - digits.length⟩ := by
  obtain ⟨first, others, rfl⟩ := List.exists_cons_of_ne_nil notEmpty
  have firstDigit : AllDigits [first] := fun char member =>
    allDigits char (List.mem_cons.mpr (Or.inl (List.mem_singleton.mp member)))
  have otherDigits : AllDigits others := fun char member =>
    allDigits char (List.mem_cons_of_mem first member)
  rw [scientific_cons, spelledDecimal_pointed firstDigit otherDigits (Or.inr rfl),
    spelledExponent_marked, List.length_cons, Nat.cast_add, Nat.cast_one, add_sub_add_right_eq_sub]
  rfl

/-! ## Both forms spell the decimal -/

/-- The text of a decimal has its digits, with zeros behind them only in a plain
form that they make no longer than the greatest plain exponent needs. -/
theorem exists_spelledDecimal_text (style : DecimalStyle) {x : Decimal} (notEmpty : x.digits ≠ []) :
    ∃ zeros : Nat, spelledDecimal (x.text style) =
        ⟨10 ^ zeros * Nat.ofDigitChars 10 x.digits 0,
          x.leadingExponent + 1 - x.digits.length - zeros⟩ ∧
      (zeros = 0 ∨ x.digits.length + zeros ≤ style.greatestPlain.toNat + 2) := by
  rw [text]
  split
  · rename_i inStyle
    obtain ⟨zeros, coefficient, scale, few⟩ := exists_zeros_plain x.digits x.leadingExponent
    refine ⟨zeros, ?_, few.imp_right (by omega)⟩
    rw [plain_eq, ← List.append_nil (_ ++ '.' :: _),
      spelledDecimal_point (allDigits_plainWhole x.digits_allDigits _)
        (allDigits_plainFraction x.digits_allDigits _) (Or.inl rfl), coefficient, ← scale]
    exact congrArg (Decimal.mk _) (zero_sub _)
  · refine ⟨0, ?_, Or.inl rfl⟩
    rw [spelledDecimal_scientific x.digits_allDigits notEmpty, pow_zero, one_mul, Nat.cast_zero,
      sub_zero]

/-- The text of a positive decimal spells the decimal, whatever the style. -/
theorem spelledValue_text (style : DecimalStyle) {x : Decimal} (positive : 0 < x.coefficient) :
    spelledValue (x.text style) = x.value := by
  obtain ⟨zeros, spelled, -⟩ := exists_spelledDecimal_text style (digits_of_positive positive).1
  rw [value_eq_digits, spelledValue, spelled, value, Nat.cast_mul, Nat.cast_pow, Nat.cast_ofNat,
    sub_eq_add_neg _ (zeros : ℤ), zpow_add₀ (by norm_num), zpow_neg, zpow_natCast]
  field_simp

/-- The digits of the text make no greater number than the coefficient, or one that
the greatest plain exponent allows. -/
theorem coefficient_spelledDecimal_text_le (style : DecimalStyle) {x : Decimal}
    (notEmpty : x.digits ≠ []) :
    (spelledDecimal (x.text style)).coefficient ≤
      max x.coefficient (10 ^ (style.greatestPlain.toNat + 2)) := by
  obtain ⟨zeros, spelled, few⟩ := exists_spelledDecimal_text style notEmpty
  rw [spelled]
  rcases few with none | few
  · rw [none, pow_zero, one_mul]
    exact le_max_of_le_left x.ofDigitChars_digits_le
  · apply le_max_of_le_right
    calc
      10 ^ zeros * Nat.ofDigitChars 10 x.digits 0 ≤ 10 ^ zeros * 10 ^ x.digits.length :=
        Nat.mul_le_mul_left _ (ofDigitChars_lt x.digits_allDigits).le
      _ = 10 ^ (x.digits.length + zeros) := by rw [← pow_add, add_comm]
      _ ≤ 10 ^ (style.greatestPlain.toNat + 2) := Nat.pow_le_pow_right (by decide) few

/-- The scientific form begins with its digits, with a point among them or not,
and ends with a marked exponent. -/
private theorem scientific_eq (digits : List Char) (exponent : ℤ) :
    ∃ mantissa sign, scientific digits exponent =
        mantissa ++ 'e' :: sign :: Nat.toDigits 10 exponent.natAbs ∧
      (sign = '-' ∨ sign = '+') ∧ mantissa.head? = digits.head? ∧
      ∀ char ∈ mantissa, char ∈ digits ∨ char = '.' := by
  have signs : ∃ sign, (if exponent < 0 then '-' else '+') = sign ∧ (sign = '-' ∨ sign = '+') := by
    split
    · exact ⟨'-', rfl, Or.inl rfl⟩
    · exact ⟨'+', rfl, Or.inr rfl⟩
  rcases signs with ⟨sign, signEq, isSign⟩
  unfold scientific
  rw [signEq]
  match digits with
  | [] => exact ⟨[], sign, rfl, isSign, rfl, by simp⟩
  | [first] => exact ⟨[first], sign, rfl, isSign, rfl, by simp⟩
  | first :: second :: others =>
      refine ⟨first :: '.' :: second :: others, sign, rfl, isSign, rfl, ?_⟩
      intro char member
      simp only [List.mem_cons] at member ⊢
      tauto

/-- The text of a decimal shows that it is no integer. -/
theorem point_or_mark_mem_text (style : DecimalStyle) (x : Decimal) :
    '.' ∈ x.text style ∨ 'e' ∈ x.text style := by
  rw [text]
  split
  · left
    rw [plain_eq]
    exact List.mem_append_right _ List.mem_cons_self
  · right
    obtain ⟨mantissa, sign, written, -⟩ := scientific_eq x.digits x.leadingExponent
    rw [written]
    exact List.mem_append_right mantissa List.mem_cons_self

/-- The text of a decimal does not begin like that of a negative number. -/
theorem head?_text_ne_minus (style : DecimalStyle) (x : Decimal) :
    (x.text style).head? ≠ some '-' := by
  rw [text]
  split
  · have wholeDigits := allDigits_plainWhole x.digits_allDigits x.leadingExponent
    rw [plain_eq]
    cases isWhole : plainWhole x.digits x.leadingExponent with
    | nil => simp
    | cons first others =>
        rw [isWhole] at wholeDigits
        exact wholeDigits.head?_ne_minus
  · obtain ⟨mantissa, sign, written, -, head, -⟩ := scientific_eq x.digits x.leadingExponent
    rw [written]
    cases mantissa with
    | nil => simp
    | cons first others =>
        rw [List.cons_append, List.head?_cons, ← List.head?_cons (l := others), head]
        exact x.digits_allDigits.head?_ne_minus

/-- The text of a decimal has only characters of numerals. -/
theorem all_isNumeralChar_text (style : DecimalStyle) (x : Decimal) :
    (x.text style).all isNumeralChar = true := by
  rw [text]
  split
  · rw [plain_eq, List.all_append, List.all_cons,
      (allDigits_plainWhole x.digits_allDigits _).all_isNumeralChar,
      (allDigits_plainFraction x.digits_allDigits _).all_isNumeralChar]
    rfl
  · obtain ⟨mantissa, sign, written, isSign, -, inDigits⟩ :=
      scientific_eq x.digits x.leadingExponent
    have mantissaChars : mantissa.all isNumeralChar = true := by
      rw [List.all_eq_true]
      intro char member
      rcases inDigits char member with digit | rfl
      · exact List.all_eq_true.mp x.digits_allDigits.all_isNumeralChar char digit
      · rfl
    have signChar : isNumeralChar sign = true := by
      rcases isSign with rfl | rfl <;> rfl
    rw [written, List.all_append, List.all_cons, List.all_cons, mantissaChars, signChar,
      (allDigits_toDigits _).all_isNumeralChar]
    rfl

end Decimal

end Provenance
