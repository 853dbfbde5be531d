import Mathlib
import Provenance.Proofs.Json.Scaled
import Provenance.Proofs.Json.Written

/-!
# Reading the text of a double

The text of a double has at most seventeen digits, so all of them are taken into
the significand, and the double is found with one power of ten.  There always is
one (`Binary64.exists_scaled?_written`): only the greatest doubles come near the end
of the range, and for these it is computed.

What is found is the double itself if its digits and the power of ten are doubles
(`Binary64.reread_eq_self`), since it is rounded only once then.  In general it is another
double.
-/

namespace Provenance

open Text.Utf8 (encode)

namespace Json

open Reader (ascii)
open Decimal (marked)

/-- An exponent is written as one of its spellings. -/
theorem exists_exponent_marked (exponent : Int) :
    ∃ spelled : ExponentSpelling, spelled.bytes = encode (marked exponent) ∧
      spelled.exponent.value = exponent ∧
        digitsOnto 0 spelled.exponent.digits = exponent.natAbs := by
  obtain ⟨digits, isText⟩ := exists_digitText (allDigits_toDigits exponent.natAbs)
  cases digits with
  | nil => exact absurd isText.symm Nat.toDigits_ne_nil
  | cons first others =>
      have isValue : digitsOnto 0 ((first :: others).map Fin.val) = exponent.natAbs := by
        rw [digitsOnto_eq, isText, Nat.ofDigitChars_ten_toDigits]
      have areBytes : encode (Nat.toDigits 10 exponent.natAbs) =
          digitByte first :: others.map digitByte := by
        rw [← isText, encode_digitText, List.map_cons]
      by_cases negative : exponent < 0
      · refine ⟨⟨false, .minus, first, others⟩, ?_, ?_, isValue⟩
        · rw [marked, if_pos negative, encode_ascii_cons (by decide),
            encode_ascii_cons (by decide), areBytes]
          rfl
        · change -(digitsOnto 0 ((first :: others).map Fin.val) : Int) = exponent
          rw [isValue]
          omega
      · refine ⟨⟨false, .plus, first, others⟩, ?_, ?_, isValue⟩
        · rw [marked, if_neg negative, encode_ascii_cons (by decide),
            encode_ascii_cons (by decide), areBytes]
          rfl
        · change (digitsOnto 0 ((first :: others).map Fin.val) : Int) = exponent
          rw [isValue]
          omega

/-- The text of an exponent that may be missing. -/
def markedText (exponent : Option Int) : List Char :=
  (exponent.map marked).getD []

theorem markedText_eq_nil_or_head? (exponent : Option Int) :
    markedText exponent = [] ∨ (markedText exponent).head? = some 'e' := by
  cases exponent with
  | none => exact Or.inl rfl
  | some power => exact Or.inr rfl

/-- An exponent that may be missing is written as a spelling of it, and is missing
there as well. -/
theorem exists_exponent_markedText {exponent : Option Int}
    (small : ∀ power ∈ exponent, power.natAbs ≤ Numeral.exponentLimit) :
    ∃ spelled : Option ExponentSpelling,
      (spelled.map ExponentSpelling.bytes).getD [] = encode (markedText exponent) ∧
        ((spelled.map ExponentSpelling.exponent).map Exponent.value).getD 0 =
          spelledExponent (markedText exponent) ∧
        (∀ power ∈ spelled.map ExponentSpelling.exponent,
          digitsOnto 0 power.digits ≤ Numeral.exponentLimit) ∧
        (spelled = none → exponent = none) := by
  cases exponent with
  | none => exact ⟨none, rfl, rfl, by rintro power ⟨⟩, fun _ => rfl⟩
  | some power =>
      obtain ⟨spelled, areBytes, isValue, isSize⟩ := exists_exponent_marked power
      refine ⟨some spelled, areBytes, ?_, ?_, fun isNone => nomatch isNone⟩
      · exact isValue.trans (Decimal.spelledExponent_marked power).symm
      · rintro other ⟨⟩
        exact isSize.trans_le (small power rfl)

/-- A numeral is spelled as a text without sign that shows that it is no integer, and
is the decimal that this text spells. -/
structure NumeralSpelling.Spells (spelled : NumeralSpelling) (text : List Char) : Prop where
  bytes : spelled.unsignedBytes = encode text
  decimal : spelled.numeral.decimal = spelledDecimal text
  isMarked : spelled.numeral.fraction ≠ [] ∨ spelled.numeral.exponent ≠ none
  small : ∀ exponent ∈ spelled.numeral.exponent,
    digitsOnto 0 exponent.digits ≤ Numeral.exponentLimit

/-- Digits, with a point among them or an exponent behind them, are a spelling. -/
theorem exists_spells {whole fraction : List Char} (wholeDigits : AllDigits whole)
    (notEmpty : whole ≠ []) (zeroAlone : whole.head? = some '0' → whole = ['0'])
    (fractionDigits : AllDigits fraction) {exponent : Option Int}
    (isMarked : fraction ≠ [] ∨ exponent ≠ none)
    (small : ∀ power ∈ exponent, power.natAbs ≤ Numeral.exponentLimit) (negative : Bool) :
    ∃ spelled : NumeralSpelling, spelled.negative = negative ∧
      spelled.Spells (whole ++ pointed fraction ++ markedText exponent) := by
  obtain ⟨spelledWhole, rfl⟩ := exists_whole wholeDigits notEmpty zeroAlone
  obtain ⟨spelledFraction, rfl⟩ := exists_digitText fractionDigits
  obtain ⟨spelledPower, areBytes, isPower, isSmall, isNone⟩ := exists_exponent_markedText small
  refine ⟨⟨negative, spelledWhole, spelledFraction, spelledPower⟩, rfl, ?_, ?_, ?_, isSmall⟩
  · rw [NumeralSpelling.unsignedBytes, areBytes, Text.Utf8.encode_append,
      Text.Utf8.encode_append, encode_digitText]
    congr 2
    cases spelledFraction with
    | nil => rfl
    | cons first others =>
        change ascii '.' :: (first :: others).map digitByte =
          encode ('.' :: digitText (first :: others))
        rw [encode_ascii_cons (by decide), encode_digitText]
  · rw [spelledDecimal_pointed wholeDigits fractionDigits (markedText_eq_nil_or_head? exponent),
      Numeral.decimal, ← isPower]
    dsimp only [NumeralSpelling.numeral]
    rw [← List.map_append, digitsOnto_eq, List.length_map, digitText, digitText, digitText,
      List.map_append, List.length_map]
  · rcases isMarked with hasFraction | hasExponent
    · left
      intro noDigits
      exact hasFraction (congrArg digitText (List.map_eq_nil_iff.mp noDigits))
    · right
      intro isNoneToo
      exact hasExponent (isNone (Option.map_eq_none_iff.mp isNoneToo))

/-- The text of a positive decimal is a spelling. -/
theorem exists_spells_decimal (style : DecimalStyle) {x : Decimal} (positive : 0 < x.coefficient)
    (small : x.leadingExponent.natAbs ≤ Numeral.exponentLimit) (negative : Bool) :
    ∃ spelled : NumeralSpelling, spelled.negative = negative ∧ spelled.Spells (x.text style) := by
  obtain ⟨notEmpty, notZero⟩ := Decimal.digits_of_positive positive
  have allDigits := x.digits_allDigits
  rw [Decimal.text]
  split
  · have fractionNotEmpty := Decimal.plainFraction_ne_nil notEmpty x.leadingExponent
    obtain ⟨spelled, isSign, spells⟩ := @exists_spells _ _
      (Decimal.allDigits_plainWhole allDigits x.leadingExponent)
      (Decimal.plainWhole_ne_nil notEmpty x.leadingExponent)
      (Decimal.plainWhole_eq_zero notEmpty notZero)
      (Decimal.allDigits_plainFraction allDigits x.leadingExponent) none
      (Or.inl fractionNotEmpty) (by rintro power ⟨⟩) negative
    refine ⟨spelled, isSign, ?_⟩
    rw [Decimal.plain_eq]
    rwa [pointed, if_neg fractionNotEmpty, markedText, Option.map_none, Option.getD_none,
      List.append_nil] at spells
  · cases isDigits : x.digits with
    | nil => exact absurd isDigits notEmpty
    | cons first others =>
        rw [isDigits] at allDigits notZero
        have firstDigit : AllDigits [first] := fun char member =>
          allDigits char (List.mem_cons.mpr (Or.inl (List.mem_singleton.mp member)))
        have otherDigits : AllDigits others := fun char member =>
          allDigits char (List.mem_cons_of_mem first member)
        rw [Decimal.scientific_cons]
        exact @exists_spells [first] others firstDigit (List.cons_ne_nil _ _)
          (fun isZero => absurd isZero notZero) otherDigits (some x.leadingExponent)
          (Or.inr (Option.some_ne_none _)) (by rintro power ⟨⟩; exact small) negative

/-- The text of a double without its sign is a spelling. -/
theorem exists_spells_double (style : DecimalStyle) (x : Binary64) :
    ∃ spelled : NumeralSpelling, spelled.negative = x.negative ∧
      spelled.Spells ((x.withSign false).text style) := by
  rw [Binary64.text_withSign_false]
  split
  · exact @exists_spells ['0'] ['0'] (allDigits_replicate_zero 1) (List.cons_ne_nil _ _)
      (fun _ => rfl) (allDigits_replicate_zero 1) none (Or.inl (List.cons_ne_nil _ _))
      (by rintro power ⟨⟩) x.negative
  · rename_i nonzero
    exact exists_spells_decimal style (Binary64.shortest_coefficient_pos nonzero)
      ((Binary64.natAbs_leadingExponent_shortest_le nonzero x.finite).trans (by decide)) x.negative

end Json

/-! ## The double of a text -/

namespace Binary64

open Json (doubleStyle)

/-- The decimal that the text of a double spells, but for its sign. -/
def written (x : Binary64) : Decimal :=
  spelledDecimal ((x.withSign false).text doubleStyle)

theorem rounds_written (x : Binary64) : Rounds x.magnitude (halvesOf x.written.value) :=
  rounds_spelledValue doubleStyle x

theorem written_of_nonzero {x : Binary64} (nonzero : x.magnitude ≠ 0) :
    x.written = spelledDecimal ((shortest x.magnitude).text doubleStyle) := by
  rw [written, text_withSign_false, if_neg nonzero]

theorem written_of_zero {x : Binary64} (zero : x.magnitude = 0) : x.written = ⟨0, -1⟩ := by
  rw [written, text_withSign_false, if_pos zero]
  decide

/-- Seventeen digits are written at most. -/
theorem written_coefficient_le (x : Binary64) : x.written.coefficient ≤ 10 ^ 17 := by
  by_cases zero : x.magnitude = 0
  · rw [written_of_zero zero]
    exact Nat.zero_le _
  · rw [written_of_nonzero zero]
    refine (Decimal.coefficient_spelledDecimal_text_le doubleStyle
      (Decimal.digits_of_positive (shortest_coefficient_pos zero)).1).trans ?_
    exact max_le (shortest_coefficient_le zero) (by decide)

/-- The texts of the four greatest doubles are in range. -/
theorem isSome_scaled?_greatest : ∀ step : Fin 4,
    let spelled := spelledDecimal ((shortest (infinite - 4 + step)).text doubleStyle)
    (Json.Numeral.scaled? spelled.coefficient spelled.scale).isSome = true := by
  decide +kernel

/-- The text of a double is never out of range. -/
theorem exists_scaled?_written (x : Binary64) :
    ∃ y, Json.Numeral.scaled? x.written.coefficient x.written.scale = some y := by
  by_cases zero : x.magnitude = 0
  · rw [written_of_zero zero]
    exact Json.Numeral.exists_scaled?_zero _
  by_cases apart : x.magnitude + 4 < infinite
  · exact Json.Numeral.exists_scaled? (x.written_coefficient_le.trans (by decide))
      (le_of_rounds x.rounds_written apart)
  · have finite := x.finite
    have isGreatest := isSome_scaled?_greatest ⟨x.magnitude - (infinite - 4), by omega⟩
    have isMagnitude : infinite - 4 + (x.magnitude - (infinite - 4)) = x.magnitude := by omega
    rw [written_of_nonzero zero]
    dsimp only at isGreatest
    rw [isMagnitude] at isGreatest
    exact Option.isSome_iff_exists.mp isGreatest

end Binary64

namespace Json

/-- What is read from the text of a double is the double that its digits and its power
of ten make. -/
theorem isReadAs_double {x y : Binary64}
    (scaled : Numeral.scaled? x.written.coefficient x.written.scale = some y) :
    (Number.double x).IsReadAs (.double (y.withSign x.negative)) := by
  obtain ⟨spelled, isSign, spells⟩ := exists_spells_double doubleStyle x
  rw [Binary64.written, ← spells.decimal] at scaled
  have fits : spelled.numeral.decimal.coefficient ≤ Numeral.significandLimit := by
    rw [spells.decimal]
    exact x.written_coefficient_le.trans (by decide)
  refine ⟨spelled, ?_, ?_⟩
  · rw [NumeralSpelling.bytes, spells.bytes, isSign, Number.text,
      Binary64.text_eq doubleStyle x]
    split
    · rw [encode_ascii_cons (by decide)]
    · rfl
  · rw [← isSign]
    exact Numeral.number_eq_double spells.isMarked (Numeral.double_eq fits spells.small scaled)

/-- A number that is read from its text is what the text means. -/
theorem ofBytes_of_isReadAs {number found : Number} (isReadAs : number.IsReadAs found) :
    Value.ofBytes (encode number.text) = .ok (.number found) := by
  have read := @Value.ofBytes_write (fun _ => found) (.number number) (Nat.zero_le _)
    (fun other isOther => (List.mem_singleton.mp isOther).symm ▸ isReadAs) .compact []
  rwa [Blank.bytes, List.map_nil, List.append_nil] at read

end Json

namespace Binary64

open Json (doubleStyle)

/-- The double that is read from the text of a double.  Nothing else is ever read. -/
def reread (x : Binary64) : Binary64 :=
  match Json.Value.ofBytes (encode (x.text doubleStyle)) with
  | .ok (.number (.double y)) => y
  | _ => x

theorem reread_eq {x y : Binary64}
    (scaled : Json.Numeral.scaled? x.written.coefficient x.written.scale = some y) :
    x.reread = y.withSign x.negative := by
  have read := Json.ofBytes_of_isReadAs (Json.isReadAs_double scaled)
  rw [Json.Number.text] at read
  rw [reread, read]

/-- The text of a double is read as a double. -/
theorem isReadAs_reread (x : Binary64) :
    (Json.Number.double x).IsReadAs (.double x.reread) := by
  obtain ⟨y, scaled⟩ := x.exists_scaled?_written
  rw [reread_eq scaled]
  exact Json.isReadAs_double scaled

theorem ofBytes_text (x : Binary64) :
    Json.Value.ofBytes (encode (x.text doubleStyle)) = .ok (.number (.double x.reread)) := by
  have read := Json.ofBytes_of_isReadAs x.isReadAs_reread
  rwa [Json.Number.text] at read

/-- The sign is kept. -/
theorem negative_reread (x : Binary64) : x.reread.negative = x.negative := by
  obtain ⟨y, scaled⟩ := x.exists_scaled?_written
  rw [reread_eq scaled]
  rfl

/-- A double is read back if the digits of its text and the power of ten are doubles
that scaling takes without rounding. -/
theorem reread_eq_self {x : Binary64} {bits scale : Nat}
    (isScaled : x.written.coefficient = bits * 2 ^ scale) (fits : bits ≤ 2 * fractionCount)
    (few : x.written.scale.natAbs ≤ 22) : x.reread = x := by
  have small : x.written.coefficient < 2 ^ 1024 :=
    lt_two_pow_of_lt (x.written_coefficient_le.trans_lt (by decide : 10 ^ 17 < 2 ^ 57)) (by decide)
  rw [reread_eq (Json.Numeral.scaled?_exact isScaled fits small few x.finite x.rounds_written)]
  rfl

end Binary64

namespace Json

/-- The number that is read from the text of a number. -/
def Number.reread : Number → Number
  | integer value inRange => integer value inRange
  | double x => double x.reread

theorem Number.isReadAs_reread (number : Number) : number.IsReadAs number.reread := by
  cases number with
  | integer value inRange => exact isReadAs_integer value inRange
  | double x => exact x.isReadAs_reread

/-- The value with each number read again from its text. -/
def Value.reread (value : Value) : Value :=
  value.mapNumbers Number.reread

end Json

end Provenance
