import Mathlib
import Provenance.Proofs.Json.Acceptance
import Provenance.Proofs.Json.Accuracy
import Provenance.Proofs.Json.Position
import Provenance.Proofs.Verdict.Predicates

/-!
# The literal of the entropy

The entropy of a source is compared as a double, while a document spells it as a
literal.  Every spelling of the number `21/100` is read as the same double, however its
digits and its exponent are arranged (`number_of_value_eq`).  No number further than
`10^-16` from it is read as this double (`abs_sub_lt_of_number`), since reading changes a
number of this size by less.
-/

namespace Provenance

open Json Binary64

theorem rounds_canonicalEntropy :
    Rounds canonicalEntropy.magnitude (halvesOf (21 / 100)) := by
  have nearest : IsNearest (ofRatio? 21 100) (21 / 100) := by
    apply isNearest_nearest? (by decide)
    push_cast
    ring
  rw [ofRatio?_canonicalEntropy] at nearest
  exact nearest.of_some.2

theorem near_canonicalEntropy : Near 1 canonicalEntropy.size (21 / 100) :=
  near_of_rounds rounds_canonicalEntropy (by decide)

theorem notSmall_canonicalEntropy : 1 / 10 ≤ canonicalEntropy.size := by
  have least := near_canonicalEntropy.right
  norm_num [step] at least ⊢
  linarith only [least]

theorem canonicalEntropy_size_lt_one : canonicalEntropy.size < 1 := by
  have most := near_canonicalEntropy.left
  norm_num [step] at most ⊢
  linarith only [most]

namespace Json

/-- A number of few digits can be moved by zeros only. -/
theorem exists_zeros {coefficient digits : Nat} {scale power : ℤ} (noZero : ¬ 10 ∣ digits)
    (same : (coefficient : ℚ) * 10 ^ scale = digits * 10 ^ power) :
    ∃ zeros : Nat, coefficient = digits * 10 ^ zeros ∧ scale = power - zeros := by
  have moved : (coefficient : ℚ) * 10 ^ (scale - power) = digits := by
    rw [zpow_sub₀ (by norm_num), mul_div_assoc', same, mul_div_assoc,
      div_self (zpow_ne_zero _ (by norm_num)), mul_one]
  rcases le_or_gt scale power with within | beyond
  · obtain ⟨zeros, isZeros⟩ := Int.eq_ofNat_of_zero_le (sub_nonneg.mpr within)
    refine ⟨zeros, ?_, by omega⟩
    rw [← neg_sub, isZeros, zpow_neg, zpow_natCast, mul_inv_eq_iff_eq_mul₀ (by positivity)] at moved
    exact_mod_cast moved
  · obtain ⟨more, isMore⟩ := Int.eq_ofNat_of_zero_le (sub_pos.mpr beyond).le
    rw [isMore, zpow_natCast] at moved
    have divides : coefficient * 10 ^ more = digits := by exact_mod_cast moved
    have tenth : 10 ∣ 10 ^ more := dvd_pow_self 10 (by omega)
    exact absurd (divides ▸ Dvd.dvd.mul_left tenth coefficient) noZero

namespace Numeral

variable {numeral : Numeral}

theorem digits_of_value_eq (isValue : numeral.decimal.value = 21 / 100) :
    (numeral.decimal.coefficient : ℚ) * 10 ^ numeral.decimal.scale =
      (21 : Nat) * 10 ^ (-2 : ℤ) := by
  rw [← Decimal.value, isValue]
  norm_num

/-- The significand of a numeral that denotes `21/100` is scaled with one rounding. -/
theorem scaled?_of_value_eq (areDigits : numeral.AreDigits)
    (isValue : numeral.decimal.value = 21 / 100) :
    scaled? numeral.significand.value (numeral.significand.power +
      (numeral.exponent.map Exponent.value).getD 0) = some canonicalEntropy := by
  have digits := digits_of_value_eq isValue
  obtain ⟨zeros, isMultiple, -⟩ := exists_zeros (by decide) digits
  obtain ⟨unread, isPower, exact⟩ := significand_exact areDigits isMultiple (by decide)
  have taken : (numeral.significand.value : ℚ) * 10 ^ (unread + numeral.decimal.scale) =
      (21 : Nat) * 10 ^ (-2 : ℤ) := by
    rw [← digits, ← exact, zpow_add₀ (by norm_num), zpow_natCast]
    push_cast
    ring
  obtain ⟨few, isFew, powerEq⟩ := exists_zeros (by decide) taken
  have small : few ≤ 17 := by
    by_contra many
    have fits := numeral.significand_value_le
    have least : 21 * 10 ^ 18 ≤ 21 * 10 ^ few :=
      Nat.mul_le_mul_left _ (Nat.pow_le_pow_right (by decide) (by omega))
    rw [isFew, significandLimit] at fits
    omega
  have value : numeral.significand.value = 21 * 5 ^ few * 2 ^ few := by
    rw [isFew, Nat.mul_assoc, ← Nat.mul_pow]
  have bits : 21 * 5 ^ few ≤ 2 * fractionCount :=
    (Nat.mul_le_mul_left 21 (Nat.pow_le_pow_right (by decide) small)).trans (by decide)
  have finite : numeral.significand.value < 2 ^ 1024 :=
    lt_two_pow_of_lt (numeral.significand_value_le.trans_lt
      (by decide : significandLimit < 2 ^ 64)) (by decide)
  have rounds : Rounds canonicalEntropy.magnitude
      (halvesOf (numeral.significand.value * 10 ^ (unread + numeral.decimal.scale))) := by
    rw [taken]
    norm_num
    exact rounds_canonicalEntropy
  rw [power_add_exponent isPower]
  exact scaled?_exact value bits finite (by omega) canonicalEntropy.finite rounds

/-- A numeral that denotes `21/100` has no sign. -/
theorem decimal_of_value_eq (isValue : numeral.value = 21 / 100) :
    numeral.negative = false ∧ numeral.decimal.value = 21 / 100 := by
  rw [value] at isValue
  cases negative : numeral.negative with
  | false => exact ⟨rfl, by rwa [negative] at isValue⟩
  | true =>
      rw [negative, if_pos rfl] at isValue
      have nonneg := numeral.decimal_value_nonneg
      linarith only [isValue, nonneg]

/-- The exponent only makes up for the point and for zeros, so it is no greater than the
numeral is long. -/
theorem exponent_of_value_eq (areDigits : numeral.AreDigits)
    (isValue : numeral.decimal.value = 21 / 100) :
    (numeral.fraction ≠ [] ∨ numeral.exponent ≠ none) ∧
      ∀ exponent ∈ numeral.exponent,
        digitsOnto 0 exponent.digits ≤ numeral.whole.length + numeral.fraction.length := by
  obtain ⟨zeros, isMultiple, isScale⟩ :=
    exists_zeros (by decide) (digits_of_value_eq isValue)
  have few : zeros + 1 < numeral.whole.length + numeral.fraction.length := by
    have bounded := digitsOnto_lt areDigits
    rw [List.length_append] at bounded
    have least : 10 ^ (zeros + 1) ≤ numeral.decimal.coefficient := by
      rw [isMultiple, pow_succ']
      exact Nat.mul_le_mul_right _ (by decide)
    exact (Nat.pow_lt_pow_iff_right (by decide)).mp (least.trans_lt bounded)
  constructor
  · by_contra unmarked
    rw [not_or, not_not, not_not] at unmarked
    rw [decimal, unmarked.1, unmarked.2] at isScale
    simp at isScale
    omega
  · intro exponent isExponent
    rw [decimal, Option.mem_def.mp isExponent, Option.map_some, Option.getD_some,
      Exponent.value] at isScale
    dsimp only at isScale
    split at isScale
    · omega
    · omega

/-- However `21/100` is written, it is read as the canonical double. -/
theorem number_of_value_eq (areDigits : numeral.AreDigits) (isValue : numeral.value = 21 / 100)
    (short : numeral.whole.length + numeral.fraction.length ≤ exponentLimit) :
    numeral.number = .ok (.double canonicalEntropy) := by
  rcases decimal_of_value_eq isValue with ⟨notNegative, isDecimal⟩
  rcases exponent_of_value_eq areDigits isDecimal with ⟨marked, small⟩
  have isDouble := double_of_scaled?
    (fun exponent isExponent => (small exponent isExponent).trans short)
    (scaled?_of_value_eq areDigits isDecimal)
  rw [notNegative] at isDouble
  exact number_eq_double marked isDouble

/-- An integer is not read as the canonical double. -/
theorem nearest?_integer_ne (value : ℤ)
    (inRange : -0x8000000000000000 ≤ value ∧ value < 0x10000000000000000) :
    (Number.integer value inRange).nearest? ≠ some canonicalEntropy := by
  intro isEntropy
  obtain ⟨x, isInteger, isSigned⟩ := Option.map_eq_some_iff.mp isEntropy
  have sameMagnitude : x.magnitude = canonicalEntropy.magnitude := by
    rw [← isSigned]
    rfl
  have nearest := isNearest_ofNat? value.natAbs
  rw [isInteger] at nearest
  have rounds := nearest.of_some.2
  rcases Nat.eq_zero_or_pos value.natAbs with isZero | positive
  · rw [isZero, Nat.cast_zero] at rounds
    rw [magnitude_eq_zero_of_rounds rounds] at sameMagnitude
    exact absurd sameMagnitude (by decide)
  · have least := one_le_size rounds (Nat.one_le_cast.mpr positive)
    have order := least.trans (size_mono sameMagnitude.le)
    exact absurd order (not_le.mpr canonicalEntropy_size_lt_one)

/-- What is read as the canonical double is less than `10^-16` away from `21/100`. -/
theorem abs_sub_lt_of_number (areDigits : numeral.AreDigits) {number : Number}
    (isNumber : numeral.number = .ok number)
    (isEntropy : number.nearest? = some canonicalEntropy) :
    |numeral.value - 21 / 100| < 1 / 10 ^ 16 := by
  cases number with
  | integer value inRange => exact absurd isEntropy (nearest?_integer_ne value inRange)
  | double x =>
      obtain rfl : x = canonicalEntropy := Option.some.inj isEntropy
      have isDouble := double_of_number isNumber
      obtain ⟨taken, near, apart⟩ := exists_near_double areDigits isDouble notSmall_canonicalEntropy
      obtain ⟨y, -, isSigned⟩ := exists_scaled?_of_double isDouble (absurd · (by decide))
      have notNegative : numeral.negative = false := congrArg Binary64.negative isSigned.symm
      have total := near.symm.trans near_canonicalEntropy
      have left := total.left
      have right := total.right
      rw [value, notNegative, if_neg Bool.false_ne_true]
      rw [← le_div_iff₀ (by norm_num), abs_le] at apart
      norm_num [step] at left right apart ⊢
      rw [abs_lt]
      constructor
      · linarith only [left, right, apart.1, apart.2]
      · linarith only [left, right, apart.1, apart.2]

end Numeral

namespace NumeralSpelling

/-- A literal of `21/100` is read as the canonical double. -/
theorem number_of_value_eq (literal : NumeralSpelling) (isValue : literal.value = 21 / 100)
    (short : literal.bytes.length < 2 ^ 31) :
    literal.numeral.number = .ok (.double canonicalEntropy) := by
  have limited : literal.bytes.length ≤ Numeral.exponentLimit := Nat.le_of_lt_succ short
  exact Numeral.number_of_value_eq literal.areDigits isValue
    (literal.length_le_length_bytes.trans limited)

end NumeralSpelling

end Json

/-! ## Documents -/

/-- The literal that counts as the entropy of the source of a text. -/
def Json.WholeText.entropy? (text : WholeText) : Option NumeralSpelling :=
  match (text.content.under? "source").bind (Spelling.under? "entropy") with
  | some (.number literal) => some literal
  | _ => none

/-- A document declares what its text says last. -/
theorem exists_entropy_of_text {text : WholeText} {document : Value}
    (accepted : documentOfBytes text.bytes = .ok document) {literal : NumeralSpelling}
    (isEntropy : text.entropy? = some literal) :
    ∃ source number, HasSection document "source" source ∧
      literal.numeral.number = .ok number ∧
      source.get? "entropy" = some (.number number) := by
  have means := documentOfBytes_text_iff.mp accepted
  have spelled : (text.content.under? "source").bind (Spelling.under? "entropy") =
      some (.number literal) := by
    rw [WholeText.entropy?] at isEntropy
    split at isEntropy
    · rename_i found isFound
      rw [isFound, Option.some.inj isEntropy]
    · contradiction
  obtain ⟨inner, isSource, isNumber⟩ := Option.bind_eq_some_iff.mp spelled
  obtain ⟨root, levels, source, rfl, sourceMeans, found⟩ := Spelling.get?_of_under? means isSource
  obtain ⟨members, levels, value, rfl, numberMeans, declared⟩ :=
    Spelling.get?_of_under? sourceMeans isNumber
  rw [Spelling.value?, Option.map_eq_some_iff] at numberMeans
  obtain ⟨number, isRead, rfl⟩ := numberMeans
  exact ⟨members, number, .inl found, toOption_eq_some_iff.mp isRead, declared⟩

theorem entropyValid_iff_nearest? {document : Value} {source : Record} {number : Number}
    (isSection : HasSection document "source" source)
    (declared : source.get? "entropy" = some (.number number)) :
    (verify document).entropyValid = true ↔ number.nearest? = some canonicalEntropy := by
  rw [entropyValid_verify, Sections.entropyValid_iff]
  constructor
  · rintro ⟨other, isOther, double, isEntropy, read, isRead, isNearest⟩
    rw [isOther.unique isSection, declared] at isRead
    obtain rfl := Value.number.inj (Option.some.inj isRead)
    rw [ofRatio?_canonicalEntropy] at isEntropy
    rwa [← isEntropy] at isNearest
  · intro isNearest
    exact ⟨source, isSection, canonicalEntropy, ofRatio?_canonicalEntropy, number, declared,
      isNearest⟩

/-- The entropy is pinned to one number over every literal.  A literal of `21/100`, of less
than `2^31` characters, is read as the canonical double however it is spelled, and a
document whose source declares it has a valid entropy and no error about it.  A literal of
a number that is `10^-16` away or further makes the entropy invalid and an error, and no
document with it passes. -/
theorem verify_entropy_literal (literal : NumeralSpelling) :
    (literal.value = 21 / 100 → literal.bytes.length < 2 ^ 31 →
      Value.ofBytes literal.bytes = .ok (.number (.double canonicalEntropy))) ∧
    ∀ (text : WholeText) (document : Value), documentOfBytes text.bytes = .ok document →
      text.entropy? = some literal →
        (literal.value = 21 / 100 → literal.bytes.length < 2 ^ 31 →
          (verify document).entropyValid = true ∧
            "source.entropy must equal 0.21" ∉ (verify document).errors) ∧
        (1 / 10 ^ 16 ≤ |literal.value - 21 / 100| →
          (verify document).entropyValid = false ∧
            "source.entropy must equal 0.21" ∈ (verify document).errors ∧
            (verify document).passed = false) := by
  constructor
  · intro isValue short
    rw [Value.ofBytes_eq_ok_iff]
    refine ⟨⟨[], .number literal, []⟩, by simp [WholeText.bytes, Spelling.bytes, Blank.bytes], ?_⟩
    rw [Spelling.value?, literal.number_of_value_eq isValue short]
    rfl
  · intro text document accepted isEntropy
    obtain ⟨source, number, isSection, isNumber, declared⟩ :=
      exists_entropy_of_text accepted isEntropy
    have valid := entropyValid_iff_nearest? isSection declared
    have message := entropyValid_iff_message document
    constructor
    · intro isValue short
      have isRead := literal.number_of_value_eq isValue short
      obtain rfl := Except.ok.inj (isNumber.symm.trans isRead)
      exact ⟨valid.mpr rfl, (message.mp (valid.mpr rfl)).2⟩
    · intro apart
      have invalid : (verify document).entropyValid ≠ true := fun isValid =>
        absurd (Numeral.abs_sub_lt_of_number literal.areDigits isNumber (valid.mp isValid))
          (not_lt.mpr apart)
      have isRecord := exists_hasSection_iff.mp ⟨source, isSection⟩
      refine ⟨Bool.eq_false_of_not_eq_true invalid, ?_, ?_⟩
      · by_contra noMessage
        exact invalid (message.mpr ⟨isRecord, noMessage⟩)
      · rw [Bool.eq_false_iff]
        exact fun passed => invalid ((passed_iff document).mp passed).1

/-- The shortest document with a literal as its entropy. -/
def Json.WholeText.ofEntropy (literal : NumeralSpelling) : WholeText :=
  let source := Spelling.plainObject [(.plain "entropy", .number literal)]
  ⟨[], .plainObject [(.plain "source", source)], []⟩

/-- `2100000000000000000000E-22` is read like `0.21`, and `0.2100000000000001` is refused. -/
theorem verify_entropy_literal_instances :
    let long : NumeralSpelling :=
      { negative := false
        whole := .positive 2 (by decide) (1 :: List.replicate 20 0)
        fraction := []
        exponent := some { uppercase := true, sign := .minus, first := 2, others := [2] } }
    let close : NumeralSpelling :=
      { negative := false, whole := .zero
        fraction := 2 :: 1 :: List.replicate 13 0 ++ [1], exponent := none }
    long.value = 21 / 100 ∧ long.bytes.length < 2 ^ 31 ∧
      1 / 10 ^ 16 ≤ |close.value - 21 / 100| ∧
      Value.ofBytes long.bytes = .ok (.number (.double canonicalEntropy)) ∧
      ∃ document other, documentOfBytes (WholeText.ofEntropy long).bytes = .ok document ∧
        documentOfBytes (WholeText.ofEntropy close).bytes = .ok other ∧
        (verify document).entropyValid = true ∧ (verify other).entropyValid = false := by
  intro long close
  have isValue : long.value = 21 / 100 := by
    have isDecimal : long.numeral.decimal = ⟨21 * 10 ^ 20, -22⟩ := by decide
    change long.numeral.decimal.value = 21 / 100
    rw [isDecimal, Decimal.value]
    norm_num
  have short : long.bytes.length < 2 ^ 31 := by decide
  have apart : 1 / 10 ^ 16 ≤ |close.value - 21 / 100| := by
    have isDecimal : close.numeral.decimal = ⟨2100000000000001, -16⟩ := by decide
    change 1 / 10 ^ 16 ≤ |close.numeral.decimal.value - 21 / 100|
    rw [isDecimal, Decimal.value]
    norm_num
  have converts : close.Converts := by
    have isRead : close.numeral.number.toOption.isSome = true := by decide +kernel
    obtain ⟨number, isNumber⟩ := Option.isSome_iff_exists.mp isRead
    exact ⟨number, toOption_eq_some_iff.mp isNumber⟩
  have isText (literal : NumeralSpelling) (converts : literal.Converts) :
      ∃ document, documentOfBytes (WholeText.ofEntropy literal).bytes = .ok document := by
    rw [exists_documentOfBytes_iff, isDocumentText_bytes_iff]
    exact ⟨show 2 ≤ nestingLimit by decide, List.forall_mem_singleton.mpr converts⟩
  have isRead := long.number_of_value_eq isValue short
  obtain ⟨document, accepted⟩ := isText long ⟨_, isRead⟩
  obtain ⟨other, otherAccepted⟩ := isText close converts
  rcases verify_entropy_literal long with ⟨literal, documents⟩
  have valid := (documents _ document accepted rfl).1 isValue short
  have invalid := ((verify_entropy_literal close).2 _ other otherAccepted rfl).2 apart
  exact ⟨isValue, short, apart, literal isValue short, document, other, accepted, otherAccepted,
    valid.1, invalid.1⟩

end Provenance
