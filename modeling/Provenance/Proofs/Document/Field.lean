import Mathlib
import Provenance.Document.Section
import Provenance.Proofs.Json.Writer

/-!
# What the conditions on fields mean

Each condition on a field is decided by a chain of views and tests.  Here it is
stated in terms of the JSON value that the field must be, and the test is shown
to decide that statement.  A field may be absent.
-/

namespace Provenance

open Json

namespace Json.Value

@[simp]
theorem record?_eq_some_iff {value : Value} {members : Record} :
    value.record? = some members ↔ value = object members := by
  cases value <;> simp [record?]

@[simp]
theorem items?_eq_some_iff {value : Value} {items : List Value} :
    value.items? = some items ↔ value = array items := by
  cases value <;> simp [items?]

@[simp]
theorem string?_eq_some_iff {value : Value} {text : String} :
    value.string? = some text ↔ value = string text := by
  cases value <;> simp [string?]

@[simp]
theorem double?_eq_some_iff {value : Value} {double : Binary64} :
    value.double? = some double ↔
      ∃ numeral, value = number numeral ∧ numeral.nearest? = some double := by
  cases value <;> simp [double?]

end Json.Value

namespace Binary64

/-- The number that a double stands for. -/
def toRat (x : Binary64) : ℚ :=
  (if x.negative then -1 else 1) * (x.units / unitsPerOne)

theorem toRat_of_negative {x : Binary64} (negative : x.negative = true) :
    x.toRat = -(x.units / unitsPerOne) := by
  rw [toRat, negative, if_pos rfl, neg_one_mul]

theorem toRat_of_not_negative {x : Binary64} (notNegative : x.negative = false) :
    x.toRat = x.units / unitsPerOne := by
  rw [toRat, notNegative, if_neg Bool.false_ne_true, one_mul]

theorem units_eq_zero_iff (x : Binary64) : x.units = 0 ↔ x.magnitude = 0 :=
  unitsOf_strictMono.injective.eq_iff' rfl

theorem isNonnegative_iff (x : Binary64) : x.isNonnegative = true ↔ 0 ≤ x.toRat := by
  have onePositive : (0 : ℚ) < unitsPerOne := Nat.cast_pos.mpr unitsPerOne_pos
  cases sign : x.negative with
  | false =>
      rw [toRat_of_not_negative sign, isNonnegative, sign]
      exact iff_of_true rfl (div_nonneg (Nat.cast_nonneg _) onePositive.le)
  | true =>
      rw [toRat_of_negative sign, isNonnegative, sign, Bool.not_true, Bool.false_or, beq_iff_eq,
        ← units_eq_zero_iff, neg_nonneg, div_le_iff₀ onePositive, zero_mul, Nat.cast_nonpos]

/-- Only the zeros share their value with another double. -/
theorem sameValue_iff {x : Binary64} (nonzero : x.magnitude ≠ 0) (y : Binary64) :
    x.sameValue y = true ↔ y = x := by
  rw [sameValue, Bool.and_eq_true, Bool.or_eq_true, beq_iff_eq, beq_iff_eq, beq_iff_eq]
  constructor
  · rintro ⟨sameMagnitude, sameSign | isZero⟩
    · rcases x with ⟨negative, magnitude, finite⟩
      obtain rfl : magnitude = y.magnitude := sameMagnitude
      obtain rfl : negative = y.negative := sameSign
      rfl
    · exact absurd isZero nonzero
  · rintro rfl
    exact ⟨rfl, Or.inl rfl⟩

end Binary64

namespace ContentHash

/-- The characters that digits are taken from. -/
def digitChars : List Char :=
  ['0', '1', '2', '3', '4', '5', '6', '7', '8', '9', 'a', 'b', 'c', 'd', 'e', 'f']

theorem isHexDigit_iff (char : Char) : isHexDigit char = true ↔ char ∈ digitChars := by
  have decimalDigits : ∀ value < 10, Char.ofNat (48 + value) ∈ digitChars := by
    decide
  have furtherDigits : ∀ value < 6, Char.ofNat (97 + value) ∈ digitChars := by
    decide
  have digitsPass : ∀ digit ∈ digitChars, isHexDigit digit = true :=
    List.all_eq_true.mp rfl
  constructor
  · intro isDigit
    simp only [isHexDigit, Bool.or_eq_true, Bool.and_eq_true, decide_eq_true_eq] at isDigit
    rcases isDigit with ⟨least, most⟩ | ⟨least, most⟩
    · have fromZero : 48 ≤ char.toNat := least
      have toNine : char.toNat ≤ 57 := most
      have listed := decimalDigits (char.toNat - 48) (by omega)
      rwa [Nat.add_sub_cancel' fromZero, Char.ofNat_toNat] at listed
    · have fromA : 97 ≤ char.toNat := least
      have toF : char.toNat ≤ 102 := most
      have listed := furtherDigits (char.toNat - 97) (by omega)
      rwa [Nat.add_sub_cancel' fromA, Char.ofNat_toNat] at listed
  · exact digitsPass char

/-- A well-formed hash is the tag and sixty-four digits. -/
theorem isWellFormed_iff (text : String) :
    isWellFormed text = true ↔
      ∃ digits : List Char, text = String.ofList (tag ++ digits) ∧ digits.length = 64 ∧
        ∀ digit ∈ digits, digit ∈ digitChars := by
  constructor
  · intro wellFormed
    simp only [isWellFormed, Bool.and_eq_true, beq_iff_eq, List.all_eq_true] at wellFormed
    rcases wellFormed with ⟨⟨tagged, counted⟩, digits⟩
    refine ⟨text.toList.drop tag.length, ?_, counted, ?_⟩
    · nth_rewrite 1 [← tagged]
      rw [List.take_append_drop, String.ofList_toList]
    · intro digit member
      exact (isHexDigit_iff digit).mp (digits digit member)
  · rintro ⟨digits, rfl, counted, areDigits⟩
    simp only [isWellFormed, String.toList_ofList, List.take_left, List.drop_left, counted,
      digitCount, beq_self_eq_true, Bool.true_and, List.all_eq_true]
    intro digit member
    exact (isHexDigit_iff digit).mpr (areDigits digit member)

end ContentHash

theorem Vocabulary.ofName?_isSome_iff {α : Type} [Vocabulary α] (text : String) :
    (ofName? text : Option α).isSome = true ↔ text ∈ names α := by
  simp [ofName?, names, List.find?_isSome]

/-- The search finds nothing if no item has a form that was seen before and no two items
are the same: what was seen are the forms of all items in front. -/
theorem hasDuplicatesFrom_eq_false_iff {seen : List (List UInt8)} {items : List Value} :
    hasDuplicatesFrom seen items = false ↔
      (∀ item ∈ items, item.canonicalBytes ∉ seen) ∧
        items.Pairwise fun first second => ¬ Value.Same first second := by
  induction items generalizing seen with
  | nil => simp [hasDuplicatesFrom]
  | cons item items ih =>
      rw [hasDuplicatesFrom, Bool.or_eq_false_iff, ih, List.contains_eq_mem,
        decide_eq_false_iff_not, List.forall_mem_cons, List.pairwise_cons]
      have apart : (∀ other ∈ items, other.canonicalBytes ∉ item.canonicalBytes :: seen) ↔
          (∀ other ∈ items, ¬ Value.Same item other) ∧
            ∀ other ∈ items, other.canonicalBytes ∉ seen := by
        simp only [List.mem_cons, not_or, ← Value.canonicalBytes_eq_iff, eq_comm, forall_and]
      rw [apart]
      constructor
      · rintro ⟨isNew, ⟨different, notSeen⟩, rest⟩
        exact ⟨⟨isNew, notSeen⟩, different, rest⟩
      · rintro ⟨⟨isNew, notSeen⟩, different, rest⟩
        exact ⟨isNew, ⟨different, notSeen⟩, rest⟩

theorem hasDuplicates_eq_false_iff {items : List Value} :
    hasDuplicates items = false ↔
      items.Pairwise fun first second => ¬ Value.Same first second := by
  simp [hasDuplicates, hasDuplicatesFrom_eq_false_iff]

/-! ## Fields -/

namespace Field

variable {field : Option Value}

/-- The field is a string of the given text. -/
def IsText (expected : String) (field : Option Value) : Prop :=
  field = some (.string expected)

/-- The field is a string of the tag and sixty-four lowercase hexadecimal digits. -/
def IsContentHash (field : Option Value) : Prop :=
  ∃ digits : List Char,
    field = some (.string (String.ofList ("sha256:".toList ++ digits))) ∧
      digits.length = 64 ∧ ∀ digit ∈ digits, digit ∈ "0123456789abcdef".toList

/-- The field is a number to which the given double is nearest. -/
def ReadsAs (double : Binary64) (field : Option Value) : Prop :=
  ∃ numeral, field = some (.number numeral) ∧ numeral.nearest? = some double

/-- The field is a number that reads as the double `0.21`. -/
def IsCanonicalEntropy (field : Option Value) : Prop :=
  ∃ double, Binary64.ofRatio? 21 100 = some double ∧ ReadsAs double field

/-- The field is a number that reads as a double of at least zero. -/
def IsNonnegative (field : Option Value) : Prop :=
  ∃ double, ReadsAs double field ∧ 0 ≤ double.toRat

/-- The field is the value true. -/
def IsTrue (field : Option Value) : Prop :=
  field = some (.bool true)

/-- The field is absent, null or false. -/
def IsUnsetOrFalse (field : Option Value) : Prop :=
  field = none ∨ field = some .null ∨ field = some (.bool false)

/-- The field is one of some strings. -/
def IsOneOf (names : List String) (field : Option Value) : Prop :=
  ∃ name ∈ names, field = some (.string name)

/-- The field is a list of at least one item in which no two items are the same. -/
def IsUniqueList (field : Option Value) : Prop :=
  ∃ items, field = some (.array items) ∧ items ≠ [] ∧
    items.Pairwise fun first second => ¬ Value.Same first second

/-- The field is a list of some strings. -/
def IsListOf (names : List String) (field : Option Value) : Prop :=
  ∃ items, field = some (.array items) ∧ ∀ item ∈ items, ∃ name ∈ names, item = .string name

/-- The field is an object. -/
def IsRecord (field : Option Value) : Prop :=
  ∃ members, field = some (.object members)

/-- The field is an object with a member that is literally true. -/
def HasTrue (key : String) (field : Option Value) : Prop :=
  ∃ members : Record, field = some (.object members) ∧ IsTrue (members.get? key)

theorem isText_iff (expected : String) : isText expected field = true ↔ IsText expected field := by
  simp [isText, IsText, Option.bind_eq_some_iff]

theorem isContentHash_iff : isContentHash field = true ↔ IsContentHash field := by
  simp only [isContentHash, Option.any_eq_true, Option.bind_eq_some_iff,
    Value.string?_eq_some_iff, ContentHash.isWellFormed_iff]
  constructor
  · rintro ⟨_, ⟨_, isField, rfl⟩, digits, rfl, counted, areDigits⟩
    exact ⟨digits, isField, counted, areDigits⟩
  · rintro ⟨digits, isField, counted, areDigits⟩
    exact ⟨_, ⟨_, isField, rfl⟩, digits, rfl, counted, areDigits⟩

private theorem double?_any_iff (test : Binary64 → Bool) :
    (field.bind Value.double?).any test = true ↔
      ∃ double, ReadsAs double field ∧ test double = true := by
  simp only [Option.any_eq_true, Option.bind_eq_some_iff, Value.double?_eq_some_iff, ReadsAs]
  constructor
  · rintro ⟨double, ⟨_, isField, numeral, rfl, nearest⟩, passes⟩
    exact ⟨double, ⟨numeral, isField, nearest⟩, passes⟩
  · rintro ⟨double, ⟨numeral, isField, nearest⟩, passes⟩
    exact ⟨double, ⟨_, isField, numeral, rfl, nearest⟩, passes⟩

theorem isCanonicalEntropy_iff : isCanonicalEntropy field = true ↔ IsCanonicalEntropy field := by
  have onlyItself := Binary64.sameValue_iff (show canonicalEntropy.magnitude ≠ 0 by decide)
  rw [isCanonicalEntropy, double?_any_iff, IsCanonicalEntropy, ofRatio?_canonicalEntropy]
  constructor
  · rintro ⟨double, reads, same⟩
    exact ⟨double, congrArg some ((onlyItself double).mp same).symm, reads⟩
  · rintro ⟨double, isEntropy, reads⟩
    exact ⟨double, reads, (onlyItself double).mpr (Option.some.inj isEntropy).symm⟩

theorem isNonnegative_iff : isNonnegative field = true ↔ IsNonnegative field := by
  simp only [isNonnegative, double?_any_iff, IsNonnegative, Binary64.isNonnegative_iff]

theorem isTrue_iff : isTrue field = true ↔ IsTrue field := by
  unfold isTrue IsTrue
  split <;> simp_all

theorem isUnsetOrFalse_iff : isUnsetOrFalse field = true ↔ IsUnsetOrFalse field := by
  unfold isUnsetOrFalse IsUnsetOrFalse
  split <;> simp_all

theorem isNamed_iff (α : Type) [Vocabulary α] :
    isNamed α field = true ↔ IsOneOf (Vocabulary.names α) field := by
  rw [isNamed, Option.isSome_bind, Option.any_eq_true]
  simp only [Vocabulary.ofName?_isSome_iff, Option.bind_eq_some_iff, Value.string?_eq_some_iff]
  constructor
  · rintro ⟨name, ⟨_, isField, rfl⟩, isName⟩
    exact ⟨name, isName, isField⟩
  · rintro ⟨name, isName, isField⟩
    exact ⟨name, ⟨_, isField, rfl⟩, isName⟩

theorem isUniqueList_iff : isUniqueList field = true ↔ IsUniqueList field := by
  unfold isUniqueList IsUniqueList
  split
  · rename_i items isItems
    simp only [Option.bind_eq_some_iff, Value.items?_eq_some_iff] at isItems
    rcases isItems with ⟨_, rfl, rfl⟩
    simp [hasDuplicates_eq_false_iff]
  · rename_i noItems
    constructor
    · intro
      contradiction
    · rintro ⟨items, rfl, _⟩
      simp [Value.items?] at noItems

theorem isInvariantList_iff :
    isInvariantList field = true ↔ IsListOf (Vocabulary.names Invariant) field := by
  simp only [isInvariantList, Option.any_eq_true, Option.bind_eq_some_iff,
    Value.items?_eq_some_iff, List.all_eq_true, isNamed_iff, IsOneOf, Option.some.injEq]
  constructor
  · rintro ⟨items, ⟨_, isField, rfl⟩, named⟩
    exact ⟨items, isField, named⟩
  · rintro ⟨items, isField, named⟩
    exact ⟨items, ⟨_, isField, rfl⟩, named⟩

/-- The names are looked at in a list without repetition only. -/
theorem isInvariantListIfUnique_iff :
    (!isUniqueList field || isInvariantList field) = true ↔
      (IsUniqueList field → IsListOf (Vocabulary.names Invariant) field) := by
  rw [Bool.or_eq_true, Bool.not_eq_true', ← Bool.not_eq_true, isUniqueList_iff,
    isInvariantList_iff, ← imp_iff_not_or]

theorem isRecord_iff : isRecord field = true ↔ IsRecord field := by
  simp [isRecord, IsRecord, Option.isSome_iff_exists, Option.bind_eq_some_iff]

theorem hasTrue_iff (key : String) : hasTrue key field = true ↔ HasTrue key field := by
  simp only [hasTrue, HasTrue, isTrue_iff, IsTrue, Value.get?, Option.bind_eq_some_iff,
    Value.record?_eq_some_iff]
  constructor
  · rintro ⟨_, isField, members, rfl, isTrue⟩
    exact ⟨members, isField, isTrue⟩
  · rintro ⟨members, isField, isTrue⟩
    exact ⟨_, isField, members, rfl, isTrue⟩

end Field

end Provenance
