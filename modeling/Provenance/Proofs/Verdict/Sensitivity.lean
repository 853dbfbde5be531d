import Mathlib
import Provenance.Proofs.Document.Scan
import Provenance.Proofs.Json.Acceptance
import Provenance.Proofs.Json.Integers
import Provenance.Proofs.Json.Position

/-!
# What the hash of a projection tells apart

Replacing something inside the styling of a document changes the canonical bytes of its
projection key exactly if its value changes (`exists_key_of_replaced`).  An integer
literal has a number as its value, and numbers have sixty-four bits: integers that fit
are told apart from all others, while of greater ones those that are read as one double
are not (`canonicalBytes_integer_literals`, `canonicalBytes_integer_literals_merged`).
-/

namespace Provenance

open Json Binary64

/-- If two documents differ in the styling of the projection alone, so do their keys. -/
theorem Sections.projectionKey?_agreeBut {root changed projection other : Record}
    {styling changedStyling : Value}
    (agree : Record.AgreeBut "projection" (.object projection) (.object other) root changed)
    (within : Record.AgreeBut "styling" styling changedStyling projection other)
    {key : ProjectionKey} (isKey : (ofDocument (.object root)).projectionKey? = some key) :
    key.styling = styling ∧ (ofDocument (.object changed)).projectionKey? =
      some { key with styling := changedStyling } := by
  have sameSource : (ofDocument (.object changed)).source = (ofDocument (.object root)).source := by
    change read changed .source = read root .source
    rw [read, read, agree.elsewhere Section.source.key (by decide)]
  have isProjection : (ofDocument (.object root)).projection = some projection :=
    (@get_ofDocument_eq_some_iff _ .projection _).mpr (.inl agree.isValue)
  have isOther : (ofDocument (.object changed)).projection = some other :=
    (@get_ofDocument_eq_some_iff _ .projection _).mpr (.inl agree.isOther)
  obtain ⟨source, found, hash, isSource, isFound, isHash, isParts⟩ :=
    projectionKey?_eq_some_iff.mp isKey
  obtain rfl := Option.some.inj (isProjection.symm.trans isFound)
  obtain ⟨rfl, isMode, isLayout, isStyling⟩ := ProjectionKey.ofProjection?_eq_some.mp isParts
  constructor
  · exact Option.some.inj (isStyling.symm.trans within.isValue)
  · rw [within.elsewhere "mode" (by decide)] at isMode
    rw [within.elsewhere "layout" (by decide)] at isLayout
    exact projectionKey?_eq_some_iff.mpr ⟨source, other, _, sameSource.trans isSource, isOther,
      isHash, ProjectionKey.ofProjection?_eq_some.mpr ⟨rfl, isMode, isLayout, within.isOther⟩⟩

/-- Keys that differ in their styling at most have equal canonical bytes exactly if the
stylings are the same. -/
theorem ProjectionKey.canonicalBytes_styling_iff (key : ProjectionKey) (styling : Value) :
    key.toValue.canonicalBytes =
        ({ key with styling := styling } : ProjectionKey).toValue.canonicalBytes ↔
      Value.Same key.styling styling := by
  rw [Value.canonicalBytes_eq_iff, toValue_same_iff]
  constructor
  · exact fun same => same.2.2.2
  · exact fun same => ⟨.refl _, .refl _, .refl _, same⟩

/-- What stands inside the styling may be replaced: the other document has a key that
differs in its styling at most, and the canonical bytes are equal exactly if what stands
there has the same value. -/
theorem exists_key_of_replaced {text other : WholeText} {inner otherInner : Spelling}
    {path : List Spelling.Step}
    (replaced : Spelling.Replaced inner otherInner (.key "projection" :: .key "styling" :: path)
      text.content other.content)
    {document changed : Value} (accepted : documentOfBytes text.bytes = .ok document)
    (acceptedToo : documentOfBytes other.bytes = .ok changed) {key : ProjectionKey}
    (isKey : (Sections.ofDocument document).projectionKey? = some key) :
    ∃ (styling : Value) (levels : Nat) (value otherValue : Value),
      (Sections.ofDocument changed).projectionKey? = some { key with styling := styling } ∧
        inner.value? levels = some value ∧ otherInner.value? levels = some otherValue ∧
        (key.toValue.canonicalBytes =
            ({ key with styling := styling } : ProjectionKey).toValue.canonicalBytes ↔
          Value.Same value otherValue) := by
  obtain ⟨levels, projection, otherProjection, _, _, root, otherRoot, rfl, rfl, agree, means,
    meansToo, replaced⟩ := replaced.of_key (documentOfBytes_text_iff.mp accepted)
      (documentOfBytes_text_iff.mp acceptedToo)
  obtain ⟨levels, within, otherWithin, styling, otherStyling, members, otherMembers, rfl, rfl,
    agreeWithin, means, meansToo, replaced⟩ := replaced.of_key means meansToo
  obtain ⟨innerLevels, value, otherValue, isValue, isOther, sameStyling⟩ :=
    replaced.same_iff means meansToo
  rcases Sections.projectionKey?_agreeBut agree agreeWithin isKey with ⟨rfl, isOtherKey⟩
  refine ⟨otherStyling, innerLevels, value, otherValue, isOtherKey, isValue, isOther, ?_⟩
  rw [ProjectionKey.canonicalBytes_styling_iff, sameStyling]

theorem same_number_iff {number other : Number} :
    Value.Same (.number number) (.number other) ↔ number = other := by
  constructor
  · rintro ⟨⟩
    rfl
  · rintro rfl
    exact .number number

/-! ## Integer literals -/

/-- Different integer literals at one position inside the styling of otherwise equal
documents.  The other document has a key that differs in its styling at most.  The keys
have equal canonical bytes exactly if both literals are read as one double, and equal
hashes exactly then or if there is a collision of the digest.  So the canonical bytes
differ if one of the integers fits sixty-four bits, and also if the integers are further
apart than a `2^50`th part of the greater one. -/
theorem canonicalBytes_integer_literals {text other : WholeText} {first second : NumeralSpelling}
    {path : List Spelling.Step}
    (replaced : Spelling.Replaced (.number first) (.number second)
      (.key "projection" :: .key "styling" :: path) text.content other.content)
    (isInteger : first.numeral.IsInteger) (isIntegerToo : second.numeral.IsInteger)
    (different : first.numeral.integer ≠ second.numeral.integer) {document changed : Value}
    (accepted : documentOfBytes text.bytes = .ok document)
    (acceptedToo : documentOfBytes other.bytes = .ok changed) {key : ProjectionKey}
    (isKey : (Sections.ofDocument document).projectionKey? = some key) :
    ∃ styling : Value, let otherKey : ProjectionKey := { key with styling := styling }
      (Sections.ofDocument changed).projectionKey? = some otherKey ∧
        (key.toValue.canonicalBytes = otherKey.toValue.canonicalBytes ↔
          ∃ x, first.numeral.number = .ok (.double x) ∧
            second.numeral.number = .ok (.double x)) ∧
        (key.hash = otherKey.hash ↔
          key.toValue.canonicalBytes = otherKey.toValue.canonicalBytes ∨
            Hash.Sha256.IsCollision key.toValue.canonicalBytes
              otherKey.toValue.canonicalBytes) ∧
        (first.numeral.FitsWord ∨ second.numeral.FitsWord →
          key.toValue.canonicalBytes ≠ otherKey.toValue.canonicalBytes) ∧
        (max |first.numeral.integer| |second.numeral.integer| <
            2 ^ 50 * |first.numeral.integer - second.numeral.integer| →
          key.toValue.canonicalBytes ≠ otherKey.toValue.canonicalBytes) := by
  obtain ⟨styling, levels, _, _, isOtherKey, isValue, isOther, sameBytes⟩ :=
    exists_key_of_replaced replaced accepted acceptedToo isKey
  obtain ⟨number, isNumber, rfl⟩ := Option.map_eq_some_iff.mp isValue
  obtain ⟨otherNumber, isOtherNumber, rfl⟩ := Option.map_eq_some_iff.mp isOther
  rw [toOption_eq_some_iff] at isNumber isOtherNumber
  rw [same_number_iff] at sameBytes
  refine ⟨styling, isOtherKey, ?_, ContentHash.ofBytes_eq_iff_or_isCollision, ?_, ?_⟩
  · rw [sameBytes]
    exact Numeral.number_eq_iff isInteger isIntegerToo different isNumber isOtherNumber
  · rintro (fits | fits) equal
    · exact Numeral.number_ne_of_fits isInteger isIntegerToo different first.areDigits
        second.areDigits fits isNumber isOtherNumber (sameBytes.mp equal)
    · exact Numeral.number_ne_of_fits isIntegerToo isInteger different.symm second.areDigits
        first.areDigits fits isOtherNumber isNumber (sameBytes.mp equal).symm
  · intro apart equal
    exact Numeral.number_ne_of_apart isInteger isIntegerToo different first.areDigits
      second.areDigits apart isNumber isOtherNumber (sameBytes.mp equal)

/-- The shortest document with a projection key and a declared hash, and with a width in
its styling. -/
def Json.WholeText.ofWidth (width : NumeralSpelling) (declared : TextSpelling) : WholeText :=
  let styling := Spelling.plainObject [(.plain "width", .number width)]
  let projection := Spelling.plainObject
    [(.plain "layout", .null), (.plain "mode", .null), (.plain "styling", styling)]
  let replay := Spelling.plainObject [(.plain "hash_projection", .string declared)]
  let source := Spelling.plainObject [(.plain "collapse_result_hash", .null)]
  ⟨[], .plainObject [(.plain "projection", projection), (.plain "replay", replay),
    (.plain "source", source)], []⟩

/-- The document that such a text is read as. -/
def ofWidth (width : Number) (declared : String) : Value :=
  .object
    [("projection", .object [("layout", .null), ("mode", .null),
        ("styling", .object [("width", .number width)])]),
      ("replay", .object [("hash_projection", .string declared)]),
      ("source", .object [("collapse_result_hash", .null)])]

theorem documentOfBytes_ofWidth {literal : NumeralSpelling} {width : Number}
    (isRead : literal.numeral.number = .ok width) (declared : TextSpelling) :
    documentOfBytes (WholeText.ofWidth literal declared).bytes =
      .ok (ofWidth width declared.text) := by
  rw [documentOfBytes_text_iff]
  simp only [WholeText.ofWidth, Spelling.plainObject, List.map_cons, List.map_nil, nestingLimit,
    Spelling.value?, Spelling.members?, isRead, Except.toOption, Option.map_some,
    Option.bind_eq_bind, Option.bind_some, Option.pure_def]
  cbv

theorem replaced_ofWidth (first second : NumeralSpelling) (declared : TextSpelling) :
    Spelling.Replaced (.number first) (.number second)
      [.key "projection", .key "styling", .key "width"]
      (WholeText.ofWidth first declared).content (WholeText.ofWidth second declared).content := by
  apply Spelling.Replaced.plainMember [] [_, _] rfl
  · rw [List.forall_mem_cons, List.forall_mem_singleton, TextSpelling.text_plain rfl,
      TextSpelling.text_plain rfl]
    decide
  apply Spelling.Replaced.plainMember [_, _] [] rfl (List.forall_mem_nil _)
  apply Spelling.Replaced.plainMember [] [] rfl (List.forall_mem_nil _)
  exact .here

/-- The greatest integer of sixty-four bits is told from the next one. -/
theorem canonicalBytes_integer_literals_told :
    let greatest : NumeralSpelling :=
      { negative := false
        whole := .positive 1 (by decide) [8, 4, 4, 6, 7, 4, 4, 0, 7, 3, 7, 0, 9, 5, 5, 1, 6, 1, 5]
        fraction := [], exponent := none }
    let next : NumeralSpelling :=
      { negative := false
        whole := .positive 1 (by decide) [8, 4, 4, 6, 7, 4, 4, 0, 7, 3, 7, 0, 9, 5, 5, 1, 6, 1, 6]
        fraction := [], exponent := none }
    greatest.numeral.IsInteger ∧ next.numeral.IsInteger ∧
      greatest.numeral.integer = 18446744073709551615 ∧
      next.numeral.integer = 18446744073709551616 ∧
      Spelling.Replaced (.number greatest) (.number next)
        [.key "projection", .key "styling", .key "width"]
        (WholeText.ofWidth greatest []).content (WholeText.ofWidth next []).content ∧
      ∃ document changed key otherKey,
        documentOfBytes (WholeText.ofWidth greatest []).bytes = .ok document ∧
        documentOfBytes (WholeText.ofWidth next []).bytes = .ok changed ∧
        (Sections.ofDocument document).projectionKey? = some key ∧
        (Sections.ofDocument changed).projectionKey? = some otherKey ∧
        key.toValue.canonicalBytes ≠ otherKey.toValue.canonicalBytes := by
  intro greatest next
  have isInteger : greatest.numeral.IsInteger := ⟨rfl, rfl⟩
  have isIntegerToo : next.numeral.IsInteger := ⟨rfl, rfl⟩
  have isGreatest : greatest.numeral.integer = 18446744073709551615 := by decide
  have isNext : next.numeral.integer = 18446744073709551616 := by decide
  have different : greatest.numeral.integer ≠ next.numeral.integer := by decide
  have fits : greatest.numeral.FitsWord := by
    rw [Numeral.FitsWord, isGreatest]
    decide
  have isRead := isInteger.exists_number fits fun isNegative => Bool.noConfusion isNegative
  obtain ⟨double, isReadToo⟩ : ∃ number, next.numeral.number = .ok number := by
    have isRead : next.numeral.number.toOption.isSome = true := by decide +kernel
    obtain ⟨number, isNumber⟩ := Option.isSome_iff_exists.mp isRead
    exact ⟨number, toOption_eq_some_iff.mp isNumber⟩
  have accepted := documentOfBytes_ofWidth isRead []
  have acceptedToo := documentOfBytes_ofWidth isReadToo []
  have replaced := replaced_ofWidth greatest next []
  obtain ⟨styling, isOtherKey, -, -, differ, -⟩ := canonicalBytes_integer_literals replaced
    isInteger isIntegerToo different accepted acceptedToo rfl
  exact ⟨isInteger, isIntegerToo, isGreatest, isNext, replaced, _, _, _, _, accepted, acceptedToo,
    rfl, isOtherKey, differ (.inl fits)⟩

/-- The double `2^64`. -/
def overflowed : Binary64 :=
  ⟨false, 0x43F0000000000000, by decide⟩

/-- The hash of a key with the width `2^64`. -/
def overflowedHash : String :=
  "sha256:0ebf2bd646dc452cfc55539548f2e1b2d727acdc9d81714b301492068c752251"

/-- The first two integers of more than sixty-four bits are read as one double.  So two
documents with them have keys of the same canonical bytes, and the hash that is declared
for the one is valid for the other. -/
theorem canonicalBytes_integer_literals_merged :
    let literal (last : Fin 10) : NumeralSpelling :=
      { negative := false
        whole := .positive 1 (by decide)
          [8, 4, 4, 6, 7, 4, 4, 0, 7, 3, 7, 0, 9, 5, 5, 1, 6, 1, last]
        fraction := [], exponent := none }
    let text (last : Fin 10) := WholeText.ofWidth (literal last) (.plain overflowedHash)
    (literal 6).numeral.integer = 18446744073709551616 ∧
      (literal 7).numeral.integer = 18446744073709551617 ∧
      Spelling.Replaced (.number (literal 6)) (.number (literal 7))
        [.key "projection", .key "styling", .key "width"] (text 6).content (text 7).content ∧
      ∃ document changed key otherKey,
        documentOfBytes (text 6).bytes = .ok document ∧
        documentOfBytes (text 7).bytes = .ok changed ∧
        (Sections.ofDocument document).projectionKey? = some key ∧
        (Sections.ofDocument changed).projectionKey? = some otherKey ∧
        key.toValue.canonicalBytes = otherKey.toValue.canonicalBytes ∧
        (Sections.ofDocument document).identity = .matched overflowedHash ∧
        (Sections.ofDocument changed).identity = .matched overflowedHash := by
  intro literal text
  have isRead : (literal 6).numeral.number = .ok (.double overflowed) := by decide +kernel
  have isReadToo : (literal 7).numeral.number = .ok (.double overflowed) := by decide +kernel
  have isDeclared : TextSpelling.text (.plain overflowedHash) = overflowedHash :=
    TextSpelling.text_plain rfl
  have accepted := documentOfBytes_ofWidth isRead (.plain overflowedHash)
  have acceptedToo := documentOfBytes_ofWidth isReadToo (.plain overflowedHash)
  rw [isDeclared] at accepted acceptedToo
  have isMatched : (Sections.ofDocument (ofWidth (.double overflowed) overflowedHash)).identity =
      .matched overflowedHash := by
    decide +kernel
  exact ⟨by decide, by decide, replaced_ofWidth _ _ _, _, _, _, _, accepted, acceptedToo, rfl, rfl,
    rfl, isMatched, isMatched⟩

end Provenance
