import Mathlib
import Provenance.Proofs.Command.Verify

/-!
# Which texts are accepted

A spelling has a value as soon as its arrays and objects nest no deeper than there
are levels and each of its numbers can be represented: `exists_value?_iff`.  Its
blanks, its escapes and the keys of its members play no part in that, so a document
may also repeat keys.

With the reader exact on spellings, this says which bytes are documents
(`IsDocumentText`), and which are refused before a verification begins.
-/

namespace Provenance.Json

/-- The number that is spelled is an integer or a finite double.  Its value and its length
tell whether it is (`NumeralSpelling.converts_iff`). -/
def NumeralSpelling.Converts (spelling : NumeralSpelling) : Prop :=
  ∃ number, spelling.numeral.number = .ok number

namespace Spelling

mutual

/-- How deep arrays and objects nest. -/
def depth : Spelling → Nat
  | array items _ => itemsDepth items + 1
  | object members _ => membersDepth members + 1
  | _ => 0
termination_by structural spelling => spelling

/-- How deep the deepest of some items nests. -/
def itemsDepth : List (Spaced Spelling) → Nat
  | [] => 0
  | ⟨_, content, _⟩ :: items => max content.depth (itemsDepth items)
termination_by structural items => items

/-- How deep the deepest of some members nests. -/
def membersDepth : List (Spaced (Keyed Spelling)) → Nat
  | [] => 0
  | ⟨_, ⟨_, _, _, value⟩, _⟩ :: members => max value.depth (membersDepth members)
termination_by structural members => members

end

theorem itemsDepth_le_iff {items : List (Spaced Spelling)} {levels : Nat} :
    itemsDepth items ≤ levels ↔ ∀ item ∈ items, item.content.depth ≤ levels := by
  induction items with
  | nil => simp [itemsDepth]
  | cons item items ih => simp [itemsDepth, ih]

theorem membersDepth_le_iff {members : List (Spaced (Keyed Spelling))} {levels : Nat} :
    membersDepth members ≤ levels ↔
      ∀ member ∈ members, member.content.value.depth ≤ levels := by
  induction members with
  | nil => simp [membersDepth]
  | cons member members ih => simp [membersDepth, ih]

mutual

/-- The numbers of a text, from left to right. -/
def numerals : Spelling → List NumeralSpelling
  | number numeral => [numeral]
  | array items _ => itemsNumerals items
  | object members _ => membersNumerals members
  | _ => []
termination_by structural spelling => spelling

/-- The numbers of items in a row. -/
def itemsNumerals : List (Spaced Spelling) → List NumeralSpelling
  | [] => []
  | ⟨_, content, _⟩ :: items => content.numerals ++ itemsNumerals items
termination_by structural items => items

/-- The numbers of members in a row. -/
def membersNumerals : List (Spaced (Keyed Spelling)) → List NumeralSpelling
  | [] => []
  | ⟨_, ⟨_, _, _, value⟩, _⟩ :: members => value.numerals ++ membersNumerals members
termination_by structural members => members

end

theorem itemsNumerals_eq (items : List (Spaced Spelling)) :
    itemsNumerals items = items.flatMap fun item => item.content.numerals := by
  induction items with
  | nil => rfl
  | cons item items ih => rw [itemsNumerals, ih, List.flatMap_cons]

theorem membersNumerals_eq (members : List (Spaced (Keyed Spelling))) :
    membersNumerals members = members.flatMap fun member => member.content.value.numerals := by
  induction members with
  | nil => rfl
  | cons member members ih => rw [membersNumerals, ih, List.flatMap_cons]

/-- What stands directly inside an array or an object. -/
def parts : Spelling → List Spelling
  | array items _ => items.map fun item => item.content
  | object members _ => members.map fun member => member.content.value
  | _ => []

/-- Arrays and objects nest one level deeper than what stands inside them. -/
theorem depth_le_succ_iff {spelling : Spelling} {levels : Nat} :
    spelling.depth ≤ levels + 1 ↔ ∀ part ∈ spelling.parts, part.depth ≤ levels := by
  cases spelling with
  | array items closing => simp [depth, parts, itemsDepth_le_iff]
  | object members closing => simp [depth, parts, membersDepth_le_iff]
  | _ => simp [depth, parts]

/-- A number of a text is the whole text or stands in one of its parts. -/
theorem mem_numerals_iff {spelling : Spelling} {numeral : NumeralSpelling} :
    numeral ∈ spelling.numerals ↔
      spelling = number numeral ∨ ∃ part ∈ spelling.parts, numeral ∈ part.numerals := by
  cases spelling with
  | number other => simp [numerals, parts, eq_comm]
  | array items closing => simp [numerals, parts, itemsNumerals_eq]
  | object members closing => simp [numerals, parts, membersNumerals_eq]
  | _ => simp [numerals, parts]

/-- The text nests within the given levels and each of its numbers converts. -/
structure Fits (levels : Nat) (spelling : Spelling) : Prop where
  shallow : spelling.depth ≤ levels
  converts : ∀ numeral ∈ spelling.numerals, numeral.Converts

/-- With a level more, a text fits if its parts do. -/
theorem fits_succ_iff {spelling : Spelling} {levels : Nat} :
    spelling.Fits (levels + 1) ↔
      (∀ numeral, spelling = number numeral → numeral.Converts) ∧
        ∀ part ∈ spelling.parts, part.Fits levels := by
  constructor
  · rintro ⟨shallow, converts⟩
    refine ⟨fun numeral isNumber => converts numeral (mem_numerals_iff.mpr (.inl isNumber)),
      fun part isPart => ⟨depth_le_succ_iff.mp shallow part isPart, ?_⟩⟩
    intro numeral within
    exact converts numeral (mem_numerals_iff.mpr (.inr ⟨part, isPart, within⟩))
  · rintro ⟨ownConverts, partsFit⟩
    refine ⟨depth_le_succ_iff.mpr fun part isPart => (partsFit part isPart).shallow, ?_⟩
    intro numeral within
    rcases mem_numerals_iff.mp within with isNumber | ⟨part, isPart, inPart⟩
    · exact ownConverts numeral isNumber
    · exact (partsFit part isPart).converts numeral inPart

/-- Without a level left a text fits if it is a scalar, and no number out of range. -/
theorem fits_zero_iff {spelling : Spelling} :
    spelling.Fits 0 ↔
      spelling.depth = 0 ∧ ∀ numeral, spelling = number numeral → numeral.Converts := by
  constructor
  · rintro ⟨shallow, converts⟩
    exact ⟨Nat.le_zero.mp shallow,
      fun numeral isNumber => converts numeral (mem_numerals_iff.mpr (.inl isNumber))⟩
  · rintro ⟨flat, ownConverts⟩
    refine ⟨flat.le, ?_⟩
    intro numeral within
    have noParts : spelling.parts = [] := by
      cases spelling <;> simp_all [depth, parts]
    rcases mem_numerals_iff.mp within with isNumber | ⟨part, isPart, -⟩
    · exact ownConverts numeral isNumber
    · simp [noParts] at isPart

theorem exists_value?_number_iff {numeral : NumeralSpelling} {levels : Nat} :
    (∃ value, (number numeral).value? levels = some value) ↔ numeral.Converts := by
  simp only [value?, Option.map_eq_some_iff, toOption_eq_some_iff, NumeralSpelling.Converts]
  constructor
  · rintro ⟨_, found, isFound, rfl⟩
    exact ⟨found, isFound⟩
  · rintro ⟨found, isFound⟩
    exact ⟨.number found, found, isFound, rfl⟩

/-- With a level more, a text has a value if its parts have one. -/
theorem exists_value?_succ_iff {spelling : Spelling} {levels : Nat} :
    (∃ value, spelling.value? (levels + 1) = some value) ↔
      (∀ numeral, spelling = number numeral → numeral.Converts) ∧
        ∀ part ∈ spelling.parts, ∃ value, part.value? levels = some value := by
  cases spelling with
  | number numeral => simp [exists_value?_number_iff, parts]
  | array items closing => simp [value?, values?_eq, exists_mapM_iff, parts]
  | object members closing =>
      simp [value?, members?_eq, exists_mapM_iff, parts, Keyed.member?]
  | _ => simp [value?, parts]

/-- A spelling has a value exactly if it nests within the levels and its numbers
convert. -/
theorem exists_value?_iff {spelling : Spelling} {levels : Nat} :
    (∃ value, spelling.value? levels = some value) ↔ spelling.Fits levels := by
  induction levels generalizing spelling with
  | zero =>
      rw [fits_zero_iff]
      cases spelling with
      | number numeral => simp [exists_value?_number_iff, depth]
      | _ => simp [value?, depth]
  | succ levels ih =>
      rw [exists_value?_succ_iff, fits_succ_iff]
      simp only [ih]

end Spelling

/-! ## Documents -/

/-- Bytes that are the text of a document: one value of the grammar with blanks
around it, with arrays and objects nested within the limit and numbers that convert. -/
def IsDocumentText (bytes : List UInt8) : Prop :=
  ∃ text : WholeText, text.bytes = bytes ∧ text.content.Fits nestingLimit

theorem exists_documentOfBytes_iff {bytes : List UInt8} :
    (∃ document, documentOfBytes bytes = .ok document) ↔ IsDocumentText bytes := by
  simp only [documentOfBytes_eq_ok_iff, Value.ofBytes_eq_ok_iff, IsDocumentText,
    ← Spelling.exists_value?_iff]
  constructor
  · rintro ⟨document, text, isBytes, means⟩
    exact ⟨text, isBytes, document, means⟩
  · rintro ⟨text, isBytes, document, means⟩
    exact ⟨document, text, isBytes, means⟩

/-- A text is read as the document that it spells. -/
theorem documentOfBytes_text_iff {text : WholeText} {document : Value} :
    documentOfBytes text.bytes = .ok document ↔
      text.content.value? nestingLimit = some document := by
  rw [documentOfBytes_eq_ok_iff, ← Value.toOption_ofBytes, toOption_eq_some_iff]

/-- Whether bytes are a document can be told from any spelling of them. -/
theorem isDocumentText_bytes_iff {text : WholeText} :
    IsDocumentText text.bytes ↔ text.content.Fits nestingLimit := by
  rw [← exists_documentOfBytes_iff, ← Spelling.exists_value?_iff, ← Value.toOption_ofBytes]
  simp only [documentOfBytes_eq_ok_iff, toOption_eq_some_iff]

theorem isInputDefect_invalidInput (message : String) :
    (Verdict.invalidInput message).isInputDefect = true := by
  change (true && Verdict.hasInputDefectClass ("invalid_json: " ++ message)) = true
  rw [Bool.true_and, Verdict.hasInputDefectClass, List.any_eq_true]
  refine ⟨"invalid_json", .head _, ?_⟩
  rw [List.isPrefixOf_iff_prefix]
  exact ⟨message.toList, by simp⟩

/-- Bytes that are no document get a verdict of their own, and no document gets it. -/
theorem exists_invalidInput_iff {bytes : List UInt8} :
    (∃ message, verifyBytes bytes = .invalidInput message) ↔ ¬ IsDocumentText bytes := by
  rw [← exists_documentOfBytes_iff, verifyBytes]
  simp only [documentOfBytes_eq_ok_iff]
  cases Value.ofBytes bytes with
  | error failure => simp
  | ok document =>
      refine iff_of_false ?_ (by simp)
      rintro ⟨message, same⟩
      dsimp only at same
      have notDefect := isInputDefect_verify document
      rw [same, isInputDefect_invalidInput] at notDefect
      contradiction

/-- Arrays inside one another, the innermost one empty. -/
def Spelling.nested : Nat → Spelling
  | 0 => .array [] []
  | levels + 1 => .array [⟨[], nested levels, []⟩] []

namespace Spelling

theorem bytes_nested (levels : Nat) :
    (nested levels).bytes =
      List.replicate (levels + 1) (Reader.ascii '[') ++
        List.replicate (levels + 1) (Reader.ascii ']') := by
  induction levels with
  | zero => rfl
  | succ levels ih =>
      rw [nested, bytes, itemsBytes, itemsBytes, ih, List.replicate_succ (n := levels + 1),
        List.replicate_succ' (n := levels + 1)]
      simp [comma, Blank.bytes]

theorem depth_nested (levels : Nat) : (nested levels).depth = levels + 1 := by
  induction levels with
  | zero => rfl
  | succ levels ih => simp [nested, depth, itemsDepth, ih]

theorem numerals_nested (levels : Nat) : (nested levels).numerals = [] := by
  induction levels with
  | zero => rfl
  | succ levels ih => simp [nested, numerals, itemsNumerals, ih]

end Spelling

/-- Brackets are a document up to the limit and not beyond it. -/
theorem isDocumentText_nested_iff (levels : Nat) :
    IsDocumentText (List.replicate (levels + 1) (Reader.ascii '[') ++
      List.replicate (levels + 1) (Reader.ascii ']')) ↔ levels < nestingLimit := by
  have isBytes : WholeText.bytes ⟨[], Spelling.nested levels, []⟩ =
      List.replicate (levels + 1) (Reader.ascii '[') ++
        List.replicate (levels + 1) (Reader.ascii ']') := by
    simp [WholeText.bytes, Blank.bytes, Spelling.bytes_nested]
  rw [← isBytes, isDocumentText_bytes_iff]
  constructor
  · rintro ⟨shallow, -⟩
    rwa [Spelling.depth_nested] at shallow
  · intro within
    exact ⟨(Spelling.depth_nested levels).le.trans within, by simp [Spelling.numerals_nested]⟩

/-- Exactly the texts of documents are verified, and all other bytes are refused as
invalid input. -/
theorem verifyBytes_accepts (bytes : List UInt8) :
    ((∃ document, documentOfBytes bytes = .ok document ∧ verifyBytes bytes = verify document) ↔
      IsDocumentText bytes) ∧
    ((∃ message, verifyBytes bytes = .invalidInput message) ↔ ¬ IsDocumentText bytes) := by
  refine ⟨?_, exists_invalidInput_iff⟩
  rw [← exists_documentOfBytes_iff]
  constructor
  · rintro ⟨document, isDocument, -⟩
    exact ⟨document, isDocument⟩
  · rintro ⟨document, isDocument⟩
    refine ⟨document, isDocument, ?_⟩
    rw [verifyBytes_eq, isDocument]

end Provenance.Json
