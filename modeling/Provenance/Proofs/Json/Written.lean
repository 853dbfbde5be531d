import Mathlib
import Provenance.Json.Writer
import Provenance.Proofs.Json.Digits
import Provenance.Proofs.Json.Numbers
import Provenance.Proofs.Json.Reader.Value
import Provenance.Proofs.Json.Record

/-!
# What is written is spelled

The writer chooses one spelling for every value, in each of its layouts: the
text of a value with sorted keys is a spelling of that value, but for the numbers
in it, each of which stands for what is read from its own text
(`Value.isWrittenAs_sortKeys`).  Integers are read back
(`Number.isReadAs_integer`).
-/

namespace Provenance.Json

open Reader (ascii isHighSurrogate isLowSurrogate)
open Text.Utf8 (encode)

/-- The lowercase hexadecimal digit of a number. -/
def HexDigit.ofFin (value : Fin 16) : HexDigit :=
  if h : value < 10 then .decimal ⟨value, h⟩ else .lower ⟨value - 10, by omega⟩

/-- The digits of the code point of a control character. -/
def controlUnit (code : Fin 32) : HexUnit :=
  ⟨.ofFin ⟨code / 0x1000, by omega⟩, .ofFin ⟨code / 0x100, by omega⟩,
    .ofFin ⟨code / 0x10, by omega⟩, .ofFin ⟨code % 0x10, by omega⟩⟩

theorem controlUnit_notSurrogate : ∀ code, isHighSurrogate (controlUnit code).value = false ∧
    isLowSurrogate (controlUnit code).value = false := by
  decide

/-- The escape that a control character is written as. -/
def controlEscape (code : Fin 32) : Escape :=
  match code with
  | 8 => .short .backspace
  | 9 => .short .tab
  | 10 => .short .lineFeed
  | 12 => .short .formFeed
  | 13 => .short .carriageReturn
  | code =>
      .codePoint (controlUnit code) (controlUnit_notSurrogate code).1
        (controlUnit_notSurrogate code).2

theorem escapeChar_control : ∀ code : Fin 32,
    CharSpelling.bytes (.escaped (controlEscape code)) = encode (escapeChar (Char.ofNat code)) ∧
      (controlEscape code).char = Char.ofNat code := by
  decide

/-- A character that may stand for itself does. -/
theorem escapeChar_of_isLiteral {char : Char} (allowed : isLiteral char = true) :
    escapeChar char = [char] := by
  obtain ⟨⟨least, notQuote⟩, notBackslash⟩ : (0x20 ≤ char.toNat ∧ char ≠ '"') ∧ char ≠ '\\' := by
    simpa [isLiteral] using allowed
  have notControl (other : Char) (control : other.toNat < 0x20) : char ≠ other := by
    rintro rfl
    exact absurd least (not_le.mpr control)
  rw [escapeChar, if_neg notQuote, if_neg notBackslash, if_neg (notControl _ (by decide)),
    if_neg (notControl _ (by decide)), if_neg (notControl _ (by decide)),
    if_neg (notControl _ (by decide)), if_neg (notControl _ (by decide)),
    if_neg (not_lt.mpr least)]

/-- A character that stands for itself, or is escaped because it may not. -/
def CharSpelling.IsPlain : CharSpelling → Prop
  | literal _ _ => True
  | escaped escape => isLiteral escape.char = false

/-- A character is written as one of its spellings, and escaped only if it must be. -/
theorem exists_spelling_escapeChar (char : Char) :
    ∃ spelled : CharSpelling,
      spelled.bytes = encode (escapeChar char) ∧ spelled.char = char ∧ spelled.IsPlain := by
  by_cases allowed : isLiteral char = true
  · refine ⟨.literal char allowed, ?_, rfl, trivial⟩
    rw [escapeChar_of_isLiteral allowed]
    exact (List.append_nil _).symm
  by_cases isQuote : char = '"'
  · subst isQuote
    exact ⟨.escaped (.short .quote), by decide, rfl, rfl⟩
  by_cases isBackslash : char = '\\'
  · subst isBackslash
    exact ⟨.escaped (.short .backslash), by decide, rfl, rfl⟩
  · have isControl : char.toNat < 32 := by
      by_contra notControl
      exact allowed (by simp [isLiteral, isQuote, isBackslash]; omega)
    obtain ⟨isBytes, isChar⟩ := escapeChar_control ⟨char.toNat, isControl⟩
    rw [Char.ofNat_toNat] at isBytes isChar
    refine ⟨.escaped (controlEscape ⟨char.toNat, isControl⟩), isBytes, isChar, ?_⟩
    rw [CharSpelling.IsPlain, isChar]
    exact Bool.eq_false_iff.mpr allowed

theorem encode_ascii_cons {char : Char} (isAscii : char.toNat < 0x80) (text : List Char) :
    encode (char :: text) = ascii char :: encode text := by
  rw [Text.Utf8.encode_cons, Text.Utf8.utf8EncodeChar_of_ascii isAscii]
  rfl

/-- A string is written as one of its spellings, without a needless escape. -/
theorem exists_spelling_quoted (text : String) :
    ∃ spelled : TextSpelling, TextSpelling.bytes spelled = encode (quoted text) ∧
      TextSpelling.text spelled = text ∧ ∀ char ∈ spelled, char.IsPlain := by
  have content (chars : List Char) : ∃ spelled : TextSpelling,
      spelled.flatMap CharSpelling.bytes = encode (chars.flatMap escapeChar) ∧
        spelled.map CharSpelling.char = chars ∧ ∀ char ∈ spelled, char.IsPlain := by
    induction chars with
    | nil => exact ⟨[], rfl, rfl, List.forall_mem_nil _⟩
    | cons char chars ih =>
        obtain ⟨first, isFirst, rfl, firstPlain⟩ := exists_spelling_escapeChar char
        obtain ⟨others, isOthers, rfl, othersPlain⟩ := ih
        refine ⟨first :: others, ?_, rfl, List.forall_mem_cons.mpr ⟨firstPlain, othersPlain⟩⟩
        rw [List.flatMap_cons, isFirst, isOthers, List.flatMap_cons, Text.Utf8.encode_append]
  obtain ⟨spelled, isBytes, isText, plain⟩ := content text.toList
  refine ⟨spelled, ?_, ?_, plain⟩
  · rw [TextSpelling.bytes, isBytes, quoted, List.cons_append, List.cons_append,
      encode_ascii_cons (by decide), Text.Utf8.encode_append]
    rfl
  · rw [TextSpelling.text, isText, String.ofList_toList]

/-- A number is read, as itself or as another one, from the text that is written
for it. -/
def Number.IsReadAs (number found : Number) : Prop :=
  ∃ spelled : NumeralSpelling, spelled.bytes = encode number.text ∧
    spelled.numeral.number = .ok found

/-- The number of a whole part that fits, if no double is needed for it. -/
theorem number_whole {negative : Bool} {whole : List Nat} {value : Nat} {number : Number}
    (isValue : digitsOnto 0 whole = value) (fits : value ≤ Numeral.significandLimit)
    (isInteger : Numeral.integer? negative value = some number) :
    Numeral.number ⟨negative, whole, [], none⟩ = .ok number := by
  have isCoefficient : (Numeral.decimal ⟨negative, whole, [], none⟩).coefficient = value := by
    rw [Numeral.decimal, List.append_nil, isValue]
  have isSignificand := Numeral.significand_eq (isCoefficient.trans_le fits)
  rw [isCoefficient] at isSignificand
  rw [Numeral.number, isSignificand]
  simp only [List.isEmpty_nil, Option.isNone_none, Bool.and_self, if_true, isInteger]

/-- The bytes of a number without fraction and exponent. -/
theorem bytes_whole (negative : Bool) (whole : WholeSpelling) :
    NumeralSpelling.bytes ⟨negative, whole, [], none⟩ =
      (if negative then [ascii '-'] else []) ++ whole.digits.map digitByte := by
  rw [NumeralSpelling.bytes, NumeralSpelling.unsignedBytes]
  cases negative <;> simp

/-- Integers are read back. -/
theorem Number.isReadAs_integer (value : Int)
    (inRange : -0x8000000000000000 ≤ value ∧ value < 0x10000000000000000) :
    (integer value inRange).IsReadAs (integer value inRange) := by
  obtain ⟨whole, isText⟩ := exists_whole_toDigits value.natAbs
  have isValue : digitsOnto 0 (whole.digits.map Fin.val) = value.natAbs := by
    rw [digitsOnto_eq, isText, Nat.ofDigitChars_ten_toDigits]
  have fits : value.natAbs ≤ Numeral.significandLimit := by
    rw [Numeral.significandLimit]
    omega
  refine ⟨⟨value < 0, whole, [], none⟩, ?_, number_whole isValue fits ?_⟩
  · rw [bytes_whole, ← encode_digitText, isText, Number.text, integerText]
    by_cases negative : value < 0
    · rw [if_pos negative, if_pos (decide_eq_true negative), encode_ascii_cons (by decide)]
      rfl
    · rw [if_neg negative, if_neg (by simpa using negative)]
      rfl
  · rw [Numeral.integer?]
    by_cases negative : value < 0
    · rw [if_pos (decide_eq_true negative), dif_pos (by omega)]
      congr 2
      omega
    · rw [if_neg (by simpa using negative), dif_pos (by omega), Number.ofNat]
      congr 2
      omega

namespace Layout

/-- The blanks in front of an item. -/
def blanks : Layout → List Blank
  | compact => []
  | indented depth => .lineFeed :: List.replicate (2 * depth) .space

/-- The blanks between a colon and a value. -/
def colonBlanks : Layout → List Blank
  | compact => []
  | indented _ => [.space]

theorem encode_gap (layout : Layout) : encode layout.gap = Blank.bytes layout.blanks := by
  have spaces (count : Nat) :
      encode (List.replicate count ' ') = Blank.bytes (List.replicate count .space) := by
    induction count with
    | zero => rfl
    | succ count ih => exact congrArg (ascii ' ' :: ·) ih
  cases layout with
  | compact => rfl
  | indented depth => exact congrArg (ascii '\n' :: ·) (spaces (2 * depth))

theorem colon_inner (layout : Layout) : layout.inner.colon = layout.colon := by
  cases layout <;> rfl

theorem encode_colon (layout : Layout) :
    encode layout.colon = ascii ':' :: Blank.bytes layout.colonBlanks := by
  cases layout <;> rfl

end Layout

/-! ## Values -/

section Listed

variable {α β : Type}

/-- The text of things in a row, each behind a gap, and behind a comma but the
first. -/
def listedText (gap : List Char) (write : α → List Char) : Bool → List α → List Char
  | _, [] => []
  | isFirst, item :: items =>
      (if isFirst then [] else [',']) ++ gap ++ write item ++ listedText gap write false items

/-- The text is a spelling of something, which means it wherever there are enough
levels. -/
def IsSpelled (spell : β → List UInt8) (meaning : Nat → β → Option α) (text : List Char)
    (least : Nat) (item : α) : Prop :=
  ∃ spelled, spell spelled = encode text ∧
    ∀ levels, least ≤ levels → meaning levels spelled = some item

variable {spell : β → List UInt8} {meaning : Nat → β → Option α} {least : Nat}

theorem IsSpelled.mono {text : List Char} {item : α} {more : Nat}
    (isSpelled : IsSpelled spell meaning text least item) (enough : least ≤ more) :
    IsSpelled spell meaning text more item := by
  obtain ⟨spelled, isBytes, means⟩ := isSpelled
  exact ⟨spelled, isBytes, fun levels isMore => means levels (Nat.le_trans enough isMore)⟩

/-- If the text of each of some things is spelled, so is the text of all of them in a
row. -/
theorem exists_listed {gap : List Char} {blanks : List Blank}
    (isGap : encode gap = Blank.bytes blanks) {write : α → List Char} {spells : β → α → Prop}
    {items : List α} (each : ∀ item ∈ items, ∃ spelled, spell spelled = encode (write item) ∧
      spells spelled item) (isFirst : Bool) :
    ∃ listed : List β,
      listedBytes spell isFirst (listed.map fun spelled => ⟨blanks, spelled, []⟩) =
        encode (listedText gap write isFirst items) ∧ List.Forall₂ spells listed items := by
  induction items generalizing isFirst with
  | nil => exact ⟨[], rfl, .nil⟩
  | cons item items ih =>
      obtain ⟨first, isBytes, firstSpells⟩ := each item List.mem_cons_self
      obtain ⟨others, areBytes, othersSpell⟩ :=
        ih (fun item member => each item (List.mem_cons_of_mem _ member)) false
      have isComma : comma isFirst = encode (if isFirst then [] else [',']) := by
        cases isFirst <;> rfl
      refine ⟨first :: others, ?_, .cons firstSpells othersSpell⟩
      rw [List.map_cons, listedBytes, areBytes, isComma, isBytes, listedText,
        Text.Utf8.encode_append, Text.Utf8.encode_append, Text.Utf8.encode_append, isGap]
      simp [Blank.bytes]

/-- If the text of each of some things is a spelling of something, the text of all of
them in a row is a spelling of these. -/
theorem IsSpelled.listed {gap : List Char} {blanks : List Blank}
    (isGap : encode gap = Blank.bytes blanks) {write : α → List Char} {image : α → α}
    {items : List α}
    (each : ∀ item ∈ items, IsSpelled spell meaning (write item) least (image item))
    (isFirst : Bool) :
    IsSpelled (listedBytes spell isFirst)
      (fun levels listed => listed.mapM fun item => meaning levels item.content)
      (listedText gap write isFirst items) least (items.map image) := by
  obtain ⟨listed, areBytes, mean⟩ := exists_listed isGap each isFirst
  refine ⟨_, areBytes, fun levels enough => ?_⟩
  clear areBytes each
  induction mean with
  | nil => rfl
  | cons first _ ih =>
      rw [List.map_cons, mapM_cons_eq_some_iff]
      exact ⟨_, _, first levels enough, ih, rfl⟩

end Listed

namespace Value

/-- The text of a member of an object. -/
def memberText (layout : Layout) (member : String × Value) : List Char :=
  quoted member.1 ++ layout.colon ++ member.2.write layout

theorem writeItems_eq (layout : Layout) (items : List Value) :
    writeItems layout items = listedText layout.gap (write layout) false items := by
  induction items with
  | nil => rfl
  | cons item items ih =>
      rw [writeItems, ih, listedText]
      simp

theorem writeMembers_eq (layout : Layout) (members : Record) :
    writeMembers layout members = listedText layout.gap (memberText layout) false members := by
  induction members with
  | nil => rfl
  | cons member members ih =>
      rw [writeMembers, ih, listedText, memberText]
      simp

/-- The text of an array in any layout. -/
theorem write_array_eq (layout : Layout) (items : List Value) :
    (array items).write layout =
      '[' :: (listedText layout.inner.gap (write layout.inner) true items ++
        ((if items = [] then [] else layout.gap) ++ [']'])) := by
  cases items with
  | nil => rfl
  | cons item items =>
      rw [write, writeItems_eq, listedText, if_neg (List.cons_ne_nil _ _)]
      simp

/-- The text of an object in any layout. -/
theorem write_object_eq (layout : Layout) (members : Record) :
    (object members).write layout =
      '\x7b' :: (listedText layout.inner.gap (memberText layout.inner) true members ++
        ((if members = [] then [] else layout.gap) ++ ['\x7d'])) := by
  cases members with
  | nil => rfl
  | cons member members =>
      rw [write, writeMembers_eq, listedText, memberText, if_neg (List.cons_ne_nil _ _),
        Layout.colon_inner]
      simp

/-- The blanks in front of a closing bracket. -/
theorem encode_closing {α : Type} (layout : Layout) (items : List α) :
    encode (if items = [] then [] else layout.gap) =
      Blank.bytes (if items = [] then [] else layout.blanks) := by
  by_cases isEmpty : items = []
  · rw [if_pos isEmpty, if_pos isEmpty]
    rfl
  · rw [if_neg isEmpty, if_neg isEmpty]
    exact layout.encode_gap

/-- A member of a record with sorted keys comes from a member. -/
theorem mem_sortMembers {members : Record} {member : String × Value}
    (isMember : member ∈ sortMembers members) :
    ∃ value, (member.1, value) ∈ members ∧ member.2 = value.sortKeys := by
  induction members with
  | nil => contradiction
  | cons first members ih =>
      obtain ⟨key, value⟩ := first
      rw [sortMembers] at isMember
      rcases Record.mem_insert isMember with rfl | inMembers
      · exact ⟨value, List.mem_cons_self, rfl⟩
      · obtain ⟨value, isValue, same⟩ := ih inMembers
        exact ⟨value, List.mem_cons_of_mem _ isValue, same⟩

/-- The text of a value is a spelling of a value, with some number of levels. -/
def IsWrittenAs (layout : Layout) (least : Nat) (value found : Value) : Prop :=
  IsSpelled Spelling.bytes Spelling.value? (value.write layout) least found

/-- The text of a member is a spelling of a member. -/
def IsMemberWrittenAs (layout : Layout) (least : Nat) (member found : String × Value) : Prop :=
  IsSpelled (Keyed.bytes Spelling.bytes)
    (fun levels spelled => spelled.member? (Spelling.value? levels)) (memberText layout member)
    least found

section Written

variable {layout : Layout} {least : Nat} {change : Number → Number}

/-- An array is spelled by its items and the blanks of the layout. -/
theorem bytes_array_of_listed {items : List Value} {listed : List (Spaced Spelling)}
    (areBytes : listedBytes Spelling.bytes true listed =
      encode (listedText layout.inner.gap (write layout.inner) true items)) :
    (Spelling.array listed (if items = [] then [] else layout.blanks)).bytes =
      encode ((array items).write layout) := by
  rw [write_array_eq, encode_ascii_cons (by decide), Text.Utf8.encode_append,
    Text.Utf8.encode_append, encode_closing, ← areBytes, Spelling.bytes, Spelling.itemsBytes_eq]
  simp [Text.Utf8.utf8EncodeChar_of_ascii, ascii]

/-- An object is spelled by its members and the blanks of the layout. -/
theorem bytes_object_of_listed {members : Record} {listed : List (Spaced (Keyed Spelling))}
    (areBytes : listedBytes (Keyed.bytes Spelling.bytes) true listed =
      encode (listedText layout.inner.gap (memberText layout.inner) true members)) :
    (Spelling.object listed (if members = [] then [] else layout.blanks)).bytes =
      encode ((object members).write layout) := by
  rw [write_object_eq, encode_ascii_cons (by decide), Text.Utf8.encode_append,
    Text.Utf8.encode_append, encode_closing, ← areBytes, Spelling.bytes,
    Spelling.membersBytes_eq]
  simp [Text.Utf8.utf8EncodeChar_of_ascii, ascii]

theorem isWrittenAs_array {items : List Value}
    (each : ∀ item ∈ items, item.IsWrittenAs layout.inner least (item.mapNumbers change)) :
    (array items).IsWrittenAs layout (least + 1) ((array items).mapNumbers change) := by
  obtain ⟨listed, areBytes, mean⟩ := IsSpelled.listed layout.inner.encode_gap each true
  refine ⟨.array listed _, bytes_array_of_listed areBytes, ?_⟩
  intro levels enough
  obtain ⟨inner, rfl⟩ := Nat.exists_eq_add_of_le' (Nat.le_trans (Nat.le_add_left 1 least) enough)
  rw [mapNumbers, mapNumbersOfItems_eq_map]
  exact Spelling.value?_array_eq_some_iff.mpr
    ⟨inner, _, rfl, mean inner (Nat.le_of_succ_le_succ enough), rfl⟩

/-- A member is spelled by its key, the blanks of the layout and its value. -/
theorem bytes_member {key : String} {value : Value} {spelledKey : TextSpelling}
    {spelled : Spelling} (isKey : spelledKey.bytes = encode (quoted key))
    (isValue : spelled.bytes = encode (value.write layout)) :
    Keyed.bytes Spelling.bytes ⟨spelledKey, [], layout.colonBlanks, spelled⟩ =
      encode (memberText layout (key, value)) := by
  rw [memberText, Text.Utf8.encode_append, Text.Utf8.encode_append, Layout.encode_colon, ← isKey,
    ← isValue, Keyed.bytes]
  simp [Blank.bytes]

theorem isMemberWrittenAs_of_isWrittenAs {value found : Value}
    (isWritten : value.IsWrittenAs layout least found) (key : String) :
    IsMemberWrittenAs layout least (key, value) (key, found) := by
  obtain ⟨spelled, isBytes, means⟩ := isWritten
  obtain ⟨spelledKey, isKey, rfl, -⟩ := exists_spelling_quoted key
  refine ⟨⟨spelledKey, [], layout.colonBlanks, spelled⟩, bytes_member isKey isBytes, ?_⟩
  intro levels enough
  exact congrArg (Option.map _) (means levels enough)

/-- The text of an object is spelled by its members one after another, in the order in
which they are listed. -/
theorem exists_object_bytes {members : Record} {image : String × Value → String × Value}
    (each : ∀ member ∈ members, IsMemberWrittenAs layout.inner least member (image member)) :
    ∃ listed closing,
      (Spelling.object listed closing).bytes = encode ((object members).write layout) ∧
      ∀ levels, least ≤ levels →
        (listed.mapM fun member => member.content.member? (Spelling.value? levels)) =
          some (members.map image) := by
  obtain ⟨listed, areBytes, mean⟩ := IsSpelled.listed layout.inner.encode_gap each true
  exact ⟨listed, _, bytes_object_of_listed areBytes, mean⟩

theorem isWrittenAs_object {members : Record} (ascending : members.Ascending)
    (each : ∀ member ∈ members, IsMemberWrittenAs layout.inner least member
      (member.1, member.2.mapNumbers change)) :
    (object members).IsWrittenAs layout (least + 1) ((object members).mapNumbers change) := by
  obtain ⟨listed, closing, isBytes, mean⟩ := exists_object_bytes each
  refine ⟨.object listed closing, isBytes, ?_⟩
  intro levels enough
  obtain ⟨inner, rfl⟩ := Nat.exists_eq_add_of_le' (Nat.le_trans (Nat.le_add_left 1 least) enough)
  refine Spelling.value?_object_eq_some_iff.mpr
    ⟨inner, _, rfl, mean inner (Nat.le_of_succ_le_succ enough), ?_⟩
  rw [← mapNumbersOfMembers_eq_map,
    Record.ofMembers_eq_self (ascending_mapNumbersOfMembers change ascending), mapNumbers]

end Written

/-- A value with sorted keys is written as a spelling of the value that has the
numbers which are read from the texts of its own. -/
theorem isWrittenAs_sortKeys {change : Number → Number} (value : Value)
    (readAs : ∀ number ∈ value.numbers, number.IsReadAs (change number)) (layout : Layout) :
    value.sortKeys.IsWrittenAs layout value.depth (value.sortKeys.mapNumbers change) := by
  induction value using inductionOn generalizing layout with
  | null => exact ⟨.null, rfl, fun levels _ => by cases levels <;> rfl⟩
  | bool truth =>
      refine ⟨.bool truth, ?_, fun levels _ => by cases levels <;> rfl⟩
      cases truth <;> rfl
  | number number =>
      obtain ⟨spelled, isBytes, isNumber⟩ := readAs number (List.mem_singleton.mpr rfl)
      refine ⟨.number spelled, isBytes, fun levels _ => ?_⟩
      rw [Spelling.value?, isNumber]
      rfl
  | string text =>
      obtain ⟨spelled, isBytes, rfl, -⟩ := exists_spelling_quoted text
      exact ⟨.string spelled, isBytes, fun levels _ => by cases levels <;> rfl⟩
  | array items ih =>
      rw [sortKeys, depth]
      apply isWrittenAs_array
      intro sorted isSorted
      rw [sortItems_eq_map] at isSorted
      obtain ⟨item, isItem, rfl⟩ := List.mem_map.mp isSorted
      have itemReadAs : ∀ number ∈ item.numbers, number.IsReadAs (change number) :=
        fun number member => readAs number (numbers_subset_numbersOfItems isItem member)
      exact (ih item isItem itemReadAs layout.inner).mono (depth_le_depthOfItems isItem)
  | object members ih =>
      rw [sortKeys, depth]
      apply isWrittenAs_object (ascending_sortMembers members)
      rintro ⟨key, sorted⟩ isSorted
      obtain ⟨value, isMember, rfl⟩ := mem_sortMembers isSorted
      have valueReadAs : ∀ number ∈ value.numbers, number.IsReadAs (change number) :=
        fun number member => readAs number (numbers_subset_numbersOfMembers isMember member)
      apply isMemberWrittenAs_of_isWrittenAs
      exact (ih (key, value) isMember valueReadAs layout.inner).mono
        (depth_le_depthOfMembers isMember)

/-- A value with sorted keys is read from its text in any layout, whatever blanks
follow, with the numbers that are read from the texts of its own, if it is not too
deep. -/
theorem ofBytes_write {change : Number → Number} {value : Value}
    (shallow : value.depth ≤ nestingLimit)
    (readAs : ∀ number ∈ value.numbers, number.IsReadAs (change number)) (layout : Layout)
    (behind : List Blank) :
    ofBytes (encode (value.sortKeys.write layout) ++ Blank.bytes behind) =
      .ok (value.sortKeys.mapNumbers change) := by
  obtain ⟨spelled, isBytes, means⟩ := value.isWrittenAs_sortKeys readAs layout
  exact ofBytes_eq_ok_iff.mpr ⟨⟨[], spelled, behind⟩, congrArg (· ++ Blank.bytes behind) isBytes,
    means nestingLimit shallow⟩

end Value

end Provenance.Json
