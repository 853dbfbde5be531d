import Mathlib
import Provenance.Audit
import Provenance.Proofs.Json.Reader.Numeral

/-!
# Reading values, both ways

The reader yields a value exactly if the text is a spelling of it, with arrays
and objects nested no deeper than there are levels: `ofBytes_eq_ok_iff`.  On the
text of a given spelling it even fails exactly where the spelling has no value:
`toOption_ofBytes`.

Both directions go by induction on the levels, as the reader does; a spelling is
only taken apart one level at a time.
-/

namespace Provenance.Json

namespace Reader

variable {bytes rest : List UInt8}

/-- The first byte of a number is a minus or a digit. -/
theorem exists_head_number (numeral : NumeralSpelling) :
    ∃ byte tail, numeral.bytes = byte :: tail ∧
      (byte = ascii '-' ∨ isDigit byte = true) := by
  obtain ⟨negative, whole, fraction, exponent⟩ := numeral
  cases negative with
  | true => exact ⟨ascii '-', _, rfl, .inl rfl⟩
  | false =>
      cases whole with
      | zero => exact ⟨ascii '0', _, rfl, .inr (by decide)⟩
      | positive first notZero others =>
          exact ⟨digitByte first, _, rfl, .inr (isDigit_iff.mpr ⟨first, rfl⟩)⟩

/-- No value begins with a blank or a closing bracket. -/
theorem exists_head (spelling : Spelling) :
    ∃ byte tail, spelling.bytes = byte :: tail ∧ isBlank byte = false ∧
      byte ≠ Brackets.list.close ∧ byte ≠ Brackets.object.close := by
  cases spelling with
  | null => exact ⟨ascii 'n', _, rfl, by decide⟩
  | bool truth =>
      cases truth with
      | true => exact ⟨ascii 't', _, rfl, by decide⟩
      | false => exact ⟨ascii 'f', _, rfl, by decide⟩
  | number numeral =>
      have notDigit : ∀ digit, isBlank (digitByte digit) = false ∧
          digitByte digit ≠ Brackets.list.close ∧ digitByte digit ≠ Brackets.object.close := by
        decide
      obtain ⟨byte, tail, isBytes, kind⟩ := exists_head_number numeral
      refine ⟨byte, tail, isBytes, ?_⟩
      rcases kind with rfl | isOne
      · decide
      · obtain ⟨digit, rfl⟩ := isDigit_iff.mp isOne
        exact notDigit digit
  | string text => exact ⟨ascii '"', _, rfl, by decide⟩
  | array items closing => exact ⟨ascii '[', _, rfl, by decide⟩
  | object members closing => exact ⟨ascii '\x7b', _, rfl, by decide⟩

theorem begins_item (spelling : Spelling) (rest : List UInt8) :
    Begins .list (spelling.bytes ++ rest) := by
  obtain ⟨byte, tail, isBytes, notBlank, notClose, -⟩ := exists_head spelling
  rw [isBytes]
  exact ⟨solid_cons notBlank _, List.cons_ne_nil _ _, fun same => notClose (Option.some.inj same)⟩

theorem begins_member (member : Keyed Spelling) (rest : List UInt8) :
    Begins .object (member.bytes Spelling.bytes ++ rest) :=
  ⟨solid_cons (by decide) _, List.cons_ne_nil _ _,
    fun same => absurd (Option.some.inj same) (by decide)⟩

theorem scalar_number_negative : scalar (ascii '-' :: rest) = map .number (number true) rest :=
  rfl

theorem scalar_number {digit : Fin 10} :
    scalar (digitByte digit :: rest) = map .number (number false) (digitByte digit :: rest) := by
  have apart : ∀ digit, digitByte digit ≠ ascii 'n' ∧ digitByte digit ≠ ascii 't' ∧
      digitByte digit ≠ ascii 'f' ∧ digitByte digit ≠ ascii '-' := by
    decide
  obtain ⟨notNull, notTrue, notFalse, notMinus⟩ := apart digit
  rw [scalar, if_neg notNull, if_neg notTrue, if_neg notFalse, if_neg notMinus,
    if_pos (isDigit_iff.mpr ⟨digit, rfl⟩)]

theorem scalar_string : scalar (ascii '"' :: rest) = map .string text rest :=
  rfl

/-- A spelled number is read as its value. -/
theorem toOption_scalar_number (delimited : Delimited rest) (numeral : NumeralSpelling) :
    (scalar (numeral.bytes ++ rest)).toOption =
      (numeral.numeral.number.toOption.map Value.number).map (·, rest) := by
  have read := toOption_number delimited numeral
  have scanned : scalar (numeral.bytes ++ rest) =
      map .number (number numeral.negative) (numeral.unsignedBytes ++ rest) := by
    obtain ⟨negative, whole, fraction, exponent⟩ := numeral
    cases negative with
    | true => exact scalar_number_negative
    | false =>
        cases whole with
        | zero => exact (scalar_number : scalar (digitByte 0 :: _) = _)
        | positive first notZero others => exact scalar_number
  rw [scanned, toOption_map, read]
  cases numeral.numeral.number.toOption <;> rfl

/-- A scalar that is read is spelled. -/
theorem exists_of_scalar {found : Value} (read : scalar bytes = .ok (found, rest)) (levels : Nat) :
    ∃ spelling : Spelling, bytes = spelling.bytes ++ rest ∧
      spelling.value? levels = some found := by
  have ofNumber (numeral : NumeralSpelling) {value : Number}
      (inRange : numeral.numeral.number = .ok value) :
      (Spelling.number numeral).value? levels = some (.number value) := by
    rw [Spelling.value?, inRange]
    rfl
  unfold scalar at read
  split at read
  · contradiction
  split at read
  · rename_i isNull
    obtain ⟨rfl, rfl⟩ := word_eq_ok_iff.mp read
    exact ⟨.null, congrArg (· :: _) isNull, by cases levels <;> rfl⟩
  split at read
  · rename_i isTrue
    obtain ⟨rfl, rfl⟩ := word_eq_ok_iff.mp read
    exact ⟨.bool true, congrArg (· :: _) isTrue, by cases levels <;> rfl⟩
  split at read
  · rename_i isFalse
    obtain ⟨rfl, rfl⟩ := word_eq_ok_iff.mp read
    exact ⟨.bool false, congrArg (· :: _) isFalse, by cases levels <;> rfl⟩
  split at read
  · rename_i isMinus
    obtain ⟨value, readNumber, rfl⟩ := map_eq_ok_iff.mp read
    obtain ⟨numeral, negative, rfl, inRange⟩ := exists_of_number readNumber
    refine ⟨.number numeral, ?_, ofNumber numeral inRange⟩
    rw [Spelling.bytes, NumeralSpelling.bytes, if_pos negative, isMinus]
    rfl
  split at read
  · obtain ⟨value, readNumber, rfl⟩ := map_eq_ok_iff.mp read
    obtain ⟨numeral, positive, isBytes, inRange⟩ := exists_of_number readNumber
    refine ⟨.number numeral, ?_, ofNumber numeral inRange⟩
    rw [Spelling.bytes, NumeralSpelling.bytes, if_neg (Bool.eq_false_iff.mp positive), isBytes]
  split at read
  · rename_i isQuote
    obtain ⟨value, readText, rfl⟩ := map_eq_ok_iff.mp read
    obtain ⟨spelling, isBytes, rfl⟩ := text_eq_ok_iff.mp readText
    exact ⟨.string spelling, (congrArg (· :: _) isQuote).trans isBytes, by cases levels <;> rfl⟩
  · contradiction

/-- A spelled member is read as its key and its value. -/
theorem toOption_member {inner : Reader Value} {meaning : Spelling → Option Value}
    (reads : ∀ (spelling : Spelling) blanks rest, Delimited rest →
      (inner (Blank.bytes blanks ++ (spelling.bytes ++ rest))).toOption =
        (meaning spelling).map (·, rest))
    (delimited : Delimited rest) (keyed : Keyed Spelling) :
    (member inner (keyed.bytes Spelling.bytes ++ rest)).toOption =
      (keyed.member? meaning).map (·, rest) := by
  obtain ⟨key, beforeColon, behindColon, value⟩ := keyed
  have isBytes : Keyed.bytes Spelling.bytes ⟨key, beforeColon, behindColon, value⟩ ++ rest =
      ascii '"' :: (key.flatMap CharSpelling.bytes ++ ascii '"' ::
        (Blank.bytes beforeColon ++ ascii ':' ::
          (Blank.bytes behindColon ++ (value.bytes ++ rest)))) := by
    simp [Keyed.bytes, TextSpelling.bytes]
  rw [isBytes, member, if_pos rfl, text_spelled]
  change (colon _ >>= fun found => map (TextSpelling.text key, ·) inner found.2).toOption = _
  rw [colon_eq_ok_iff.mpr ⟨beforeColon, rfl⟩]
  change (map (TextSpelling.text key, ·) inner _).toOption = _
  rw [toOption_map, reads value behindColon rest delimited, Keyed.member?]
  cases meaning value <;> rfl

/-- A member that is read is spelled. -/
theorem exists_of_member {inner : Reader Value} {meaning : Spelling → Option Value}
    (reads : ∀ value bytes rest, inner bytes = .ok (value, rest) →
      ∃ blanks spelling, bytes = Blank.bytes blanks ++ (spelling.bytes ++ rest) ∧
        meaning spelling = some value)
    {found : String × Value} (read : member inner bytes = .ok (found, rest)) :
    ∃ keyed : Keyed Spelling, bytes = keyed.bytes Spelling.bytes ++ rest ∧
      keyed.member? meaning = some found := by
  unfold member at read
  split at read
  · contradiction
  split at read
  · rename_i isQuote
    obtain ⟨⟨key, next⟩, readKey, followed⟩ := bind_eq_ok_iff.mp read
    obtain ⟨⟨⟨⟩, next⟩, readColon, followed⟩ := bind_eq_ok_iff.mp followed
    obtain ⟨value, readValue, rfl⟩ := map_eq_ok_iff.mp followed
    obtain ⟨spelledKey, isKey, rfl⟩ := text_eq_ok_iff.mp readKey
    obtain ⟨beforeColon, rfl⟩ := colon_eq_ok_iff.mp readColon
    obtain ⟨behindColon, spelling, rfl, means⟩ := reads value _ _ readValue
    refine ⟨⟨spelledKey, beforeColon, behindColon, spelling⟩, ?_, by rw [Keyed.member?, means]; rfl⟩
    rw [isQuote, isKey]
    simp [Keyed.bytes]
  · contradiction

/-- How a value was read: as a scalar, or behind an opening bracket by the reader
of values one level down. -/
theorem of_valueWithin {inner : Option (Reader Value)} {found : Value}
    (read : valueWithin inner bytes = .ok (found, rest)) :
    ∃ blanks next, bytes = Blank.bytes blanks ++ next ∧
      (scalar next = .ok (found, rest) ∨
        (∃ item tail items, inner = some item ∧ next = ascii '[' :: tail ∧
          separated .list item tail = .ok (items, rest) ∧ found = .array items) ∨
        (∃ item tail members, inner = some item ∧ next = ascii '\x7b' :: tail ∧
          separated .object (member item) tail = .ok (members, rest) ∧
          found = .object (Record.ofMembers members))) := by
  obtain ⟨blanks, isBytes, -⟩ := exists_blanks bytes
  refine ⟨blanks, skipBlanks bytes, isBytes, ?_⟩
  unfold valueWithin at read
  split at read
  · contradiction
  rename_i byte tail skipped
  rw [skipped]
  split at read
  · rename_i isList
    subst isList
    split at read
    · contradiction
    · rename_i item
      obtain ⟨items, readItems, rfl⟩ := map_eq_ok_iff.mp read
      exact .inr (.inl ⟨item, tail, items, rfl, rfl, readItems, rfl⟩)
  split at read
  · rename_i isObject
    subst isObject
    split at read
    · contradiction
    · rename_i item
      obtain ⟨members, readMembers, rfl⟩ := map_eq_ok_iff.mp read
      exact .inr (.inr ⟨item, tail, members, rfl, rfl, readMembers, rfl⟩)
  · exact .inl read

/-- Whatever is read as a value is spelled. -/
theorem exists_of_value (levels : Nat) (found : Value) (bytes rest : List UInt8)
    (read : value levels bytes = .ok (found, rest)) :
    ∃ (blanks : List Blank) (spelling : Spelling),
      bytes = Blank.bytes blanks ++ (spelling.bytes ++ rest) ∧
        spelling.value? levels = some found := by
  induction levels generalizing found bytes rest with
  | zero =>
      obtain ⟨blanks, next, rfl, asScalar | ⟨item, _, _, noLevel, _⟩ | ⟨item, _, _, noLevel, _⟩⟩ :=
        of_valueWithin read
      · obtain ⟨spelling, rfl, means⟩ := exists_of_scalar asScalar 0
        exact ⟨blanks, spelling, rfl, means⟩
      · contradiction
      · contradiction
  | succ levels ih =>
      have item (value : Value) (bytes rest : List UInt8) (solid : Solid bytes)
          (read : Reader.value levels bytes = .ok (value, rest)) :
          ∃ spelling : Spelling, bytes = spelling.bytes ++ rest ∧
            spelling.value? levels = some value := by
        obtain ⟨blanks, spelling, rfl, means⟩ := ih value bytes rest read
        cases blanks with
        | nil => exact ⟨spelling, rfl, means⟩
        | cons blank blanks =>
            have isOne := isBlank_iff.mpr ⟨blank, rfl⟩
            rw [solid blank.byte rfl] at isOne
            contradiction
      obtain ⟨blanks, next, rfl, asScalar | ⟨_, tail, items, ⟨⟩, rfl, readItems, rfl⟩ |
        ⟨_, tail, members, ⟨⟩, rfl, readMembers, rfl⟩⟩ := of_valueWithin read
      · obtain ⟨spelling, rfl, means⟩ := exists_of_scalar asScalar (levels + 1)
        exact ⟨blanks, spelling, rfl, means⟩
      · obtain ⟨spelled, closing, rfl, means⟩ := exists_of_separated item readItems
        refine ⟨blanks, .array spelled closing, ?_, ?_⟩
        · simp [Spelling.bytes, Spelling.itemsBytes_eq, Brackets.list]
        · rw [Spelling.value?, Spelling.values?_eq, means]
          rfl
      · obtain ⟨spelled, closing, rfl, means⟩ := exists_of_separated
          (fun found bytes rest _ read => exists_of_member ih read) readMembers
        refine ⟨blanks, .object spelled closing, ?_, ?_⟩
        · simp [Spelling.bytes, Spelling.membersBytes_eq, Brackets.object]
        · rw [Spelling.value?, Spelling.members?_eq, means]
          rfl

/-- What begins with no opening bracket is read as a scalar. -/
theorem value_scalar (levels : Nat) (blanks : List Blank) {byte : UInt8}
    (notBlank : isBlank byte = false) (notList : byte ≠ ascii '[')
    (notObject : byte ≠ ascii '\x7b') :
    value levels (Blank.bytes blanks ++ byte :: rest) = scalar (byte :: rest) := by
  have within (inner : Option (Reader Value)) :
      valueWithin inner (Blank.bytes blanks ++ byte :: rest) = scalar (byte :: rest) := by
    unfold valueWithin
    rw [skipBlanks_append blanks (solid_cons notBlank rest)]
    simp only [if_neg notList, if_neg notObject]
  cases levels with
  | zero => exact within none
  | succ levels => exact within (some (value levels))

/-- What begins with an opening bracket is read by the reader one level down. -/
theorem value_list (levels : Nat) (blanks : List Blank) :
    (value 0 (Blank.bytes blanks ++ ascii '[' :: rest)).toOption = none ∧
      value (levels + 1) (Blank.bytes blanks ++ ascii '[' :: rest) =
        map .array (separated .list (value levels)) rest := by
  have skipped : skipBlanks (Blank.bytes blanks ++ ascii '[' :: rest) = ascii '[' :: rest :=
    skipBlanks_append blanks (solid_cons (by decide) rest)
  constructor
  · rw [value, valueWithin, skipped]
    rfl
  · rw [value, valueWithin, skipped]
    rfl

/-- What begins with an opening brace is read by the reader one level down. -/
theorem value_object (levels : Nat) (blanks : List Blank) :
    (value 0 (Blank.bytes blanks ++ ascii '\x7b' :: rest)).toOption = none ∧
      value (levels + 1) (Blank.bytes blanks ++ ascii '\x7b' :: rest) =
        map (.object ∘ Record.ofMembers) (separated .object (member (value levels))) rest := by
  have skipped : skipBlanks (Blank.bytes blanks ++ ascii '\x7b' :: rest) =
      ascii '\x7b' :: rest :=
    skipBlanks_append blanks (solid_cons (by decide) rest)
  constructor
  · rw [value, valueWithin, skipped]
    rfl
  · rw [value, valueWithin, skipped]
    rfl

/-- A number is read with the scalars. -/
theorem value_number (levels : Nat) (blanks : List Blank) (numeral : NumeralSpelling) :
    value levels (Blank.bytes blanks ++ (numeral.bytes ++ rest)) =
      scalar (numeral.bytes ++ rest) := by
  have apart : ∀ digit, isBlank (digitByte digit) = false ∧ digitByte digit ≠ ascii '[' ∧
      digitByte digit ≠ ascii '\x7b' := by
    decide
  obtain ⟨byte, tail, isBytes, kind⟩ := exists_head_number numeral
  rw [isBytes, List.cons_append]
  rcases kind with rfl | isOne
  · exact value_scalar levels blanks (by decide) (by decide) (by decide)
  · obtain ⟨digit, rfl⟩ := isDigit_iff.mp isOne
    obtain ⟨notBlank, notList, notObject⟩ := apart digit
    exact value_scalar levels blanks notBlank notList notObject

/-- A spelled scalar is read as its value. -/
theorem toOption_value_scalar (levels : Nat) {spelling : Spelling}
    (notArray : ∀ items closing, spelling ≠ .array items closing)
    (notObject : ∀ members closing, spelling ≠ .object members closing)
    (blanks : List Blank) (delimited : Delimited rest) :
    (value levels (Blank.bytes blanks ++ (spelling.bytes ++ rest))).toOption =
      (spelling.value? levels).map (·, rest) := by
  cases spelling with
  | null =>
      rw [Spelling.value?]
      exact congrArg Except.toOption
        (value_scalar levels blanks (by decide) (by decide) (by decide))
  | bool truth =>
      cases truth with
      | true =>
          rw [Spelling.value?]
          exact congrArg Except.toOption
            (value_scalar levels blanks (by decide) (by decide) (by decide))
      | false =>
          rw [Spelling.value?]
          exact congrArg Except.toOption
            (value_scalar levels blanks (by decide) (by decide) (by decide))
  | number numeral =>
      rw [Spelling.bytes, Spelling.value?, value_number]
      exact toOption_scalar_number delimited numeral
  | string text =>
      have isBytes : TextSpelling.bytes text ++ rest =
          ascii '"' :: (text.flatMap CharSpelling.bytes ++ ascii '"' :: rest) := by
        simp [TextSpelling.bytes]
      rw [Spelling.bytes, Spelling.value?, isBytes,
        value_scalar levels blanks (by decide) (by decide) (by decide), scalar_string,
        toOption_map, text_spelled]
      rfl
  | array items closing => exact absurd rfl (notArray items closing)
  | object members closing => exact absurd rfl (notObject members closing)

/-- The text of an array behind its opening bracket. -/
theorem array_bytes_append (items : List (Spaced Spelling)) (closing : List Blank) :
    (Spelling.array items closing).bytes ++ rest =
      ascii '[' :: (listedBytes Spelling.bytes true items ++
        (Blank.bytes closing ++ Brackets.list.close :: rest)) := by
  simp [Spelling.bytes, Spelling.itemsBytes_eq, Brackets.list]

/-- The text of an object behind its opening brace. -/
theorem object_bytes_append (members : List (Spaced (Keyed Spelling))) (closing : List Blank) :
    (Spelling.object members closing).bytes ++ rest =
      ascii '\x7b' :: (listedBytes (Keyed.bytes Spelling.bytes) true members ++
        (Blank.bytes closing ++ Brackets.object.close :: rest)) := by
  simp [Spelling.bytes, Spelling.membersBytes_eq, Brackets.object]

/-- A spelled value is read if it has one, and refused if not. -/
theorem toOption_value (levels : Nat) (spelling : Spelling) (blanks : List Blank)
    (rest : List UInt8) (delimited : Delimited rest) :
    (value levels (Blank.bytes blanks ++ (spelling.bytes ++ rest))).toOption =
      (spelling.value? levels).map (·, rest) := by
  induction levels generalizing spelling blanks rest with
  | zero =>
      cases spelling with
      | array items closing =>
          rw [array_bytes_append, (value_list 0 blanks).1, Spelling.value?]
          rfl
      | object members closing =>
          rw [object_bytes_append, (value_object 0 blanks).1, Spelling.value?]
          rfl
      | _ => exact toOption_value_scalar 0 (by simp) (by simp) blanks delimited
  | succ levels ih =>
      cases spelling with
      | array items closing =>
          have read := toOption_separated Brackets.distinct_list items
            (fun item _ rest => begins_item item.content rest)
            (fun item _ rest delimited => ih item.content [] rest delimited) closing rest
          rw [array_bytes_append, (value_list levels blanks).2, toOption_map, read,
            Spelling.value?, Spelling.values?_eq]
          cases items.mapM fun item => item.content.value? levels <;> rfl
      | object members closing =>
          have read := toOption_separated Brackets.distinct_object members
            (fun member _ rest => begins_member member.content rest)
            (fun member _ rest delimited => toOption_member ih delimited member.content)
            closing rest
          rw [object_bytes_append, (value_object levels blanks).2, toOption_map, read,
            Spelling.value?, Spelling.members?_eq]
          cases members.mapM fun member =>
            member.content.member? (Spelling.value? levels) <;> rfl
      | _ => exact toOption_value_scalar (levels + 1) (by simp) (by simp) blanks delimited

/-! ## Whole texts -/

theorem toOption_mapError {ε ε' α : Type} (f : ε → ε') (result : Except ε α) :
    (result.mapError f).toOption = result.toOption := by
  cases result <;> rfl

theorem delimited_blanks (blanks : List Blank) : Delimited (Blank.bytes blanks) := by
  have atEnd : Delimited [] := by rintro byte ⟨⟩
  have delimited := delimited_append blanks atEnd
  rwa [List.append_nil] at delimited

theorem skipBlanks_bytes (blanks : List Blank) : skipBlanks (Blank.bytes blanks) = [] := by
  have atEnd : Solid [] := by rintro byte ⟨⟩
  have skipped := skipBlanks_append blanks atEnd
  rwa [List.append_nil] at skipped

/-- All of a text is read if what follows the value is blank. -/
theorem complete_eq_ok_iff {α : Type} {reader : Reader α} {value : α} :
    complete reader bytes = .ok value ↔
      ∃ blanks : List Blank, reader bytes = .ok (value, Blank.bytes blanks) := by
  rw [← toOption_eq_some_iff, complete, toOption_mapError, toOption_eq_some_iff, bind_eq_ok_iff]
  constructor
  · rintro ⟨⟨found, rest⟩, read, followed⟩
    dsimp only at followed
    split at followed
    · rename_i allRead
      obtain rfl := Except.ok.inj followed
      obtain ⟨blanks, isRest, -⟩ := exists_blanks rest
      rw [allRead, List.append_nil] at isRest
      exact ⟨blanks, isRest ▸ read⟩
    · contradiction
  · rintro ⟨blanks, read⟩
    refine ⟨_, read, ?_⟩
    dsimp only
    rw [skipBlanks_bytes]

end Reader

/-- On the text of a spelling the reader yields its value, and fails if it has
none. -/
theorem Value.toOption_ofBytes (text : WholeText) :
    (Value.ofBytes (WholeText.bytes text)).toOption = text.content.value? nestingLimit := by
  have read := Reader.toOption_value nestingLimit text.content text.before
    (Blank.bytes text.behind) (Reader.delimited_blanks text.behind)
  ext value
  rw [toOption_eq_some_iff, Value.ofBytes, Reader.complete_eq_ok_iff, WholeText.bytes]
  constructor
  · rintro ⟨blanks, readOther⟩
    rw [readOther] at read
    obtain ⟨found, isFound, same⟩ := Option.map_eq_some_iff.mp read.symm
    rwa [← (Prod.mk.inj same).1]
  · intro means
    rw [means] at read
    exact ⟨text.behind, toOption_eq_some_iff.mp read⟩

/-- The reader yields a value exactly if the text is a spelling of it. -/
theorem Value.ofBytes_eq_ok_iff {bytes : List UInt8} {value : Value} :
    Value.ofBytes bytes = .ok value ↔
      ∃ text : WholeText, WholeText.bytes text = bytes ∧
        text.content.value? nestingLimit = some value := by
  constructor
  · intro accepted
    obtain ⟨behind, read⟩ := Reader.complete_eq_ok_iff.mp accepted
    obtain ⟨before, spelling, isBytes, means⟩ := Reader.exists_of_value _ _ _ _ read
    exact ⟨⟨before, spelling, behind⟩, isBytes.symm, means⟩
  · rintro ⟨text, rfl, means⟩
    rw [← toOption_eq_some_iff, Value.toOption_ofBytes, means]

/-- A document is what is read. -/
theorem documentOfBytes_eq_ok_iff {bytes : List UInt8} {document : Value} :
    documentOfBytes bytes = .ok document ↔ Value.ofBytes bytes = .ok document := by
  rw [documentOfBytes, ← toOption_eq_some_iff, Reader.toOption_mapError, toOption_eq_some_iff]

end Provenance.Json
