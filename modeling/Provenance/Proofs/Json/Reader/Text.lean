import Mathlib
import Provenance.Proofs.Json.Reader.Basic
import Provenance.Proofs.Text.Utf8

/-!
# Reading strings, both ways

A string is read exactly if it is spelled: `text_eq_ok_iff`.  From the spelling
to the string, every character adds its UTF-8 to what is gathered, and decoding
undoes that.  From the string to the spelling, the raw bytes that were gathered
have to be grouped into characters; an escape never supplies a part of one,
since the UTF-8 of a character begins with a byte that continues none.
-/

namespace Provenance.Json

namespace Reader

variable {bytes rest : List UInt8}

/-- A byte within a range is its beginning and a number below the size. -/
theorem exists_fin_of_le {byte : UInt8} (least : UInt8) (size : Nat)
    (fromLeast : least ≤ byte) (toGreatest : byte.toNat < least.toNat + size) :
    ∃ value : Fin size, UInt8.ofNat (least.toNat + value) = byte := by
  have isLeast := UInt8.le_iff_toNat_le.mp fromLeast
  refine ⟨⟨byte.toNat - least.toNat, by omega⟩, ?_⟩
  rw [Nat.add_sub_cancel' isLeast, UInt8.ofNat_toNat]

theorem isDigit_iff {byte : UInt8} : isDigit byte = true ↔ ∃ digit, digitByte digit = byte := by
  constructor
  · intro inRange
    rw [isDigit, Bool.and_eq_true, decide_eq_true_eq, decide_eq_true_eq] at inRange
    exact exists_fin_of_le (ascii '0') 10 inRange.1
      (Nat.lt_succ_of_le (UInt8.le_iff_toNat_le.mp inRange.2))
  · rintro ⟨digit, rfl⟩
    revert digit
    decide

@[simp]
theorem digitValue_digitByte : ∀ digit, digitValue (digitByte digit) = digit.val := by
  decide

theorem hexValue?_byte (digit : HexDigit) : hexValue? digit.byte = some digit.value := by
  rcases digit with value | value | value
  · revert value
    decide
  · revert value
    decide
  · revert value
    decide

/-- Only hexadecimal digits have a value. -/
theorem exists_hexDigit {byte : UInt8} (found : hexValue? byte ≠ none) :
    ∃ digit : HexDigit, digit.byte = byte := by
  unfold hexValue? at found
  split at found
  · rename_i isDecimal
    obtain ⟨digit, isByte⟩ := isDigit_iff.mp isDecimal
    exact ⟨.decimal digit, isByte⟩
  split at found
  · rename_i range
    obtain ⟨value, isByte⟩ := exists_fin_of_le (ascii 'a') 6 range.1
      (Nat.lt_succ_of_le (UInt8.le_iff_toNat_le.mp range.2))
    exact ⟨.lower value, isByte⟩
  split at found
  · rename_i range
    obtain ⟨value, isByte⟩ := exists_fin_of_le (ascii 'A') 6 range.1
      (Nat.lt_succ_of_le (UInt8.le_iff_toNat_le.mp range.2))
    exact ⟨.upper value, isByte⟩
  · contradiction

theorem hexValue?_eq_some_iff {byte : UInt8} {value : Nat} :
    hexValue? byte = some value ↔ ∃ digit : HexDigit, digit.byte = byte ∧ digit.value = value := by
  constructor
  · intro isValue
    obtain ⟨digit, rfl⟩ := exists_hexDigit (isValue ▸ Option.some_ne_none _)
    rw [hexValue?_byte] at isValue
    exact ⟨digit, rfl, Option.some.inj isValue⟩
  · rintro ⟨digit, rfl, rfl⟩
    exact hexValue?_byte digit

/-- Four hexadecimal digits are read as their number. -/
theorem hexUnit_eq_ok_iff {value : Nat} :
    hexUnit bytes = .ok (value, rest) ↔
      ∃ unit : HexUnit, bytes = unit.bytes ++ rest ∧ unit.value = value := by
  constructor
  · intro read
    unfold hexUnit at read
    split at read
    · split at read
      · rename_i v₃ v₂ v₁ v₀ h₃ h₂ h₁ h₀
        obtain ⟨d₃, rfl, rfl⟩ := hexValue?_eq_some_iff.mp h₃
        obtain ⟨d₂, rfl, rfl⟩ := hexValue?_eq_some_iff.mp h₂
        obtain ⟨d₁, rfl, rfl⟩ := hexValue?_eq_some_iff.mp h₁
        obtain ⟨d₀, rfl, rfl⟩ := hexValue?_eq_some_iff.mp h₀
        obtain ⟨rfl, rfl⟩ := Prod.mk.inj (Except.ok.inj read)
        exact ⟨⟨d₃, d₂, d₁, d₀⟩, rfl, rfl⟩
      · contradiction
    · contradiction
  · rintro ⟨⟨d₃, d₂, d₁, d₀⟩, rfl, rfl⟩
    simp only [HexUnit.bytes, List.cons_append, List.nil_append, hexUnit, hexValue?_byte]
    rfl

theorem expectInEscape_eq_ok_iff {char : Char} :
    expectInEscape char bytes = .ok ((), rest) ↔ bytes = ascii char :: rest := by
  unfold expectInEscape
  split
  · simp [failHere]
  · rename_i byte tail
    split
    · rename_i same
      simp [same]
    · rename_i different
      simp [failHere, different]

/-- What the mark of an escape by code point is followed by. -/
theorem unicodeEscape_eq_ok_iff {char : Char} :
    unicodeEscape bytes = .ok (char, rest) ↔
      ∃ escape : Escape, ascii 'u' :: bytes = escape.bytes ++ rest ∧ escape.char = char := by
  constructor
  · intro read
    obtain ⟨⟨value, next⟩, readUnit, followed⟩ := bind_eq_ok_iff.mp read
    obtain ⟨unit, rfl, rfl⟩ := hexUnit_eq_ok_iff.mp readUnit
    dsimp only at followed
    split at followed
    · contradiction
    rename_i notLow
    split at followed
    · rename_i isHigh
      obtain ⟨⟨⟨⟩, next⟩, backslash, followed⟩ := bind_eq_ok_iff.mp followed
      obtain ⟨⟨⟨⟩, next⟩, mark, followed⟩ := bind_eq_ok_iff.mp followed
      obtain ⟨⟨second, next⟩, readSecond, followed⟩ := bind_eq_ok_iff.mp followed
      obtain rfl := expectInEscape_eq_ok_iff.mp backslash
      obtain rfl := expectInEscape_eq_ok_iff.mp mark
      obtain ⟨low, rfl, rfl⟩ := hexUnit_eq_ok_iff.mp readSecond
      dsimp only at followed
      split at followed
      · rename_i isLow
        obtain ⟨rfl, rfl⟩ := Prod.mk.inj (Except.ok.inj followed)
        exact ⟨.surrogates unit low isHigh isLow, by simp [Escape.bytes], rfl⟩
      · contradiction
    · rename_i notHigh
      obtain ⟨rfl, rfl⟩ := Prod.mk.inj (Except.ok.inj followed)
      exact ⟨.codePoint unit (Bool.eq_false_iff.mpr notHigh) (Bool.eq_false_iff.mpr notLow),
        rfl, rfl⟩
  · rintro ⟨escape, isBytes, rfl⟩
    have reads (unit : HexUnit) (rest : List UInt8) :
        hexUnit (unit.bytes ++ rest) = .ok (unit.value, rest) :=
      hexUnit_eq_ok_iff.mpr ⟨unit, rfl, rfl⟩
    cases escape with
    | short escape =>
        have isMark := (List.cons.inj isBytes).1
        cases escape <;> contradiction
    | codePoint unit notHigh notLow =>
        obtain rfl := (List.cons.inj isBytes).2
        refine bind_eq_ok_iff.mpr ⟨_, reads unit rest, ?_⟩
        simp only [notLow, notHigh, Bool.false_eq_true, if_false]
        rfl
    | surrogates high low isHigh isLow =>
        have notLow : isLowSurrogate high.value = false := by
          simp only [isHighSurrogate, isLowSurrogate, Bool.and_eq_true, decide_eq_true_eq,
            Bool.and_eq_false_iff, decide_eq_false_iff_not] at isHigh ⊢
          omega
        have isRest : bytes = high.bytes ++ (ascii '\\' :: ascii 'u' :: (low.bytes ++ rest)) := by
          simpa [Escape.bytes] using isBytes
        subst isRest
        refine bind_eq_ok_iff.mpr ⟨_, reads high _, ?_⟩
        simp only [notLow, isHigh, Bool.false_eq_true, if_false, if_true]
        refine bind_eq_ok_iff.mpr ⟨_, expectInEscape_eq_ok_iff.mpr rfl, ?_⟩
        refine bind_eq_ok_iff.mpr ⟨_, expectInEscape_eq_ok_iff.mpr rfl, ?_⟩
        refine bind_eq_ok_iff.mpr ⟨_, reads low rest, ?_⟩
        simp only [isLow, if_true]
        rfl

theorem shortEscape?_letter (escape : ShortEscape) :
    shortEscape? (ascii escape.letter) = some escape.char := by
  cases escape <;> rfl

/-- Only the letters of short escapes stand for a character. -/
theorem exists_shortEscape {byte : UInt8} (found : shortEscape? byte ≠ none) :
    ∃ escape : ShortEscape, ascii escape.letter = byte := by
  unfold shortEscape? at found
  split at found
  · exact ⟨.quote, by symm; assumption⟩
  split at found
  · exact ⟨.backslash, by symm; assumption⟩
  split at found
  · exact ⟨.slash, by symm; assumption⟩
  split at found
  · exact ⟨.backspace, by symm; assumption⟩
  split at found
  · exact ⟨.formFeed, by symm; assumption⟩
  split at found
  · exact ⟨.lineFeed, by symm; assumption⟩
  split at found
  · exact ⟨.carriageReturn, by symm; assumption⟩
  split at found
  · exact ⟨.tab, by symm; assumption⟩
  · contradiction

/-- An escape is read exactly if it is spelled. -/
theorem escape_eq_ok_iff {char : Char} :
    escape bytes = .ok (char, rest) ↔
      ∃ spelled : Escape, bytes = spelled.bytes ++ rest ∧ spelled.char = char := by
  constructor
  · intro read
    unfold escape at read
    split at read
    · contradiction
    split at read
    · rename_i found
      obtain ⟨rfl, rfl⟩ := Prod.mk.inj (Except.ok.inj read)
      obtain ⟨letter, rfl⟩ := exists_shortEscape (found ▸ Option.some_ne_none _)
      rw [shortEscape?_letter] at found
      exact ⟨.short letter, rfl, Option.some.inj found⟩
    split at read
    · rename_i isMark
      subst isMark
      exact unicodeEscape_eq_ok_iff.mp read
    · contradiction
  · rintro ⟨spelled, rfl, rfl⟩
    have byCode (tail : List UInt8) :
        escape (ascii 'u' :: tail) = unicodeEscape tail :=
      rfl
    cases spelled with
    | short letter =>
        simp only [Escape.bytes, List.cons_append, List.nil_append, escape, shortEscape?_letter]
        rfl
    | codePoint unit notHigh notLow =>
        exact (byCode _).trans
          (unicodeEscape_eq_ok_iff.mpr ⟨.codePoint unit notHigh notLow, rfl, rfl⟩)
    | surrogates high low isHigh isLow =>
        exact (byCode _).trans
          (unicodeEscape_eq_ok_iff.mpr ⟨.surrogates high low isHigh isLow, rfl, rfl⟩)

/-! ## From the spelling to the string -/

/-- A byte of a string that is gathered as it is. -/
def IsPlain (byte : UInt8) : Prop :=
  byte ≠ ascii '"' ∧ byte ≠ ascii '\\' ∧ ¬ byte < 0x20

theorem isPlain_of_le {byte : UInt8} (notAscii : 0x80 ≤ byte) : IsPlain byte := by
  have least : 128 ≤ byte.toNat := UInt8.le_iff_toNat_le.mp notAscii
  refine ⟨?_, ?_, fun less => ?_⟩
  · rintro rfl
    exact absurd least (by decide)
  · rintro rfl
    exact absurd least (by decide)
  · have less : byte.toNat < 32 := UInt8.lt_iff_toNat_lt.mp less
    omega

theorem toNat_ascii {char : Char} (isAscii : char.toNat < 0x80) :
    (ascii char).toNat = char.toNat :=
  UInt8.toNat_ofNat_of_lt' (isAscii.trans (by decide))

/-- The bytes of a character are plain exactly if it may stand for itself. -/
theorem forall_isPlain_iff {char : Char} :
    (∀ byte ∈ String.utf8EncodeChar char, IsPlain byte) ↔ isLiteral char = true := by
  have literal_iff : isLiteral char = true ↔ 0x20 ≤ char.toNat ∧ char ≠ '"' ∧ char ≠ '\\' := by
    simp [isLiteral, and_assoc]
  rw [literal_iff]
  by_cases isAscii : char.toNat < 0x80
  · have same (other : Char) (otherAscii : other.toNat < 0x80) :
        ascii char ≠ ascii other ↔ char ≠ other := by
      rw [ne_eq, ne_eq, not_iff_not, ← UInt8.toNat_inj, toNat_ascii isAscii,
        toNat_ascii otherAscii, Char.toNat_inj]
    have control : ascii char < 0x20 ↔ char.toNat < 0x20 := by
      rw [UInt8.lt_iff_toNat_lt, toNat_ascii isAscii]
      rfl
    rw [Text.Utf8.utf8EncodeChar_of_ascii isAscii, List.forall_mem_singleton]
    change ascii char ≠ ascii '"' ∧ ascii char ≠ ascii '\\' ∧ ¬ ascii char < 0x20 ↔ _
    rw [same '"' (by decide), same '\\' (by decide), control, not_lt]
    tauto
  · constructor
    · intro _
      refine ⟨by omega, ?_, ?_⟩
      · rintro rfl
        exact isAscii (by decide)
      · rintro rfl
        exact isAscii (by decide)
    · intro _ byte member
      exact isPlain_of_le (Text.Utf8.le_of_mem_utf8EncodeChar (not_lt.mp isAscii) member)

/-- Plain bytes are gathered. -/
theorem textFrom_plain {raw clock : List UInt8} (plain : ∀ byte ∈ raw, IsPlain byte)
    (enough : raw.length ≤ clock.length) (gathered : List UInt8) :
    textFrom clock gathered (raw ++ rest) =
      textFrom (clock.drop raw.length) (raw.reverse ++ gathered) rest := by
  induction raw generalizing clock gathered with
  | nil => rfl
  | cons byte raw ih =>
      obtain ⟨tick, clock, rfl⟩ := List.exists_cons_of_length_pos (Nat.zero_lt_of_lt enough)
      obtain ⟨notQuote, notBackslash, notControl⟩ := plain byte (.head raw)
      rw [List.cons_append, textFrom, if_neg notQuote, if_neg notBackslash, if_neg notControl,
        ih (fun byte member => plain byte (.tail _ member)) (Nat.le_of_succ_le_succ enough)]
      simp

/-- An escape is gathered as the character it means. -/
theorem textFrom_escaped (tick : UInt8) (clock gathered : List UInt8) (spelled : Escape) :
    textFrom (tick :: clock) gathered (ascii '\\' :: spelled.bytes ++ rest) =
      textFrom clock ((String.utf8EncodeChar spelled.char).reverse ++ gathered) rest := by
  rw [List.cons_append, textFrom, if_neg (by decide), if_pos rfl,
    escape_eq_ok_iff.mpr ⟨spelled, rfl, rfl⟩]
  rfl

/-- Up to the closing quote, the characters that are spelled are gathered. -/
theorem textFrom_spelled {spelling : TextSpelling} {clock : List UInt8}
    (enough : (spelling.flatMap CharSpelling.bytes).length < clock.length)
    (gathered : List UInt8) :
    textFrom clock gathered (spelling.flatMap CharSpelling.bytes ++ ascii '"' :: rest) =
      finishText ((Text.Utf8.encode (spelling.map CharSpelling.char)).reverse ++ gathered)
        rest := by
  induction spelling generalizing clock gathered with
  | nil =>
      obtain ⟨tick, clock, rfl⟩ := List.exists_cons_of_length_pos enough
      rfl
  | cons char spelling ih =>
      rw [List.flatMap_cons, List.length_append] at enough
      rw [List.flatMap_cons, List.append_assoc, List.map_cons, Text.Utf8.encode_cons,
        List.reverse_append, List.append_assoc]
      cases char with
      | literal char allowed =>
          rw [CharSpelling.bytes] at enough
          rw [CharSpelling.bytes, textFrom_plain (forall_isPlain_iff.mpr allowed) (by omega),
            ih (by rw [List.length_drop]; omega)]
          rfl
      | escaped spelled =>
          rw [CharSpelling.bytes, List.length_cons] at enough
          obtain ⟨tick, clock, rfl⟩ := List.exists_cons_of_length_pos (Nat.zero_lt_of_lt enough)
          rw [CharSpelling.bytes, textFrom_escaped, ih (by rw [List.length_cons] at enough; omega)]
          rfl

/-! ## From the string to the spelling -/

/-- What the content of a string is read as: plain bytes and escapes. -/
inductive Piece where
  | plain (byte : UInt8) (isPlain : IsPlain byte)
  | escaped (escape : Escape)

namespace Piece

/-- The bytes that are read. -/
def source : Piece → List UInt8
  | plain byte _ => [byte]
  | escaped escape => ascii '\\' :: escape.bytes

/-- The bytes that are gathered. -/
def content : Piece → List UInt8
  | plain byte _ => [byte]
  | escaped escape => String.utf8EncodeChar escape.char

end Piece

/-- A string that is read consists of pieces, and is the text that they gather. -/
theorem exists_pieces {clock gathered : List UInt8} {found : String}
    (read : textFrom clock gathered bytes = .ok (found, rest)) :
    ∃ pieces : List Piece, bytes = pieces.flatMap Piece.source ++ ascii '"' :: rest ∧
      gathered.reverse ++ pieces.flatMap Piece.content = Text.Utf8.encode found.toList := by
  induction clock generalizing gathered bytes with
  | nil => contradiction
  | cons tick clock ih =>
      cases bytes with
      | nil => contradiction
      | cons byte bytes =>
          unfold textFrom at read
          split at read
          · rename_i isQuote
            unfold finishText at read
            split at read
            · rename_i decoded
              obtain ⟨rfl, rfl⟩ := Prod.mk.inj (Except.ok.inj read)
              refine ⟨[], congrArg (· :: bytes) isQuote, ?_⟩
              rw [List.flatMap_nil, List.append_nil, String.toList_ofList]
              exact Text.Utf8.decode_eq_nil_iff.mp decoded
            · contradiction
          split at read
          · rename_i isBackslash
            obtain ⟨⟨char, next⟩, readEscape, followed⟩ := bind_eq_ok_iff.mp read
            obtain ⟨spelled, rfl, rfl⟩ := escape_eq_ok_iff.mp readEscape
            obtain ⟨pieces, rfl, isText⟩ := ih followed
            refine ⟨.escaped spelled :: pieces, ?_, ?_⟩
            · simp [Piece.source, isBackslash]
            · simpa [Piece.content] using isText
          split at read
          · contradiction
          · rename_i notQuote notBackslash notControl
            obtain ⟨pieces, rfl, isText⟩ := ih read
            refine ⟨.plain byte ⟨notQuote, notBackslash, notControl⟩ :: pieces, rfl, ?_⟩
            simpa [Piece.content] using isText

/-- Bytes that continue a character are gathered one by one. -/
theorem split_continuation {tail more : List UInt8} {pieces : List Piece}
    (continues : ∀ byte ∈ tail, Text.Utf8.continuation? byte ≠ none)
    (gathered : pieces.flatMap Piece.content = tail ++ more) :
    ∃ others : List Piece, pieces.flatMap Piece.source = tail ++ others.flatMap Piece.source ∧
      others.flatMap Piece.content = more ∧ ∀ byte ∈ tail, IsPlain byte := by
  induction tail generalizing pieces with
  | nil => exact ⟨pieces, rfl, gathered, by rintro byte ⟨⟩⟩
  | cons first tail ih =>
      cases pieces with
      | nil => contradiction
      | cons piece pieces =>
          rw [List.flatMap_cons] at gathered
          cases piece with
          | plain byte isPlain =>
              obtain ⟨rfl, isRest⟩ := List.cons.inj gathered
              obtain ⟨others, isBytes, isMore, plain⟩ :=
                ih (fun byte member => continues byte (.tail _ member)) isRest
              refine ⟨others, ?_, isMore, List.forall_mem_cons.mpr ⟨isPlain, plain⟩⟩
              rw [List.flatMap_cons, isBytes]
              rfl
          | escaped spelled =>
              obtain ⟨lead, others, isLead, notContinued, -⟩ :=
                Text.Utf8.utf8EncodeChar_eq_lead_cons spelled.char
              rw [Piece.content, isLead] at gathered
              obtain ⟨rfl, -⟩ := List.cons.inj gathered
              exact absurd notContinued (continues lead (.head _))

/-- Pieces that gather a text are a spelling of it. -/
theorem exists_spelling_of_pieces {pieces : List Piece} {chars : List Char}
    (gathered : pieces.flatMap Piece.content = Text.Utf8.encode chars) :
    ∃ spelling : TextSpelling, pieces.flatMap Piece.source = spelling.flatMap CharSpelling.bytes ∧
      spelling.map CharSpelling.char = chars := by
  induction chars generalizing pieces with
  | nil =>
      refine ⟨[], ?_, rfl⟩
      cases pieces with
      | nil => rfl
      | cons piece pieces =>
          rw [List.flatMap_cons, Text.Utf8.encode_nil, List.append_eq_nil_iff] at gathered
          cases piece with
          | plain byte isPlain => exact absurd gathered.1 (List.cons_ne_nil _ _)
          | escaped spelled => exact absurd gathered.1 String.utf8EncodeChar_ne_nil
  | cons char chars ih =>
      rw [Text.Utf8.encode_cons] at gathered
      obtain ⟨lead, tail, isLead, notContinued, continues⟩ :=
        Text.Utf8.utf8EncodeChar_eq_lead_cons char
      cases pieces with
      | nil =>
          rw [isLead] at gathered
          contradiction
      | cons piece pieces =>
          rw [List.flatMap_cons] at gathered
          cases piece with
          | plain byte isPlain =>
              rw [isLead] at gathered
              obtain ⟨rfl, isRest⟩ := List.cons.inj gathered
              obtain ⟨others, isBytes, isMore, plain⟩ := split_continuation continues isRest
              obtain ⟨spelling, isOthers, rfl⟩ := ih isMore
              have allowed : isLiteral char = true := by
                rw [← forall_isPlain_iff, isLead]
                exact List.forall_mem_cons.mpr ⟨isPlain, plain⟩
              refine ⟨.literal char allowed :: spelling, ?_, rfl⟩
              rw [List.flatMap_cons, isBytes, isOthers, List.flatMap_cons, CharSpelling.bytes,
                isLead]
              rfl
          | escaped spelled =>
              have decoded := congrArg Text.Utf8.decodeChar? gathered
              rw [Piece.content, Text.Utf8.decodeChar?_utf8EncodeChar,
                Text.Utf8.decodeChar?_utf8EncodeChar] at decoded
              obtain ⟨rfl, isMore⟩ := Prod.mk.inj (Option.some.inj decoded)
              obtain ⟨spelling, isOthers, rfl⟩ := ih isMore
              refine ⟨.escaped spelled :: spelling, ?_, rfl⟩
              rw [List.flatMap_cons, isOthers]
              rfl

/-- A string is read exactly if it is spelled. -/
theorem text_eq_ok_iff {found : String} :
    text bytes = .ok (found, rest) ↔
      ∃ spelling : TextSpelling, ascii '"' :: bytes = TextSpelling.bytes spelling ++ rest ∧
        TextSpelling.text spelling = found := by
  constructor
  · intro read
    obtain ⟨pieces, rfl, gathered⟩ := exists_pieces read
    obtain ⟨spelling, isBytes, isText⟩ := exists_spelling_of_pieces gathered
    refine ⟨spelling, ?_, ?_⟩
    · rw [isBytes, TextSpelling.bytes]
      simp
    · rw [TextSpelling.text, isText, String.ofList_toList]
  · rintro ⟨spelling, isBytes, rfl⟩
    have isBytes : bytes = spelling.flatMap CharSpelling.bytes ++ ascii '"' :: rest := by
      simpa [TextSpelling.bytes] using isBytes
    subst isBytes
    rw [text, textFrom_spelled (by simp), List.append_nil, finishText, List.reverse_reverse,
      Text.Utf8.decode_eq_nil_iff.mpr rfl]
    rfl

/-- A spelled string is read up to its closing quote. -/
theorem text_spelled (spelling : TextSpelling) :
    text (spelling.flatMap CharSpelling.bytes ++ ascii '"' :: rest) =
      .ok (TextSpelling.text spelling, rest) :=
  text_eq_ok_iff.mpr ⟨spelling, by simp [TextSpelling.bytes], rfl⟩

end Reader

end Provenance.Json
