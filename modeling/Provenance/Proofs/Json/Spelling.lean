import Mathlib
import Provenance.Json.Reader.Value

/-!
# Spellings

A JSON text together with every choice of spelling that was made in it: blanks
between the tokens, escapes in strings, signs and marks of exponents, the order
of members and members that are overridden later.  A spelling has the bytes of
its text (`Spelling.bytes`) and a value (`Spelling.value?`), unless a number in
it is out of range or arrays and objects nest too deep.

Only well-formed texts have a spelling.  A text is put together here from left to
right, and nothing is said about how it is taken apart again.
-/

namespace Provenance.Json

open Reader (ascii isHighSurrogate isLowSurrogate surrogatePair)

/-- A blank between tokens. -/
inductive Blank where
  | space
  | tab
  | lineFeed
  | carriageReturn
  deriving DecidableEq, Repr

namespace Blank

/-- The byte of a blank. -/
def byte : Blank → UInt8
  | space => 0x20
  | tab => 0x09
  | lineFeed => 0x0A
  | carriageReturn => 0x0D

/-- The bytes of blanks in a row. -/
def bytes (blanks : List Blank) : List UInt8 :=
  blanks.map byte

theorem bytes_append (first second : List Blank) :
    bytes (first ++ second) = bytes first ++ bytes second :=
  List.map_append

end Blank

/-- A hexadecimal digit, a letter in either case. -/
inductive HexDigit where
  | decimal (value : Fin 10)
  | lower (value : Fin 6)
  | upper (value : Fin 6)
  deriving DecidableEq, Repr

namespace HexDigit

/-- The byte of a digit. -/
def byte : HexDigit → UInt8
  | decimal value => UInt8.ofNat (48 + value)
  | lower value => UInt8.ofNat (97 + value)
  | upper value => UInt8.ofNat (65 + value)

/-- The value of a digit. -/
def value : HexDigit → Nat
  | decimal value => value
  | lower value => 10 + value
  | upper value => 10 + value

end HexDigit

/-- Four hexadecimal digits, the most significant one first. -/
structure HexUnit where
  d₃ : HexDigit
  d₂ : HexDigit
  d₁ : HexDigit
  d₀ : HexDigit
  deriving DecidableEq, Repr

namespace HexUnit

/-- The bytes of the digits. -/
def bytes (unit : HexUnit) : List UInt8 :=
  [unit.d₃.byte, unit.d₂.byte, unit.d₁.byte, unit.d₀.byte]

/-- The sixteen-bit number that the digits spell. -/
def value (unit : HexUnit) : Nat :=
  unit.d₃.value * 0x1000 + unit.d₂.value * 0x100 + unit.d₁.value * 0x10 + unit.d₀.value

end HexUnit

/-- The escapes with a letter of their own. -/
inductive ShortEscape where
  | quote
  | backslash
  | slash
  | backspace
  | formFeed
  | lineFeed
  | carriageReturn
  | tab
  deriving DecidableEq, Repr

namespace ShortEscape

/-- What stands behind the backslash. -/
def letter : ShortEscape → Char
  | quote => '"'
  | backslash => '\\'
  | slash => '/'
  | backspace => 'b'
  | formFeed => 'f'
  | lineFeed => 'n'
  | carriageReturn => 'r'
  | tab => 't'

/-- The character that is meant. -/
def char : ShortEscape → Char
  | quote => '"'
  | backslash => '\\'
  | slash => '/'
  | backspace => '\x08'
  | formFeed => '\x0c'
  | lineFeed => '\n'
  | carriageReturn => '\r'
  | tab => '\t'

end ShortEscape

/-- An escaped character: by a letter, by its code point, or by the two halves of
a surrogate pair. -/
inductive Escape where
  | short (escape : ShortEscape)
  | codePoint (unit : HexUnit) (notHigh : isHighSurrogate unit.value = false)
      (notLow : isLowSurrogate unit.value = false)
  | surrogates (high low : HexUnit) (isHigh : isHighSurrogate high.value = true)
      (isLow : isLowSurrogate low.value = true)
  deriving DecidableEq, Repr

namespace Escape

/-- The bytes behind the backslash. -/
def bytes : Escape → List UInt8
  | short escape => [ascii escape.letter]
  | codePoint unit _ _ => ascii 'u' :: unit.bytes
  | surrogates high low _ _ => ascii 'u' :: high.bytes ++ ascii '\\' :: ascii 'u' :: low.bytes

/-- The character that is meant. -/
def char : Escape → Char
  | short escape => escape.char
  | codePoint unit _ _ => Char.ofNat unit.value
  | surrogates high low _ _ => surrogatePair high.value low.value

end Escape

/-- A character that may stand for itself in a string: any but the quote, the
backslash and the control characters. -/
def isLiteral (char : Char) : Bool :=
  0x20 ≤ char.toNat && char != '"' && char != '\\'

/-- A character of a string. -/
inductive CharSpelling where
  | literal (char : Char) (allowed : isLiteral char = true)
  | escaped (escape : Escape)
  deriving DecidableEq, Repr

namespace CharSpelling

/-- The bytes of a character. -/
def bytes : CharSpelling → List UInt8
  | literal char _ => String.utf8EncodeChar char
  | escaped escape => ascii '\\' :: escape.bytes

/-- The character that is meant. -/
def char : CharSpelling → Char
  | literal char _ => char
  | escaped escape => escape.char

end CharSpelling

/-- A string between quotes, character by character. -/
abbrev TextSpelling := List CharSpelling

namespace TextSpelling

/-- The bytes of a string, quotes included. -/
def bytes (spelling : TextSpelling) : List UInt8 :=
  ascii '"' :: spelling.flatMap CharSpelling.bytes ++ [ascii '"']

/-- The string that is meant. -/
def text (spelling : TextSpelling) : String :=
  String.ofList (spelling.map CharSpelling.char)

end TextSpelling

/-! ## Numbers -/

/-- The byte of a decimal digit. -/
def digitByte (digit : Fin 10) : UInt8 :=
  UInt8.ofNat (48 + digit)

/-- The whole part of a number: a single zero, or digits that begin with another
one. -/
inductive WholeSpelling where
  | zero
  | positive (first : Fin 10) (notZero : first ≠ 0) (others : List (Fin 10))
  deriving DecidableEq, Repr

/-- The digits of a whole part. -/
def WholeSpelling.digits : WholeSpelling → List (Fin 10)
  | zero => [0]
  | positive first _ others => first :: others

/-- How the sign of an exponent is written. -/
inductive ExponentSign where
  | absent
  | plus
  | minus
  deriving DecidableEq, Repr

/-- The bytes of a sign. -/
def ExponentSign.bytes : ExponentSign → List UInt8
  | absent => []
  | plus => [ascii '+']
  | minus => [ascii '-']

/-- The mark of an exponent. -/
def exponentMark (uppercase : Bool) : UInt8 :=
  if uppercase then ascii 'E' else ascii 'e'

/-- An exponent, which has at least one digit. -/
structure ExponentSpelling where
  uppercase : Bool
  sign : ExponentSign
  first : Fin 10
  others : List (Fin 10)
  deriving DecidableEq, Repr

namespace ExponentSpelling

/-- The bytes of an exponent from its mark on. -/
def bytes (spelling : ExponentSpelling) : List UInt8 :=
  exponentMark spelling.uppercase :: spelling.sign.bytes ++
    digitByte spelling.first :: spelling.others.map digitByte

/-- The exponent without the choices of its spelling. -/
def exponent (spelling : ExponentSpelling) : Exponent where
  negative := spelling.sign == .minus
  digits := (spelling.first :: spelling.others).map Fin.val

end ExponentSpelling

/-- A number.  Without digits behind the point there is no point. -/
structure NumeralSpelling where
  negative : Bool
  whole : WholeSpelling
  fraction : List (Fin 10)
  exponent : Option ExponentSpelling
  deriving DecidableEq, Repr

namespace NumeralSpelling

/-- The bytes of a number behind its sign. -/
def unsignedBytes (spelling : NumeralSpelling) : List UInt8 :=
  spelling.whole.digits.map digitByte ++
    (if spelling.fraction = [] then [] else ascii '.' :: spelling.fraction.map digitByte) ++
    (spelling.exponent.map ExponentSpelling.bytes).getD []

/-- The bytes of a number. -/
def bytes (spelling : NumeralSpelling) : List UInt8 :=
  if spelling.negative then ascii '-' :: spelling.unsignedBytes else spelling.unsignedBytes

/-- The number without the choices of its spelling. -/
def numeral (spelling : NumeralSpelling) : Numeral where
  negative := spelling.negative
  whole := spelling.whole.digits.map Fin.val
  fraction := spelling.fraction.map Fin.val
  exponent := spelling.exponent.map ExponentSpelling.exponent

end NumeralSpelling

/-! ## Values -/

/-- Something with blanks on both sides. -/
structure Spaced (α : Type) where
  before : List Blank
  content : α
  behind : List Blank
  deriving DecidableEq, Repr

/-- Something that stands under a key, with blanks on both sides of the colon. -/
structure Keyed (α : Type) where
  key : TextSpelling
  beforeColon : List Blank
  behindColon : List Blank
  value : α
  deriving DecidableEq, Repr

/-- A value.  The items of an array and the members of an object have commas
between them, and blanks in front of the closing bracket. -/
inductive Spelling where
  | null
  | bool (truth : Bool)
  | number (numeral : NumeralSpelling)
  | string (text : TextSpelling)
  | array (items : List (Spaced Spelling)) (closing : List Blank)
  | object (members : List (Spaced (Keyed Spelling))) (closing : List Blank)

/-- The comma in front of an item other than the first. -/
def comma (isFirst : Bool) : List UInt8 :=
  if isFirst then [] else [ascii ',']

/-- The bytes of things in a row, given the bytes of each. -/
def listedBytes {α : Type} (spell : α → List UInt8) : Bool → List (Spaced α) → List UInt8
  | _, [] => []
  | isFirst, item :: items =>
      comma isFirst ++ Blank.bytes item.before ++ spell item.content ++
        Blank.bytes item.behind ++ listedBytes spell false items

/-- The bytes of a key and of what stands under it, given the bytes of the latter. -/
def Keyed.bytes {α : Type} (spell : α → List UInt8) (member : Keyed α) : List UInt8 :=
  TextSpelling.bytes member.key ++ Blank.bytes member.beforeColon ++
    ascii ':' :: Blank.bytes member.behindColon ++ spell member.value

/-- The key and the value that are meant, given the meaning of what stands under
the key. -/
def Keyed.member? {α : Type} (meaning : α → Option Value) (member : Keyed α) :
    Option (String × Value) :=
  (meaning member.value).map (TextSpelling.text member.key, ·)

/-- The meaning of a list, element by element. -/
theorem mapM_cons_eq_some_iff {α β : Type} {meaning : α → Option β} {item : α}
    {items : List α} {values : List β} :
    (item :: items).mapM meaning = some values ↔
      ∃ value others, meaning item = some value ∧ items.mapM meaning = some others ∧
        values = value :: others := by
  simp only [List.mapM_cons, bind, pure, Option.bind_eq_some_iff, Option.some.injEq]
  constructor
  · rintro ⟨value, isValue, others, isOthers, rfl⟩
    exact ⟨value, others, isValue, isOthers, rfl⟩
  · rintro ⟨value, others, isValue, isOthers, rfl⟩
    exact ⟨value, isValue, others, isOthers, rfl⟩

/-- What a list means is what its elements mean. -/
theorem exists_mem_of_mapM {α β : Type} {meaning : α → Option β} {items : List α}
    {values : List β} (means : items.mapM meaning = some values) {value : β}
    (isValue : value ∈ values) : ∃ item ∈ items, meaning item = some value := by
  induction items generalizing values with
  | nil =>
      cases means
      contradiction
  | cons item items ih =>
      obtain ⟨first, others, isFirst, areOthers, rfl⟩ := mapM_cons_eq_some_iff.mp means
      rcases List.mem_cons.mp isValue with rfl | inOthers
      · exact ⟨item, List.mem_cons_self, isFirst⟩
      · obtain ⟨other, isItem, isOther⟩ := ih areOthers inOthers
        exact ⟨other, List.mem_cons_of_mem _ isItem, isOther⟩

/-- Every element of a list has a meaning where the list has one. -/
theorem exists_value_of_mapM {α β : Type} {meaning : α → Option β} {items : List α}
    {values : List β} (means : items.mapM meaning = some values) {item : α}
    (isItem : item ∈ items) : ∃ value ∈ values, meaning item = some value := by
  induction items generalizing values with
  | nil => contradiction
  | cons first items ih =>
      obtain ⟨value, others, isValue, areOthers, rfl⟩ := mapM_cons_eq_some_iff.mp means
      rcases List.mem_cons.mp isItem with rfl | inItems
      · exact ⟨value, List.mem_cons_self, isValue⟩
      · obtain ⟨other, isOther, isMeaning⟩ := ih areOthers inItems
        exact ⟨other, List.mem_cons_of_mem _ isOther, isMeaning⟩

/-- A list has a meaning if each of its elements has one. -/
theorem exists_mapM_iff {α β : Type} {meaning : α → Option β} {items : List α} :
    (∃ values, items.mapM meaning = some values) ↔
      ∀ item ∈ items, ∃ value, meaning item = some value := by
  induction items with
  | nil => simp
  | cons item items ih =>
      rw [List.forall_mem_cons, ← ih]
      simp only [mapM_cons_eq_some_iff]
      constructor
      · rintro ⟨_, value, others, isValue, areOthers, rfl⟩
        exact ⟨⟨value, isValue⟩, others, areOthers⟩
      · rintro ⟨⟨value, isValue⟩, others, areOthers⟩
        exact ⟨value :: others, value, others, isValue, areOthers, rfl⟩

namespace Spelling

mutual

/-- The bytes of a value. -/
def bytes : Spelling → List UInt8
  | null => ['n', 'u', 'l', 'l'].map ascii
  | bool true => ['t', 'r', 'u', 'e'].map ascii
  | bool false => ['f', 'a', 'l', 's', 'e'].map ascii
  | number numeral => numeral.bytes
  | string text => TextSpelling.bytes text
  | array items closing => ascii '[' :: itemsBytes true items ++ Blank.bytes closing ++ [ascii ']']
  | object members closing =>
      ascii '\x7b' :: membersBytes true members ++ Blank.bytes closing ++ [ascii '\x7d']
termination_by structural spelling => spelling

/-- The bytes of items in a row. -/
def itemsBytes : Bool → List (Spaced Spelling) → List UInt8
  | _, [] => []
  | isFirst, ⟨before, content, behind⟩ :: items =>
      comma isFirst ++ Blank.bytes before ++ content.bytes ++ Blank.bytes behind ++
        itemsBytes false items
termination_by structural _ items => items

/-- The bytes of members in a row. -/
def membersBytes : Bool → List (Spaced (Keyed Spelling)) → List UInt8
  | _, [] => []
  | isFirst, ⟨before, ⟨key, beforeColon, behindColon, value⟩, behind⟩ :: members =>
      comma isFirst ++ Blank.bytes before ++
        (TextSpelling.bytes key ++ Blank.bytes beforeColon ++
          ascii ':' :: Blank.bytes behindColon ++ value.bytes) ++
        Blank.bytes behind ++ membersBytes false members
termination_by structural _ members => members

end

theorem itemsBytes_eq (isFirst : Bool) (items : List (Spaced Spelling)) :
    itemsBytes isFirst items = listedBytes bytes isFirst items := by
  induction items generalizing isFirst with
  | nil => rfl
  | cons item items ih => rw [itemsBytes, ih, listedBytes]

theorem membersBytes_eq (isFirst : Bool) (members : List (Spaced (Keyed Spelling))) :
    membersBytes isFirst members = listedBytes (Keyed.bytes bytes) isFirst members := by
  induction members generalizing isFirst with
  | nil => rfl
  | cons member members ih => rw [membersBytes, ih, listedBytes, Keyed.bytes]

mutual

/-- The value that is meant, if no number is out of range and arrays and objects
nest at most `levels` deep. -/
def value? : Nat → Spelling → Option Value
  | _, null => some .null
  | _, bool truth => some (.bool truth)
  | _, number numeral => numeral.numeral.number.toOption.map .number
  | _, string text => some (.string (TextSpelling.text text))
  | 0, array _ _ => none
  | levels + 1, array items _ => (values? levels items).map .array
  | 0, object _ _ => none
  | levels + 1, object members _ =>
      (members? levels members).map fun members => .object (Record.ofMembers members)
termination_by structural _ spelling => spelling

/-- The values of items. -/
def values? : Nat → List (Spaced Spelling) → Option (List Value)
  | _, [] => some []
  | levels, ⟨_, content, _⟩ :: items => do
      let value ← content.value? levels
      let values ← values? levels items
      pure (value :: values)
termination_by structural _ items => items

/-- The keys and the values of members. -/
def members? : Nat → List (Spaced (Keyed Spelling)) → Option (List (String × Value))
  | _, [] => some []
  | levels, ⟨_, ⟨key, _, _, value⟩, _⟩ :: members => do
      let value ← value.value? levels
      let members ← members? levels members
      pure ((TextSpelling.text key, value) :: members)
termination_by structural _ members => members

end

theorem values?_eq (levels : Nat) (items : List (Spaced Spelling)) :
    values? levels items = items.mapM fun item => item.content.value? levels := by
  induction items with
  | nil => rfl
  | cons item items ih => rw [values?, ih, List.mapM_cons]

theorem members?_eq (levels : Nat) (members : List (Spaced (Keyed Spelling))) :
    members? levels members =
      members.mapM fun member => member.content.member? (value? levels) := by
  induction members with
  | nil => rfl
  | cons member members ih =>
      rw [members?, ih, List.mapM_cons, Keyed.member?]
      cases member.content.value.value? levels <;> rfl

theorem value?_array_eq_some_iff {levels : Nat} {items : List (Spaced Spelling)}
    {closing : List Blank} {value : Value} :
    (array items closing).value? levels = some value ↔
      ∃ inner values, levels = inner + 1 ∧
        (items.mapM fun item => item.content.value? inner) = some values ∧
          value = .array values := by
  cases levels with
  | zero => simp [value?]
  | succ levels => simp [value?, values?_eq, eq_comm]

theorem value?_object_eq_some_iff {levels : Nat} {members : List (Spaced (Keyed Spelling))}
    {closing : List Blank} {value : Value} :
    (object members closing).value? levels = some value ↔
      ∃ inner found, levels = inner + 1 ∧
        (members.mapM fun member => member.content.member? (value? inner)) = some found ∧
          value = .object (Record.ofMembers found) := by
  cases levels with
  | zero => simp [value?]
  | succ levels => simp [value?, members?_eq, eq_comm]

section Kinds

variable {spelling : Spelling} {levels : Nat}

theorem value?_eq_bool_iff {truth : Bool} :
    spelling.value? levels = some (.bool truth) ↔ spelling = .bool truth := by
  cases spelling with
  | array items closing => simp [value?_array_eq_some_iff]
  | object members closing => simp [value?_object_eq_some_iff]
  | _ => simp [value?]

theorem value?_eq_string_iff {text : String} :
    spelling.value? levels = some (.string text) ↔
      ∃ spelled : TextSpelling, spelling = .string spelled ∧ spelled.text = text := by
  cases spelling with
  | array items closing => simp [value?_array_eq_some_iff]
  | object members closing => simp [value?_object_eq_some_iff]
  | _ => simp [value?]

theorem value?_eq_array_iff {values : List Value} :
    spelling.value? levels = some (.array values) ↔
      ∃ items closing inner, spelling = .array items closing ∧ levels = inner + 1 ∧
        (items.mapM fun item => item.content.value? inner) = some values := by
  cases spelling with
  | array items closing => simp [value?_array_eq_some_iff]
  | object members closing => simp [value?_object_eq_some_iff]
  | _ => simp [value?]

end Kinds

end Spelling

/-- A whole text: one value with blanks around it. -/
abbrev WholeText := Spaced Spelling

/-- The bytes of a whole text. -/
def WholeText.bytes (text : WholeText) : List UInt8 :=
  Blank.bytes text.before ++ (text.content.bytes ++ Blank.bytes text.behind)

/-- A string in which every character stands for itself, less those that cannot. -/
def TextSpelling.plain (text : String) : TextSpelling :=
  text.toList.filterMap fun char =>
    if allowed : isLiteral char = true then some (.literal char allowed) else none

theorem TextSpelling.text_plain {text : String} (allowed : text.toList.all isLiteral = true) :
    TextSpelling.text (.plain text) = text := by
  have same : ∀ char ∈ text.toList, Option.map CharSpelling.char
      (if allowed : isLiteral char = true then some (.literal char allowed) else none) =
        some char := by
    intro char isChar
    rw [dif_pos (List.all_eq_true.mp allowed char isChar)]
    rfl
  rw [TextSpelling.text, TextSpelling.plain, List.map_filterMap, List.filterMap_congr same,
    List.filterMap_some, String.ofList_toList]

/-- An object without blanks. -/
def Spelling.plainObject (members : List (TextSpelling × Spelling)) : Spelling :=
  .object (members.map fun member => ⟨[], ⟨member.1, [], [], member.2⟩, []⟩) []

end Provenance.Json
