import Provenance.Json.Failure

/-!
# Readers

A reader takes a value off the front of a list of bytes and returns what is
left, or fails.  Two places are reported: `failHere` is behind the last byte
consumed, `failAhead` is behind the next byte, or at the end if there is none.

Arrays and objects share one loop, `gather`: items with commas between them up
to a closing bracket.  It only fixes the brackets and the causes of failure; the
reader of an item is a parameter.

Every loop is bounded by a *clock*, a list that loses an element in each step.
A step consumes at least one byte, so a clock that is longer than the input
never runs out.
-/

namespace Provenance.Json

/-- A reader of an `α` at the front of a list of bytes. -/
abbrev Reader (α : Type) := List UInt8 → Except Failure (α × List UInt8)

namespace Reader

/-- Fail behind the last byte consumed. -/
def failHere {α : Type} (cause : Cause) (rest : List UInt8) : Except Failure α :=
  .error ⟨cause, rest.length, 0⟩

/-- Fail behind the next byte. -/
def failAhead {α : Type} (cause : Cause) (rest : List UInt8) : Except Failure α :=
  .error ⟨cause, rest.length - 1, 0⟩

/-- Apply a function to what is read. -/
def map {α β : Type} (f : α → β) (reader : Reader α) : Reader β := fun bytes => do
  let (value, rest) ← reader bytes
  .ok (f value, rest)

/-- The byte of an ASCII character. -/
def ascii (char : Char) : UInt8 :=
  char.toUInt8

/-- Space, tab, line feed and carriage return. -/
def isBlank (byte : UInt8) : Bool :=
  byte == ascii ' ' || byte == ascii '\n' || byte == ascii '\t' || byte == ascii '\r'

/-- Drop blanks from the front. -/
def skipBlanks (bytes : List UInt8) : List UInt8 :=
  bytes.dropWhile isBlank

/-- A decimal digit. -/
def isDigit (byte : UInt8) : Bool :=
  ascii '0' ≤ byte && byte ≤ ascii '9'

/-- The value of a decimal digit. -/
def digitValue (byte : UInt8) : Nat :=
  byte.toNat - 48

/-- Read the bytes of a word one by one and yield `value`. -/
def word {α : Type} (value : α) : List Char → Reader α
  | [], rest => .ok (value, rest)
  | _ :: _, [] => failHere .endInValue []
  | char :: chars, byte :: rest =>
      if byte = ascii char then word value chars rest else failHere .expectedWord rest

/-! ## Separated items -/

/-- A pair of brackets: the closing one, and the causes of failure when the
input ends, and when neither a comma nor the closing bracket follows an item. -/
structure Brackets where
  close : UInt8
  atEnd : Cause
  expectedComma : Cause
  deriving DecidableEq, Repr

/-- The brackets of arrays. -/
def Brackets.list : Brackets :=
  ⟨ascii ']', .endInList, .expectedCommaInList⟩

/-- The brackets of objects. -/
def Brackets.object : Brackets :=
  ⟨ascii '\x7d', .endInObject, .expectedCommaInObject⟩

/-- Step to the next item, past the comma that must stand in front of every item
but the first.  The result is false behind the closing bracket. -/
def another (brackets : Brackets) (isFirst : Bool) : Reader Bool := fun bytes =>
  match skipBlanks bytes with
  | [] => failAhead brackets.atEnd []
  | byte :: rest =>
      if byte = brackets.close then .ok (false, rest)
      else if isFirst then .ok (true, byte :: rest)
      else if byte = ascii ',' then
        let rest := skipBlanks rest
        if rest.head? = some brackets.close then failAhead .trailingComma rest
        else .ok (true, rest)
      else failAhead brackets.expectedComma (byte :: rest)

/-- Read items up to the closing bracket while the clock runs, each item in view
of what was gathered from the items before it. -/
def gatherFrom {σ : Type} (brackets : Brackets) (item : σ → Reader σ) :
    List UInt8 → Bool → σ → Reader σ
  | [], _, _, bytes => failHere brackets.atEnd bytes
  | _ :: clock, isFirst, gathered, bytes => do
      let (more, rest) ← another brackets isFirst bytes
      if more then
        let (gathered, rest) ← item gathered rest
        gatherFrom brackets item clock false gathered rest
      else .ok (gathered, rest)

/-- Gather from the items behind an opening bracket, which has been consumed. -/
def gather {σ : Type} (brackets : Brackets) (item : σ → Reader σ) (start : σ) : Reader σ :=
  fun bytes => gatherFrom brackets item (0 :: bytes) true start bytes

/-- The list of the items behind an opening bracket. -/
def separated {α : Type} (brackets : Brackets) (item : Reader α) : Reader (List α) :=
  fun bytes => do
    let (done, rest) ← gather brackets (fun done => item.map (· :: done)) [] bytes
    .ok (done.reverse, rest)

/-- The colon between a key and its value. -/
def colon : Reader Unit := fun bytes =>
  match skipBlanks bytes with
  | [] => failAhead .endInObject []
  | byte :: rest =>
      if byte = ascii ':' then .ok ((), rest) else failAhead .expectedColon (byte :: rest)

end Reader

end Provenance.Json
