/-!
# Reading failures

Why and where a text could not be read.  While reading, a place is known by the
number of bytes that are still unread; `Failure.locate` turns it into a line
and a column of the whole input.  Lines are counted from one and columns in
bytes, so a column of zero is the place just behind a line feed.
-/

namespace Provenance.Json

/-- Why a text could not be read.  The last group concerns texts that are JSON
but not of the shape that was asked for. -/
inductive Cause where
  | endInValue
  | endInList
  | endInObject
  | endInString
  | expectedValue
  | expectedWord
  | expectedColon
  | expectedCommaInList
  | expectedCommaInObject
  | expectedKey
  | trailingComma
  | trailingCharacters
  | nestingTooDeep
  | invalidNumber
  | numberOutOfRange
  | invalidEscape
  | controlCharacter
  | loneSurrogate
  | endOfHexEscape
  | invalidCodePoint
  /-- A value of another kind than expected. -/
  | unexpectedKind (found expected : String)
  | duplicateField (name : String)
  | missingField (name : String)
  /-- An array with too few items. -/
  | invalidLength (found : Nat) (expected : String)
  deriving DecidableEq, Repr

/-- The wording of a cause. -/
def Cause.message : Cause → String
  | endInValue => "EOF while parsing a value"
  | endInList => "EOF while parsing a list"
  | endInObject => "EOF while parsing an object"
  | endInString => "EOF while parsing a string"
  | expectedValue => "expected value"
  | expectedWord => "expected ident"
  | expectedColon => "expected `:`"
  | expectedCommaInList => "expected `,` or `]`"
  | expectedCommaInObject => "expected `,` or `\x7d`"
  | expectedKey => "key must be a string"
  | trailingComma => "trailing comma"
  | trailingCharacters => "trailing characters"
  | nestingTooDeep => "recursion limit exceeded"
  | invalidNumber => "invalid number"
  | numberOutOfRange => "number out of range"
  | invalidEscape => "invalid escape"
  | controlCharacter => "control character (\\u0000-\\u001F) found while parsing a string"
  | loneSurrogate => "lone leading surrogate in hex escape"
  | endOfHexEscape => "unexpected end of hex escape"
  | invalidCodePoint => "invalid unicode code point"
  | unexpectedKind found expected => "invalid type: " ++ found ++ ", expected " ++ expected
  | duplicateField name => "duplicate field `" ++ name ++ "`"
  | missingField name => "missing field `" ++ name ++ "`"
  | invalidLength found expected =>
      "invalid length " ++ toString found ++ ", expected " ++ expected

/-- A cause, the number of bytes unread where it arose, and by how many columns
the place that is reported lies in front of that. -/
structure Failure where
  cause : Cause
  unread : Nat
  columnsBack : Nat
  deriving DecidableEq, Repr

/-- A cause with the line and the column that are reported. -/
structure ReadError where
  cause : Cause
  line : Nat
  column : Nat
  deriving DecidableEq, Repr

/-- The line feed. -/
def lineFeed : UInt8 := 10

/-- The line on which the byte after `consumed` stands. -/
def lineAfter (consumed : List UInt8) : Nat :=
  consumed.count lineFeed + 1

/-- The number of bytes since the last line feed of `consumed`. -/
def columnAfter (consumed : List UInt8) : Nat :=
  (consumed.reverse.takeWhile (· != lineFeed)).length

/-- The place of a failure in the input. -/
def Failure.locate (input : List UInt8) (failure : Failure) : ReadError :=
  let consumed := input.take (input.length - failure.unread)
  ⟨failure.cause, lineAfter consumed, columnAfter consumed - failure.columnsBack⟩

/-- The text of a reading error. -/
def ReadError.message (error : ReadError) : String :=
  error.cause.message ++ " at line " ++ toString error.line ++
    " column " ++ toString error.column

end Provenance.Json
