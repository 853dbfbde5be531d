import Provenance.Binary64.Shortest
import Provenance.Json.Value
import Provenance.Text.Utf8

/-!
# Writing values

One writer with two layouts: the compact one puts nothing between the tokens,
the indented one puts every item on a line of its own.  The canonical form of a
value is the compact text of the value with sorted keys; a content hash is taken
over its UTF-8 bytes.
-/

namespace Provenance.Json

/-- Doubles are written without an exponent from `10^-5` up to below `10^16`. -/
def doubleStyle : DecimalStyle := ⟨-5, 15⟩

/-- The decimal text of an integer. -/
def integerText (value : Int) : List Char :=
  if value < 0 then '-' :: Nat.toDigits 10 value.natAbs else Nat.toDigits 10 value.natAbs

/-- The text of a number.  That of a double always has a point or an exponent. -/
def Number.text : Number → List Char
  | .integer value _ => integerText value
  | .double value => value.text doubleStyle

/-- How a character is written within a string: the quote, the backslash and
the control characters are escaped and all others stand for themselves. -/
def escapeChar (char : Char) : List Char :=
  if char = '"' then ['\\', '"']
  else if char = '\\' then ['\\', '\\']
  else if char = '\x08' then ['\\', 'b']
  else if char = '\t' then ['\\', 't']
  else if char = '\n' then ['\\', 'n']
  else if char = '\x0c' then ['\\', 'f']
  else if char = '\r' then ['\\', 'r']
  else if char.toNat < 0x20 then
    ['\\', 'u', '0', '0', Nat.digitChar (char.toNat / 16), Nat.digitChar (char.toNat % 16)]
  else [char]

/-- A string between quotes. -/
def quoted (text : String) : List Char :=
  '"' :: text.toList.flatMap escapeChar ++ ['"']

/-- The layout of a value that stands at a given depth. -/
inductive Layout where
  | compact
  | indented (depth : Nat)
  deriving DecidableEq, Repr

namespace Layout

/-- The layout one level down. -/
def inner : Layout → Layout
  | compact => compact
  | indented depth => indented (depth + 1)

/-- What stands in front of an item of this layout: a new line with two spaces
for each level. -/
def gap : Layout → List Char
  | compact => []
  | indented depth => '\n' :: List.replicate (2 * depth) ' '

/-- What stands between a key and its value. -/
def colon : Layout → List Char
  | compact => [':']
  | indented _ => [':', ' ']

end Layout

namespace Value

mutual

/-- The text of a value.  Empty arrays and objects have nothing between their
brackets in any layout. -/
def write : Layout → Value → List Char
  | _, null => ['n', 'u', 'l', 'l']
  | _, bool true => ['t', 'r', 'u', 'e']
  | _, bool false => ['f', 'a', 'l', 's', 'e']
  | _, number value => value.text
  | _, string text => quoted text
  | _, array [] => ['[', ']']
  | layout, array (item :: items) =>
      '[' :: layout.inner.gap ++ item.write layout.inner ++
        writeItems layout.inner items ++ layout.gap ++ [']']
  | _, object [] => ['\x7b', '\x7d']
  | layout, object ((key, value) :: members) =>
      '\x7b' :: layout.inner.gap ++ quoted key ++ layout.colon ++ value.write layout.inner ++
        writeMembers layout.inner members ++ layout.gap ++ ['\x7d']
termination_by structural _ value => value

/-- The items behind the first, each behind a comma. -/
def writeItems : Layout → List Value → List Char
  | _, [] => []
  | layout, item :: items =>
      ',' :: layout.gap ++ item.write layout ++ writeItems layout items
termination_by structural _ items => items

/-- The members behind the first, each behind a comma. -/
def writeMembers : Layout → List (String × Value) → List Char
  | _, [] => []
  | layout, (key, value) :: members =>
      ',' :: layout.gap ++ quoted key ++ layout.colon ++ value.write layout ++
        writeMembers layout members
termination_by structural _ members => members

end

/-- The canonical text: sorted keys and nothing between the tokens. -/
def canonicalText (value : Value) : List Char :=
  value.sortKeys.write .compact

/-- The canonical text as a string. -/
def canonical (value : Value) : String :=
  String.ofList value.canonicalText

/-- The bytes of the canonical text. -/
def canonicalBytes (value : Value) : List UInt8 :=
  Text.Utf8.encode value.canonicalText

/-- The text with sorted keys and an item to a line. -/
def pretty (value : Value) : String :=
  String.ofList (value.sortKeys.write (.indented 0))

end Value

end Provenance.Json
