import Provenance.Json.Reader.Text
import Provenance.Json.Reader.Numeral

/-!
# Reading values

The reader of JSON values.  Arrays and objects may nest `nestingLimit` deep; the
reader of the inner values is a parameter of the reader of one level, so the
recursion is on the levels that are left.

`Value.ofBytes` reads a whole text: one value with blanks around it.
-/

namespace Provenance.Json

/-- The number of levels that arrays and objects may nest. -/
def nestingLimit : Nat := 127

namespace Reader

/-- The key and the value of an object's member. -/
def member (value : Reader Value) : Reader (String × Value)
  | [] => failAhead .endInValue []
  | byte :: rest =>
      if byte = ascii '"' then do
        let (key, rest) ← text rest
        let ((), rest) ← colon rest
        value.map (key, ·) rest
      else failAhead .expectedKey (byte :: rest)

/-- A value that is neither array nor object. -/
def scalar : Reader Value
  | [] => failAhead .endInValue []
  | byte :: rest =>
      if byte = ascii 'n' then word .null ['u', 'l', 'l'] rest
      else if byte = ascii 't' then word (.bool true) ['r', 'u', 'e'] rest
      else if byte = ascii 'f' then word (.bool false) ['a', 'l', 's', 'e'] rest
      else if byte = ascii '-' then (number true).map .number rest
      else if isDigit byte then (number false).map .number (byte :: rest)
      else if byte = ascii '"' then text.map .string rest
      else failAhead .expectedValue (byte :: rest)

/-- A value, given the reader of values one level down, if there is a level
left. -/
def valueWithin (inner : Option (Reader Value)) : Reader Value := fun bytes =>
  match skipBlanks bytes with
  | [] => failAhead .endInValue []
  | byte :: rest =>
      if byte = ascii '[' then
        match inner with
        | none => failAhead .nestingTooDeep (byte :: rest)
        | some inner => (separated .list inner).map .array rest
      else if byte = ascii '\x7b' then
        match inner with
        | none => failAhead .nestingTooDeep (byte :: rest)
        | some inner =>
            (separated .object (member inner)).map (.object ∘ Record.ofMembers) rest
      else scalar (byte :: rest)

/-- A value in which arrays and objects nest at most `levels` deep. -/
def value : Nat → Reader Value
  | 0 => valueWithin none
  | levels + 1 => valueWithin (some (value levels))

/-- Read all of a text: what follows the value may only be blanks. -/
def complete {α : Type} (reader : Reader α) (bytes : List UInt8) : Except ReadError α :=
  let result := do
    let (value, rest) ← reader bytes
    match skipBlanks rest with
    | [] => .ok value
    | rest => failAhead .trailingCharacters rest
  result.mapError (·.locate bytes)

end Reader

/-- The value of a JSON text. -/
def Value.ofBytes (bytes : List UInt8) : Except ReadError Value :=
  Reader.complete (Reader.value nestingLimit) bytes

end Provenance.Json
