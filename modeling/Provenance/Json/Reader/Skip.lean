import Provenance.Json.Reader.Text
import Provenance.Json.Reader.Numeral

/-!
# Skipping values

Passing over a value that nobody asked for.  Only its spelling is checked: not
whether bytes are UTF-8, surrogates paired or numbers in range.  The brackets
that are still open are kept in a list, so arrays and objects may nest to any
depth.
-/

namespace Provenance.Json.Reader

/-- Pass over the escape whose backslash has been consumed. -/
def skipEscape : Reader Unit
  | [] => failHere .endInString []
  | byte :: rest =>
      if (shortEscape? byte).isSome then .ok ((), rest)
      else if byte = ascii 'u' then hexUnit.map (fun _ => ()) rest
      else failHere .invalidEscape rest

/-- Pass over the content of a string while the clock runs.  A control character
is not consumed before it is refused. -/
def skipTextFrom : List UInt8 → Reader Unit
  | [], bytes => failHere .endInString bytes
  | _ :: _, [] => failHere .endInString []
  | _ :: clock, byte :: rest =>
      if byte = ascii '"' then .ok ((), rest)
      else if byte = ascii '\\' then do
        let ((), rest) ← skipEscape rest
        skipTextFrom clock rest
      else if byte < 0x20 then failHere .controlCharacter (byte :: rest)
      else skipTextFrom clock rest

/-- Pass over a string whose opening quote has been consumed. -/
def skipText : Reader Unit := fun bytes =>
  skipTextFrom (0 :: bytes) bytes

/-- Pass over the key of a member and the colon behind it. -/
def skipKey : Reader Unit := fun bytes =>
  match skipBlanks bytes with
  | [] => failAhead .endInObject []
  | byte :: rest =>
      if byte = ascii '"' then do
        let ((), rest) ← skipText rest
        colon rest
      else failAhead .expectedKey (byte :: rest)

/-- Pass over a scalar or an opening bracket; in the second case the brackets
are the result. -/
def skipToken : Reader (Option Brackets) := fun bytes =>
  match skipBlanks bytes with
  | [] => failAhead .endInValue []
  | byte :: rest =>
      if byte = ascii 'n' then word none ['u', 'l', 'l'] rest
      else if byte = ascii 't' then word none ['r', 'u', 'e'] rest
      else if byte = ascii 'f' then word none ['a', 'l', 's', 'e'] rest
      else if byte = ascii '-' then (numeral .invalidNumber true).map (fun _ => none) rest
      else if isDigit byte then (numeral .invalidNumber false).map (fun _ => none) (byte :: rest)
      else if byte = ascii '"' then skipText.map (fun _ => none) rest
      else if byte = ascii '[' then .ok (some .list, rest)
      else if byte = ascii '\x7b' then .ok (some .object, rest)
      else failAhead .expectedValue (byte :: rest)

/-- Pass over closing brackets, and over the comma behind them if a bracket is
still open.  No comma may stand where no item precedes it. -/
def skipClosing : Bool → List Brackets → Reader (List Brackets)
  | _, [], bytes => .ok ([], bytes)
  | afterItem, brackets :: outer, bytes =>
      match skipBlanks bytes with
      | [] => failAhead brackets.atEnd []
      | byte :: rest =>
          if byte = brackets.close then skipClosing true outer rest
          else if afterItem then
            if byte = ascii ',' then .ok (brackets :: outer, rest)
            else failAhead brackets.expectedComma (byte :: rest)
          else .ok (brackets :: outer, byte :: rest)

/-- Pass over values while the clock runs, until no bracket is open. -/
def skipFrom : List UInt8 → List Brackets → Reader Unit
  | [], _, bytes => failHere .endInValue bytes
  | _ :: clock, outer, bytes => do
      let (opened, rest) ← skipToken bytes
      let (stillOpen, rest) ←
        match opened with
        | some brackets => skipClosing false (brackets :: outer) rest
        | none => skipClosing true outer rest
      match stillOpen with
      | [] => .ok ((), rest)
      | innermost :: _ =>
          if innermost = .object then
            let ((), rest) ← skipKey rest
            skipFrom clock stillOpen rest
          else skipFrom clock stillOpen rest

/-- Pass over one value. -/
def skip : Reader Unit := fun bytes =>
  skipFrom (0 :: bytes) [] bytes

end Provenance.Json.Reader
