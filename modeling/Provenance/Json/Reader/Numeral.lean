import Provenance.Json.Reader.Basic
import Provenance.Json.Numeral

/-!
# Reading numerals

A numeral is scanned to its end before its value is looked at, so a fault in
its spelling is always found before an overflow.
-/

namespace Provenance.Json.Reader

/-- The digits at the front, as numbers. -/
def digits (bytes : List UInt8) : List Nat × List UInt8 :=
  ((bytes.takeWhile isDigit).map digitValue, bytes.dropWhile isDigit)

/-- Digits of which there must be one. `atEnd` is the failure when the input ends instead. -/
def firstDigit (atEnd : Cause) : Reader Nat
  | [] => failHere atEnd []
  | byte :: rest =>
      if isDigit byte then .ok (digitValue byte, rest) else failHere .invalidNumber rest

/-- The whole part: a zero that no digit follows, or digits that begin with
another one. -/
def wholePart (atEnd : Cause) : Reader (List Nat) := fun bytes => do
  let (first, rest) ← firstDigit atEnd bytes
  if first = 0 then
    if rest.head?.any isDigit then failAhead .invalidNumber rest else .ok ([0], rest)
  else
    let (others, rest) := digits rest
    .ok (first :: others, rest)

/-- The fraction, if a point follows. -/
def fractionPart (atEnd : Cause) : Reader (List Nat)
  | byte :: rest =>
      if byte = ascii '.' then
        match digits rest with
        | ([], []) => failAhead atEnd []
        | ([], rest) => failAhead .invalidNumber rest
        | found => .ok found
      else .ok ([], byte :: rest)
  | [] => .ok ([], [])

/-- The sign of an exponent: negative behind a minus. -/
def exponentSign : List UInt8 → Bool × List UInt8
  | byte :: rest =>
      if byte = ascii '-' then (true, rest)
      else if byte = ascii '+' then (false, rest)
      else (false, byte :: rest)
  | [] => (false, [])

/-- The exponent, if its mark follows. -/
def exponentPart (atEnd : Cause) : Reader (Option Exponent)
  | byte :: rest =>
      if byte = ascii 'e' ∨ byte = ascii 'E' then do
        let (negative, rest) := exponentSign rest
        let (first, rest) ← firstDigit atEnd rest
        let (others, rest) := digits rest
        .ok (some ⟨negative, first :: others⟩, rest)
      else .ok (none, byte :: rest)
  | [] => .ok (none, [])

/-- An unsigned numeral given the sign.  `atEnd` is the failure when the input
ends where a digit must stand. -/
def numeral (atEnd : Cause) (negative : Bool) : Reader Numeral := fun bytes => do
  let (whole, rest) ← wholePart atEnd bytes
  let (fraction, rest) ← fractionPart atEnd rest
  let (exponent, rest) ← exponentPart atEnd rest
  .ok (⟨negative, whole, fraction, exponent⟩, rest)

/-- A number whose minus, if any, has been consumed. -/
def number (negative : Bool) : Reader Number := fun bytes => do
  let (numeral, rest) ← numeral .endInValue negative bytes
  match numeral.number with
  | .ok value => .ok (value, rest)
  | .error range => .error ⟨.numberOutOfRange, rest.length + range.unread, 0⟩

end Provenance.Json.Reader
