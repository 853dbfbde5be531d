import Provenance.Json.Reader.Basic
import Provenance.Text.Utf8

/-!
# Reading strings

The content of a string is first gathered as bytes, escapes as the UTF-8 of
the character they name.  Only at the closing quote are the bytes decoded; the
place of undecodable bytes is reported behind the longest decodable beginning.
-/

namespace Provenance.Json.Reader

/-- The value of a hexadecimal digit of either case. -/
def hexValue? (byte : UInt8) : Option Nat :=
  if isDigit byte then some (digitValue byte)
  else if ascii 'a' ≤ byte ∧ byte ≤ ascii 'f' then some (byte.toNat - 87)
  else if ascii 'A' ≤ byte ∧ byte ≤ ascii 'F' then some (byte.toNat - 55)
  else none

/-- The sixteen-bit unit of four hexadecimal digits. -/
def hexUnit : Reader Nat
  | b₃ :: b₂ :: b₁ :: b₀ :: rest =>
      match hexValue? b₃, hexValue? b₂, hexValue? b₁, hexValue? b₀ with
      | some d₃, some d₂, some d₁, some d₀ =>
          .ok (d₃ * 0x1000 + d₂ * 0x100 + d₁ * 0x10 + d₀, rest)
      | _, _, _, _ => failHere .invalidEscape rest
  | _ => failHere .endInString []

/-- One byte that must be the given character of an escape. -/
def expectInEscape (char : Char) : Reader Unit
  | [] => failHere .endInString []
  | byte :: rest =>
      if byte = ascii char then .ok ((), rest) else failHere .endOfHexEscape rest

/-- A unit that is the first half of a surrogate pair. -/
def isHighSurrogate (unit : Nat) : Bool :=
  0xD800 ≤ unit && unit ≤ 0xDBFF

/-- A unit that is the second half of a surrogate pair. -/
def isLowSurrogate (unit : Nat) : Bool :=
  0xDC00 ≤ unit && unit ≤ 0xDFFF

/-- The character of a surrogate pair. -/
def surrogatePair (high low : Nat) : Char :=
  Char.ofNat (0x10000 + (high - 0xD800) * 0x400 + (low - 0xDC00))

/-- The character of an escape whose `\u` has been consumed: one unit, or two
that form a surrogate pair. -/
def unicodeEscape : Reader Char := fun bytes => do
  let (unit, rest) ← hexUnit bytes
  if isLowSurrogate unit then failHere .loneSurrogate rest
  else if isHighSurrogate unit then
    let ((), rest) ← expectInEscape '\\' rest
    let ((), rest) ← expectInEscape 'u' rest
    let (second, rest) ← hexUnit rest
    if isLowSurrogate second then .ok (surrogatePair unit second, rest)
    else failHere .loneSurrogate rest
  else .ok (Char.ofNat unit, rest)

/-- The character that a single letter behind a backslash stands for. -/
def shortEscape? (byte : UInt8) : Option Char :=
  if byte = ascii '"' then some '"'
  else if byte = ascii '\\' then some '\\'
  else if byte = ascii '/' then some '/'
  else if byte = ascii 'b' then some '\x08'
  else if byte = ascii 'f' then some '\x0c'
  else if byte = ascii 'n' then some '\n'
  else if byte = ascii 'r' then some '\r'
  else if byte = ascii 't' then some '\t'
  else none

/-- The character of an escape whose backslash has been consumed. -/
def escape : Reader Char
  | [] => failHere .endInString []
  | byte :: rest =>
      match shortEscape? byte with
      | some char => .ok (char, rest)
      | none =>
          if byte = ascii 'u' then unicodeEscape rest else failHere .invalidEscape rest

/-- The text of the gathered bytes, which are held newest first. -/
def finishText (gathered : List UInt8) : Reader String := fun rest =>
  match Text.Utf8.decode gathered.reverse with
  | (chars, []) => .ok (String.ofList chars, rest)
  | (_, undecoded) => .error ⟨.invalidCodePoint, rest.length, undecoded.length⟩

/-- Gather the content of a string up to the closing quote while the clock runs. -/
def textFrom : List UInt8 → List UInt8 → Reader String
  | [], _, bytes => failHere .endInString bytes
  | _ :: _, _, [] => failHere .endInString []
  | _ :: clock, gathered, byte :: rest =>
      if byte = ascii '"' then finishText gathered rest
      else if byte = ascii '\\' then do
        let (char, rest) ← escape rest
        textFrom clock ((String.utf8EncodeChar char).reverse ++ gathered) rest
      else if byte < 0x20 then failHere .controlCharacter rest
      else textFrom clock (byte :: gathered) rest

/-- The rest of a string whose opening quote has been consumed. -/
def text : Reader String := fun bytes =>
  textFrom (0 :: bytes) [] bytes

end Provenance.Json.Reader
