/-!
# UTF-8

Characters as bytes and back.  Encoding is the character-wise encoding of the
standard library.  Decoding reads one character at a time and stops in front of
the first bytes that begin no character, so that a caller sees both the longest
decodable part and what is left: overlong forms, surrogates and code points
above `U+10FFFF` are not characters.
-/

namespace Provenance.Text.Utf8

/-- A continuation byte, `10xxxxxx`, as its six payload bits. -/
def continuation? (byte : UInt8) : Option Nat :=
  if 0x80 ≤ byte ∧ byte < 0xC0 then some (byte.toNat - 0x80) else none

/-- The character of a code point that needs more than `least - 1`, unless it
is a surrogate or too large. -/
def scalar? (least code : Nat) : Option Char :=
  if h : code.isValidChar then
    if least ≤ code then some (Char.ofNatAux code h) else none
  else none

/-- The character that a list of bytes begins with, and the bytes after it. -/
def decodeChar? : List UInt8 → Option (Char × List UInt8)
  | [] => none
  | b₀ :: rest =>
      if b₀ < 0x80 then (scalar? 0 b₀.toNat).map (·, rest)
      else if b₀ < 0xC0 then none
      else if b₀ < 0xE0 then
        match rest with
        | b₁ :: rest => do
            let c₁ ← continuation? b₁
            let char ← scalar? 0x80 ((b₀.toNat - 0xC0) * 0x40 + c₁)
            pure (char, rest)
        | _ => none
      else if b₀ < 0xF0 then
        match rest with
        | b₁ :: b₂ :: rest => do
            let c₁ ← continuation? b₁
            let c₂ ← continuation? b₂
            let char ← scalar? 0x800 ((b₀.toNat - 0xE0) * 0x1000 + c₁ * 0x40 + c₂)
            pure (char, rest)
        | _ => none
      else
        match rest with
        | b₁ :: b₂ :: b₃ :: rest => do
            let c₁ ← continuation? b₁
            let c₂ ← continuation? b₂
            let c₃ ← continuation? b₃
            let char ← scalar? 0x10000
              ((b₀.toNat - 0xF0) * 0x40000 + c₁ * 0x1000 + c₂ * 0x40 + c₃)
            pure (char, rest)
        | _ => none

/-- Decode at most `count` characters in front of those already decoded, which
are held newest first. -/
def decodeOnto : Nat → List Char → List UInt8 → List Char × List UInt8
  | 0, done, bytes => (done.reverse, bytes)
  | count + 1, done, bytes =>
      match decodeChar? bytes with
      | none => (done.reverse, bytes)
      | some (char, rest) => decodeOnto count (char :: done) rest

/-- The characters of the longest decodable beginning, and the bytes left over:
none exactly when the whole list is UTF-8. -/
def decode (bytes : List UInt8) : List Char × List UInt8 :=
  decodeOnto bytes.length [] bytes

/-- The bytes of a list of characters. -/
def encode (chars : List Char) : List UInt8 :=
  chars.flatMap String.utf8EncodeChar

@[simp]
theorem encode_nil : encode [] = [] :=
  rfl

@[simp]
theorem encode_cons (char : Char) (chars : List Char) :
    encode (char :: chars) = String.utf8EncodeChar char ++ encode chars :=
  rfl

@[simp]
theorem encode_append (left right : List Char) :
    encode (left ++ right) = encode left ++ encode right :=
  List.flatMap_append

@[simp]
theorem decode_nil : decode [] = ([], []) :=
  rfl

end Provenance.Text.Utf8
