import Provenance.Hash.Sha256

/-!
# Content hashes

The text form of a digest: a tag and sixty-four lowercase hexadecimal digits.
`ContentHash.isWellFormed` is the pattern that documents must follow, and every
digest does (`isWellFormed_ofBytes`).
-/

namespace Provenance.ContentHash

/-- The tag in front of the digits. -/
def tag : List Char :=
  ['s', 'h', 'a', '2', '5', '6', ':']

/-- The number of digits behind the tag. -/
def digitCount : Nat := 64

/-- A lowercase hexadecimal digit. -/
def isHexDigit (char : Char) : Bool :=
  ('0' ≤ char && char ≤ '9') || ('a' ≤ char && char ≤ 'f')

/-- The two hexadecimal digits of a byte. -/
def hexDigits (byte : UInt8) : List Char :=
  [Nat.digitChar (byte.toNat / 16), Nat.digitChar (byte.toNat % 16)]

/-- The content hash of a list of bytes. -/
def ofBytes (bytes : List UInt8) : String :=
  String.ofList (tag ++ (Hash.Sha256.digest bytes).flatMap hexDigits)

/-- The tag followed by exactly sixty-four lowercase hexadecimal digits. -/
def isWellFormed (text : String) : Bool :=
  let chars := text.toList
  chars.take tag.length == tag &&
    (chars.drop tag.length).length == digitCount &&
    (chars.drop tag.length).all isHexDigit

private theorem isHexDigit_digitChar : ∀ n < 16, isHexDigit (Nat.digitChar n) = true := by
  decide

private theorem all_hexDigits (byte : UInt8) : (hexDigits byte).all isHexDigit = true := by
  have high : byte.toNat / 16 < 16 := by have := byte.toNat_lt; omega
  have low : byte.toNat % 16 < 16 := Nat.mod_lt _ (by decide)
  simp [hexDigits, isHexDigit_digitChar _ high, isHexDigit_digitChar _ low]

private theorem length_flatMap_hexDigits (bytes : List UInt8) :
    (bytes.flatMap hexDigits).length = 2 * bytes.length := by
  induction bytes with
  | nil => rfl
  | cons byte bytes ih =>
      simp only [List.flatMap_cons, List.length_append, ih, List.length_cons]
      simp [hexDigits]
      omega

private theorem all_flatMap_hexDigits (bytes : List UInt8) :
    (bytes.flatMap hexDigits).all isHexDigit = true := by
  induction bytes with
  | nil => rfl
  | cons byte bytes ih => simp only [List.flatMap_cons, List.all_append, all_hexDigits, ih, Bool.and_self]

/-- Every digest has the form that documents must give their hashes. -/
theorem isWellFormed_ofBytes (bytes : List UInt8) : isWellFormed (ofBytes bytes) = true := by
  simp only [isWellFormed, ofBytes, String.toList_ofList, List.drop_left, List.take_left,
    length_flatMap_hexDigits, all_flatMap_hexDigits, Hash.Sha256.length_digest, digitCount]
  decide

end Provenance.ContentHash
