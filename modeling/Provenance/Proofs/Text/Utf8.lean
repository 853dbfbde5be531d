import Mathlib
import Provenance.Text.Utf8

/-!
# Decoding is the inverse of encoding

The decoder takes a character off the front of a list of bytes exactly when the
list begins with the bytes of that character (`decodeChar?_eq_some_iff`).  So a
list is decoded without a rest exactly when it is the encoding of a text
(`decode_eq_nil_iff`).

The bytes of a character are an ASCII byte that stands for itself, or a leading
byte and continuation bytes, none of which is ASCII.
-/

namespace Provenance.Text.Utf8

theorem continuation?_eq_some_iff {byte : UInt8} {bits : Nat} :
    continuation? byte = some bits ↔ bits < 64 ∧ byte = UInt8.ofNat (bits + 128) := by
  unfold continuation?
  split
  · rename_i range
    have least : 128 ≤ byte.toNat := UInt8.le_iff_toNat_le.mp range.1
    have most : byte.toNat < 192 := UInt8.lt_iff_toNat_lt.mp range.2
    rw [Option.some_inj]
    constructor
    · rintro rfl
      refine ⟨by omega, ?_⟩
      rw [Nat.sub_add_cancel least, UInt8.ofNat_toNat]
    · rintro ⟨bound, rfl⟩
      rw [UInt8.toNat_ofNat']
      change (bits + 128) % 256 - 128 = bits
      omega
  · rename_i range
    constructor
    · intro
      contradiction
    · rintro ⟨bound, rfl⟩
      exfalso
      apply range
      rw [UInt8.le_iff_toNat_le, UInt8.lt_iff_toNat_lt, UInt8.toNat_ofNat']
      change 128 ≤ (bits + 128) % 256 ∧ (bits + 128) % 256 < 192
      omega

theorem scalar?_eq_some_iff {least code : Nat} {char : Char} :
    scalar? least code = some char ↔ code = char.toNat ∧ least ≤ code := by
  unfold scalar?
  split
  · rename_i valid
    have isCode : Char.ofNatAux code valid = char ↔ code = char.toNat := by
      rw [← Char.toNat_inj]
      rfl
    split
    · rename_i enough
      rw [Option.some_inj, isCode]
      exact (and_iff_left enough).symm
    · rename_i few
      simp [few]
  · rename_i invalid
    constructor
    · intro
      contradiction
    · rintro ⟨rfl, _⟩
      exact absurd char.valid invalid

theorem toNat_lt (char : Char) : char.toNat < 0x110000 := by
  rcases char.valid with low | ⟨_, high⟩
  · exact low.trans (by decide)
  · exact high

/-- The bytes of a character by the size of its code point. -/
theorem utf8EncodeChar_eq (char : Char) :
    String.utf8EncodeChar char =
      if char.toNat < 0x80 then [UInt8.ofNat char.toNat]
      else if char.toNat < 0x800 then
        [UInt8.ofNat (char.toNat / 64 + 192), UInt8.ofNat (char.toNat % 64 + 128)]
      else if char.toNat < 0x10000 then
        [UInt8.ofNat (char.toNat / 4096 + 224), UInt8.ofNat (char.toNat / 64 % 64 + 128),
          UInt8.ofNat (char.toNat % 64 + 128)]
      else
        [UInt8.ofNat (char.toNat / 262144 + 240), UInt8.ofNat (char.toNat / 4096 % 64 + 128),
          UInt8.ofNat (char.toNat / 64 % 64 + 128), UInt8.ofNat (char.toNat % 64 + 128)] := by
  have bound := toNat_lt char
  unfold String.utf8EncodeChar
  change (if char.toNat ≤ 127 then _ else if char.toNat ≤ 2047 then _
    else if char.toNat ≤ 65535 then _ else _) = _
  by_cases one : char.toNat < 0x80
  · rw [if_pos one, if_pos (by omega)]
    rfl
  rw [if_neg one, if_neg (by omega)]
  by_cases two : char.toNat < 0x800
  · rw [if_pos two, if_pos (by omega)]
    have lead : char.toNat / 64 % 32 = char.toNat / 64 := by omega
    simp [lead]
  rw [if_neg two, if_neg (by omega)]
  by_cases three : char.toNat < 0x10000
  · rw [if_pos three, if_pos (by omega)]
    have lead : char.toNat / 4096 % 16 = char.toNat / 4096 := by omega
    simp [lead]
  · rw [if_neg three, if_neg (by omega)]
    have lead : char.toNat / 262144 % 8 = char.toNat / 262144 := by omega
    simp [lead]

private theorem ofNat_lt {lead : Nat} (limit : UInt8) (size : Nat) (isSize : limit.toNat = size)
    (less : lead < size) : UInt8.ofNat lead < limit := by
  have isByte : lead < 256 := (isSize ▸ less).trans limit.toNat_lt
  rw [UInt8.lt_iff_toNat_lt, UInt8.toNat_ofNat', Nat.mod_eq_of_lt isByte, isSize]
  exact less

private theorem not_ofNat_lt {lead : Nat} (limit : UInt8) (size : Nat)
    (isSize : limit.toNat = size) (notLess : size ≤ lead) (isByte : lead < 256) :
    ¬ UInt8.ofNat lead < limit := by
  rw [UInt8.lt_iff_toNat_lt, UInt8.toNat_ofNat', Nat.mod_eq_of_lt isByte, isSize]
  exact not_lt.mpr notLess

/-- A character is decoded from its bytes. -/
theorem decodeChar?_utf8EncodeChar (char : Char) (rest : List UInt8) :
    decodeChar? (String.utf8EncodeChar char ++ rest) = some (char, rest) := by
  have bound := toNat_lt char
  have next (value : Nat) (decoder : Nat → Option (Char × List UInt8)) :
      (continuation? (UInt8.ofNat (value % 64 + 128)) >>= decoder) = decoder (value % 64) := by
    rw [continuation?_eq_some_iff.mpr ⟨Nat.mod_lt _ (by decide), rfl⟩]
    rfl
  have isScalar {least code : Nat} (isCode : code = char.toNat) (enough : least ≤ code) :
      scalar? least code = some char :=
    scalar?_eq_some_iff.mpr ⟨isCode, enough⟩
  have toNat {byte : Nat} (isByte : byte < 256) : (UInt8.ofNat byte).toNat = byte :=
    UInt8.toNat_ofNat_of_lt' isByte
  rw [utf8EncodeChar_eq]
  split_ifs with one two three
  · unfold decodeChar?
    simp only [List.singleton_append]
    rw [if_pos (ofNat_lt 0x80 128 rfl one),
      toNat (by omega), isScalar rfl (Nat.zero_le _)]
    rfl
  · have isByte : char.toNat / 64 + 192 < 256 := by omega
    unfold decodeChar?
    simp only [List.cons_append, List.nil_append]
    rw [if_neg (not_ofNat_lt 0x80 128 rfl (by omega) isByte),
      if_neg (not_ofNat_lt 0xC0 192 rfl (by omega) isByte),
      if_pos (ofNat_lt 0xE0 224 rfl (by omega)), toNat isByte]
    rw [next, isScalar (by omega) (by omega)]
    rfl
  · have isByte : char.toNat / 4096 + 224 < 256 := by omega
    unfold decodeChar?
    simp only [List.cons_append, List.nil_append]
    rw [if_neg (not_ofNat_lt 0x80 128 rfl (by omega) isByte),
      if_neg (not_ofNat_lt 0xC0 192 rfl (by omega) isByte),
      if_neg (not_ofNat_lt 0xE0 224 rfl (by omega) isByte),
      if_pos (ofNat_lt 0xF0 240 rfl (by omega)), toNat isByte]
    rw [next, next, isScalar (by omega) (by omega)]
    rfl
  · have isByte : char.toNat / 262144 + 240 < 256 := by omega
    unfold decodeChar?
    simp only [List.cons_append, List.nil_append]
    rw [if_neg (not_ofNat_lt 0x80 128 rfl (by omega) isByte),
      if_neg (not_ofNat_lt 0xC0 192 rfl (by omega) isByte),
      if_neg (not_ofNat_lt 0xE0 224 rfl (by omega) isByte),
      if_neg (not_ofNat_lt 0xF0 240 rfl (by omega) isByte), toNat isByte]
    rw [next, next, next, isScalar (by omega) (by omega)]
    rfl

/-- Only the bytes of a character are decoded to it. -/
theorem eq_utf8EncodeChar_append {bytes rest : List UInt8} {char : Char}
    (decoded : decodeChar? bytes = some (char, rest)) :
    bytes = String.utf8EncodeChar char ++ rest := by
  cases bytes with
  | nil => contradiction
  | cons lead bytes =>
      have isLead (byte : Nat) (same : lead.toNat = byte) : lead = UInt8.ofNat byte := by
        rw [← same, UInt8.ofNat_toNat]
      rw [utf8EncodeChar_eq]
      simp only [decodeChar?, UInt8.lt_iff_toNat_lt, UInt8.reduceToNat] at decoded
      split_ifs at decoded with one gap two three
      · obtain ⟨other, isScalar, equal⟩ := Option.map_eq_some_iff.mp decoded
        obtain ⟨rfl, rfl⟩ := Prod.mk.inj equal
        obtain ⟨isCode, _⟩ := scalar?_eq_some_iff.mp isScalar
        rw [if_pos (by omega), isLead _ isCode]
        rfl
      · rcases bytes with _ | ⟨second, bytes⟩
        · contradiction
        simp only [Option.bind_eq_bind, Option.bind_eq_some_iff, continuation?_eq_some_iff,
          scalar?_eq_some_iff] at decoded
        rcases decoded with ⟨last, ⟨_, rfl⟩, other, ⟨isCode, _⟩, equal⟩
        obtain ⟨rfl, rfl⟩ := Prod.mk.inj (Option.some.inj equal)
        rw [if_neg (by omega), if_pos (by omega), isLead (other.toNat / 64 + 192) (by omega),
          show other.toNat % 64 = last by omega]
        rfl
      · rcases bytes with _ | ⟨second, _ | ⟨third, bytes⟩⟩
        · contradiction
        · contradiction
        simp only [Option.bind_eq_bind, Option.bind_eq_some_iff, continuation?_eq_some_iff,
          scalar?_eq_some_iff] at decoded
        rcases decoded with ⟨middle, ⟨_, rfl⟩, last, ⟨_, rfl⟩, other, ⟨isCode, _⟩, equal⟩
        obtain ⟨rfl, rfl⟩ := Prod.mk.inj (Option.some.inj equal)
        rw [if_neg (by omega), if_neg (by omega), if_pos (by omega),
          isLead (other.toNat / 4096 + 224) (by omega),
          show other.toNat / 64 % 64 = middle by omega, show other.toNat % 64 = last by omega]
        rfl
      · rcases bytes with _ | ⟨second, _ | ⟨third, _ | ⟨fourth, bytes⟩⟩⟩
        · contradiction
        · contradiction
        · contradiction
        simp only [Option.bind_eq_bind, Option.bind_eq_some_iff, continuation?_eq_some_iff,
          scalar?_eq_some_iff] at decoded
        rcases decoded with
          ⟨upper, ⟨_, rfl⟩, middle, ⟨_, rfl⟩, last, ⟨_, rfl⟩, other, ⟨isCode, _⟩, equal⟩
        obtain ⟨rfl, rfl⟩ := Prod.mk.inj (Option.some.inj equal)
        have bound := toNat_lt other
        rw [if_neg (by omega), if_neg (by omega), if_neg (by omega),
          isLead (other.toNat / 262144 + 240) (by omega),
          show other.toNat / 4096 % 64 = upper by omega,
          show other.toNat / 64 % 64 = middle by omega, show other.toNat % 64 = last by omega]
        rfl

/-- A list of bytes begins with a character exactly when it begins with its
bytes. -/
theorem decodeChar?_eq_some_iff {bytes rest : List UInt8} {char : Char} :
    decodeChar? bytes = some (char, rest) ↔ bytes = String.utf8EncodeChar char ++ rest := by
  constructor
  · exact eq_utf8EncodeChar_append
  · rintro rfl
    exact decodeChar?_utf8EncodeChar char rest

/-- A character of ASCII is one byte. -/
theorem utf8EncodeChar_of_ascii {char : Char} (isAscii : char.toNat < 0x80) :
    String.utf8EncodeChar char = [char.toUInt8] := by
  rw [utf8EncodeChar_eq, if_pos isAscii]
  rfl

/-- No byte of any other character is one of ASCII. -/
theorem le_of_mem_utf8EncodeChar {char : Char} (notAscii : 0x80 ≤ char.toNat) {byte : UInt8}
    (member : byte ∈ String.utf8EncodeChar char) : 0x80 ≤ byte := by
  have bound := toNat_lt char
  have notBelow (value : Nat) (least : 128 ≤ value) (isByte : value < 256) :
      (0x80 : UInt8) ≤ UInt8.ofNat value := by
    rw [UInt8.le_iff_toNat_le, UInt8.toNat_ofNat', Nat.mod_eq_of_lt isByte]
    exact least
  rw [utf8EncodeChar_eq, if_neg (not_lt.mpr notAscii)] at member
  split_ifs at member <;> simp only [List.mem_cons, List.not_mem_nil, or_false] at member
  · rcases member with rfl | rfl <;> exact notBelow _ (by omega) (by omega)
  · rcases member with rfl | rfl | rfl <;> exact notBelow _ (by omega) (by omega)
  · rcases member with rfl | rfl | rfl | rfl <;> exact notBelow _ (by omega) (by omega)

/-- The first byte of a character is no continuation byte, and all others are. -/
theorem utf8EncodeChar_eq_lead_cons (char : Char) :
    ∃ lead tail, String.utf8EncodeChar char = lead :: tail ∧ continuation? lead = none ∧
      ∀ byte ∈ tail, continuation? byte ≠ none := by
  have bound := toNat_lt char
  have isLead (value : Nat) (isByte : value < 256) (apart : value < 128 ∨ 192 ≤ value) :
      continuation? (UInt8.ofNat value) = none := by
    rw [continuation?, if_neg]
    rw [UInt8.le_iff_toNat_le, UInt8.lt_iff_toNat_lt, UInt8.toNat_ofNat',
      Nat.mod_eq_of_lt isByte]
    change ¬ (128 ≤ value ∧ value < 192)
    omega
  have isTail (bits : Nat) (few : bits < 64) : continuation? (UInt8.ofNat (bits + 128)) ≠ none := by
    rw [continuation?_eq_some_iff.mpr ⟨few, rfl⟩]
    exact Option.some_ne_none _
  rw [utf8EncodeChar_eq]
  split_ifs with one two three
  · exact ⟨_, _, rfl, isLead _ (by omega) (by omega), by simp⟩
  · refine ⟨_, _, rfl, isLead _ (by omega) (by omega), ?_⟩
    simp only [List.forall_mem_cons]
    exact ⟨isTail _ (by omega), by simp⟩
  · refine ⟨_, _, rfl, isLead _ (by omega) (by omega), ?_⟩
    simp only [List.forall_mem_cons]
    exact ⟨isTail _ (by omega), isTail _ (by omega), by simp⟩
  · refine ⟨_, _, rfl, isLead _ (by omega) (by omega), ?_⟩
    simp only [List.forall_mem_cons]
    exact ⟨isTail _ (by omega), isTail _ (by omega), isTail _ (by omega), by simp⟩

/-! ## Whole texts -/

theorem length_le_length_encode (chars : List Char) : chars.length ≤ (encode chars).length := by
  induction chars with
  | nil => exact Nat.le_refl 0
  | cons char chars ih =>
      obtain ⟨lead, tail, isLead, _⟩ := utf8EncodeChar_eq_lead_cons char
      rw [encode_cons, isLead, List.length_cons, List.cons_append, List.length_cons,
        List.length_append]
      omega

private theorem decodeOnto_encode (chars : List Char) {count : Nat} (enough : chars.length ≤ count)
    (done : List Char) : decodeOnto count done (encode chars) = (done.reverse ++ chars, []) := by
  induction chars generalizing count done with
  | nil =>
      rw [List.append_nil]
      cases count with
      | zero => rfl
      | succ count => rfl
  | cons char chars ih =>
      cases count with
      | zero => contradiction
      | succ count =>
          rw [encode_cons, decodeOnto, decodeChar?_utf8EncodeChar]
          change decodeOnto count (char :: done) (encode chars) = _
          rw [ih (Nat.le_of_succ_le_succ enough), List.reverse_cons, List.append_assoc]
          rfl

private theorem of_decodeOnto {count : Nat} {done chars : List Char} {bytes : List UInt8}
    (decoded : decodeOnto count done bytes = (chars, [])) :
    ∃ further, chars = done.reverse ++ further ∧ bytes = encode further := by
  induction count generalizing done bytes with
  | zero =>
      obtain ⟨rfl, rfl⟩ := Prod.mk.inj decoded
      exact ⟨[], (List.append_nil _).symm, rfl⟩
  | succ count ih =>
      rw [decodeOnto] at decoded
      split at decoded
      · obtain ⟨rfl, rfl⟩ := Prod.mk.inj decoded
        exact ⟨[], (List.append_nil _).symm, rfl⟩
      · rename_i char rest first
        obtain ⟨further, rfl, rfl⟩ := ih decoded
        refine ⟨char :: further, ?_, decodeChar?_eq_some_iff.mp first⟩
        rw [List.reverse_cons, List.append_assoc]
        rfl

/-- Nothing is left over exactly when the bytes are those of the characters. -/
theorem decode_eq_nil_iff {bytes : List UInt8} {chars : List Char} :
    decode bytes = (chars, []) ↔ bytes = encode chars := by
  constructor
  · intro decoded
    obtain ⟨further, rfl, rfl⟩ := of_decodeOnto decoded
    rfl
  · rintro rfl
    exact decodeOnto_encode chars (length_le_length_encode chars) []

end Provenance.Text.Utf8
