import Mathlib
import Provenance.Proofs.Text.Utf8

/-!
# The order of encoded texts

Byte by byte, the encodings of texts are ordered as the texts are by code points
(`encode_lt_encode_iff`).  Of two different characters the lesser one has the lesser
encoding at the first byte in which they differ, so what follows them does not count
(`utf8EncodeChar_append_lt`).
-/

namespace Provenance.Text.Utf8

/-- A byte that is no greater decides, unless it is the same. -/
private theorem cons_ofNat_lt {first second : Nat} {behindFirst behindSecond : List UInt8}
    (isByte : second < 256) (notGreater : first ≤ second)
    (followed : first = second → behindFirst < behindSecond) :
    UInt8.ofNat first :: behindFirst < UInt8.ofNat second :: behindSecond := by
  rcases notGreater.lt_or_eq with less | same
  · refine List.Lex.rel ?_
    rw [UInt8.lt_iff_toNat_lt, UInt8.toNat_ofNat', UInt8.toNat_ofNat',
      Nat.mod_eq_of_lt (less.trans isByte), Nat.mod_eq_of_lt isByte]
    exact less
  · rw [same]
    exact List.Lex.cons (followed same)

/-- A byte that is less decides. -/
private theorem cons_ofNat_lt_of_lt {first second : Nat} {behindFirst behindSecond : List UInt8}
    (isByte : second < 256) (less : first < second) :
    UInt8.ofNat first :: behindFirst < UInt8.ofNat second :: behindSecond :=
  cons_ofNat_lt isByte less.le fun same => absurd same less.ne

/-- The lesser of two characters has the lesser bytes, whatever follows. -/
theorem utf8EncodeChar_append_lt {first second : Char} (less : first.toNat < second.toNat)
    (behindFirst behindSecond : List UInt8) :
    String.utf8EncodeChar first ++ behindFirst < String.utf8EncodeChar second ++ behindSecond := by
  have bound := toNat_lt second
  rw [utf8EncodeChar_eq, utf8EncodeChar_eq]
  generalize first.toNat = lesser at less ⊢
  generalize second.toNat = greater at less bound ⊢
  -- More bytes begin with a greater one; as many are compared digit by digit.
  by_cases one : greater < 0x80
  · rw [if_pos one, if_pos (less.trans one)]
    exact cons_ofNat_lt_of_lt (by omega) less
  rw [if_neg one]
  by_cases two : greater < 0x800
  · rw [if_pos two]
    by_cases shorter : lesser < 0x80
    · rw [if_pos shorter]
      exact cons_ofNat_lt_of_lt (by omega) (by omega)
    · rw [if_neg shorter, if_pos (less.trans two)]
      refine cons_ofNat_lt (by omega) (by omega) fun sameLead => ?_
      exact cons_ofNat_lt_of_lt (by omega) (by omega)
  rw [if_neg two]
  by_cases three : greater < 0x10000
  · rw [if_pos three]
    by_cases shorter : lesser < 0x800
    · split_ifs <;> exact cons_ofNat_lt_of_lt (by omega) (by omega)
    · rw [if_neg (by omega), if_neg shorter, if_pos (less.trans three)]
      refine cons_ofNat_lt (by omega) (by omega) fun sameLead => ?_
      refine cons_ofNat_lt (by omega) (by omega) fun sameDigit => ?_
      exact cons_ofNat_lt_of_lt (by omega) (by omega)
  rw [if_neg three]
  by_cases shorter : lesser < 0x10000
  · split_ifs <;> exact cons_ofNat_lt_of_lt (by omega) (by omega)
  · rw [if_neg (by omega), if_neg (by omega), if_neg shorter]
    refine cons_ofNat_lt (by omega) (by omega) fun sameLead => ?_
    refine cons_ofNat_lt (by omega) (by omega) fun sameFirst => ?_
    refine cons_ofNat_lt (by omega) (by omega) fun sameSecond => ?_
    exact cons_ofNat_lt_of_lt (by omega) (by omega)

/-- Texts in order have their bytes in order. -/
theorem encode_lt_of_lt {left right : List Char} (less : left < right) :
    encode left < encode right := by
  induction less with
  | @nil char chars =>
      obtain ⟨byte, bytes, isBytes⟩ :=
        List.exists_cons_of_ne_nil (String.utf8EncodeChar_ne_nil (c := char))
      rw [encode_nil, encode_cons, isBytes]
      exact List.Lex.nil
  | cons less ih => exact List.append_left_lt ih
  | rel less => exact utf8EncodeChar_append_lt less _ _

/-- Texts and their bytes are ordered alike. -/
theorem encode_lt_encode_iff {left right : List Char} :
    encode left < encode right ↔ left < right := by
  refine ⟨fun less => ?_, encode_lt_of_lt⟩
  rcases lt_trichotomy left right with isLess | rfl | isGreater
  · exact isLess
  · exact absurd less (List.lt_irrefl _)
  · exact absurd less (List.lt_asymm (encode_lt_of_lt isGreater))

/-- The order of texts is that of their code points. -/
theorem map_toNat_lt_iff {left right : List Char} :
    left.map Char.toNat < right.map Char.toNat ↔ left < right := by
  have kept {first second : List Char} (less : first < second) :
      first.map Char.toNat < second.map Char.toNat :=
    List.map_lt (fun _ _ isLess => isLess) less
  refine ⟨fun less => ?_, kept⟩
  rcases lt_trichotomy left right with isLess | rfl | isGreater
  · exact isLess
  · exact absurd less (List.lt_irrefl _)
  · exact absurd less (List.lt_asymm (kept isGreater))

end Provenance.Text.Utf8
