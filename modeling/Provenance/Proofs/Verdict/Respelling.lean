import Mathlib
import Provenance.Command.Run
import Provenance.Proofs.Json.Respelling

/-!
# Verdicts do not depend on the spelling

Verification and hashing look at a text only through the value that it spells.
A text that is accepted can be spelled in another way at any number of places,
and neither the value, nor the verdict, nor the printed hash changes.
-/

namespace Provenance

open Json

/-- Every text that is accepted is a spelled text, and any number of changes of
its spelling lead to the same document, the same verdict and the same report of
the projection hash. -/
theorem verifyBytes_of_respellings {bytes : List UInt8} {document : Value}
    (accepted : documentOfBytes bytes = .ok document) :
    (∃ text : WholeText, WholeText.bytes text = bytes) ∧
      ∀ other, Relation.ReflTransGen RespelledBytes bytes other →
        documentOfBytes other = .ok document ∧ verifyBytes other = verifyBytes bytes ∧
          ∀ path json, Command.runHash (fun _ => .ok other) path json =
            Command.runHash (fun _ => .ok bytes) path json := by
  have read := documentOfBytes_eq_ok_iff.mp accepted
  obtain ⟨text, isBytes, -⟩ := Value.ofBytes_eq_ok_iff.mp read
  refine ⟨⟨text, isBytes⟩, fun other respellings => ?_⟩
  have readOther := ofBytes_eq_ok_of_respellings respellings read
  have acceptedOther := documentOfBytes_eq_ok_iff.mpr readOther
  refine ⟨acceptedOther, ?_, fun path json => ?_⟩
  · rw [verifyBytes, verifyBytes, read, readOther]
  · have sameReport : Command.reportHash (fun _ => .ok other) path =
        Command.reportHash (fun _ => .ok bytes) path := by
      change ((documentOfBytes other).mapError _ >>= _) = ((documentOfBytes bytes).mapError _ >>= _)
      rw [acceptedOther, accepted]
    rw [Command.runHash, Command.runHash, sameReport]

/-- An overridden member is left out, the others change places, an escape becomes
the character it stands for, and a line feed is added. -/
theorem verifyBytes_of_respellings_object :
    let first : List UInt8 := Text.Utf8.encode
      ['\x7b', '"', 'k', '"', ':', '0', ',', '"', 'x', '"', ':', '[', ']', ',',
        '"', 'k', '"', ':', '"', '\\', 'u', '0', '0', 'E', '9', '"', '\x7d']
    let last : List UInt8 := Text.Utf8.encode
      ['\x7b', '"', 'k', '"', ':', '"', 'é', '"', ',', '"', 'x', '"', ':', '[', ']', '\x7d', '\n']
    let document : Value := .object [("k", .string "é"), ("x", .array [])]
    documentOfBytes first = .ok document ∧ Relation.ReflTransGen RespelledBytes first last ∧
      documentOfBytes last = .ok document ∧ verifyBytes last = verifyBytes first := by
  intro first last document
  let key (char : Char) (allowed : isLiteral char = true) (value : Spelling) :
      Spaced (Keyed Spelling) :=
    ⟨[], ⟨[.literal char allowed], [], [], value⟩, []⟩
  let escaped : CharSpelling := .escaped
    (.codePoint ⟨.decimal 0, .decimal 0, .upper 4, .decimal 9⟩ (by decide) (by decide))
  let overridden := key 'k' (by decide) (.number ⟨false, .zero, [], none⟩)
  let list := key 'x' (by decide) (.array [] [])
  let accented := key 'k' (by decide) (.string [escaped])
  let plain := key 'k' (by decide) (.string [.literal 'é' (by decide)])
  have accepted : documentOfBytes first = .ok document :=
    documentOfBytes_eq_ok_iff.mpr (Value.ofBytes_eq_ok_iff.mpr
      ⟨⟨[], .object [overridden, list, accented] [], []⟩, by decide, by cbv⟩)
  have respellings : Relation.ReflTransGen RespelledBytes first last := by
    refine .head ⟨⟨[], .object [overridden, list, accented] [], []⟩,
      ⟨[], .object [list, accented] [], []⟩, by decide, rfl,
      .content [] [] (.overridden [] [list, accented] (by decide) [])⟩ ?_
    refine .head ⟨_, ⟨[], .object [accented, list] [], []⟩, rfl, rfl,
      .content [] [] (.permuted (.swap _ _ _) (by decide) [])⟩ ?_
    refine .head ⟨_, ⟨[], .object [plain, list] [], []⟩, rfl, rfl,
      .content [] [] (.member [] [list] [] [] [] _ [] [] (.string (.character [] [] ?_)))⟩ ?_
    · decide
    · exact .single ⟨_, ⟨[], .object [plain, list] [], [.lineFeed]⟩, rfl, by decide,
        .blanks _ [] [] [] [.lineFeed]⟩
  obtain ⟨-, same⟩ := verifyBytes_of_respellings accepted
  obtain ⟨acceptedLast, sameVerdict, -⟩ := same last respellings
  exact ⟨accepted, respellings, acceptedLast, sameVerdict⟩

end Provenance
