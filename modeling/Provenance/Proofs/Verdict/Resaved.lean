import Mathlib
import Provenance.Proofs.Command.Hash
import Provenance.Proofs.Json.Reread

/-!
# Documents that are saved again

A document that was read and is written in canonical or in indented form is read
again as the same document, but for its doubles: each of them becomes what is read
from its own text (`documentOfBytes_write_reread`).  Only numbers change, so the
sections stay where they are and the declared hash stays the same, while the
projection key changes with its doubles (`Sections.projectionKey?_mapNumbers`).

A projection hash is kept exactly as long as every double in the key is read back
(`ProjectionKey.hash_reread_iff`).  Not every double is: there are neighbours each of
which is read as the other (`reread_drifting`, `reread_drifted`).
-/

namespace Provenance

open Json
open Text.Utf8 (encode)

namespace Json.Value

/-- Every number in the value is read back from its own text. -/
def IsSteady (value : Value) : Prop :=
  ∀ number ∈ value.numbers, number.reread = number

instance (value : Value) : Decidable value.IsSteady :=
  inferInstanceAs (Decidable (∀ number ∈ value.numbers, number.reread = number))

theorem reread_eq_self_iff {value : Value} : value.reread = value ↔ value.IsSteady :=
  mapNumbers_eq_self_iff

/-- The members stay in order. -/
theorem Ordered.mapNumbers {value : Value} (ordered : value.Ordered) (change : Number → Number) :
    (value.mapNumbers change).Ordered := by
  induction ordered with
  | null => exact .null
  | bool truth => exact .bool truth
  | number numeral => exact .number (change numeral)
  | string text => exact .string text
  | array ordered ih =>
      rw [Value.mapNumbers, mapNumbersOfItems_eq_map]
      apply Ordered.array
      intro found isFound
      obtain ⟨item, isItem, rfl⟩ := List.mem_map.mp isFound
      exact ih item isItem
  | object ascending ordered ih =>
      rw [Value.mapNumbers]
      apply Ordered.object (ascending_mapNumbersOfMembers change ascending)
      rw [mapNumbersOfMembers_eq_map]
      intro found isFound
      obtain ⟨member, isMember, rfl⟩ := List.mem_map.mp isFound
      exact ih member isMember

/-- What an ordered object has under a key is ordered. -/
theorem Ordered.of_get? {members : Record} (ordered : (Value.object members).Ordered) {key : String}
    {value : Value} (found : members.get? key = some value) : value.Ordered := by
  cases ordered with
  | object ascending ordered => exact ordered (key, value) (Record.mem_of_get?_eq_some found)

/-- For an ordered value, the same numbers in another order of members are the same
value. -/
theorem same_reread_iff {value : Value} (ordered : value.Ordered) :
    Same value.reread value ↔ value.IsSteady := by
  have orderedToo : value.reread.Ordered := ordered.mapNumbers Number.reread
  rw [same_iff_sortKeys_eq, orderedToo.sortKeys_eq, ordered.sortKeys_eq, reread_eq_self_iff]

variable (change : Number → Number)

theorem record?_mapNumbers (value : Value) :
    (value.mapNumbers change).record? = value.record?.map (mapNumbersOfMembers change) := by
  cases value <;> rfl

/-- Strings are no numbers. -/
theorem string?_mapNumbers (value : Value) : (value.mapNumbers change).string? = value.string? := by
  cases value <;> rfl

end Json.Value

namespace ProjectionKey

/-- The key with a change made to each number. -/
def mapNumbers (change : Number → Number) (key : ProjectionKey) : ProjectionKey where
  collapseResultHash := key.collapseResultHash.mapNumbers change
  mode := key.mode.mapNumbers change
  layout := key.layout.mapNumbers change
  styling := key.styling.mapNumbers change

/-- The key with each number read again from its text. -/
def reread (key : ProjectionKey) : ProjectionKey :=
  key.mapNumbers Number.reread

theorem ofProjection?_mapNumbers (change : Number → Number) (hash : Value) (projection : Record) :
    ofProjection? (hash.mapNumbers change) (Value.mapNumbersOfMembers change projection) =
      (ofProjection? hash projection).map (mapNumbers change) := by
  simp only [ofProjection?, Value.get?_mapNumbersOfMembers]
  cases projection.get? "mode" with
  | none => rfl
  | some mode =>
      cases projection.get? "layout" with
      | none => rfl
      | some layout =>
          cases projection.get? "styling" <;> rfl

theorem toValue_reread (key : ProjectionKey) : key.reread.toValue = key.toValue.reread :=
  rfl

/-- Reading the numbers of a key again keeps its hash exactly if they are read back,
or else there is a collision of the digest. -/
theorem hash_reread_iff {key : ProjectionKey} (ordered : key.toValue.Ordered) :
    key.reread.hash = key.hash ↔
      key.toValue.IsSteady ∨
        Hash.Sha256.IsCollision key.reread.toValue.canonicalBytes key.toValue.canonicalBytes := by
  have sameBytes : key.reread.toValue.canonicalBytes = key.toValue.canonicalBytes ↔
      key.toValue.IsSteady := by
    rw [toValue_reread, Value.canonicalBytes_eq_iff, Value.same_reread_iff ordered]
  rw [← sameBytes]
  exact ContentHash.ofBytes_eq_iff_or_isCollision

end ProjectionKey

namespace Sections

section MapNumbers

variable (change : Number → Number) (document : Value)

theorem rootOf_mapNumbers :
    rootOf (document.mapNumbers change) = Value.mapNumbersOfMembers change (rootOf document) := by
  cases document <;> rfl

theorem get_mapNumbers (which : Section) :
    (ofDocument (document.mapNumbers change)).get which =
      ((ofDocument document).get which).map (Value.mapNumbersOfMembers change) := by
  rw [get_ofDocument, get_ofDocument, rootOf_mapNumbers, read, read,
    Value.get?_mapNumbersOfMembers]
  cases (rootOf document).get? which.key with
  | none => rfl
  | some value => exact value.record?_mapNumbers change

theorem projectionKey?_mapNumbers :
    (ofDocument (document.mapNumbers change)).projectionKey? =
      (ofDocument document).projectionKey?.map (ProjectionKey.mapNumbers change) := by
  have isSource := get_mapNumbers change document .source
  have isProjection := get_mapNumbers change document .projection
  change (ofDocument (document.mapNumbers change)).source =
    (ofDocument document).source.map _ at isSource
  change (ofDocument (document.mapNumbers change)).projection =
    (ofDocument document).projection.map _ at isProjection
  rw [projectionKey?_eq, projectionKey?_eq, isSource, isProjection]
  cases (ofDocument document).source with
  | none => rfl
  | some source =>
      rw [Option.map_some, Option.bind_some, Option.bind_some, Value.get?_mapNumbersOfMembers]
      cases source.get? "collapse_result_hash" with
      | none => rfl
      | some hash =>
          cases (ofDocument document).projection with
          | none => rfl
          | some projection => exact ProjectionKey.ofProjection?_mapNumbers change hash projection

/-- The declared hash stays the same. -/
theorem declaredHash?_mapNumbers :
    (ofDocument (document.mapNumbers change)).declaredHash?.bind Value.string? =
      (ofDocument document).declaredHash?.bind Value.string? := by
  have isReplay := get_mapNumbers change document .replay
  change (ofDocument (document.mapNumbers change)).replay =
    (ofDocument document).replay.map _ at isReplay
  rw [declaredHash?, declaredHash?, isReplay]
  cases (ofDocument document).replay with
  | none => rfl
  | some replay =>
      rw [Option.map_some, Option.bind_some, Option.bind_some, Value.get?_mapNumbersOfMembers]
      cases replay.get? "hash_projection" with
      | none => rfl
      | some declared => exact declared.string?_mapNumbers change

end MapNumbers

/-- The key of an ordered document is ordered. -/
theorem ordered_projectionKey {document : Value} (ordered : document.Ordered)
    {key : ProjectionKey} (isKey : (ofDocument document).projectionKey? = some key) :
    key.toValue.Ordered := by
  have orderedRoot : (Value.object (rootOf document)).Ordered := by
    cases document with
    | object members => exact ordered
    | _ => exact .object .nil (fun member isMember => nomatch isMember)
  have orderedSection {which : Section} {record : Record}
      (isSection : (ofDocument document).get which = some record) :
      (Value.object record).Ordered := by
    rcases get_ofDocument_eq_some_iff.mp isSection with found | ⟨-, rfl⟩
    · exact orderedRoot.of_get? found
    · exact .object .nil (fun member isMember => nomatch isMember)
  obtain ⟨source, projection, hash, hasSource, hasProjection, hasHash, isParts⟩ :=
    projectionKey?_eq_some_iff.mp isKey
  obtain ⟨rfl, hasMode, hasLayout, hasStyling⟩ := ProjectionKey.ofProjection?_eq_some.mp isParts
  have orderedSource := @orderedSection .source source hasSource
  have orderedProjection := @orderedSection .projection projection hasProjection
  have ascending : ["collapse_result_hash", "layout", "mode", "styling"].Pairwise (· < ·) := by
    decide
  refine .object ((List.pairwise_map (f := Prod.fst)).mp ascending) ?_
  simp only [List.forall_mem_cons, List.not_mem_nil, IsEmpty.forall_iff, implies_true, and_true]
  exact ⟨orderedSource.of_get? hasHash, orderedProjection.of_get? hasLayout,
    orderedProjection.of_get? hasMode, orderedProjection.of_get? hasStyling⟩

end Sections

/-! ## Documents with a width -/

theorem zero_inRange : 0 < 0x10000000000000000 := by
  decide

/-- A conformant document but for its declared hash, with a width in its styling. -/
def widthDocument (width : Binary64) (declared : String) : Value :=
  let hash : Value :=
    .string "sha256:0000000000000000000000000000000000000000000000000000000000000000"
  .object
    [("@kux", .string "v1"), ("@status", .string "canonical"),
      ("projection", .object
        [("layout", .string "deterministic"), ("mode", .string "svg"),
          ("styling", .object
            [("no_runtime_injection", .bool true), ("pure", .bool true),
              ("width", .number (.double width))])]),
      ("proof_surface", .null),
      ("replay", .object
        [("hash_projection", .string declared), ("input_hash", hash),
          ("render_deterministic", .bool true), ("replay_identity_required", .bool true)]),
      ("source", .object
        [("collapse_result_hash", hash), ("collapse_trace_hash", hash),
          ("compression_ratio", .number (.ofNat 0 zero_inRange)),
          ("entropy", .number (.double canonicalEntropy)),
          ("invariants", .array [.string "collapse_only"])])]

theorem reread_canonicalEntropy : canonicalEntropy.reread = canonicalEntropy := by
  decide +kernel

theorem sortKeys_widthDocument (width : Binary64) (declared : String) :
    (widthDocument width declared).sortKeys = widthDocument width declared := by
  cbv

theorem reread_widthDocument (width : Binary64) (declared : String) :
    (widthDocument width declared).reread = widthDocument width.reread declared := by
  have isEntropy : Number.reread (.double canonicalEntropy) = .double canonicalEntropy :=
    congrArg Number.double reread_canonicalEntropy
  simp only [widthDocument, Value.reread, Value.mapNumbers, Value.mapNumbersOfMembers,
    Value.mapNumbersOfItems, isEntropy]
  rfl

/-- The text of a document with a width is read as the document with the width that is
read. -/
theorem documentOfBytes_widthDocument (width : Binary64) (declared : String) :
    documentOfBytes (widthDocument width declared).canonicalBytes =
      .ok (widthDocument width.reread declared) := by
  have isDepth : (widthDocument width declared).depth = 3 := rfl
  have shallow : (widthDocument width declared).depth ≤ nestingLimit := by
    rw [isDepth]
    decide
  have written := documentOfBytes_writtenAs shallow
    (fun number _ => number.isReadAs_reread) .compact
  rw [sortKeys_widthDocument] at written
  change documentOfBytes _ = .ok (widthDocument width declared).reread at written
  rw [reread_widthDocument] at written
  rw [Value.canonicalBytes, Value.canonicalText, sortKeys_widthDocument]
  exact written

/-- The double `1e-25`. -/
def drifting : Binary64 :=
  ⟨false, 0x3ABEF2D0F5DA7DD9, by decide⟩

/-- The double before `1e-25`. -/
def drifted : Binary64 :=
  ⟨false, 0x3ABEF2D0F5DA7DD8, by decide⟩

/-- The hash of the document with the double `1e-25`. -/
def driftingHash : String :=
  "sha256:7b784e416800672456c8b723d4f93c1de372660459eeb88f2f44f40a3d068224"

/-- The hash of the document with the double before `1e-25`. -/
def driftedHash : String :=
  "sha256:879769137cbd66a62e2174a0f475df4a0c0dbe9ea87b315ee57e7e40a4ef1a01"

theorem reread_drifting : drifting.reread = drifted := by
  decide +kernel

theorem reread_drifted : drifted.reread = drifting := by
  decide +kernel

/-- A document is read again from its canonical and its indented text, with the doubles
that are read from the texts of its own. -/
theorem documentOfBytes_write_reread {bytes : List UInt8} {document : Value}
    (accepted : documentOfBytes bytes = .ok document) (layout : Layout) :
    documentOfBytes (encode (document.sortKeys.write layout)) = .ok document.reread := by
  have read := documentOfBytes_eq_ok_iff.mp accepted
  have written := documentOfBytes_writtenAs (Value.depth_le_of_ofBytes read)
    (fun number _ => number.isReadAs_reread) layout
  rw [(Value.ordered_of_ofBytes read).sortKeys_eq] at written ⊢
  exact written

/-- The identity of the document that is read again is that of its new key. -/
theorem replayIdentityValid_reread {document : Value} {key : ProjectionKey}
    (isKey : (Sections.ofDocument document).projectionKey? = some key) :
    (verify document.reread).replayIdentityValid =
      ((Sections.ofDocument document).declaredHash?.bind Value.string? ==
        some key.reread.hash) := by
  have isKeyToo : (Sections.ofDocument document.reread).projectionKey? = some key.reread := by
    rw [Value.reread, Sections.projectionKey?_mapNumbers, isKey]
    rfl
  rw [replayIdentityValid_verify, Sections.identity_isValid_eq isKeyToo, Value.reread,
    Sections.declaredHash?_mapNumbers]

/-- Saving a document again.  The text of every double is read as a double of the same
sign, which is the double itself if its digits and its power of ten are doubles.  The
canonical and the indented text of a document are read as the same document but for
its doubles; so it is the same document exactly if its doubles are read back.  The
projection key changes with its doubles only: its hash stays the same exactly if these
are read back, or else there is a collision of the digest.  In the first case the
identity stays as valid as it was; in general a valid identity stays valid exactly if
the hash does not change. -/
theorem documentOfBytes_resaved {bytes : List UInt8} {document : Value}
    (accepted : documentOfBytes bytes = .ok document) :
    (∀ x : Binary64,
        Value.ofBytes (encode (x.text doubleStyle)) = .ok (.number (.double x.reread)) ∧
          x.reread.negative = x.negative ∧
          ∀ bits scale, x.written.coefficient = bits * 2 ^ scale → bits ≤ 2 ^ 53 →
            x.written.scale.natAbs ≤ 22 → x.reread = x) ∧
      documentOfBytes document.canonicalBytes = .ok document.reread ∧
      documentOfBytes (encode document.pretty.toList) = .ok document.reread ∧
      (document.reread = document ↔ document.IsSteady) ∧
      (Sections.ofDocument document.reread).projectionKey? =
        (Sections.ofDocument document).projectionKey?.map ProjectionKey.reread ∧
      ∀ key, (Sections.ofDocument document).projectionKey? = some key →
        (key.reread.hash = key.hash ↔
          key.toValue.IsSteady ∨ Hash.Sha256.IsCollision key.reread.toValue.canonicalBytes
            key.toValue.canonicalBytes) ∧
        (key.toValue.IsSteady →
          (verify document.reread).replayIdentityValid =
            (verify document).replayIdentityValid) ∧
        ((verify document).replayIdentityValid = true →
          ((verify document.reread).replayIdentityValid = true ↔
            key.reread.hash = key.hash)) := by
  have ordered := Value.ordered_of_ofBytes (documentOfBytes_eq_ok_iff.mp accepted)
  refine ⟨fun x => ⟨x.ofBytes_text, x.negative_reread, fun bits scale isScaled fits few =>
      Binary64.reread_eq_self isScaled fits few⟩,
    documentOfBytes_write_reread accepted .compact, ?_, Value.reread_eq_self_iff,
    Sections.projectionKey?_mapNumbers Number.reread document, ?_⟩
  · rw [Value.pretty, String.toList_ofList]
    exact documentOfBytes_write_reread accepted (.indented 0)
  · intro key isKey
    have sameHash := ProjectionKey.hash_reread_iff (Sections.ordered_projectionKey ordered isKey)
    rw [replayIdentityValid_reread isKey, replayIdentityValid_verify,
      Sections.identity_isValid_eq isKey]
    refine ⟨sameHash, fun steady => ?_, fun isValid => ?_⟩
    · rw [sameHash.mpr (Or.inl steady)]
    · rw [eq_of_beq isValid, beq_iff_eq, Option.some.injEq, eq_comm]

/-- A width of `2.5` is read back, so the document keeps its hash and stays valid. -/
theorem documentOfBytes_resaved_steady :
    let width : Binary64 := ⟨false, 0x4004000000000000, by decide⟩
    let hash := "sha256:b1448eb147da250c5c59129d909c0d4d436066e62006759717ff0f13840c6dbb"
    let document := widthDocument width hash
    documentOfBytes document.canonicalBytes = .ok document ∧ document.IsSteady ∧
      (verify document).replayIdentityValid = true ∧
      (verify document.reread).replayIdentityValid = true ∧
      ∃ key, (Sections.ofDocument document).projectionKey? = some key ∧
        key.reread.hash = key.hash := by
  intro width hash document
  have isWidth : width.reread = width := by decide +kernel
  have accepted := documentOfBytes_widthDocument width hash
  rw [isWidth] at accepted
  obtain ⟨-, -, -, steady, -, ofKey⟩ := documentOfBytes_resaved accepted
  have same : document.reread = document := by
    rw [reread_widthDocument, isWidth]
  have isValid : (verify document).replayIdentityValid = true := by decide +kernel
  obtain ⟨key, isKey⟩ : ∃ key, (Sections.ofDocument document).projectionKey? = some key :=
    ⟨_, rfl⟩
  obtain ⟨-, -, stays⟩ := ofKey key isKey
  have staysValid : (verify document.reread).replayIdentityValid = true := by
    rw [same, isValid]
  exact ⟨accepted, steady.mp same, isValid, staysValid, key, isKey,
    (stays isValid).mp staysValid⟩

/-- The text `1e-25` is read as the double before `1e-25`, and the text of that one as
`1e-25`.  So a document with it passes, but when it is saved again, the document that
is read has another hash and its identity is not valid. -/
theorem documentOfBytes_resaved_drifting :
    Value.ofBytes (encode ['1', 'e', '-', '2', '5']) = .ok (.number (.double drifted)) ∧
      Value.ofBytes (encode (drifted.text doubleStyle)) = .ok (.number (.double drifting)) ∧
      drifting ≠ drifted ∧
      documentOfBytes (widthDocument drifting driftedHash).canonicalBytes =
        .ok (widthDocument drifted driftedHash) ∧
      (verify (widthDocument drifted driftedHash)).passed = true ∧
      (verify (widthDocument drifted driftedHash)).replayIdentityValid = true ∧
      documentOfBytes (widthDocument drifted driftedHash).canonicalBytes =
        .ok (widthDocument drifting driftedHash) ∧
      (Sections.ofDocument (widthDocument drifting driftedHash)).identity =
        .mismatched driftingHash (some driftedHash) ∧
      (verify (widthDocument drifting driftedHash)).replayIdentityValid = false := by
  have text : drifting.text doubleStyle = ['1', 'e', '-', '2', '5'] := by decide +kernel
  have read := drifting.ofBytes_text
  have readToo := drifted.ofBytes_text
  rw [reread_drifting, text] at read
  rw [reread_drifted] at readToo
  have saved := documentOfBytes_widthDocument drifting driftedHash
  have resaved := documentOfBytes_widthDocument drifted driftedHash
  rw [reread_drifting] at saved
  rw [reread_drifted] at resaved
  have different : drifting ≠ drifted := by decide
  have passes : (verify (widthDocument drifted driftedHash)).passed = true := by decide +kernel
  obtain ⟨-, isValid, -⟩ := (passed_iff _).mp passes
  have isMismatched : (Sections.ofDocument (widthDocument drifting driftedHash)).identity =
      .mismatched driftingHash (some driftedHash) := by
    decide +kernel
  have notValid : (verify (widthDocument drifting driftedHash)).replayIdentityValid = false := by
    rw [replayIdentityValid_verify, isMismatched]
    rfl
  exact ⟨read, readToo, different, saved, passes, isValid, resaved, isMismatched, notValid⟩

end Provenance
