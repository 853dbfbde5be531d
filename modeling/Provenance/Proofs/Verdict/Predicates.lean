import Mathlib
import Provenance.Proofs.Verdict.Passing

/-!
# The predicates as statements about the errors

The predicates of a verdict are computed from the document, and the errors by a
separate scan.  Clauses on a section are kept by the record that the section is
read as exactly when the section is no non-record and none of their messages is
an error (`exists_kept_iff`).  So each predicate says which messages are absent,
and besides only which sections are no non-records.
-/

namespace Provenance

open Json

variable (document : Value)

/-- A section is read as a record that keeps some of its clauses when it is no
non-record and their messages are no errors. -/
theorem exists_kept_iff (which : Section) {clauses : List Clause}
    (areClauses : ∀ clause ∈ clauses, clause ∈ which.clauses) :
    (∃ record, HasSection document which.key record ∧ ∀ clause ∈ clauses, clause.Kept record) ↔
      ¬ IsNonRecord document which.key ∧
        ∀ clause ∈ clauses, clause.message ∉ (verify document).errors := by
  constructor
  · rintro ⟨record, isSection, kept⟩
    exact ⟨exists_hasSection_iff.mp ⟨record, isSection⟩, fun clause member =>
      message_not_mem_errors isSection (areClauses clause member) (kept clause member)⟩
  · rintro ⟨isRecord, noErrors⟩
    obtain ⟨record, isSection⟩ := exists_hasSection_iff.mpr isRecord
    refine ⟨record, isSection, fun clause member => ?_⟩
    by_contra notKept
    apply noErrors clause member
    exact ((reports_catalogue document).message_mem_iff nodup_catalogue
      (mem_catalogue which (areClauses clause member))).mpr ⟨record, isSection, notKept⟩

/-- The form of `exists_kept_iff` for a single clause. -/
theorem exists_kept_one_iff (which : Section) {clause : Clause}
    (isClause : clause ∈ which.clauses) :
    (∃ record, HasSection document which.key record ∧ clause.Kept record) ↔
      ¬ IsNonRecord document which.key ∧ clause.message ∉ (verify document).errors := by
  have kept := exists_kept_iff document which (List.forall_mem_singleton.mpr isClause)
  simpa only [List.forall_mem_singleton] using kept

/-- Whatever a document holds, the errors that mention the projection hash are
among the messages about the declared hash. -/
theorem mentionsHash_iff_of_mem_errors {error : String}
    (isError : error ∈ (verify document).errors) :
    MentionsHash error ↔ error ∈ hashMessages :=
  ⟨mem_hashMessages_of_mentionsHash error ((reports_catalogue document).sublist.subset isError),
    mentionsHash_of_mem_hashMessages error⟩

theorem schemaValid_iff_mem_hashMessages :
    (verify document).schemaValid = true ↔
      ∀ error ∈ (verify document).errors, error ∈ hashMessages := by
  rw [schemaValid_iff]
  exact forall₂_congr fun _ isError => mentionsHash_iff_of_mem_errors document isError

theorem entropyValid_iff_message :
    (verify document).entropyValid = true ↔
      ¬ IsNonRecord document "source" ∧
        "source.entropy must equal 0.21" ∉ (verify document).errors := by
  rw [entropyValid_verify, Sections.entropyValid_iff]
  have isClause : Clause.sourceFields[2] ∈ Section.source.clauses :=
    List.mem_append_right _ (List.getElem_mem _)
  exact exists_kept_one_iff document .source isClause

theorem deterministicProjection_iff_messages :
    (verify document).deterministicProjection = true ↔
      (¬ IsNonRecord document "projection" ∧
        "projection.layout must equal 'deterministic'" ∉ (verify document).errors) ∧
      ¬ IsNonRecord document "replay" ∧
        "replay.render_deterministic must be true" ∉ (verify document).errors := by
  rw [deterministicProjection_verify, Sections.deterministicProjection_iff]
  have isLayout : Clause.projectionFields[1] ∈ Section.projection.clauses :=
    List.mem_append_right _ (List.getElem_mem _)
  have isRendering : Clause.replayFields[1] ∈ Section.replay.clauses :=
    List.mem_append_right _ (List.getElem_mem _)
  exact and_congr (exists_kept_one_iff document .projection isLayout)
    (exists_kept_one_iff document .replay isRendering)

/-! ## The identity -/

theorem present_mem_clauses {which : Section} {key : String}
    (isRequired : key ∈ which.requiredKeys) :
    Clause.present which.key key ∈ which.clauses := by
  have isPresent := List.mem_map_of_mem (f := Clause.present which.key) isRequired
  cases which with
  | source => exact List.mem_append_left _ isPresent
  | projection => exact List.mem_append_left _ isPresent
  | replay => exact List.mem_append_left _ isPresent
  | proofSurface => exact isPresent

/-- An identity can be checked when the replay is a record, and source and
projection are records that have the parts of a key. -/
theorem exists_hasIdentity_iff :
    (∃ replay key, HasIdentity document replay key) ↔
      (∃ source, HasSection document "source" source ∧
          source.get? "collapse_result_hash" ≠ none) ∧
        (∃ projection, HasSection document "projection" projection ∧
          projection.get? "mode" ≠ none ∧ projection.get? "layout" ≠ none ∧
            projection.get? "styling" ≠ none) ∧
        ∃ replay, HasSection document "replay" replay := by
  simp only [Option.ne_none_iff_exists']
  constructor
  · rintro ⟨replay, key, source, projection, hash, isSource, isProjection, isReplay, hasHash,
      isKey⟩
    obtain ⟨_, hasMode, hasLayout, hasStyling⟩ := ProjectionKey.ofProjection?_eq_some.mp isKey
    exact ⟨⟨source, isSource, hash, hasHash⟩, ⟨projection, isProjection, ⟨key.mode, hasMode⟩,
      ⟨key.layout, hasLayout⟩, key.styling, hasStyling⟩, replay, isReplay⟩
  · rintro ⟨⟨source, isSource, hash, hasHash⟩, ⟨projection, isProjection, ⟨mode, hasMode⟩,
      ⟨layout, hasLayout⟩, styling, hasStyling⟩, replay, isReplay⟩
    exact ⟨replay, ⟨hash, mode, layout, styling⟩, source, projection, hash, isSource,
      isProjection, isReplay, hasHash,
      ProjectionKey.ofProjection?_eq_some.mpr ⟨rfl, hasMode, hasLayout, hasStyling⟩⟩

/-- An identity can be checked when no checked section is a non-record and no
part of the key is reported as missing. -/
theorem exists_hasIdentity_iff_messages :
    (∃ replay key, HasIdentity document replay key) ↔
      (∀ name ∈ checkedSections, ¬ IsNonRecord document name) ∧
        ∀ message ∈ ["source.collapse_result_hash: missing", "projection.mode: missing",
          "projection.layout: missing", "projection.styling: missing"],
          message ∉ (verify document).errors := by
  have hasHash := exists_kept_one_iff document .source
    (@present_mem_clauses .source "collapse_result_hash" (by decide))
  have hasFields := @exists_kept_iff document .projection
    (["mode", "layout", "styling"].map (Clause.present "projection"))
    (List.forall_mem_map.mpr fun _ isField => present_mem_clauses isField)
  have hasReplay := @exists_hasSection_iff document "replay"
  simp only [List.map_cons, List.map_nil, List.forall_mem_cons, List.not_mem_nil,
    IsEmpty.forall_iff, implies_true, and_true] at hasFields
  rw [exists_hasIdentity_iff]
  refine (and_congr hasHash (and_congr hasFields hasReplay)).trans ?_
  simp only [checkedSections, List.forall_mem_cons, List.not_mem_nil, IsEmpty.forall_iff,
    implies_true, and_true]
  constructor
  · rintro ⟨⟨source, hash⟩, ⟨projection, mode, layout, styling⟩, replay⟩
    exact ⟨⟨source, projection, replay⟩, hash, mode, layout, styling⟩
  · rintro ⟨⟨source, projection, replay⟩, hash, mode, layout, styling⟩
    exact ⟨⟨source, hash⟩, ⟨projection, mode, layout, styling⟩, replay⟩

theorem identityMessage_mem_errors_iff :
    Requirement.identity.message ∈ (verify document).errors ↔
      Requirement.identity.IsBroken document :=
  (reports_catalogue document).message_mem_iff nodup_catalogue
    (List.mem_append_right _ List.mem_cons_self)

/-- The identity is valid when it can be checked and its message is no error. -/
theorem identity_isValid_iff_message :
    (Sections.ofDocument document).identity.isValid = true ↔
      (∃ replay key, HasIdentity document replay key) ∧
        Requirement.identity.message ∉ (verify document).errors := by
  rw [Sections.identity_isValid_iff, identityMessage_mem_errors_iff]
  constructor
  · rintro ⟨replay, key, hasIdentity, isHash⟩
    refine ⟨⟨replay, key, hasIdentity⟩, ?_⟩
    rintro ⟨other, otherKey, isOther, notHash⟩
    obtain ⟨rfl, rfl⟩ := Sections.hasIdentity_unique isOther hasIdentity
    exact notHash isHash
  · rintro ⟨⟨replay, key, hasIdentity⟩, notBroken⟩
    refine ⟨replay, key, hasIdentity, ?_⟩
    by_contra notHash
    exact notBroken ⟨replay, key, hasIdentity, notHash⟩

/-- A broken identity is reported behind all other errors. -/
theorem identityMessage_not_mem_dropLast :
    Requirement.identity.message ∉ (verify document).errors.dropLast := by
  have inOrder := (reports_catalogue document).sublist
  have different := nodup_catalogue
  rw [Requirement.catalogue, List.map_append] at inOrder different
  have notBefore := (List.disjoint_of_nodup_append different).symm List.mem_cons_self
  obtain ⟨before, last, isSplit, inFront, inLast⟩ := List.sublist_append_iff.mp inOrder
  rw [isSplit]
  intro isEarlier
  rcases List.sublist_singleton.mp inLast with rfl | rfl
  · rw [List.append_nil] at isEarlier
    exact notBefore (inFront.subset (List.mem_of_mem_dropLast isEarlier))
  · rw [List.dropLast_concat] at isEarlier
    exact notBefore (inFront.subset isEarlier)

/-- Every predicate of a verdict is a statement about its errors.  The structure
is valid when all errors are messages about the declared hash, which are the only
errors that mention it; entropy, layout and identity are valid when certain
messages are absent and the sections that they look at are no non-records; and
the message of a broken identity occurs once at most, behind all others. -/
theorem verify_predicates :
    let errors := (verify document).errors
    let mismatch := "replay.hash_projection does not match deterministic projection hash"
    let aboutHash := ["replay.hash_projection: missing",
      "replay.hash_projection must match sha256:[a-f0-9]\x7b64\x7d", mismatch]
    ((verify document).schemaValid = true ↔ ∀ error ∈ errors, error ∈ aboutHash) ∧
      (∀ error ∈ errors, MentionsHash error ↔ error ∈ aboutHash) ∧
      ((verify document).entropyValid = true ↔
        ¬ IsNonRecord document "source" ∧ "source.entropy must equal 0.21" ∉ errors) ∧
      ((verify document).deterministicProjection = true ↔
        (¬ IsNonRecord document "projection" ∧
          "projection.layout must equal 'deterministic'" ∉ errors) ∧
        ¬ IsNonRecord document "replay" ∧ "replay.render_deterministic must be true" ∉ errors) ∧
      ((verify document).replayIdentityValid = true ↔
        ((∀ name ∈ ["source", "projection", "replay"], ¬ IsNonRecord document name) ∧
          ∀ message ∈ ["source.collapse_result_hash: missing", "projection.mode: missing",
            "projection.layout: missing", "projection.styling: missing"], message ∉ errors) ∧
        mismatch ∉ errors) ∧
      errors.count mismatch ≤ 1 ∧ mismatch ∉ errors.dropLast := by
  have distinct := nodup_catalogue.sublist (reports_catalogue document).sublist
  refine ⟨schemaValid_iff_mem_hashMessages document,
    fun _ isError => mentionsHash_iff_of_mem_errors document isError,
    entropyValid_iff_message document, deterministicProjection_iff_messages document, ?_,
    List.nodup_iff_count_le_one.mp distinct _, identityMessage_not_mem_dropLast document⟩
  rw [replayIdentityValid_verify, identity_isValid_iff_message, exists_hasIdentity_iff_messages]
  exact Iff.rfl

end Provenance
