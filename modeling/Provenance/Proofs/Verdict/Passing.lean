import Mathlib
import Provenance.Proofs.Document.Conformance

/-!
# The predicates of a verdict and its errors

A verdict decides conformance in several ways: four predicates, the list of
errors, and whether the document passed.  They are computed separately.  A
document passes exactly when there is no error and source, projection and replay
are read as records (`passed_iff_errors_eq_nil`), and these documents are the
conformant ones (`passed_iff_conforms`).  From this the ways agree as far as they
can: the errors that the structural predicate leaves out are those of a broken
identity, and only a section that is no object fails a document without an error.
-/

namespace Provenance

open Json

/-- A section that is present but no object. -/
def IsNonRecord (document : Value) (name : String) : Prop :=
  ∃ value, (rootOf document).get? name = some value ∧ ∀ members, value ≠ .object members

/-- A section is read as a record unless it is present and no object. -/
theorem exists_hasSection_iff {document : Value} {name : String} :
    (∃ record, HasSection document name record) ↔ ¬ IsNonRecord document name := by
  constructor
  · rintro ⟨record, isObject | ⟨isAbsent, _⟩⟩ ⟨value, found, noObject⟩
    · exact noObject record (Option.some.inj (found.symm.trans isObject))
    · rw [isAbsent] at found
      contradiction
  · intro notNonRecord
    cases found : (rootOf document).get? name with
    | none => exact ⟨[], Or.inr ⟨found, rfl⟩⟩
    | some value =>
        by_contra noSection
        apply notNonRecord
        refine ⟨value, found, ?_⟩
        rintro members rfl
        exact noSection ⟨members, Or.inl found⟩

/-- There is no error exactly when the root, every section that is read as a
record, and the identity keep everything that is required. -/
theorem errors_eq_nil_iff (document : Value) :
    (verify document).errors = [] ↔
      (∀ clause ∈ Clause.root, clause.Kept (rootOf document)) ∧
        (∀ which : Section, ∀ record, HasSection document which.key record →
          ∀ clause ∈ which.clauses, clause.Kept record) ∧
        ∀ replay key, HasIdentity document replay key →
          Field.IsText key.hash (replay.get? "hash_projection") := by
  rw [(reports_catalogue document).eq_nil_iff]
  simp only [Requirement.catalogue, List.forall_mem_append, List.forall_mem_map,
    List.forall_mem_singleton]
  constructor
  · rintro ⟨⟨⟨⟨⟨root, source⟩, projection⟩, replay⟩, proofSurface⟩, identity⟩
    refine ⟨fun clause member => not_not.mp (root clause member), ?_, ?_⟩
    · intro which record isSection clause member
      by_contra notKept
      cases which with
      | source => exact source clause member ⟨record, isSection, notKept⟩
      | projection => exact projection clause member ⟨record, isSection, notKept⟩
      | replay => exact replay clause member ⟨record, isSection, notKept⟩
      | proofSurface => exact proofSurface clause member ⟨record, isSection, notKept⟩
    · intro replay key hasIdentity
      by_contra notText
      exact identity ⟨replay, key, hasIdentity, notText⟩
  · rintro ⟨root, sections, identity⟩
    have ofSection (which : Section) : ∀ clause ∈ which.clauses,
        ¬ (Requirement.ofSection which.key clause).IsBroken document := by
      rintro clause member ⟨record, isSection, notKept⟩
      exact notKept (sections which record isSection clause member)
    refine ⟨⟨⟨⟨⟨?_, ofSection .source⟩, ofSection .projection⟩, ofSection .replay⟩,
      ofSection .proofSurface⟩, ?_⟩
    · intro clause member broken
      exact broken (root clause member)
    · rintro ⟨replay, key, hasIdentity, notText⟩
      exact notText (identity replay key hasIdentity)

/-- Without errors, sections that are read as records conform. -/
theorem sections_conform {document : Value} {source projection replay : Record}
    (noErrors : (verify document).errors = []) (isSource : HasSection document "source" source)
    (isProjection : HasSection document "projection" projection)
    (isReplay : HasSection document "replay" replay) :
    SourceConforms source ∧ ProjectionConforms projection ∧ ReplayConforms replay ∧
      DeclaresIdentity source projection replay := by
  obtain ⟨_, sections, identity⟩ := (errors_eq_nil_iff document).mp noErrors
  have sourceConforms := source_kept_iff.mp (sections .source source isSource)
  have projectionConforms := projection_kept_iff.mp (sections .projection projection isProjection)
  obtain ⟨replayConforms, _⟩ := replay_kept_iff.mp (sections .replay replay isReplay)
  obtain ⟨hash, hasHash⟩ := Option.ne_none_iff_exists'.mp
    (Field.ne_none_of (by simp [Field.IsContentHash]) sourceConforms.resultHash)
  obtain ⟨key, isKey⟩ := projectionConforms.isComplete.exists_key hash
  have isHash := identity replay key
    ⟨source, projection, hash, isSource, isProjection, isReplay, hasHash, isKey⟩
  exact ⟨sourceConforms, projectionConforms, replayConforms, hash, key, hasHash, isKey, isHash⟩

theorem entropyValid_verify (document : Value) :
    (verify document).entropyValid = (Sections.ofDocument document).entropyValid :=
  rfl

theorem deterministicProjection_verify (document : Value) :
    (verify document).deterministicProjection =
      (Sections.ofDocument document).deterministicProjection :=
  rfl

theorem replayIdentityValid_verify (document : Value) :
    (verify document).replayIdentityValid = (Sections.ofDocument document).identity.isValid :=
  congrArg ReplayIdentity.isValid (Sections.checkIdentity_fst _ _)

/-- A document passes when three predicates hold and there is no error. -/
theorem passed_iff (document : Value) :
    (verify document).passed = true ↔
      (verify document).entropyValid = true ∧ (verify document).replayIdentityValid = true ∧
        (verify document).deterministicProjection = true ∧ (verify document).errors = [] := by
  rw [← List.isEmpty_iff]
  change (_ && _ && _ && _) = true ↔ _
  simp only [Bool.and_eq_true, and_assoc]
  rfl

/-- The sections that the predicates of a verdict are about. -/
def checkedSections : List String :=
  ["source", "projection", "replay"]

/-- A document passes exactly when there is no error and the sections that are
checked are read as records. -/
theorem passed_iff_errors_eq_nil (document : Value) :
    (verify document).passed = true ↔
      (verify document).errors = [] ∧
        ∀ name ∈ checkedSections, ∃ record, HasSection document name record := by
  rw [passed_iff, entropyValid_verify, deterministicProjection_verify, replayIdentityValid_verify,
    Sections.entropyValid_iff, Sections.deterministicProjection_iff,
    Sections.identity_isValid_iff]
  simp only [checkedSections, List.forall_mem_cons, List.not_mem_nil, IsEmpty.forall_iff,
    implies_true, and_true]
  constructor
  · rintro ⟨⟨source, isSource, _⟩, _, ⟨⟨projection, isProjection, _⟩, replay, isReplay, _⟩,
      noErrors⟩
    exact ⟨noErrors, ⟨source, isSource⟩, ⟨projection, isProjection⟩, ⟨replay, isReplay⟩⟩
  · rintro ⟨noErrors, ⟨source, isSource⟩, ⟨projection, isProjection⟩, ⟨replay, isReplay⟩⟩
    obtain ⟨sourceConforms, projectionConforms, replayConforms, hash, key, hasHash, isKey,
      isHash⟩ := sections_conform noErrors isSource isProjection isReplay
    have hasIdentity : HasIdentity document replay key :=
      ⟨source, projection, hash, isSource, isProjection, isReplay, hasHash, isKey⟩
    exact ⟨⟨source, isSource, sourceConforms.entropy⟩, ⟨replay, key, hasIdentity, isHash⟩,
      ⟨⟨projection, isProjection, projectionConforms.layout⟩, replay, isReplay,
        replayConforms.deterministic⟩, noErrors⟩

/-- The passing documents are the conformant ones. -/
theorem passed_iff_conforms (document : Value) :
    (verify document).passed = true ↔ Conforms document := by
  rw [passed_iff_errors_eq_nil]
  simp only [checkedSections, List.forall_mem_cons, List.not_mem_nil, IsEmpty.forall_iff,
    implies_true, and_true]
  constructor
  · rintro ⟨noErrors, ⟨source, isSource⟩, ⟨projection, isProjection⟩, ⟨replay, isReplay⟩⟩
    obtain ⟨sourceConforms, projectionConforms, replayConforms, identity⟩ :=
      sections_conform noErrors isSource isProjection isReplay
    obtain ⟨rootKept, sections, _⟩ := (errors_eq_nil_iff document).mp noErrors
    obtain ⟨⟨version, status⟩, hasSource, hasProjection, hasReplay, hasSurface⟩ :=
      root_kept_iff.mp rootKept
    obtain ⟨surface, isSurface⟩ := Option.ne_none_iff_exists'.mp hasSurface
    cases document with
    | object root =>
        refine ⟨root, source, projection, replay, surface, rfl, version, status,
          isSource.get?_eq hasSource, sourceConforms, isProjection.get?_eq hasProjection,
          projectionConforms, isReplay.get?_eq hasReplay, replayConforms, isSurface, ?_, identity⟩
        rintro members rfl
        exact proofSurface_kept_iff.mp (sections .proofSurface members (Or.inl isSurface))
    | _ => exact absurd rfl hasSource
  · rintro ⟨root, source, projection, replay, surface, rfl, version, status, hasSource,
      sourceConforms, hasProjection, projectionConforms, hasReplay, replayConforms, hasSurface,
      surfaceConforms, hash, key, hasHash, isKey, isHash⟩
    have isSource : HasSection (.object root) "source" source := Or.inl hasSource
    have isProjection : HasSection (.object root) "projection" projection := Or.inl hasProjection
    have isReplay : HasSection (.object root) "replay" replay := Or.inl hasReplay
    refine ⟨(errors_eq_nil_iff _).mpr ⟨?_, ?_, ?_⟩, ⟨source, isSource⟩,
      ⟨projection, isProjection⟩, ⟨replay, isReplay⟩⟩
    · apply root_kept_iff.mpr
      change (_ ∧ _) ∧ root.get? "source" ≠ none ∧ root.get? "projection" ≠ none ∧
        root.get? "replay" ≠ none ∧ root.get? "proof_surface" ≠ none
      rw [hasSource, hasProjection, hasReplay, hasSurface]
      exact ⟨⟨version, status⟩, Option.some_ne_none _, Option.some_ne_none _,
        Option.some_ne_none _, Option.some_ne_none _⟩
    · intro which record isSection
      cases which with
      | source =>
          rw [isSection.unique isSource]
          exact source_kept_iff.mpr sourceConforms
      | projection =>
          rw [isSection.unique isProjection]
          exact projection_kept_iff.mpr projectionConforms
      | replay =>
          rw [isSection.unique isReplay]
          exact replay_kept_iff.mpr ⟨replayConforms, isContentHash_of_isText_hash isHash⟩
      | proofSurface =>
          apply proofSurface_kept_iff.mpr
          rcases isSection with isObject | ⟨isAbsent, _⟩
          · exact surfaceConforms record (Option.some.inj (hasSurface.symm.trans isObject))
          · exact absurd (hasSurface.symm.trans isAbsent) (Option.some_ne_none _)
    · intro otherReplay otherKey hasOther
      obtain ⟨rfl, rfl⟩ := Sections.hasIdentity_unique hasOther
        ⟨source, projection, hash, isSource, isProjection, isReplay, hasHash, isKey⟩
      exact isHash

theorem passed_leastDocument : (verify leastDocument).passed = true := by
  decide +kernel

/-- Bytes pass exactly when they spell a conformant document. -/
theorem verifyBytes_passed_iff (bytes : List UInt8) :
    (verifyBytes bytes).passed = true ↔
      ∃ document, documentOfBytes bytes = .ok document ∧ Conforms document := by
  rw [verifyBytes, documentOfBytes]
  cases Value.ofBytes bytes with
  | error error =>
      constructor
      · intro passed
        contradiction
      · rintro ⟨document, isDocument, _⟩
        contradiction
  | ok document =>
      rw [passed_iff_conforms]
      constructor
      · intro conforms
        exact ⟨document, rfl, conforms⟩
      · rintro ⟨other, isDocument, conforms⟩
        obtain rfl : document = other := Except.ok.inj isDocument
        exact conforms

/-! ## Errors about the identity -/

theorem occursIn_iff (part text : List Char) : occursIn part text = true ↔ part <:+: text := by
  induction text with
  | nil => simp [occursIn]
  | cons char text ih =>
      rw [occursIn, Bool.or_eq_true, ih, List.isPrefixOf_iff_prefix, List.infix_cons_iff]

/-- The error mentions the projection hash. -/
def MentionsHash (error : String) : Prop :=
  "hash_projection".toList <:+: error.toList

theorem schemaValid_iff (document : Value) :
    (verify document).schemaValid = true ↔
      ∀ error ∈ (verify document).errors, MentionsHash error := by
  change List.all _ _ = true ↔ _
  simp only [List.all_eq_true, occursIn_iff]
  rfl

/-- The messages about the hash that a replay declares. -/
def hashMessages : List String :=
  [(Clause.present "replay" "hash_projection").message,
    (Clause.contentHash "replay" "hash_projection").message, Requirement.identity.message]

/-- No other message mentions the projection hash. -/
theorem mem_hashMessages_of_mentionsHash :
    ∀ message ∈ Requirement.catalogue.map Requirement.message,
      MentionsHash message → message ∈ hashMessages := by
  -- Bytes are compared, since taking strings apart into characters is slow.
  have occurs : ∀ message ∈ Requirement.catalogue.map Requirement.message,
      "hash_projection".toByteArray.data.toList <:+: message.toByteArray.data.toList →
        message ∈ hashMessages := by
    decide +kernel
  intro message member mentions
  apply occurs message member
  rw [← Text.Utf8.encode_toList, ← Text.Utf8.encode_toList]
  exact Text.Utf8.encode_infix mentions

theorem mentionsHash_of_mem_hashMessages :
    ∀ message ∈ hashMessages, MentionsHash message := by
  simp only [hashMessages, List.forall_mem_cons, List.not_mem_nil, IsEmpty.forall_iff,
    implies_true, and_true]
  exact ⟨⟨"replay.".toList, ": missing".toList, by decide +kernel⟩,
    ⟨"replay.".toList, " must match sha256:[a-f0-9]\x7b64\x7d".toList, by decide +kernel⟩,
    ⟨"replay.".toList, " does not match deterministic projection hash".toList, by decide +kernel⟩⟩

/-- A message is no error if the record that its section is read as keeps its
clause. -/
theorem message_not_mem_errors {document : Value} {which : Section} {record : Record}
    {clause : Clause} (isSection : HasSection document which.key record)
    (member : clause ∈ which.clauses) (kept : clause.Kept record) :
    clause.message ∉ (verify document).errors := by
  intro isError
  obtain ⟨other, isOther, notKept⟩ :=
    ((reports_catalogue document).message_mem_iff nodup_catalogue
      (mem_catalogue which member)).mp isError
  rw [isOther.unique isSection] at notKept
  exact notKept kept

/-- If the declared hash is the computed one, no error mentions it. -/
theorem not_mentionsHash_of_identity_isValid {document : Value}
    (isValid : (Sections.ofDocument document).identity.isValid = true) :
    ∀ error ∈ (verify document).errors, ¬ MentionsHash error := by
  obtain ⟨replay, key, hasIdentity, isHash⟩ := (Sections.identity_isValid_iff document).mp isValid
  have isReplay : HasSection document "replay" replay := by
    rcases hasIdentity with ⟨_, _, _, _, _, isReplay, _⟩
    exact isReplay
  have isContentHash := isContentHash_of_isText_hash isHash
  have reports := reports_catalogue document
  intro error isError mentions
  have listed := mem_hashMessages_of_mentionsHash error (reports.sublist.subset isError) mentions
  simp only [hashMessages, List.mem_cons, List.not_mem_nil, or_false] at listed
  rcases listed with rfl | rfl | rfl
  · apply @message_not_mem_errors document .replay _ (.present "replay" "hash_projection") isReplay
      _ _ isError
    · exact List.mem_append_left _ (List.mem_map_of_mem (by decide))
    · exact Field.ne_none_of (by simp [Field.IsContentHash]) isContentHash
  · apply @message_not_mem_errors document .replay _ (.contentHash "replay" "hash_projection")
      isReplay _ _ isError
    · exact List.mem_append_right _ (by simp [Clause.replayFields])
    · exact isContentHash
  · obtain ⟨other, otherKey, isOther, notHash⟩ :=
      (reports.message_mem_iff nodup_catalogue (List.mem_append_right _ List.mem_cons_self)).mp
        isError
    obtain ⟨rfl, rfl⟩ := Sections.hasIdentity_unique isOther hasIdentity
    exact notHash isHash

/-- The ways to decide conformance agree: a document passes exactly when all
four predicates hold; a valid identity leaves no error that mentions the hash;
where the checked sections are read as records, passing is having no error; and
so only a checked section that is no object fails a document without an error. -/
theorem verify_coherent (document : Value) :
    ((verify document).passed = true ↔
        (verify document).schemaValid = true ∧ (verify document).entropyValid = true ∧
          (verify document).replayIdentityValid = true ∧
          (verify document).deterministicProjection = true) ∧
      ((verify document).replayIdentityValid = true →
        ∀ error ∈ (verify document).errors, ¬ MentionsHash error) ∧
      ((∀ name ∈ checkedSections, ¬ IsNonRecord document name) →
        ((verify document).passed = true ↔ (verify document).errors = [])) ∧
      ((verify document).passed = false → (verify document).errors = [] →
        ∃ name ∈ checkedSections, IsNonRecord document name) := by
  have noMention : (verify document).replayIdentityValid = true →
      ∀ error ∈ (verify document).errors, ¬ MentionsHash error := by
    rw [replayIdentityValid_verify]
    exact not_mentionsHash_of_identity_isValid
  refine ⟨?_, noMention, ?_, ?_⟩
  · rw [passed_iff, schemaValid_iff]
    constructor
    · rintro ⟨entropyValid, identityValid, deterministic, noErrors⟩
      refine ⟨?_, entropyValid, identityValid, deterministic⟩
      simp [noErrors]
    · rintro ⟨schemaValid, entropyValid, identityValid, deterministic⟩
      refine ⟨entropyValid, identityValid, deterministic, ?_⟩
      apply List.eq_nil_iff_forall_not_mem.mpr
      intro error isError
      exact noMention identityValid error isError (schemaValid error isError)
  · intro records
    rw [passed_iff_errors_eq_nil]
    constructor
    · rintro ⟨noErrors, _⟩
      exact noErrors
    · intro noErrors
      exact ⟨noErrors, fun name isChecked => exists_hasSection_iff.mpr (records name isChecked)⟩
  · intro failed noErrors
    by_contra allRecords
    have passed : (verify document).passed = true := by
      apply (passed_iff_errors_eq_nil document).mpr
      refine ⟨noErrors, fun name isChecked => exists_hasSection_iff.mpr ?_⟩
      intro isNonRecord
      exact allRecords ⟨name, isChecked, isNonRecord⟩
    rw [passed] at failed
    contradiction

/-- Each part of the coherence applies: to a conformant document, and to one in
which every section is null. -/
theorem verify_coherent_instances :
    let sectionless : Value :=
      .object [("@kux", .string "v1"), ("@status", .string "canonical"), ("source", .null),
        ("projection", .null), ("replay", .null), ("proof_surface", .null)]
    (∀ error ∈ (verify leastDocument).errors, ¬ MentionsHash error) ∧
      ((verify leastDocument).passed = true ↔ (verify leastDocument).errors = []) ∧
      ∃ name ∈ checkedSections, IsNonRecord sectionless name := by
  intro sectionless
  obtain ⟨_, noMention, passedIff, _⟩ := verify_coherent leastDocument
  obtain ⟨_, _, _, nonRecord⟩ := verify_coherent sectionless
  obtain ⟨_, isValid, _⟩ := (passed_iff _).mp passed_leastDocument
  refine ⟨noMention isValid, passedIff ?_, nonRecord (by decide) (by decide)⟩
  intro name isChecked
  apply exists_hasSection_iff.mp
  simp only [checkedSections, List.mem_cons, List.not_mem_nil, or_false] at isChecked
  rcases isChecked with rfl | rfl | rfl
  · exact ⟨_, Or.inl rfl⟩
  · exact ⟨_, Or.inl rfl⟩
  · exact ⟨_, Or.inl rfl⟩

end Provenance
