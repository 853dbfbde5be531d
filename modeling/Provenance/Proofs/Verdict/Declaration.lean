import Mathlib
import Provenance.Command.Run
import Provenance.Proofs.Json.Record
import Provenance.Proofs.Verdict.Passing

/-!
# Filling in the declared hash

A document whose sections are objects and that has the parts of a projection key
can be given the hash that is printed for it.  That repairs the identity and
nothing else: of the errors, exactly those about the declared hash go
(`errors_declared`), and the hash that is printed stays the same, so nothing
changes a second time.
-/

namespace Provenance

open Json

/-- Set the declared projection hash of a document whose root and replay are
objects. -/
def declareHash (hash : String) : Value → Value
  | .object root =>
      match Record.get? root "replay" with
      | some (.object replay) =>
          .object (Record.insert "replay"
            (.object (Record.insert "hash_projection" (.string hash) replay)) root)
      | _ => .object root
  | document => document

/-- Declare the hash that is printed for a document. -/
def fillHash (document : Value) : Value :=
  match Command.hashReport? document with
  | some report => declareHash report.hash document
  | none => document

section Declared

variable {root source projection replay : Record} {resultHash : Value} {key : ProjectionKey}

/-- The document with a hash in its replay. -/
def declared (root replay : Record) (hash : String) : Value :=
  .object (Record.insert "replay"
    (.object (Record.insert "hash_projection" (.string hash) replay)) root)

/-- A section that is an object is read as its members only. -/
theorem hasSection_iff_of_get? {document : Value} {name : String} {members record : Record}
    (found : (rootOf document).get? name = some (.object members)) :
    HasSection document name record ↔ record = members := by
  constructor
  · exact fun isSection => isSection.unique (.inl found)
  · rintro rfl
    exact .inl found

theorem get?_declared_of_ne (hash : String) {name : String} (other : name ≠ "replay") :
    (rootOf (declared root replay hash)).get? name = (rootOf (.object root)).get? name :=
  Record.get?_insert_of_ne other _ root

theorem hasSection_declared_of_ne (hash : String) {name : String} (other : name ≠ "replay")
    {record : Record} :
    HasSection (declared root replay hash) name record ↔
      HasSection (.object root) name record := by
  rw [HasSection, HasSection, get?_declared_of_ne hash other]

theorem get?_declared_replay (hash : String) :
    (rootOf (declared root replay hash)).get? "replay" =
      some (.object (Record.insert "hash_projection" (.string hash) replay)) :=
  Record.get?_insert_self "replay" _ root

/-- The declared document has an identity, and declares its hash. -/
theorem hasIdentity_declared (hasSource : root.get? "source" = some (.object source))
    (hasProjection : root.get? "projection" = some (.object projection))
    (hasHash : source.get? "collapse_result_hash" = some resultHash)
    (isKey : ProjectionKey.ofProjection? resultHash projection = some key) :
    HasIdentity (declared root replay key.hash)
      (Record.insert "hash_projection" (.string key.hash) replay) key := by
  refine ⟨source, projection, resultHash, ?_, ?_, .inl (get?_declared_replay key.hash), hasHash,
    isKey⟩
  · exact (hasSection_declared_of_ne key.hash (by decide)).mpr (.inl hasSource)
  · exact (hasSection_declared_of_ne key.hash (by decide)).mpr (.inl hasProjection)

/-- No clause on the root is touched. -/
theorem root_kept_declared_iff (hasReplay : root.get? "replay" = some (.object replay))
    (hash : String) {clause : Clause} (isClause : clause ∈ Clause.root) :
    clause.Kept (rootOf (declared root replay hash)) ↔ clause.Kept root := by
  have other {name : String} (different : name ≠ "replay") :
      (rootOf (declared root replay hash)).get? name = root.get? name :=
    get?_declared_of_ne hash different
  simp only [Clause.root, List.map_cons, List.map_nil, List.cons_append, List.nil_append,
    List.mem_cons, List.not_mem_nil, or_false] at isClause
  rcases isClause with rfl | rfl | rfl | rfl | rfl | rfl
  · exact iff_of_eq (congrArg (Field.IsText "v1") (other (by decide)))
  · exact iff_of_eq (congrArg (Field.IsText "canonical") (other (by decide)))
  · exact iff_of_eq (congrArg (· ≠ none) (other (by decide)))
  · exact iff_of_eq (congrArg (· ≠ none) (other (by decide)))
  · change (rootOf (declared root replay hash)).get? "replay" ≠ none ↔ root.get? "replay" ≠ none
    rw [get?_declared_replay, hasReplay]
    exact iff_of_true (Option.some_ne_none _) (Option.some_ne_none _)
  · exact iff_of_eq (congrArg (· ≠ none) (other (by decide)))

/-- No clause on the replay is touched but those about the declared hash. -/
theorem replay_kept_insert_iff (hash : String) {clause : Clause}
    (isClause : clause ∈ Clause.replay) (different : clause.message ∉ hashMessages) :
    clause.Kept (Record.insert "hash_projection" (.string hash) replay) ↔ clause.Kept replay := by
  have other {name : String} (different : name ≠ "hash_projection") :
      (Record.insert "hash_projection" (.string hash) replay).get? name = replay.get? name :=
    Record.get?_insert_of_ne different _ replay
  simp only [Clause.replay, Clause.replayFields, List.map_cons, List.map_nil, List.cons_append,
    List.nil_append, List.mem_cons, List.not_mem_nil, or_false] at isClause
  rcases isClause with rfl | rfl | rfl | rfl | rfl | rfl | rfl | rfl
  · exact iff_of_eq (congrArg (· ≠ none) (other (by decide)))
  · exact absurd (by decide) different
  · exact iff_of_eq (congrArg (· ≠ none) (other (by decide)))
  · exact iff_of_eq (congrArg (· ≠ none) (other (by decide)))
  · exact iff_of_eq (congrArg Field.IsTrue (other (by decide)))
  · exact iff_of_eq (congrArg Field.IsTrue (other (by decide)))
  · exact absurd (by decide) different
  · exact iff_of_eq (congrArg Field.IsContentHash (other (by decide)))

/-- What is required of a section that is an object is required of its members. -/
theorem isBroken_ofSection_iff {document : Value} {name : String} {members : Record}
    (found : (rootOf document).get? name = some (.object members)) (clause : Clause) :
    (Requirement.ofSection name clause).IsBroken document ↔ ¬ clause.Kept members := by
  constructor
  · rintro ⟨record, isSection, notKept⟩
    rwa [(hasSection_iff_of_get? found).mp isSection] at notKept
  · intro notKept
    exact ⟨members, .inl found, notKept⟩

/-- Requirements that do not concern the declared hash are broken as before. -/
theorem isBroken_declared_iff_of_not_mem (hasReplay : root.get? "replay" = some (.object replay))
    (hash : String) : ∀ requirement ∈ Requirement.catalogue,
      requirement.message ∉ hashMessages →
        (requirement.IsBroken (declared root replay hash) ↔
          requirement.IsBroken (.object root)) := by
  have ofSection {name : String} (other : name ≠ "replay") (clause : Clause) :
      (Requirement.ofSection name clause).IsBroken (declared root replay hash) ↔
        (Requirement.ofSection name clause).IsBroken (.object root) :=
    exists_congr fun record => and_congr_left' (hasSection_declared_of_ne hash other)
  simp only [Requirement.catalogue, List.forall_mem_append, List.forall_mem_map,
    List.forall_mem_singleton]
  refine ⟨⟨⟨⟨⟨?_, ?_⟩, ?_⟩, ?_⟩, ?_⟩, ?_⟩
  · exact fun clause isClause _ => not_congr (root_kept_declared_iff hasReplay hash isClause)
  · exact fun clause _ _ => ofSection (by decide) clause
  · exact fun clause _ _ => ofSection (by decide) clause
  · intro clause isClause different
    have before : (rootOf (.object root)).get? "replay" = some (.object replay) := hasReplay
    rw [isBroken_ofSection_iff (get?_declared_replay hash), isBroken_ofSection_iff before]
    exact not_congr (replay_kept_insert_iff hash isClause different)
  · exact fun clause _ _ => ofSection (by decide) clause
  · exact fun different => absurd (by decide) different

/-- The identity of the declared document is valid. -/
theorem identity_declared_isValid (hasSource : root.get? "source" = some (.object source))
    (hasProjection : root.get? "projection" = some (.object projection))
    (hasHash : source.get? "collapse_result_hash" = some resultHash)
    (isKey : ProjectionKey.ofProjection? resultHash projection = some key) :
    (Sections.ofDocument (declared root replay key.hash)).identity.isValid = true :=
  (Sections.identity_isValid_iff _).mpr
    ⟨_, key, hasIdentity_declared hasSource hasProjection hasHash isKey,
      Record.get?_insert_self "hash_projection" _ replay⟩

/-- The errors of the declared document are the others of the document, in their
order. -/
theorem errors_declared (hasReplay : root.get? "replay" = some (.object replay))
    {hash : String}
    (isValid : (Sections.ofDocument (declared root replay hash)).identity.isValid = true) :
    (verify (declared root replay hash)).errors =
      (verify (.object root)).errors.filter fun error =>
        !occursIn Verdict.identityMarker error.toList := by
  have reports := reports_catalogue (declared root replay hash)
  apply (reports_catalogue (.object root)).eq_filter reports
  intro requirement isRequired
  have message := isBroken_declared_iff_of_not_mem hasReplay hash requirement isRequired
  have mentions_iff : occursIn Verdict.identityMarker requirement.message.toList = true ↔
      requirement.message ∈ hashMessages := by
    rw [occursIn_iff]
    exact ⟨mem_hashMessages_of_mentionsHash _ (List.mem_map_of_mem isRequired),
      mentionsHash_of_mem_hashMessages _⟩
  rw [Bool.not_eq_true', ← Bool.not_eq_true, mentions_iff]
  constructor
  · intro isBroken
    have isError := (reports.message_mem_iff nodup_catalogue isRequired).mpr isBroken
    have different : requirement.message ∉ hashMessages := fun isHashMessage =>
      not_mentionsHash_of_identity_isValid isValid _ isError
        (mentionsHash_of_mem_hashMessages _ isHashMessage)
    exact ⟨(message different).mp isBroken, different⟩
  · rintro ⟨isBroken, different⟩
    exact (message different).mpr isBroken

/-- The predicates about other sections do not change. -/
theorem predicates_declared (hasReplay : root.get? "replay" = some (.object replay))
    (hash : String) :
    (verify (declared root replay hash)).entropyValid = (verify (.object root)).entropyValid ∧
      (verify (declared root replay hash)).deterministicProjection =
        (verify (.object root)).deterministicProjection := by
  have before : (rootOf (.object root)).get? "replay" = some (.object replay) := hasReplay
  constructor
  · rw [entropyValid_verify, entropyValid_verify, Bool.eq_iff_iff, Sections.entropyValid_iff,
      Sections.entropyValid_iff]
    exact exists_congr fun record => and_congr_left' (hasSection_declared_of_ne hash (by decide))
  · rw [deterministicProjection_verify, deterministicProjection_verify, Bool.eq_iff_iff,
      Sections.deterministicProjection_iff, Sections.deterministicProjection_iff]
    apply and_congr
    · exact exists_congr fun record => and_congr_left' (hasSection_declared_of_ne hash (by decide))
    · simp only [hasSection_iff_of_get? (get?_declared_replay hash),
        hasSection_iff_of_get? before, exists_eq_left]
      rw [Record.get?_insert_of_ne (by decide)]

/-- Declaring the same hash again changes nothing. -/
theorem declared_declared (root replay : Record) (hash : String) :
    declared (Record.insert "replay"
        (.object (Record.insert "hash_projection" (.string hash) replay)) root)
      (Record.insert "hash_projection" (.string hash) replay) hash = declared root replay hash := by
  rw [declared, Record.insert_insert, Record.insert_insert]
  rfl

/-- The report on a document whose sections have the parts of a key. -/
theorem hashReport?_object (hasSource : root.get? "source" = some (.object source))
    (hasProjection : root.get? "projection" = some (.object projection))
    (hasReplay : root.get? "replay" = some (.object replay))
    (hasHash : source.get? "collapse_result_hash" = some resultHash)
    (isKey : ProjectionKey.ofProjection? resultHash projection = some key) :
    ∃ declaredHash, Command.hashReport? (.object root) = some ⟨key.hash, declaredHash⟩ := by
  refine ⟨(replay.get? "hash_projection").bind Value.string?, ?_⟩
  simp only [Command.hashReport?, Value.get?, Value.record?, Option.bind_some, hasSource,
    hasProjection, hasReplay, hasHash, isKey, bind, pure]

/-- Filling in the hash declares the hash of the key. -/
theorem fillHash_object (hasSource : root.get? "source" = some (.object source))
    (hasProjection : root.get? "projection" = some (.object projection))
    (hasReplay : root.get? "replay" = some (.object replay))
    (hasHash : source.get? "collapse_result_hash" = some resultHash)
    (isKey : ProjectionKey.ofProjection? resultHash projection = some key) :
    fillHash (.object root) = declared root replay key.hash := by
  obtain ⟨declaredHash, isReport⟩ :=
    hashReport?_object hasSource hasProjection hasReplay hasHash isKey
  rw [fillHash, isReport]
  dsimp only
  rw [declareHash, hasReplay]
  rfl

end Declared

/-- In a document whose root, source, projection and replay are objects and that
has the parts of a projection key, filling in the printed hash repairs exactly
the identity: the errors are those of the document without the ones about the
declared hash, the predicates about the rest of the document stay, it passes if
they hold, and filling in the hash again changes nothing. -/
theorem verify_fillHash {root source projection replay : Record} {resultHash : Value}
    (hasSource : root.get? "source" = some (.object source))
    (hasProjection : root.get? "projection" = some (.object projection))
    (hasReplay : root.get? "replay" = some (.object replay))
    (hasHash : source.get? "collapse_result_hash" = some resultHash)
    (complete : ProjectionKey.IsComplete projection) :
    let document := Value.object root
    let filled := fillHash document
    (∃ key, ProjectionKey.ofProjection? resultHash projection = some key ∧
        filled = .object (Record.insert "replay"
          (.object (Record.insert "hash_projection" (.string key.hash) replay)) root)) ∧
      (verify filled).replayIdentityValid = true ∧
      (verify filled).errors = ((verify document).errors.filter fun error =>
        !occursIn "hash_projection".toList error.toList) ∧
      (verify filled).schemaValid = (verify document).schemaValid ∧
      (verify filled).entropyValid = (verify document).entropyValid ∧
      (verify filled).deterministicProjection = (verify document).deterministicProjection ∧
      ((verify filled).passed = true ↔
        (verify document).schemaValid = true ∧ (verify document).entropyValid = true ∧
          (verify document).deterministicProjection = true) ∧
      fillHash filled = filled := by
  intro document filled
  obtain ⟨key, isKey⟩ := complete.exists_key resultHash
  have isFilled : filled = declared root replay key.hash :=
    fillHash_object hasSource hasProjection hasReplay hasHash isKey
  have isValid := @identity_declared_isValid _ _ _ replay _ _ hasSource hasProjection hasHash isKey
  have errors := errors_declared hasReplay isValid
  obtain ⟨entropyValid, deterministic⟩ := predicates_declared hasReplay key.hash
  have schemaValid_iff_noErrors : (verify filled).schemaValid = true ↔
      (verify filled).errors = [] := by
    rw [schemaValid_iff, isFilled]
    constructor
    · intro mention
      apply List.eq_nil_iff_forall_not_mem.mpr
      exact fun error isError =>
        not_mentionsHash_of_identity_isValid isValid error isError (mention error isError)
    · intro noErrors error isError
      rw [noErrors] at isError
      contradiction
  have noErrors_iff : (verify filled).errors = [] ↔ (verify document).schemaValid = true := by
    rw [isFilled, errors, List.filter_eq_nil_iff, schemaValid_iff]
    simp only [Bool.not_eq_true', Bool.not_eq_false, occursIn_iff]
    rfl
  have filledIdentity : (verify filled).replayIdentityValid = true := by
    rw [replayIdentityValid_verify, isFilled]
    exact isValid
  refine ⟨⟨key, isKey, isFilled⟩, filledIdentity, ?_, ?_, ?_, ?_, ?_, ?_⟩
  · rw [isFilled]
    exact errors
  · rw [Bool.eq_iff_iff, schemaValid_iff_noErrors, noErrors_iff]
  · rw [isFilled]
    exact entropyValid
  · rw [isFilled]
    exact deterministic
  · rw [passed_iff, noErrors_iff, isFilled, entropyValid, deterministic, ← isFilled]
    constructor
    · rintro ⟨entropy, _, layout, schema⟩
      exact ⟨schema, entropy, layout⟩
    · rintro ⟨schema, entropy, layout⟩
      exact ⟨entropy, filledIdentity, layout, schema⟩
  · have other {name : String} (different : name ≠ "replay") :=
      Record.get?_insert_of_ne different
        (.object (Record.insert "hash_projection" (.string key.hash) replay)) root
    rw [isFilled]
    refine (fillHash_object ((other (by decide)).trans hasSource)
      ((other (by decide)).trans hasProjection) (Record.get?_insert_self "replay" _ root)
      hasHash isKey).trans ?_
    exact declared_declared root replay key.hash

/-- A document without markers, with a layout that is not allowed and with a
declared hash that is no hash. -/
theorem verify_fillHash_defective :
    let source : Record := [("collapse_result_hash", .null)]
    let projection : Record := [("mode", .null), ("layout", .null), ("styling", .null)]
    let replay : Record := [("hash_projection", .bool true)]
    let root : Record :=
      [("source", .object source), ("projection", .object projection), ("replay", .object replay)]
    root.get? "source" = some (.object source) ∧
      root.get? "projection" = some (.object projection) ∧
      root.get? "replay" = some (.object replay) ∧
      source.get? "collapse_result_hash" = some .null ∧ ProjectionKey.IsComplete projection ∧
      (verify (.object root)).replayIdentityValid = false ∧
      (verify (fillHash (.object root))).replayIdentityValid = true ∧
      fillHash (fillHash (.object root)) = fillHash (.object root) := by
  intro source projection replay root
  have complete : ProjectionKey.IsComplete projection := by decide
  obtain ⟨_, identityValid, _, _, _, _, _, again⟩ :=
    @verify_fillHash root source projection replay .null rfl rfl rfl rfl complete
  exact ⟨rfl, rfl, rfl, rfl, complete, by decide +kernel, identityValid, again⟩

end Provenance
