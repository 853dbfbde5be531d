import Mathlib
import Provenance.Audit
import Provenance.Proofs.Document.Catalogue

/-!
# The scan reports the catalogue

Each rule of the scan decides one clause of the catalogue, so what a section
reports is what it breaks, whatever else it breaks.  The errors of a document
are the messages of the catalogue whose conditions it breaks, in the order of
the catalogue (`reports_catalogue`): no error hides another one, and none is
reported twice.
-/

namespace Provenance

open Json

namespace Rule

/-- A rule decides a clause and reports its message. -/
def Decides (rule : Rule) (clause : Clause) : Prop :=
  rule.finding.message = clause.message ∧ ∀ record, rule.holds record = true ↔ clause.Kept record

/-- A key must be present. -/
def present (path key : String) : Rule where
  finding := .missing path key
  holds record := record.contains key

/-- The messages of the rules that a record breaks. -/
def messages (rules : List Rule) (record : Record) : List String :=
  (rules.filter fun rule => !rule.holds record).map fun rule => rule.finding.message

theorem messages_append (rules others : List Rule) (record : Record) :
    messages (rules ++ others) record = messages rules record ++ messages others record := by
  rw [messages, List.filter_append, List.map_append, ← messages, ← messages]

/-- Rules that decide clauses report those that are broken. -/
theorem reports_messages {rules : List Rule} {clauses : List Clause}
    (decides : List.Forall₂ Decides rules clauses) {document : Value} {record : Record}
    {requirementOf : Clause → Requirement}
    (sameMessage : ∀ clause, (requirementOf clause).message = clause.message)
    (isBroken : ∀ clause, (requirementOf clause).IsBroken document ↔ ¬ clause.Kept record) :
    Reports document (clauses.map requirementOf) (messages rules record) := by
  induction decides with
  | nil => exact .nil
  | @cons rule clause rules clauses decided _ ih =>
      rcases decided with ⟨message, holds⟩
      rw [List.map_cons]
      cases kept : rule.holds record with
      | true =>
          rw [messages, List.filter_cons_of_neg (by simp [kept]), ← messages]
          exact .kept (fun broken => (isBroken clause).mp broken ((holds record).mp kept)) ih
      | false =>
          rw [messages, List.filter_cons_of_pos (by simp [kept]), List.map_cons, ← messages,
            message, ← sameMessage]
          apply Reports.broken _ ih
          rw [isBroken, ← holds, kept]
          exact Bool.false_ne_true

theorem present_decides (path key : String) : (present path key).Decides (.present path key) :=
  ⟨rfl, fun _ => Option.isSome_iff_ne_none⟩

theorem map_present_decides (path : String) (keys : List String) :
    List.Forall₂ Decides (keys.map (present path)) (keys.map (Clause.present path)) := by
  induction keys with
  | nil => exact .nil
  | cons key keys ih => exact .cons (present_decides path key) ih

theorem hashRule_decides (which : Section) (key : String) :
    (which.hashRule key).Decides (.contentHash which.key key) :=
  ⟨rfl, fun _ => Field.isContentHash_iff⟩

theorem trueRule_decides (which : Section) (key : String) :
    (which.trueRule key).Decides (.isTrue which.key key) :=
  ⟨rfl, fun _ => Field.isTrue_iff⟩

theorem stylingRule_decides (flag : String) :
    (Section.stylingRule flag).Decides (.stylingFlag flag) := by
  constructor
  · change "projection" ++ "." ++ ("styling." ++ flag) ++ " must be true" = _
    rw [← String.append_assoc]
    rfl
  · intro record
    change (!Field.isRecord (record.get? "styling") || _) = true ↔ _
    rw [Bool.or_eq_true, Bool.not_eq_true', ← Bool.not_eq_true, Field.isRecord_iff,
      Field.hasTrue_iff, ← imp_iff_not_or]
    constructor
    · intro flagged styling isStyling
      obtain ⟨members, isMembers, holds⟩ := flagged ⟨styling, isStyling⟩
      rw [isStyling] at isMembers
      obtain rfl := Value.object.inj (Option.some.inj isMembers)
      exact holds
    · rintro allFlagged ⟨styling, isStyling⟩
      exact ⟨styling, isStyling, allFlagged styling isStyling⟩

theorem animationRule_decides (flag : String) :
    (Section.animationRule flag).Decides (.animationFlag flag) := by
  constructor
  · change "projection" ++ "." ++ ("animation." ++ flag) ++ " must be false when provided" = _
    rw [← String.append_assoc]
    rfl
  · intro record
    change Field.isUnsetOrFalse ((record.get? "animation").bind (·.get? flag)) = true ↔ _
    rw [Field.isUnsetOrFalse_iff]
    constructor
    · intro unset animation isAnimation
      rwa [isAnimation] at unset
    · intro allUnset
      cases found : record.get? "animation" with
      | none => exact Or.inl rfl
      | some value =>
          cases value with
          | object animation => exact allUnset animation found
          | _ => exact Or.inl rfl

theorem rootRules_decide :
    List.Forall₂ Decides (rootRules ++ (Vocabulary.names Section).map (present "root"))
      Clause.root := by
  apply List.Forall₂.cons ⟨rfl, fun _ => Field.isText_iff "v1"⟩
  apply List.Forall₂.cons ⟨rfl, fun _ => Field.isText_iff "canonical"⟩
  exact map_present_decides "root" _

end Rule

namespace Section

/-- The rules of a section with those for its required keys in front. -/
def allRules (which : Section) : List Rule :=
  which.requiredKeys.map (Rule.present which.key) ++ which.rules

/-- The clauses of a section. -/
def clauses : Section → List Clause
  | source => Clause.source
  | projection => Clause.projection
  | replay => Clause.replay
  | proofSurface => Clause.proofSurface

theorem sourceRules_decide : List.Forall₂ Rule.Decides sourceRules Clause.sourceFields := by
  apply List.Forall₂.cons (Rule.hashRule_decides _ _)
  apply List.Forall₂.cons (Rule.hashRule_decides _ _)
  apply List.Forall₂.cons ⟨rfl, fun _ => Field.isCanonicalEntropy_iff⟩
  apply List.Forall₂.cons ⟨rfl, fun _ => Field.isUniqueList_iff⟩
  apply List.Forall₂.cons ⟨rfl, fun _ => Field.isInvariantListIfUnique_iff⟩
  exact .cons ⟨rfl, fun _ => Field.isNonnegative_iff⟩ .nil

theorem projectionRules_decide :
    List.Forall₂ Rule.Decides projectionRules Clause.projectionFields := by
  apply List.Forall₂.cons ⟨rfl, fun _ => Field.isNamed_iff Mode⟩
  apply List.Forall₂.cons ⟨rfl, fun _ => Field.isText_iff _⟩
  apply List.Forall₂.cons ⟨rfl, fun _ => Field.isRecord_iff⟩
  apply List.Forall₂.cons (Rule.stylingRule_decides _)
  apply List.Forall₂.cons (Rule.stylingRule_decides _)
  apply List.Forall₂.cons (Rule.animationRule_decides _)
  exact .cons (Rule.animationRule_decides _) .nil

theorem replayRules_decide : List.Forall₂ Rule.Decides replayRules Clause.replayFields := by
  apply List.Forall₂.cons (Rule.trueRule_decides _ _)
  apply List.Forall₂.cons (Rule.trueRule_decides _ _)
  apply List.Forall₂.cons (Rule.hashRule_decides _ _)
  exact .cons (Rule.hashRule_decides _ _) .nil

theorem allRules_decide (which : Section) :
    List.Forall₂ Rule.Decides which.allRules which.clauses := by
  cases which with
  | source => exact List.rel_append (Rule.map_present_decides _ _) sourceRules_decide
  | projection => exact List.rel_append (Rule.map_present_decides _ _) projectionRules_decide
  | replay => exact List.rel_append (Rule.map_present_decides _ _) replayRules_decide
  | proofSurface => exact List.rel_append (Rule.map_present_decides _ _) .nil

end Section

/-! ## The errors of a document -/

namespace Findings

theorem errors_check (findings : Findings) (rules : List Rule) (record : Record) :
    (findings.check rules record).errors = findings.errors ++ Rule.messages rules record := by
  rw [errors, entries_check, List.map_append, List.map_map, ← errors]
  rfl

theorem errors_requireKeys (findings : Findings) (record : Record) (keys : List String)
    (path : String) :
    (findings.requireKeys record keys path).errors =
      findings.errors ++ Rule.messages (keys.map (Rule.present path)) record := by
  rw [errors, entries_requireKeys, List.map_append, List.map_map, ← errors, Rule.messages,
    List.filter_map, List.map_map]
  rfl

/-- Records that satisfy the same rules get the same findings. -/
theorem check_congr {record other : Record} {rules : List Rule}
    (agree : ∀ rule ∈ rules, rule.holds record = rule.holds other) (findings : Findings) :
    findings.check rules record = findings.check rules other := by
  unfold check
  apply List.foldl_ext
  intro findings rule isRule
  rw [agree rule isRule]

/-- Records that have the same keys lack the same ones. -/
theorem requireKeys_congr {record other : Record} {keys : List String}
    (agree : ∀ key ∈ keys, record.contains key = other.contains key) (path : String)
    (findings : Findings) :
    findings.requireKeys record keys path = findings.requireKeys other keys path := by
  unfold requireKeys
  apply List.foldl_ext
  intro findings key isKey
  rw [agree key isKey]

end Findings

namespace Section

/-- A section reports the messages of the rules that its record breaks. -/
theorem errors_check (which : Section) (record : Record) (findings : Findings) :
    (which.check record findings).errors =
      findings.errors ++ Rule.messages which.allRules record := by
  rw [check, Findings.errors_check, Findings.errors_requireKeys, List.append_assoc,
    ← Rule.messages_append, ← allRules]

/-- A record gets the messages of the clauses that it breaks, in order. -/
theorem reports_record (which : Section) (record : Record) :
    Reports (.object record) (which.clauses.map .ofRoot)
      (Rule.messages which.allRules record) :=
  Rule.reports_messages which.allRules_decide (fun _ => rfl) (fun _ => Iff.rfl)

/-- The clauses of a section have different messages. -/
theorem nodup_messages (which : Section) :
    ((which.clauses.map Requirement.ofRoot).map Requirement.message).Nodup := by
  cases which <;> decide

/-- The message of a clause is reported exactly if the clause is broken. -/
theorem message_mem_iff {which : Section} {clause : Clause} (isClause : clause ∈ which.clauses)
    (record : Record) :
    clause.message ∈ Rule.messages which.allRules record ↔ ¬ clause.Kept record :=
  (which.reports_record record).message_mem_iff which.nodup_messages (List.mem_map_of_mem isClause)

/-- Every message is that of a clause. -/
theorem exists_clause_of_mem {which : Section} {record : Record} {message : String}
    (reported : message ∈ Rule.messages which.allRules record) :
    ∃ clause ∈ which.clauses, clause.message = message := by
  obtain ⟨_, isRequired, sameMessage, _⟩ :=
    ((which.reports_record record).mem_iff message).mp reported
  obtain ⟨clause, isClause, rfl⟩ := List.mem_map.mp isRequired
  exact ⟨clause, isClause, sameMessage⟩

end Section

namespace Sections

theorem read_eq_some_iff {root : Record} {which : Section} {record : Record} :
    read root which = some record ↔
      root.get? which.key = some (.object record) ∨
        root.get? which.key = none ∧ record = [] := by
  unfold read
  split
  · rename_i absent
    simp [absent, eq_comm]
  · rename_i value found
    simp [found]

theorem get_ofDocument (document : Value) (which : Section) :
    (ofDocument document).get which = read (rootOf document) which := by
  cases which <;> rfl

/-- A section is read as a record when the document has it. -/
theorem get_ofDocument_eq_some_iff {document : Value} {which : Section} {record : Record} :
    (ofDocument document).get which = some record ↔ HasSection document which.key record := by
  rw [get_ofDocument, read_eq_some_iff]
  rfl

/-- The messages that a section gives. -/
def messages (sections : Sections) (which : Section) : List String :=
  match sections.get which with
  | some record => Rule.messages which.allRules record
  | none => []

theorem errors_checkSection (sections : Sections) (findings : Findings) (which : Section) :
    (sections.checkSection findings which).errors = findings.errors ++ sections.messages which := by
  rw [checkSection, messages]
  cases sections.get which with
  | none => rw [List.append_nil]
  | some record => exact which.errors_check record findings

theorem reports_messages (document : Value) (which : Section) :
    Reports document (which.clauses.map (.ofSection which.key))
      ((ofDocument document).messages which) := by
  unfold messages
  split
  · rename_i record isRead
    apply Rule.reports_messages which.allRules_decide (fun _ => rfl)
    intro clause
    constructor
    · rintro ⟨other, isSection, notKept⟩
      rw [get_ofDocument_eq_some_iff.mpr isSection] at isRead
      rwa [← Option.some.inj isRead]
    · intro notKept
      exact ⟨record, get_ofDocument_eq_some_iff.mp isRead, notKept⟩
  · rename_i notRead
    apply Reports.of_kept
    intro requirement member
    obtain ⟨clause, _, rfl⟩ := List.mem_map.mp member
    rintro ⟨record, isSection, _⟩
    rw [get_ofDocument_eq_some_iff.mpr isSection] at notRead
    contradiction

theorem projectionKey?_eq_some_iff {sections : Sections} {key : ProjectionKey} :
    sections.projectionKey? = some key ↔
      ∃ source projection hash, sections.source = some source ∧
        sections.projection = some projection ∧
        source.get? "collapse_result_hash" = some hash ∧
        ProjectionKey.ofProjection? hash projection = some key := by
  simp only [projectionKey?, Option.bind_eq_bind, Option.bind_eq_some_iff]
  constructor
  · rintro ⟨source, hasSource, projection, hasProjection, hash, hasHash, isKey⟩
    exact ⟨source, projection, hash, hasSource, hasProjection, hasHash, isKey⟩
  · rintro ⟨source, projection, hash, hasSource, hasProjection, hasHash, isKey⟩
    exact ⟨source, hasSource, projection, hasProjection, hash, hasHash, isKey⟩

/-- An identity is checked with a replay and a key when the document has them. -/
theorem hasIdentity_iff {document : Value} {replay : Record} {key : ProjectionKey} :
    HasIdentity document replay key ↔
      (ofDocument document).replay = some replay ∧
        (ofDocument document).projectionKey? = some key := by
  have isSection (which : Section) (record : Record) :=
    @get_ofDocument_eq_some_iff document which record
  rw [projectionKey?_eq_some_iff]
  constructor
  · rintro ⟨source, projection, hash, hasSource, hasProjection, hasReplay, hasHash, isKey⟩
    exact ⟨(isSection .replay _).mpr hasReplay, source, projection, hash,
      (isSection .source _).mpr hasSource, (isSection .projection _).mpr hasProjection,
      hasHash, isKey⟩
  · rintro ⟨hasReplay, source, projection, hash, hasSource, hasProjection, hasHash, isKey⟩
    exact ⟨source, projection, hash, (isSection .source _).mp hasSource,
      (isSection .projection _).mp hasProjection, (isSection .replay _).mp hasReplay,
      hasHash, isKey⟩

/-- There is one replay and one key at most. -/
theorem hasIdentity_unique {document : Value} {replay other : Record} {key otherKey : ProjectionKey}
    (hasIdentity : HasIdentity document replay key)
    (hasOther : HasIdentity document other otherKey) : replay = other ∧ key = otherKey := by
  obtain ⟨isReplay, isKey⟩ := hasIdentity_iff.mp hasIdentity
  obtain ⟨isOther, isOtherKey⟩ := hasIdentity_iff.mp hasOther
  exact ⟨Option.some.inj (isReplay.symm.trans isOther),
    Option.some.inj (isKey.symm.trans isOtherKey)⟩

/-- The outcome of the identity check of a replay with a key. -/
theorem identity_eq {sections : Sections} {replay : Record} {key : ProjectionKey}
    (hasReplay : sections.replay = some replay) (isKey : sections.projectionKey? = some key) :
    sections.identity =
      if (replay.get? "hash_projection").bind Value.string? = some key.hash then
        .matched key.hash
      else .mismatched key.hash ((replay.get? "hash_projection").bind Value.string?) := by
  simp only [identity, declaredHash?, hasReplay, isKey, Option.bind_some]

/-- Without a replay or without a key there is nothing to check. -/
theorem identity_eq_undetermined {sections : Sections}
    (incomplete : sections.replay = none ∨ sections.projectionKey? = none) :
    sections.identity = .undetermined := by
  rcases incomplete with noReplay | noKey
  · rw [identity, noReplay]
  · rw [identity, noKey]
    cases sections.replay <;> rfl

/-- The outcome of the identity check of a document that has an identity. -/
theorem identity_of_hasIdentity {document : Value} {replay : Record} {key : ProjectionKey}
    (hasIdentity : HasIdentity document replay key) :
    (ofDocument document).identity =
      if (replay.get? "hash_projection").bind Value.string? = some key.hash then
        .matched key.hash
      else .mismatched key.hash ((replay.get? "hash_projection").bind Value.string?) := by
  obtain ⟨hasReplay, isKey⟩ := hasIdentity_iff.mp hasIdentity
  exact identity_eq hasReplay isKey

/-- A document without an identity has nothing to check. -/
theorem identity_of_not_hasIdentity {document : Value}
    (noIdentity : ∀ replay key, ¬ HasIdentity document replay key) :
    (ofDocument document).identity = .undetermined := by
  unfold identity
  split
  · rename_i replay key hasReplay isKey
    exact absurd (hasIdentity_iff.mpr ⟨hasReplay, isKey⟩) (noIdentity replay key)
  · rfl

/-- The messages that the identity check gives. -/
def identityMessages (sections : Sections) : List String :=
  match sections.identity with
  | .mismatched _ _ => [Finding.identityMismatch.message]
  | _ => []

theorem errors_checkIdentity (sections : Sections) (findings : Findings) :
    (sections.checkIdentity findings).2.errors = findings.errors ++ sections.identityMessages := by
  rw [checkIdentity, identityMessages]
  cases sections.identity with
  | mismatched expected declared =>
      rw [Findings.errors, Findings.entries_push, List.map_append, ← Findings.errors]
      rfl
  | matched hash => rw [List.append_nil]
  | undetermined => rw [List.append_nil]

/-- The declared text is the computed hash when the field is that text. -/
theorem declared_eq_iff {field : Option Value} {hash : String} :
    field.bind Value.string? = some hash ↔ Field.IsText hash field := by
  rw [← Field.isText_iff, Field.isText, beq_iff_eq]

/-- The identity check reports its requirement when it is broken. -/
theorem reports_identityMessages (document : Value) :
    Reports document [.identity] (ofDocument document).identityMessages := by
  by_cases isBroken : Requirement.identity.IsBroken document
  · have mismatched : (ofDocument document).identityMessages = [Requirement.identity.message] := by
      rcases isBroken with ⟨replay, key, hasIdentity, notHash⟩
      rw [identityMessages, identity_of_hasIdentity hasIdentity,
        if_neg (mt declared_eq_iff.mp notHash)]
      rfl
    rw [mismatched]
    exact .broken isBroken .nil
  · have silent : (ofDocument document).identityMessages = [] := by
      rw [identityMessages]
      by_cases hasIdentity : ∃ replay key, HasIdentity document replay key
      · rcases hasIdentity with ⟨replay, key, hasIdentity⟩
        have isHash : Field.IsText key.hash (replay.get? "hash_projection") := by
          by_contra notHash
          exact isBroken ⟨replay, key, hasIdentity, notHash⟩
        rw [identity_of_hasIdentity hasIdentity, if_pos (declared_eq_iff.mpr isHash)]
      · rw [identity_of_not_hasIdentity fun replay key isIdentity =>
          hasIdentity ⟨replay, key, isIdentity⟩]
    rw [silent]
    exact .kept isBroken .nil

theorem errors_scan (document : Value) :
    (scan document).errors =
      Rule.messages (rootRules ++ (Vocabulary.names Section).map (Rule.present "root"))
          (rootOf document) ++
        (ofDocument document).messages .source ++ (ofDocument document).messages .projection ++
        (ofDocument document).messages .replay ++
        (ofDocument document).messages .proofSurface := by
  simp only [scan, Vocabulary.all, List.foldl_cons, List.foldl_nil, errors_checkSection,
    Findings.errors_requireKeys, Findings.errors_check, Rule.messages_append]
  rfl

end Sections

theorem errors_verify (document : Value) :
    (verify document).errors =
      (Sections.scan document).errors ++ (Sections.ofDocument document).identityMessages :=
  Sections.errors_checkIdentity _ _

/-- The errors of a document are the messages of what it breaks, in order. -/
theorem reports_catalogue (document : Value) :
    Reports document Requirement.catalogue (verify document).errors := by
  rw [errors_verify, Sections.errors_scan]
  have ofRoot := @Rule.reports_messages _ _ Rule.rootRules_decide document (rootOf document)
    .ofRoot (fun _ => rfl) (fun _ => Iff.rfl)
  exact ((((ofRoot.append (Sections.reports_messages document .source)).append
    (Sections.reports_messages document .projection)).append
    (Sections.reports_messages document .replay)).append
    (Sections.reports_messages document .proofSurface)).append
    (Sections.reports_identityMessages document)

/-- The clauses of every section are required. -/
theorem mem_catalogue (which : Section) {clause : Clause} (member : clause ∈ which.clauses) :
    Requirement.ofSection which.key clause ∈ Requirement.catalogue := by
  have required := @List.mem_map_of_mem _ _ _ _ (Requirement.ofSection which.key) member
  simp only [Requirement.catalogue, List.mem_append]
  cases which with
  | source => exact Or.inl (Or.inl (Or.inl (Or.inl (Or.inr required))))
  | projection => exact Or.inl (Or.inl (Or.inl (Or.inr required)))
  | replay => exact Or.inl (Or.inl (Or.inr required))
  | proofSurface => exact Or.inl (Or.inr required)

/-- The messages of the catalogue all differ. -/
theorem nodup_catalogue : (Requirement.catalogue.map Requirement.message).Nodup := by
  decide

/-- The errors of a document stand in the order of the catalogue, none of them
twice, and each message is an error exactly when the document breaks its own
requirement, whatever else it breaks. -/
theorem verify_errors (document : Value) :
    (Requirement.catalogue.map Requirement.message).Nodup ∧
      (verify document).errors.Sublist (Requirement.catalogue.map Requirement.message) ∧
      (verify document).errors.Nodup ∧
      ∀ requirement ∈ Requirement.catalogue,
        requirement.message ∈ (verify document).errors ↔ requirement.IsBroken document := by
  have reports := reports_catalogue document
  exact ⟨nodup_catalogue, reports.sublist, nodup_catalogue.sublist reports.sublist,
    fun requirement member => reports.message_mem_iff nodup_catalogue member⟩

/-- A document that is no object lacks the keys of its sections too. -/
theorem verify_errors_null :
    let requirement := Requirement.ofSection "source" (.present "source" "entropy")
    requirement ∈ Requirement.catalogue ∧ requirement.message ∈ (verify .null).errors := by
  intro requirement
  have member : requirement ∈ Requirement.catalogue :=
    mem_catalogue .source (List.mem_append_left _ (List.mem_map_of_mem (by decide)))
  obtain ⟨_, _, _, reported⟩ := verify_errors .null
  refine ⟨member, (reported requirement member).mpr ⟨[], Or.inr ⟨rfl, rfl⟩, ?_⟩⟩
  intro isPresent
  exact isPresent rfl

/-! ## The predicates of a verdict -/

namespace Sections

theorem entropyValid_iff (document : Value) :
    (ofDocument document).entropyValid = true ↔
      ∃ source, HasSection document "source" source ∧
        Field.IsCanonicalEntropy (source.get? "entropy") := by
  have isSection (record : Record) := @get_ofDocument_eq_some_iff document .source record
  simp only [entropyValid, Option.any_eq_true, Field.isCanonicalEntropy_iff]
  exact exists_congr fun source => and_congr_left' (isSection source)

theorem deterministicProjection_iff (document : Value) :
    (ofDocument document).deterministicProjection = true ↔
      (∃ projection, HasSection document "projection" projection ∧
        Field.IsText "deterministic" (projection.get? "layout")) ∧
      ∃ replay, HasSection document "replay" replay ∧
        Field.IsTrue (replay.get? "render_deterministic") := by
  have isProjection (record : Record) := @get_ofDocument_eq_some_iff document .projection record
  have isReplay (record : Record) := @get_ofDocument_eq_some_iff document .replay record
  simp only [deterministicProjection, Bool.and_eq_true, Option.any_eq_true, Field.isText_iff,
    Field.isTrue_iff]
  exact and_congr (exists_congr fun projection => and_congr_left' (isProjection projection))
    (exists_congr fun replay => and_congr_left' (isReplay replay))

theorem identity_isValid_iff (document : Value) :
    (ofDocument document).identity.isValid = true ↔
      ∃ replay key, HasIdentity document replay key ∧
        Field.IsText key.hash (replay.get? "hash_projection") := by
  constructor
  · intro isValid
    by_cases hasIdentity : ∃ replay key, HasIdentity document replay key
    · rcases hasIdentity with ⟨replay, key, hasIdentity⟩
      rw [identity_of_hasIdentity hasIdentity] at isValid
      split at isValid
      · rename_i declared
        exact ⟨replay, key, hasIdentity, declared_eq_iff.mp declared⟩
      · contradiction
    · rw [identity_of_not_hasIdentity fun replay key isIdentity =>
        hasIdentity ⟨replay, key, isIdentity⟩] at isValid
      contradiction
  · rintro ⟨replay, key, hasIdentity, isText⟩
    rw [identity_of_hasIdentity hasIdentity, if_pos (declared_eq_iff.mpr isText)]
    rfl

end Sections

end Provenance
