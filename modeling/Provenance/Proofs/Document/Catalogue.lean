import Mathlib
import Provenance.Document.Section
import Provenance.Proofs.Document.Field
import Provenance.Proofs.Document.Identity

/-!
# The catalogue of errors

Everything that can be wrong with a document stands in one list of messages,
each with the condition on the document under which it is an error.  The
conditions are stated on the document itself, without the scan, and each one on
its own.
-/

namespace Provenance

open Json

/-- A message and the condition on a record whose violation it stands for. -/
structure Clause where
  message : String
  Kept : Record → Prop

namespace Clause

/-- A key must be present. -/
def present (path key : String) : Clause where
  message := path ++ "." ++ key ++ ": missing"
  Kept record := record.get? key ≠ none

/-- A field must be a content hash. -/
def contentHash (path key : String) : Clause where
  message := path ++ "." ++ key ++ " must match sha256:[a-f0-9]\x7b64\x7d"
  Kept record := Field.IsContentHash (record.get? key)

/-- A field must be true. -/
def isTrue (path key : String) : Clause where
  message := path ++ "." ++ key ++ " must be true"
  Kept record := Field.IsTrue (record.get? key)

/-- The clauses of the root. -/
def root : List Clause :=
  [{ message := "@kux must equal 'v1'"
     Kept := fun root => Field.IsText "v1" (root.get? "@kux") },
    { message := "@status must equal 'canonical'"
      Kept := fun root => Field.IsText "canonical" (root.get? "@status") }] ++
    ["source", "projection", "replay", "proof_surface"].map (present "root")

/-- The names of the invariants. -/
def invariantNames : List String :=
  ["collapse_only", "field_perception", "compression_law", "unreachable_states"]

/-- The clauses on the fields of the source.  The names of the invariants count
only in a list that is not empty and has no repetition. -/
def sourceFields : List Clause :=
  [contentHash "source" "collapse_result_hash",
    contentHash "source" "collapse_trace_hash",
    { message := "source.entropy must equal 0.21"
      Kept := fun source => Field.IsCanonicalEntropy (source.get? "entropy") },
    { message := "source.invariants must be a non-empty unique list"
      Kept := fun source => Field.IsUniqueList (source.get? "invariants") },
    { message := "source.invariants contains non-canonical values"
      Kept := fun source => Field.IsUniqueList (source.get? "invariants") →
        Field.IsListOf invariantNames (source.get? "invariants") },
    { message := "source.compression_ratio must be a number >= 0"
      Kept := fun source => Field.IsNonnegative (source.get? "compression_ratio") }]

/-- The clauses of the source. -/
def source : List Clause :=
  ["collapse_result_hash", "collapse_trace_hash", "entropy", "invariants",
    "compression_ratio"].map (present "source") ++ sourceFields

/-- The names of the modes. -/
def modeNames : List String :=
  ["svg", "dom", "css", "canvas", "terminal"]

/-- A flag of the styling must be true, if the styling is an object at all. -/
def stylingFlag (flag : String) : Clause where
  message := "projection.styling." ++ flag ++ " must be true"
  Kept projection := ∀ styling : Record, projection.get? "styling" = some (.object styling) →
    Field.IsTrue (styling.get? flag)

/-- A flag of the animation may not be set, if the animation is an object. -/
def animationFlag (flag : String) : Clause where
  message := "projection.animation." ++ flag ++ " must be false when provided"
  Kept projection := ∀ animation : Record,
    projection.get? "animation" = some (.object animation) →
      Field.IsUnsetOrFalse (animation.get? flag)

/-- The clauses on the fields of the projection. -/
def projectionFields : List Clause :=
  [{ message := "projection.mode must be one of svg|dom|css|canvas|terminal"
     Kept := fun projection => Field.IsOneOf modeNames (projection.get? "mode") },
    { message := "projection.layout must equal 'deterministic'"
      Kept := fun projection => Field.IsText "deterministic" (projection.get? "layout") },
    { message := "projection.styling must be an object"
      Kept := fun projection => Field.IsRecord (projection.get? "styling") },
    stylingFlag "pure",
    stylingFlag "no_runtime_injection",
    animationFlag "allowed",
    animationFlag "async"]

/-- The clauses of the projection. -/
def projection : List Clause :=
  ["mode", "layout", "styling"].map (present "projection") ++ projectionFields

/-- The clauses on the fields of the replay. -/
def replayFields : List Clause :=
  [isTrue "replay" "replay_identity_required",
    isTrue "replay" "render_deterministic",
    contentHash "replay" "hash_projection",
    contentHash "replay" "input_hash"]

/-- The clauses of the replay. -/
def replay : List Clause :=
  ["replay_identity_required", "hash_projection", "input_hash",
    "render_deterministic"].map (present "replay") ++ replayFields

/-- The clauses of the proof surface. -/
def proofSurface : List Clause :=
  ["show_entropy", "show_invariants", "show_compression_ratio"].map (present "proof_surface")

end Clause

/-! ## Requirements on a document -/

/-- A message and the condition on a document under which it is an error. -/
structure Requirement where
  message : String
  IsBroken : Value → Prop

/-- The record that a section of a document is read as: its members, or nothing
if the section is absent.  A section that is no object is read as no record. -/
def HasSection (document : Value) (name : String) (record : Record) : Prop :=
  (rootOf document).get? name = some (.object record) ∨
    (rootOf document).get? name = none ∧ record = []

/-- A section is read in one way only. -/
theorem HasSection.unique {document : Value} {name : String} {record other : Record}
    (isSection : HasSection document name record) (isOther : HasSection document name other) :
    record = other := by
  rcases isSection with found | ⟨isAbsent, rfl⟩
  · rcases isOther with otherFound | ⟨isAbsent, _⟩
    · exact Value.object.inj (Option.some.inj (found.symm.trans otherFound))
    · rw [isAbsent] at found
      contradiction
  · rcases isOther with otherFound | ⟨_, rfl⟩
    · rw [isAbsent] at otherFound
      contradiction
    · rfl

/-- A section that is present is read as its members. -/
theorem HasSection.get?_eq {document : Value} {name : String} {record : Record}
    (isSection : HasSection document name record)
    (isPresent : (rootOf document).get? name ≠ none) :
    (rootOf document).get? name = some (.object record) := by
  rcases isSection with found | ⟨isAbsent, _⟩
  · exact found
  · exact absurd isAbsent isPresent

/-- The replay of a document and the projection key that its source and its
projection give: what an identity is checked with. -/
def HasIdentity (document : Value) (replay : Record) (key : ProjectionKey) : Prop :=
  ∃ source projection hash,
    HasSection document "source" source ∧ HasSection document "projection" projection ∧
      HasSection document "replay" replay ∧ source.get? "collapse_result_hash" = some hash ∧
      ProjectionKey.ofProjection? hash projection = some key

namespace Requirement

/-- A clause of the root as a requirement on the document. -/
def ofRoot (clause : Clause) : Requirement where
  message := clause.message
  IsBroken document := ¬ clause.Kept (rootOf document)

/-- A clause of a section as a requirement on the document; nothing is required
of a section that is no object. -/
def ofSection (name : String) (clause : Clause) : Requirement where
  message := clause.message
  IsBroken document := ∃ record, HasSection document name record ∧ ¬ clause.Kept record

/-- The declared projection hash must be the computed one, if there is anything
to compute it from. -/
def identity : Requirement where
  message := "replay.hash_projection does not match deterministic projection hash"
  IsBroken document := ∃ replay key,
    HasIdentity document replay key ∧ ¬ Field.IsText key.hash (replay.get? "hash_projection")

/-- Everything that is required of a document, in the order of the errors. -/
def catalogue : List Requirement :=
  Clause.root.map .ofRoot ++ Clause.source.map (.ofSection "source") ++
    Clause.projection.map (.ofSection "projection") ++
    Clause.replay.map (.ofSection "replay") ++
    Clause.proofSurface.map (.ofSection "proof_surface") ++ [identity]

end Requirement

/-- The messages of the requirements that a document breaks, in order. -/
inductive Reports (document : Value) : List Requirement → List String → Prop where
  | nil : Reports document [] []
  | broken {requirement : Requirement} {requirements : List Requirement} {errors : List String} :
      requirement.IsBroken document → Reports document requirements errors →
      Reports document (requirement :: requirements) (requirement.message :: errors)
  | kept {requirement : Requirement} {requirements : List Requirement} {errors : List String} :
      ¬ requirement.IsBroken document → Reports document requirements errors →
      Reports document (requirement :: requirements) errors

namespace Reports

variable {document : Value} {requirements others : List Requirement} {errors further : List String}

theorem append (first : Reports document requirements errors)
    (second : Reports document others further) :
    Reports document (requirements ++ others) (errors ++ further) := by
  induction first with
  | nil => exact second
  | broken isBroken _ ih => exact .broken isBroken ih
  | kept notBroken _ ih => exact .kept notBroken ih

/-- Requirements none of which is broken give no errors. -/
theorem of_kept (kept : ∀ requirement ∈ requirements, ¬ requirement.IsBroken document) :
    Reports document requirements [] := by
  induction requirements with
  | nil => exact .nil
  | cons requirement requirements ih =>
      exact .kept (kept requirement List.mem_cons_self)
        (ih fun other member => kept other (List.mem_cons_of_mem _ member))

theorem sublist (reports : Reports document requirements errors) :
    errors.Sublist (requirements.map Requirement.message) := by
  induction reports with
  | nil => exact List.Sublist.slnil
  | broken _ _ ih => exact ih.cons_cons _
  | kept _ _ ih => exact ih.cons _

/-- An error is the message of a requirement that is broken. -/
theorem mem_iff (reports : Reports document requirements errors) (error : String) :
    error ∈ errors ↔
      ∃ requirement ∈ requirements,
        requirement.message = error ∧ requirement.IsBroken document := by
  induction reports with
  | nil => simp
  | broken isBroken _ ih => simp [ih, isBroken, eq_comm]
  | kept notBroken _ ih => simp [ih, notBroken]

/-- Among messages that all differ, one is an error exactly when its own
requirement is broken. -/
theorem message_mem_iff (reports : Reports document requirements errors)
    (different : (requirements.map Requirement.message).Nodup) {requirement : Requirement}
    (member : requirement ∈ requirements) :
    requirement.message ∈ errors ↔ requirement.IsBroken document := by
  rw [reports.mem_iff]
  constructor
  · rintro ⟨other, otherMember, sameMessage, isBroken⟩
    rwa [List.inj_on_of_nodup_map different otherMember member sameMessage] at isBroken
  · intro isBroken
    exact ⟨requirement, member, rfl, isBroken⟩

/-- There are no errors exactly when nothing is broken. -/
theorem eq_nil_iff (reports : Reports document requirements errors) :
    errors = [] ↔ ∀ requirement ∈ requirements, ¬ requirement.IsBroken document := by
  simp only [List.eq_nil_iff_forall_not_mem, reports.mem_iff]
  constructor
  · intro noErrors requirement member isBroken
    exact noErrors requirement.message ⟨requirement, member, rfl, isBroken⟩
  · rintro allKept error ⟨requirement, member, _, isBroken⟩
    exact allKept requirement member isBroken

/-- If what is broken in one document is what is broken in another and is kept
by a filter, the errors of the one are the filtered errors of the other. -/
theorem eq_filter {other : Value} {otherErrors : List String} {keep : String → Bool}
    (reports : Reports document requirements errors)
    (otherReports : Reports other requirements otherErrors)
    (broken : ∀ requirement ∈ requirements, requirement.IsBroken other ↔
      requirement.IsBroken document ∧ keep requirement.message = true) :
    otherErrors = errors.filter keep := by
  induction reports generalizing otherErrors with
  | nil =>
      cases otherReports
      rfl
  | @broken requirement requirements errors isBroken _ ih =>
      obtain ⟨first, others⟩ := List.forall_mem_cons.mp broken
      cases otherReports with
      | broken otherBroken otherReports =>
          rw [List.filter_cons_of_pos (first.mp otherBroken).2, ih otherReports others]
      | kept otherKept otherReports =>
          have notKept : ¬ keep requirement.message = true :=
            fun isKept => otherKept (first.mpr ⟨isBroken, isKept⟩)
          rw [List.filter_cons_of_neg notKept, ih otherReports others]
  | @kept requirement requirements errors isKept _ ih =>
      obtain ⟨first, others⟩ := List.forall_mem_cons.mp broken
      cases otherReports with
      | broken otherBroken otherReports => exact absurd (first.mp otherBroken).1 isKept
      | kept otherKept otherReports => exact ih otherReports others

end Reports

end Provenance
