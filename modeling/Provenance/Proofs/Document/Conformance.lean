import Mathlib
import Provenance.Proofs.Document.Scan

/-!
# Conformant documents

What a conformant document looks like, section by section, without reference to
any message.  A section conforms exactly when it keeps the clauses of the
catalogue that are about it; the hash that a replay declares is the one field on
which a section depends on others.
-/

namespace Provenance

open Json

/-- The field is a list, not empty, of different strings out of some. -/
def Field.IsNameList (names : List String) (field : Option Value) : Prop :=
  ∃ chosen : List String, field = some (.array (chosen.map .string)) ∧ chosen ≠ [] ∧
    chosen.Nodup ∧ ∀ name ∈ chosen, name ∈ names

/-- A conformant source. -/
structure SourceConforms (source : Record) : Prop where
  resultHash : Field.IsContentHash (source.get? "collapse_result_hash")
  traceHash : Field.IsContentHash (source.get? "collapse_trace_hash")
  entropy : Field.IsCanonicalEntropy (source.get? "entropy")
  invariants : Field.IsNameList Clause.invariantNames (source.get? "invariants")
  ratio : Field.IsNonnegative (source.get? "compression_ratio")

/-- A conformant styling. -/
structure StylingConforms (styling : Record) : Prop where
  pure : Field.IsTrue (styling.get? "pure")
  noInjection : Field.IsTrue (styling.get? "no_runtime_injection")

/-- A conformant animation. -/
structure AnimationConforms (animation : Record) : Prop where
  notAllowed : Field.IsUnsetOrFalse (animation.get? "allowed")
  notAsync : Field.IsUnsetOrFalse (animation.get? "async")

/-- A conformant projection.  An animation need not be there, and one that is no
object is not looked at. -/
structure ProjectionConforms (projection : Record) : Prop where
  mode : Field.IsOneOf Clause.modeNames (projection.get? "mode")
  layout : Field.IsText "deterministic" (projection.get? "layout")
  styling : ∃ styling, projection.get? "styling" = some (.object styling) ∧
    StylingConforms styling
  animation : ∀ animation, projection.get? "animation" = some (.object animation) →
    AnimationConforms animation

/-- A conformant replay, apart from the hash of the projection. -/
structure ReplayConforms (replay : Record) : Prop where
  identityRequired : Field.IsTrue (replay.get? "replay_identity_required")
  deterministic : Field.IsTrue (replay.get? "render_deterministic")
  inputHash : Field.IsContentHash (replay.get? "input_hash")

/-- The members that a proof surface must have. -/
structure SurfaceConforms (surface : Record) : Prop where
  entropy : surface.get? "show_entropy" ≠ none
  invariants : surface.get? "show_invariants" ≠ none
  ratio : surface.get? "show_compression_ratio" ≠ none

/-- The replay declares the hash that source and projection give. -/
def DeclaresIdentity (source projection replay : Record) : Prop :=
  ∃ hash key, source.get? "collapse_result_hash" = some hash ∧
    ProjectionKey.ofProjection? hash projection = some key ∧
    Field.IsText key.hash (replay.get? "hash_projection")

/-- A conformant document: an object with both markers and four sections, three
of which are conformant objects.  A proof surface that is no object may be
anything. -/
def Conforms (document : Value) : Prop :=
  ∃ root source projection replay : Record, ∃ surface : Value,
    document = .object root ∧
      root.get? "@kux" = some (.string "v1") ∧ root.get? "@status" = some (.string "canonical") ∧
      root.get? "source" = some (.object source) ∧ SourceConforms source ∧
      root.get? "projection" = some (.object projection) ∧ ProjectionConforms projection ∧
      root.get? "replay" = some (.object replay) ∧ ReplayConforms replay ∧
      root.get? "proof_surface" = some surface ∧
      (∀ members, surface = .object members → SurfaceConforms members) ∧
      DeclaresIdentity source projection replay

/-! ## Sections and their clauses -/

theorem Json.Value.same_string_iff {text other : String} :
    Value.Same (.string text) (.string other) ↔ text = other := by
  constructor
  · intro same
    cases same
    rfl
  · rintro rfl
    exact .string text

/-- A list without repetition whose items are names is a list of names without
repetition. -/
theorem Field.isNameList_iff {names : List String} {field : Option Value} :
    IsNameList names field ↔ IsUniqueList field ∧ IsListOf names field := by
  constructor
  · rintro ⟨chosen, rfl, notEmpty, different, areNames⟩
    constructor
    · refine ⟨_, rfl, by simpa using notEmpty, ?_⟩
      rw [List.pairwise_map]
      exact different.imp fun differ same => differ (Value.same_string_iff.mp same)
    · refine ⟨_, rfl, ?_⟩
      intro item member
      obtain ⟨name, isChosen, rfl⟩ := List.mem_map.mp member
      exact ⟨name, areNames name isChosen, rfl⟩
  · rintro ⟨⟨items, rfl, notEmpty, different⟩, others, isField, areNames⟩
    obtain rfl := Value.array.inj (Option.some.inj isField)
    have spelled : ∃ chosen : List String, (∀ name ∈ chosen, name ∈ names) ∧
        chosen.map Value.string = items := by
      clear isField notEmpty different
      induction items with
      | nil => exact ⟨[], by simp, rfl⟩
      | cons item items ih =>
          obtain ⟨name, isName, rfl⟩ := areNames item List.mem_cons_self
          obtain ⟨chosen, chosenNames, rfl⟩ :=
            ih fun other member => areNames other (List.mem_cons_of_mem _ member)
          exact ⟨name :: chosen, List.forall_mem_cons.mpr ⟨isName, chosenNames⟩, rfl⟩
    rcases spelled with ⟨chosen, chosenNames, rfl⟩
    refine ⟨chosen, rfl, by simpa using notEmpty, ?_, chosenNames⟩
    rw [List.pairwise_map] at different
    exact different.imp fun differ same => differ (Value.same_string_iff.mpr same)

/-- A field is present if it meets a condition that an absent one does not. -/
theorem Field.ne_none_of {condition : Option Value → Prop} {field : Option Value}
    (notAbsent : ¬ condition none) (meets : condition field) : field ≠ none := by
  rintro rfl
  exact notAbsent meets

section Kept

variable {root source projection replay surface : Record}

theorem root_kept_iff :
    (∀ clause ∈ Clause.root, clause.Kept root) ↔
      (Field.IsText "v1" (root.get? "@kux") ∧ Field.IsText "canonical" (root.get? "@status")) ∧
        root.get? "source" ≠ none ∧ root.get? "projection" ≠ none ∧
        root.get? "replay" ≠ none ∧ root.get? "proof_surface" ≠ none := by
  simp only [Clause.root, Clause.present, List.map_cons, List.map_nil, List.forall_mem_append,
    List.forall_mem_cons, List.not_mem_nil, IsEmpty.forall_iff, implies_true, and_true]

theorem source_kept_iff :
    (∀ clause ∈ Clause.source, clause.Kept source) ↔ SourceConforms source := by
  simp only [Clause.source, Clause.sourceFields, Clause.present, Clause.contentHash,
    List.map_cons, List.map_nil, List.forall_mem_append, List.forall_mem_cons,
    List.not_mem_nil, IsEmpty.forall_iff, implies_true, and_true]
  constructor
  · rintro ⟨_, resultHash, traceHash, entropy, unique, named, ratio⟩
    exact ⟨resultHash, traceHash, entropy, Field.isNameList_iff.mpr ⟨unique, named unique⟩, ratio⟩
  · rintro ⟨resultHash, traceHash, entropy, invariants, ratio⟩
    obtain ⟨unique, named⟩ := Field.isNameList_iff.mp invariants
    refine ⟨⟨?_, ?_, ?_, ?_, ?_⟩, resultHash, traceHash, entropy, unique, fun _ => named, ratio⟩
    · exact Field.ne_none_of (by simp [Field.IsContentHash]) resultHash
    · exact Field.ne_none_of (by simp [Field.IsContentHash]) traceHash
    · exact Field.ne_none_of (by simp [Field.IsCanonicalEntropy, Field.ReadsAs]) entropy
    · exact Field.ne_none_of (by simp [Field.IsNameList]) invariants
    · exact Field.ne_none_of (by simp [Field.IsNonnegative, Field.ReadsAs]) ratio

theorem projection_kept_iff :
    (∀ clause ∈ Clause.projection, clause.Kept projection) ↔ ProjectionConforms projection := by
  simp only [Clause.projection, Clause.projectionFields, Clause.present, List.map_cons,
    List.map_nil, List.forall_mem_append, List.forall_mem_cons, List.not_mem_nil,
    IsEmpty.forall_iff, implies_true, and_true]
  constructor
  · rintro ⟨_, mode, layout, ⟨styling, isStyling⟩, pure, noInjection, notAllowed, notAsync⟩
    have stylingConforms : StylingConforms styling :=
      ⟨pure styling isStyling, noInjection styling isStyling⟩
    exact ⟨mode, layout, ⟨styling, isStyling, stylingConforms⟩, fun animation isAnimation =>
      ⟨notAllowed animation isAnimation, notAsync animation isAnimation⟩⟩
  · rintro ⟨mode, layout, ⟨styling, isStyling, pure, noInjection⟩, animation⟩
    have only (other : Record) (isOther : projection.get? "styling" = some (.object other)) :
        other = styling :=
      Value.object.inj (Option.some.inj (isOther.symm.trans isStyling))
    refine ⟨⟨?_, ?_, ?_⟩, mode, layout, ⟨styling, isStyling⟩, ?_, ?_, ?_, ?_⟩
    · exact Field.ne_none_of (by simp [Field.IsOneOf]) mode
    · exact Field.ne_none_of (by simp [Field.IsText]) layout
    · simp [isStyling]
    · intro other isOther
      rwa [only other isOther]
    · intro other isOther
      rwa [only other isOther]
    · exact fun members isAnimation => (animation members isAnimation).notAllowed
    · exact fun members isAnimation => (animation members isAnimation).notAsync

theorem replay_kept_iff :
    (∀ clause ∈ Clause.replay, clause.Kept replay) ↔
      ReplayConforms replay ∧ Field.IsContentHash (replay.get? "hash_projection") := by
  simp only [Clause.replay, Clause.replayFields, Clause.present, Clause.isTrue,
    Clause.contentHash, List.map_cons, List.map_nil, List.forall_mem_append,
    List.forall_mem_cons, List.not_mem_nil, IsEmpty.forall_iff, implies_true, and_true]
  constructor
  · rintro ⟨_, identityRequired, deterministic, projectionHash, inputHash⟩
    exact ⟨⟨identityRequired, deterministic, inputHash⟩, projectionHash⟩
  · rintro ⟨⟨identityRequired, deterministic, inputHash⟩, projectionHash⟩
    refine ⟨⟨?_, ?_, ?_, ?_⟩, identityRequired, deterministic, projectionHash, inputHash⟩
    · exact Field.ne_none_of (by simp [Field.IsTrue]) identityRequired
    · exact Field.ne_none_of (by simp [Field.IsContentHash]) projectionHash
    · exact Field.ne_none_of (by simp [Field.IsContentHash]) inputHash
    · exact Field.ne_none_of (by simp [Field.IsTrue]) deterministic

theorem proofSurface_kept_iff :
    (∀ clause ∈ Clause.proofSurface, clause.Kept surface) ↔ SurfaceConforms surface := by
  simp only [Clause.proofSurface, Clause.present, List.map_cons, List.map_nil,
    List.forall_mem_cons, List.not_mem_nil, IsEmpty.forall_iff, implies_true, and_true]
  constructor
  · rintro ⟨entropy, invariants, ratio⟩
    exact ⟨entropy, invariants, ratio⟩
  · rintro ⟨entropy, invariants, ratio⟩
    exact ⟨entropy, invariants, ratio⟩

end Kept

/-- A computed hash is a content hash. -/
theorem isContentHash_of_isText_hash {key : ProjectionKey} {field : Option Value}
    (isHash : Field.IsText key.hash field) : Field.IsContentHash field := by
  obtain ⟨digits, isDigits, counted, areDigits⟩ :=
    (ContentHash.isWellFormed_iff key.hash).mp (ContentHash.isWellFormed_ofBytes _)
  rw [Field.IsText, isDigits] at isHash
  exact ⟨digits, isHash, counted, areDigits⟩

/-- A source with a result hash and a conformant projection have a key. -/
theorem ProjectionConforms.isComplete {projection : Record}
    (conforms : ProjectionConforms projection) : ProjectionKey.IsComplete projection := by
  have kept := projection_kept_iff.mpr conforms
  intro field isField
  rw [Record.contains, Option.isSome_iff_ne_none]
  exact kept (.present "projection" field)
    (List.mem_append_left _ (List.mem_map_of_mem isField))

/-- A conformant document with as little in it as possible. -/
def leastDocument : Value :=
  let hash : Value :=
    .string "sha256:0000000000000000000000000000000000000000000000000000000000000000"
  .object
    [("@kux", .string "v1"), ("@status", .string "canonical"),
      ("source", .object
        [("collapse_result_hash", hash), ("collapse_trace_hash", hash),
          ("entropy", .number (.double canonicalEntropy)),
          ("invariants", .array [.string "collapse_only"]),
          ("compression_ratio", .number (.ofNat 0 (by decide)))]),
      ("projection", .object
        [("mode", .string "svg"), ("layout", .string "deterministic"),
          ("styling", .object [("pure", .bool true), ("no_runtime_injection", .bool true)])]),
      ("replay", .object
        [("replay_identity_required", .bool true), ("render_deterministic", .bool true),
          ("input_hash", hash),
          ("hash_projection", .string
            "sha256:4ea334a42e5512353848d0b1d886fe1725ba160adbe2c448127b2c37404b959c")]),
      ("proof_surface", .null)]

end Provenance
