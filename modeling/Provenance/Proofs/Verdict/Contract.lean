import Mathlib
import Provenance.Proofs.Verdict.Passing

/-!
# What a verdict depends on

Of a document only the markers, the shape of the sections and certain fields of
them are looked at; the rest may be anything.  Two documents that agree in these
break the same requirements, since every clause of a section is kept by both
records or by neither (`kept_iff_of_agree`), and they have the same projection
key.  So they have the same verdict, error by error, and the same outcome of the
identity check.
-/

namespace Provenance

open Json

/-- Two records have the same members under some keys. -/
def AgreeOn (keys : List String) (record other : Record) : Prop :=
  ∀ key ∈ keys, record.get? key = other.get? key

/-- Two fields are objects that agree in some sense, or none of them is an
object. -/
inductive AgreeIfObjects (Agree : Record → Record → Prop) : Option Value → Option Value → Prop
  | objects {record other : Record} :
      Agree record other → AgreeIfObjects Agree (some (.object record)) (some (.object other))
  | others {field otherField : Option Value} :
      (∀ members, field ≠ some (.object members)) →
      (∀ members, otherField ≠ some (.object members)) → AgreeIfObjects Agree field otherField

namespace AgreeIfObjects

variable {Agree : Record → Record → Prop} {field other : Option Value}

theorem refl (agreeRefl : ∀ record, Agree record record) (field : Option Value) :
    AgreeIfObjects Agree field field := by
  by_cases isObject : ∃ members, field = some (.object members)
  · obtain ⟨members, rfl⟩ := isObject
    exact .objects (agreeRefl members)
  · rw [not_exists] at isObject
    exact .others isObject isObject

theorem symm (agreeSymm : ∀ {record other}, Agree record other → Agree other record)
    (agree : AgreeIfObjects Agree field other) : AgreeIfObjects Agree other field := by
  cases agree with
  | objects agree => exact .objects (agreeSymm agree)
  | others noObject noOther => exact .others noOther noObject

/-- If one field is an object, so is the other, and they agree. -/
theorem exists_object {record : Record} (agree : AgreeIfObjects Agree field other)
    (isObject : field = some (.object record)) :
    ∃ otherRecord, other = some (.object otherRecord) ∧ Agree record otherRecord := by
  cases agree with
  | objects agree =>
      obtain rfl := Value.object.inj (Option.some.inj isObject)
      exact ⟨_, rfl, agree⟩
  | others noObject _ => exact absurd isObject (noObject record)

end AgreeIfObjects

/-- Two records of a section agree in the fields of the contract.  Of an
animation only two flags count, and only if it is an object; of a proof surface
only which keys it has. -/
def Section.Agree : Section → Record → Record → Prop
  | source => AgreeOn
      ["collapse_result_hash", "collapse_trace_hash", "entropy", "invariants",
        "compression_ratio"]
  | projection => fun record other =>
      AgreeOn ["mode", "layout", "styling"] record other ∧
        AgreeIfObjects (AgreeOn ["allowed", "async"]) (record.get? "animation")
          (other.get? "animation")
  | replay => AgreeOn
      ["replay_identity_required", "hash_projection", "input_hash", "render_deterministic"]
  | proofSurface => fun record other =>
      ∀ key ∈ ["show_entropy", "show_invariants", "show_compression_ratio"],
        record.contains key = other.contains key

/-- Two roots agree in what the contract is about: the markers, which sections
are present, which of them are objects, and the fields of these. -/
structure SameContract (root other : Record) : Prop where
  markers : AgreeOn ["@kux", "@status"] root other
  present : ∀ which : Section, root.contains which.key = other.contains which.key
  sections : ∀ which : Section,
    AgreeIfObjects which.Agree (root.get? which.key) (other.get? which.key)

theorem AgreeOn.symm {keys : List String} {record other : Record}
    (agree : AgreeOn keys record other) : AgreeOn keys other record :=
  fun key isKey => (agree key isKey).symm

theorem Section.Agree.refl (which : Section) (record : Record) : which.Agree record record := by
  cases which with
  | source => exact fun _ _ => rfl
  | projection => exact ⟨fun _ _ => rfl, .refl (fun _ _ _ => rfl) _⟩
  | replay => exact fun _ _ => rfl
  | proofSurface => exact fun _ _ => rfl

theorem Section.Agree.symm {which : Section} {record other : Record}
    (agree : which.Agree record other) : which.Agree other record := by
  cases which with
  | source => exact AgreeOn.symm agree
  | projection => exact ⟨agree.1.symm, agree.2.symm AgreeOn.symm⟩
  | replay => exact AgreeOn.symm agree
  | proofSurface => exact fun key isKey => (agree key isKey).symm

theorem SameContract.symm {root other : Record} (same : SameContract root other) :
    SameContract other root where
  markers := same.markers.symm
  present which := (same.present which).symm
  sections which := (same.sections which).symm Section.Agree.symm

theorem stylingFlag_kept_iff (flag : String) {projection other : Record}
    (same : projection.get? "styling" = other.get? "styling") :
    (Clause.stylingFlag flag).Kept projection ↔ (Clause.stylingFlag flag).Kept other :=
  ⟨fun kept styling isStyling => kept styling (same.trans isStyling),
    fun kept styling isStyling => kept styling (same.symm.trans isStyling)⟩

theorem animationFlag_kept_iff {flag : String} (isFlag : flag ∈ ["allowed", "async"])
    {projection other : Record} (agree : Section.projection.Agree projection other) :
    (Clause.animationFlag flag).Kept projection ↔ (Clause.animationFlag flag).Kept other := by
  have transfer {record otherRecord : Record}
      (agree : Section.projection.Agree record otherRecord)
      (kept : (Clause.animationFlag flag).Kept record) :
      (Clause.animationFlag flag).Kept otherRecord := by
    intro animation isAnimation
    obtain ⟨members, isMembers, sameFlags⟩ := agree.symm.2.exists_object isAnimation
    rw [sameFlags flag isFlag]
    exact kept members isMembers
  exact ⟨transfer agree, transfer agree.symm⟩

theorem present_kept_iff {key : String} {record other : Record} (path : String)
    (same : record.contains key = other.contains key) :
    (Clause.present path key).Kept record ↔ (Clause.present path key).Kept other := by
  change record.get? key ≠ none ↔ other.get? key ≠ none
  rw [← Option.isSome_iff_ne_none, ← Option.isSome_iff_ne_none]
  exact Bool.eq_iff_iff.mp same

/-- Records that agree keep the same clauses of their section. -/
theorem kept_iff_of_agree {which : Section} {record other : Record}
    (agree : which.Agree record other) :
    ∀ clause ∈ which.clauses, clause.Kept record ↔ clause.Kept other := by
  cases which with
  | source =>
      simp only [Section.Agree, AgreeOn, List.forall_mem_cons] at agree
      obtain ⟨resultHash, traceHash, entropy, invariants, ratio, _⟩ := agree
      simp only [Section.clauses, Clause.source, Clause.sourceFields, Clause.present,
        Clause.contentHash, List.map_cons, List.map_nil, List.forall_mem_append,
        List.forall_mem_cons, List.not_mem_nil, IsEmpty.forall_iff, implies_true, and_true,
        resultHash, traceHash, entropy, invariants, ratio]
  | projection =>
      have allowed := @animationFlag_kept_iff "allowed" (by simp) _ _ agree
      have async := @animationFlag_kept_iff "async" (by simp) _ _ agree
      simp only [Section.Agree, AgreeOn, List.forall_mem_cons] at agree
      obtain ⟨⟨mode, layout, styling, _⟩, _⟩ := agree
      have pure := stylingFlag_kept_iff "pure" styling
      have noInjection := stylingFlag_kept_iff "no_runtime_injection" styling
      simp only [Section.clauses, Clause.projection, Clause.projectionFields, Clause.present,
        List.map_cons, List.map_nil, List.forall_mem_append, List.forall_mem_cons,
        List.not_mem_nil, IsEmpty.forall_iff, implies_true, and_true, mode, layout, styling,
        pure, noInjection, allowed, async]
  | replay =>
      simp only [Section.Agree, AgreeOn, List.forall_mem_cons] at agree
      obtain ⟨required, projectionHash, inputHash, deterministic, _⟩ := agree
      simp only [Section.clauses, Clause.replay, Clause.replayFields, Clause.present,
        Clause.isTrue, Clause.contentHash, List.map_cons, List.map_nil, List.forall_mem_append,
        List.forall_mem_cons, List.not_mem_nil, IsEmpty.forall_iff, implies_true, and_true,
        required, projectionHash, inputHash, deterministic]
  | proofSurface =>
      exact List.forall_mem_map.mpr fun key isKey => present_kept_iff _ (agree key isKey)

theorem root_kept_iff_of_sameContract {root other : Record} (same : SameContract root other) :
    ∀ clause ∈ Clause.root, clause.Kept root ↔ clause.Kept other := by
  have version := same.markers "@kux" (by decide)
  have status := same.markers "@status" (by decide)
  have source := present_kept_iff "root" (same.present .source)
  have projection := present_kept_iff "root" (same.present .projection)
  have replay := present_kept_iff "root" (same.present .replay)
  have proofSurface := present_kept_iff "root" (same.present .proofSurface)
  simp only [Clause.root, List.map_cons, List.map_nil, List.forall_mem_append,
    List.forall_mem_cons, List.not_mem_nil, IsEmpty.forall_iff, implies_true, and_true]
  exact ⟨⟨by rw [version], by rw [status]⟩, source, projection, replay, proofSurface⟩

namespace SameContract

variable {root other : Record} (same : SameContract root other)

include same

/-- A section of the one document is read as a record that agrees with the one
that it is read as in the other. -/
theorem exists_hasSection (which : Section) {record : Record}
    (isSection : HasSection (.object root) which.key record) :
    ∃ otherRecord, HasSection (.object other) which.key otherRecord ∧
      which.Agree record otherRecord := by
  rcases isSection with found | ⟨isAbsent, rfl⟩
  · obtain ⟨otherRecord, otherFound, agree⟩ := (same.sections which).exists_object found
    exact ⟨otherRecord, .inl otherFound, agree⟩
  · refine ⟨[], .inr ⟨?_, rfl⟩, .refl which []⟩
    have isPresent := same.present which
    rw [Record.contains, show root.get? which.key = none from isAbsent] at isPresent
    exact Option.not_isSome_iff_eq_none.mp (Bool.not_eq_true _ ▸ isPresent.symm)

/-- What records that agree have in common, the sections of both documents have
in common. -/
theorem exists_iff (which : Section) {Holds : Record → Prop}
    (congr : ∀ record otherRecord, which.Agree record otherRecord →
      (Holds record ↔ Holds otherRecord)) :
    (∃ record, HasSection (.object root) which.key record ∧ Holds record) ↔
      ∃ record, HasSection (.object other) which.key record ∧ Holds record := by
  constructor
  · rintro ⟨record, isSection, holds⟩
    obtain ⟨otherRecord, isOther, agree⟩ := same.exists_hasSection which isSection
    exact ⟨otherRecord, isOther, (congr _ _ agree).mp holds⟩
  · rintro ⟨record, isSection, holds⟩
    obtain ⟨otherRecord, isOther, agree⟩ := same.symm.exists_hasSection which isSection
    exact ⟨otherRecord, isOther, (congr _ _ agree.symm).mpr holds⟩

/-- The key of the one document is the key of the other. -/
theorem projectionKey?_eq_some {key : ProjectionKey}
    (isKey : (Sections.ofDocument (.object root)).projectionKey? = some key) :
    (Sections.ofDocument (.object other)).projectionKey? = some key := by
  have isSection {document : Value} (which : Section) (record : Record) :=
    @Sections.get_ofDocument_eq_some_iff document which record
  obtain ⟨source, projection, hash, isSource, isProjection, hasHash, isKey⟩ :=
    Sections.projectionKey?_eq_some_iff.mp isKey
  obtain ⟨otherSource, isOtherSource, sourceAgree⟩ :=
    same.exists_hasSection .source ((isSection .source _).mp isSource)
  obtain ⟨otherProjection, isOtherProjection, fieldsAgree, _⟩ :=
    same.exists_hasSection .projection ((isSection .projection _).mp isProjection)
  apply Sections.projectionKey?_eq_some_iff.mpr
  refine ⟨otherSource, otherProjection, hash, (isSection .source _).mpr isOtherSource,
    (isSection .projection _).mpr isOtherProjection, ?_, ?_⟩
  · rw [← sourceAgree "collapse_result_hash" (by decide), hasHash]
  · rw [← isKey, ProjectionKey.ofProjection?, ProjectionKey.ofProjection?,
      fieldsAgree "mode" (by decide), fieldsAgree "layout" (by decide),
      fieldsAgree "styling" (by decide)]

theorem projectionKey?_eq :
    (Sections.ofDocument (.object root)).projectionKey? =
      (Sections.ofDocument (.object other)).projectionKey? :=
  Option.ext fun _ => ⟨same.projectionKey?_eq_some, same.symm.projectionKey?_eq_some⟩

/-- Both documents have an identity with the same key, and their replays agree. -/
theorem exists_hasIdentity {replay : Record} {key : ProjectionKey}
    (hasIdentity : HasIdentity (.object root) replay key) :
    ∃ otherReplay, HasIdentity (.object other) otherReplay key ∧
      Section.replay.Agree replay otherReplay := by
  obtain ⟨isReplay, isKey⟩ := Sections.hasIdentity_iff.mp hasIdentity
  obtain ⟨otherReplay, isOther, agree⟩ := same.exists_hasSection .replay
    ((@Sections.get_ofDocument_eq_some_iff _ .replay _).mp isReplay)
  have isOtherReplay := (@Sections.get_ofDocument_eq_some_iff _ .replay _).mpr isOther
  exact ⟨otherReplay,
    Sections.hasIdentity_iff.mpr ⟨isOtherReplay, same.projectionKey?_eq_some isKey⟩, agree⟩

/-! ## The verdict -/

/-- Both documents break the same requirements. -/
theorem isBroken_iff : ∀ requirement ∈ Requirement.catalogue,
    requirement.IsBroken (.object root) ↔ requirement.IsBroken (.object other) := by
  have ofSection (which : Section) : ∀ clause ∈ which.clauses,
      (Requirement.ofSection which.key clause).IsBroken (.object root) ↔
        (Requirement.ofSection which.key clause).IsBroken (.object other) := by
    intro clause isClause
    apply same.exists_iff which
    exact fun _ _ agree => not_congr (kept_iff_of_agree agree clause isClause)
  have transfer {root other : Record} (same : SameContract root other)
      (isBroken : Requirement.identity.IsBroken (.object root)) :
      Requirement.identity.IsBroken (.object other) := by
    obtain ⟨replay, key, hasIdentity, notHash⟩ := isBroken
    obtain ⟨otherReplay, hasOther, agree⟩ := same.exists_hasIdentity hasIdentity
    refine ⟨otherReplay, key, hasOther, ?_⟩
    rwa [← agree "hash_projection" (by decide)]
  simp only [Requirement.catalogue, List.forall_mem_append, List.forall_mem_map,
    List.forall_mem_singleton]
  refine ⟨⟨⟨⟨⟨?_, ofSection .source⟩, ofSection .projection⟩, ofSection .replay⟩,
    ofSection .proofSurface⟩, transfer same, transfer same.symm⟩
  exact fun clause isClause => not_congr (root_kept_iff_of_sameContract same clause isClause)

theorem errors_eq : (verify (.object root)).errors = (verify (.object other)).errors := by
  have unfiltered := @Reports.eq_filter _ _ _ _ _ (fun _ => true)
    (reports_catalogue (.object other)) (reports_catalogue (.object root))
  rw [unfiltered, List.filter_true]
  exact fun requirement isRequired => by simpa using same.isBroken_iff requirement isRequired

/-- The identity check has the same outcome. -/
theorem identity_eq :
    (Sections.ofDocument (.object root)).identity =
      (Sections.ofDocument (.object other)).identity := by
  by_cases hasIdentity : ∃ replay key, HasIdentity (.object root) replay key
  · obtain ⟨replay, key, hasIdentity⟩ := hasIdentity
    obtain ⟨otherReplay, hasOther, agree⟩ := same.exists_hasIdentity hasIdentity
    rw [Sections.identity_of_hasIdentity hasIdentity, Sections.identity_of_hasIdentity hasOther,
      agree "hash_projection" (by decide)]
  · rw [Sections.identity_of_not_hasIdentity, Sections.identity_of_not_hasIdentity]
    · intro replay key hasOther
      obtain ⟨otherReplay, isIdentity, _⟩ := same.symm.exists_hasIdentity hasOther
      exact hasIdentity ⟨otherReplay, key, isIdentity⟩
    · exact fun replay key isIdentity => hasIdentity ⟨replay, key, isIdentity⟩

theorem entropyValid_eq :
    (verify (.object root)).entropyValid = (verify (.object other)).entropyValid := by
  rw [Bool.eq_iff_iff, entropyValid_verify, entropyValid_verify, Sections.entropyValid_iff,
    Sections.entropyValid_iff]
  apply same.exists_iff .source
  intro source otherSource agree
  rw [agree "entropy" (by decide)]

theorem deterministicProjection_eq :
    (verify (.object root)).deterministicProjection =
      (verify (.object other)).deterministicProjection := by
  rw [Bool.eq_iff_iff, deterministicProjection_verify, deterministicProjection_verify,
    Sections.deterministicProjection_iff, Sections.deterministicProjection_iff]
  apply and_congr
  · apply same.exists_iff .projection
    intro projection otherProjection agree
    rw [agree.1 "layout" (by decide)]
  · apply same.exists_iff .replay
    intro replay otherReplay agree
    rw [agree "render_deterministic" (by decide)]

end SameContract

attribute [ext] Verdict

/-- Documents that agree in what the contract is about have the same verdict with
the same errors in the same order, the same projection key, and the same identity
with the same computed hash, whatever else they hold. -/
theorem verify_eq_of_sameContract {root other : Record} (same : SameContract root other) :
    verify (.object root) = verify (.object other) ∧
      (Sections.ofDocument (.object root)).projectionKey? =
        (Sections.ofDocument (.object other)).projectionKey? ∧
      (Sections.ofDocument (.object root)).identity =
        (Sections.ofDocument (.object other)).identity ∧
      (Sections.ofDocument (.object root)).identity.expectedHash? =
        (Sections.ofDocument (.object other)).identity.expectedHash? := by
  have identity := same.identity_eq
  have identityValid : (verify (.object root)).replayIdentityValid =
      (verify (.object other)).replayIdentityValid := by
    rw [replayIdentityValid_verify, replayIdentityValid_verify, identity]
  have passed : (verify (.object root)).passed = (verify (.object other)).passed := by
    rw [Bool.eq_iff_iff, passed_iff, passed_iff, same.entropyValid_eq, identityValid,
      same.deterministicProjection_eq, same.errors_eq]
  have schemaValid :
      (verify (.object root)).schemaValid = (verify (.object other)).schemaValid := by
    rw [Bool.eq_iff_iff, schemaValid_iff, schemaValid_iff, same.errors_eq]
  exact ⟨Verdict.ext same.deterministicProjection_eq same.entropyValid_eq same.errors_eq passed
    identityValid schemaValid, same.projectionKey?_eq, identity, congrArg _ identity⟩

/-- Other keys in the root, in sections and in an animation, values of the proof
surface, and the values of sections that are no objects are not looked at, neither for
the verdict nor for the key and the hash that the identity check computes. -/
theorem verify_eq_of_sameContract_edited :
    let root : Record :=
      [("projection", .object [("animation", .object [("allowed", .bool true)])]),
        ("proof_surface", .object [("show_entropy", .null)]), ("replay", .null),
        ("source", .object [("entropy", .bool true)])]
    let other : Record :=
      [("note", .null),
        ("projection", .object
          [("animation", .object [("allowed", .bool true), ("easing", .string "linear")]),
            ("hint", .null)]),
        ("proof_surface", .object [("show_entropy", .bool false)]), ("replay", .array []),
        ("source", .object [("author", .null), ("entropy", .bool true)])]
    let hash := "sha256:4ea334a42e5512353848d0b1d886fe1725ba160adbe2c448127b2c37404b959c"
    let key : ProjectionKey :=
      { collapseResultHash := .string
          "sha256:0000000000000000000000000000000000000000000000000000000000000000"
        mode := .string "svg"
        layout := .string "deterministic"
        styling := .object [("no_runtime_injection", .bool true), ("pure", .bool true)] }
    let keyed : Record :=
      [("projection", .object
          [("animation", .object []), ("layout", key.layout), ("mode", key.mode),
            ("styling", key.styling)]),
        ("proof_surface", .object [("show_entropy", .null)]),
        ("replay", .object [("hash_projection", .string hash)]),
        ("source", .object [("collapse_result_hash", key.collapseResultHash)])]
    let otherKeyed : Record :=
      [("note", .null),
        ("projection", .object
          [("animation", .object [("easing", .string "linear")]), ("hint", .null),
            ("layout", key.layout), ("mode", key.mode), ("styling", key.styling)]),
        ("proof_surface", .object [("show_entropy", .bool false)]),
        ("replay", .object [("hash_projection", .string hash), ("seed", .null)]),
        ("source", .object
          [("author", .null), ("collapse_result_hash", key.collapseResultHash)])]
    (SameContract root other ∧ verify (.object root) = verify (.object other)) ∧
      SameContract keyed otherKeyed ∧ verify (.object keyed) = verify (.object otherKeyed) ∧
      ∀ record ∈ [keyed, otherKeyed],
        (Sections.ofDocument (.object record)).projectionKey? = some key ∧
          (Sections.ofDocument (.object record)).identity = .matched hash ∧
          (Sections.ofDocument (.object record)).identity.expectedHash? = some hash := by
  intro root other hash key keyed otherKeyed
  have flags : AgreeOn ["allowed", "async"] [("allowed", .bool true)]
      [("allowed", .bool true), ("easing", .string "linear")] := by
    simp [AgreeOn, Record.get?_cons]
  have same : SameContract root other := by
    refine ⟨by simp [AgreeOn, root, other, Record.get?_cons], by intro which; cases which <;> rfl,
      ?_⟩
    intro which
    cases which with
    | source => exact .objects (by simp [Section.Agree, AgreeOn, Record.get?_cons])
    | projection =>
        exact .objects ⟨by simp [AgreeOn, Record.get?_cons], .objects flags⟩
    | replay => exact .others (by rintro _ ⟨⟩) (by rintro _ ⟨⟩)
    | proofSurface => exact .objects (by simp [Section.Agree, Record.contains, Record.get?_cons])
  have noFlags : AgreeOn ["allowed", "async"] [] [("easing", .string "linear")] := by
    simp [AgreeOn, Record.get?_cons]
  have sameKeyed : SameContract keyed otherKeyed := by
    refine ⟨by simp [AgreeOn, keyed, otherKeyed, Record.get?_cons],
      by intro which; cases which <;> rfl, ?_⟩
    intro which
    cases which with
    | source => exact .objects (by simp [Section.Agree, AgreeOn, Record.get?_cons])
    | projection =>
        exact .objects ⟨by simp [AgreeOn, Record.get?_cons], .objects noFlags⟩
    | replay => exact .objects (by simp [Section.Agree, AgreeOn, Record.get?_cons])
    | proofSurface => exact .objects (by simp [Section.Agree, Record.contains, Record.get?_cons])
  have isKey : (Sections.ofDocument (.object keyed)).projectionKey? = some key := rfl
  have isMatched : (Sections.ofDocument (.object keyed)).identity = .matched hash := by
    decide +kernel +zetaReduce
  have isExpected := congrArg ReplayIdentity.expectedHash? isMatched
  rcases verify_eq_of_sameContract sameKeyed with ⟨verdict, keys, identity, expected⟩
  refine ⟨⟨same, (verify_eq_of_sameContract same).1⟩, sameKeyed, verdict, ?_⟩
  rw [List.forall_mem_cons, List.forall_mem_singleton]
  exact ⟨⟨isKey, isMatched, isExpected⟩, keys.symm.trans isKey, identity.symm.trans isMatched,
    expected.symm.trans isExpected⟩

end Provenance
