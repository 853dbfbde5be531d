import Mathlib
import Provenance.Proofs.Document.Conformance
import Provenance.Proofs.Json.Canonical

/-!
# The invariants of a source

The search for repetitions compares canonical forms and so finds two items exactly if
they are the same value (`hasDuplicates_iff`).  Two clauses of the source are about what
the invariants are, and they cannot both be broken; the messages of a section are those of
the clauses that are broken (`Section.message_mem_iff`), so at most one of the two is
given.

The order of the items plays no part in any of the conditions, so it does not change the
verdict either (`InvariantsPermuted.verify_eq`).
-/

namespace Provenance

open Json

namespace Json.Value

/-- Objects are the same whatever the order of their members. -/
theorem same_object_of_perm {members others : Record} (moved : members.Perm others)
    (distinct : (members.map Prod.fst).Nodup) : Same (object members) (object others) := by
  apply Same.object
  intro key
  rw [← Record.get?_eq_of_perm moved distinct]
  cases members.get? key with
  | none => exact .none
  | some value => exact .some (.refl value)

end Json.Value

/-- Two of the items, at different places, are the same. -/
def Repeats (items : List Value) : Prop :=
  ∃ first second : Fin items.length, first ≠ second ∧ Value.Same items[first] items[second]

theorem not_repeats_iff {items : List Value} :
    ¬ Repeats items ↔ items.Pairwise fun first second => ¬ Value.Same first second := by
  rw [List.pairwise_iff_get]
  constructor
  · intro noRepetition first second before same
    exact noRepetition ⟨first, second, before.ne, same⟩
  · rintro apart ⟨first, second, different, same⟩
    rcases lt_or_gt_of_ne different with before | behind
    · exact apart first second before same
    · exact apart second first behind same.symm

/-- Repetitions are found, and nothing else. -/
theorem hasDuplicates_iff {items : List Value} : hasDuplicates items = true ↔ Repeats items := by
  rw [← Bool.not_eq_false, hasDuplicates_eq_false_iff, ← not_repeats_iff, not_not]

/-- The message is about the invariants of the source. -/
def IsAboutInvariants (message : String) : Prop :=
  "source.invariants".toList <+: message.toList

/-- What is said when the invariants are no list, or empty, or repeat an item. -/
def notUniqueMessage : String :=
  "source.invariants must be a non-empty unique list"

/-- What is said when the invariants are a list without repetition, but not of names. -/
def notCanonicalMessage : String :=
  "source.invariants contains non-canonical values"

/-- The field is absent, no list, empty, or a list that repeats an item. -/
def LacksUniqueList (field : Option Value) : Prop :=
  field = none ∨ (∀ items, field ≠ some (.array items)) ∨ field = some (.array []) ∨
    ∃ items, field = some (.array items) ∧ Repeats items

theorem lacksUniqueList_iff {field : Option Value} :
    LacksUniqueList field ↔ ¬ Field.IsUniqueList field := by
  constructor
  · rintro (rfl | noList | rfl | ⟨items, rfl, repeats⟩) ⟨others, isField, notEmpty, apart⟩
    · contradiction
    · exact noList others isField
    · obtain rfl := Value.array.inj (Option.some.inj isField)
      exact notEmpty rfl
    · obtain rfl := Value.array.inj (Option.some.inj isField)
      exact not_repeats_iff.mpr apart repeats
  · intro notUnique
    by_cases isList : ∃ items, field = some (.array items)
    · obtain ⟨items, rfl⟩ := isList
      by_cases isEmpty : items = []
      · exact .inr (.inr (.inl (by rw [isEmpty])))
      · refine .inr (.inr (.inr ⟨items, rfl, ?_⟩))
        by_contra noRepetition
        exact notUnique ⟨items, rfl, isEmpty, not_repeats_iff.mp noRepetition⟩
    · exact .inr (.inl (not_exists.mp isList))

/-- The field is a list of one to four different names of invariants. -/
def IsInvariantChoice (field : Option Value) : Prop :=
  ∃ names : List String, field = some (.array (names.map .string)) ∧
    1 ≤ names.length ∧ names.length ≤ 4 ∧ names.Nodup ∧
    ∀ name ∈ names, name ∈ Clause.invariantNames

/-- There are no more than four different names, so the number of them need not be
checked. -/
theorem isInvariantChoice_iff {field : Option Value} :
    IsInvariantChoice field ↔ Field.IsNameList Clause.invariantNames field := by
  constructor
  · rintro ⟨names, isField, least, -, different, areNames⟩
    exact ⟨names, isField, List.ne_nil_of_length_pos least, different, areNames⟩
  · rintro ⟨names, isField, notEmpty, different, areNames⟩
    have most := (List.subperm_of_subset different areNames).length_le
    exact ⟨names, isField, List.length_pos_iff.mpr notEmpty, most, different, areNames⟩

/-- The clause that the invariants are a list without repetition. -/
def uniqueClause : Clause where
  message := notUniqueMessage
  Kept source := Field.IsUniqueList (source.get? "invariants")

/-- The clause that the items of such a list are names. -/
def canonicalClause : Clause where
  message := notCanonicalMessage
  Kept source := Field.IsUniqueList (source.get? "invariants") →
    Field.IsListOf Clause.invariantNames (source.get? "invariants")

theorem uniqueClause_mem : uniqueClause ∈ Section.source.clauses :=
  List.mem_append_right _ (.tail _ (.tail _ (.tail _ (.head _))))

theorem canonicalClause_mem : canonicalClause ∈ Section.source.clauses :=
  List.mem_append_right _ (.tail _ (.tail _ (.tail _ (.tail _ (.head _)))))

theorem presentClause_mem : Clause.present "source" "invariants" ∈ Section.source.clauses :=
  List.mem_append_left _ (List.mem_map_of_mem (by decide))

/-- Three clauses of the source are about the invariants. -/
theorem mem_of_isAboutInvariants : ∀ clause ∈ Section.source.clauses,
    IsAboutInvariants clause.message →
      clause.message ∈ [(Clause.present "source" "invariants").message, notUniqueMessage,
        notCanonicalMessage] := by
  -- Bytes are compared, since taking strings apart into characters is slow.
  have begins : ∀ message ∈ Section.source.clauses.map Clause.message,
      "source.invariants".toByteArray.data.toList <+: message.toByteArray.data.toList →
        message ∈ [(Clause.present "source" "invariants").message, notUniqueMessage,
          notCanonicalMessage] := by
    decide +kernel
  rintro clause isClause ⟨rest, isMessage⟩
  apply begins clause.message (List.mem_map_of_mem isClause)
  rw [← Text.Utf8.encode_toList, ← Text.Utf8.encode_toList, ← isMessage, Text.Utf8.encode_append]
  exact List.prefix_append _ _

theorem isAboutInvariants_append (rest : String) :
    IsAboutInvariants ("source.invariants" ++ rest) := by
  rw [IsAboutInvariants, String.toList_append]
  exact List.prefix_append _ _

section Reported

variable {source : Record}

theorem notUniqueMessage_mem_iff :
    notUniqueMessage ∈ Rule.messages Section.source.allRules source ↔
      LacksUniqueList (source.get? "invariants") := by
  rw [lacksUniqueList_iff]
  exact Section.message_mem_iff uniqueClause_mem source

theorem notCanonicalMessage_mem_iff :
    notCanonicalMessage ∈ Rule.messages Section.source.allRules source ↔
      ¬ IsInvariantChoice (source.get? "invariants") ∧
        ¬ LacksUniqueList (source.get? "invariants") := by
  have reported := Section.message_mem_iff canonicalClause_mem source
  rw [lacksUniqueList_iff, not_not, isInvariantChoice_iff, Field.isNameList_iff]
  refine reported.trans ?_
  change ¬ (Field.IsUniqueList _ → _) ↔ _
  tauto

/-- Nothing is said about invariants that are present if they are a choice of names. -/
theorem forall_not_isAboutInvariants_iff (isPresent : source.get? "invariants" ≠ none) :
    (∀ message ∈ Rule.messages Section.source.allRules source, ¬ IsAboutInvariants message) ↔
      IsInvariantChoice (source.get? "invariants") := by
  constructor
  · intro silent
    have unique : ¬ LacksUniqueList (source.get? "invariants") := fun lacks =>
      silent _ (notUniqueMessage_mem_iff.mpr lacks)
        (isAboutInvariants_append " must be a non-empty unique list")
    by_contra noChoice
    exact silent _ (notCanonicalMessage_mem_iff.mpr ⟨noChoice, unique⟩)
      (isAboutInvariants_append " contains non-canonical values")
  · intro isChoice message isMessage isAbout
    have isUnique : Field.IsUniqueList (source.get? "invariants") :=
      (Field.isNameList_iff.mp (isInvariantChoice_iff.mp isChoice)).1
    obtain ⟨clause, isClause, rfl⟩ := Section.exists_clause_of_mem isMessage
    have listed := mem_of_isAboutInvariants clause isClause isAbout
    simp only [List.mem_cons, List.not_mem_nil, or_false] at listed
    rcases listed with same | same | same
    · rw [same] at isMessage
      exact (Section.message_mem_iff presentClause_mem source).mp isMessage isPresent
    · rw [same] at isMessage
      exact lacksUniqueList_iff.mp (notUniqueMessage_mem_iff.mp isMessage) isUnique
    · rw [same] at isMessage
      exact (notCanonicalMessage_mem_iff.mp isMessage).1 isChoice

end Reported

/-! ## Items in another order -/

/-- Two objects differ in the value under one key only, which is there in both. -/
inductive DifferAt (key : String) (Related : Value → Value → Prop) : Value → Value → Prop where
  | members {record otherRecord : Record} {value otherValue : Value} :
      record.get? key = some value → otherRecord.get? key = some otherValue →
      Related value otherValue →
      (∀ otherKey, otherKey ≠ key → record.get? otherKey = otherRecord.get? otherKey) →
      DifferAt key Related (.object record) (.object otherRecord)

/-- Values that differ at a key are objects. -/
theorem DifferAt.exists_objects {key : String} {Related : Value → Value → Prop}
    {value other : Value} (differ : DifferAt key Related value other) :
    ∃ record otherRecord, value = .object record ∧ other = .object otherRecord := by
  cases differ
  exact ⟨_, _, rfl, rfl⟩

/-- Two arrays have the same items in another order. -/
inductive ItemsPermuted : Value → Value → Prop where
  | array {items others : List Value} :
      items.Perm others → ItemsPermuted (.array items) (.array others)

/-- Two sources differ in the order of the invariants only. -/
def SourcePermuted : Value → Value → Prop :=
  DifferAt "invariants" ItemsPermuted

/-- Two documents differ in the order of the invariants of the source only. -/
def InvariantsPermuted : Value → Value → Prop :=
  DifferAt "source" SourcePermuted

/-- Repetitions are found in any order. -/
theorem hasDuplicates_eq_of_perm {items others : List Value} (moved : items.Perm others) :
    hasDuplicates items = hasDuplicates others := by
  have symmetric {first second : Value} (apart : ¬ Value.Same first second) :
      ¬ Value.Same second first :=
    fun same => apart same.symm
  rw [Bool.eq_iff_iff, ← Bool.not_eq_false, ← Bool.not_eq_false, hasDuplicates_eq_false_iff,
    hasDuplicates_eq_false_iff, moved.pairwise_iff symmetric]

theorem Field.isUniqueList_eq_of_perm {items others : List Value} (moved : items.Perm others) :
    isUniqueList (some (.array items)) = isUniqueList (some (.array others)) := by
  change (!items.isEmpty && !hasDuplicates items) = (!others.isEmpty && !hasDuplicates others)
  rw [moved.isEmpty_eq, hasDuplicates_eq_of_perm moved]

theorem Field.isInvariantList_eq_of_perm {items others : List Value} (moved : items.Perm others) :
    isInvariantList (some (.array items)) = isInvariantList (some (.array others)) :=
  moved.all_eq

section Agreement

variable {record other : Record}

/-- Objects that differ in the value under a key have the same keys. -/
theorem DifferAt.contains_eq {key : String} {Related : Value → Value → Prop}
    (differ : DifferAt key Related (.object record) (.object other)) (wanted : String) :
    record.contains wanted = other.contains wanted := by
  cases differ with
  | members isValue isOther _ same =>
      by_cases isKey : wanted = key
      · rw [Record.contains, Record.contains, isKey, isValue, isOther]
        rfl
      · rw [Record.contains, Record.contains, same wanted isKey]

/-- The findings on a source do not depend on the order of the invariants. -/
theorem SourcePermuted.check_eq (permuted : SourcePermuted (.object record) (.object other))
    (findings : Findings) :
    Section.source.check record findings = Section.source.check other findings := by
  rw [Section.check, Section.check,
    Findings.requireKeys_congr fun key _ => DifferAt.contains_eq permuted key]
  apply Findings.check_congr
  cases permuted with
  | members isList isOther moved same =>
      cases moved with
      | array moved =>
          have unique := Field.isUniqueList_eq_of_perm moved
          have named := Field.isInvariantList_eq_of_perm moved
          simp only [Section.rules, Section.sourceRules, Section.hashRule, List.forall_mem_cons,
            same "collapse_result_hash" (by decide), same "collapse_trace_hash" (by decide),
            same "entropy" (by decide), same "compression_ratio" (by decide), isList, isOther,
            unique, named]
          simp

end Agreement

/-- Sections under other keys are read alike. -/
theorem Sections.read_eq_of_differAt {Related : Value → Value → Prop} {root other : Record}
    (differ : DifferAt "source" Related (.object root) (.object other)) {which : Section}
    (isOther : which ≠ .source) : read root which = read other which := by
  cases differ with
  | members _ _ _ same =>
      have otherKey : which.key ≠ "source" := by
        cases which <;> first | contradiction | decide
      rw [read, read, same which.key otherKey]

/-- The rules of the root are not about the values of the sections. -/
theorem check_root_eq_of_differAt {Related : Value → Value → Prop} {root other : Record}
    (differ : DifferAt "source" Related (.object root) (.object other)) (findings : Findings) :
    (findings.check rootRules root).requireKeys root (Vocabulary.names Section) "root" =
      (findings.check rootRules other).requireKeys other (Vocabulary.names Section) "root" := by
  rw [Findings.requireKeys_congr fun key _ => differ.contains_eq key, Findings.check_congr]
  cases differ with
  | members _ _ _ same =>
      simp [rootRules, same "@kux" (by decide), same "@status" (by decide)]

namespace InvariantsPermuted

variable {document other : Value}

/-- The sections of the two documents are the same, apart from the source, which is a
record in both. -/
theorem exists_sources (permuted : InvariantsPermuted document other) :
    ∃ source otherSource : Record, SourcePermuted (.object source) (.object otherSource) ∧
      (Sections.ofDocument document).source = some source ∧
      Sections.ofDocument other =
        { Sections.ofDocument document with source := some otherSource } := by
  obtain ⟨root, otherRoot, rfl, rfl⟩ := permuted.exists_objects
  have readAlike {which : Section} (isOther : which ≠ .source) :
      Sections.read otherRoot which = Sections.read root which :=
    (Sections.read_eq_of_differAt permuted isOther).symm
  cases permuted with
  | members isSource isOther moved _ =>
      obtain ⟨source, otherSource, rfl, rfl⟩ := moved.exists_objects
      have readSource : Sections.read root .source = some source :=
        Sections.read_eq_some_iff.mpr (.inl isSource)
      have readOther : Sections.read otherRoot .source = some otherSource :=
        Sections.read_eq_some_iff.mpr (.inl isOther)
      refine ⟨source, otherSource, moved, readSource, ?_⟩
      change Sections.mk (Sections.read otherRoot _) (Sections.read otherRoot _)
        (Sections.read otherRoot _) (Sections.read otherRoot _) = _
      rw [readOther, readAlike (by decide), readAlike (by decide), readAlike (by decide)]
      rfl

/-- The scans of the two documents find the same. -/
theorem scan_eq (permuted : InvariantsPermuted document other) :
    Sections.scan document = Sections.scan other := by
  obtain ⟨source, otherSource, moved, isSource, sections⟩ := permuted.exists_sources
  have checkSection_eq (findings : Findings) (which : Section) :
      (Sections.ofDocument document).checkSection findings which =
        (Sections.ofDocument other).checkSection findings which := by
    rw [sections]
    cases which with
    | source =>
        simp only [Sections.checkSection, Sections.get, isSource]
        exact moved.check_eq findings
    | _ => rfl
  obtain ⟨root, otherRoot, rfl, rfl⟩ := permuted.exists_objects
  let checkFrom (findings : Findings) : Findings :=
    (Vocabulary.all : List Section).foldl (Sections.ofDocument (.object root)).checkSection findings
  calc Sections.scan (.object root)
    _ = checkFrom ((Findings.empty.check rootRules otherRoot).requireKeys otherRoot
          (Vocabulary.names Section) "root") :=
        congrArg checkFrom (check_root_eq_of_differAt permuted .empty)
    _ = Sections.scan (.object otherRoot) :=
        List.foldl_ext _ _ _ fun findings which _ => checkSection_eq findings which

/-- The order of the invariants does not change the verdict. -/
theorem verify_eq (permuted : InvariantsPermuted document other) :
    verify document = verify other := by
  obtain ⟨source, otherSource, moved, isSource, sections⟩ := permuted.exists_sources
  have sameField {key : String} (isOther : key ≠ "invariants") :
      source.get? key = otherSource.get? key := by
    cases moved with
    | members _ _ _ same => exact same key isOther
  have entropyValid : (Sections.ofDocument document).entropyValid =
      (Sections.ofDocument other).entropyValid := by
    simp only [sections, Sections.entropyValid, isSource, Option.any_some,
      sameField (show "entropy" ≠ "invariants" by decide)]
  have deterministic : (Sections.ofDocument document).deterministicProjection =
      (Sections.ofDocument other).deterministicProjection := by
    rw [sections]
    rfl
  have projectionKey : (Sections.ofDocument document).projectionKey? =
      (Sections.ofDocument other).projectionKey? := by
    simp [sections, Sections.projectionKey?, isSource,
      sameField (show "collapse_result_hash" ≠ "invariants" by decide)]
  have identity : (Sections.ofDocument document).identity =
      (Sections.ofDocument other).identity := by
    rw [Sections.identity, projectionKey, sections]
    rfl
  have checkIdentity (findings : Findings) :
      (Sections.ofDocument document).checkIdentity findings =
        (Sections.ofDocument other).checkIdentity findings := by
    rw [Sections.checkIdentity, Sections.checkIdentity, identity]
  simp only [verify, audit, Verdict.aggregate, permuted.scan_eq, checkIdentity, entropyValid,
    deterministic]

end InvariantsPermuted

/-- Repetitions are found exactly.  So a source gets at most one of two messages about the
contents of its invariants: one if they are absent, no list, empty or repeat an item, the
other if they are a list without repetition but not of names, and nothing at all is said
about a choice of one to four different names.  The order of the items does not change the
verdict. -/
theorem invariants_judged :
    ((∀ items : List Value, hasDuplicates items = true ↔ Repeats items) ∧
      (∀ integer inRange double, ¬ Value.Same (.number (.integer integer inRange))
        (.number (.double double))) ∧
      (∀ number truth, ¬ Value.Same (.number number) (.bool truth)) ∧
      (∀ text number, ¬ Value.Same (.string text) (.number number)) ∧
      ∀ members others : Record, members.Perm others → (members.map Prod.fst).Nodup →
        Value.Same (.object members) (.object others)) ∧
    (∀ (source : Record) (findings : Findings), ∃ added : List String,
      (Section.source.check source findings).errors = findings.errors ++ added ∧
      (source.get? "invariants" ≠ none →
        ((∀ message ∈ added, ¬ IsAboutInvariants message) ↔
          IsInvariantChoice (source.get? "invariants"))) ∧
      (notUniqueMessage ∈ added ↔ LacksUniqueList (source.get? "invariants")) ∧
      (notCanonicalMessage ∈ added ↔
        ¬ IsInvariantChoice (source.get? "invariants") ∧
          ¬ LacksUniqueList (source.get? "invariants")) ∧
      ¬ (notUniqueMessage ∈ added ∧ notCanonicalMessage ∈ added)) ∧
    ∀ document other : Value, InvariantsPermuted document other →
      verify document = verify other := by
  refine ⟨⟨fun _ => hasDuplicates_iff, ?_, ?_, ?_, ?_⟩, ?_, fun _ _ => InvariantsPermuted.verify_eq⟩
  · rintro integer inRange double ⟨⟩
  · rintro number truth ⟨⟩
  · rintro text number ⟨⟩
  · exact fun members others moved distinct => Value.same_object_of_perm moved distinct
  · intro source findings
    refine ⟨Rule.messages Section.source.allRules source,
      Section.source.errors_check source findings, forall_not_isAboutInvariants_iff,
      notUniqueMessage_mem_iff, notCanonicalMessage_mem_iff, ?_⟩
    rintro ⟨notUnique, notCanonical⟩
    exact (notCanonicalMessage_mem_iff.mp notCanonical).2 (notUniqueMessage_mem_iff.mp notUnique)

/-- A list of two names, a list of items that look alike, and one that holds an object
twice. -/
theorem invariants_judged_instances :
    let sourceOf (items : List Value) : Record := [("invariants", .array items)]
    let documentOf (items : List Value) : Value := .object [("source", .object (sourceOf items))]
    let errorsOf (items : List Value) : List String :=
      (Section.source.check (sourceOf items) .empty).errors
    let one : Value := .number (.ofNat 1 (by decide))
    let names : List Value := [.string "compression_law", .string "collapse_only"]
    let alike : List Value :=
      [one, .number (.double ⟨false, 0x3FF0000000000000, by decide⟩), .bool true, .string "1"]
    let twice : List Value :=
      [.object [("a", .null), ("b", one)], .null, .object [("b", one), ("a", .null)]]
    (∀ message ∈ errorsOf names, ¬ IsAboutInvariants message) ∧
      notCanonicalMessage ∈ errorsOf alike ∧
      hasDuplicates twice = true ∧ notUniqueMessage ∈ errorsOf twice ∧
      verify (documentOf names) = verify (documentOf names.reverse) := by
  intro sourceOf documentOf errorsOf one names alike twice
  obtain ⟨⟨repetitions, notDouble, notTruth, notNumber, anyOrder⟩, messages, verdicts⟩ :=
    invariants_judged
  have field (items : List Value) : (sourceOf items).get? "invariants" = some (.array items) := by
    rw [Record.get?_cons, if_pos rfl]
  have repeats : Repeats twice :=
    ⟨0, 2, by decide, anyOrder _ _ (.swap _ _ _) (by decide)⟩
  refine ⟨?_, ?_, (repetitions twice).mpr repeats, ?_, ?_⟩
  · obtain ⟨added, isAdded, silent, _⟩ := messages (sourceOf names) .empty
    have isReported : errorsOf names = added := isAdded
    rw [isReported, silent (by simp [field])]
    exact ⟨["compression_law", "collapse_only"], field names, by decide, by decide, by decide,
      by decide⟩
  · obtain ⟨added, isAdded, _, _, notCanonical, _⟩ := messages (sourceOf alike) .empty
    have isReported : errorsOf alike = added := isAdded
    rw [isReported, notCanonical, field, lacksUniqueList_iff, not_not]
    constructor
    · rintro ⟨chosen, isField, _⟩
      have areStrings : alike = chosen.map .string := Value.array.inj (Option.some.inj isField)
      have isListed : one ∈ chosen.map .string := by
        rw [← areStrings]
        exact List.mem_cons_self
      simp [one] at isListed
    · refine ⟨alike, rfl, List.cons_ne_nil _ _, ?_⟩
      simp only [alike, one, List.pairwise_cons, List.forall_mem_cons, List.not_mem_nil,
        IsEmpty.forall_iff, implies_true, List.Pairwise.nil, and_true]
      have noTextIsTruth : ¬ Value.Same (.bool true) (.string "1") := by
        rintro ⟨⟩
      exact ⟨⟨notDouble _ _ _, notTruth _ _, fun same => notNumber _ _ same.symm⟩,
        ⟨notTruth _ _, fun same => notNumber _ _ same.symm⟩, noTextIsTruth⟩
  · obtain ⟨added, isAdded, _, notUnique, _⟩ := messages (sourceOf twice) .empty
    have isReported : errorsOf twice = added := isAdded
    rw [isReported, notUnique]
    exact .inr (.inr (.inr ⟨twice, field twice, repeats⟩))
  · have otherKey {key other : String} {value otherValue : Value} (isOther : other ≠ key) :
        Record.get? [(key, value)] other = Record.get? [(key, otherValue)] other := by
      rw [Record.get?_cons, Record.get?_cons, if_neg isOther, if_neg isOther]
    have moved : SourcePermuted (.object (sourceOf names)) (.object (sourceOf names.reverse)) :=
      .members (field _) (field _) (.array names.reverse_perm.symm) fun _ => otherKey
    apply verdicts
    refine .members ?_ ?_ moved fun _ => otherKey
    · rw [Record.get?_cons, if_pos rfl]
    · rw [Record.get?_cons, if_pos rfl]

end Provenance
