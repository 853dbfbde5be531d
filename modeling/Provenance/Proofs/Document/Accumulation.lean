import Mathlib
import Provenance.Proofs.Document.Scan

/-!
# Collecting findings

Findings are collected in a few kinds of steps, which may be taken in any order and
any number of times.  A step leaves the errors that were there and adds its own
behind them, whatever they are (`Step.errors_apply`), and what it adds and how it
comes out depend on the step alone (`Step.effect_eq`).  So the errors of a run are
one block for each step, in the order of the steps (`run_accumulates`), and the
errors of a document are those of such a run (`errors_verify_eq_run`).
-/

namespace Provenance

open Json

namespace Findings

/-- One way to go on collecting. -/
inductive Step where
  /-- Add a finding. -/
  | push (finding : Finding)
  /-- Add the keys that a record lacks. -/
  | requireKeys (record : Record) (keys : List String) (path : String)
  /-- Add what a record breaks as a section. -/
  | check (which : Section) (record : Record)
  /-- Compare the declared with the computed hash of some sections. -/
  | compareHashes (sections : Sections)

/-- What is seen of a step: the errors behind those that were there before, and how
the hashes compare if the step compares them. -/
structure Effect where
  added : List String
  outcome : Option ReplayIdentity

namespace Step

/-- Take a step. -/
def apply : Step → Findings → Option ReplayIdentity × Findings
  | push finding, findings => (none, findings.push finding)
  | requireKeys record keys path, findings => (none, findings.requireKeys record keys path)
  | check which record, findings => (none, which.check record findings)
  | compareHashes sections, findings =>
      let (identity, findings) := sections.checkIdentity findings
      (some identity, findings)

/-- The effect of a step on some findings. -/
def effect (step : Step) (findings : Findings) : Effect where
  -- What is dropped are the errors of `findings`, by `errors_apply`.
  added := (step.apply findings).2.errors.drop findings.errors.length
  outcome := (step.apply findings).1

/-- The messages of a step. -/
def messages : Step → List String
  | push finding => [finding.message]
  | requireKeys record keys path => Rule.messages (keys.map (Rule.present path)) record
  | check which record => Rule.messages which.allRules record
  | compareHashes sections => sections.identityMessages

/-- The outcome of a step. -/
def outcome : Step → Option ReplayIdentity
  | compareHashes sections => some sections.identity
  | _ => none

/-- A step adds its messages behind the errors that were there. -/
theorem errors_apply (step : Step) (findings : Findings) :
    (step.apply findings).2.errors = findings.errors ++ step.messages := by
  cases step with
  | push finding => exact List.map_append
  | requireKeys record keys path => exact findings.errors_requireKeys record keys path
  | check which record => exact which.errors_check record findings
  | compareHashes sections => exact sections.errors_checkIdentity findings

theorem apply_fst (step : Step) (findings : Findings) :
    (step.apply findings).1 = step.outcome := by
  cases step with
  | compareHashes sections => exact congrArg some (sections.checkIdentity_fst findings)
  | _ => rfl

/-- The effect of a step is the same on all findings. -/
theorem effect_eq (step : Step) (findings : Findings) :
    step.effect findings = ⟨step.messages, step.outcome⟩ := by
  rw [effect, errors_apply, apply_fst, List.drop_left]

/-- On no findings, the errors are the messages of the step. -/
theorem errors_apply_empty (step : Step) : (step.apply .empty).2.errors = step.messages :=
  errors_apply step .empty

/-- The effect that a step must have, stated on what it is given and not on what was
found before: a key is reported as often as it is asked for, and a clause of a
section once. -/
inductive Gives : Step → Effect → Prop where
  | push (finding : Finding) : Gives (.push finding) ⟨[finding.message], none⟩
  | requireKeys {record : Record} {keys : List String} {path : String} {errors : List String} :
      Reports (.object record) ((keys.map (.present path)).map .ofRoot) errors →
      Gives (.requireKeys record keys path) ⟨errors, none⟩
  | check {which : Section} {record : Record} {errors : List String} :
      Reports (.object record) (which.clauses.map .ofRoot) errors →
      Gives (.check which record) ⟨errors, none⟩
  | matched {sections : Sections} {replay : Record} {key : ProjectionKey} :
      sections.replay = some replay → sections.projectionKey? = some key →
      Field.IsText key.hash (replay.get? "hash_projection") →
      Gives (.compareHashes sections) ⟨[], some (.matched key.hash)⟩
  | mismatched {sections : Sections} {replay : Record} {key : ProjectionKey} :
      sections.replay = some replay → sections.projectionKey? = some key →
      ¬ Field.IsText key.hash (replay.get? "hash_projection") →
      Gives (.compareHashes sections) ⟨[Requirement.identity.message],
        some (.mismatched key.hash ((replay.get? "hash_projection").bind Value.string?))⟩
  | undetermined {sections : Sections} :
      sections.replay = none ∨ sections.projectionKey? = none →
      Gives (.compareHashes sections) ⟨[], some .undetermined⟩

/-- The hashes compare as the fields say. -/
theorem gives_compareHashes (sections : Sections) :
    Gives (.compareHashes sections) ⟨sections.identityMessages, some sections.identity⟩ := by
  by_cases incomplete : sections.replay = none ∨ sections.projectionKey? = none
  · rw [Sections.identityMessages, Sections.identity_eq_undetermined incomplete]
    exact .undetermined incomplete
  · obtain ⟨isReplay, isKey⟩ := not_or.mp incomplete
    obtain ⟨replay, hasReplay⟩ := Option.ne_none_iff_exists'.mp isReplay
    obtain ⟨key, hasKey⟩ := Option.ne_none_iff_exists'.mp isKey
    rw [Sections.identityMessages, Sections.identity_eq hasReplay hasKey]
    by_cases isHash : Field.IsText key.hash (replay.get? "hash_projection")
    · rw [if_pos (Sections.declared_eq_iff.mpr isHash)]
      exact .matched hasReplay hasKey isHash
    · rw [if_neg (mt Sections.declared_eq_iff.mp isHash)]
      exact .mismatched hasReplay hasKey isHash

/-- A step has the effect that it must have. -/
theorem gives_effect (step : Step) (findings : Findings) : Gives step (step.effect findings) := by
  rw [effect_eq]
  cases step with
  | push finding => exact .push finding
  | requireKeys record keys path =>
      exact .requireKeys (Rule.reports_messages (Rule.map_present_decides path keys)
        (fun _ => rfl) (fun _ => Iff.rfl))
  | check which record => exact .check (which.reports_record record)
  | compareHashes sections => exact gives_compareHashes sections

end Step

/-! ## Runs -/

/-- Take steps in order: the effect of each, on what it found, and the findings behind
the last. -/
def run (findings : Findings) : List Step → List Effect × Findings
  | [] => ([], findings)
  | step :: steps =>
      let (effects, last) := run (step.apply findings).2 steps
      (step.effect findings :: effects, last)

theorem run_cons (findings : Findings) (step : Step) (steps : List Step) :
    findings.run (step :: steps) =
      (step.effect findings :: ((step.apply findings).2.run steps).1,
        ((step.apply findings).2.run steps).2) :=
  rfl

theorem errors_run (findings : Findings) (steps : List Step) :
    (findings.run steps).2.errors = findings.errors ++ steps.flatMap Step.messages := by
  -- The rest of a run starts from what its first step left, so the findings must vary.
  induction steps generalizing findings with
  | nil => exact (List.append_nil _).symm
  | cons step steps ih =>
      rw [run_cons, ih, step.errors_apply, List.append_assoc, ← List.flatMap_cons]

theorem effects_run (findings : Findings) (steps : List Step) :
    (findings.run steps).1 = steps.map fun step => ⟨step.messages, step.outcome⟩ := by
  induction steps generalizing findings with
  | nil => rfl
  | cons step steps ih => rw [run_cons, ih, step.effect_eq, List.map_cons]

/-- What a step adds in a run is the same at every place. -/
theorem flatMap_added_run (findings : Findings) (steps : List Step) :
    (findings.run steps).1.flatMap Effect.added = steps.flatMap Step.messages := by
  rw [effects_run, List.flatMap_map]

/-- Every step of a run has the effect that it must have. -/
theorem gives_run (findings : Findings) (steps : List Step) :
    List.Forall₂ Step.Gives steps (findings.run steps).1 := by
  induction steps generalizing findings with
  | nil => exact .nil
  | cons step steps ih => exact .cons (step.gives_effect findings) (ih _)

/-- The errors in front of a later step are still there behind it, in front of all
that came later. -/
theorem errors_run_take_prefix (findings : Findings) (steps : List Step) (count : Nat) :
    (findings.run (steps.take count)).2.errors <+: (findings.run steps).2.errors := by
  rw [errors_run, errors_run, List.prefix_append_right_inj]
  exact (List.take_prefix count steps).flatMap Step.messages

/-- Steps in another order keep their effects. -/
theorem zip_run_perm (findings : Findings) {steps others : List Step}
    (reordered : steps.Perm others) :
    (steps.zip (findings.run steps).1).Perm (others.zip (findings.run others).1) := by
  rw [effects_run, effects_run, ← List.map_prod_left_eq_zip, ← List.map_prod_left_eq_zip]
  exact reordered.map _

/-- The steps of a verification: the markers that are wrong, the sections that are
missing, the sections that are records, and the hashes. -/
def Step.ofDocument (document : Value) : List Step :=
  let root := rootOf document
  let sections := Sections.ofDocument document
  -- A marker has a rule but no section, so its finding is pushed by itself.
  ((rootRules.filter fun rule => !rule.holds root).map fun rule => .push rule.finding) ++
    [.requireKeys root (Vocabulary.names Section) "root"] ++
    ((Vocabulary.all : List Section).filterMap fun which =>
      (sections.get which).map (.check which)) ++
    [.compareHashes sections]

/-- The rules that a record breaks, one by one, add their messages. -/
theorem flatMap_messages_push (rules : List Rule) (record : Record) :
    ((rules.filter fun rule => !rule.holds record).map fun rule =>
        Step.push rule.finding).flatMap Step.messages = Rule.messages rules record := by
  rw [List.flatMap_map, Rule.messages, List.map_eq_flatMap]
  rfl

/-- The sections that are records add their messages. -/
theorem flatMap_messages_check (sections : Sections) (names : List Section) :
    (names.filterMap fun which => (sections.get which).map (Step.check which)).flatMap
        Step.messages =
      names.flatMap sections.messages := by
  induction names with
  | nil => rfl
  | cons which names ih =>
      rw [List.flatMap_cons, ← ih, Sections.messages]
      cases found : sections.get which with
      | none => rw [List.filterMap_cons_none (by rw [found]; rfl), List.nil_append]
      | some record =>
          rw [List.filterMap_cons_some (by rw [found]; rfl), List.flatMap_cons]
          rfl

/-- The hashes are compared in the last step only. -/
theorem filterMap_outcome_ofDocument (document : Value) :
    (Step.ofDocument document).filterMap Step.outcome =
      [(Sections.ofDocument document).identity] := by
  have pushes (broken : List Rule) :
      (broken.map fun rule => Step.push rule.finding).filterMap Step.outcome = [] := by
    rw [List.filterMap_map]
    exact List.filterMap_none broken
  have checks (sections : Sections) (names : List Section) :
      (names.filterMap fun which => (sections.get which).map (Step.check which)).filterMap
        Step.outcome = [] := by
    rw [List.filterMap_eq_nil_iff]
    intro step isStep
    obtain ⟨which, _, isCheck⟩ := List.mem_filterMap.mp isStep
    obtain ⟨record, _, rfl⟩ := Option.map_eq_some_iff.mp isCheck
    rfl
  rw [Step.ofDocument, List.filterMap_append, List.filterMap_append, List.filterMap_append,
    pushes, checks]
  rfl

/-- A verification is a run: its errors are those of the run, and it compares the
hashes once. -/
theorem errors_verify_eq_run (document : Value) :
    (verify document).errors = (empty.run (Step.ofDocument document)).2.errors ∧
      (empty.run (Step.ofDocument document)).1.filterMap Effect.outcome =
        [(audit document).identity] := by
  constructor
  · rw [errors_run, errors_verify, Sections.errors_scan, Step.ofDocument]
    simp only [List.flatMap_append, flatMap_messages_push, flatMap_messages_check,
      Rule.messages_append, Vocabulary.all, List.flatMap_cons, List.flatMap_nil,
      List.append_nil, List.append_assoc]
    rfl
  · have identity : (audit document).identity = (Sections.ofDocument document).identity :=
      Sections.checkIdentity_fst _ _
    rw [effects_run, List.filterMap_map, identity]
    exact filterMap_outcome_ofDocument document

/-- A run leaves the errors that were there and adds to them, in the order of the
steps, what each of its steps adds to no findings; and the hashes compare as they do
with no findings.  What that is follows from the step alone.  So no error is ever
removed, moved or changed by later steps, and steps in another order keep their
effects, which only change places with them. -/
theorem run_accumulates (findings : Findings) (steps : List Step) :
    (findings.run steps).2.errors =
        findings.errors ++ steps.flatMap (fun step => (step.apply .empty).2.errors) ∧
      (findings.run steps).1 =
        steps.map (fun step => ⟨(step.apply .empty).2.errors, (step.apply .empty).1⟩) ∧
      List.Forall₂ Step.Gives steps (findings.run steps).1 ∧
      (∀ count, (findings.run (steps.take count)).2.errors <+: (findings.run steps).2.errors) ∧
      ∀ others, steps.Perm others →
        (steps.zip (findings.run steps).1).Perm (others.zip (findings.run others).1) ∧
          (findings.run others).2.errors =
            findings.errors ++ (findings.run others).1.flatMap Effect.added := by
  simp only [Step.errors_apply_empty, Step.apply_fst]
  refine ⟨errors_run findings steps, effects_run findings steps, gives_run findings steps,
    errors_run_take_prefix findings steps, fun others reordered => ⟨?_, ?_⟩⟩
  · exact zip_run_perm findings reordered
  · rw [errors_run, flatMap_added_run]

/-- Four steps behind an error, and the same steps in the opposite order: a key that is
asked for twice, hashes that differ, and a proof surface that lacks two keys. -/
theorem run_accumulates_reversed :
    let findings : Findings := ⟨[.remark "first"]⟩
    let sections : Sections :=
      { source := some [("collapse_result_hash", .null)]
        projection := some [("mode", .null), ("layout", .null), ("styling", .null)]
        replay := some []
        proofSurface := none }
    let steps : List Step :=
      [.push (.remark "second"), .requireKeys [("a", .null)] ["b", "a", "b"] "p",
        .compareHashes sections, .check .proofSurface [("show_entropy", .null)]]
    let blocks : List (List String) :=
      [["second"], ["p.b: missing", "p.b: missing"],
        ["replay.hash_projection does not match deterministic projection hash"],
        ["proof_surface.show_invariants: missing",
          "proof_surface.show_compression_ratio: missing"]]
    steps.Perm steps.reverse ∧
      (findings.run steps).2.errors = "first" :: blocks.flatten ∧
      (findings.run steps.reverse).2.errors = "first" :: blocks.reverse.flatten ∧
      (steps.zip (findings.run steps).1).Perm
        (steps.reverse.zip (findings.run steps.reverse).1) := by
  intro findings sections steps blocks
  have reordered : steps.Perm steps.reverse := steps.reverse_perm.symm
  have added : steps.map (fun step => (step.apply .empty).2.errors) = blocks := by
    decide
  obtain ⟨errors, _, _, _, anyOrder⟩ := run_accumulates findings steps
  obtain ⟨errorsReversed, _⟩ := run_accumulates findings steps.reverse
  refine ⟨reordered, ?_, ?_, (anyOrder _ reordered).1⟩
  · rw [errors, List.flatMap_def, added]
    rfl
  · rw [errorsReversed, List.flatMap_def, List.map_reverse, added]
    rfl

end Findings

end Provenance
