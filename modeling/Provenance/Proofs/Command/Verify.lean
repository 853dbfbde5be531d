import Mathlib
import Provenance.Proofs.Command.Hash
import Provenance.Proofs.Command.Lines

/-!
# Inputs without a document

A verdict on an input that never became a document is told from its only error,
and so are the exit code and the warning of a verification.  Every failure of
reading has a class that is recognized, and no error about a document begins like
one, so both are right: a verification exits with two and warns exactly when
there is no document (`exists_isWarning_iff`).  Nothing that a document holds
adds a warning to the log, since every event about a document takes one line.
-/

namespace Provenance

open Json

/-- The verdict on bytes is that on the document that they spell, or says why
they spell none. -/
theorem verifyBytes_eq (bytes : List UInt8) :
    verifyBytes bytes =
      match documentOfBytes bytes with
      | .error failure => .ofInputFailure failure
      | .ok document => verify document := by
  rw [verifyBytes, documentOfBytes]
  cases Value.ofBytes bytes with
  | error error => rfl
  | ok document => rfl

/-- Bytes that spell no document fail with a class that is recognized. -/
theorem failureClass_mem_of_documentOfBytes {bytes : List UInt8} {failure : InputFailure}
    (failed : documentOfBytes bytes = .error failure) :
    failure.failureClass ∈ InputFailure.inputDefectClasses :=
  @Command.failureClass_mem_of_loadDocument (fun _ => .ok bytes) "" failure failed

theorem isInputDefect_verifyBytes_iff (bytes : List UInt8) :
    (verifyBytes bytes).isInputDefect = true ↔
      ∃ failure, documentOfBytes bytes = .error failure := by
  rw [verifyBytes_eq]
  cases spelled : documentOfBytes bytes with
  | error failure =>
      exact iff_of_true (Verdict.isInputDefect_ofInputFailure
        (failureClass_mem_of_documentOfBytes spelled)) ⟨failure, rfl⟩
  | ok document =>
      refine iff_of_false ?_ (by simp)
      dsimp only
      rw [isInputDefect_verify]
      exact Bool.false_ne_true

namespace Command

/-! ## The log -/

/-- The line reports a warning. -/
def IsWarning (line : String) : Prop :=
  Level.warn.label.toList <+: line.toList

theorem isWarning_line_iff (event : Event) : IsWarning event.line ↔ event.level = .warn := by
  have sameWidth : Level.warn.label.toList.length = event.level.label.toList.length := by
    cases event.level <;> simp [Level.label]
  have begins : event.level.label.toList <+: event.line.toList := by
    rw [Event.line, String.toList_append, String.toList_append, List.append_assoc]
    exact List.prefix_append _ _
  constructor
  · intro isWarning
    have sameLabel := (List.prefix_of_prefix_length_le isWarning begins sameWidth.le).eq_of_length
      sameWidth
    revert sameLabel
    cases event.level <;> simp [Level.label]
  · intro isWarn
    rwa [isWarn] at begins

/-- The hash that the identity check expects is one line. -/
theorem isLine_expectedHash? {document : Value} {hash : String}
    (isHash : (Sections.ofDocument document).identity.expectedHash? = some hash) :
    IsLine hash := by
  cases hasReplay : (Sections.ofDocument document).replay with
  | none =>
      rw [Sections.identity, hasReplay] at isHash
      contradiction
  | some replay =>
      rw [Sections.expectedHash?_identity hasReplay] at isHash
      obtain ⟨key, _, rfl⟩ := Option.map_eq_some_iff.mp isHash
      exact isLine_hash key

theorem isLine_line {event : Event} (isLine : IsLine event.message) : IsLine event.line := by
  have label : IsLine event.level.label := by
    cases event.level <;> decide
  rw [Event.line, isLine_append, isLine_append]
  exact ⟨⟨label, by decide⟩, isLine⟩

theorem isLine_scanned (structural : Nat) : IsLine (Event.scanned structural).message :=
  isLine_append.mpr ⟨by decide, isLine_toString_nat structural⟩

/-- What is declared may be anything: it is shown with its texts quoted. -/
theorem isLine_hashMismatch {expected : String} (isLine : IsLine expected)
    (declared : Option Value) : IsLine (Event.hashMismatch expected declared).message := by
  have upToHash := isLine_append.mpr
    ⟨show IsLine "projection hash mismatch expected=" by decide, isLine⟩
  have upToLabel := isLine_append.mpr ⟨upToHash, show IsLine " declared=" by decide⟩
  exact isLine_append.mpr ⟨upToLabel, isLine_inspect? declared⟩

theorem isLine_reached (passed : Bool) (errors : Nat) (hash : Option String) :
    IsLine (Event.reached passed errors hash).message := by
  have upToPassed := isLine_append.mpr
    ⟨show IsLine "k-ux verdict passed=" by decide, isLine_toString_bool passed⟩
  have upToLabel := isLine_append.mpr ⟨upToPassed, show IsLine " errors=" by decide⟩
  have upToErrors := isLine_append.mpr ⟨upToLabel, isLine_toString_nat errors⟩
  cases hash with
  | none => exact isLine_append.mpr ⟨upToErrors, by decide⟩
  | some hash =>
      have shown := isLine_append.mpr
        ⟨show IsLine " projection_hash=" by decide, isLine_encode hash⟩
      exact isLine_append.mpr ⟨upToErrors, shown⟩

/-- Every event about a document takes one line and is no warning. -/
theorem isLine_of_mem_events (document : Value) : ∀ event ∈ events (audit document),
    IsLine event.line ∧ event.level ≠ .warn := by
  have outcome : (audit document).identity = (Sections.ofDocument document).identity :=
    Sections.checkIdentity_fst _ _
  have mismatch : ∀ expected declared,
      (Sections.ofDocument document).identity = .mismatched expected declared →
        IsLine expected := by
    intro expected declared isMismatched
    apply @isLine_expectedHash? document
    rw [isMismatched]
    rfl
  rw [events, List.cons_append, List.forall_mem_cons, List.forall_mem_append,
    List.forall_mem_singleton, outcome]
  refine ⟨⟨isLine_line (isLine_scanned _), Level.noConfusion⟩, ?_,
    isLine_line (isLine_reached _ _ _), Level.noConfusion⟩
  split
  · rename_i expected declared isMismatched
    rw [List.forall_mem_singleton]
    exact ⟨isLine_line (isLine_hashMismatch (mismatch _ _ isMismatched) _), Level.noConfusion⟩
  · exact List.forall_mem_nil _

theorem line_skipped (path : String) :
    (Event.skipped path).line =
      " WARN input unreadable or not JSON; verifier skipped document=" ++ path := by
  change " WARN" ++ " " ++ ("input unreadable or not JSON; verifier skipped document=" ++ path) = _
  rw [← String.append_assoc]
  rfl

/-- The warning is found as a line, whatever the path is. -/
theorem exists_isWarning_skipped (path : String) :
    ∃ line ∈ lines (unlines [(Event.skipped path).line]), IsWarning line := by
  -- The first line of the path ends the line of the warning.
  obtain ⟨first, rest, areLines, isPath⟩ := exists_unlines path
  obtain ⟨firstIsLine, restAreLines⟩ := List.forall_mem_cons.mp areLines
  have written : unlines [(Event.skipped path).line] =
      unlines ((Event.skipped first).line :: rest) := by
    rw [unlines_cons] at isPath
    rw [unlines_singleton, unlines_cons, line_skipped, line_skipped, String.append_assoc, isPath]
    simp only [String.append_assoc]
  have isLine : IsLine (Event.skipped first).line :=
    isLine_line (isLine_append.mpr ⟨by decide, firstIsLine⟩)
  rw [written, lines_unlines (List.forall_mem_cons.mpr ⟨isLine, restAreLines⟩)]
  exact ⟨_, List.mem_cons_self, (isWarning_line_iff _).mpr rfl⟩

/-- There is no document: the file cannot be read, or what it holds is no JSON
text. -/
def NoDocument (files : Files) (path : String) : Prop :=
  (∃ cause, files path = .error cause) ∨
    ∃ bytes failure, files path = .ok bytes ∧ documentOfBytes bytes = .error failure

/-- The file holds a document. -/
def Holds (files : Files) (path : String) (document : Value) : Prop :=
  ∃ bytes, files path = .ok bytes ∧ documentOfBytes bytes = .ok document

section Runs

variable (files : Files) (path : String) (json : Bool) (verbosity : Nat)

theorem loadDocument_eq :
    loadDocument files path =
      match files path with
      | .error cause => .error (.unreadable path cause)
      | .ok bytes => documentOfBytes bytes := by
  rw [loadDocument, readDocument]
  cases files path <;> rfl

theorem noDocument_iff :
    NoDocument files path ↔ ∃ failure, loadDocument files path = .error failure := by
  rw [NoDocument, loadDocument_eq]
  cases files path with
  | error cause => simp
  | ok bytes => simp

theorem holds_iff {document : Value} :
    Holds files path document ↔ loadDocument files path = .ok document := by
  rw [Holds, loadDocument_eq]
  cases files path with
  | error cause => simp
  | ok bytes => simp

variable {files path}

/-- Without a document, a verification prints the failure as its only error, and
all that it logs is a warning. -/
theorem runVerify_of_failure {failure : InputFailure}
    (failed : loadDocument files path = .error failure) :
    runVerify files path json verbosity =
      let verdict := Verdict.ofInputFailure failure
      { exit := 2
        stdout := unlines (if json then [verdict.toValue.pretty] else summary path verdict)
        stderr := unlines [(Event.skipped path).line] } := by
  have isDefect := Verdict.isInputDefect_ofInputFailure (failureClass_mem_of_loadDocument failed)
  have isShown : (Event.skipped path).isShown verbosity = true :=
    decide_eq_true (Nat.zero_le verbosity)
  rw [runVerify, examine_eq, failed]
  simp [exitCode, isDefect, isShown]

/-- With a document, a verification prints its verdict and logs the events of its
audit. -/
theorem runVerify_of_document {document : Value}
    (loaded : loadDocument files path = .ok document) :
    runVerify files path json verbosity =
      let verdict := verify document
      { exit := if verdict.passed then 0 else 1
        stdout := unlines (if json then [verdict.toValue.pretty] else summary path verdict)
        stderr := unlines
          (((events (audit document)).filter (·.isShown verbosity)).map Event.line) } := by
  rw [runVerify, examine_eq, loaded]
  simp only [exitCode, isInputDefect_verify, Verdict.isConformant, Bool.false_eq_true, if_false]
  rfl

/-- What is logged about a document has no warning among its lines. -/
theorem not_isWarning_of_document {document : Value}
    (loaded : loadDocument files path = .ok document) :
    ∀ line ∈ lines (runVerify files path json verbosity).stderr, ¬ IsWarning line := by
  have areEvents : ∀ line ∈ ((events (audit document)).filter (·.isShown verbosity)).map
      Event.line, IsLine line ∧ ¬ IsWarning line := by
    intro line isMember
    obtain ⟨event, isShown, rfl⟩ := List.mem_map.mp isMember
    obtain ⟨isLine, notWarn⟩ :=
      isLine_of_mem_events document event (List.mem_filter.mp isShown).1
    exact ⟨isLine, fun isWarning => notWarn ((isWarning_line_iff event).mp isWarning)⟩
  rw [runVerify_of_document json verbosity loaded]
  dsimp only
  rw [lines_unlines fun line isMember => (areEvents line isMember).1]
  exact fun line isMember => (areEvents line isMember).2

/-- There is a warning in the log exactly without a document. -/
theorem exists_isWarning_iff :
    (∃ line ∈ lines (runVerify files path json verbosity).stderr, IsWarning line) ↔
      NoDocument files path := by
  rw [noDocument_iff]
  cases loaded : loadDocument files path with
  | error failure =>
      rw [runVerify_of_failure json verbosity loaded]
      exact iff_of_true (exists_isWarning_skipped path) ⟨failure, rfl⟩
  | ok document =>
      refine iff_of_false ?_ (by simp)
      rintro ⟨line, isLine, isWarning⟩
      exact not_isWarning_of_document json verbosity loaded line isLine isWarning

/-- The log is the warning exactly without a document. -/
theorem stderr_runVerify_eq_iff :
    (runVerify files path json verbosity).stderr = (Event.skipped path).line ++ "\n" ↔
      NoDocument files path := by
  rw [← unlines_singleton]
  constructor
  · intro isWarning
    apply (exists_isWarning_iff json verbosity).mp
    rw [isWarning]
    exact exists_isWarning_skipped path
  · intro isNone
    obtain ⟨failure, failed⟩ := (noDocument_iff files path).mp isNone
    rw [runVerify_of_failure json verbosity failed]

/-- The exit code of a verification of a document says whether it passes. -/
theorem exit_runVerify_eq_iff (passed : Bool) :
    ((runVerify files path json verbosity).exit = if passed then 0 else 1) ↔
      ∃ document, Holds files path document ∧ (verify document).passed = passed := by
  simp only [holds_iff]
  cases loaded : loadDocument files path with
  | error failure =>
      rw [runVerify_of_failure json verbosity loaded]
      refine iff_of_false ?_ (by simp)
      dsimp only
      cases passed <;> decide
  | ok document =>
      rw [runVerify_of_document json verbosity loaded]
      simp only [Except.ok.injEq, exists_eq_left']
      cases (verify document).passed <;> cases passed <;> decide

end Runs

end Command

/-- Inputs that never become documents and documents with defects are told apart.
The verdict on bytes is an input defect exactly when they spell no document; it
then has every predicate false and the text of the failure as its only error, and
otherwise it is the verdict on the document.  So a verification of a file, in both
output modes and at every verbosity, exits with two and warns exactly when there
is no document, with zero exactly when the document passes, and else with one. -/
theorem inputDefects_told_apart :
    (∀ bytes,
      ((verifyBytes bytes).isInputDefect = true ↔
        ∃ failure, documentOfBytes bytes = .error failure) ∧
      match documentOfBytes bytes with
      | .error failure =>
          verifyBytes bytes = .ofInputFailure failure ∧
            verifyBytes bytes =
              { deterministicProjection := false, entropyValid := false
                errors := [failure.message], passed := false
                replayIdentityValid := false, schemaValid := false }
      | .ok document => verifyBytes bytes = verify document) ∧
    ∀ files path json verbosity,
      let outcome := Command.runVerify files path json verbosity
      (outcome.exit = 2 ↔ Command.NoDocument files path) ∧
        ((∃ line ∈ Command.lines outcome.stderr, Command.IsWarning line) ↔
          Command.NoDocument files path) ∧
        (outcome.stderr =
            " WARN input unreadable or not JSON; verifier skipped document=" ++ path ++ "\n" ↔
          Command.NoDocument files path) ∧
        (outcome.exit = 0 ↔
          ∃ document, Command.Holds files path document ∧ (verify document).passed = true) ∧
        (outcome.exit = 1 ↔
          ∃ document, Command.Holds files path document ∧ (verify document).passed = false) := by
  refine ⟨fun bytes => ⟨isInputDefect_verifyBytes_iff bytes, ?_⟩, ?_⟩
  · rw [verifyBytes_eq]
    cases documentOfBytes bytes with
    | error failure => exact ⟨rfl, rfl⟩
    | ok document => rfl
  · intro files path json verbosity outcome
    refine ⟨?_, Command.exists_isWarning_iff json verbosity, ?_,
      Command.exit_runVerify_eq_iff json verbosity true,
      Command.exit_runVerify_eq_iff json verbosity false⟩
    · rw [Command.noDocument_iff]
      exact Command.exit_runVerify_eq_two_iff json verbosity
    · rw [← Command.line_skipped]
      exact Command.stderr_runVerify_eq_iff json verbosity

end Provenance
