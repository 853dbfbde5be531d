import Mathlib
import Provenance.Proofs.Json.Record
import Provenance.Proofs.Json.RoundTrip
import Provenance.Proofs.Verdict.Passing

/-!
# The printed hash and the verification

The command that prints a hash and the verification take the parts of the
projection key out of a document in two ways: one follows the keys, the other
reads whole sections, an absent one as an empty record.  Both find the same key
(`hashReport?_eq`).  They differ in one thing only: the identity is not checked
in a document whose replay is no object, while its hash is printed.

An input that never becomes a document fails both commands in the same way, and
no document is taken for such an input, since no error of the catalogue begins
with the class of an input failure (`isInputDefect_verify`).
-/

namespace Provenance

open Json
open Text.Utf8 (encode)

/-- The document without its replay, if that is present but no object. -/
def eraseNonRecordReplay : Value → Value
  | .object root =>
      match Record.get? root "replay" with
      | none | some (.object _) => .object root
      | some _ => .object (Record.erase "replay" root)
  | document => document

/-- No other section is touched. -/
theorem get?_eraseNonRecordReplay_of_ne (document : Value) {name : String}
    (other : name ≠ "replay") :
    (rootOf (eraseNonRecordReplay document)).get? name = (rootOf document).get? name := by
  cases document with
  | object root =>
      rw [eraseNonRecordReplay]
      split
      · rfl
      · rfl
      · exact (Record.get?_erase "replay" root name).trans (if_neg other)
  | _ => rfl

/-- The replay is read as a record then. -/
theorem exists_hasSection_eraseNonRecordReplay (document : Value) :
    ∃ replay, HasSection (eraseNonRecordReplay document) "replay" replay := by
  cases document with
  | object root =>
      rw [eraseNonRecordReplay]
      split
      · rename_i isAbsent
        exact ⟨[], .inr ⟨isAbsent, rfl⟩⟩
      · rename_i replay isRecord
        exact ⟨replay, .inl isRecord⟩
      · exact ⟨[], .inr ⟨Record.get?_erase "replay" root "replay", rfl⟩⟩
  | _ => exact ⟨[], .inr ⟨rfl, rfl⟩⟩

namespace ReplayIdentity

theorem expectedHash?_eq_none_iff {outcome : ReplayIdentity} :
    outcome.expectedHash? = none ↔ outcome = undetermined := by
  cases outcome with
  | matched hash => exact iff_of_false (Option.some_ne_none hash) (by simp)
  | mismatched expected declared => exact iff_of_false (Option.some_ne_none expected) (by simp)
  | undetermined => exact iff_of_true rfl rfl

end ReplayIdentity

namespace Sections

/-- With a replay, the hash of the key is expected. -/
theorem expectedHash?_identity {sections : Sections} {replay : Record}
    (hasReplay : sections.replay = some replay) :
    sections.identity.expectedHash? = sections.projectionKey?.map ProjectionKey.hash := by
  cases isKey : sections.projectionKey? with
  | none =>
      simp only [identity, hasReplay, isKey]
      rfl
  | some key =>
      simp only [identity, hasReplay, isKey, Option.map_some]
      split <;> rfl

/-- The identity is valid exactly when the declared hash is that of the key. -/
theorem identity_isValid_eq {sections : Sections} {key : ProjectionKey}
    (isKey : sections.projectionKey? = some key) :
    sections.identity.isValid = (sections.declaredHash?.bind Value.string? == some key.hash) := by
  cases hasReplay : sections.replay with
  | none =>
      simp only [identity, declaredHash?, hasReplay]
      rfl
  | some replay =>
      simp only [identity, hasReplay, isKey]
      split
      · rename_i same
        rw [same, beq_self_eq_true]
        rfl
      · rename_i different
        rw [beq_false_of_ne different]
        rfl

/-- Following the key of a section to a part that an empty record lacks finds what
the section that is read has. -/
theorem bind_get?_ofDocument {α : Type} {part : Record → Option α} (lacking : part [] = none)
    (document : Value) (which : Section) :
    (document.get? which.key).bind (fun value => value.record?.bind part) =
      ((ofDocument document).get which).bind part := by
  have isGet : document.get? which.key = (rootOf document).get? which.key := by
    cases document <;> rfl
  rw [isGet, get_ofDocument, read]
  cases (rootOf document).get? which.key with
  | none => exact lacking.symm
  | some value => rfl

/-- Only the replay can change, so the key does not. -/
theorem projectionKey?_eraseNonRecordReplay (document : Value) :
    (ofDocument (eraseNonRecordReplay document)).projectionKey? =
      (ofDocument document).projectionKey? := by
  have same {which : Section} (other : which.key ≠ "replay") :
      read (rootOf (eraseNonRecordReplay document)) which = read (rootOf document) which := by
    rw [read, read, get?_eraseNonRecordReplay_of_ne document other]
  simp only [projectionKey?, ofDocument]
  rw [same (by decide), same (by decide)]

/-- Without a replay that is no object, the check expects the hash of the key. -/
theorem expectedHash?_eraseNonRecordReplay (document : Value) :
    (ofDocument (eraseNonRecordReplay document)).identity.expectedHash? =
      (ofDocument document).projectionKey?.map ProjectionKey.hash := by
  obtain ⟨replay, isReplay⟩ := exists_hasSection_eraseNonRecordReplay document
  have hasReplay : (ofDocument (eraseNonRecordReplay document)).replay = some replay :=
    (@get_ofDocument_eq_some_iff _ .replay replay).mpr isReplay
  rw [expectedHash?_identity hasReplay, projectionKey?_eraseNonRecordReplay]

end Sections

/-! ## The report on a document -/

/-- The key of the sections, the result hash first. -/
theorem Sections.projectionKey?_eq (sections : Sections) :
    sections.projectionKey? =
      (sections.source.bind (·.get? "collapse_result_hash")).bind fun hash =>
        sections.projection.bind (ProjectionKey.ofProjection? hash) := by
  ext key
  simp only [projectionKey?_eq_some_iff, Option.bind_eq_some_iff]
  constructor
  · rintro ⟨source, projection, hash, hasSource, hasProjection, hasHash, isKey⟩
    exact ⟨hash, ⟨source, hasSource, hasHash⟩, projection, hasProjection, isKey⟩
  · rintro ⟨hash, ⟨source, hasSource, hasHash⟩, projection, hasProjection, isKey⟩
    exact ⟨source, projection, hash, hasSource, hasProjection, hasHash, isKey⟩

namespace Command

/-- Following the keys finds the projection key of the sections and the hash that
their replay declares. -/
theorem hashReport?_eq (document : Value) :
    hashReport? document = (Sections.ofDocument document).projectionKey?.map fun key =>
      ⟨key.hash, (Sections.ofDocument document).declaredHash?.bind Value.string?⟩ := by
  let report (key : ProjectionKey) : HashReport :=
    ⟨key.hash, (Sections.ofDocument document).declaredHash?.bind Value.string?⟩
  have sourceHash : (document.get? "source").bind (·.get? "collapse_result_hash") =
      (Sections.ofDocument document).source.bind (·.get? "collapse_result_hash") :=
    Sections.bind_get?_ofDocument (Record.get?_nil _) document .source
  have declared : (document.get? "replay").bind (·.get? "hash_projection") =
      (Sections.ofDocument document).declaredHash? :=
    Sections.bind_get?_ofDocument (Record.get?_nil _) document .replay
  have keyOf (hash : Value) : ((document.get? "projection").bind fun value =>
      value.record?.bind (ProjectionKey.ofProjection? hash)) =
        (Sections.ofDocument document).projection.bind (ProjectionKey.ofProjection? hash) :=
    Sections.bind_get?_ofDocument rfl document .projection
  calc hashReport? document
    _ = (((document.get? "source").bind (·.get? "collapse_result_hash")).bind fun hash =>
          ((document.get? "projection").bind fun value =>
            value.record?.bind (ProjectionKey.ofProjection? hash))).map report := by
        rw [hashReport?, declared]
        simp only [bind, pure, Option.bind_assoc, Option.map_eq_bind]
        rfl
    _ = (Sections.ofDocument document).projectionKey?.map report := by
        rw [sourceHash, Sections.projectionKey?_eq, funext keyOf]

/-- What is printed is an object with a field. -/
def Outcome.Shows (outcome : Outcome) (name : String) (field : Value) : Prop :=
  ∃ printed, documentOfBytes (encode outcome.stdout.toList) = .ok printed ∧
    printed.get? name = some field

/-- The fields of a report are read back from what is printed for it. -/
theorem HashReport.get?_sortKeys_toValue (report : HashReport) :
    report.toValue.sortKeys.get? "hash_projection" = some (.string report.hash) ∧
      report.toValue.sortKeys.get? "matches_declared" =
        some (.bool (report.declared == some report.hash)) := by
  rw [toValue, Value.sortKeys]
  exact ⟨Value.get?_sortMembers _ _, Value.get?_sortMembers _ _⟩

/-- The printed report is read back. -/
theorem HashReport.documentOfBytes_toValue (report : HashReport) :
    documentOfBytes (encode (unlines [report.toValue.pretty]).toList) =
      .ok report.toValue.sortKeys := by
  have flat : 1 ≤ nestingLimit := by decide
  rcases report with ⟨hash, _ | declared⟩
  · exact documentOfBytes_printed flat (fun number isNumber => nomatch isNumber)
  · exact documentOfBytes_printed flat (fun number isNumber => nomatch isNumber)

/-- The document in a file, or why there is none. -/
def loadDocument (files : Files) (path : String) : Except InputFailure Value := do
  let bytes ← readDocument files path
  documentOfBytes bytes

/-- Nothing but reading a file and reading JSON fails, and both are defects of the
input. -/
theorem failureClass_mem_of_loadDocument {files : Files} {path : String} {failure : InputFailure}
    (failed : loadDocument files path = .error failure) :
    failure.failureClass ∈ InputFailure.inputDefectClasses := by
  rw [loadDocument, readDocument] at failed
  cases read : files path with
  | error cause =>
      rw [read] at failed
      cases failed
      exact List.mem_cons_of_mem _ List.mem_cons_self
  | ok bytes =>
      rw [read] at failed
      change (Value.ofBytes bytes).mapError InputFailure.invalidJson = .error failure at failed
      cases spelled : Value.ofBytes bytes with
      | error error =>
          rw [spelled] at failed
          cases failed
          exact List.mem_cons_self
      | ok document =>
          rw [spelled] at failed
          cases failed

/-- The verdict of a verification and what is logged on the way, by what is in the
file. -/
theorem examine_eq (files : Files) (path : String) :
    examine files path =
      match loadDocument files path with
      | .error failure => (.ofInputFailure failure, [])
      | .ok document => (verify document, events (audit document)) := by
  rw [examine, loadDocument]
  cases readDocument files path with
  | error failure => rfl
  | ok bytes =>
      dsimp only [bind, Except.bind, documentOfBytes]
      cases Value.ofBytes bytes with
      | error error => rfl
      | ok document => rfl

/-- The verdict of a verification, by what is in the file. -/
theorem examine_fst (files : Files) (path : String) :
    (examine files path).1 =
      match loadDocument files path with
      | .error failure => .ofInputFailure failure
      | .ok document => verify document := by
  rw [examine_eq]
  cases loadDocument files path <;> rfl

/-- The report on a file, by what is in it. -/
theorem reportHash_eq (files : Files) (path : String) :
    reportHash files path =
      match loadDocument files path with
      | .error failure => .error (.input failure)
      | .ok document =>
          match hashReport? document with
          | some report => .ok report
          | none => .error (.lacksKey path) := by
  rw [reportHash, loadDocument]
  cases readDocument files path with
  | error failure => rfl
  | ok bytes =>
      change ((documentOfBytes bytes).mapError HashFailure.input >>= _) =
        match documentOfBytes bytes with
        | .error failure => _
        | .ok document => _
      cases documentOfBytes bytes with
      | error failure => rfl
      | ok document => rfl

end Command

namespace Verdict

/-- A failure of an input is told from its class. -/
theorem isInputDefect_ofInputFailure {failure : InputFailure}
    (isDefect : failure.failureClass ∈ InputFailure.inputDefectClasses) :
    (ofInputFailure failure).isInputDefect = true := by
  change (true && hasInputDefectClass failure.message) = true
  rw [Bool.true_and, hasInputDefectClass, List.any_eq_true]
  refine ⟨failure.failureClass, isDefect, ?_⟩
  rw [List.isPrefixOf_iff_prefix, InputFailure.message]
  exact ⟨failure.detail.toList, by simp⟩

end Verdict

/-- No error about a document has the class of an input failure. -/
theorem not_hasInputDefectClass_catalogue :
    ∀ message ∈ Requirement.catalogue.map Requirement.message,
      Verdict.hasInputDefectClass message = false := by
  -- Bytes are compared, since taking strings apart into characters is slow.
  have differs : ∀ name ∈ InputFailure.inputDefectClasses,
      ∀ message ∈ Requirement.catalogue.map Requirement.message,
        ¬ (name ++ ": ").toByteArray.data.toList <:+: message.toByteArray.data.toList := by
    decide +kernel
  intro message member
  rw [Verdict.hasInputDefectClass, List.any_eq_false]
  intro name isClass
  rw [List.isPrefixOf_iff_prefix]
  intro isPrefix
  have isInfix : (name ++ ": ").toList <:+: message.toList := by
    rw [String.toList_append]
    exact isPrefix.isInfix
  apply differs name isClass message member
  rw [← Text.Utf8.encode_toList, ← Text.Utf8.encode_toList]
  exact Text.Utf8.encode_infix isInfix

/-- No document is taken for an input that never became one. -/
theorem isInputDefect_verify (document : Value) : (verify document).isInputDefect = false := by
  rw [Verdict.isInputDefect]
  split
  · rename_i error isOnly
    have isMessage : error ∈ Requirement.catalogue.map Requirement.message := by
      apply (reports_catalogue document).sublist.subset
      rw [isOnly]
      exact List.mem_singleton_self error
    rw [not_hasInputDefectClass_catalogue error isMessage, Bool.and_false]
  · rfl

/-! ## The two commands -/

namespace Command

section Runs

variable {files : Files} {path : String} {document : Value}

/-- A verification exits with two exactly when there is no document. -/
theorem exit_runVerify_eq_two_iff (json : Bool) (verbosity : Nat) :
    (runVerify files path json verbosity).exit = 2 ↔
      ∃ failure, loadDocument files path = .error failure := by
  change exitCode (examine files path).1 = 2 ↔ _
  rw [examine_fst]
  cases loaded : loadDocument files path with
  | error failure =>
      have isDefect := Verdict.isInputDefect_ofInputFailure
        (failureClass_mem_of_loadDocument loaded)
      exact iff_of_true (if_pos isDefect) ⟨failure, rfl⟩
  | ok document =>
      refine iff_of_false ?_ (by simp)
      dsimp only
      rw [exitCode, isInputDefect_verify]
      cases (verify document).isConformant <;> decide

/-- Without a document, the failure is printed. -/
theorem runHash_of_failure {failure : InputFailure}
    (failed : loadDocument files path = .error failure) (json : Bool) :
    runHash files path json =
      { exit := 2, stdout := "", stderr := "error: " ++ failure.message ++ "\n" } := by
  rw [runHash, reportHash_eq, failed]
  dsimp only
  rw [unlines_singleton]
  rfl

/-- With a report, it is printed. -/
theorem runHash_of_report (loaded : loadDocument files path = .ok document)
    {report : HashReport} (isReport : hashReport? document = some report) (json : Bool) :
    runHash files path json =
      { exit := 0
        stdout := unlines [if json then report.toValue.pretty else report.hash]
        stderr := "" } := by
  rw [runHash, reportHash_eq, loaded]
  simp only [isReport]

/-- A document without a report is refused. -/
theorem exit_runHash_of_no_report (loaded : loadDocument files path = .ok document)
    (noReport : hashReport? document = none) (json : Bool) :
    (runHash files path json).exit = 1 := by
  rw [runHash, reportHash_eq, loaded]
  simp only [noReport]
  rfl

/-- Hashing exits with two exactly when there is no document. -/
theorem exit_runHash_eq_two_iff (json : Bool) :
    (runHash files path json).exit = 2 ↔
      ∃ failure, loadDocument files path = .error failure := by
  cases loaded : loadDocument files path with
  | error failure =>
      rw [runHash_of_failure loaded]
      exact iff_of_true rfl ⟨failure, rfl⟩
  | ok document =>
      refine iff_of_false ?_ (by simp)
      cases isReport : hashReport? document with
      | none =>
          rw [exit_runHash_of_no_report loaded isReport]
          decide
      | some report =>
          rw [runHash_of_report loaded isReport]
          exact Nat.zero_ne_add_one 1

/-- The fields that are printed are those of the report. -/
theorem shows_runHash_iff (loaded : loadDocument files path = .ok document)
    {report : HashReport} (isReport : hashReport? document = some report) (name : String)
    (field : Value) :
    (runHash files path true).Shows name field ↔
      report.toValue.sortKeys.get? name = some field := by
  rw [Outcome.Shows, runHash_of_report loaded isReport, if_pos rfl]
  dsimp only
  rw [report.documentOfBytes_toValue]
  constructor
  · rintro ⟨printed, isPrinted, isField⟩
    rwa [Except.ok.inj isPrinted]
  · exact fun isField => ⟨_, rfl, isField⟩

/-- A report compares the hashes as the identity check does. -/
theorem replayIdentityValid_of_hashReport? {report : HashReport}
    (isReport : hashReport? document = some report) :
    (verify document).replayIdentityValid = (report.declared == some report.hash) := by
  rw [hashReport?_eq] at isReport
  obtain ⟨key, isKey, rfl⟩ := Option.map_eq_some_iff.mp isReport
  rw [replayIdentityValid_verify, Sections.identity_isValid_eq isKey]

end Runs

/-- Printing the hash of a file and verifying it agree.  They exit with two on the
same inputs, and then the message of the one is the only error of the other.  For
a document, the printed hash is the one that the identity check of the document
without a replay that is no object expects; nothing is printed exactly if that
check is undetermined; and the report says whether the identity of the document
is valid. -/
theorem runHash_agrees (files : Files) (path : String) :
    (∀ json verdictJson verbosity, (runHash files path json).exit = 2 ↔
        (runVerify files path verdictJson verbosity).exit = 2) ∧
      (∀ json, (runHash files path json).exit = 2 →
        ∃ error, (examine files path).1.errors = [error] ∧
          (runHash files path json).stderr = "error: " ++ error ++ "\n") ∧
      ∀ bytes document, files path = .ok bytes → documentOfBytes bytes = .ok document →
        let identity := (Sections.ofDocument (eraseNonRecordReplay document)).identity
        (∀ hash, (runHash files path false).exit = 0 ∧
            (runHash files path false).stdout = hash ++ "\n" ↔
          identity.expectedHash? = some hash) ∧
        (∀ hash, (runHash files path true).exit = 0 ∧
            (runHash files path true).Shows "hash_projection" (.string hash) ↔
          identity.expectedHash? = some hash) ∧
        (∀ json, (runHash files path json).exit = 1 ↔ identity = .undetermined) ∧
        ((runHash files path true).exit = 0 →
          (runHash files path true).Shows "matches_declared"
            (.bool (verify document).replayIdentityValid)) := by
  refine ⟨?_, ?_, ?_⟩
  · intro json verdictJson verbosity
    rw [exit_runHash_eq_two_iff, exit_runVerify_eq_two_iff]
  · intro json isTwo
    obtain ⟨failure, failed⟩ := (exit_runHash_eq_two_iff json).mp isTwo
    refine ⟨failure.message, ?_, ?_⟩
    · rw [examine_fst, failed]
      rfl
    · rw [runHash_of_failure failed]
  · intro bytes document isContent isDocument identity
    have loaded : loadDocument files path = .ok document := by
      rw [loadDocument, readDocument, isContent]
      exact isDocument
    have expected : identity.expectedHash? = (hashReport? document).map HashReport.hash := by
      rw [hashReport?_eq, Option.map_map]
      exact Sections.expectedHash?_eraseNonRecordReplay document
    rw [← ReplayIdentity.expectedHash?_eq_none_iff, expected]
    cases isReport : hashReport? document with
    | none =>
        have isOne := exit_runHash_of_no_report loaded isReport
        simp [isOne]
    | some report =>
        obtain ⟨showsHash, showsMatch⟩ := report.get?_sortKeys_toValue
        refine ⟨fun hash => ?_, fun hash => ?_, fun json => ?_, fun _ => ?_⟩
        · rw [runHash_of_report loaded isReport]
          simp [unlines_singleton]
        · rw [shows_runHash_iff loaded isReport, showsHash, runHash_of_report loaded isReport]
          simp
        · rw [runHash_of_report loaded isReport]
          simp
        · rw [shows_runHash_iff loaded isReport, showsMatch,
            replayIdentityValid_of_hashReport? isReport]

/-- A file that is not there, and a document whose replay is no object. -/
theorem runHash_agrees_replay_no_object :
    let document : Value := .object
      [("projection", .object [("layout", .null), ("mode", .null), ("styling", .null)]),
        ("replay", .bool true), ("source", .object [("collapse_result_hash", .null)])]
    let key : ProjectionKey := ⟨.null, .null, .null, .null⟩
    let files : Files := fun path =>
      if path = "document" then .ok document.canonicalBytes else .error .noSuchFile
    (∃ error, (runHash files "absent" false).stderr = "error: " ++ error ++ "\n") ∧
      documentOfBytes document.canonicalBytes = .ok document ∧
      (Sections.ofDocument document).identity = .undetermined ∧
      (runHash files "document" false).stdout = key.hash ++ "\n" ∧
      (runHash files "document" true).Shows "matches_declared" (.bool false) := by
  intro document key files
  have sorted : document.sortKeys = document := by cbv
  have isDocument : documentOfBytes document.canonicalBytes = .ok document := by
    have written := @documentOfBytes_written document (by decide)
      (List.forall_mem_nil _) .compact
    rwa [sorted] at written
  obtain ⟨-, message, -⟩ := runHash_agrees files "absent"
  obtain ⟨-, -, agrees⟩ := runHash_agrees files "document"
  obtain ⟨printed, reported, -, shown⟩ := agrees _ document rfl isDocument
  obtain ⟨error, -, isMessage⟩ := message false rfl
  obtain ⟨-, isPrinted⟩ := (printed key.hash).mpr rfl
  obtain ⟨isZero, -⟩ := (reported key.hash).mpr rfl
  exact ⟨⟨error, isMessage⟩, isDocument, rfl, isPrinted, shown isZero⟩

end Command

end Provenance
