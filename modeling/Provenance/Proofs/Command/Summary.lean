import Mathlib
import Provenance.Proofs.Command.Verify
import Provenance.Proofs.Json.Reader.Causes
import Provenance.Proofs.Verdict.Passing
import Provenance.Proofs.Verdict.Serialized

/-!
# Summaries

The summary of a verification is written for people, but it holds the whole verdict:
`ofSummary?` reads it back from the lines (`ofSummary?_summary`).  This needs that no
error takes more than one line (`isLine_of_mem_errors_examine`).  Errors about a document
have fixed wordings; an input that never becomes a document is refused with the wording of
a cause, into which nothing of the input is taken.
-/

namespace Provenance

open Json
open Text (Utf8.encode)

namespace Command

/-- What stands behind a label. -/
def behind? (label line : String) : Option String :=
  (label.toList.isPrefixOf? line.toList).map String.ofList

theorem behind?_append (label text : String) : behind? label (label ++ text) = some text := by
  have isPrefix : label.toList.isPrefixOf? (label ++ text).toList = some text.toList := by
    rw [List.isPrefixOf?_eq_some_iff_append_eq, String.toList_append]
  rw [behind?, isPrefix, Option.map_some, String.ofList_toList]

theorem mapM_behind?_map (label : String) (texts : List String) :
    (texts.map (label ++ ·)).mapM (behind? label) = some texts := by
  induction texts with
  | nil => rfl
  | cons text texts ih =>
      rw [List.map_cons, List.mapM_cons, behind?_append, ih]
      rfl

/-- The truth value that a word stands for. -/
def truth? (word : String) : Option Bool :=
  if word = "yes" then some true else if word = "no" then some false else none

/-- The truth value behind a label. -/
def flag? (label line : String) : Option Bool :=
  (behind? label line).bind truth?

theorem flag?_append (label : String) (value : Bool) :
    flag? label (label ++ yesNo value) = some value := by
  rw [flag?, behind?_append]
  cases value <;> rfl

/-- The number that a run of digits spells. -/
def count? (chars : List Char) : Option Nat :=
  if chars ≠ [] ∧ chars.all Char.isDigit then some (Nat.ofDigitChars 10 chars 0) else none

theorem count?_toDigits (n : Nat) : count? (Nat.toDigits 10 n) = some n := by
  have areDigits : (Nat.toDigits 10 n).all Char.isDigit := by
    rw [List.all_eq_true]
    intro char isMember
    exact Nat.isDigit_of_mem_toDigits (by decide) (by decide) isMember
  rw [count?, if_pos ⟨Nat.toDigits_ne_nil, areDigits⟩, Nat.ofDigitChars_ten_toDigits]

/-- What a result line states: conformance, or else a number of errors. -/
inductive Result where
  | conformant
  | nonConformant (errors : Nat)
  deriving DecidableEq, Repr

namespace Result

/-- The line that states a result. -/
def line : Result → String
  | conformant => "  Result: conformant"
  | nonConformant errors => "  Result: non-conformant (errors=" ++ toString errors ++ ")"

/-- The result that a line states. -/
def ofLine? (line : String) : Option Result :=
  if line = conformant.line then some conformant
  else do
    let rest ← behind? "  Result: non-conformant (errors=" line
    if rest.toList.getLast? = some ')' then (count? rest.toList.dropLast).map nonConformant
    else none

/-- The result of a verdict. -/
def ofVerdict (verdict : Verdict) : Result :=
  if verdict.passed then conformant else nonConformant verdict.errors.length

/-- There are as many errors as the result states. -/
def fits (errors : List String) : Result → Bool
  | conformant => errors.isEmpty
  | nonConformant number => errors.length == number

theorem ofLine?_line (result : Result) : ofLine? result.line = some result := by
  cases result with
  | conformant => rw [ofLine?, if_pos rfl]
  | nonConformant errors =>
      have shape : (nonConformant errors).line =
          "  Result: non-conformant (errors=" ++ (toString errors ++ ")") :=
        String.append_assoc
      have digits : (toString errors ++ ")").toList = Nat.toDigits 10 errors ++ [')'] := by
        rw [String.toList_append, Nat.toString_eq_repr, Nat.toList_repr]
        rfl
      have isOther : (nonConformant errors).line ≠ conformant.line := by
        intro isConformant
        have last : (nonConformant errors).line.toList.getLast? = some ')' := by
          rw [shape, String.toList_append, digits, ← List.append_assoc, List.getLast?_concat]
        rw [isConformant] at last
        exact absurd last (by decide)
      rw [ofLine?, if_neg isOther, shape, behind?_append, Option.bind_eq_bind, Option.bind_some,
        digits, List.getLast?_concat, if_pos rfl, List.dropLast_concat, count?_toDigits,
        Option.map_some]

theorem beq_conformant_ofVerdict (verdict : Verdict) :
    (ofVerdict verdict == conformant) = verdict.passed := by
  rw [ofVerdict]
  cases verdict.passed <;> rfl

theorem fits_ofVerdict {verdict : Verdict} (agrees : verdict.passed = true → verdict.errors = []) :
    (ofVerdict verdict).fits verdict.errors = true := by
  rw [ofVerdict]
  cases passed : verdict.passed with
  | true =>
      rw [agrees passed]
      rfl
  | false => exact beq_self_eq_true _

end Result

/-- The document and the verdict that the lines of a summary tell.  The errors must be as
many as the result line states. -/
def ofSummary? : List String → Option (String × Verdict)
  | title :: schema :: entropy :: replay :: projection :: result :: items => do
      let document ← behind? "kux verify " title
      let schemaValid ← flag? "  Schema valid: " schema
      let entropyValid ← flag? "  Entropy valid: " entropy
      let replayIdentityValid ← flag? "  Replay identity valid: " replay
      let deterministicProjection ← flag? "  Deterministic projection: " projection
      let result ← Result.ofLine? result
      let errors ← items.mapM (behind? "    - ")
      if result.fits errors then
        let passed := result == .conformant
        let verdict : Verdict :=
          { deterministicProjection, entropyValid, errors, passed, replayIdentityValid
            schemaValid }
        some (document, verdict)
      else none
  | _ => none

/-- The lines of a summary: five that every verdict has, the result, and one for each
error unless the document passed. -/
theorem summary_eq (document : String) (verdict : Verdict) :
    summary document verdict =
      ("kux verify " ++ document) ::
        ("  Schema valid: " ++ yesNo verdict.schemaValid) ::
        ("  Entropy valid: " ++ yesNo verdict.entropyValid) ::
        ("  Replay identity valid: " ++ yesNo verdict.replayIdentityValid) ::
        ("  Deterministic projection: " ++ yesNo verdict.deterministicProjection) ::
        (Result.ofVerdict verdict).line ::
        if verdict.passed then [] else verdict.errors.map ("    - " ++ ·) := by
  rw [summary, Result.ofVerdict]
  cases verdict.passed <;> rfl

/-- A summary tells the verdict, as long as no verdict passes with errors. -/
theorem ofSummary?_summary (document : String) (verdict : Verdict)
    (agrees : verdict.passed = true → verdict.errors = []) :
    ofSummary? (summary document verdict) = some (document, verdict) := by
  have items : (if verdict.passed then [] else verdict.errors.map ("    - " ++ ·)).mapM
      (behind? "    - ") = some verdict.errors := by
    cases passed : verdict.passed with
    | true =>
        rw [agrees passed]
        rfl
    | false => exact mapM_behind?_map "    - " verdict.errors
  simp only [summary_eq, ofSummary?, behind?_append, flag?_append, Result.ofLine?_line, items,
    Option.bind_eq_bind, Option.bind_some, Result.fits_ofVerdict agrees,
    Result.beq_conformant_ofVerdict, if_true]

/-- The sixth line of a summary states the result. -/
theorem getElem?_summary (document : String) (verdict : Verdict) :
    (summary document verdict)[5]? = some (Result.ofVerdict verdict).line := by
  rw [summary_eq]
  rfl

theorem length_summary (document : String) (verdict : Verdict) :
    (summary document verdict).length =
      if verdict.passed then 6 else 6 + verdict.errors.length := by
  rw [summary_eq]
  cases verdict.passed with
  | true => rfl
  | false => simp +arith

/-! ## Errors of one line -/

/-- The wording of a cause that concerns the spelling takes nothing from the text. -/
theorem isLine_message_of_concernsSpelling {cause : Cause}
    (concerns : cause.concernsSpelling = true) : IsLine cause.message := by
  cases cause with
  | unexpectedKind => contradiction
  | duplicateField => contradiction
  | missingField => contradiction
  | invalidLength => contradiction
  | _ => decide +kernel

theorem isLine_message_readError {error : ReadError}
    (concerns : error.cause.concernsSpelling = true) : IsLine error.message := by
  have upToLine := isLine_append.mpr
    ⟨isLine_message_of_concernsSpelling concerns, show IsLine " at line " by decide⟩
  have withLine := isLine_append.mpr ⟨upToLine, isLine_toString_nat error.line⟩
  have upToColumn := isLine_append.mpr ⟨withLine, show IsLine " column " by decide⟩
  exact isLine_append.mpr ⟨upToColumn, isLine_toString_nat error.column⟩

theorem isLine_of_lineFeed_not_mem {text : String}
    (noFeed : lineFeed ∉ text.toByteArray.data.toList) : IsLine text := by
  intro isMember
  obtain ⟨before, behind, isText⟩ := List.append_of_mem isMember
  apply noFeed
  rw [← Text.Utf8.encode_toList, isText, Text.Utf8.encode_append]
  exact List.mem_append_right _ List.mem_cons_self

/-- What is wrong with a document is told in fixed wordings of one line. -/
theorem isLine_of_mem_errors_verify {document : Value} :
    ∀ error ∈ (verify document).errors, IsLine error := by
  -- Bytes are compared, since taking strings apart into characters is slow.
  have noFeed : ∀ message ∈ Requirement.catalogue.map Requirement.message,
      lineFeed ∉ message.toByteArray.data.toList := by
    decide +kernel
  intro error isError
  exact isLine_of_lineFeed_not_mem
    (noFeed error ((reports_catalogue document).sublist.subset isError))

theorem isLine_yesNo (value : Bool) : IsLine (yesNo value) := by
  cases value <;> decide

theorem Result.isLine_line (result : Result) : IsLine result.line := by
  cases result with
  | conformant => decide
  | nonConformant errors =>
      have upToNumber := isLine_append.mpr
        ⟨show IsLine "  Result: non-conformant (errors=" by decide, isLine_toString_nat errors⟩
      exact isLine_append.mpr ⟨upToNumber, by decide⟩

/-- A summary has no line breaks but those between its lines. -/
theorem isLine_of_mem_summary {document : String} {verdict : Verdict} (isLine : IsLine document)
    (errors : ∀ error ∈ verdict.errors, IsLine error) :
    ∀ line ∈ summary document verdict, IsLine line := by
  have item : ∀ error ∈ verdict.errors, IsLine ("    - " ++ error) := fun error isError =>
    isLine_append.mpr ⟨by decide, errors error isError⟩
  rw [summary_eq]
  simp only [List.forall_mem_cons]
  refine ⟨isLine_append.mpr ⟨by decide, isLine⟩, isLine_append.mpr ⟨by decide, isLine_yesNo _⟩,
    isLine_append.mpr ⟨by decide, isLine_yesNo _⟩, isLine_append.mpr ⟨by decide, isLine_yesNo _⟩,
    isLine_append.mpr ⟨by decide, isLine_yesNo _⟩, Result.isLine_line _, ?_⟩
  cases verdict.passed with
  | true => exact List.forall_mem_nil _
  | false => exact List.forall_mem_map.mpr item

theorem exists_readError_of_documentOfBytes {bytes : List UInt8} {failure : InputFailure}
    (failed : documentOfBytes bytes = .error failure) :
    ∃ error, Value.ofBytes bytes = .error error ∧ InputFailure.invalidJson error = failure := by
  rw [documentOfBytes] at failed
  cases spelled : Value.ofBytes bytes with
  | error error =>
      rw [spelled] at failed
      exact ⟨error, rfl, Except.error.inj failed⟩
  | ok document =>
      rw [spelled] at failed
      contradiction

/-- The wording that a failure brings with it from the operating system is one line. -/
def TakesOneLine : ReadFailure → Prop
  | .system text _ => IsLine text
  | .ofKind _ => True
  | .described text => IsLine text

instance : DecidablePred TakesOneLine
  | .system text _ => inferInstanceAs (Decidable (IsLine text))
  | .ofKind _ => .isTrue trivial
  | .described text => inferInstanceAs (Decidable (IsLine text))

/-- The failures that a file system is known to answer with are told in one line. -/
theorem takesOneLine_of_mem : ∀ cause ∈
    [ReadFailure.noSuchFile, .accessDenied, .notDirectory, .isDirectory, .nameTooLong],
    TakesOneLine cause := by
  decide

theorem TakesOneLine.isLine_message {cause : ReadFailure} (terse : TakesOneLine cause) :
    IsLine cause.message := by
  cases cause with
  | system text code =>
      have upToLabel := isLine_append.mpr ⟨terse, show IsLine " (os error " by decide⟩
      have upToCode := isLine_append.mpr ⟨upToLabel, isLine_toString_nat code⟩
      exact isLine_append.mpr ⟨upToCode, show IsLine ")" by decide⟩
  | ofKind kind => cases kind <;> decide
  | described text => exact terse

section Runs

variable {files : Files} {path : String}

/-- Why there is no document is told in one line, if the system tells in one line why it
cannot read the file. -/
theorem isLine_message_of_loadDocument (isLine : IsLine path)
    (terse : ∀ cause, files path = .error cause → TakesOneLine cause) {failure : InputFailure}
    (failed : loadDocument files path = .error failure) : IsLine failure.message := by
  rw [loadDocument_eq] at failed
  cases read : files path with
  | error cause =>
      rw [read] at failed
      obtain rfl : InputFailure.unreadable path cause = failure := Except.error.inj failed
      have upToPath := isLine_append.mpr ⟨show IsLine "failed to read " by decide, isLine⟩
      have upToCause := isLine_append.mpr ⟨upToPath, show IsLine ": " by decide⟩
      have detail := isLine_append.mpr ⟨upToCause, (terse cause read).isLine_message⟩
      exact isLine_append.mpr ⟨show IsLine ("io_error" ++ ": ") by decide, detail⟩
  | ok bytes =>
      rw [read] at failed
      obtain ⟨error, refused, rfl⟩ := exists_readError_of_documentOfBytes failed
      have detail := isLine_message_readError (Value.cause_of_ofBytes refused)
      exact isLine_append.mpr ⟨show IsLine ("invalid_json" ++ ": ") by decide, detail⟩

theorem isLine_of_mem_errors_examine (isLine : IsLine path)
    (terse : ∀ cause, files path = .error cause → TakesOneLine cause) :
    ∀ error ∈ (examine files path).1.errors, IsLine error := by
  rw [examine_fst]
  cases loaded : loadDocument files path with
  | error failure =>
      exact List.forall_mem_singleton.mpr (isLine_message_of_loadDocument isLine terse loaded)
  | ok document => exact isLine_of_mem_errors_verify

theorem errors_examine_of_passed (passed : (examine files path).1.passed = true) :
    (examine files path).1.errors = [] := by
  rw [examine_fst] at passed ⊢
  cases loaded : loadDocument files path with
  | error failure =>
      rw [loaded] at passed
      contradiction
  | ok document =>
      rw [loaded] at passed
      exact ((passed_iff document).mp passed).2.2.2

/-- The lines that are printed for a verdict are those of its summary. -/
theorem lines_stdout_runVerify (isLine : IsLine path)
    (terse : ∀ cause, files path = .error cause → TakesOneLine cause) (verbosity : Nat) :
    lines (runVerify files path false verbosity).stdout =
      summary path (examine files path).1 := by
  apply lines_unlines
  have errors := isLine_of_mem_errors_examine isLine terse
  exact isLine_of_mem_summary isLine errors

end Runs

/-- The indented form is read back with the line feed behind it. -/
theorem ofBytes_unlines_pretty (verdict : Verdict) :
    Verdict.ofBytes (Utf8.encode (unlines [verdict.toValue.pretty]).toList) = .ok verdict := by
  rw [unlines_singleton, String.toList_append, Value.pretty, String.toList_ofList,
    verdict.ordered_toValue.sortKeys_eq, Text.Utf8.encode_append]
  exact verdict.ofBytes_write (.indented 0) [.lineFeed]

/-- The summary carries the same verdict as the JSON output.  Whatever a file holds, and
also if it cannot be read, the lines that a verification prints for a path of one line are
six if the document passes and else six and one for each error, of which the sixth states
how many there are.  Read back, they are the verdict that is read from the JSON output,
and both calls exit alike.  Of the texts that are printed only the wording of a failure of
the operating system is not the program's own: it is taken to have no line break. -/
theorem ofSummary?_stdout_run (files : Files) {path : String} (isLine : IsLine path)
    (terse : ∀ cause, files path = .error cause → TakesOneLine cause)
    {words asJson : List String} {verbosity jsonVerbosity : Nat}
    (request : Request.ofArguments words = .run ⟨.verify, path, false, verbosity⟩)
    (jsonRequest : Request.ofArguments asJson = .run ⟨.verify, path, true, jsonVerbosity⟩) :
    let printed := lines (run files words).stdout
    ∃ verdict,
      Verdict.ofBytes (Utf8.encode (run files asJson).stdout.toList) = .ok verdict ∧
        ofSummary? printed = some (path, verdict) ∧
        unlines printed = (run files words).stdout ∧
        printed.length = (if verdict.passed then 6 else 6 + verdict.errors.length) ∧
        (printed[5]?).bind Result.ofLine? =
          some (if verdict.passed then .conformant else .nonConformant verdict.errors.length) ∧
        (run files words).exit = (run files asJson).exit := by
  intro printed
  have ran : run files words = runVerify files path false verbosity := by
    rw [run, request]
    rfl
  have jsonRan : run files asJson = runVerify files path true jsonVerbosity := by
    rw [run, jsonRequest]
    rfl
  have isSummary : printed = summary path (examine files path).1 := by
    have found := lines_stdout_runVerify isLine terse verbosity
    rwa [← ran] at found
  have agrees := @errors_examine_of_passed files path
  refine ⟨(examine files path).1, ?_, ?_, ?_, ?_, ?_, ?_⟩
  · rw [jsonRan]
    exact ofBytes_unlines_pretty _
  · rw [isSummary]
    exact ofSummary?_summary path _ agrees
  · rw [isSummary, ran]
    rfl
  · rw [isSummary]
    exact length_summary path _
  · rw [isSummary, getElem?_summary, Option.bind_some]
    exact Result.ofLine?_line _
  · rw [ran, jsonRan]
    rfl

/-- A missing file is told in seven lines, and `--json` prints the same verdict. -/
theorem ofSummary?_stdout_run_missing :
    let files : Files := fun _ => .error .noSuchFile
    let words := ["verify", "missing.json"]
    let asJson := ["verify", "--json", "missing.json", "-v"]
    IsLine "missing.json" ∧ TakesOneLine .noSuchFile ∧
      Request.ofArguments words = .run ⟨.verify, "missing.json", false, 0⟩ ∧
      Request.ofArguments asJson = .run ⟨.verify, "missing.json", true, 1⟩ ∧
      ∃ verdict,
        Verdict.ofBytes (Utf8.encode (run files asJson).stdout.toList) = .ok verdict ∧
          ofSummary? (lines (run files words).stdout) = some ("missing.json", verdict) := by
  intro files words asJson
  have isLine : IsLine "missing.json" := by decide
  have missing : TakesOneLine .noSuchFile := takesOneLine_of_mem _ List.mem_cons_self
  have terse : ∀ cause, files "missing.json" = .error cause → TakesOneLine cause := by
    rintro cause ⟨⟩
    exact missing
  have request : Request.ofArguments words = .run ⟨.verify, "missing.json", false, 0⟩ := by decide
  have jsonRequest : Request.ofArguments asJson = .run ⟨.verify, "missing.json", true, 1⟩ := by
    decide
  rcases ofSummary?_stdout_run files isLine terse request jsonRequest with
    ⟨verdict, isJson, isTold, -⟩
  exact ⟨isLine, missing, request, jsonRequest, verdict, isJson, isTold⟩

end Command

end Provenance
