import Provenance.Command.Arguments
import Provenance.Command.Log

/-!
# Running commands

What a command line does, as a function of its arguments and of the way in
which files are read: an exit code and two texts.  The verbosity only decides
which diagnostics are written.
-/

namespace Provenance.Command

open Json

/-- What a file holds, or why it could not be read. -/
abbrev Files := String → Except ReadFailure (List UInt8)

/-- What a run leaves behind. -/
structure Outcome where
  exit : Nat
  stdout : String
  stderr : String
  deriving DecidableEq, Repr

/-- Each line with a line feed behind it. -/
def unlines (lines : List String) : String :=
  String.join (lines.map (· ++ "\n"))

/-- The bytes of a document. -/
def readDocument (files : Files) (document : String) : Except InputFailure (List UInt8) :=
  (files document).mapError (.unreadable document)

/-! ## Verification -/

/-- The words for a truth value. -/
def yesNo (value : Bool) : String :=
  if value then "yes" else "no"

/-- The verdict in words, an error to a line. -/
def summary (document : String) (verdict : Verdict) : List String :=
  let result :=
    if verdict.passed then ["  Result: conformant"]
    else
      ("  Result: non-conformant (errors=" ++ toString verdict.errors.length ++ ")") ::
        verdict.errors.map ("    - " ++ ·)
  ["kux verify " ++ document,
    "  Schema valid: " ++ yesNo verdict.schemaValid,
    "  Entropy valid: " ++ yesNo verdict.entropyValid,
    "  Replay identity valid: " ++ yesNo verdict.replayIdentityValid,
    "  Deterministic projection: " ++ yesNo verdict.deterministicProjection] ++ result

/-- The verdict on a file and the events on the way to it. -/
def examine (files : Files) (document : String) : Verdict × List Event :=
  match readDocument files document with
  | .error failure => (.ofInputFailure failure, [])
  | .ok bytes =>
      match Value.ofBytes bytes with
      | .error error => (.invalidInput error.message, [])
      | .ok value => ((audit value).verdict, events (audit value))

/-- The exit code of a verification: two without a document, one with a
document that does not conform. -/
def exitCode (verdict : Verdict) : Nat :=
  if verdict.isInputDefect then 2 else if verdict.isConformant then 0 else 1

/-- Verify a file. -/
def runVerify (files : Files) (document : String) (json : Bool) (verbosity : Nat) : Outcome :=
  let (verdict, seen) := examine files document
  let events := if verdict.isInputDefect then seen ++ [.skipped document] else seen
  { exit := exitCode verdict
    stdout :=
      unlines (if json then [verdict.toValue.pretty] else summary document verdict)
    stderr := unlines ((events.filter (·.isShown verbosity)).map Event.line) }

/-! ## Hashing -/

/-- Why no hash can be printed. -/
inductive HashFailure where
  /-- There is no document. -/
  | input (failure : InputFailure)
  /-- The document lacks a part of the projection key. -/
  | lacksKey (document : String)
  deriving DecidableEq, Repr

namespace HashFailure

/-- The exit code of a failure. -/
def exit : HashFailure → Nat
  | input _ => 2
  | lacksKey _ => 1

/-- The wording of a failure. -/
def message : HashFailure → String
  | input failure => failure.message
  | lacksKey document =>
      document ++ " lacks source.collapse_result_hash or projection.mode/layout/styling"

end HashFailure

/-- The projection hash of a document next to the hash that it declares. -/
structure HashReport where
  hash : String
  declared : Option String
  deriving DecidableEq, Repr

/-- The report as a JSON object. -/
def HashReport.toValue (report : HashReport) : Value :=
  .object
    [("declared", (report.declared.map Value.string).getD .null),
      ("hash_projection", .string report.hash),
      ("matches_declared", .bool (report.declared == some report.hash))]

/-- The report on a document whose source and projection have the parts of the
projection key. -/
def hashReport? (value : Value) : Option HashReport := do
  let sourceHash ← (value.get? "source").bind (·.get? "collapse_result_hash")
  let projection ← (value.get? "projection").bind Value.record?
  let key ← ProjectionKey.ofProjection? sourceHash projection
  let declared := ((value.get? "replay").bind (·.get? "hash_projection")).bind Value.string?
  pure ⟨key.hash, declared⟩

/-- The report on a file. -/
def reportHash (files : Files) (document : String) : Except HashFailure HashReport := do
  let bytes ← (readDocument files document).mapError .input
  let value ← (documentOfBytes bytes).mapError .input
  match hashReport? value with
  | some report => .ok report
  | none => .error (.lacksKey document)

/-- Print the projection hash of a file. -/
def runHash (files : Files) (document : String) (json : Bool) : Outcome :=
  match reportHash files document with
  | .ok report =>
      { exit := 0
        stdout := unlines [if json then report.toValue.pretty else report.hash]
        stderr := "" }
  | .error failure =>
      { exit := failure.exit, stdout := "", stderr := unlines ["error: " ++ failure.message] }

/-! ## Command lines -/

/-- Do what is requested. -/
def Request.perform (files : Files) : Request → Outcome
  | run { action := .verify, document, json, verbosity } =>
      runVerify files document json verbosity
  | run { action := .hash, document, json, .. } => runHash files document json
  | help page => { exit := 0, stdout := unlines page.lines, stderr := "" }
  | version => { exit := 0, stdout := unlines [versionLine], stderr := "" }
  | reject error => { exit := 2, stdout := "", stderr := unlines error.lines }

/-- Run a command line. -/
def run (files : Files) (arguments : List String) : Outcome :=
  (Request.ofArguments arguments).perform files

end Provenance.Command
