import Provenance.Document.Identity
import Provenance.InputFailure

/-!
# Verdicts

A verdict is four named predicates, the list of errors, and whether the
document passed.  Its JSON form is an object whose keys are the names of the
predicates in ascending order.
-/

namespace Provenance

open Json

/-- The outcome of a verification. -/
structure Verdict where
  deterministicProjection : Bool
  entropyValid : Bool
  errors : List String
  passed : Bool
  replayIdentityValid : Bool
  schemaValid : Bool
  deriving DecidableEq, Repr

/-- One text occurs within another. -/
def occursIn (part : List Char) : List Char → Bool
  | [] => part.isEmpty
  | char :: text => part.isPrefixOf (char :: text) || occursIn part text

namespace Verdict

/-- Errors that mention this key concern the identity of the replay and do not
count against the structure of the document. -/
def identityMarker : List Char :=
  "hash_projection".toList

/-- Combine the sections, the outcome of the identity check and all findings. -/
def aggregate (sections : Sections) (identity : ReplayIdentity) (findings : Findings) :
    Verdict where
  deterministicProjection := sections.deterministicProjection
  entropyValid := sections.entropyValid
  errors := findings.errors
  passed :=
    sections.entropyValid && identity.isValid && sections.deterministicProjection &&
      findings.errors.isEmpty
  replayIdentityValid := identity.isValid
  schemaValid := findings.errors.all fun error => occursIn identityMarker error.toList

/-- The verdict with a single error in which every predicate fails. -/
def refusal (error : String) : Verdict where
  deterministicProjection := false
  entropyValid := false
  errors := [error]
  passed := false
  replayIdentityValid := false
  schemaValid := false

/-- The verdict on bytes that are no JSON text. -/
def invalidInput (message : String) : Verdict :=
  refusal ("invalid_json: " ++ message)

/-- The verdict on an input that could not be read or is no JSON text. -/
def ofInputFailure (failure : InputFailure) : Verdict :=
  refusal failure.message

/-- The error carries a class that says something about the input. -/
def hasInputDefectClass (error : String) : Bool :=
  InputFailure.inputDefectClasses.any fun name =>
    (name.toList ++ [':', ' ']).isPrefixOf error.toList

/-- The verdict stands for an input that never became a document. -/
def isInputDefect (verdict : Verdict) : Bool :=
  match verdict.errors with
  | [error] => !verdict.passed && hasInputDefectClass error
  | _ => false

/-- The document conforms. -/
def isConformant (verdict : Verdict) : Bool :=
  verdict.passed

/-- The verdict as a JSON object. -/
def toValue (verdict : Verdict) : Value :=
  .object
    [("deterministic_projection", .bool verdict.deterministicProjection),
      ("entropy_valid", .bool verdict.entropyValid),
      ("errors", .array (verdict.errors.map .string)),
      ("passed", .bool verdict.passed),
      ("replay_identity_valid", .bool verdict.replayIdentityValid),
      ("schema_valid", .bool verdict.schemaValid)]

/-- The verdict on one line, its fields in the order of `toValue`. -/
def line (verdict : Verdict) : String :=
  String.ofList (verdict.toValue.write .compact)

end Verdict

end Provenance
