import Provenance.Json.Reader.Value
import Provenance.Verdict.Basic

/-!
# Auditing documents

Verification of a document, and of bytes that may be one.  An audit keeps what
was seen on the way to the verdict.
-/

namespace Provenance

open Json

/-- A verdict with the intermediate results it was combined from. -/
structure Audit where
  sections : Sections
  /-- The findings of the structural scan. -/
  structural : Findings
  identity : ReplayIdentity
  verdict : Verdict

/-- Scan a document, compare its hashes and combine the results. -/
def audit (document : Value) : Audit :=
  let sections := Sections.ofDocument document
  let structural := Sections.scan document
  let (identity, findings) := sections.checkIdentity structural
  { sections, structural, identity, verdict := .aggregate sections identity findings }

/-- The verdict on a document. -/
def verify (document : Value) : Verdict :=
  (audit document).verdict

/-- The document that a list of bytes spells. -/
def documentOfBytes (bytes : List UInt8) : Except InputFailure Value :=
  (Value.ofBytes bytes).mapError .invalidJson

/-- The verdict on bytes.  Bytes that are no JSON text are refused without
looking further. -/
def verifyBytes (bytes : List UInt8) : Verdict :=
  match Value.ofBytes bytes with
  | .ok document => verify document
  | .error error => .invalidInput error.message

end Provenance
