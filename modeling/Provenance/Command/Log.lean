import Provenance.Audit
import Provenance.Json.Inspect

/-!
# Diagnostics

What a verification reports besides its result.  Every event has a level, and a
verbosity admits the events up to some level; it decides nothing else.
-/

namespace Provenance.Command

open Json

/-- How important an event is. -/
inductive Level where
  | warn
  | info
  | debug
  deriving DecidableEq, Repr

/-- The least verbosity at which events of a level are shown. -/
def Level.verbosity : Level → Nat
  | warn => 0
  | info => 1
  | debug => 2

/-- The name of a level, five columns wide. -/
def Level.label : Level → String
  | warn => " WARN"
  | info => " INFO"
  | debug => "DEBUG"

/-- Something that is worth a line of diagnostics. -/
inductive Event where
  /-- The structural scan has found a number of violations. -/
  | scanned (structural : Nat)
  /-- The declared hash is not the computed one. -/
  | hashMismatch (expected : String) (declared : Option Value)
  /-- The verdict has been reached. -/
  | reached (passed : Bool) (errors : Nat) (hash : Option String)
  /-- There is no document to verify. -/
  | skipped (document : String)
  deriving Repr

namespace Event

/-- The level of an event. -/
def level : Event → Level
  | scanned _ => .debug
  | hashMismatch _ _ => .debug
  | reached _ _ _ => .info
  | skipped _ => .warn

/-- The wording of an event. -/
def message : Event → String
  | scanned structural => "schema scan complete structural=" ++ toString structural
  | hashMismatch expected declared =>
      "projection hash mismatch expected=" ++ expected ++
        " declared=" ++ Value.inspect? declared
  | reached passed errors hash =>
      "k-ux verdict passed=" ++ toString passed ++ " errors=" ++ toString errors ++
        (match hash with
        | some hash => " projection_hash=" ++ Text.Quoted.encode hash
        | none => "")
  | skipped document =>
      "input unreadable or not JSON; verifier skipped document=" ++ document

/-- The line of an event. -/
def line (event : Event) : String :=
  event.level.label ++ " " ++ event.message

/-- The event is shown at a verbosity. -/
def isShown (verbosity : Nat) (event : Event) : Bool :=
  event.level.verbosity ≤ verbosity

end Event

/-- The events of an audit in order. -/
def events (audit : Audit) : List Event :=
  let mismatch :=
    match audit.identity with
    | .mismatched expected _ => [Event.hashMismatch expected audit.sections.declaredHash?]
    | _ => []
  .scanned audit.structural.size :: mismatch ++
    [.reached audit.verdict.passed audit.verdict.errors.length audit.identity.expectedHash?]

end Provenance.Command
