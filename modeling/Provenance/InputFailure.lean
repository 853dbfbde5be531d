import Provenance.Json.Failure

/-!
# Failures outside a verdict

An input that never becomes a document fails with a class of its own, so that
it can be told apart from a document with defects.
-/

namespace Provenance

/-- The kinds of failure that are told apart when nothing else is known. -/
inductive FailureKind where
  | notFound
  | permissionDenied
  | invalidData
  | other
  deriving DecidableEq, Repr

/-- The wording of a kind of failure. -/
def FailureKind.message : FailureKind → String
  | notFound => "entity not found"
  | permissionDenied => "permission denied"
  | invalidData => "invalid data"
  | other => "other error"

/-- Why a file could not be read. -/
inductive ReadFailure where
  /-- The operating system refused with a message and a number. -/
  | system (message : String) (code : Nat)
  /-- Only the kind of failure is known. -/
  | ofKind (kind : FailureKind)
  /-- The failure has a description of its own. -/
  | described (text : String)
  deriving DecidableEq, Repr

namespace ReadFailure

/-- There is no file of that name. -/
def noSuchFile : ReadFailure := system "No such file or directory" 2

/-- The file may not be read. -/
def accessDenied : ReadFailure := system "Permission denied" 13

/-- The name goes through something that is no directory. -/
def notDirectory : ReadFailure := system "Not a directory" 20

/-- The name is that of a directory. -/
def isDirectory : ReadFailure := system "Is a directory" 21

/-- The name, or a part of it, is longer than names may be. -/
def nameTooLong : ReadFailure := system "File name too long" 36

/-- The wording of a cause. -/
def message : ReadFailure → String
  | system text code => text ++ " (os error " ++ toString code ++ ")"
  | ofKind kind => kind.message
  | described text => text

end ReadFailure

/-- A failure that is no finding about a document. -/
inductive InputFailure where
  /-- The bytes are no JSON text. -/
  | invalidJson (error : Json.ReadError)
  /-- The file could not be read. -/
  | unreadable (path : String) (cause : ReadFailure)
  /-- A result could not be written. -/
  | unrenderable (text : String)
  deriving DecidableEq, Repr

namespace InputFailure

/-- The class of a failure. -/
def failureClass : InputFailure → String
  | invalidJson _ => "invalid_json"
  | unreadable _ _ => "io_error"
  | unrenderable _ => "render_error"

/-- The classes that say something about the input. -/
def inputDefectClasses : List String :=
  ["invalid_json", "io_error"]

/-- What follows the class in a message. -/
def detail : InputFailure → String
  | invalidJson error => error.message
  | unreadable path cause => "failed to read " ++ path ++ ": " ++ cause.message
  | unrenderable text => text

/-- The wording of a failure: the class and the detail. -/
def message (failure : InputFailure) : String :=
  failure.failureClass ++ ": " ++ failure.detail

/-- The wording of the underlying cause, where there is one. -/
def cause? : InputFailure → Option String
  | invalidJson error => some error.message
  | unreadable _ cause => some cause.message
  | unrenderable _ => none

end InputFailure

end Provenance
