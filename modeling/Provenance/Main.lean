import Provenance.Command.Run

/-!
# The program

Reads the one file that a command line may ask for, runs the command line and
writes what it leaves behind.
-/

namespace Provenance

open Command

/-- Why reading a file failed. -/
def readFailureOf : IO.Error → ReadFailure
  | .noFileOrDirectory .. => .noSuchFile
  | .permissionDenied .. => .accessDenied
  | .invalidArgument _ 36 _ => .nameTooLong
  | .inappropriateType _ code _ => if code = 21 then .isDirectory else .notDirectory
  | error => .described (toString error)

/-- The content of a file. -/
def readFile (path : String) : IO (Except ReadFailure (List UInt8)) := do
  try
    let bytes ← IO.FS.readBinFile path
    return .ok bytes.toList
  catch error =>
    return .error (readFailureOf error)

/-- Run a command line and return its exit code. -/
def execute (arguments : List String) : IO UInt32 := do
  let request := Request.ofArguments arguments
  let found ←
    match request with
    | .run invocation => readFile invocation.document
    | _ => pure (.error .noSuchFile)
  let outcome := request.perform fun _ => found
  (← IO.getStderr).putStr outcome.stderr
  (← IO.getStdout).putStr outcome.stdout
  return outcome.exit.toUInt32

end Provenance

/-- The command line program. -/
def main (arguments : List String) : IO UInt32 :=
  Provenance.execute arguments
