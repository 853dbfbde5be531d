import Provenance.Document.Vocabulary

/-!
# Findings

A finding is one way in which a document breaks the rules.  `Finding.message`
is the only place where findings are put into words.  `Findings` collects them
in the order in which they are pushed.
-/

namespace Provenance

open Json

/-- A violation.  A field is named by its path from the root. -/
inductive Finding where
  /-- A required key is absent from the record at `path`. -/
  | missing (path key : String)
  /-- A field differs from the one value that it may have. -/
  | notEqual (field expected : String)
  /-- A field is no content hash. -/
  | notContentHash (field : String)
  /-- A flag is not literally true. -/
  | notTrue (field : String)
  /-- An optional flag is neither absent nor null nor false. -/
  | notFalse (field : String)
  /-- The invariants are no list, or empty, or two of them are equal. -/
  | invariantsNotUnique
  /-- The invariants are a list without repetitions, but not of known names. -/
  | invariantsNotCanonical
  /-- The compression ratio is no number or negative. -/
  | ratioNotNonnegative
  /-- The mode is no known name. -/
  | unknownMode
  /-- The styling is no object. -/
  | stylingNotRecord
  /-- The declared projection hash is not the computed one. -/
  | identityMismatch
  /-- A remark in the words of a caller. -/
  | remark (text : String)
  deriving DecidableEq, Repr

/-- The wording of a finding. -/
def Finding.message : Finding → String
  | missing path key => path ++ "." ++ key ++ ": missing"
  | notEqual field expected => field ++ " must equal " ++ expected
  | notContentHash field => field ++ " must match sha256:[a-f0-9]\x7b64\x7d"
  | notTrue field => field ++ " must be true"
  | notFalse field => field ++ " must be false when provided"
  | invariantsNotUnique => "source.invariants must be a non-empty unique list"
  | invariantsNotCanonical => "source.invariants contains non-canonical values"
  | ratioNotNonnegative => "source.compression_ratio must be a number >= 0"
  | unknownMode =>
      "projection.mode must be one of " ++ "|".intercalate (Vocabulary.names Mode)
  | stylingNotRecord => "projection.styling must be an object"
  | identityMismatch => "replay.hash_projection does not match deterministic projection hash"
  | remark text => text

/-- Findings in the order in which they arose. -/
structure Findings where
  entries : List Finding
  deriving DecidableEq, Repr

namespace Findings

/-- No findings. -/
def empty : Findings := ⟨[]⟩

/-- Add a finding behind all others. -/
def push (findings : Findings) (finding : Finding) : Findings :=
  ⟨findings.entries ++ [finding]⟩

/-- Add a finding for every key that is absent from a record, in the order of
the keys. -/
def requireKeys (findings : Findings) (record : Record) (keys : List String)
    (path : String) : Findings :=
  keys.foldl
    (fun findings key =>
      if record.contains key then findings else findings.push (.missing path key))
    findings

/-- The number of findings. -/
def size (findings : Findings) : Nat :=
  findings.entries.length

/-- The messages in order. -/
def errors (findings : Findings) : List String :=
  findings.entries.map Finding.message

@[simp]
theorem entries_empty : empty.entries = [] :=
  rfl

@[simp]
theorem entries_push (findings : Findings) (finding : Finding) :
    (findings.push finding).entries = findings.entries ++ [finding] :=
  rfl

/-- The keys that are absent are reported behind what was there. -/
theorem entries_requireKeys (findings : Findings) (record : Record) (keys : List String)
    (path : String) :
    (findings.requireKeys record keys path).entries =
      findings.entries ++
        (keys.filter fun key => !record.contains key).map (Finding.missing path) := by
  unfold requireKeys
  induction keys generalizing findings with
  | nil => simp
  | cons key keys ih =>
      rw [List.foldl_cons, ih]
      by_cases present : record.contains key <;> simp [present]

end Findings

end Provenance
