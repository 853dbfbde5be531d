import Provenance.Json.Reader.Skip
import Provenance.Json.Reader.Value
import Provenance.Json.Shape
import Provenance.Verdict.Basic

/-!
# Reading verdicts

A verdict is read from an object with its six fields in any order, or from an
array of the six values in the order of the fields.  Keys of an object that
name no field are passed over.  A value of the wrong kind is a failure of its
own, reported behind a scalar and in front of an opening bracket.
-/

namespace Provenance

open Json

namespace Verdict

/-- A field of a verdict. -/
inductive FieldName where
  | deterministicProjection
  | entropyValid
  | errors
  | passed
  | replayIdentityValid
  | schemaValid
  deriving DecidableEq, Repr

instance : Vocabulary FieldName where
  all :=
    [.deterministicProjection, .entropyValid, .errors, .passed, .replayIdentityValid,
      .schemaValid]
  name
    | .deterministicProjection => "deterministic_projection"
    | .entropyValid => "entropy_valid"
    | .errors => "errors"
    | .passed => "passed"
    | .replayIdentityValid => "replay_identity_valid"
    | .schemaValid => "schema_valid"
  noun := "field"

/-- The fields of a verdict that have been read so far. -/
structure Draft where
  deterministicProjection : Option Bool
  entropyValid : Option Bool
  errors : Option (List String)
  passed : Option Bool
  replayIdentityValid : Option Bool
  schemaValid : Option Bool
  deriving DecidableEq, Repr

namespace Draft

/-- No field has been read. -/
def empty : Draft :=
  ⟨none, none, none, none, none, none⟩

/-- A field has been read. -/
def has (draft : Draft) : FieldName → Bool
  | .deterministicProjection => draft.deterministicProjection.isSome
  | .entropyValid => draft.entropyValid.isSome
  | .errors => draft.errors.isSome
  | .passed => draft.passed.isSome
  | .replayIdentityValid => draft.replayIdentityValid.isSome
  | .schemaValid => draft.schemaValid.isSome

/-- The value of a field, or the field if it has not been read. -/
def required {α : Type} (name : FieldName) : Option α → Except FieldName α
  | some value => .ok value
  | none => .error name

/-- The verdict, or the first field that has not been read. -/
def verdict (draft : Draft) : Except FieldName Verdict := do
  let deterministicProjection ← required .deterministicProjection draft.deterministicProjection
  let entropyValid ← required .entropyValid draft.entropyValid
  let errors ← required .errors draft.errors
  let passed ← required .passed draft.passed
  let replayIdentityValid ← required .replayIdentityValid draft.replayIdentityValid
  let schemaValid ← required .schemaValid draft.schemaValid
  .ok { deterministicProjection, entropyValid, errors, passed, replayIdentityValid, schemaValid }

end Draft

namespace Reader

open Json.Reader

/-! ## Values of a known kind -/

/-- Read what stands in place of an expected value and fail with its shape. -/
def refuse {α : Type} (expected : String) : Reader α
  | [] => failAhead .endInValue []
  | byte :: rest =>
      let mismatch (shape : Shape) (rest : List UInt8) : Except Failure (α × List UInt8) :=
        failHere (.unexpectedKind shape.describe expected) rest
      if byte = ascii '[' then mismatch .sequence (byte :: rest)
      else if byte = ascii '\x7b' then mismatch .map (byte :: rest)
      else do
        let (value, rest) ← scalar (byte :: rest)
        mismatch value.shape rest

/-- A truth value. -/
def flag : Reader Bool := fun bytes =>
  match skipBlanks bytes with
  | [] => failAhead .endInValue []
  | byte :: rest =>
      if byte = ascii 't' then word true ['r', 'u', 'e'] rest
      else if byte = ascii 'f' then word false ['a', 'l', 's', 'e'] rest
      else refuse "a boolean" (byte :: rest)

/-- A string. -/
def error : Reader String := fun bytes =>
  match skipBlanks bytes with
  | [] => failAhead .endInValue []
  | byte :: rest =>
      if byte = ascii '"' then text rest else refuse "a string" (byte :: rest)

/-- An array of strings. -/
def errors : Reader (List String) := fun bytes =>
  match skipBlanks bytes with
  | [] => failAhead .endInValue []
  | byte :: rest =>
      if byte = ascii '[' then separated .list error rest
      else refuse "a sequence" (byte :: rest)

/-- The value of a field, added to those already read. -/
def field (draft : Draft) : FieldName → Reader Draft
  | .deterministicProjection => flag.map ({ draft with deterministicProjection := some · })
  | .entropyValid => flag.map ({ draft with entropyValid := some · })
  | .errors => errors.map ({ draft with errors := some · })
  | .passed => flag.map ({ draft with passed := some · })
  | .replayIdentityValid => flag.map ({ draft with replayIdentityValid := some · })
  | .schemaValid => flag.map ({ draft with schemaValid := some · })

/-- The verdict of a draft to which nothing will be added. -/
def finish (draft : Draft) : Reader Verdict := fun rest =>
  match draft.verdict with
  | .ok verdict => .ok (verdict, rest)
  | .error name => failHere (.missingField (Vocabulary.name name)) rest

/-! ## Objects -/

/-- Fail over the fields of an object.  The place is behind the blanks that
follow, and behind the closing bracket if it is next. -/
def failInObject {α : Type} (cause : Cause) (rest : List UInt8) : Except Failure α :=
  match skipBlanks rest with
  | [] => failHere cause []
  | byte :: rest =>
      if byte = Brackets.object.close then failHere cause rest else failHere cause (byte :: rest)

/-- A member: a field that has not been read yet, or one to pass over. -/
def memberOf (draft : Draft) : Reader Draft
  | [] => failAhead .endInValue []
  | byte :: rest =>
      if byte = ascii '"' then do
        let (key, rest) ← text rest
        match Vocabulary.ofName? key with
        | some (name : FieldName) =>
            if draft.has name then failInObject (.duplicateField key) rest
            else do
              let ((), rest) ← colon rest
              field draft name rest
        | none => do
            let ((), rest) ← colon rest
            skip.map (fun _ => draft) rest
      else failAhead .expectedKey (byte :: rest)

/-- A verdict from the members of an object, behind the opening bracket. -/
def ofMembers : Reader Verdict := fun bytes => do
  let (draft, rest) ← gather .object memberOf .empty bytes
  finish draft rest

/-! ## Arrays -/

/-- The values of the given fields, in order and behind those already read. -/
def ofItemsFrom (draft : Draft) (read : Nat) : List FieldName → Reader Draft
  | [], bytes => .ok (draft, bytes)
  | name :: names, bytes => do
      let (more, rest) ← another .list (read == 0) bytes
      if more then
        let (draft, rest) ← field draft name rest
        ofItemsFrom draft (read + 1) names rest
      else failHere (.invalidLength read "struct Verdict with 6 elements") rest

/-- The closing bracket behind the last value. -/
def closeList : Reader Unit := fun bytes =>
  match skipBlanks bytes with
  | [] => failAhead .endInList []
  | byte :: rest =>
      if byte = Brackets.list.close then .ok ((), rest)
      else if byte = ascii ',' then
        let rest := skipBlanks rest
        if rest.head? = some Brackets.list.close then failAhead .trailingComma rest
        else failAhead .trailingCharacters rest
      else failAhead .trailingCharacters (byte :: rest)

/-- A verdict from the values of an array, behind the opening bracket. -/
def ofItems : Reader Verdict := fun bytes => do
  let (draft, rest) ← ofItemsFrom .empty 0 Vocabulary.all bytes
  let ((), rest) ← closeList rest
  finish draft rest

/-- A verdict. -/
def verdict : Reader Verdict := fun bytes =>
  match skipBlanks bytes with
  | [] => failAhead .endInValue []
  | byte :: rest =>
      if byte = ascii '[' then ofItems rest
      else if byte = ascii '\x7b' then ofMembers rest
      else refuse "struct Verdict" (byte :: rest)

end Reader

/-- The verdict that a JSON text spells. -/
def ofBytes (bytes : List UInt8) : Except ReadError Verdict :=
  Json.Reader.complete Reader.verdict bytes

end Verdict

end Provenance
