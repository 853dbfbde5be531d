import Provenance.Json.Shape

/-!
# Closed vocabularies

Some fields of a document may only hold names of a closed set.  A vocabulary
lists its members in a fixed order and gives each a name.  A member is found
from its bare name (`ofName?`), or decoded from a JSON value
(`Vocabulary.ofValue`): a string, or an object whose only key is the name and
whose value is null.
-/

namespace Provenance

open Json

/-- A closed set of named things. -/
class Vocabulary (α : Type) where
  /-- The members in order. -/
  all : List α
  /-- The name of a member. -/
  name : α → String
  /-- What a member is called in a message. -/
  noun : String

namespace Vocabulary

variable {α : Type} [Vocabulary α]

/-- The member with a name. -/
def ofName? (text : String) : Option α :=
  all.find? fun candidate => name candidate == text

/-- The names of all members in order. -/
def names (α : Type) [Vocabulary α] : List String :=
  (all : List α).map name

/-- What is said about a name that no member has. -/
def unknownName (α : Type) [Vocabulary α] (text : String) : String :=
  "unknown " ++ noun α ++ ": " ++ text

/-- A list of members in the order of the vocabulary, repetitions kept. -/
def sort [BEq α] (members : List α) : List α :=
  all.flatMap fun member => List.replicate (members.count member) member

/-- Why a JSON value is no member. -/
inductive Mismatch where
  /-- No member has the name. -/
  | unknown (name : String) (expected : List String)
  /-- The name is the key of an object, but the value under it is not null. -/
  | notUnit (found : Shape)
  /-- An object with another number of keys than one. -/
  | notSingleKey
  /-- Neither a string nor an object. -/
  | notName (found : Shape)
  deriving DecidableEq, Repr

/-- The wording of a mismatch. -/
def Mismatch.message : Mismatch → String
  | unknown name expected =>
      "unknown variant `" ++ name ++ "`, expected one of " ++
        ", ".intercalate (expected.map fun name => "`" ++ name ++ "`")
  | notUnit found => "invalid type: " ++ found.describe ++ ", expected unit"
  | notSingleKey => "invalid value: map, expected map with a single key"
  | notName found => "invalid type: " ++ found.describe ++ ", expected string or map"

/-- The member with a name, or the mismatch. -/
def named (text : String) : Except Mismatch α :=
  match ofName? text with
  | some member => .ok member
  | none => .error (.unknown text (names α))

/-- The member that a JSON value denotes.  An unknown name is reported before
the value under it is looked at. -/
def ofValue : Value → Except Mismatch α
  | .string text => named text
  | .object [(text, .null)] => named text
  | .object [(text, value)] => do
      let _ ← named (α := α) text
      .error (.notUnit value.shape)
  | .object _ => .error .notSingleKey
  | value => .error (.notName value.shape)

end Vocabulary

/-! ## The vocabularies of documents -/

/-- The invariants of a collapse that a source may declare. -/
inductive Invariant where
  | collapseOnly
  | fieldPerception
  | compressionLaw
  | unreachableStates
  deriving DecidableEq, Repr

instance : Vocabulary Invariant where
  all := [.collapseOnly, .fieldPerception, .compressionLaw, .unreachableStates]
  name
    | .collapseOnly => "collapse_only"
    | .fieldPerception => "field_perception"
    | .compressionLaw => "compression_law"
    | .unreachableStates => "unreachable_states"
  noun := "invariant"

/-- The targets that a projection may be rendered for. -/
inductive Mode where
  | svg
  | dom
  | css
  | canvas
  | terminal
  deriving DecidableEq, Repr

instance : Vocabulary Mode where
  all := [.svg, .dom, .css, .canvas, .terminal]
  name
    | .svg => "svg"
    | .dom => "dom"
    | .css => "css"
    | .canvas => "canvas"
    | .terminal => "terminal"
  noun := "projection mode"

end Provenance
