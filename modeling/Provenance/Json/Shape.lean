import Provenance.Json.Writer
import Provenance.Text.Quoted

/-!
# The shape of a value

What a message says about a value that does not fit: scalars are shown, arrays
and objects are only named.
-/

namespace Provenance.Json

/-- A scalar, or the kind of a composite value. -/
inductive Shape where
  | null
  | bool (value : Bool)
  | number (value : Number)
  | string (text : String)
  | sequence
  | map
  deriving DecidableEq, Repr

/-- The shape of a value. -/
def Value.shape : Value → Shape
  | .null => .null
  | .bool value => .bool value
  | .number value => .number value
  | .string text => .string text
  | .array _ => .sequence
  | .object _ => .map

/-- How a shape is named in a message. -/
def Shape.describe : Shape → String
  | null => "null"
  | bool true => "boolean `true`"
  | bool false => "boolean `false`"
  | number (.integer value bounds) =>
      "integer `" ++ String.ofList (Number.integer value bounds).text ++ "`"
  | number (.double value) =>
      "floating point `" ++ String.ofList (Number.double value).text ++ "`"
  | string text => "string " ++ Text.Quoted.encode text
  | sequence => "sequence"
  | map => "map"

end Provenance.Json
