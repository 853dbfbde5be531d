import Provenance.Json.Shape

/-!
# Inspecting values

The form in which a value appears in a diagnostic: every value is marked with
its kind, so that a string and a number of the same spelling look different.
-/

namespace Provenance.Json

namespace Value

mutual

/-- A value with its kind. -/
def inspect : Value → String
  | null => "Null"
  | bool true => "Bool(true)"
  | bool false => "Bool(false)"
  | number value => "Number(" ++ String.ofList value.text ++ ")"
  | string text => "String(" ++ Text.Quoted.encode text ++ ")"
  | array items => "Array [" ++ ", ".intercalate (inspectItems items) ++ "]"
  | object members => "Object \x7b" ++ ", ".intercalate (inspectMembers members) ++ "\x7d"
termination_by structural value => value

/-- The items of an array with their kinds. -/
def inspectItems : List Value → List String
  | [] => []
  | item :: items => item.inspect :: inspectItems items
termination_by structural items => items

/-- The members of an object with the kinds of their values. -/
def inspectMembers : List (String × Value) → List String
  | [] => []
  | (key, value) :: members =>
      (Text.Quoted.encode key ++ ": " ++ value.inspect) :: inspectMembers members
termination_by structural members => members

end

/-- A value that may be absent. -/
def inspect? : Option Value → String
  | none => "None"
  | some value => "Some(" ++ value.inspect ++ ")"

end Value

end Provenance.Json
