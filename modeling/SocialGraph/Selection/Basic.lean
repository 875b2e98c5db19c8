import SocialGraph.Json.Basic
import SocialGraph.Text.NameMap

/-!
# Selections

A selection is what a request asks the engine for: a list of fields, each with a name, an
optional alias (the key of its value in the response), arguments, the object type it was
selected under when it came from a fragment, and a sub-selection of its own.

Argument values are input values: variables have already been replaced by their values, so an
input value is a literal, a list or an object. The arguments of a field and the members of an
object value are sorted by name, one per name.
-/

namespace SocialGraph

/-- An argument value. -/
inductive InputValue where
  | null
  | int (n : Int)
  | float (x : Float)
  | string (s : String)
  | boolean (b : Bool)
  | enum (name : String)
  | list (items : List InputValue)
  | object (members : List (String × InputValue))
  deriving Inhabited

namespace InputValue

/-- The kind of a value, as validation messages name it. -/
def describe : InputValue → String
  | .null => "null"
  | .int _ => "an integer"
  | .float _ => "a float"
  | .string _ => "a string"
  | .boolean _ => "a boolean"
  | .enum _ => "an enum value"
  | .list _ => "a list"
  | .object _ => "an object"

mutual

/-- The value of a JSON variable: an integer in the signed 64-bit range is an integer, every
other number a float; object members are sorted by name. -/
def ofJson : Json → InputValue
  | .null => .null
  | .bool b => .boolean b
  | .num n =>
    match n.toInt64? with
    | some i => .int i
    | none => .float n.toFloat
  | .str s => .string s
  | .arr items => .list (ofJsonItems items)
  | .obj members => .object (NameMap.ofList (ofJsonMembers members))

/-- The values of JSON items. -/
def ofJsonItems : List Json → List InputValue
  | [] => []
  | j :: js => ofJson j :: ofJsonItems js

/-- The values of JSON members, in their order. -/
def ofJsonMembers : List (String × Json) → List (String × InputValue)
  | [] => []
  | (k, j) :: ms => (k, ofJson j) :: ofJsonMembers ms

end

end InputValue

/-- A requested field. -/
structure Field where
  aliasName : Option String
  name : String
  arguments : List (String × InputValue)
  typeCondition : Option String
  selection : List Field
  deriving Inhabited

namespace Field

/-- The key of the field's value in the response: its alias, or else its name. -/
def responseKey (f : Field) : String := f.aliasName.getD f.name

/-- The value of an argument. -/
def argument (f : Field) (name : String) : Option InputValue := f.arguments.lookup name

/-- Whether the field applies to objects of a type: it does unless it was selected under
another type. -/
def appliesTo (f : Field) (typeName : String) : Bool :=
  match f.typeCondition with
  | none => true
  | some t => t == typeName

end Field

end SocialGraph
