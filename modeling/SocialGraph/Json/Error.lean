import SocialGraph.Json.Render
import SocialGraph.Text.Quoted

/-!
# Why a JSON text or value was refused

A refusal has a cause (`Fault`) and, when it comes from reading text, the place where reading
stopped. Causes split into the syntax of the text (an unexpected end, a missing comma, a bad
escape, a number out of range) and the shape a decoder expected (a value of the wrong type, a
missing or repeated field, an unknown field of a closed record, a check that refused a string).
Each cause has one message; `Error.message` adds the place as `at line L column C`, where the
column counts the bytes of the line read before that place.
-/

namespace SocialGraph.Json

/-- A place in a text: the line, counted from 1, and the number of bytes of that line before
the place. -/
structure Position where
  line : Nat
  column : Nat
  deriving Repr, DecidableEq

/-- What stood where a value of another shape was expected. -/
inductive Found where
  | null
  | bool (b : Bool)
  | unsigned (n : Nat)
  | signed (n : Int)
  | float (x : Float)
  | str (s : String)
  | seq
  | map

/-- The phrase for what was found, as in "invalid type: integer `5`". -/
def Found.describe : Found → String
  | .null => "null"
  | .bool b => "boolean `" ++ toString b ++ "`"
  | .unsigned n => "integer `" ++ toString n ++ "`"
  | .signed n => "integer `" ++ toString n ++ "`"
  | .float x => "floating point `" ++ floatText x ++ "`"
  | .str s => "string " ++ Text.quoted s
  | .seq => "sequence"
  | .map => "map"

/-- What was found where a number was expected, by the class of the number. -/
def Found.ofNumber : Number → Found
  | .unsigned n => .unsigned n
  | .signed n => .signed n
  | .float x => .float x

/-- What a value is, for messages. -/
def Found.ofJson : Json → Found
  | .null => .null
  | .bool b => .bool b
  | .num n => .ofNumber n
  | .str s => .str s
  | .arr _ => .seq
  | .obj _ => .map

/-- The cause of a refusal. -/
inductive Fault where
  /-- The text ended inside an array. -/
  | endInList
  /-- The text ended inside an object. -/
  | endInObject
  /-- The text ended inside a string. -/
  | endInString
  /-- The text ended where a value should start or continue. -/
  | endInValue
  | expectedColon
  | expectedCommaOrListEnd
  | expectedCommaOrObjectEnd
  /-- A literal `null`, `true` or `false` was misspelt. -/
  | expectedIdent
  | expectedValue
  | invalidEscape
  | invalidNumber
  | numberOutOfRange
  | invalidCodePoint
  /-- A string held a raw character below U+0020. -/
  | controlCharacter
  | keyNotString
  /-- A `\u` escape gave half of a surrogate pair without its other half. -/
  | loneSurrogate
  | trailingComma
  | trailingCharacters
  | unexpectedEndOfHexEscape
  /-- Arrays and objects were nested too deeply. -/
  | tooDeep
  | invalidType (found : Found) (expected : String)
  | invalidValue (found : Found) (expected : String)
  | invalidLength (length : Nat) (expected : String)
  | unknownField (name : String) (expected : List String)
  | unknownVariant (name : String) (expected : List String)
  | missingField (name : String)
  | duplicateField (name : String)
  /-- A check on a value refused it with this message. -/
  | custom (message : String)

/-- A list of names in backticks: one, two joined by "or", or "one of" a comma list. -/
def oneOf (names : List String) : String :=
  let tick (n : String) : String := "`" ++ n ++ "`"
  match names with
  | [a] => tick a
  | [a, b] => tick a ++ " or " ++ tick b
  | _ => "one of " ++ ", ".intercalate (names.map tick)

/-- The message of a cause. -/
def Fault.message : Fault → String
  | .endInList => "EOF while parsing a list"
  | .endInObject => "EOF while parsing an object"
  | .endInString => "EOF while parsing a string"
  | .endInValue => "EOF while parsing a value"
  | .expectedColon => "expected `:`"
  | .expectedCommaOrListEnd => "expected `,` or `]`"
  | .expectedCommaOrObjectEnd => "expected `,` or `\x7d`"
  | .expectedIdent => "expected ident"
  | .expectedValue => "expected value"
  | .invalidEscape => "invalid escape"
  | .invalidNumber => "invalid number"
  | .numberOutOfRange => "number out of range"
  | .invalidCodePoint => "invalid unicode code point"
  | .controlCharacter => "control character (\\u0000-\\u001F) found while parsing a string"
  | .keyNotString => "key must be a string"
  | .loneSurrogate => "lone leading surrogate in hex escape"
  | .trailingComma => "trailing comma"
  | .trailingCharacters => "trailing characters"
  | .unexpectedEndOfHexEscape => "unexpected end of hex escape"
  | .tooDeep => "recursion limit exceeded"
  | .invalidType found expected => "invalid type: " ++ found.describe ++ ", expected " ++ expected
  | .invalidValue found expected => "invalid value: " ++ found.describe ++ ", expected " ++ expected
  | .invalidLength n expected => "invalid length " ++ toString n ++ ", expected " ++ expected
  | .unknownField name [] => "unknown field `" ++ name ++ "`, there are no fields"
  | .unknownField name expected => "unknown field `" ++ name ++ "`, expected " ++ oneOf expected
  | .unknownVariant name [] => "unknown variant `" ++ name ++ "`, there are no variants"
  | .unknownVariant name expected =>
    "unknown variant `" ++ name ++ "`, expected " ++ oneOf expected
  | .missingField name => "missing field `" ++ name ++ "`"
  | .duplicateField name => "duplicate field `" ++ name ++ "`"
  | .custom message => message

/-- A refusal: its cause and, for text, where reading stopped. -/
structure Error where
  fault : Fault
  position : Option Position

/-- The message of a refusal, with its place when it has one. -/
def Error.message (e : Error) : String :=
  match e.position with
  | some p => e.fault.message ++ " at line " ++ toString p.line ++ " column " ++ toString p.column
  | none => e.fault.message

end SocialGraph.Json
