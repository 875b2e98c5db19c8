import SocialGraph.Json.Basic
import SocialGraph.Decimal.Shortest

/-!
# Writing JSON

Compact JSON text: no blank between tokens, object members in their order. A double is written
with its shortest decimal (`Decimal.shortest`) in the layout fixed by `floatText`: positional
when the decimal point falls within sixteen digits of the first digit or less than five
places after the point, scientific otherwise (the exponent always signed, as in `1e+20` and
`1.5e-7`), and always with a fraction or an exponent so that it reads back as a double.
Strings escape the quote mark, the backslash and the control characters; everything else is
written as it is.
-/

namespace SocialGraph.Json

/-- The text of the decimal with significant digits `ds` whose decimal point falls after the
first `point` of them; `point` may be zero or negative, or exceed the number of digits. -/
def layout (ds : String) (point : Int) : String :=
  let n : Int := ds.length
  if 0 ≤ point - n ∧ point ≤ 16 then
    -- an integer: trailing zeros, then ".0"
    ds ++ String.ofList (List.replicate (point - n).toNat '0') ++ ".0"
  else if 0 < point ∧ point ≤ 16 then
    String.ofList (ds.toList.take point.toNat) ++ "." ++ String.ofList (ds.toList.drop point.toNat)
  else if -5 < point ∧ point ≤ 0 then
    "0." ++ String.ofList (List.replicate (-point).toNat '0') ++ ds
  else
    let exp := point - 1
    let expText := (if exp < 0 then "-" else "+") ++ toString exp.natAbs
    match ds.toList with
    | [d] => d.toString ++ "e" ++ expText
    | d :: rest => d.toString ++ "." ++ String.ofList rest ++ "e" ++ expText
    | [] => "0e" ++ expText

/-- The text of a finite double: its shortest decimal in the layout above, with a minus sign
for a negative value, negative zero included. -/
def floatText (x : Float) : String :=
  let sign := if (Decimal.Binary.ofFloat x).negative then "-" else ""
  let s := Decimal.shortest x
  if s.digits = 0 then sign ++ "0.0" else
  let ds := toString s.digits
  sign ++ layout ds (ds.length + s.exponent)

/-- The four lowercase hex digits of a code unit below `2^16`. -/
def hex4 (n : Nat) : String :=
  let d := Nat.toDigits 16 n
  String.ofList (List.replicate (4 - d.length) '0' ++ d)

/-- One character of a JSON string's text. -/
def escapeChar : Char → String
  | '"' => "\\\""
  | '\\' => "\\\\"
  | '\n' => "\\n"
  | '\r' => "\\r"
  | '\t' => "\\t"
  | '\x08' => "\\b"
  | '\x0c' => "\\f"
  | c => if c.val < 0x20 then "\\u" ++ hex4 c.val.toNat else c.toString

/-- A JSON string literal. -/
def quote (s : String) : String :=
  "\"" ++ String.join (s.toList.map escapeChar) ++ "\""

/-- The text of a number. -/
def Number.render : Number → String
  | .unsigned n => toString n
  | .signed n => toString n
  | .float x => floatText x

mutual

/-- The compact text of a value. -/
def render : Json → String
  | .null => "null"
  | .bool true => "true"
  | .bool false => "false"
  | .num n => n.render
  | .str s => quote s
  | .arr items => "[" ++ renderItems items ++ "]"
  | .obj members => "\x7b" ++ renderMembers members ++ "\x7d"

/-- The items of an array, separated by commas. -/
def renderItems : List Json → String
  | [] => ""
  | [j] => render j
  | j :: rest => render j ++ "," ++ renderItems rest

/-- The members of an object, separated by commas. -/
def renderMembers : List (String × Json) → String
  | [] => ""
  | [(k, v)] => quote k ++ ":" ++ render v
  | (k, v) :: rest => quote k ++ ":" ++ render v ++ "," ++ renderMembers rest

end

end SocialGraph.Json
