/-!
# Media types

A content type names a media type: `type/subtype`, then parameters, each `;name=value`.

* The type and the subtype are tokens, and the type is not empty.
* The subtype's *suffix* is what follows its last `+`; a `+` that starts the subtype does not
  count, so `+json` has no suffix.
* A parameter's name is a nonempty token, and its value is a token (possibly empty) or a quoted
  string. Spaces may stand before a parameter's name and after a quoted value, and nowhere else.
* A header value holds only visible ASCII characters and tabs.

A request body is read as JSON when its content type is a media type whose subtype, letter case
aside, is `json`, or whose suffix is. The parameters are checked but not looked at: a content
type whose parameters are malformed is not a media type at all.
-/

namespace SocialGraph

namespace MediaType

/-- Whether a character may stand in a token. -/
def tokenChar (c : Char) : Bool :=
  c.isAlphanum || "!#$%&\x27*+-.^_\x60|~".toList.contains c

/-- Whether a character may stand in a quoted parameter value: any but a control character. -/
def quotedChar (c : Char) : Bool := 31 < c.toNat && c.toNat != 127

/-- Whether a character may stand in a header value: a visible ASCII character, a space or a
tab. -/
def headerChar (c : Char) : Bool := c == '\t' || (32 ≤ c.toNat && c.toNat < 127)

/-- Where a reading of the parameters stands. -/
inductive ParamState where
  /-- Before a parameter's name, where spaces may come. -/
  | beforeName
  /-- Inside a parameter's name, after its first character. -/
  | name
  /-- Just after a parameter's `=`. -/
  | beforeValue
  /-- Inside a value that is a token, after its first character. -/
  | token
  /-- Just after the opening quote of a value: a quote here is part of the value. -/
  | openQuote
  /-- Inside a quoted value, where a quote closes it. -/
  | quoted
  /-- After the closing quote of a value, where spaces may come. -/
  | afterQuote

/-- Whether the text after a `;` is a well-formed list of parameters, read from a state. The
text may end wherever a parameter is complete or none has begun: after a value, right after an
`=` (an empty value), or before a name. -/
def paramsFrom : ParamState → List Char → Bool
  | .beforeName, [] => true
  | .beforeName, c :: cs =>
    if c == ' ' then paramsFrom .beforeName cs else tokenChar c && paramsFrom .name cs
  | .name, [] => false
  | .name, c :: cs =>
    if c == '=' then paramsFrom .beforeValue cs else tokenChar c && paramsFrom .name cs
  | .beforeValue, [] => true
  | .beforeValue, c :: cs =>
    if c == '"' then paramsFrom .openQuote cs else tokenChar c && paramsFrom .token cs
  | .token, [] => true
  | .token, c :: cs =>
    if c == ';' then paramsFrom .beforeName cs else tokenChar c && paramsFrom .token cs
  | .openQuote, [] => false
  | .openQuote, c :: cs => quotedChar c && paramsFrom .quoted cs
  | .quoted, [] => false
  | .quoted, c :: cs =>
    if c == '"' then paramsFrom .afterQuote cs else quotedChar c && paramsFrom .quoted cs
  | .afterQuote, [] => true
  | .afterQuote, c :: cs =>
    if c == ';' then paramsFrom .beforeName cs else c == ' ' && paramsFrom .afterQuote cs

/-- The subtype of a media type, or none when the text is not a media type. -/
def subtypeOf (text : List Char) : Option (List Char) :=
  match text.span tokenChar with
  | (kind, '/' :: rest) =>
    if kind.isEmpty then none
    else
      match rest.span tokenChar with
      | (sub, []) => some sub
      | (sub, ';' :: params) => if !sub.isEmpty && paramsFrom .beforeName params then some sub else none
      | _ => none
  | _ => none

/-- The position of the `+` that starts a subtype's suffix: its last `+`, unless that is its
first character. -/
def suffixStart (sub : List Char) : Option Nat :=
  ((sub.zipIdx.filter fun (c, i) => c == '+' && 0 < i).getLast?).map (·.2)

/-- Whether a content type names JSON: its subtype, or the suffix of its subtype, is `json` in
any letter case. -/
def isJson (value : String) : Bool :=
  let chars := value.toList
  chars.all headerChar &&
    match subtypeOf chars with
    | none => false
    | some sub =>
      let lower := sub.map Char.toLower
      match suffixStart lower with
      | none => lower == "json".toList
      | some i => lower.take i == "json".toList || lower.drop (i + 1) == "json".toList

end MediaType

end SocialGraph
