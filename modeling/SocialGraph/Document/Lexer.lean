import SocialGraph.Document.Report
import SocialGraph.Text.Quoted

/-!
# The token stream

The stream cuts the text into tokens on demand. Between tokens it skips blanks: spaces,
commas, tabs (which count eight columns), carriage returns (which count none), line feeds, the
byte order mark, and comments from `#` to the end of the line (a carriage return also ends a
comment and counts as a new line).

Opening brackets `(`, `[` and `{` draw on a budget of 50 and closing ones give back to it; an
opening bracket met with an empty budget is refused with the message
`Recursion limit exceeded`, and the budget is left as it was. The budget is charged when a
bracket is cut from the text, so the stream remembers the last token it cut: asking again for
the token at the same place returns it without cutting it, and without charging, again.
Going back to an earlier place (`reset`) moves the reading place only; the budget and the
remembered token stay.

Numbers are cut up to the next blank or punctuator and then checked: an integer has no
leading zero, a float has digits after its point and an exponent that starts with a sign or a
digit from 1 to 8. A string ends at the first unescaped quote and may not cross a line; a
block string ends at the first triple quote not preceded by a backslash.
-/

namespace SocialGraph.Document

/-- A reading place: the text still to read, how many characters were read, and the place. -/
structure Mark where
  rest : List Char
  offset : Nat
  position : Pos

/-- The token stream: the reading place, the bracket budget, and the last token cut (the
offset it started at, the token, and the place after it). -/
structure Tokens where
  here : Mark
  budget : Nat
  last : Option (Nat × Token × Mark)

/-- The bracket budget of a new stream. -/
def bracketBudget : Nat := 50

namespace Mark

/-- The place after `n` characters of one line. -/
def skip (m : Mark) (n : Nat) : Mark :=
  ⟨m.rest.drop n, m.offset + n, ⟨m.position.line, m.position.column + n⟩⟩

/-- The place after reading `cs`, counting lines: after a line feed the column starts again. -/
def across (m : Mark) (cs : List Char) : Mark :=
  let breaks := cs.count '\n'
  let column :=
    if breaks = 0 then m.position.column + cs.length
    else (cs.reverse.takeWhile (· != '\n')).length + 1
  ⟨m.rest.drop cs.length, m.offset + cs.length, ⟨m.position.line + breaks, column⟩⟩

end Mark

/-- Skips a comment up to and including the character that ends its line. -/
def skipComment : List Char → Nat → Pos → List Char × Nat × Pos
  | [], n, p => ([], n, p)
  | c :: r, n, p =>
    if c == '\r' || c == '\n' then (r, n + 1, ⟨p.line + 1, 1⟩) else skipComment r (n + 1) p

/-- Skipping a comment never lengthens the text. -/
theorem skipComment_length : ∀ (r : List Char) (n : Nat) (p : Pos),
    (skipComment r n p).1.length ≤ r.length
  | [], _, _ => by simp [skipComment]
  | c :: r, n, p => by
    unfold skipComment
    split
    · simp
    · exact Nat.le_succ_of_le (skipComment_length r (n + 1) p)

/-- Skips blanks and comments. -/
def skipBlanks (m : Mark) : Mark :=
  match h : m.rest with
  | [] => m
  | c :: r =>
    if c.toNat == 0xFEFF || c == '\r' then skipBlanks ⟨r, m.offset + 1, m.position⟩
    else if c == '\t' then
      skipBlanks ⟨r, m.offset + 1, ⟨m.position.line, m.position.column + 8⟩⟩
    else if c == '\n' then skipBlanks ⟨r, m.offset + 1, ⟨m.position.line + 1, 1⟩⟩
    else if c == ' ' || c == ',' then
      skipBlanks ⟨r, m.offset + 1, ⟨m.position.line, m.position.column + 1⟩⟩
    else if c == '#' then
      have : (skipComment r (m.offset + 1) m.position).1.length < m.rest.length := by
        rw [h]
        exact Nat.lt_succ_of_le (skipComment_length r (m.offset + 1) m.position)
      let after := skipComment r (m.offset + 1) m.position
      skipBlanks ⟨after.1, after.2.1, after.2.2⟩
    else m
termination_by m.rest.length
decreasing_by all_goals simp_all

/-! ### Checking numbers -/

/-- Whether a character is a decimal digit. -/
def isDigit (c : Char) : Bool := '0' ≤ c && c ≤ '9'

/-- Whether a text is an integer part: `0`, `-0`, or digits without a leading zero. -/
def checkInt (v : List Char) : Bool :=
  v == ['0'] || v == ['-', '0'] ||
    (v.head? != some '0' && v != ['-'] && v.take 2 != ['-', '0'] && (v.drop 1).all isDigit)

/-- Whether a text is a fraction: one digit or more. -/
def checkDecimals (v : List Char) : Bool := !v.isEmpty && v.all isDigit

/-- Whether a text is an exponent: a sign or a digit from 1 to 8, then digits. -/
def checkExponent (v : List Char) : Bool :=
  match v with
  | [] => false
  | c :: r => (c == '-' || c == '+' || ('0' < c && c < '9')) && r.all isDigit

/-- Whether a number with a point at `point` or an exponent letter at `exp` (the last of
each) is a float literal. -/
def checkFloat (v : List Char) (exp point : Option Nat) : Bool :=
  match exp, point with
  | some e, some r =>
    if e < r then false
    else checkInt (v.take r) && checkDecimals ((v.drop (r + 1)).take (e - r - 1)) &&
      checkExponent (v.drop (e + 1))
  | some e, none => checkInt (v.take e) && checkExponent (v.drop (e + 1))
  | none, some r => checkInt (v.take r) && checkDecimals (v.drop (r + 1))
  | none, none => checkInt v

/-- Whether a character ends a number. -/
def endsNumber (c : Char) : Bool :=
  " \n\r\t,#!$:=@|&()[]\x7b\x7d".toList.contains c

/-- The last index in a list of a character satisfying a test. -/
def lastIndex (p : Char → Bool) (cs : List Char) : Option Nat :=
  (cs.zipIdx.filter (fun (c, _) => p c)).getLast?.map (·.2)

/-! ### Cutting one token -/

/-- Whether a character may start a name. -/
def startsName (c : Char) : Bool := c == '_' || ('a' ≤ c && c ≤ 'z') || ('A' ≤ c && c ≤ 'Z')

/-- Whether a character may continue a name. -/
def continuesName (c : Char) : Bool := startsName c || isDigit c

/-- The length of a string body after its opening quote, through its closing quote, or the
refusal of an unterminated string. -/
def stringLength : List Char → Bool → Nat → Except Complaint Nat
  | [], _, _ => .error (.unexpected (.text "unterminated string value"))
  | c :: r, escaped, n =>
    if c == '"' && !escaped then .ok (n + 1)
    else if c == '\n' then .error (.unexpected (.text "unterminated string value"))
    else stringLength r (!escaped && c == '\\') (n + 1)

/-- Where the closing triple quote of a block string stands in its body, skipping those after
a backslash. -/
def blockEnd : List Char → Nat → Bool → Option Nat
  | '"' :: '"' :: '"' :: r, i, afterBackslash =>
    if afterBackslash then blockEnd r (i + 3) false else some i
  | c :: r, i, _ => blockEnd r (i + 1) (c == '\\')
  | [], _, _ => none

/-- Cuts the token at a reading place, with the budget after it, or refuses it. -/
def cut (m : Mark) (budget : Nat) : Except Complaint (Token × Mark × Nat) :=
  match m.rest with
  | [] => .error .endOfInput
  | c :: r =>
    if c == '(' || c == '[' || c == '{' then
      if budget = 0 then .error (.message (.text "Recursion limit exceeded"))
      else .ok (⟨.punctuator, c.toString⟩, m.skip 1, budget - 1)
    else if c == ')' || c == ']' || c == '}' then .ok (⟨.punctuator, c.toString⟩, m.skip 1, budget + 1)
    else if "!$:=@|&".toList.contains c then .ok (⟨.punctuator, c.toString⟩, m.skip 1, budget)
    else if c == '.' then
      if r.take 2 == ['.', '.'] then .ok (⟨.punctuator, "..."⟩, m.skip 3, budget)
      else .error (.unexpected (.text "bare dot '.' is not supported, only \"...\""))
    else if startsName c then
      let n := 1 + (r.takeWhile continuesName).length
      .ok (⟨.name, String.ofList (m.rest.take n)⟩, m.skip n, budget)
    else if c == '-' || isDigit c then
      let v := c :: r.takeWhile (fun x => !endsNumber x)
      let exp := lastIndex (fun x => x == 'e' || x == 'E') v
      let point := lastIndex (· == '.') v
      let text := String.ofList v
      if exp.isSome || point.isSome then
        if checkFloat v exp point then .ok (⟨.floatValue, text⟩, m.skip v.length, budget)
        else .error (.unexpected (.text ("unsupported float " ++ Text.quoted text)))
      else if checkInt v then .ok (⟨.intValue, text⟩, m.skip v.length, budget)
      else .error (.unexpected (.text ("unsupported integer " ++ Text.quoted text)))
    else if c == '"' then
      if r.take 2 == ['"', '"'] then
        match blockEnd (r.drop 2) 0 false with
        | some e =>
          let body := m.rest.take (e + 6)
          .ok (⟨.blockString, String.ofList body⟩, m.across body, budget)
        | none => .error (.unexpected (.text "unterminated block string value"))
      else
        match stringLength r false 1 with
        | .ok n => .ok (⟨.stringValue, String.ofList (m.rest.take n)⟩, m.skip n, budget)
        | .error e => .error e
    else .error (.unexpected (.text ("unexpected character " ++ Text.quotedChar c)))

namespace Tokens

/-- A stream at the start of a text, past its leading blanks. -/
def start (s : String) : Tokens := ⟨skipBlanks ⟨s.toList, 0, ⟨1, 1⟩⟩, bracketBudget, none⟩

/-- The reading place. -/
def mark : StateM Tokens Mark := return (← get).here

/-- Goes back (or forward) to a reading place; the budget and the last token stay. -/
def reset (m : Mark) : StateM Tokens Unit := modify fun ts => { ts with here := m }

/-- The place reached. -/
def pos : StateM Tokens Pos := return (← get).here.position

/-- Takes the next token. The token last cut is returned again without cutting it when the
stream is back at its start; otherwise the token is cut (charging the budget for a bracket),
and blanks after it are skipped. A refusal leaves the stream unchanged. -/
def next : StateM Tokens (Except Complaint Token) := do
  let ts ← get
  match ts.last with
  | some (origin, tok, after) =>
    if origin = ts.here.offset then
      set { ts with here := after }
      return .ok tok
    else fresh ts
  | none => fresh ts
where
  /-- Cuts a token anew. -/
  fresh (ts : Tokens) : StateM Tokens (Except Complaint Token) :=
    match cut ts.here ts.budget with
    | .error e => return .error e
    | .ok (tok, after, budget) => do
      let after := skipBlanks after
      set ({ here := after, budget := budget, last := some (ts.here.offset, tok, after) } : Tokens)
      return .ok tok

end Tokens

end SocialGraph.Document
