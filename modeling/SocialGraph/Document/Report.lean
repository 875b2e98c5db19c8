/-!
# Tokens and parse reports

A query document is read as a stream of tokens: punctuators, names, integer and float
literals, strings and block strings. A token is shown in a report as its text followed by its
kind in brackets, between backticks.

A parse report is a place and a list of complaints. A complaint says what was found
(`unexpected`), what would have been accepted there (`expected`), or gives a plain message.
Complaints are kept in the order they were raised, each once. Two reports are merged by
keeping the one further into the text; at the same place their complaints are pooled.

A report is shown as `Parse error at L:C`, then one line for each thing found, then the
expected things as one list (`a, b or c`), then the messages.
-/

namespace SocialGraph.Document

/-- A place in a document: the line and the column, both counted from 1. -/
structure Pos where
  line : Nat
  column : Nat
  deriving DecidableEq, Repr

/-- Places in reading order. -/
def Pos.compare (a b : Pos) : Ordering :=
  match Ord.compare a.line b.line with
  | .eq => Ord.compare a.column b.column
  | o => o

/-- The kinds of tokens. -/
inductive TokenKind where
  | punctuator
  | name
  | intValue
  | floatValue
  | stringValue
  | blockString
  deriving DecidableEq, Repr

/-- The name of a token kind in reports. -/
def TokenKind.label : TokenKind → String
  | .punctuator => "Punctuator"
  | .name => "Name"
  | .intValue => "IntValue"
  | .floatValue => "FloatValue"
  | .stringValue => "StringValue"
  | .blockString => "BlockString"

/-- A token: its kind and its text. -/
structure Token where
  kind : TokenKind
  text : String
  deriving DecidableEq, Repr

/-- What a complaint is about: a token, or a description. -/
inductive Info where
  | token (t : Token)
  | text (s : String)
  deriving DecidableEq, Repr

/-- How a complaint shows its subject. -/
def Info.show : Info → String
  | .token t => "`" ++ t.text ++ "[" ++ t.kind.label ++ "]`"
  | .text s => s

/-- One complaint of a parse report. -/
inductive Complaint where
  /-- Something found where it could not stand. -/
  | unexpected (info : Info)
  /-- Something that would have been accepted. -/
  | expected (info : Info)
  /-- A message of its own. -/
  | message (info : Info)
  /-- A message from converting a literal; such complaints are never pooled as repeats. -/
  | other (text : String)
  deriving Repr

/-- The complaint of a stream that has ended. -/
def Complaint.endOfInput : Complaint := .unexpected (.text "end of input")

/-- Whether two complaints say the same thing. -/
def Complaint.same : Complaint → Complaint → Bool
  | .unexpected a, .unexpected b => a == b
  | .expected a, .expected b => a == b
  | .message a, .message b => a == b
  | _, _ => false

/-- A parse report: where parsing stopped, and the complaints there. -/
structure Report where
  position : Pos
  complaints : List Complaint
  deriving Repr

namespace Report

/-- A report with no complaints yet. -/
def empty (p : Pos) : Report := ⟨p, []⟩

/-- Adds a complaint unless the report already has it. -/
def add (r : Report) (c : Complaint) : Report :=
  if r.complaints.any (Complaint.same c) then r else ⟨r.position, r.complaints ++ [c]⟩

/-- Merges two reports: the one further into the text wins; at the same place the complaints
of the second are added to the first. -/
def merge (a b : Report) : Report :=
  match a.position.compare b.position with
  | .lt => b
  | .gt => a
  | .eq => b.complaints.foldl add a

/-- The expected things as one list: `a`, `a or b`, `a, b or c`. -/
def expectedLine (items : List String) : String :=
  match items with
  | [] => ""
  | first :: rest =>
    let n := items.length
    let pieces := rest.zipIdx.map fun (s, i) => (if i + 2 < n then ", " else " or ") ++ s
    "Expected " ++ first ++ String.join pieces ++ "\n"

/-- The text of a report. -/
def render (r : Report) : String :=
  let found := r.complaints.filterMap fun
    | .unexpected i => some ("Unexpected " ++ i.show ++ "\n")
    | _ => none
  let wanted := r.complaints.filterMap fun
    | .expected i => some i.show
    | _ => none
  let messages := r.complaints.filterMap fun
    | .message i => some (i.show ++ "\n")
    | .other s => some (s ++ "\n")
    | _ => none
  "Parse error at " ++ toString r.position.line ++ ":" ++ toString r.position.column ++ "\n" ++
    String.join found ++ expectedLine wanted ++ String.join messages

end Report

end SocialGraph.Document
