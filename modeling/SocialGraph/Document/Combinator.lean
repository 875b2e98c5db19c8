import SocialGraph.Document.Lexer

/-!
# Parser combinators with expectation accounting

A parser runs on the token stream and ends in one of four ways: it read tokens and succeeded,
succeeded without reading, read tokens and failed, or failed without reading. Only the last
outcome lets an enclosing choice try another way, and only that one is reported lazily: its
report carries an `offset` that says how many more parsers may still add what they expect.

What goes into a report, and in which order, follows from three pieces of accounting that
every parser has (`Accounting`):

* `count`: how many parsers it stands for inside a sequence (a sequence counts the sum of its
  members, a token or a grammar rule counts one);
* `addError`: what it adds when asked what it expected (a token adds itself; a grammar rule
  adds nothing, because it reported when it failed; a sequence asks its members in order while
  the offset lasts; a choice asks each alternative);
* `addCommitted`: what it adds when it read tokens and a later member of the same sequence
  failed without reading (a repetition adds what its element expects).

A sequence whose first member fails without reading fails the same way. When a later member
fails without reading after an earlier one read tokens, the sequence reports the token found
there and walks its members to collect expectations, and the failure counts as having read.
A grammar rule (`rule`) that fails without reading reports the token at its start (or the end
of the input when no token can be cut there) and then its own expectations.
-/

namespace SocialGraph.Document

/-- A report with the number of parsers that may still add their expectations to it. -/
structure Tracked where
  report : Report
  offset : Nat

/-- Adds a complaint to a tracked report. -/
def Tracked.add (t : Tracked) (c : Complaint) : Tracked := ⟨t.report.add c, t.offset⟩

/-- Sets the offset of a tracked report. -/
def Tracked.withOffset (t : Tracked) (offset : Nat) : Tracked := ⟨t.report, offset⟩

/-- How a parser ended. -/
inductive Step (α : Type) where
  /-- It read tokens and produced a value. -/
  | consumedOk (a : α)
  /-- It produced a value without reading. -/
  | emptyOk (a : α)
  /-- It read tokens and failed. -/
  | consumedErr (r : Report)
  /-- It failed without reading. -/
  | emptyErr (t : Tracked)

/-- The error accounting of a parser. -/
structure Accounting where
  count : Nat
  addError : Tracked → Tracked
  addCommitted : Tracked → Tracked

/-- A parser of values of type `α`. -/
structure Parser (α : Type) where
  run : StateM Tokens (Step α)
  acct : Accounting

namespace Accounting

/-- The accounting of a parser that expects nothing in particular. -/
def silent : Accounting := ⟨1, id, id⟩

/-- The accounting of a token parser. -/
def expects (what : String) : Accounting := ⟨1, (·.add (.expected (.text what))), id⟩

end Accounting

/-! ### Tokens -/

/-- Reads one token and keeps it when `accept` does. A token that is not accepted fails the
parser without reading (the caller goes back); a token that cannot be cut fails it with the
stream's complaint. -/
def satisfy {α : Type} (accept : Token → Option α) : StateM Tokens (Step α) := do
  let position ← Tokens.pos
  match ← Tokens.next with
  | .ok tok =>
    match accept tok with
    | some a => return .consumedOk a
    | none => return .emptyErr ⟨Report.empty position, 1⟩
  | .error c => return .emptyErr ⟨⟨← Tokens.pos, [c]⟩, 1⟩

/-- A token of a kind. -/
def kind (k : TokenKind) : Parser Token :=
  ⟨satisfy fun t => if t.kind = k then some t else none, .expects k.label⟩

/-- A token of a kind with a given text. -/
def exact (k : TokenKind) (text : String) : Parser Unit :=
  ⟨satisfy fun t => if t.kind = k ∧ t.text = text then some () else none, .expects text⟩

/-- A punctuator. -/
def punct (text : String) : Parser Unit := exact .punctuator text

/-- A keyword: a name with a given text. -/
def keyword (text : String) : Parser Unit := exact .name text

/-- The place reached; never fails and reads nothing. -/
def position : Parser Pos := ⟨do return .emptyOk (← Tokens.pos), .silent⟩

/-- The end of the input. -/
def eof : Parser Unit where
  run := do
    let before ← Tokens.mark
    let atEnd := match ← Tokens.next with
      | .error c => c.same .endOfInput
      | .ok _ => false
    if atEnd then return .emptyOk ()
    else do
      Tokens.reset before
      return .emptyErr ⟨Report.empty (← Tokens.pos), 1⟩
  acct := .expects "end of input"

/-! ### Transforming results -/

/-- Maps the value of a parser. -/
def Parser.map {α β : Type} (f : α → β) (p : Parser α) : Parser β where
  run := do
    match ← p.run with
    | .consumedOk a => return .consumedOk (f a)
    | .emptyOk a => return .emptyOk (f a)
    | .consumedErr r => return .consumedErr r
    | .emptyErr t => return .emptyErr t
  acct := p.acct

/-- Converts the value of a parser, failing where it started when the conversion refuses. -/
def Parser.andThen {α β : Type} (p : Parser α) (f : α → Except Complaint β) : Parser β where
  run := do
    let start ← Tokens.pos
    match ← p.run with
    | .consumedOk a =>
      match f a with
      | .ok b => return .consumedOk b
      | .error c => return .consumedErr ⟨start, [c]⟩
    | .emptyOk a =>
      match f a with
      | .ok b => return .emptyOk b
      | .error c => return .emptyErr ⟨⟨start, [c]⟩, 1⟩
    | .consumedErr r => return .consumedErr r
    | .emptyErr t => return .emptyErr t
  acct := p.acct

/-- A parser that may be left out: failing without reading gives `none`. -/
def optional {α : Type} (p : Parser α) : Parser (Option α) where
  run := do
    let before ← Tokens.mark
    match ← p.run with
    | .consumedOk a => return .consumedOk (some a)
    | .emptyOk a => return .emptyOk (some a)
    | .consumedErr r => return .consumedErr r
    | .emptyErr _ => do
      Tokens.reset before
      return .emptyOk none
  acct := ⟨p.acct.count, p.acct.addError, id⟩

/-! ### Repetition -/

/-- Repeats a parser until it fails without reading; `fuel` bounds the rounds. -/
def repeatFrom {α : Type} (p : Parser α) (acc : List α) (consumed : Bool) :
    Nat → StateM Tokens (Step (List α))
  | 0 => return finish
  | fuel + 1 => do
    let before ← Tokens.mark
    match ← p.run with
    | .consumedOk a => repeatFrom p (a :: acc) true fuel
    | .emptyOk a => repeatFrom p (a :: acc) consumed fuel
    | .consumedErr r => return .consumedErr r
    | .emptyErr _ => do
      Tokens.reset before
      return finish
where
  /-- The values read, in order. -/
  finish : Step (List α) := if consumed then .consumedOk acc.reverse else .emptyOk acc.reverse

/-- The rounds a repetition may take: one more than the characters left, since every round
that goes on reads a token. -/
def rounds : StateM Tokens Nat := return (← Tokens.mark).rest.length + 1

/-- The accounting of a repetition. -/
def repetition (a : Accounting) : Accounting := ⟨a.count, a.addError, a.addError⟩

/-- Zero or more values. -/
def many {α : Type} (p : Parser α) : Parser (List α) :=
  ⟨do repeatFrom p [] false (← rounds), repetition p.acct⟩

/-- One or more values. -/
def many1 {α : Type} (p : Parser α) : Parser (List α) where
  run := do
    match ← p.run with
    | .consumedOk a => repeatFrom p [a] true (← rounds)
    | .emptyOk a => repeatFrom p [a] false (← rounds)
    | .consumedErr r => return .consumedErr r
    | .emptyErr t => return .emptyErr t
  acct := repetition p.acct

/-! ### Choice -/

/-- The first of two parsers that does not fail without reading. When both fail so, their
reports are merged; an alternative that failed after parsers that read nothing adds its
expectations at once, and the merged report then asks no more of the choice. -/
def Parser.or {α : Type} (p q : Parser α) : Parser α where
  run := do
    let before ← Tokens.mark
    match ← p.run with
    | .emptyErr e1 => do
      Tokens.reset before
      match ← q.run with
      | .emptyErr e2 =>
        let t : Tracked := ⟨e1.report.merge e2.report, 1⟩
        let t := if e1.offset ≠ 1 then (p.acct.addError (t.withOffset e1.offset)).withOffset 0 else t
        let t := if e2.offset ≠ 1 then (q.acct.addError (t.withOffset e2.offset)).withOffset 0 else t
        return .emptyErr t
      | r => return r
    | r => return r
  acct := ⟨1, choiceAddError p.acct q.acct, id⟩
where
  /-- Asks both alternatives what they expected, each as a first parser. -/
  choiceAddError (a b : Accounting) (t : Tracked) : Tracked :=
    if t.offset = 0 then t
    else (b.addError ((a.addError (t.withOffset 1)).withOffset 1)).withOffset (t.offset - 1)

/-! ### Sequences -/

/-- How the members of a sequence ran: all of them, with the values, the index after the last
member that read and the offset reached; or a first member that failed without reading; or a
later member that did (the stream is back at its start); or a failure after reading. -/
inductive Halt (α : Type) where
  | done (a : α) (firstEmpty offset : Nat)
  | headEmpty (t : Tracked)
  | laterEmpty (t : Tracked) (firstEmpty offset : Nat)
  | consumed (r : Report)

/-- The members of a sequence: their accounting, and how to run them from a member on, given
its index, the index after the last member that read, and the offset reached. -/
structure Chain (α : Type) where
  members : List Accounting
  run : Nat → Nat → Nat → StateM Tokens (Halt α)

namespace Chain

/-- No more members. -/
def nil : Chain Unit := ⟨[], fun _ firstEmpty offset => return .done () firstEmpty offset⟩

/-- Runs the members after one that produced `a`, with the offset after it. -/
def after {α β : Type} (c : Chain β) (a : α) (index firstEmpty offset : Nat) :
    StateM Tokens (Halt (α × β)) := do
  match ← c.run (index + 1) firstEmpty offset with
  | .done b fe off => return .done (a, b) fe off
  | .headEmpty t => return .headEmpty t
  | .laterEmpty t fe off => return .laterEmpty t fe off
  | .consumed r => return .consumed r

/-- One more member in front. -/
def cons {α β : Type} (p : Parser α) (c : Chain β) : Chain (α × β) where
  members := p.acct :: c.members
  run index firstEmpty offset := do
    let before ← Tokens.mark
    let offset' := if index = 0 then p.acct.count + 1 else offset + p.acct.count
    match ← p.run with
    | .consumedErr r => return .consumed r
    | .emptyErr t =>
      if index = 0 then return .headEmpty t
      else do
        Tokens.reset before
        return .laterEmpty t firstEmpty offset
    | .consumedOk a => after c a index (index + 1) offset'
    | .emptyOk a => after c a index firstEmpty offset'

end Chain

/-- Asks the members of a sequence in order what they expected, while the offset lasts. -/
def sequenceAddError : List Accounting → Tracked → Tracked
  | [], t => t
  | m :: ms, t =>
    let prev := t.offset
    let t := m.addError t
    if t.offset ≤ 1 then t.withOffset (prev - 1)
    else sequenceAddError ms (if t.offset = prev then t.withOffset (prev - m.count) else t)

/-- Collects the expectations of a sequence whose member failed without reading after an
earlier member read: the last member that read adds what it expects after reading, and the
members from there on add what they expect, the failing one with its own offset. -/
def collectExpectations (firstEmpty inner : Nat) : List Accounting → Nat → Tracked → Tracked
  | [], _, t => t
  | m :: ms, i, t =>
    let t := if i + 1 = firstEmpty then m.addCommitted t else t
    if firstEmpty ≤ i then
      let t := m.addError (if t.offset ≤ 1 then t.withOffset inner else t)
      if t.offset ≤ 1 then t
      else collectExpectations firstEmpty inner ms (i + 1) (t.withOffset (t.offset - m.count))
    else collectExpectations firstEmpty inner ms (i + 1) (t.withOffset (t.offset - m.count))

/-- The failure of a sequence whose later member failed without reading. -/
def laterFailure {α : Type} (members : List Accounting) (t : Tracked) (firstEmpty offset : Nat) :
    StateM Tokens (Step α) := do
  let inner := t.offset
  let t := t.withOffset offset
  if firstEmpty = 0 then return .emptyErr t
  else
    let t := match ← Tokens.next with
      | .ok tok => t.add (.unexpected (.token tok))
      | .error _ => t
    return .consumedErr (collectExpectations firstEmpty inner members 0 t).report

/-- The members run in order as one parser. -/
def Chain.seq {α : Type} (c : Chain α) : Parser α where
  run := do
    match ← c.run 0 0 0 with
    | .done a firstEmpty _ => return if firstEmpty = 0 then .emptyOk a else .consumedOk a
    | .headEmpty t => return .emptyErr t
    | .consumed r => return .consumedErr r
    | .laterEmpty t firstEmpty offset => laterFailure c.members t firstEmpty offset
  acct := ⟨c.members.foldl (fun n m => n + m.count) 0, sequenceAddError c.members,
    (c.members.getLast?.map (·.addCommitted)).getD id⟩

/-- Two parsers in sequence. -/
def seq2 {α β : Type} (a : Parser α) (b : Parser β) : Parser (α × β) :=
  (Chain.cons a (Chain.cons b Chain.nil)).seq.map fun (x, y, _) => (x, y)

/-- Three parsers in sequence. -/
def seq3 {α β γ : Type} (a : Parser α) (b : Parser β) (c : Parser γ) : Parser (α × β × γ) :=
  (Chain.cons a (Chain.cons b (Chain.cons c Chain.nil))).seq.map fun (x, y, z, _) => (x, y, z)

/-- Four parsers in sequence. -/
def seq4 {α β γ δ : Type} (a : Parser α) (b : Parser β) (c : Parser γ) (d : Parser δ) :
    Parser (α × β × γ × δ) :=
  (Chain.cons a (Chain.cons b (Chain.cons c (Chain.cons d Chain.nil)))).seq.map
    fun (x, y, z, w, _) => (x, y, z, w)

/-- Five parsers in sequence. -/
def seq5 {α β γ δ ε : Type} (a : Parser α) (b : Parser β) (c : Parser γ) (d : Parser δ)
    (e : Parser ε) : Parser (α × β × γ × δ × ε) :=
  (Chain.cons a (Chain.cons b (Chain.cons c (Chain.cons d (Chain.cons e Chain.nil))))).seq.map
    fun (x, y, z, w, v, _) => (x, y, z, w, v)

/-- Six parsers in sequence. -/
def seq6 {α β γ δ ε ζ : Type} (a : Parser α) (b : Parser β) (c : Parser γ) (d : Parser δ)
    (e : Parser ε) (f : Parser ζ) : Parser (α × β × γ × δ × ε × ζ) :=
  (Chain.cons a (Chain.cons b (Chain.cons c (Chain.cons d (Chain.cons e (Chain.cons f
    Chain.nil)))))).seq.map fun (x, y, z, w, v, u, _) => (x, y, z, w, v, u)

/-- Runs `p` and then `q`, keeping the value of `p`. -/
def Parser.skip {α β : Type} (p : Parser α) (q : Parser β) : Parser α := (seq2 p q).map (·.1)

/-- Runs `p` and then `q`, keeping the value of `q`. -/
def Parser.keep {α β : Type} (p : Parser α) (q : Parser β) : Parser β := (seq2 p q).map (·.2)

/-! ### Grammar rules -/

/-- Runs a parser as a grammar rule: when it fails without reading, the token at its start
(or the end of the input, when no token can be cut there) is reported as found, and then what
the parser expected. -/
def parseStream {α : Type} (p : Parser α) : StateM Tokens (Step α) := do
  let before ← Tokens.mark
  match ← p.run with
  | .emptyErr t => do
    Tokens.reset before
    let t ← match ← Tokens.next with
      | .ok tok => do
        Tokens.reset before
        pure (t.add (.unexpected (.token tok)))
      | .error _ => pure (t.add .endOfInput)
    return .emptyErr (p.acct.addError t)
  | r => return r

/-- A grammar rule, built when it runs. Inside other parsers it expects nothing of its own:
it reported its expectations when it failed. -/
def rule {α : Type} (body : Unit → Parser α) : Parser α :=
  ⟨fun ts => parseStream (body ()) ts, .silent⟩

/-- A rule that cannot run any deeper; it fails without reading. -/
def exhausted {α : Type} : Parser α :=
  ⟨do return .emptyErr ⟨Report.empty (← Tokens.pos), 1⟩, .silent⟩

end SocialGraph.Document
