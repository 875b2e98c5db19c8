import SocialGraph.Document.Combinator
import SocialGraph.Document.Literal
import SocialGraph.Document.Syntax

/-!
# The grammar of query documents

Each grammar rule below is a `rule`: when it fails without reading, its report names the
token found at its start and what the rule expected there. The rules and the way their parts
are combined fix which expectations a report lists, and in which order, so the shape of every
rule is part of its meaning: a field is six parts in sequence, a selection is a field or a
fragment after `...`, a value is a plain value, a variable, a list or an object, tried in that
order.

Selection sets, values and types nest. Their rules take a depth and build the next level only
when they run; a rule at depth zero fails. The token stream refuses the fifty-first open bracket
that is not closed, so a document never nests deep enough to reach the depth given here.
-/

namespace SocialGraph.Document.Grammar

/-- The depth of nesting the grammar allows; more than the bracket budget lets a document
reach. -/
def depth : Nat := 256

/-- A name. -/
def name : Parser String := (kind .name).map (·.text)

/-- An integer value. -/
def intValue : Parser Value :=
  rule fun _ => ((kind .intValue).andThen fun t => intLiteral t.text).map .int

/-- A float value. -/
def floatValue : Parser Value :=
  rule fun _ => ((kind .floatValue).andThen fun t => floatLiteral t.text).map .float

/-- A string value. -/
def stringValue : Parser Value :=
  rule fun _ => ((kind .stringValue).andThen fun t => stringLiteral t.text).map .string

/-- A block string value. -/
def blockStringValue : Parser Value :=
  rule fun _ => ((kind .blockString).andThen fun t => .ok (blockLiteral t.text)).map .string

/-- A value that holds no other value: `true`, `false`, `null`, an enum name, a number or a
string. -/
def plainValue : Parser Value :=
  rule fun _ =>
    ((keyword "true").map (fun _ => .boolean true)
      |>.or ((keyword "false").map fun _ => .boolean false)
      |>.or ((keyword "null").map fun _ => .null)
      |>.or (name.map .enum)
      |>.or intValue
      |>.or floatValue
      |>.or stringValue
      |>.or blockStringValue)

/-- A value, at a depth of nesting. Variables are allowed when `allowVariables` holds; default
values of variable definitions allow none. -/
def value (allowVariables : Bool) : Nat → Parser Value
  | 0 => exhausted
  | n + 1 => rule fun _ =>
    let list := (((punct "[").keep (many (value allowVariables n))).skip (punct "]")).map .list
    let object := (((punct "\x7b").keep (many (seq2 (name.skip (punct ":")) (value allowVariables n)))).skip
      (punct "\x7d")).map Value.objectOf
    if allowVariables then
      ((plainValue.or (((punct "$").keep name).map .variable)).or list).or object
    else (plainValue.or list).or object

/-- The arguments of a field or directive, in written order; none when there are no
parentheses. -/
def arguments : Parser (List (String × Value)) :=
  rule fun _ =>
    (optional (((punct "(").keep (many1 (seq2 (name.skip (punct ":")) (value true depth)))).skip
      (punct ")"))).map (·.getD [])

/-- Directives, each `@` with a name and arguments. -/
def directives : Parser (List Directive) :=
  rule fun _ =>
    many ((seq2 (seq2 (position.skip (punct "@")) name) arguments).map
      fun ((_, n), args) => ⟨n, args⟩)

/-- A type, at a depth of nesting: a name or a list type, marked non-null by `!`. -/
def typeRef : Nat → Parser TypeRef
  | 0 => exhausted
  | n + 1 => rule fun _ =>
    (seq2 ((name.map TypeRef.named).or ((((punct "[").keep (typeRef n)).skip (punct "]")).map
      TypeRef.list)) ((optional (punct "!")).map Option.isSome)).map
      fun (t, strict) => if strict then .nonNull t else t

/-- A field whose sub-selection, if any, is read by `inner`. The name written first is the
alias when a second name follows a colon. -/
def field (inner : Parser (List Selection)) : Parser Selection :=
  rule fun _ =>
    (seq6 position name (optional ((punct ":").keep name)) arguments directives
      (optional inner)).map fun (_, first, second, args, dirs, sel) =>
        match second with
        | some n => .field (some first) n args dirs (sel.getD [])
        | none => .field none first args dirs (sel.getD [])

/-- A selection whose sub-selections are read by `inner`: a field, an inline fragment or a
fragment spread. -/
def selection (inner : Parser (List Selection)) : Parser Selection :=
  rule fun _ =>
    (field inner).or ((punct "...").keep
      (((seq4 position (optional ((keyword "on").keep name)) directives inner).map
        fun (_, cond, dirs, sel) => Selection.inline cond dirs sel).or
      ((seq3 position name directives).map fun (_, f, dirs) => Selection.spread f dirs)))

/-- A selection set at a depth of nesting: selections between braces, at least one. -/
def selectionSet : Nat → Parser (List Selection)
  | 0 => exhausted
  | n + 1 => rule fun _ =>
    (seq3 (position.skip (punct "\x7b")) (many1 (selection (selectionSet n)))
      (position.skip (punct "\x7d"))).map (·.2.1)

/-- A variable definition: `$`, a name, a colon, a type and an optional default value. -/
def variableDefinition : Parser VariableDefinition :=
  (seq4 position (((punct "$").keep name).skip (punct ":")) (typeRef depth)
    (optional ((punct "=").keep (value false depth)))).map fun (_, n, t, d) => ⟨n, t, d⟩

/-- What every operation written with its keyword has: an optional name, variable definitions
in parentheses, directives and a selection set. -/
def operationBody :
    Parser (Option String × List VariableDefinition × List Directive × List Selection) :=
  rule fun _ =>
    (seq2 (seq2 (seq2 (optional name)
      ((optional (((punct "(").keep (many1 variableDefinition)).skip (punct ")"))).map
        (·.getD []))) directives) (selectionSet depth)).map
      fun (((n, vars), dirs), sel) => (n, vars, dirs, sel)

/-- An operation of a kind, written with its keyword. -/
def operationOf (k : OperationKind) : Parser Operation :=
  rule fun _ =>
    (seq2 (position.skip (keyword k.keyword)) operationBody).map
      fun (_, n, vars, dirs, sel) => ⟨k, n, vars, dirs, sel⟩

/-- An operation: a selection set alone, or a query, mutation or subscription. -/
def operation : Parser Operation :=
  rule fun _ =>
    ((selectionSet depth).map (fun sel => ⟨.query, none, [], [], sel⟩)
      |>.or (operationOf .query)
      |>.or (operationOf .mutation)
      |>.or (operationOf .subscription))

/-- A fragment definition: `fragment`, a name, `on` and a type, directives and a selection
set. -/
def fragment : Parser Fragment :=
  rule fun _ =>
    (seq5 (position.skip (keyword "fragment")) name ((keyword "on").keep name) directives
      (selectionSet depth)).map fun (_, n, cond, dirs, sel) => ⟨n, cond, dirs, sel⟩

/-- A definition: an operation or a fragment. -/
def definition : Parser Definition :=
  rule fun _ => (operation.map .operation).or (fragment.map .fragment)

end Grammar

/-- Reads a document: one definition or more, and then the end of the text. -/
def parseDocument (text : String) : Except Report (List Definition) :=
  match (parseStream ((many1 Grammar.definition).skip eof) (Tokens.start text)).1 with
  | .consumedOk ds => .ok ds
  | .emptyOk ds => .ok ds
  | .consumedErr r => .error r
  | .emptyErr t => .error t.report

end SocialGraph.Document
