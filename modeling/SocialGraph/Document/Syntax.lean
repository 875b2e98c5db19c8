import SocialGraph.Text.NameMap

/-!
# The syntax of query documents

A document is a list of definitions: operations (queries, mutations and subscriptions, each
with an optional name, variable definitions, directives and a selection set) and fragments
(a name, the type they apply to, directives and a selection set). A selection is a field (with
an optional alias, arguments, directives and a sub-selection), a spread of a named fragment,
or an inline fragment with an optional type condition.

Values are literals, variables, lists and objects. The members of an object value are kept
sorted by name, one per name: when a name is written twice, the later value wins.
-/

namespace SocialGraph.Document

/-- A value written in a document. -/
inductive Value where
  | variable (name : String)
  | int (n : Int)
  | float (x : Float)
  | string (s : String)
  | boolean (b : Bool)
  | null
  | enum (name : String)
  | list (items : List Value)
  | object (members : List (String × Value))
  deriving Inhabited

/-- An object value from its members in written order. -/
def Value.objectOf (members : List (String × Value)) : Value := .object (NameMap.ofList members)

/-- A type in a variable definition. -/
inductive TypeRef where
  | named (name : String)
  | list (item : TypeRef)
  | nonNull (inner : TypeRef)

/-- A type as it is written. -/
def TypeRef.render : TypeRef → String
  | .named n => n
  | .list t => "[" ++ t.render ++ "]"
  | .nonNull t => t.render ++ "!"

/-- Whether a type is non-null. -/
def TypeRef.isNonNull : TypeRef → Bool
  | .nonNull _ => true
  | _ => false

/-- A directive: a name and arguments in written order. -/
structure Directive where
  name : String
  arguments : List (String × Value)

/-- A selection of a selection set. -/
inductive Selection where
  /-- A field: alias, name, arguments in written order, directives and sub-selection. -/
  | field (aliasName : Option String) (name : String) (arguments : List (String × Value))
      (directives : List Directive) (selection : List Selection)
  /-- A spread of a named fragment. -/
  | spread (fragment : String) (directives : List Directive)
  /-- An inline fragment. -/
  | inline (typeCondition : Option String) (directives : List Directive)
      (selection : List Selection)

/-- A variable definition of an operation. -/
structure VariableDefinition where
  name : String
  type : TypeRef
  default : Option Value

/-- The kinds of operations. -/
inductive OperationKind where
  | query
  | mutation
  | subscription
  deriving DecidableEq, Repr

/-- The keyword of an operation kind. -/
def OperationKind.keyword : OperationKind → String
  | .query => "query"
  | .mutation => "mutation"
  | .subscription => "subscription"

/-- An operation. A selection set written alone is a query with no name, variables or
directives. -/
structure Operation where
  kind : OperationKind
  name : Option String
  variableDefinitions : List VariableDefinition
  directives : List Directive
  selection : List Selection

/-- A named fragment. -/
structure Fragment where
  name : String
  typeCondition : String
  directives : List Directive
  selection : List Selection

/-- A definition of a document. -/
inductive Definition where
  | operation (o : Operation)
  | fragment (f : Fragment)

end SocialGraph.Document
