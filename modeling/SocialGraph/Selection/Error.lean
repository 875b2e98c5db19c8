import SocialGraph.Document.Report
import SocialGraph.Document.Syntax

/-!
# Why a request has no selection

A request is refused before anything runs when its document does not parse, when no single
query operation can be chosen from it, or when its fragments, variables or directives do not
fit together. Each cause has its message and one of three codes: the document did not parse,
no operation could be chosen, or the document failed validation.
-/

namespace SocialGraph

open Document

/-- The causes for refusing a request's document. -/
inductive SelectionError where
  /-- The document does not parse. -/
  | parse (report : Report)
  /-- The document has no operation. -/
  | noOperation
  /-- No operation has the requested name. -/
  | unknownOperation (name : String)
  /-- The document has several operations and no name was given. -/
  | ambiguousOperation
  /-- The chosen operation is a mutation or a subscription. -/
  | unsupportedOperation (kind : OperationKind)
  /-- A spread names a fragment the document does not define. -/
  | unknownFragment (name : String)
  /-- A fragment is spread inside its own expansion. -/
  | fragmentCycle (name : String)
  /-- A variable is used but the operation does not declare it. -/
  | undefinedVariable (name : String)
  /-- A variable of a non-null type has no value and no default. -/
  | missingVariable (name : String) (type : String)
  /-- A `@skip` or `@include` has no Boolean `if` argument. -/
  | invalidDirective (name : String)

namespace SelectionError

/-- The message of a refusal. -/
def message : SelectionError → String
  | .parse r => "query parse error: " ++ r.render
  | .noOperation => "Document does not contain any operations."
  | .unknownOperation n => "Unknown operation named \"" ++ n ++ "\"."
  | .ambiguousOperation => "Must provide operation name if query contains multiple operations."
  | .unsupportedOperation k =>
    "Only query operations are supported; received a " ++ k.keyword ++ "."
  | .unknownFragment n => "Unknown fragment \"" ++ n ++ "\"."
  | .fragmentCycle n => "Cannot spread fragment \"" ++ n ++ "\" within itself."
  | .undefinedVariable n => "Variable \"$" ++ n ++ "\" is not defined."
  | .missingVariable n t => "Variable \"$" ++ n ++ "\" of required type \"" ++ t ++
    "\" was not provided."
  | .invalidDirective n => "Directive \"@" ++ n ++ "\" argument \"if\" must be a boolean."

/-- The code of a refusal. -/
def code : SelectionError → String
  | .parse _ => "GRAPHQL_PARSE_FAILED"
  | .noOperation | .unknownOperation _ | .ambiguousOperation | .unsupportedOperation _ =>
    "OPERATION_RESOLUTION_FAILURE"
  | .unknownFragment _ | .fragmentCycle _ | .undefinedVariable _ | .missingVariable _ _
  | .invalidDirective _ => "GRAPHQL_VALIDATION_FAILED"

end SelectionError

end SocialGraph
