import SocialGraph.Engine.Execute
import SocialGraph.Selection.OfDocument

/-!
# Answering a query request

A query request is a document, the variables (a JSON object) and the name of the operation to
run. It is answered by building the request's selection and executing it against the store; a
document that is refused is answered by a response with that single error, without data, and
without any call to the store.
-/

namespace SocialGraph

/-- A query request. -/
structure QueryRequest where
  query : String
  variableValues : Json
  operationName : Option String

/-- The response error of a refused document: no path, and the refusal's code. -/
def SelectionError.toResponseError (e : SelectionError) : ResponseError := ⟨e.message, none, e.code⟩

/-- Answers a request against a store with failure rules: the response, and the calls made to
the store in order. -/
def QueryRequest.respond (r : QueryRequest) (store : Store) (rules : List FailureRule) :
    Response × List StoreCall :=
  match buildSelection r.query r.operationName r.variableValues with
  | .ok selection => execute store rules selection
  | .error e => (Response.rejected e.toResponseError, [])

end SocialGraph
