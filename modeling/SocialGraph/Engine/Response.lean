import SocialGraph.Store.Call
import SocialGraph.Engine.Schema

/-!
# Responses

A response carries the data of a query and the errors met while resolving it. An error has a
message, the path of the response entry it concerns (keys and list positions from the root;
none for an error about the whole request) and a code. The data is left out when the request
was refused before anything ran, and the error list when it is empty.

Resolving a field can fail three ways: the field or its arguments are invalid, a non-null
field came out null, or the store failed.
-/

namespace SocialGraph

/-- Why a field could not be resolved. -/
inductive ResolveError where
  | validation (message : String)
  | nullability (typeName : String) (field : String)
  | store (e : StoreError)

namespace ResolveError

/-- The message of a resolution error. -/
def message : ResolveError → String
  | validation m => m
  | nullability t f => "Cannot return null for non-nullable field " ++ t ++ "." ++ f ++ "."
  | store e => e.message

/-- The code of a resolution error. -/
def code : ResolveError → String
  | validation _ => "VALIDATION_ERROR"
  | nullability .. => "NULLABILITY_ERROR"
  | store _ => "STORE_ERROR"

end ResolveError

/-- A step of a response path: an object key or a list position. -/
inductive PathSegment where
  | key (k : String)
  | index (i : Nat)

/-- The form of a path step. -/
def PathSegment.toJson : PathSegment → Json
  | .key k => .str k
  | .index i => .num (.unsigned i)

/-- An error of a response. -/
structure ResponseError where
  message : String
  path : Option (List PathSegment)
  code : String

namespace ResponseError

/-- The error of resolving the entry at a path. -/
def atPath (path : List PathSegment) (e : ResolveError) : ResponseError :=
  ⟨e.message, some path, e.code⟩

/-- The form of an error. -/
def toJson (e : ResponseError) : Json :=
  .obj ([("message", .str e.message)] ++
    (e.path.map fun p => [("path", Json.arr (p.map PathSegment.toJson))]).getD [] ++
    [("extensions", .obj [("code", .str e.code)])])

end ResponseError

/-- A response: the data, when anything ran, and the errors. -/
structure Response where
  data : Option Json
  errors : List ResponseError

namespace Response

/-- The response to a request refused before anything ran. -/
def rejected (e : ResponseError) : Response := ⟨none, [e]⟩

/-- The form of a response. -/
def toJson (r : Response) : Json :=
  .obj ((r.data.map fun d => [("data", d)]).getD [] ++
    (if r.errors.isEmpty then [] else [("errors", .arr (r.errors.map ResponseError.toJson))]))

end Response

end SocialGraph
