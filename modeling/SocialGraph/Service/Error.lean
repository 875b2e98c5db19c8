import SocialGraph.Json.Decode
import SocialGraph.Text.Space

/-!
# Service errors

A service error is what a request gets when it fails around the query rather than inside it:
a body that is not a query request, or a store that does not answer its readiness probe. It
carries a code, which says which of the two it is, and a message that is never blank.
`ServiceError.make` replaces a blank message by a generic one for the code; `ServiceError.check`
refuses it. As JSON a service error is the object `{"code", "message"}`, and reading it back
checks the message the same way.
-/

namespace SocialGraph

/-- What kind of failure a service error reports. -/
inductive ServiceCode where
  /-- The request is malformed. -/
  | invalidRequest
  /-- A dependency such as the record store cannot be reached. -/
  | serviceUnavailable
  deriving DecidableEq, Repr

namespace ServiceCode

/-- Every code, in order. -/
def all : List ServiceCode := [invalidRequest, serviceUnavailable]

/-- The name of a code in JSON. -/
def name : ServiceCode → String
  | invalidRequest => "invalid_request"
  | serviceUnavailable => "service_unavailable"

/-- The code with the given name. -/
def ofName? (s : String) : Option ServiceCode := all.find? (·.name == s)

/-- The message used in place of a blank one. -/
def fallback : ServiceCode → String
  | invalidRequest => "Invalid request"
  | serviceUnavailable => "Service unavailable"

end ServiceCode

/-- A failure of a request outside the query itself. -/
structure ServiceError where
  code : ServiceCode
  message : String
  deriving DecidableEq, Repr

namespace ServiceError

/-- The refusal of a blank message. -/
def blankMessage : String := "error message must not be empty"

/-- A service error, refused when its message is blank. -/
def check (code : ServiceCode) (message : String) : Except String ServiceError :=
  if Text.isBlank message then .error blankMessage else .ok ⟨code, message⟩

/-- A service error; a blank message is replaced by the code's generic one. -/
def make (code : ServiceCode) (message : String) : ServiceError :=
  match check code message with
  | .ok e => e
  | .error _ => ⟨code, code.fallback⟩

/-- The JSON form. -/
def toJson (e : ServiceError) : Json :=
  .obj [("code", .str e.code.name), ("message", .str e.message)]

/-- The shape of the JSON form: both members required, others ignored. -/
def shape : Json.Expect :=
  .record "ErrorDto"
    [("code", .variant "ErrorCode" (ServiceCode.all.map ServiceCode.name), none),
     ("message", .text, none)] false

/-- Reads a service error from a JSON value, checking its message. -/
def ofJson (v : Json) : Except Json.Fault ServiceError := do
  let d ← shape.decodeValue v
  let code := (((d.get? "code").bind Json.getStr?).bind ServiceCode.ofName?).getD .invalidRequest
  let message := ((d.get? "message").bind Json.getStr?).getD ""
  match check code message with
  | .ok e => .ok e
  | .error m => .error (.custom m)

end ServiceError

end SocialGraph
