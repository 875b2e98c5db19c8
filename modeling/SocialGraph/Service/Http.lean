import SocialGraph.Service.Query
import SocialGraph.Service.Error
import SocialGraph.Json.Decode
import SocialGraph.Service.MediaType

/-!
# The HTTP service

The service answers four routes: `GET /health/ready`, `GET /health/live`, and query requests
by `POST` at `/graphql` and at `/`. Every other method and path is not found. A route is matched
against the path of the request target (`targetPath`), after its query and fragment are cut
off and its percent-encoded bytes decoded (`decodePath`).

* The liveness probe answers 200 while the service is alive and 503 once it is marked
  unhealthy.
* The readiness probe answers 503 until the service is marked ready; then it asks the store for
  every member tier, and answers 200 when that works and 503 with a service error when it does
  not.
* A query request must come with a JSON content type (see `MediaType.isJson`); its body
  must be a JSON object with a string `query`, an optional object `variables` and an
  optional string `operationName` (other members are ignored). A request that is not so is
  answered 400 with an invalid-request error saying why. Otherwise the query is answered with
  200 and its response.

The probes' answers may not be cached.
-/

namespace SocialGraph

/-- An HTTP request: method, path, content type and body. -/
structure HttpRequest where
  method : String
  path : String
  contentType : Option String
  body : String

/-- The health of a service: whether it is ready for traffic, and whether it is alive. -/
structure Health where
  ready : Bool
  live : Bool

/-- An HTTP answer: status, cache control, and body (none when empty). -/
structure HttpAnswer where
  status : Nat
  cacheControl : Option String
  body : Option Json

namespace Http

/-- The shape of a query request body. -/
def requestShape : Json.Expect :=
  .record "GraphqlRequest" [("query", .text, none), ("variables", .optional .object, some .null),
    ("operationName", .optional .text, some .null)] false

/-- The query request a body holds, or why it holds none. -/
def queryRequestOf (body : String) : Except String QueryRequest := do
  let v ← (requestShape.decodeDocument body).mapError fun e =>
    "Json deserialize error: " ++ e.message
  return ⟨((v.get? "query").bind Json.getStr?).getD "",
    match v.get? "variables" with
    | some (.obj ms) => .obj ms
    | _ => .obj [],
    (v.get? "operationName").bind Json.getStr?⟩

/-- The answer of a service error. -/
def errorAnswer (status : Nat) (cacheControl : Option String) (e : ServiceError) : HttpAnswer :=
  ⟨status, cacheControl, some e.toJson⟩

/-- Answers a query request. -/
def query (req : HttpRequest) (store : Store) (rules : List FailureRule) :
    HttpAnswer × List StoreCall :=
  let refuse (why : String) : HttpAnswer × List StoreCall :=
    (errorAnswer 400 none (ServiceError.make .invalidRequest
      ("request body is not a GraphQL request: " ++ why)), [])
  if !(req.contentType.map MediaType.isJson).getD false then refuse "Content type error"
  else
    match queryRequestOf req.body with
    | .error why => refuse why
    | .ok request =>
      let (response, calls) := request.respond store rules
      (⟨200, none, some response.toJson⟩, calls)

/-- Answers the readiness probe. -/
def ready (health : Health) (store : Store) (rules : List FailureRule) :
    HttpAnswer × List StoreCall :=
  if !health.ready then (⟨503, some "no-store", none⟩, [])
  else
    let (outcome, session) := Id.run ((Session.scanAll .memberTier).run ⟨store, rules, []⟩)
    match outcome with
    | .ok _ => (⟨200, some "no-store", none⟩, session.calls)
    | .error _ => (errorAnswer 503 (some "no-store")
        (ServiceError.make .serviceUnavailable "record store is not reachable"), session.calls)

/-- Whether a character may stand in the scheme of a URI. -/
def schemeChar (c : Char) : Bool := c.isAlphanum || c == '+' || c == '-' || c == '.'

/-- What follows the `scheme://` of an absolute target, or none when the target names no
scheme. -/
def afterScheme? (cs : List Char) : Option (List Char) :=
  match cs.span schemeChar with
  | (scheme, ':' :: '/' :: '/' :: rest) => if scheme.isEmpty then none else some rest
  | _ => none

/-- The path of a request target: what stands before its query (`?`) or fragment (`#`). In an
absolute target (`scheme://authority/path`) the path starts after the authority, and an empty
path is `/`. -/
def targetPath (target : String) : List Char :=
  let stop (c : Char) : Bool := c == '?' || c == '#'
  match afterScheme? target.toList with
  | some rest =>
    let path := (rest.dropWhile fun c => c != '/' && !stop c).takeWhile (!stop ·)
    if path.isEmpty then ['/'] else path
  | none => target.toList.takeWhile (!stop ·)

/-- The value of a hex digit, in either letter case. -/
def hexValue? (c : Char) : Option Nat :=
  if '0' ≤ c ∧ c ≤ '9' then some (c.toNat - '0'.toNat)
  else if 'a' ≤ c ∧ c ≤ 'f' then some (c.toNat - 'a'.toNat + 10)
  else if 'A' ≤ c ∧ c ≤ 'F' then some (c.toNat - 'A'.toNat + 10)
  else none

/-- The UTF-8 bytes of a character. -/
def charBytes (c : Char) : List Nat := c.toString.toUTF8.toList.map UInt8.toNat

/-- Where a decoding of a path stands: outside an escape, just after a `%`, or after a `%` and
one hex digit. -/
inductive Escape where
  | none
  | percent
  | digit (h : Char)

/-- Whether a byte keeps its percent-encoding in a path: `%`, `/` and `+` do. -/
def keepsEncoding (byte : Nat) : Bool := byte == 0x25 || byte == 0x2f || byte == 0x2b

/-- The bytes of a path read from a state of its escapes; see `decodePath`. A character that
ends an escape too early is read again outside any escape. -/
def decodeFrom : Escape → List Char → List Nat
  | .none, [] => []
  | .percent, [] => [0x25]
  | .digit h, [] => [0x25, h.toNat]
  | .none, c :: rest =>
    if c == '%' then decodeFrom .percent rest else charBytes c ++ decodeFrom .none rest
  | .percent, c :: rest =>
    if (hexValue? c).isSome then decodeFrom (.digit c) rest
    else
      0x25 :: (if c == '%' then decodeFrom .percent rest else charBytes c ++ decodeFrom .none rest)
  | .digit h, c :: rest =>
    match hexValue? h, hexValue? c with
    | some a, some b =>
      let byte := a * 16 + b
      (if keepsEncoding byte then [0x25, h.toNat, c.toNat] else [byte]) ++ decodeFrom .none rest
    | _, _ =>
      [0x25, h.toNat] ++
        (if c == '%' then decodeFrom .percent rest else charBytes c ++ decodeFrom .none rest)

/-- The bytes a path stands for, as routes are matched against: each `%` with two hex digits
is the byte they spell, except that the encodings of `%`, `/` and `+` stay as they are (an
encoded slash does not separate segments); a `%` without two hex digits stands for itself. -/
def decodePath (path : List Char) : List Nat := decodeFrom .none path

/-- Whether a request target is routed to a path. -/
def routesTo (target : String) (route : String) : Bool :=
  decodePath (targetPath target) == (route.toList.map Char.toNat)

/-- Answers a request. -/
def handle (req : HttpRequest) (health : Health) (store : Store) (rules : List FailureRule) :
    HttpAnswer × List StoreCall :=
  if req.method == "GET" && routesTo req.path "/health/ready" then ready health store rules
  else if req.method == "GET" && routesTo req.path "/health/live" then
    (⟨if health.live then 200 else 503, some "no-store", none⟩, [])
  else if req.method == "POST" && (routesTo req.path "/graphql" || routesTo req.path "/") then
    query req store rules
  else (⟨404, none, none⟩, [])

end Http

end SocialGraph
