import SocialGraph.Store.Basic

/-!
# Store calls, failures and the call trace

Every question put to a store is a call. A session with a store keeps the trace of its calls
in the order they were made, and may be given failure rules: a call that matches a rule fails
with the rule's error instead of being answered. A call is put on the trace before the rules
are looked at, so a failed call is on the trace too; the first rule that matches decides the
error.

A rule names any of: the call's operation, the kind of record it concerns, a key it mentions,
the foreign key it scans and the subscription end it scans. A call matches a rule when it fits
every part the rule names. An association scan concerns no kind, so a rule that names a kind
never matches it; a full scan mentions no key.
-/

namespace SocialGraph

/-- A question put to a store. -/
inductive StoreCall where
  | getById (kind : RecordKind) (id : RecordId)
  | getManyByIds (kind : RecordKind) (ids : List RecordId)
  | scanAll (kind : RecordKind)
  | scanByForeignKey (fk : ForeignKey) (value : RecordId)
  | scanAssociation (e : SubscriptionEnd) (user : Uuid)

namespace StoreCall

/-- The name of the call's operation. -/
def opName : StoreCall → String
  | getById .. => "get_by_id"
  | getManyByIds .. => "get_many_by_ids"
  | scanAll .. => "scan_all"
  | scanByForeignKey .. => "scan_by_foreign_key"
  | scanAssociation .. => "scan_association"

/-- The kind of record a call concerns; a foreign-key scan concerns the kind it scans, and an
association scan none. -/
def kind : StoreCall → Option RecordKind
  | getById k _ | getManyByIds k _ | scanAll k => some k
  | scanByForeignKey fk _ => some fk.kind
  | scanAssociation .. => none

/-- Whether a call mentions a key, compared in printed form. -/
def mentions (c : StoreCall) (id : String) : Bool :=
  match c with
  | getById _ i => i.render == id
  | getManyByIds _ is => is.any (·.render == id)
  | scanByForeignKey _ v => v.render == id
  | scanAssociation _ u => u.render == id
  | scanAll _ => false

/-- The form of a call in a trace. -/
def toJson : StoreCall → Json
  | getById k i => .obj [("op", .str "get_by_id"), ("kind", .str k.name), ("id", .str i.render)]
  | getManyByIds k is => .obj [("op", .str "get_many_by_ids"), ("kind", .str k.name),
      ("ids", .arr (is.map (Json.str ∘ RecordId.render)))]
  | scanAll k => .obj [("op", .str "scan_all"), ("kind", .str k.name)]
  | scanByForeignKey fk v => .obj [("op", .str "scan_by_foreign_key"),
      ("foreignKey", .str fk.name), ("value", .str v.render)]
  | scanAssociation e u => .obj [("op", .str "scan_association"), ("end", .str e.name),
      ("user", .str u.render)]

end StoreCall

/-- Why a store could not answer. -/
inductive StoreError where
  | connection (message : String)
  | query (message : String)

/-- The message of a store error. -/
def StoreError.message : StoreError → String
  | .connection m => "record store connection failed: " ++ m
  | .query m => "record store query failed: " ++ m

/-- A failure rule: the parts of a call it looks for, and the error it gives. -/
structure FailureRule where
  op : Option String
  kind : Option String
  id : Option String
  foreignKey : Option String
  subscriptionEnd : Option String
  error : StoreError

namespace FailureRule

/-- Whether a call fits every part the rule names. -/
def fits (r : FailureRule) (c : StoreCall) : Bool :=
  r.op.all (· == c.opName) &&
  r.kind.all (fun k => (c.kind.map RecordKind.name) == some k) &&
  r.id.all c.mentions &&
  r.foreignKey.all (fun n => match c with
    | .scanByForeignKey fk _ => fk.name == n
    | _ => false) &&
  r.subscriptionEnd.all (fun n => match c with
    | .scanAssociation e _ => e.name == n
    | _ => false)

end FailureRule

/-- A store with failure rules and the trace of the calls made so far, newest first. -/
structure Session where
  store : Store
  rules : List FailureRule
  trace : List StoreCall

namespace Session

/-- The error of the first rule a call matches, if any. -/
def failure (s : Session) (c : StoreCall) : Option StoreError :=
  (s.rules.find? (·.fits c)).map (·.error)

/-- Puts a call on the trace, and gives the error of the first rule it matches. -/
def observe (c : StoreCall) : StateM Session (Option StoreError) :=
  modifyGet fun s => (s.failure c, { s with trace := c :: s.trace })

/-- The calls made, in order. -/
def calls (s : Session) : List StoreCall := s.trace.reverse

/-- Makes a call: the store's answer, unless a rule fails it. -/
def call {α : Type} (c : StoreCall) (answer : Store → α) : StateM Session (Except StoreError α) := do
  match ← observe c with
  | some e => return .error e
  | none => return .ok (answer (← get).store)

/-- The record of a key. -/
def getById (kind : RecordKind) (id : RecordId) :
    StateM Session (Except StoreError (Option Record)) :=
  call (.getById kind id) (·.get kind id)

/-- The records of several keys. -/
def getManyByIds (kind : RecordKind) (ids : List RecordId) :
    StateM Session (Except StoreError (List (RecordId × Record))) :=
  call (.getManyByIds kind ids) (·.getMany kind ids)

/-- Every record of a kind. -/
def scanAll (kind : RecordKind) : StateM Session (Except StoreError (List Record)) :=
  call (.scanAll kind) (·.rows kind)

/-- The records whose foreign key holds a value. -/
def scanByForeignKey (fk : ForeignKey) (value : RecordId) :
    StateM Session (Except StoreError (List Record)) :=
  call (.scanByForeignKey fk value) (·.scanByForeignKey fk value)

/-- The subscription rows with a user at one end. -/
def scanAssociation (e : SubscriptionEnd) (user : Uuid) :
    StateM Session (Except StoreError (List Subscription)) :=
  call (.scanAssociation e user) (·.scanAssociation e user)

end Session

end SocialGraph
