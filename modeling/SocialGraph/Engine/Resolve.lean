import SocialGraph.Engine.Cache
import SocialGraph.Engine.Response
import SocialGraph.Selection.Basic

/-!
# Resolving one field of one object

A field of an object is resolved in two phases. The first phase runs for every field of a
level before any keyed record is fetched: scans run at once (they are remembered), while a
record wanted by key is only put in the pending window, and the field's resolution says which
key it waits for. After the level's flush, the second phase settles each resolution: a key
that waited is read from its slot. A missing record settles as null, and a missing member of
a list is left out.

Only the root look-ups take an argument, `id`: a string (or, for member types, also an enum
value) that must be a well-formed identifier of the kind looked up.
-/

namespace SocialGraph

/-- A field's value after the first phase. -/
inductive Resolution where
  | value (v : Json)
  | record (r : Option Record)
  | records (rs : List Record)
  | deferred (kind : RecordKind) (id : RecordId)
  | deferredList (kind : RecordKind) (ids : List RecordId)

/-- A field's value after the second phase: a leaf value, one object or none, or a list of
objects. -/
inductive Settled where
  | leaf (v : Json)
  | object (r : Option Record)
  | list (rs : List Record)

/-- The error for a field a type does not have. -/
def unknownField (t : ObjectType) (f : Field) : ResolveError :=
  .validation ("Cannot query field \"" ++ f.name ++ "\" on type \"" ++ t.name ++ "\".")

/-- Refuses the first argument, in name order, that the field does not take. -/
def checkArguments (t : ObjectType) (d : FieldDef) (f : Field) : Except ResolveError Unit :=
  let accepted : List String := match d.resolver with
    | .rootLookup _ => ["id"]
    | _ => []
  match f.arguments.find? (fun (n, _) => !accepted.contains n) with
  | some (n, _) =>
    .error (.validation ("Unknown argument \"" ++ n ++ "\" on field \"" ++ t.name ++ "." ++
      f.name ++ "\"."))
  | none => .ok ()

/-- The type of the `id` argument of a look-up of a kind. -/
def idTypeName : RecordKind → String
  | .memberTier => "MemberTypeId"
  | _ => "UUID"

/-- The key a root look-up asks for. -/
def lookupId (kind : RecordKind) (f : Field) : Except ResolveError RecordId := do
  let some v := f.argument "id"
    | throw (.validation ("Field \"" ++ f.name ++ "\" argument \"id\" of type \"" ++
        idTypeName kind ++ "!\" is required but not provided."))
  let raw ← match kind, v with
    | .memberTier, .enum raw => pure raw
    | _, .string raw => pure raw
    | _, other => throw (.validation ("Argument \"id\" of field \"" ++ f.name ++
        "\" expects " ++ idTypeName kind ++ " but received " ++ other.describe ++ "."))
  (RecordId.parse kind raw).mapError fun e => .validation e.message

/-- Waits for the record of a key: puts the key in the pending window. -/
def defer (kind : RecordKind) (id : RecordId) : StateM Batch Resolution := do
  Batch.enqueue kind id
  return .deferred kind id

/-- Waits for the users of a list of keys, in order. -/
def deferUsers (ids : List Uuid) : StateM Batch Resolution := do
  let keys := ids.map RecordId.entity
  keys.forM (Batch.enqueue .user)
  return .deferredList .user keys

/-- Follows a relation from a record. -/
def follow (t : ObjectType) (f : Field) (r : Relation) (parent : Option Record) :
    StateM Batch (Except ResolveError Resolution) :=
  match r, parent with
  | .profileMemberType, some (.profile p) => .ok <$> defer .memberTier (.tier p.memberTypeId)
  | .userProfile, some (.user u) => do
    return ((← Batch.scanByForeignKey .profileUser (.entity u.id)).mapError .store).map
      (Resolution.record ∘ List.head?)
  | .userPosts, some (.user u) => do
    return ((← Batch.scanByForeignKey .postAuthor (.entity u.id)).mapError .store).map
      Resolution.records
  | .userSubscribedTo, some (.user u) => do
    match ← Batch.scanAssociation .subscriber u.id with
    | .ok rows => .ok <$> deferUsers (rows.map (·.authorId))
    | .error e => return .error (.store e)
  | .userSubscribedFrom, some (.user u) => do
    match ← Batch.scanAssociation .author u.id with
    | .ok rows => .ok <$> deferUsers (rows.map (·.subscriberId))
    | .error e => return .error (.store e)
  | .postAuthor, some (.post p) => .ok <$> defer .user (.entity p.authorId)
  | _, _ => return .error (unknownField t f)

/-- The first phase of resolving a field of an object. -/
def resolveField (t : ObjectType) (d : FieldDef) (f : Field) (parent : Option Record) :
    StateM Batch (Except ResolveError Resolution) :=
  match d.resolver with
  | .typename => return .ok (.value (.str t.name))
  | .scalar =>
    return match parent.bind (·.scalar f.name) with
      | some v => .ok (.value v)
      | none => .error (unknownField t f)
  | .rootList kind => do
    return ((← Batch.scanAll kind).mapError .store).map Resolution.records
  | .rootLookup kind =>
    match lookupId kind f with
    | .ok id => .ok <$> defer kind id
    | .error e => return .error e
  | .relation r => follow t f r parent

/-- The records of keys that waited, in order, leaving out missing ones; the first failed key
fails the list, and the keys after it are not read. -/
def settleKeys (kind : RecordKind) : List RecordId → List Record →
    StateM Batch (Except ResolveError (List Record))
  | [], acc => return .ok acc.reverse
  | id :: rest, acc => do
    match ← Batch.resolve kind id with
    | .found r => settleKeys kind rest (r :: acc)
    | .missing => settleKeys kind rest acc
    | .failed e => return .error (.store e)

/-- The second phase: reads the slots of the keys a resolution waited for. -/
def Resolution.settle : Resolution → StateM Batch (Except ResolveError Settled)
  | .value v => return .ok (.leaf v)
  | .record r => return .ok (.object r)
  | .records rs => return .ok (.list rs)
  | .deferred kind id => do
    match ← Batch.resolve kind id with
    | .found r => return .ok (.object (some r))
    | .missing => return .ok (.object none)
    | .failed e => return .error (.store e)
  | .deferredList kind ids => do return (← settleKeys kind ids []).map Settled.list

end SocialGraph
