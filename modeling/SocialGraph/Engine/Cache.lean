import SocialGraph.Store.Call

/-!
# The batch cache

Keyed look-ups are not sent to the store one by one. A key that is wanted is put in the
pending window of its kind, and a flush sends the whole window: one call per kind that has
keys waiting, kinds in the order member tier, user, profile, post, and the keys of a call in
key order. A window of exactly one key is sent as a single look-up, a larger one as a batch.
The answer fills a slot for every key sent: found, missing, or failed with the store's error
(every key of a failed call fails with it).

A key that already has a slot is never put in a window again, and a slot once filled stays:
records that scans bring back are added as found only where no slot is yet.

Scans are remembered by what they asked, failures included, so each distinct scan reaches the
store once.
-/

namespace SocialGraph

/-- What the cache knows of a key. -/
inductive Slot where
  | found (r : Record)
  | missing
  | failed (e : StoreError)

/-- The cache: slots of keys, the pending window, and the remembered scans. -/
structure Cache where
  slots : List ((RecordKind × RecordId) × Slot)
  pending : List (RecordKind × RecordId)
  fullScans : List (RecordKind × Except StoreError (List Record))
  keyScans : List ((ForeignKey × RecordId) × Except StoreError (List Record))
  linkScans : List ((SubscriptionEnd × Uuid) × Except StoreError (List Subscription))

/-- The cache of a new execution. -/
def Cache.empty : Cache := ⟨[], [], [], [], []⟩

/-- The slot a key gets from the answer to the call that carried it: found with the record the
answer gives for it, missing when the answer leaves it out, failed when the call failed. -/
def Slot.ofAnswer : Except StoreError (List (RecordId × Record)) → RecordId → Slot
  | .ok records, id => ((records.lookup id).map Slot.found).getD .missing
  | .error e, _ => .failed e

/-- Puts a key into a list of keys sorted in key order, unless it is there. -/
def insertKey (id : RecordId) : List RecordId → List RecordId
  | [] => [id]
  | k :: ks =>
    match RecordId.order id k with
    | .lt => id :: k :: ks
    | .eq => k :: ks
    | .gt => k :: insertKey id ks

/-- The keys of a kind to send at a flush: its pending keys that have no slot, sorted. -/
def Cache.window (c : Cache) (kind : RecordKind) : List RecordId :=
  let ids := ((c.pending.filter (·.1 == kind)).map (·.2)).foldl (fun acc id => insertKey id acc) []
  ids.filter fun id => (c.slots.lookup (kind, id)).isNone

/-- A session with a store together with the cache in front of it. -/
structure Batch where
  session : Session
  cache : Cache

/-- A new cache in front of a store with failure rules, before any call. -/
def Batch.fresh (store : Store) (rules : List FailureRule) : Batch :=
  ⟨⟨store, rules, []⟩, Cache.empty⟩

namespace Batch

/-- Runs a step of the session. -/
def onSession {α : Type} (m : StateM Session α) : StateM Batch α :=
  modifyGet fun b =>
    let (a, s) := Id.run (m.run b.session)
    (a, { b with session := s })

/-- Changes the cache. -/
def onCache (f : Cache → Cache) : StateM Batch Unit :=
  modify fun b => { b with cache := f b.cache }

/-- The slot of a key. -/
def slot? (kind : RecordKind) (id : RecordId) : StateM Batch (Option Slot) :=
  return (← get).cache.slots.lookup (kind, id)

/-- Fills the slot of a key, replacing what it held. -/
def setSlot (kind : RecordKind) (id : RecordId) (s : Slot) : StateM Batch Unit :=
  onCache fun c => { c with slots := ((kind, id), s) :: c.slots.filter (·.1 != (kind, id)) }

/-- Puts a key in the pending window, unless it has a slot. -/
def enqueue (kind : RecordKind) (id : RecordId) : StateM Batch Unit := do
  if (← slot? kind id).isNone && !(← get).cache.pending.contains (kind, id) then
    onCache fun c => { c with pending := c.pending ++ [(kind, id)] }

/-- Adds records as found, where their keys have no slot yet. -/
def prime : List Record → StateM Batch Unit
  | [] => return
  | r :: rs => do
    if (← slot? r.kind r.id).isNone then setSlot r.kind r.id (.found r)
    prime rs

/-- Asks the store for the records of a window of keys. -/
def fetch (kind : RecordKind) (ids : List RecordId) :
    StateM Batch (Except StoreError (List (RecordId × Record))) :=
  match ids with
  | [id] => onSession do
    return (← Session.getById kind id).map fun found => (found.map (id, ·)).toList
  | _ => onSession (Session.getManyByIds kind ids)

/-- Fills the slots of the keys sent in one call from its answer. -/
def fill (kind : RecordKind) (ids : List RecordId)
    (answer : Except StoreError (List (RecordId × Record))) : StateM Batch Unit :=
  ids.forM fun id => setSlot kind id (Slot.ofAnswer answer id)

/-- The windows to send: for each kind in order, its window, when it is not empty. -/
def windows (c : Cache) : List (RecordKind × List RecordId) :=
  RecordKind.all.filterMap fun kind =>
    if (c.window kind).isEmpty then none else some (kind, c.window kind)

/-- Sends the pending windows, one call per kind, and fills the slots from the answers. -/
def flush : StateM Batch Unit := do
  let batches := windows (← get).cache
  onCache fun c => { c with pending := [] }
  let answers ← batches.mapM fun (kind, ids) => do return (kind, ids, ← fetch kind ids)
  answers.forM fun (kind, ids, answer) => fill kind ids answer

/-- The slot of a key, flushing the window first when it has none. -/
def resolve (kind : RecordKind) (id : RecordId) : StateM Batch Slot := do
  match ← slot? kind id with
  | some s => return s
  | none => do
    enqueue kind id
    flush
    return ((← slot? kind id).getD .missing)

/-- Every record of a kind, remembered; the records found fill empty slots. -/
def scanAll (kind : RecordKind) : StateM Batch (Except StoreError (List Record)) := do
  let result ← match (← get).cache.fullScans.lookup kind with
    | some r => pure r
    | none => do
      let r ← onSession (Session.scanAll kind)
      onCache fun c => { c with fullScans := (kind, r) :: c.fullScans }
      pure r
  if let .ok records := result then prime records
  return result

/-- The records whose foreign key holds a value, remembered; the records found fill empty
slots. -/
def scanByForeignKey (fk : ForeignKey) (value : RecordId) :
    StateM Batch (Except StoreError (List Record)) := do
  let result ← match (← get).cache.keyScans.lookup (fk, value) with
    | some r => pure r
    | none => do
      let r ← onSession (Session.scanByForeignKey fk value)
      onCache fun c => { c with keyScans := ((fk, value), r) :: c.keyScans }
      pure r
  if let .ok records := result then prime records
  return result

/-- The subscription rows with a user at one end, remembered. -/
def scanAssociation (e : SubscriptionEnd) (user : Uuid) :
    StateM Batch (Except StoreError (List Subscription)) := do
  match (← get).cache.linkScans.lookup (e, user) with
  | some r => return r
  | none => do
    let r ← onSession (Session.scanAssociation e user)
    onCache fun c => { c with linkScans := ((e, user), r) :: c.linkScans }
    return r

end Batch

end SocialGraph
