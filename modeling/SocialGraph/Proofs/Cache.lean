import SocialGraph.Proofs.Keys

/-!
# What each cache operation does

One lemma per operation of the batch cache, stating its result and the state it leaves, so
that later proofs never unfold an operation. The operations are state programs over a
session (the store, its failure rules and the trace of calls) and a cache (the slot table, the
pending window and the three scan memos); each lemma says which of these it changes and how.

The slot table and the memos are association lists read by `List.lookup`, so what a lemma
says about a table it says through look-ups. A flush is described per kind: the keys of a kind
it sends are the kind's *window* (`Cache.window`), and each key of a window is filled from the
answer to the window's call (`Slot.ofAnswer`). The answer a session gives to a keyed call is
`Session.keyedAnswer`; it depends on the store and the rules only, never on the trace.
-/

namespace SocialGraph

/-! ### State programs over `Id` -/

@[simp]
theorem id_bind_eq {α β : Type} (x : α) (f : α → Id β) : (x >>= f : Id β) = f x :=
  rfl

@[simp]
theorem id_pure_eq {α : Type} (x : α) : (pure x : Id α) = x :=
  rfl

-- The functor is the monad's, as `StateT.run_map` leaves it: with Mathlib in scope, plain
-- `<$>` on `Id` would pick the one derived from `Traversable Id` instead.
@[simp]
theorem id_map_eq {α β : Type} (f : α → β) (x : α) :
    @Functor.map Id Id.instMonad.toFunctor α β f x = f x :=
  rfl

/-! ### Tables of slots -/

section Tables

variable {α β : Type} [BEq α] [LawfulBEq α]

/-- Replacing the entry of a key: the key reads the new entry. -/
@[simp]
theorem lookup_cons_filter_self (l : List (α × β)) (key : α) (v : β) :
    ((key, v) :: l.filter (·.1 != key)).lookup key = some v := by
  simp

/-- Replacing the entry of a key leaves the look-up of every other key as it was. -/
theorem lookup_cons_filter_of_ne (l : List (α × β)) {key k : α} (v : β) (hk : k ≠ key) :
    ((key, v) :: l.filter (·.1 != key)).lookup k = l.lookup k := by
  rw [List.lookup_cons, beq_false_of_ne hk]
  induction l with
  | nil => rfl
  | cons p l ih =>
    obtain ⟨a, b⟩ := p
    by_cases ha : a = key
    · subst ha
      simpa [List.filter_cons, List.lookup_cons, beq_false_of_ne hk] using ih
    · have hne : (a != key) = true := bne_iff_ne.mpr ha
      simp only [List.filter_cons, hne, ↓reduceIte, List.lookup_cons]
      split <;> simp_all

end Tables

/-! ### The session -/

namespace Session

variable (s : Session)

/-- What a session answers a call: the error of the first rule the call matches, or else
what the store gives. -/
def answer {α : Type} (c : StoreCall) (f : Store → α) : Except StoreError α :=
  match s.failure c with
  | some e => .error e
  | none => .ok (f s.store)

/-- The records a store gives for a keyed call, each with the key asked for. -/
def keyedRecords (store : Store) : StoreCall → List (RecordId × Record)
  | .getById kind id => ((store.get kind id).map (id, ·)).toList
  | .getManyByIds kind ids => store.getMany kind ids
  | _ => []

/-- What a session answers a keyed call. -/
def keyedAnswer (c : StoreCall) : Except StoreError (List (RecordId × Record)) :=
  s.answer c (keyedRecords · c)

/-- A call made: the session with the call on its trace. -/
def push (c : StoreCall) : Session := { s with trace := c :: s.trace }

@[simp]
theorem push_store (c : StoreCall) : (s.push c).store = s.store :=
  rfl

@[simp]
theorem push_rules (c : StoreCall) : (s.push c).rules = s.rules :=
  rfl

@[simp]
theorem push_trace (c : StoreCall) : (s.push c).trace = c :: s.trace :=
  rfl

@[simp]
theorem failure_push (c c' : StoreCall) : (s.push c).failure c' = s.failure c' :=
  rfl

@[simp]
theorem answer_push {α : Type} (c c' : StoreCall) (f : Store → α) :
    (s.push c).answer c' f = s.answer c' f :=
  rfl

@[simp]
theorem keyedAnswer_push (c c' : StoreCall) : (s.push c).keyedAnswer c' = s.keyedAnswer c' :=
  rfl

theorem run_call {α : Type} (c : StoreCall) (f : Store → α) :
    (call c f).run s = (s.answer c f, s.push c) := by
  cases h : s.failure c with
  | none => simp [call, observe, answer, h]; rfl
  | some e => simp [call, observe, answer, h]; rfl

end Session

/-! ### Windows -/

/-- A window holds exactly the pending keys of its kind that have no slot. -/
theorem Cache.mem_window {c : Cache} {kind : RecordKind} {id : RecordId} :
    id ∈ c.window kind ↔ (kind, id) ∈ c.pending ∧ c.slots.lookup (kind, id) = none := by
  simp only [Cache.window, List.mem_filter, mem_insertKeys, List.not_mem_nil, false_or,
    List.mem_map, List.mem_filter, beq_iff_eq, Option.isNone_iff_eq_none]
  constructor
  · rintro ⟨⟨⟨k, i⟩, ⟨hmem, rfl⟩, rfl⟩, hnone⟩
    exact ⟨hmem, hnone⟩
  · rintro ⟨hmem, hnone⟩
    exact ⟨⟨(kind, id), ⟨hmem, rfl⟩, rfl⟩, hnone⟩

/-- A window is sorted, so it holds each key once. -/
theorem Cache.window_sorted (c : Cache) (kind : RecordKind) : KeysSorted (c.window kind) :=
  (sorted_insertKeys _ List.Pairwise.nil).sublist List.filter_sublist

/-- The keyed call that sends a window: a single look-up for one key, a batch otherwise. -/
def keyedCall (kind : RecordKind) : List RecordId → StoreCall
  | [id] => .getById kind id
  | ids => .getManyByIds kind ids

namespace Batch

variable (b : Batch)

/-! ### Reading and writing slots -/

@[simp]
theorem run_slot (kind : RecordKind) (id : RecordId) :
    (slot? kind id).run b = (b.cache.slots.lookup (kind, id), b) :=
  rfl

@[simp]
theorem run_onCache (f : Cache → Cache) :
    (onCache f).run b = ((), { b with cache := f b.cache }) :=
  rfl

theorem run_onSession {α : Type} (m : StateM Session α) :
    (onSession m).run b = ((m.run b.session).1, { b with session := (m.run b.session).2 }) :=
  rfl

theorem run_setSlot (kind : RecordKind) (id : RecordId) (s : Slot) :
    (setSlot kind id s).run b =
      ((), { b with cache := { b.cache with
        slots := ((kind, id), s) :: b.cache.slots.filter (·.1 != (kind, id)) } }) :=
  rfl

theorem run_enqueue (kind : RecordKind) (id : RecordId) :
    (enqueue kind id).run b =
      ((), if (b.cache.slots.lookup (kind, id)).isNone && !b.cache.pending.contains (kind, id)
        then { b with cache := { b.cache with pending := b.cache.pending ++ [(kind, id)] } }
        else b) := by
  simp only [enqueue, StateT.run_bind, run_slot, StateT.run_get, id_bind_eq, id_pure_eq]
  split <;> rfl

/-! ### Priming -/

/-- A slot table after priming with records: each record fills its own key where that key has
no slot yet. -/
def primeSlots : List Record → List ((RecordKind × RecordId) × Slot) →
    List ((RecordKind × RecordId) × Slot)
  | [], slots => slots
  | r :: rs, slots =>
    primeSlots rs (if (slots.lookup (r.kind, r.id)).isNone then
      ((r.kind, r.id), .found r) :: slots.filter (·.1 != (r.kind, r.id)) else slots)

theorem run_prime (rs : List Record) :
    (prime rs).run b = ((), { b with cache := { b.cache with
      slots := primeSlots rs b.cache.slots } }) := by
  induction rs generalizing b with
  | nil => rfl
  | cons r rs ih =>
    simp only [prime, StateT.run_bind, run_slot, id_bind_eq]
    split
    · next h =>
      rw [StateT.run_bind, run_setSlot, id_bind_eq, ih]
      simp [primeSlots, h]
    · next h =>
      rw [ih]
      simp [primeSlots, h]

/-- Priming keeps every slot, and fills a key without one from the first record with that
key. -/
theorem lookup_primeSlots (rs : List Record) (slots : List ((RecordKind × RecordId) × Slot))
    (key : RecordKind × RecordId) :
    (primeSlots rs slots).lookup key =
      (slots.lookup key).or ((rs.find? fun r => (r.kind, r.id) == key).map .found) := by
  induction rs generalizing slots with
  | nil => simp [primeSlots]
  | cons r rs ih =>
    rw [primeSlots, ih]
    by_cases hk : key = (r.kind, r.id)
    · subst hk
      cases h : slots.lookup (r.kind, r.id) <;> simp [h]
    · have hne : ((r.kind, r.id) == key) = false := beq_false_of_ne (Ne.symm hk)
      split <;> simp [lookup_cons_filter_of_ne _ _ hk, hne]

/-! ### Flushing -/

theorem run_fetch (kind : RecordKind) (ids : List RecordId) :
    (fetch kind ids).run b =
      (b.session.keyedAnswer (keyedCall kind ids),
        { b with session := b.session.push (keyedCall kind ids) }) := by
  match ids with
  | [id] =>
    simp only [fetch, run_onSession, StateT.run_bind, Session.getById, Session.run_call,
      id_bind_eq, StateT.run_pure, id_pure_eq]
    simp only [keyedCall, Session.keyedAnswer, Session.answer, Session.keyedRecords]
    cases b.session.failure (.getById kind id) <;> rfl
  | [] => simp only [fetch, run_onSession, Session.getManyByIds, Session.run_call]; rfl
  | _ :: _ :: _ => simp only [fetch, run_onSession, Session.getManyByIds, Session.run_call]; rfl

/-- A slot table after filling the keys of one call from its answer. -/
def fillSlots (kind : RecordKind) (answer : Except StoreError (List (RecordId × Record))) :
    List RecordId → List ((RecordKind × RecordId) × Slot) → List ((RecordKind × RecordId) × Slot)
  | [], slots => slots
  | id :: ids, slots => fillSlots kind answer ids
      (((kind, id), Slot.ofAnswer answer id) :: slots.filter (·.1 != (kind, id)))

theorem run_fill (kind : RecordKind) (ids : List RecordId)
    (answer : Except StoreError (List (RecordId × Record))) :
    (fill kind ids answer).run b =
      ((), { b with cache := { b.cache with
        slots := fillSlots kind answer ids b.cache.slots } }) := by
  induction ids generalizing b with
  | nil => rfl
  | cons id ids ih =>
    simp only [fill, List.forM_eq_forM, List.forM_cons, StateT.run_bind, run_setSlot,
      id_bind_eq] at ih ⊢
    rw [ih]
    rfl

/-- Filling sets every key sent to the slot its answer gives, and leaves every other key. -/
theorem lookup_fillSlots (kind : RecordKind)
    (answer : Except StoreError (List (RecordId × Record))) (ids : List RecordId)
    (slots : List ((RecordKind × RecordId) × Slot)) (k : RecordKind) (i : RecordId) :
    (fillSlots kind answer ids slots).lookup (k, i) =
      if k = kind ∧ i ∈ ids then some (Slot.ofAnswer answer i) else slots.lookup (k, i) := by
  induction ids generalizing slots with
  | nil => simp [fillSlots]
  | cons id ids ih =>
    rw [fillSlots, ih]
    by_cases hin : k = kind ∧ i ∈ ids
    · simp [hin]
    · by_cases hk : (k, i) = (kind, id)
      · obtain ⟨rfl, rfl⟩ := Prod.mk.inj hk
        simp
      · have hnot : ¬(k = kind ∧ i ∈ id :: ids) := by
          rintro ⟨rfl, hmem⟩
          rcases List.mem_cons.mp hmem with rfl | hmem
          · exact hk rfl
          · exact hin ⟨rfl, hmem⟩
        rw [if_neg hin, if_neg hnot, lookup_cons_filter_of_ne _ _ hk]

/-- The calls a flush makes, in order: one for each window. -/
def flushCalls (c : Cache) : List StoreCall :=
  (windows c).map fun w => keyedCall w.1 w.2

/-- The slot table after a flush: every window filled from the answer to its call. -/
def flushSlots (s : Session) (c : Cache) : List ((RecordKind × RecordId) × Slot) :=
  (windows c).foldl (fun slots w => fillSlots w.1 (s.keyedAnswer (keyedCall w.1 w.2)) w.2 slots)
    c.slots

/-- Fetching every window in turn makes one call per window and answers each. -/
theorem run_mapM_fetch (g : RecordKind × List RecordId →
      StateM Batch (RecordKind × List RecordId × Except StoreError (List (RecordId × Record))))
    (hg : ∀ w b, (g w).run b = ((w.1, w.2, b.session.keyedAnswer (keyedCall w.1 w.2)),
      { b with session := b.session.push (keyedCall w.1 w.2) }))
    (ws : List (RecordKind × List RecordId)) :
    (ws.mapM g).run b =
      (ws.map fun w => (w.1, w.2, b.session.keyedAnswer (keyedCall w.1 w.2)),
        { b with session := { b.session with
          trace := (ws.map fun w => keyedCall w.1 w.2).reverse ++ b.session.trace } }) := by
  induction ws generalizing b with
  | nil => rfl
  | cons w ws ih =>
    simp only [List.mapM_cons, StateT.run_bind, hg, id_bind_eq, ih, StateT.run_pure, id_pure_eq,
      Session.keyedAnswer_push]
    simp [Session.push]

/-- Filling from every answer in turn. -/
theorem run_forM_fill
    (f : RecordKind × List RecordId × Except StoreError (List (RecordId × Record)) →
      StateM Batch PUnit)
    (hf : ∀ a b, (f a).run b =
      ((), { b with cache := { b.cache with slots := fillSlots a.1 a.2.2 a.2.1 b.cache.slots } }))
    (as : List (RecordKind × List RecordId × Except StoreError (List (RecordId × Record)))) :
    (as.forM f).run b =
      ((), { b with cache := { b.cache with
        slots := as.foldl (fun slots a => fillSlots a.1 a.2.2 a.2.1 slots) b.cache.slots } }) := by
  induction as generalizing b with
  | nil => rfl
  | cons a as ih =>
    simp only [List.forM_eq_forM, List.forM_cons, StateT.run_bind, hf, id_bind_eq] at ih ⊢
    rw [ih]
    rfl

theorem run_flush :
    flush.run b =
      ((), ⟨{ b.session with trace := (flushCalls b.cache).reverse ++ b.session.trace },
        { b.cache with pending := [], slots := flushSlots b.session b.cache }⟩) := by
  simp only [flush, StateT.run_bind, StateT.run_get, id_bind_eq, id_pure_eq, run_onCache]
  rw [run_mapM_fetch]
  · rw [run_forM_fill]
    · simp [flushCalls, flushSlots, List.foldl_map]
    · intro a b
      simp [run_fill]
  · intro w b
    simp [run_fetch]

/-- A flush over the windows of some kinds, each kind at most once. -/
theorem lookup_foldl_fillSlots (c : Cache)
    (ans : RecordKind → List RecordId → Except StoreError (List (RecordId × Record)))
    (ks : List RecordKind) (hks : ks.Nodup) (slots : List ((RecordKind × RecordId) × Slot))
    (k : RecordKind) (i : RecordId) :
    ((ks.filterMap fun kind =>
        if (c.window kind).isEmpty then none else some (kind, c.window kind)).foldl
      (fun slots w => fillSlots w.1 (ans w.1 w.2) w.2 slots) slots).lookup (k, i) =
      if k ∈ ks ∧ i ∈ c.window k then some (Slot.ofAnswer (ans k (c.window k)) i)
      else slots.lookup (k, i) := by
  induction ks generalizing slots with
  | nil => simp
  | cons k' ks ih =>
    obtain ⟨hk', hks⟩ := List.nodup_cons.mp hks
    by_cases he : (c.window k').isEmpty
    · rw [List.filterMap_cons, if_pos he, ih hks]
      have hnil : c.window k' = [] := List.isEmpty_iff.mp he
      by_cases hk : k = k'
      · subst hk
        simp [hnil, hk']
      · simp [hk]
    · rw [List.filterMap_cons, if_neg he, List.foldl_cons, ih hks, lookup_fillSlots]
      by_cases hk : k = k'
      · subst hk
        simp [hk']
      · simp [hk]

/-- After a flush, every key of a window holds the slot its call's answer gives; every other
key is as it was. -/
theorem lookup_flushSlots (s : Session) (c : Cache) (k : RecordKind) (i : RecordId) :
    (flushSlots s c).lookup (k, i) =
      if i ∈ c.window k then some (Slot.ofAnswer (s.keyedAnswer (keyedCall k (c.window k))) i)
      else c.slots.lookup (k, i) := by
  have hall : k ∈ RecordKind.all := by cases k <;> decide
  rw [flushSlots, windows, lookup_foldl_fillSlots c (fun k ids => s.keyedAnswer (keyedCall k ids))
    RecordKind.all (by decide)]
  simp [hall]

/-! ### Resolving a key -/

theorem run_resolve_of_lookup_eq_some {kind : RecordKind} {id : RecordId} {s : Slot}
    (h : b.cache.slots.lookup (kind, id) = some s) : (resolve kind id).run b = (s, b) := by
  simp [resolve, h]

theorem run_resolve_of_lookup_eq_none {kind : RecordKind} {id : RecordId}
    (h : b.cache.slots.lookup (kind, id) = none) :
    (resolve kind id).run b =
      ((((flush.run ((enqueue kind id).run b).2).2.cache.slots.lookup (kind, id)).getD .missing),
        (flush.run ((enqueue kind id).run b).2).2) := by
  simp [resolve, h]

/-! ### Scans -/

/-- The slot table after a scan's result primes it: the records of a successful scan fill
the keys that have no slot. -/
def primedSlots : Except StoreError (List Record) → List ((RecordKind × RecordId) × Slot) →
    List ((RecordKind × RecordId) × Slot)
  | .ok records, slots => primeSlots records slots
  | .error _, slots => slots

theorem run_scanAll_of_lookup_eq_some {kind : RecordKind} {r : Except StoreError (List Record)}
    (h : b.cache.fullScans.lookup kind = some r) :
    (scanAll kind).run b =
      (r, { b with cache := { b.cache with slots := primedSlots r b.cache.slots } }) := by
  simp only [scanAll, StateT.run_bind, StateT.run_get, id_bind_eq, h, StateT.run_pure, id_pure_eq]
  cases r <;> simp [run_prime, primedSlots]

theorem run_scanAll_of_lookup_eq_none {kind : RecordKind}
    (h : b.cache.fullScans.lookup kind = none) :
    (scanAll kind).run b =
      (b.session.answer (.scanAll kind) (·.rows kind),
        ⟨b.session.push (.scanAll kind), { b.cache with
          fullScans := (kind, b.session.answer (.scanAll kind) (·.rows kind)) :: b.cache.fullScans,
          slots := primedSlots (b.session.answer (.scanAll kind) (·.rows kind))
            b.cache.slots }⟩) := by
  simp only [scanAll, StateT.run_bind, StateT.run_get, id_bind_eq, h, run_onSession,
    Session.scanAll, Session.run_call, run_onCache, StateT.run_pure, id_pure_eq]
  generalize b.session.answer (.scanAll kind) (·.rows kind) = r
  cases r <;> simp [run_prime, primedSlots]

theorem run_scanByForeignKey_of_lookup_eq_some {fk : ForeignKey} {value : RecordId}
    {r : Except StoreError (List Record)} (h : b.cache.keyScans.lookup (fk, value) = some r) :
    (scanByForeignKey fk value).run b =
      (r, { b with cache := { b.cache with slots := primedSlots r b.cache.slots } }) := by
  simp only [scanByForeignKey, StateT.run_bind, StateT.run_get, id_bind_eq, h, StateT.run_pure,
    id_pure_eq]
  cases r <;> simp [run_prime, primedSlots]

theorem run_scanByForeignKey_of_lookup_eq_none {fk : ForeignKey} {value : RecordId}
    (h : b.cache.keyScans.lookup (fk, value) = none) :
    (scanByForeignKey fk value).run b =
      (b.session.answer (.scanByForeignKey fk value) (·.scanByForeignKey fk value),
        ⟨b.session.push (.scanByForeignKey fk value), { b.cache with
          keyScans := ((fk, value), b.session.answer (.scanByForeignKey fk value)
            (·.scanByForeignKey fk value)) :: b.cache.keyScans,
          slots := primedSlots (b.session.answer (.scanByForeignKey fk value)
            (·.scanByForeignKey fk value)) b.cache.slots }⟩) := by
  simp only [scanByForeignKey, StateT.run_bind, StateT.run_get, id_bind_eq, h, run_onSession,
    Session.scanByForeignKey, Session.run_call, run_onCache, StateT.run_pure, id_pure_eq]
  generalize b.session.answer (.scanByForeignKey fk value) (·.scanByForeignKey fk value) = r
  cases r <;> simp [run_prime, primedSlots]

theorem run_scanAssociation_of_lookup_eq_some {e : SubscriptionEnd} {user : Uuid}
    {r : Except StoreError (List Subscription)} (h : b.cache.linkScans.lookup (e, user) = some r) :
    (scanAssociation e user).run b = (r, b) := by
  simp [scanAssociation, h]

theorem run_scanAssociation_of_lookup_eq_none {e : SubscriptionEnd} {user : Uuid}
    (h : b.cache.linkScans.lookup (e, user) = none) :
    (scanAssociation e user).run b =
      (b.session.answer (.scanAssociation e user) (·.scanAssociation e user),
        ⟨b.session.push (.scanAssociation e user), { b.cache with
          linkScans := ((e, user), b.session.answer (.scanAssociation e user)
            (·.scanAssociation e user)) :: b.cache.linkScans }⟩) := by
  simp [scanAssociation, h, run_onSession, Session.scanAssociation, Session.run_call]

end Batch

end SocialGraph
