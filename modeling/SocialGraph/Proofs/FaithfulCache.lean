import SocialGraph.Proofs.MemoContract
import SocialGraph.Proofs.StoreTables

/-!
# A cache that agrees with its dataset

A store loaded from a dataset answers every question as the dataset's lists do: the rows of a
kind are the dataset's list of that kind, a key's record is the first one with that key, and
scans filter the lists in order (`rows_store`, `get_store`, …). Loading refuses repeated keys,
so a record that a scan brings back is also the record of its own key (`lookup_of_mem`).

With no failure rules, a cache over such a store stays `Faithful`: each slot is what the
dataset gives for its key, and each remembered scan is the scan's answer. Every cache
operation keeps that, and each resolver's first phase leaves a resolution that settles to the
field's outcome on the dataset (`Prepared`), once the keys it waits for have slots.
-/

namespace SocialGraph

/-! ### The store of a dataset -/

namespace Dataset

variable (d : Dataset)

theorem rows_store (kind : RecordKind) : d.store.rows kind = d.ofKind kind := by
  cases kind <;> rfl

theorem get_store (kind : RecordKind) (id : RecordId) : d.store.get kind id = d.lookup kind id := by
  rw [Store.get, Dataset.store, Tables.get_ofKinds, Table.get_ofRows]
  rfl

theorem mem_ofKind {r : Record} {kind : RecordKind} (h : r ∈ d.ofKind kind) :
    r ∈ Store.recordsOf d ∧ r.kind = kind := by
  rw [← filter_recordsOf] at h
  simpa using List.mem_filter.mp h

/-- The records a foreign-key scan of the dataset's store gives are records of the dataset. -/
theorem mem_recordsOf_of_scanByForeignKey {fk : ForeignKey} {value : RecordId} {x : Record}
    (hx : x ∈ d.store.scanByForeignKey fk value) : x ∈ Store.recordsOf d := by
  have hrow := (List.mem_filter.mp hx).1
  rw [rows_store] at hrow
  exact (d.mem_ofKind hrow).1

theorem entity_beq_entity (a b : Uuid) : (RecordId.entity a == RecordId.entity b) = (a == b) := by
  rw [Bool.eq_iff_iff, beq_iff_eq, beq_iff_eq, RecordId.entity.injEq]

theorem scanByForeignKey_profileUser (u : Uuid) :
    d.store.scanByForeignKey .profileUser (.entity u) =
      (d.profiles.filter (·.userId == u)).map .profile := by
  rw [Store.scanByForeignKey_of_rows .profileUser (d.rows_store .profile)]
  congr 1
  exact List.filter_congr fun p _ ↦ entity_beq_entity p.userId u

theorem scanByForeignKey_postAuthor (u : Uuid) :
    d.store.scanByForeignKey .postAuthor (.entity u) =
      (d.posts.filter (·.authorId == u)).map .post := by
  rw [Store.scanByForeignKey_of_rows .postAuthor (d.rows_store .post)]
  congr 1
  exact List.filter_congr fun p _ ↦ entity_beq_entity p.authorId u

end Dataset

/-- Among records with unique keys, the first of a record's kind with its key is that
record. -/
theorem find?_key_of_mem {rs : List Record} (hrs : (rs.map fun r ↦ (r.kind, r.id)).Nodup)
    {r : Record} (hr : r ∈ rs) :
    (rs.filter (·.kind == r.kind)).find? (·.id == r.id) = some r := by
  induction rs with
  | nil => cases hr
  | cons s rs ih =>
    obtain ⟨hs, hrest⟩ := List.nodup_cons.mp hrs
    by_cases hkey : s.kind = r.kind ∧ s.id = r.id
    · -- the head has the key, so it is the record: a second one would repeat the key
      simp only [List.filter_cons, hkey.1, beq_self_eq_true, if_true, List.find?_cons, hkey.2]
      rcases List.mem_cons.mp hr with rfl | hr
      · rfl
      · exact absurd (List.mem_map.mpr ⟨r, hr, by simp only [hkey.1, hkey.2]⟩) hs
    · have hne : r ≠ s := by
        rintro rfl
        exact hkey ⟨rfl, rfl⟩
      have hr' := (List.mem_cons.mp hr).resolve_left hne
      by_cases hk : s.kind = r.kind
      · have hi : s.id ≠ r.id := fun hi ↦ hkey ⟨hk, hi⟩
        simp only [List.filter_cons, hk, beq_self_eq_true, if_true, List.find?_cons,
          beq_false_of_ne hi]
        exact ih hrest hr'
      · simp only [List.filter_cons, beq_false_of_ne hk]
        exact ih hrest hr'

namespace Dataset

variable {d : Dataset}

/-- With unique keys, a record of the dataset is the record of its own key. -/
theorem lookup_of_mem (hu : d.KeysUnique) {r : Record} (hr : r ∈ Store.recordsOf d) :
    d.lookup r.kind r.id = some r := by
  rw [lookup, ← filter_recordsOf]
  exact find?_key_of_mem hu hr

end Dataset

/-! ### Slots and answers -/

/-- The slot of a key whose record is known: found, or missing. -/
def Slot.ofLookup : Option Record → Slot
  | some r => .found r
  | none => .missing

/-- The records of several keys hold, for each key asked for, that key's record. -/
theorem lookup_getMany (store : Store) (kind : RecordKind) {ids : List RecordId} {i : RecordId}
    (hi : i ∈ ids) : (store.getMany kind ids).lookup i = store.get kind i := by
  induction ids with
  | nil => cases hi
  | cons id ids ih =>
    rw [Store.getMany, List.filterMap_cons]
    by_cases heq : i = id
    · subst heq
      cases hg : store.get kind i with
      | none =>
        rw [Option.map_none]
        show (store.getMany kind ids).lookup i = none
        by_cases hi' : i ∈ ids
        · rw [ih hi', hg]
        · rw [List.lookup_eq_none_iff]
          intro p hp
          obtain ⟨id', hid', hp⟩ := List.mem_filterMap.mp hp
          obtain ⟨r, -, rfl⟩ := Option.map_eq_some_iff.mp hp
          simp only [bne_iff_ne, ne_eq]
          rintro rfl
          exact hi' hid'
      | some r => simp
    · have hi' := (List.mem_cons.mp hi).resolve_left heq
      cases store.get kind id with
      | none => exact ih hi'
      | some r =>
        rw [Option.map_some, List.lookup_cons, beq_false_of_ne heq]
        exact ih hi'

/-- A keyed call answered by the store fills each of its keys with the key's record. -/
theorem ofAnswer_keyedCall (store : Store) (kind : RecordKind) {ids : List RecordId}
    {i : RecordId} (hi : i ∈ ids) :
    Slot.ofAnswer (.ok (Session.keyedRecords store (keyedCall kind ids))) i =
      Slot.ofLookup (store.get kind i) := by
  match ids, hi with
  | [id], hi =>
    rw [List.mem_singleton.mp hi]
    cases h : store.get kind id <;> simp [keyedCall, Session.keyedRecords, Slot.ofAnswer, h,
      Slot.ofLookup]
  | [], hi => cases hi
  | _ :: _ :: _, hi =>
    simp only [keyedCall, Session.keyedRecords, Slot.ofAnswer, lookup_getMany store kind hi]
    cases store.get kind i <;> rfl

/-! ### The invariant -/

/-- A batch over the store of a dataset, with no failure rules, whose slots and remembered
scans are what the dataset gives. -/
structure Faithful (d : Dataset) (b : Batch) : Prop where
  store : b.session.store = d.store
  rules : b.session.rules = []
  slots : ∀ key s, b.cache.slots.lookup key = some s → s = Slot.ofLookup (d.lookup key.1 key.2)
  fullScans : ∀ k r, b.cache.fullScans.lookup k = some r → r = .ok (d.ofKind k)
  keyScans : ∀ key r, b.cache.keyScans.lookup key = some r →
    r = .ok (d.store.scanByForeignKey key.1 key.2)
  linkScans : ∀ key r, b.cache.linkScans.lookup key = some r →
    r = .ok (d.store.scanAssociation key.1 key.2)

theorem faithful_fresh (d : Dataset) : Faithful d (Batch.fresh d.store []) := by
  refine ⟨rfl, rfl, ?_, ?_, ?_, ?_⟩ <;> intros <;> simp_all [Batch.fresh, Cache.empty]

/-- A table whose entries all have a property keeps it when an entry with the property is put
in front. -/
theorem forall_lookup_cons {α β : Type} [BEq α] [LawfulBEq α] (P : α → β → Prop)
    {l : List (α × β)} {k : α} {v : β} (hv : P k v) (hl : ∀ a w, l.lookup a = some w → P a w) :
    ∀ a w, ((k, v) :: l).lookup a = some w → P a w := by
  intro a w h
  rw [List.lookup_cons] at h
  split at h
  · next hk =>
    cases h
    rw [eq_of_beq hk]
    exact hv
  · exact hl a w h

section Operations

variable {d : Dataset} {b : Batch}

/-- With no failure rules, the session answers every call from its store. -/
theorem Faithful.answer (hb : Faithful d b) {α : Type} (c : StoreCall) (f : Store → α) :
    b.session.answer c f = .ok (f d.store) := by
  simp [Session.answer, Session.failure, hb.rules, hb.store]

/-- Priming with records of the dataset keeps every slot what the dataset gives. -/
theorem faithful_slots_primeSlots (hu : d.KeysUnique) {rs : List Record}
    (hrs : ∀ r ∈ rs, r ∈ Store.recordsOf d) {slots : List ((RecordKind × RecordId) × Slot)}
    (hslots : ∀ key s, slots.lookup key = some s → s = Slot.ofLookup (d.lookup key.1 key.2)) :
    ∀ key s, (Batch.primeSlots rs slots).lookup key = some s →
      s = Slot.ofLookup (d.lookup key.1 key.2) := by
  intro key s hs
  rw [Batch.lookup_primeSlots] at hs
  cases hl : slots.lookup key with
  | some s' =>
    rw [hl] at hs
    cases hs
    exact hslots key s hl
  | none =>
    rw [hl, Option.none_or] at hs
    obtain ⟨r, hfind, rfl⟩ := Option.map_eq_some_iff.mp hs
    have hkey : (r.kind, r.id) = key := by simpa using List.find?_some hfind
    rw [← hkey, Dataset.lookup_of_mem hu (hrs r (List.mem_of_find?_eq_some hfind))]
    rfl

/-- The state after a scan primes the slots with records of the dataset and remembers a
faithful answer is faithful. -/
theorem Faithful.primed (hu : d.KeysUnique) (hb : Faithful d b) {rs : List Record}
    (hrs : ∀ r ∈ rs, r ∈ Store.recordsOf d) {b' : Batch} (hsession : b'.session.store = d.store)
    (hrules : b'.session.rules = []) (hslots : b'.cache.slots = Batch.primeSlots rs b.cache.slots)
    (hfull : ∀ k r, b'.cache.fullScans.lookup k = some r → r = .ok (d.ofKind k))
    (hkey : ∀ key r, b'.cache.keyScans.lookup key = some r →
      r = .ok (d.store.scanByForeignKey key.1 key.2))
    (hlink : ∀ key r, b'.cache.linkScans.lookup key = some r →
      r = .ok (d.store.scanAssociation key.1 key.2)) : Faithful d b' :=
  ⟨hsession, hrules, by rw [hslots]; exact faithful_slots_primeSlots hu hrs hb.slots, hfull, hkey,
    hlink⟩

theorem Faithful.scanAll (hu : d.KeysUnique) (hb : Faithful d b) (kind : RecordKind) :
    ((Batch.scanAll kind).run b).1 = .ok (d.ofKind kind) ∧
      Faithful d ((Batch.scanAll kind).run b).2 := by
  have hrs : ∀ r ∈ d.ofKind kind, r ∈ Store.recordsOf d := fun r hr ↦ (d.mem_ofKind hr).1
  cases hl : b.cache.fullScans.lookup kind with
  | some r =>
    -- a remembered scan is the dataset's list, and primes the slots again
    obtain rfl := hb.fullScans kind r hl
    rw [Batch.run_scanAll_of_lookup_eq_some b hl]
    exact ⟨rfl, hb.primed hu hrs hb.store hb.rules rfl hb.fullScans hb.keyScans hb.linkScans⟩
  | none =>
    rw [Batch.run_scanAll_of_lookup_eq_none b hl, hb.answer, Dataset.rows_store]
    refine ⟨rfl, hb.primed hu hrs (by simpa using hb.store) (by simpa using hb.rules) rfl ?_
      hb.keyScans hb.linkScans⟩
    exact forall_lookup_cons (fun k r ↦ r = Except.ok (d.ofKind k)) rfl hb.fullScans

theorem Faithful.scanByForeignKey (hu : d.KeysUnique) (hb : Faithful d b) (fk : ForeignKey)
    (value : RecordId) :
    ((Batch.scanByForeignKey fk value).run b).1 = .ok (d.store.scanByForeignKey fk value) ∧
      Faithful d ((Batch.scanByForeignKey fk value).run b).2 := by
  have hrs : ∀ r ∈ d.store.scanByForeignKey fk value, r ∈ Store.recordsOf d :=
    fun _ hr ↦ d.mem_recordsOf_of_scanByForeignKey hr
  cases hl : b.cache.keyScans.lookup (fk, value) with
  | some r =>
    obtain rfl := hb.keyScans (fk, value) r hl
    rw [Batch.run_scanByForeignKey_of_lookup_eq_some b hl]
    exact ⟨rfl, hb.primed hu hrs hb.store hb.rules rfl hb.fullScans hb.keyScans hb.linkScans⟩
  | none =>
    rw [Batch.run_scanByForeignKey_of_lookup_eq_none b hl, hb.answer]
    refine ⟨rfl, hb.primed hu hrs (by simpa using hb.store) (by simpa using hb.rules) rfl
      hb.fullScans ?_ hb.linkScans⟩
    exact forall_lookup_cons
      (fun (key : ForeignKey × RecordId) r ↦ r = Except.ok (d.store.scanByForeignKey key.1 key.2))
      rfl
      hb.keyScans

theorem Faithful.scanAssociation (hb : Faithful d b) (e : SubscriptionEnd) (user : Uuid) :
    ((Batch.scanAssociation e user).run b).1 = .ok (d.store.scanAssociation e user) ∧
      Faithful d ((Batch.scanAssociation e user).run b).2 := by
  cases hl : b.cache.linkScans.lookup (e, user) with
  | some r =>
    obtain rfl := hb.linkScans (e, user) r hl
    rw [Batch.run_scanAssociation_of_lookup_eq_some b hl]
    exact ⟨rfl, hb⟩
  | none =>
    rw [Batch.run_scanAssociation_of_lookup_eq_none b hl, hb.answer]
    refine ⟨rfl, by simpa using hb.store, by simpa using hb.rules, hb.slots, hb.fullScans,
      hb.keyScans, ?_⟩
    exact forall_lookup_cons
      (fun (key : SubscriptionEnd × Uuid) r ↦ r = Except.ok (d.store.scanAssociation key.1 key.2))
      rfl
      hb.linkScans

theorem Faithful.enqueue (hb : Faithful d b) (kind : RecordKind) (id : RecordId) :
    Faithful d ((Batch.enqueue kind id).run b).2 := by
  rw [Batch.run_enqueue]
  split
  · exact ⟨hb.store, hb.rules, hb.slots, hb.fullScans, hb.keyScans, hb.linkScans⟩
  · exact hb

/-- A flush fills each key of a window with the key's record in the dataset. -/
theorem Faithful.flush (hb : Faithful d b) : Faithful d (Batch.flush.run b).2 := by
  rw [Batch.run_flush]
  refine ⟨hb.store, hb.rules, ?_, hb.fullScans, hb.keyScans, hb.linkScans⟩
  rintro ⟨k, i⟩ s hs
  change (Batch.flushSlots b.session b.cache).lookup (k, i) = some s at hs
  rw [Batch.lookup_flushSlots] at hs
  split at hs
  · next hi =>
    cases hs
    rw [Session.keyedAnswer, hb.answer, ofAnswer_keyedCall _ _ hi, Dataset.get_store]
  · exact hb.slots _ _ hs

/-- Resolving a key that has a slot gives the key's record in the dataset, and changes
nothing. -/
theorem Faithful.run_resolve (hb : Faithful d b) {kind : RecordKind} {id : RecordId}
    (h : (b.cache.slots.lookup (kind, id)).isSome) :
    (Batch.resolve kind id).run b = (Slot.ofLookup (d.lookup kind id), b) := by
  obtain ⟨s, hs⟩ := Option.isSome_iff_exists.mp h
  rw [Batch.run_resolve_of_lookup_eq_some b hs, hb.slots _ s hs]

end Operations

/-! ### The first phase of a field -/

@[simp]
theorem Except.mapError_ok {ε ε' α : Type} (f : ε → ε') (a : α) :
    (Except.ok a : Except ε α).mapError f = .ok a :=
  rfl

/-- Every operation extends the batch it runs on. -/
theorem extends_run (op : CacheOp) (b : Batch) : Batch.Extends b (op.run.run b).2 := by
  have h := (stepped op b).ok.extends_
  rwa [CacheOp.run_step] at h

theorem extends_scanAll (b : Batch) (kind : RecordKind) :
    Batch.Extends b ((Batch.scanAll kind).run b).2 := by
  simpa [CacheOp.run] using extends_run (.scanAll kind) b

theorem extends_scanByForeignKey (b : Batch) (fk : ForeignKey) (value : RecordId) :
    Batch.Extends b ((Batch.scanByForeignKey fk value).run b).2 := by
  simpa [CacheOp.run] using extends_run (.scanByForeignKey fk value) b

theorem extends_scanAssociation (b : Batch) (e : SubscriptionEnd) (user : Uuid) :
    Batch.Extends b ((Batch.scanAssociation e user).run b).2 := by
  simpa [CacheOp.run] using extends_run (.scanAssociation e user) b

/-- The keys a resolution waits for. -/
def Resolution.keys : Resolution → List (RecordKind × RecordId)
  | .deferred kind id => [(kind, id)]
  | .deferredList kind ids => ids.map (kind, ·)
  | _ => []

/-- What a resolution settles to when each key it waits for holds the key's record in the
dataset. -/
def Resolution.settleOn (d : Dataset) : Resolution → Settled
  | .value v => .leaf v
  | .record r => .object r
  | .records rs => .list rs
  | .deferred kind id => .object (d.lookup kind id)
  | .deferredList kind ids => .list (ids.filterMap (d.lookup kind))

/-- A first phase run from `b` to `b'` that kept the batch faithful and extended it, and left a
result whose keys wait (pending, or with a slot) and that settles to `outcome`. -/
structure Prepared (d : Dataset) (b : Batch) (res : Except ResolveError Resolution) (b' : Batch)
    (outcome : Outcome) : Prop where
  faithful : Faithful d b'
  extends_ : Batch.Extends b b'
  waits : ∀ r, res = .ok r → ∀ key ∈ r.keys,
    key ∈ b'.cache.pending ∨ (b'.cache.slots.lookup key).isSome
  settles : res.map (·.settleOn d) = outcome

section FirstPhase

variable {d : Dataset} {b : Batch}

theorem Prepared.pure (hb : Faithful d b) {res : Except ResolveError Resolution}
    {outcome : Outcome} (hkeys : ∀ r, res = .ok r → r.keys = [])
    (h : res.map (·.settleOn d) = outcome) :
    Prepared d b ((pure res : StateM Batch _).run b).1 ((pure res : StateM Batch _).run b).2
      outcome := by
  refine ⟨hb, .refl b, ?_, h⟩
  intro r hr key hkey
  rw [hkeys r hr] at hkey
  cases hkey

/-- A program that extends the batch, followed by one that prepares from where it stopped. -/
theorem Prepared.bind {α : Type} {m : StateM Batch α}
    {k : α → StateM Batch (Except ResolveError Resolution)} {outcome : Outcome}
    (hext : Batch.Extends b (m.run b).2)
    (hk : Prepared d (m.run b).2 ((k (m.run b).1).run (m.run b).2).1
      ((k (m.run b).1).run (m.run b).2).2 outcome) :
    Prepared d b ((m >>= k).run b).1 ((m >>= k).run b).2 outcome := by
  have hrun : (m >>= k).run b = (k (m.run b).1).run (m.run b).2 := by
    simp [StateT.run_bind]
  rw [hrun]
  exact ⟨hk.faithful, hext.trans hk.extends_, hk.waits, hk.settles⟩

theorem Prepared.map_ok {m : StateM Batch Resolution} {outcome : Outcome}
    (hb : Faithful d (m.run b).2) (hext : Batch.Extends b (m.run b).2)
    (hwaits : ∀ key ∈ (m.run b).1.keys,
      key ∈ (m.run b).2.cache.pending ∨ ((m.run b).2.cache.slots.lookup key).isSome)
    (h : Except.ok ((m.run b).1.settleOn d) = outcome) :
    Prepared d b ((Except.ok <$> m : StateM Batch (Except ResolveError Resolution)).run b).1
      ((Except.ok <$> m : StateM Batch (Except ResolveError Resolution)).run b).2 outcome := by
  have hrun : (Except.ok <$> m : StateM Batch (Except ResolveError Resolution)).run b =
      (.ok (m.run b).1, (m.run b).2) := by
    simp [StateT.run_map]
  rw [hrun]
  refine ⟨hb, hext, ?_, h⟩
  intro r hr
  cases hr
  exact hwaits

theorem prepared_defer (hb : Faithful d b) (kind : RecordKind) (id : RecordId) :
    Prepared d b
      ((Except.ok <$> defer kind id : StateM Batch (Except ResolveError Resolution)).run b).1
      ((Except.ok <$> defer kind id : StateM Batch (Except ResolveError Resolution)).run b).2
      (.ok (.object (d.lookup kind id))) := by
  have hrun : (defer kind id).run b = (.deferred kind id, ((Batch.enqueue kind id).run b).2) := by
    simp [defer]
  refine Prepared.map_ok ?_ ?_ ?_ ?_ <;> rw [hrun]
  · exact hb.enqueue kind id
  · exact (stepOk_enqueue b kind id).extends_
  · intro key hkey
    rw [List.mem_singleton.mp hkey]
    exact enqueue_waiting b kind id
  · rfl

/-- Enqueueing keys one after another keeps the batch faithful, and every key waits after. -/
theorem faithful_forM_enqueue (hb : Faithful d b) (kind : RecordKind) (ids : List RecordId) :
    Faithful d ((ids.forM (Batch.enqueue kind)).run b).2 ∧
      Batch.Extends b ((ids.forM (Batch.enqueue kind)).run b).2 ∧
      ∀ id ∈ ids, (kind, id) ∈ ((ids.forM (Batch.enqueue kind)).run b).2.cache.pending ∨
        ((((ids.forM (Batch.enqueue kind)).run b).2.cache.slots.lookup (kind, id)).isSome) := by
  induction ids generalizing b with
  | nil => exact ⟨hb, .refl b, by simp⟩
  | cons id ids ih =>
    have hrun : ((id :: ids).forM (Batch.enqueue kind)).run b =
        (ids.forM (Batch.enqueue kind)).run ((Batch.enqueue kind id).run b).2 := by
      simp [List.forM_cons, StateT.run_bind]
    obtain ⟨hb', hext, hwait⟩ := ih (hb.enqueue kind id)
    have hext₁ := (stepOk_enqueue b kind id).extends_
    rw [hrun]
    refine ⟨hb', hext₁.trans hext, ?_⟩
    intro id' hid'
    rcases List.mem_cons.mp hid' with rfl | hid'
    · exact hext.waiting _ (enqueue_waiting b kind id')
    · exact hwait id' hid'

theorem prepared_deferUsers (hb : Faithful d b) (ids : List Uuid) {outcome : Outcome}
    (h : outcome = .ok (.list (ids.filterMap fun u ↦ d.lookup .user (.entity u)))) :
    Prepared d b
      ((Except.ok <$> deferUsers ids : StateM Batch (Except ResolveError Resolution)).run b).1
      ((Except.ok <$> deferUsers ids : StateM Batch (Except ResolveError Resolution)).run b).2
      outcome := by
  have hrun : (deferUsers ids).run b = (.deferredList .user (ids.map RecordId.entity),
      (((ids.map RecordId.entity).forM (Batch.enqueue .user)).run b).2) := by
    simp [deferUsers]
  obtain ⟨hb', hext, hwait⟩ := faithful_forM_enqueue hb .user (ids.map RecordId.entity)
  refine Prepared.map_ok ?_ ?_ ?_ ?_ <;> rw [hrun]
  · exact hb'
  · exact hext
  · intro key hkey
    obtain ⟨id, hid, rfl⟩ := List.mem_map.mp hkey
    exact hwait id hid
  · rw [h, Resolution.settleOn, List.filterMap_map]
    rfl

/-- The first phase of following a relation prepares the relation's outcome on the dataset. -/
theorem prepared_follow (hu : d.KeysUnique) (hb : Faithful d b) (t : ObjectType) (f : Field)
    (r : Relation) (o : Option Record) :
    Prepared d b ((follow t f r o).run b).1 ((follow t f r o).run b).2 (d.follow t f r o) := by
  -- every pair of relation and record the relation does not start from fails at once
  have hfail : Prepared d b
      ((pure (.error (unknownField t f)) : StateM Batch (Except ResolveError Resolution)).run b).1
      ((pure (.error (unknownField t f)) : StateM Batch (Except ResolveError Resolution)).run b).2
      (.error (unknownField t f)) :=
    Prepared.pure hb (fun _ h ↦ by cases h) rfl
  cases r <;> cases o <;> try exact hfail
  all_goals rename_i record
  all_goals cases record <;> try exact hfail
  case profileMemberType.some.profile p => exact prepared_defer hb _ _
  case postAuthor.some.post p => exact prepared_defer hb _ _
  case userProfile.some.user u =>
    obtain ⟨hres, hb'⟩ := hb.scanByForeignKey hu .profileUser (.entity u.id)
    refine Prepared.bind (extends_scanByForeignKey b .profileUser (.entity u.id)) ?_
    rw [hres]
    refine Prepared.pure hb' (fun _ h ↦ by cases h; rfl) ?_
    simp [Resolution.settleOn, Dataset.follow, Dataset.scanByForeignKey_profileUser,
      List.head?_filter, Except.map]
  case userPosts.some.user u =>
    obtain ⟨hres, hb'⟩ := hb.scanByForeignKey hu .postAuthor (.entity u.id)
    refine Prepared.bind (extends_scanByForeignKey b .postAuthor (.entity u.id)) ?_
    rw [hres]
    refine Prepared.pure hb' (fun _ h ↦ by cases h; rfl) ?_
    simp [Resolution.settleOn, Dataset.follow, Dataset.scanByForeignKey_postAuthor, Except.map]
  case userSubscribedTo.some.user u =>
    obtain ⟨hres, hb'⟩ := hb.scanAssociation .subscriber u.id
    refine Prepared.bind (extends_scanAssociation b .subscriber u.id) ?_
    rw [hres]
    exact prepared_deferUsers hb' _ (by simp only [Dataset.follow, Store.scanAssociation,
      SubscriptionEnd.user, List.filterMap_map, Dataset.store, Function.comp_def])
  case userSubscribedFrom.some.user u =>
    obtain ⟨hres, hb'⟩ := hb.scanAssociation .author u.id
    refine Prepared.bind (extends_scanAssociation b .author u.id) ?_
    rw [hres]
    exact prepared_deferUsers hb' _ (by simp only [Dataset.follow, Store.scanAssociation,
      SubscriptionEnd.user, List.filterMap_map, Dataset.store, Function.comp_def])

/-- The first phase of a field prepares the field's outcome on the dataset. -/
theorem prepared_resolveField (hu : d.KeysUnique) (hb : Faithful d b) (t : ObjectType)
    (fd : FieldDef) (f : Field) (o : Option Record) :
    Prepared d b ((resolveField t fd f o).run b).1 ((resolveField t fd f o).run b).2
      (d.fieldOutcome t fd f o) := by
  cases hr : fd.resolver with
  | typename =>
    simp only [resolveField, Dataset.fieldOutcome, hr]
    exact Prepared.pure hb (fun _ h ↦ by cases h; rfl) rfl
  | scalar =>
    simp only [resolveField, Dataset.fieldOutcome, hr]
    cases o.bind (·.scalar f.name) with
    | some v => exact Prepared.pure hb (fun _ h ↦ by cases h; rfl) rfl
    | none => exact Prepared.pure hb (fun _ h ↦ by cases h) rfl
  | rootList kind =>
    simp only [resolveField, Dataset.fieldOutcome, hr]
    obtain ⟨hres, hb'⟩ := hb.scanAll hu kind
    refine Prepared.bind (extends_scanAll b kind) ?_
    rw [hres]
    exact Prepared.pure hb' (fun _ h ↦ by cases h; rfl) rfl
  | rootLookup kind =>
    simp only [resolveField, Dataset.fieldOutcome, hr]
    cases lookupId kind f with
    | ok id => exact prepared_defer hb kind id
    | error e => exact Prepared.pure hb (fun _ h ↦ by cases h) rfl
  | relation r =>
    simp only [resolveField, Dataset.fieldOutcome, hr]
    exact prepared_follow hu hb t f r o

end FirstPhase

/-! ### A level's two phases -/

section Level

variable {d : Dataset}

/-- The outcome of a level task on the dataset. -/
def Dataset.taskOutcome (d : Dataset) : ObjectType × FieldDef × Field × Option Record → Outcome
  | (t, fd, f, o) => d.fieldOutcome t fd f o

/-- The first phase of a whole level: each task prepared in turn, from a faithful batch. The
keys of every result still wait at the end, since later tasks only extend the batch. -/
theorem prepared_mapM (hu : d.KeysUnique)
    (tasks : List (ObjectType × FieldDef × Field × Option Record))
    {b : Batch} (hb : Faithful d b) :
    let run := (tasks.mapM resolveTask).run b
    Faithful d run.2 ∧ Batch.Extends b run.2 ∧
      run.1.map (·.map (·.settleOn d)) = tasks.map d.taskOutcome ∧
      ∀ res ∈ run.1, ∀ r, res = .ok r → ∀ key ∈ r.keys,
        key ∈ run.2.cache.pending ∨ (run.2.cache.slots.lookup key).isSome := by
  induction tasks generalizing b with
  | nil => exact ⟨hb, .refl b, rfl, by simp⟩
  | cons task tasks ih =>
    obtain ⟨t, fd, f, o⟩ := task
    have hfirst := prepared_resolveField hu hb t fd f o
    change Prepared d b ((resolveTask (t, fd, f, o)).run b).1 ((resolveTask (t, fd, f, o)).run b).2
      _ at hfirst
    obtain ⟨hb', hext, hsettle, hwaits⟩ := ih hfirst.faithful
    simp only [List.mapM_cons, StateT.run_bind, id_bind_eq, StateT.run_pure, id_pure_eq]
    refine ⟨hb', hfirst.extends_.trans hext, ?_, ?_⟩
    · rw [List.map_cons, List.map_cons, hsettle, hfirst.settles]
      rfl
    · intro res hres r hr key hkey
      rcases List.mem_cons.mp hres with rfl | hres
      · exact hext.waiting key (hfirst.waits r hr key hkey)
      · exact hwaits res hres r hr key hkey

/-- Settling keys that all have slots reads them and changes nothing. -/
theorem run_settleKeys {b : Batch} (hb : Faithful d b) (kind : RecordKind) (ids : List RecordId)
    (hids : ∀ id ∈ ids, (b.cache.slots.lookup (kind, id)).isSome) (acc : List Record) :
    (settleKeys kind ids acc).run b = (.ok (acc.reverse ++ ids.filterMap (d.lookup kind)), b) := by
  induction ids generalizing acc with
  | nil => simp [settleKeys]
  | cons id ids ih =>
    have hrest : ∀ id' ∈ ids, (b.cache.slots.lookup (kind, id')).isSome :=
      fun id' h ↦ hids id' (List.mem_cons_of_mem _ h)
    simp only [settleKeys, StateT.run_bind, hb.run_resolve (hids id List.mem_cons_self),
      id_bind_eq]
    cases hl : d.lookup kind id with
    | some r => simp [Slot.ofLookup, ih hrest, hl]
    | none => simp [Slot.ofLookup, ih hrest, hl]

/-- Settling a resolution whose keys all have slots gives what the dataset gives, and changes
nothing. -/
theorem run_settle {b : Batch} (hb : Faithful d b) (r : Resolution)
    (hkeys : ∀ key ∈ r.keys, (b.cache.slots.lookup key).isSome) :
    r.settle.run b = (.ok (r.settleOn d), b) := by
  cases r with
  | value v => rfl
  | record r => rfl
  | records rs => rfl
  | deferred kind id =>
    simp only [Resolution.settle, StateT.run_bind, hb.run_resolve (hkeys _ List.mem_cons_self),
      id_bind_eq]
    cases hl : d.lookup kind id <;> simp [Resolution.settleOn, Slot.ofLookup, hl]
  | deferredList kind ids =>
    have hids : ∀ id ∈ ids, (b.cache.slots.lookup (kind, id)).isSome :=
      fun id h ↦ hkeys _ (List.mem_map_of_mem h)
    simp only [Resolution.settle, StateT.run_bind, run_settleKeys hb kind ids hids [], id_bind_eq]
    rfl

theorem run_mapM_settleOutcome {b : Batch} (hb : Faithful d b)
    (results : List (Except ResolveError Resolution))
    (hkeys : ∀ res ∈ results, ∀ r, res = .ok r → ∀ key ∈ r.keys,
      (b.cache.slots.lookup key).isSome) :
    (results.mapM settleOutcome).run b = (results.map (·.map (·.settleOn d)), b) := by
  induction results with
  | nil => rfl
  | cons res results ih =>
    have hrest := ih fun res' h ↦ hkeys res' (List.mem_cons_of_mem _ h)
    have hhead : (settleOutcome res).run b = (res.map (·.settleOn d), b) := by
      cases res with
      | ok r => exact run_settle hb r (hkeys _ List.mem_cons_self r rfl)
      | error e => rfl
    simp only [List.mapM_cons, StateT.run_bind, hhead, id_bind_eq, hrest, StateT.run_pure,
      id_pure_eq, List.map_cons]

/-- A level's two phases: the first phase of every task, then the flush, then settling give
each task's outcome on the dataset, and leave the batch faithful. -/
theorem level_outcomes (hu : d.KeysUnique) {b : Batch} (hb : Faithful d b)
    (tasks : List (ObjectType × FieldDef × Field × Option Record)) :
    let phase := (tasks.mapM resolveTask).run b
    let flushed := (Batch.flush.run phase.2).2
    (phase.1.mapM settleOutcome).run flushed = (tasks.map d.taskOutcome, flushed) ∧
      Faithful d flushed := by
  intro phase flushed
  obtain ⟨hb', -, hsettle, hwaits⟩ := prepared_mapM hu tasks hb
  -- the flush gives a slot to every key that waited
  have hfilled : ∀ res ∈ phase.1, ∀ r, res = .ok r → ∀ key ∈ r.keys,
      (flushed.cache.slots.lookup key).isSome := by
    intro res hres r hr key hkey
    show ((Batch.flush.run phase.2).2.cache.slots.lookup key).isSome
    rw [Batch.run_flush]
    exact flush_fills phase.2 (hwaits res hres r hr key hkey)
  refine ⟨?_, hb'.flush⟩
  rw [run_mapM_settleOutcome hb'.flush phase.1 hfilled, hsettle]

end Level

end SocialGraph
