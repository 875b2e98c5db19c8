import SocialGraph.Proofs.Cache

/-!
# The memo contract of the batch cache

A batch cache promises that the store is asked as little as its operations allow. Over any
sequence of operations on one cache, whatever the store answers and whichever calls fail:

* no key is sent in two keyed calls (`KeysSentOnce`);
* no scan reaches the store twice, a failed one included, and every later scan with the same
  call gives back the first outcome;
* a slot, once there, stays as it is: nothing overwrites it, priming included;
* no keyed call sends a key that an earlier successful scan brought back;
* once a flush returns, every key enqueued before it has a slot, and every key a call sent has
  the slot the call's answer gives it: found with the record the answer gives for it,
  missing when the answer leaves it out, failed when the call failed.

The operations are the cache's own (`CacheOp`), and a run of them is recorded as a log of
events (`CacheEvent`): each event has the operation, what it gave back, the store calls it
made in order, and the slots the cache holds after it. The contract is the theorem
`batch_cache_memo_contract` about that log.

All of it follows from what one operation does (`Stepped`), proved once per operation, and
from one relation that every operation keeps (`Batch.Extends`): slots and remembered scans
stay, and a key that waits in the pending window or has a slot keeps waiting or having one.
-/

namespace SocialGraph

/-! ### Calls and keys -/

namespace StoreCall

/-- The keys a keyed call sends; a scan sends none. -/
def keys : StoreCall → List (RecordKind × RecordId)
  | getById kind id => [(kind, id)]
  | getManyByIds kind ids => ids.map (kind, ·)
  | _ => []

/-- Whether a call is a scan. -/
def isScan : StoreCall → Bool
  | scanAll _ | scanByForeignKey .. | scanAssociation .. => true
  | _ => false

@[simp]
theorem keys_keyedCall (kind : RecordKind) (ids : List RecordId) :
    (keyedCall kind ids).keys = ids.map (kind, ·) := by
  match ids with
  | [_] => rfl
  | [] => rfl
  | _ :: _ :: _ => rfl

@[simp]
theorem isScan_keyedCall (kind : RecordKind) (ids : List RecordId) :
    (keyedCall kind ids).isScan = false := by
  match ids with
  | [_] => rfl
  | [] => rfl
  | _ :: _ :: _ => rfl

end StoreCall

/-- No key is sent in two keyed calls. -/
def KeysSentOnce (calls : List StoreCall) : Prop :=
  calls.Pairwise fun c c' => ∀ key ∈ c.keys, key ∉ c'.keys

/-! ### Operations, outcomes and the log of a run -/

/-- An operation on a batch cache. -/
inductive CacheOp where
  | enqueue (kind : RecordKind) (id : RecordId)
  | flush
  | resolve (kind : RecordKind) (id : RecordId)
  | prime (records : List Record)
  | scanAll (kind : RecordKind)
  | scanByForeignKey (fk : ForeignKey) (value : RecordId)
  | scanAssociation (e : SubscriptionEnd) (user : Uuid)

/-- What an operation gives back. -/
inductive CacheOutcome where
  | done
  | slot (s : Slot)
  | records (r : Except StoreError (List Record))
  | rows (r : Except StoreError (List Subscription))

namespace CacheOp

/-- Runs an operation on the cache. -/
def run : CacheOp → StateM Batch CacheOutcome
  | enqueue kind id => do Batch.enqueue kind id; return .done
  | flush => do Batch.flush; return .done
  | resolve kind id => .slot <$> Batch.resolve kind id
  | prime records => do Batch.prime records; return .done
  | scanAll kind => .records <$> Batch.scanAll kind
  | scanByForeignKey fk value => .records <$> Batch.scanByForeignKey fk value
  | scanAssociation e user => .rows <$> Batch.scanAssociation e user

/-- The call a scan operation would make; it is also what the scan is remembered by. -/
def scanCall : CacheOp → Option StoreCall
  | scanAll kind => some (.scanAll kind)
  | scanByForeignKey fk value => some (.scanByForeignKey fk value)
  | scanAssociation e user => some (.scanAssociation e user)
  | _ => none

/-- The keys an operation puts in the pending window, unless they have a slot. -/
def enqueued : CacheOp → List (RecordKind × RecordId)
  | enqueue kind id | resolve kind id => [(kind, id)]
  | _ => []

end CacheOp

/-- What the memos remember for a scan call. -/
def Cache.memo (c : Cache) : StoreCall → Option CacheOutcome
  | .scanAll kind => (c.fullScans.lookup kind).map .records
  | .scanByForeignKey fk value => (c.keyScans.lookup (fk, value)).map .records
  | .scanAssociation e user => (c.linkScans.lookup (e, user)).map .rows
  | _ => none

/-- One operation of a run: what it gave back, the calls it made in order, and the slots held
after it. -/
structure CacheEvent where
  op : CacheOp
  outcome : CacheOutcome
  calls : List StoreCall
  cached : RecordKind × RecordId → Option Slot

/-- Runs an operation and records it. -/
def CacheOp.step (op : CacheOp) : StateM Batch CacheEvent := do
  let before ← get
  let outcome ← op.run
  let after ← get
  return ⟨op, outcome, after.session.calls.drop before.session.calls.length,
    fun key => after.cache.slots.lookup key⟩

/-- Runs operations one after another and records each. -/
def runLog (ops : List CacheOp) : StateM Batch (List CacheEvent) :=
  ops.mapM CacheOp.step

/-! ### What every operation keeps -/

namespace Batch

/-- From `b` to `b'` nothing is lost: the store and rules are the same, slots and remembered
scans stay, and a key that waits or has a slot still does. -/
structure Extends (b b' : Batch) : Prop where
  store : b'.session.store = b.session.store
  rules : b'.session.rules = b.session.rules
  slots : ∀ key s, b.cache.slots.lookup key = some s → b'.cache.slots.lookup key = some s
  memo : ∀ c v, b.cache.memo c = some v → b'.cache.memo c = some v
  waiting : ∀ key, key ∈ b.cache.pending ∨ (b.cache.slots.lookup key).isSome →
    key ∈ b'.cache.pending ∨ (b'.cache.slots.lookup key).isSome

theorem Extends.refl (b : Batch) : Extends b b :=
  ⟨rfl, rfl, fun _ _ h ↦ h, fun _ _ h ↦ h, fun _ h ↦ h⟩

theorem Extends.trans {b₁ b₂ b₃ : Batch} (h₁ : Extends b₁ b₂) (h₂ : Extends b₂ b₃) :
    Extends b₁ b₃ :=
  ⟨h₂.store.trans h₁.store, h₂.rules.trans h₁.rules,
    fun key s h ↦ h₂.slots key s (h₁.slots key s h), fun c v h ↦ h₂.memo c v (h₁.memo c v h),
    fun key h ↦ h₂.waiting key (h₁.waiting key h)⟩

/-- A key without a slot after an extension had none before. -/
theorem Extends.lookup_eq_none {b b' : Batch} (h : Extends b b') {key : RecordKind × RecordId}
    (hk : b'.cache.slots.lookup key = none) : b.cache.slots.lookup key = none := by
  cases hb : b.cache.slots.lookup key with
  | none => rfl
  | some s => rw [h.slots key s hb] at hk; cases hk

theorem Extends.keyedAnswer {b b' : Batch} (h : Extends b b') (c : StoreCall) :
    b'.session.keyedAnswer c = b.session.keyedAnswer c := by
  simp only [Session.keyedAnswer, Session.answer, Session.failure, h.store, h.rules]

end Batch

/-- A step from `b` to `b'` that made the calls `new`, in order: it extends the state, puts the
calls on the trace, sends only keys without a slot and fills each of them from its call's
answer, and scans only what is not remembered and then remembers it. -/
structure StepOk (b b' : Batch) (new : List StoreCall) : Prop where
  extends_ : Batch.Extends b b'
  trace : b'.session.trace = new.reverse ++ b.session.trace
  fresh_keys : ∀ c ∈ new, ∀ key ∈ c.keys, b.cache.slots.lookup key = none
  filled : ∀ c ∈ new, ∀ key ∈ c.keys,
    b'.cache.slots.lookup key = some (Slot.ofAnswer (b.session.keyedAnswer c) key.2)
  fresh_scans : ∀ c ∈ new, c.isScan → b.cache.memo c = none
  remembered : ∀ c ∈ new, c.isScan → (b'.cache.memo c).isSome
  once : KeysSentOnce new
  scans_once : (new.filter (·.isScan)).Nodup

namespace StepOk

theorem nil {b b' : Batch} (h : Batch.Extends b b') (ht : b'.session.trace = b.session.trace) :
    StepOk b b' [] :=
  ⟨h, by simpa using ht, by simp, by simp, by simp, by simp, List.Pairwise.nil, List.nodup_nil⟩

/-- Two steps in a row are a step that made the calls of both. -/
theorem append {b₁ b₂ b₃ : Batch} {new₁ new₂ : List StoreCall} (h₁ : StepOk b₁ b₂ new₁)
    (h₂ : StepOk b₂ b₃ new₂) : StepOk b₁ b₃ (new₁ ++ new₂) := by
  refine ⟨h₁.extends_.trans h₂.extends_, ?_, ?_, ?_, ?_, ?_, ?_, ?_⟩
  · rw [h₂.trace, h₁.trace, List.reverse_append, List.append_assoc]
  · intro c hc key hkey
    rcases List.mem_append.mp hc with hc | hc
    · exact h₁.fresh_keys c hc key hkey
    · exact h₁.extends_.lookup_eq_none (h₂.fresh_keys c hc key hkey)
  · intro c hc key hkey
    rcases List.mem_append.mp hc with hc | hc
    · exact h₂.extends_.slots _ _ (h₁.filled c hc key hkey)
    · rw [h₂.filled c hc key hkey, h₁.extends_.keyedAnswer]
  · intro c hc hscan
    rcases List.mem_append.mp hc with hc | hc
    · exact h₁.fresh_scans c hc hscan
    · cases hm : b₁.cache.memo c with
      | none => rfl
      | some v =>
        have := h₂.fresh_scans c hc hscan
        rw [h₁.extends_.memo c v hm] at this
        cases this
  · intro c hc hscan
    rcases List.mem_append.mp hc with hc | hc
    · obtain ⟨v, hv⟩ := Option.isSome_iff_exists.mp (h₁.remembered c hc hscan)
      simp [h₂.extends_.memo c v hv]
    · exact h₂.remembered c hc hscan
  · -- a key sent in the first step has a slot afterwards, so the second step cannot send it
    refine List.pairwise_append.mpr ⟨h₁.once, h₂.once, ?_⟩
    intro c hc c' hc' key hkey hkey'
    have hfilled := h₁.filled c hc key hkey
    rw [h₂.fresh_keys c' hc' key hkey'] at hfilled
    cases hfilled
  · rw [List.filter_append]
    refine List.nodup_append.mpr ⟨h₁.scans_once, h₂.scans_once, ?_⟩
    intro c hc c' hc' heq
    subst heq
    have hc := List.mem_filter.mp hc
    have hc' := List.mem_filter.mp hc'
    obtain ⟨v, hv⟩ := Option.isSome_iff_exists.mp (h₁.remembered c hc.1 hc.2)
    have := h₂.fresh_scans c hc'.1 hc'.2
    rw [hv] at this
    cases this

end StepOk

/-! ### Each operation -/

section Operations

variable (b : Batch)

/-- Slots that had a value keep it when a scan's records prime the table. -/
theorem lookup_primedSlots_of_some (r : Except StoreError (List Record))
    (slots : List ((RecordKind × RecordId) × Slot)) {key : RecordKind × RecordId} {s : Slot}
    (h : slots.lookup key = some s) : (Batch.primedSlots r slots).lookup key = some s := by
  cases r with
  | ok records => simp [Batch.primedSlots, Batch.lookup_primeSlots, h]
  | error e => exact h

/-- After priming with records, each of them has a slot. -/
theorem isSome_lookup_primeSlots {records : List Record} {r : Record} (hr : r ∈ records)
    (slots : List ((RecordKind × RecordId) × Slot)) :
    ((Batch.primeSlots records slots).lookup (r.kind, r.id)).isSome := by
  rw [Batch.lookup_primeSlots]
  have hfind : (records.find? fun r' ↦ (r'.kind, r'.id) == (r.kind, r.id)).isSome :=
    List.find?_isSome.mpr ⟨r, hr, by simp⟩
  cases hl : slots.lookup (r.kind, r.id) <;> simp_all [Option.isSome_map]

theorem stepOk_enqueue (kind : RecordKind) (id : RecordId) :
    StepOk b ((Batch.enqueue kind id).run b).2 [] := by
  rw [Batch.run_enqueue]
  split
  · refine StepOk.nil ⟨rfl, rfl, fun _ _ h ↦ h, fun _ _ h ↦ h, ?_⟩ rfl
    intro key hkey
    rcases hkey with hkey | hkey
    · exact Or.inl (List.mem_append_left _ hkey)
    · exact Or.inr hkey
  · exact StepOk.nil (Batch.Extends.refl b) rfl

theorem enqueue_waiting (kind : RecordKind) (id : RecordId) :
    (kind, id) ∈ ((Batch.enqueue kind id).run b).2.cache.pending ∨
      ((((Batch.enqueue kind id).run b).2.cache.slots.lookup (kind, id)).isSome) := by
  rw [Batch.run_enqueue]
  split
  · exact Or.inl (List.mem_append_right _ (List.mem_singleton_self _))
  · next h =>
    simp only [Bool.and_eq_true, Bool.not_eq_true', List.contains_eq_mem,
      decide_eq_false_iff_not, not_and, Decidable.not_not] at h
    cases hl : b.cache.slots.lookup (kind, id) with
    | none => exact Or.inl (h (by simp [hl]))
    | some s => exact Or.inr (by simp)

/-- A flush fills every key that waited: a pending key either had a slot or was in its kind's
window. -/
theorem flush_fills {key : RecordKind × RecordId}
    (h : key ∈ b.cache.pending ∨ (b.cache.slots.lookup key).isSome) :
    ((Batch.flushSlots b.session b.cache).lookup key).isSome := by
  obtain ⟨k, i⟩ := key
  rw [Batch.lookup_flushSlots]
  split
  · rfl
  · next hw =>
    rcases h with hp | hs
    · cases hl : b.cache.slots.lookup (k, i) with
      | none => exact absurd (Cache.mem_window.mpr ⟨hp, hl⟩) hw
      | some s => rfl
    · exact hs

/-- The windows of a flush are of different kinds. -/
theorem windows_pairwise (c : Cache) : (Batch.windows c).Pairwise fun w w' ↦ w.1 ≠ w'.1 := by
  rw [Batch.windows, List.pairwise_filterMap]
  refine (show RecordKind.all.Pairwise (· ≠ ·) by decide).imp ?_
  intro k k' hne w hw w' hw'
  split at hw <;> split at hw' <;> simp only [Option.some.injEq, reduceCtorEq] at hw hw'
  subst hw hw'
  exact hne

theorem mem_windows {c : Cache} {w : RecordKind × List RecordId} (hw : w ∈ Batch.windows c) :
    w.2 = c.window w.1 := by
  obtain ⟨k, -, hk⟩ := List.mem_filterMap.mp hw
  split at hk
  · cases hk
  · cases hk
    rfl

theorem stepOk_flush : StepOk b (Batch.flush.run b).2 (Batch.flushCalls b.cache) := by
  -- every call of a flush is the call of a window, and sends the window's keys
  have hcall : ∀ c ∈ Batch.flushCalls b.cache, ∃ k, c = keyedCall k (b.cache.window k) := by
    intro c hc
    obtain ⟨w, hw, rfl⟩ := List.mem_map.mp hc
    exact ⟨w.1, by rw [← mem_windows hw]⟩
  rw [Batch.run_flush]
  refine ⟨⟨rfl, rfl, ?_, fun _ _ h ↦ h, fun key h ↦ Or.inr (flush_fills b h)⟩, rfl, ?_, ?_, ?_,
    ?_, ?_, ?_⟩
  · intro key s hs
    obtain ⟨k, i⟩ := key
    show (Batch.flushSlots b.session b.cache).lookup (k, i) = _
    rw [Batch.lookup_flushSlots, if_neg]
    · exact hs
    · intro hi
      rw [(Cache.mem_window.mp hi).2] at hs
      cases hs
  · intro c hc key hkey
    obtain ⟨k, rfl⟩ := hcall c hc
    obtain ⟨i, hi, rfl⟩ := List.mem_map.mp (by simpa using hkey)
    exact (Cache.mem_window.mp hi).2
  · intro c hc key hkey
    obtain ⟨k, rfl⟩ := hcall c hc
    obtain ⟨i, hi, rfl⟩ := List.mem_map.mp (by simpa using hkey)
    show (Batch.flushSlots b.session b.cache).lookup (k, i) = _
    rw [Batch.lookup_flushSlots, if_pos hi]
  · intro c hc hscan
    obtain ⟨k, rfl⟩ := hcall c hc
    simp at hscan
  · intro c hc hscan
    obtain ⟨k, rfl⟩ := hcall c hc
    simp at hscan
  · -- the calls of different windows send keys of different kinds
    unfold KeysSentOnce Batch.flushCalls
    rw [List.pairwise_map]
    refine (windows_pairwise b.cache).imp ?_
    intro w w' hne key hkey hkey'
    rw [StoreCall.keys_keyedCall] at hkey hkey'
    obtain ⟨i, -, rfl⟩ := List.mem_map.mp hkey
    obtain ⟨i', -, heq⟩ := List.mem_map.mp hkey'
    exact hne (Prod.mk.inj heq).1.symm
  · have hnil : (Batch.flushCalls b.cache).filter (·.isScan) = [] := by
      rw [List.filter_eq_nil_iff]
      intro c hc
      obtain ⟨k, rfl⟩ := hcall c hc
      simp
    rw [hnil]
    exact List.nodup_nil

theorem stepOk_prime (records : List Record) :
    StepOk b ((Batch.prime records).run b).2 [] := by
  rw [Batch.run_prime]
  refine StepOk.nil ⟨rfl, rfl, ?_, fun _ _ h ↦ h, ?_⟩ rfl
  · intro key s hs
    simp [Batch.lookup_primeSlots, hs]
  · intro key hkey
    rcases hkey with hkey | hkey
    · exact Or.inl hkey
    · obtain ⟨s, hs⟩ := Option.isSome_iff_exists.mp hkey
      exact Or.inr (by simp [Batch.lookup_primeSlots, hs])

/-- Priming from a scan's result, with every other part of the state kept, extends it. -/
theorem extends_of_primed {b' : Batch} (r : Except StoreError (List Record))
    (hstore : b'.session.store = b.session.store) (hrules : b'.session.rules = b.session.rules)
    (hpending : b'.cache.pending = b.cache.pending)
    (hslots : b'.cache.slots = Batch.primedSlots r b.cache.slots)
    (hmemo : ∀ c v, b.cache.memo c = some v → b'.cache.memo c = some v) : Batch.Extends b b' := by
  refine ⟨hstore, hrules, ?_, hmemo, ?_⟩
  · intro key s hs
    rw [hslots]
    exact lookup_primedSlots_of_some r _ hs
  · intro key hkey
    rw [hpending, hslots]
    rcases hkey with hkey | hkey
    · exact Or.inl hkey
    · obtain ⟨s, hs⟩ := Option.isSome_iff_exists.mp hkey
      exact Or.inr (by rw [lookup_primedSlots_of_some r _ hs]; rfl)

/-- After a successful scan primes the table, every record it brought back has a slot. -/
theorem isSome_lookup_primedSlots {rs : List Record} {r : Record} (hr : r ∈ rs)
    (slots : List ((RecordKind × RecordId) × Slot)) :
    ((Batch.primedSlots (.ok rs) slots).lookup (r.kind, r.id)).isSome :=
  isSome_lookup_primeSlots hr slots

/-- A scan that made its call: one call, of a scan, and nothing sent by key. -/
theorem stepOk_scan_call {b' : Batch} {sc : StoreCall} (hsc : sc.isScan) (hkeys : sc.keys = [])
    (hext : Batch.Extends b b') (htrace : b'.session.trace = sc :: b.session.trace)
    (hfresh : b.cache.memo sc = none) (hrem : (b'.cache.memo sc).isSome) : StepOk b b' [sc] := by
  refine ⟨hext, by simpa using htrace, ?_, ?_, ?_, ?_, ?_, ?_⟩
  · intro c hc key hkey
    rw [List.mem_singleton.mp hc, hkeys] at hkey
    cases hkey
  · intro c hc key hkey
    rw [List.mem_singleton.mp hc, hkeys] at hkey
    cases hkey
  · intro c hc _
    rw [List.mem_singleton.mp hc]
    exact hfresh
  · intro c hc _
    rw [List.mem_singleton.mp hc]
    exact hrem
  · exact List.pairwise_singleton _ _
  · simp [hsc]

end Operations

/-! ### One recorded operation -/

/-- What one recorded operation did, from `b` to `b'`: a step that made the event's calls, whose
recorded slots are those of `b'`; a scan gives back what is remembered for it, remembered
before or now; a successful scan leaves a slot for each record it brought back; an enqueued
key waits or has a slot; and a flush fills every key that waited. -/
structure Stepped (b : Batch) (e : CacheEvent) (b' : Batch) : Prop where
  ok : StepOk b b' e.calls
  cached : ∀ key, e.cached key = b'.cache.slots.lookup key
  scan : ∀ sc, e.op.scanCall = some sc →
    b'.cache.memo sc = some e.outcome ∧ ∀ v, b.cache.memo sc = some v → e.outcome = v
  scanned : ∀ rs, e.outcome = .records (.ok rs) → ∀ r ∈ rs,
    (b'.cache.slots.lookup (r.kind, r.id)).isSome
  waiting : ∀ key ∈ e.op.enqueued, key ∈ b'.cache.pending ∨ (b'.cache.slots.lookup key).isSome
  flushed : e.op = .flush → ∀ key, key ∈ b.cache.pending ∨ (b.cache.slots.lookup key).isSome →
    (b'.cache.slots.lookup key).isSome

theorem CacheOp.run_step (op : CacheOp) (b : Batch) :
    (op.step).run b =
      (⟨op, (op.run.run b).1, (op.run.run b).2.session.calls.drop b.session.calls.length,
        fun key ↦ (op.run.run b).2.cache.slots.lookup key⟩, (op.run.run b).2) := by
  simp [CacheOp.step]

theorem Session.calls_drop {s s' : Session} {new : List StoreCall}
    (h : s'.trace = new.reverse ++ s.trace) : s'.calls.drop s.calls.length = new := by
  simp [Session.calls, h]

/-- The facts of one operation, from its run. -/
theorem Stepped.of_run {op : CacheOp} {b b' : Batch} {out : CacheOutcome}
    {new : List StoreCall} (hrun : op.run.run b = (out, b')) (hok : StepOk b b' new)
    (hscan : ∀ sc, op.scanCall = some sc →
      b'.cache.memo sc = some out ∧ ∀ v, b.cache.memo sc = some v → out = v)
    (hscanned : ∀ rs, out = .records (.ok rs) → ∀ r ∈ rs,
      (b'.cache.slots.lookup (r.kind, r.id)).isSome)
    (hwaiting : ∀ key ∈ op.enqueued, key ∈ b'.cache.pending ∨ (b'.cache.slots.lookup key).isSome)
    (hflushed : op = .flush → ∀ key, key ∈ b.cache.pending ∨ (b.cache.slots.lookup key).isSome →
      (b'.cache.slots.lookup key).isSome) :
    Stepped b ((op.step).run b).1 ((op.step).run b).2 := by
  rw [CacheOp.run_step, hrun]
  exact ⟨by rw [Session.calls_drop hok.trace]; exact hok, fun _ ↦ rfl, hscan, hscanned,
    hwaiting, hflushed⟩

/-! ### Remembering a scan -/

namespace Cache

variable (c : Cache) (slots : List ((RecordKind × RecordId) × Slot))

theorem memo_fullScans_cons {kind : RecordKind} (hk : c.fullScans.lookup kind = none)
    (r : Except StoreError (List Record)) {sc : StoreCall} {v : CacheOutcome}
    (h : c.memo sc = some v) :
    ({ c with fullScans := (kind, r) :: c.fullScans, slots := slots } : Cache).memo sc =
      some v := by
  cases sc with
  | scanAll k =>
    by_cases hne : k = kind
    · subst hne
      simp [memo, hk] at h
    · simpa [memo, List.lookup_cons, beq_false_of_ne hne] using h
  | _ => exact h

theorem memo_keyScans_cons {key : ForeignKey × RecordId} (hk : c.keyScans.lookup key = none)
    (r : Except StoreError (List Record)) {sc : StoreCall} {v : CacheOutcome}
    (h : c.memo sc = some v) :
    ({ c with keyScans := (key, r) :: c.keyScans, slots := slots } : Cache).memo sc = some v := by
  cases sc with
  | scanByForeignKey fk value =>
    by_cases hne : (fk, value) = key
    · subst hne
      simp [memo, hk] at h
    · simpa [memo, List.lookup_cons, beq_false_of_ne hne] using h
  | _ => exact h

theorem memo_linkScans_cons {key : SubscriptionEnd × Uuid} (hk : c.linkScans.lookup key = none)
    (r : Except StoreError (List Subscription)) {sc : StoreCall} {v : CacheOutcome}
    (h : c.memo sc = some v) :
    ({ c with linkScans := (key, r) :: c.linkScans } : Cache).memo sc = some v := by
  cases sc with
  | scanAssociation e user =>
    by_cases hne : (e, user) = key
    · subst hne
      simp [memo, hk] at h
    · simpa [memo, List.lookup_cons, beq_false_of_ne hne] using h
  | _ => exact h

end Cache

/-! ### Every operation -/

/-- What every operation does, one case per operation. -/
theorem stepped (op : CacheOp) (b : Batch) : Stepped b ((op.step).run b).1 ((op.step).run b).2 := by
  cases op with
  | enqueue kind id =>
    have hrun : (CacheOp.enqueue kind id).run.run b =
        (.done, ((Batch.enqueue kind id).run b).2) := by
      simp [CacheOp.run]
    refine Stepped.of_run hrun (stepOk_enqueue b kind id) ?_ ?_ ?_ ?_
    · intro sc h
      simp [CacheOp.scanCall] at h
    · intro rs h
      cases h
    · intro key hkey
      rw [List.mem_singleton.mp hkey]
      exact enqueue_waiting b kind id
    · intro h
      cases h
  | flush =>
    have hrun : CacheOp.flush.run.run b = (.done, (Batch.flush.run b).2) := by
      simp [CacheOp.run]
    refine Stepped.of_run hrun (stepOk_flush b) ?_ ?_ ?_ ?_
    · intro sc h
      simp [CacheOp.scanCall] at h
    · intro rs h
      cases h
    · intro key hkey
      simp [CacheOp.enqueued] at hkey
    · intro _ key hkey
      rw [Batch.run_flush]
      exact flush_fills b hkey
  | resolve kind id =>
    cases hl : b.cache.slots.lookup (kind, id) with
    | some s =>
      have hrun : (CacheOp.resolve kind id).run.run b = (.slot s, b) := by
        simp [CacheOp.run, Batch.run_resolve_of_lookup_eq_some b hl]
      refine Stepped.of_run hrun (StepOk.nil (Batch.Extends.refl b) rfl) ?_ ?_ ?_ ?_
      · intro sc h
        simp [CacheOp.scanCall] at h
      · intro rs h
        cases h
      · intro key hkey
        rw [List.mem_singleton.mp hkey]
        exact Or.inr (by simp [hl])
      · intro h
        cases h
    | none =>
      -- a key without a slot is enqueued and the window flushed at once
      let b₁ := ((Batch.enqueue kind id).run b).2
      have hrun : (CacheOp.resolve kind id).run.run b =
          (.slot (((Batch.flush.run b₁).2.cache.slots.lookup (kind, id)).getD .missing),
            (Batch.flush.run b₁).2) := by
        simp [CacheOp.run, Batch.run_resolve_of_lookup_eq_none b hl, b₁]
      have hok := (stepOk_enqueue b kind id).append (stepOk_flush b₁)
      rw [List.nil_append] at hok
      refine Stepped.of_run hrun hok ?_ ?_ ?_ ?_
      · intro sc h
        simp [CacheOp.scanCall] at h
      · intro rs h
        cases h
      · intro key hkey
        rw [List.mem_singleton.mp hkey, Batch.run_flush]
        exact Or.inr (flush_fills b₁ (enqueue_waiting b kind id))
      · intro h
        cases h
  | prime records =>
    have hrun : (CacheOp.prime records).run.run b = (.done, ((Batch.prime records).run b).2) := by
      simp [CacheOp.run]
    refine Stepped.of_run hrun (stepOk_prime b records) ?_ ?_ ?_ ?_
    · intro sc h
      simp [CacheOp.scanCall] at h
    · intro rs h
      cases h
    · intro key hkey
      simp [CacheOp.enqueued] at hkey
    · intro h
      cases h
  | scanAll kind =>
    cases hl : b.cache.fullScans.lookup kind with
    | some r =>
      have hrun : (CacheOp.scanAll kind).run.run b =
          (.records r, { b with cache := { b.cache with
            slots := Batch.primedSlots r b.cache.slots } }) := by
        simp [CacheOp.run, Batch.run_scanAll_of_lookup_eq_some b hl]
      refine Stepped.of_run hrun (StepOk.nil (extends_of_primed b r rfl rfl rfl rfl
        (fun _ _ h ↦ h)) rfl) ?_ ?_ ?_ ?_
      · intro sc h
        simp only [CacheOp.scanCall, Option.some.injEq] at h
        subst h
        exact ⟨by simp [Cache.memo, hl], fun v hv ↦ by simpa [Cache.memo, hl] using hv⟩
      · intro rs h r' hr'
        cases h
        exact isSome_lookup_primedSlots hr' _
      · intro key hkey
        simp [CacheOp.enqueued] at hkey
      · intro h
        cases h
    | none =>
      let r := b.session.answer (.scanAll kind) (·.rows kind)
      let b' : Batch := ⟨b.session.push (.scanAll kind), { b.cache with
        fullScans := (kind, r) :: b.cache.fullScans, slots := Batch.primedSlots r b.cache.slots }⟩
      have hrun : (CacheOp.scanAll kind).run.run b = (.records r, b') := by
        simp [CacheOp.run, Batch.run_scanAll_of_lookup_eq_none b hl, r, b']
      have hext : Batch.Extends b b' := extends_of_primed b r rfl rfl rfl rfl
        (fun _ _ h ↦ Cache.memo_fullScans_cons b.cache _ hl r h)
      refine Stepped.of_run hrun (stepOk_scan_call b rfl rfl hext rfl (by simp [Cache.memo, hl])
        (by simp [Cache.memo, b'])) ?_ ?_ ?_ ?_
      · intro sc h
        simp only [CacheOp.scanCall, Option.some.injEq] at h
        subst h
        exact ⟨by simp [Cache.memo, b'], fun v hv ↦ by simp [Cache.memo, hl] at hv⟩
      · intro rs h r' hr'
        injection h with h
        show ((Batch.primedSlots r b.cache.slots).lookup _).isSome
        rw [h]
        exact isSome_lookup_primedSlots hr' _
      · intro key hkey
        simp [CacheOp.enqueued] at hkey
      · intro h
        cases h
  | scanByForeignKey fk value =>
    cases hl : b.cache.keyScans.lookup (fk, value) with
    | some r =>
      have hrun : (CacheOp.scanByForeignKey fk value).run.run b =
          (.records r, { b with cache := { b.cache with
            slots := Batch.primedSlots r b.cache.slots } }) := by
        simp [CacheOp.run, Batch.run_scanByForeignKey_of_lookup_eq_some b hl]
      refine Stepped.of_run hrun (StepOk.nil (extends_of_primed b r rfl rfl rfl rfl
        (fun _ _ h ↦ h)) rfl) ?_ ?_ ?_ ?_
      · intro sc h
        simp only [CacheOp.scanCall, Option.some.injEq] at h
        subst h
        exact ⟨by simp [Cache.memo, hl], fun v hv ↦ by simpa [Cache.memo, hl] using hv⟩
      · intro rs h r' hr'
        cases h
        exact isSome_lookup_primedSlots hr' _
      · intro key hkey
        simp [CacheOp.enqueued] at hkey
      · intro h
        cases h
    | none =>
      let r := b.session.answer (.scanByForeignKey fk value) (·.scanByForeignKey fk value)
      let b' : Batch := ⟨b.session.push (.scanByForeignKey fk value), { b.cache with
        keyScans := ((fk, value), r) :: b.cache.keyScans,
        slots := Batch.primedSlots r b.cache.slots }⟩
      have hrun : (CacheOp.scanByForeignKey fk value).run.run b = (.records r, b') := by
        simp [CacheOp.run, Batch.run_scanByForeignKey_of_lookup_eq_none b hl, r, b']
      have hext : Batch.Extends b b' := extends_of_primed b r rfl rfl rfl rfl
        (fun _ _ h ↦ Cache.memo_keyScans_cons b.cache _ hl r h)
      refine Stepped.of_run hrun (stepOk_scan_call b rfl rfl hext rfl (by simp [Cache.memo, hl])
        (by simp [Cache.memo, b'])) ?_ ?_ ?_ ?_
      · intro sc h
        simp only [CacheOp.scanCall, Option.some.injEq] at h
        subst h
        exact ⟨by simp [Cache.memo, b'], fun v hv ↦ by simp [Cache.memo, hl] at hv⟩
      · intro rs h r' hr'
        injection h with h
        show ((Batch.primedSlots r b.cache.slots).lookup _).isSome
        rw [h]
        exact isSome_lookup_primedSlots hr' _
      · intro key hkey
        simp [CacheOp.enqueued] at hkey
      · intro h
        cases h
  | scanAssociation e user =>
    cases hl : b.cache.linkScans.lookup (e, user) with
    | some r =>
      have hrun : (CacheOp.scanAssociation e user).run.run b = (.rows r, b) := by
        simp [CacheOp.run, Batch.run_scanAssociation_of_lookup_eq_some b hl]
      refine Stepped.of_run hrun (StepOk.nil (Batch.Extends.refl b) rfl) ?_ ?_ ?_ ?_
      · intro sc h
        simp only [CacheOp.scanCall, Option.some.injEq] at h
        subst h
        exact ⟨by simp [Cache.memo, hl], fun v hv ↦ by simpa [Cache.memo, hl] using hv⟩
      · intro rs h
        cases h
      · intro key hkey
        simp [CacheOp.enqueued] at hkey
      · intro h
        cases h
    | none =>
      let r := b.session.answer (.scanAssociation e user) (·.scanAssociation e user)
      let b' : Batch := ⟨b.session.push (.scanAssociation e user), { b.cache with
        linkScans := ((e, user), r) :: b.cache.linkScans }⟩
      have hrun : (CacheOp.scanAssociation e user).run.run b = (.rows r, b') := by
        simp [CacheOp.run, Batch.run_scanAssociation_of_lookup_eq_none b hl, r, b']
      have hext : Batch.Extends b b' :=
        ⟨rfl, rfl, fun _ _ h ↦ h, fun _ _ h ↦ Cache.memo_linkScans_cons b.cache hl r h,
          fun _ h ↦ h⟩
      refine Stepped.of_run hrun (stepOk_scan_call b rfl rfl hext rfl (by simp [Cache.memo, hl])
        (by simp [Cache.memo, b'])) ?_ ?_ ?_ ?_
      · intro sc h
        simp only [CacheOp.scanCall, Option.some.injEq] at h
        subst h
        exact ⟨by simp [Cache.memo, b'], fun v hv ↦ by simp [Cache.memo, hl] at hv⟩
      · intro rs h
        cases h
      · intro key hkey
        simp [CacheOp.enqueued] at hkey
      · intro h
        cases h

/-! ### A whole run -/

theorem runLog_cons (op : CacheOp) (ops : List CacheOp) (b : Batch) :
    (runLog (op :: ops)).run b =
      (((op.step).run b).1 :: ((runLog ops).run ((op.step).run b).2).1,
        ((runLog ops).run ((op.step).run b).2).2) := by
  simp [runLog, List.mapM_cons]

/-- A run is one step that made the calls of all its events, in order. -/
theorem stepOk_runLog (ops : List CacheOp) (b : Batch) :
    StepOk b ((runLog ops).run b).2 (((runLog ops).run b).1.flatMap (·.calls)) := by
  induction ops generalizing b with
  | nil => simpa [runLog] using StepOk.nil (Batch.Extends.refl b) rfl
  | cons op ops ih =>
    rw [runLog_cons, List.flatMap_cons]
    exact (stepped op b).ok.append (ih _)

/-- Every event of a run is a recorded step from a state that extends the first one. -/
theorem stepped_of_mem_runLog {ops : List CacheOp} {b : Batch} {e : CacheEvent}
    (he : e ∈ ((runLog ops).run b).1) : ∃ b₁ b₂, Batch.Extends b b₁ ∧ Stepped b₁ e b₂ := by
  induction ops generalizing b with
  | nil => simp [runLog] at he
  | cons op ops ih =>
    rw [runLog_cons, List.mem_cons] at he
    rcases he with rfl | he
    · exact ⟨b, _, Batch.Extends.refl b, stepped op b⟩
    · obtain ⟨b₁, b₂, hext, hstep⟩ := ih he
      exact ⟨b₁, b₂, (stepped op b).ok.extends_.trans hext, hstep⟩

/-- A relation holds between every event and each later one if it follows from two recorded
steps with an extension between them. -/
theorem pairwise_runLog {R : CacheEvent → CacheEvent → Prop}
    (h : ∀ {b₁ e b₂ b₃ e' b₄}, Stepped b₁ e b₂ → Batch.Extends b₂ b₃ → Stepped b₃ e' b₄ → R e e')
    (ops : List CacheOp) (b : Batch) : (((runLog ops).run b).1).Pairwise R := by
  induction ops generalizing b with
  | nil => simp [runLog]
  | cons op ops ih =>
    rw [runLog_cons, List.pairwise_cons]
    refine ⟨fun e' he' ↦ ?_, ih _⟩
    obtain ⟨b₃, b₄, hext, hstep⟩ := stepped_of_mem_runLog he'
    exact h (stepped op b) hext hstep

/-! ### The contract -/

/-- The memo contract of a batch cache, over any operations from a fresh cache: the log's calls
are the calls the store saw; no key goes out twice and no scan twice; a later scan gives back
the first one's outcome; slots stay; keys a successful scan brought back are never sent;
a flush leaves every key enqueued before it with a slot; and each key a call sent holds the
slot that call's answer gives it. -/
theorem batch_cache_memo_contract (store : Store) (rules : List FailureRule)
    (ops : List CacheOp) :
    let run := (runLog ops).run (Batch.fresh store rules)
    let log := run.1
    run.2.session.calls = log.flatMap (·.calls) ∧
    KeysSentOnce (log.flatMap (·.calls)) ∧
    ((log.flatMap (·.calls)).filter (·.isScan)).Nodup ∧
    log.Pairwise (fun e e' ↦ ∀ sc, e.op.scanCall = some sc → e'.op.scanCall = some sc →
      e'.outcome = e.outcome) ∧
    log.Pairwise (fun e e' ↦ ∀ key s, e.cached key = some s → e'.cached key = some s) ∧
    log.Pairwise (fun e e' ↦ ∀ rs, e.outcome = .records (.ok rs) → ∀ r ∈ rs,
      ∀ c ∈ e'.calls, (r.kind, r.id) ∉ c.keys) ∧
    log.Pairwise (fun e e' ↦ e'.op = .flush → ∀ key ∈ e.op.enqueued, (e'.cached key).isSome) ∧
    ∀ e ∈ log, ∀ c ∈ e.calls, ∀ key ∈ c.keys,
      e.cached key =
        some (Slot.ofAnswer ((Batch.fresh store rules).session.keyedAnswer c) key.2) := by
  intro run log
  have hrun := stepOk_runLog ops (Batch.fresh store rules)
  refine ⟨?calls, hrun.once, hrun.scans_once, ?scans, ?slots, ?primed, ?flushed, ?filled⟩
  case calls =>
    -- a fresh cache has made no call
    rw [Session.calls, hrun.trace]
    show ((log.flatMap CacheEvent.calls).reverse ++ []).reverse = _
    simp
  case scans =>
    -- the first scan's outcome is remembered, and every later one gives back what is remembered
    refine pairwise_runLog (fun h₁ hext h₂ sc hsc hsc' ↦ ?_) ops _
    exact (h₂.scan sc hsc').2 _ (hext.memo _ _ (h₁.scan sc hsc).1)
  case slots =>
    refine pairwise_runLog (fun h₁ hext h₂ key s hs ↦ ?_) ops _
    rw [h₁.cached] at hs
    rw [h₂.cached]
    exact h₂.ok.extends_.slots _ _ (hext.slots _ _ hs)
  case primed =>
    -- a scanned record has a slot from then on, and a call sends only keys without one
    refine pairwise_runLog (fun h₁ hext h₂ rs hrs r hr c hc hkey ↦ ?_) ops _
    obtain ⟨s, hs⟩ := Option.isSome_iff_exists.mp (h₁.scanned rs hrs r hr)
    have hnone := h₂.ok.fresh_keys c hc _ hkey
    rw [hext.slots _ _ hs] at hnone
    cases hnone
  case flushed =>
    refine pairwise_runLog (fun h₁ hext h₂ hflush key hkey ↦ ?_) ops _
    rw [h₂.cached]
    exact h₂.flushed hflush key (hext.waiting key (h₁.waiting key hkey))
  case filled =>
    intro e he c hc key hkey
    obtain ⟨b₁, b₂, hext, hstep⟩ := stepped_of_mem_runLog he
    rw [hstep.cached, hstep.ok.filled c hc key hkey, hext.keyedAnswer]

end SocialGraph
