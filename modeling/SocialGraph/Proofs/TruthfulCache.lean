import Mathlib.Data.List.Forall2
import SocialGraph.Proofs.Batching

/-!
# A cache that tells the truth or admits a failure

With failure rules, any store call may fail, and a cache in front of the store of a dataset
then remembers failures beside the dataset's answers. Such a cache is `Truthful`: every slot is
the slot of the key's record in the dataset or a failed one, and every remembered scan is the
scan's answer on the dataset or a failure. Every cache operation keeps that, whichever calls
the rules fail (`Truthful.scanAll`, `Truthful.flush`, …).

The first phase of a field is an `Attempted` step: it keeps the batch truthful, and its result
fails, or settles to the field's outcome on the dataset once the keys it waits for have slots.
So after a level's flush every task either fails or has the outcome it has on the dataset
(`level_outcomes_pruned`): a failing store call can turn an outcome into an error, never into
another value.
-/

namespace SocialGraph

/-! ### Results that are the truth or a failure -/

/-- A result is a pruned `t` when it is `t`, or a failure. -/
def Pruned {ε α : Type} (r t : Except ε α) : Prop :=
  r = t ∨ ∃ e, r = .error e

theorem Pruned.refl {ε α : Type} (r : Except ε α) : Pruned r r :=
  Or.inl rfl

theorem Pruned.error {ε α : Type} (e : ε) (t : Except ε α) : Pruned (.error e) t :=
  Or.inr ⟨e, rfl⟩

/-- A slot prunes a key's record when it is the slot of that record, or a failed one. -/
def Slot.Prunes (s : Slot) (o : Option Record) : Prop :=
  s = Slot.ofLookup o ∨ ∃ e, s = .failed e

/-! ### The invariant -/

/-- A batch over the store of a dataset, with any failure rules, whose slots and remembered
scans are what the dataset gives, or failures. -/
structure Truthful (d : Dataset) (b : Batch) : Prop where
  store : b.session.store = d.store
  slots : ∀ key s, b.cache.slots.lookup key = some s → s.Prunes (d.lookup key.1 key.2)
  fullScans : ∀ k r, b.cache.fullScans.lookup k = some r → Pruned r (.ok (d.ofKind k))
  keyScans : ∀ key r, b.cache.keyScans.lookup key = some r →
    Pruned r (.ok (d.store.scanByForeignKey key.1 key.2))
  linkScans : ∀ key r, b.cache.linkScans.lookup key = some r →
    Pruned r (.ok (d.store.scanAssociation key.1 key.2))

theorem truthful_fresh (d : Dataset) (rules : List FailureRule) :
    Truthful d (Batch.fresh d.store rules) := by
  refine ⟨rfl, ?_, ?_, ?_, ?_⟩ <;> intros <;> simp_all [Batch.fresh, Cache.empty]

section Operations

variable {d : Dataset} {b : Batch}

/-- Whatever the rules, the session answers a call from its store or fails it. -/
theorem Truthful.answer (hb : Truthful d b) {α : Type} (c : StoreCall) (f : Store → α) :
    Pruned (b.session.answer c f) (.ok (f d.store)) := by
  unfold Session.answer
  split
  · exact Pruned.error _ _
  · rw [hb.store]
    exact Pruned.refl _

/-- Priming with records of the dataset keeps every slot what the dataset gives, or failed. -/
theorem prunes_slots_primeSlots (hu : d.KeysUnique) {rs : List Record}
    (hrs : ∀ r ∈ rs, r ∈ Store.recordsOf d) {slots : List ((RecordKind × RecordId) × Slot)}
    (hslots : ∀ key s, slots.lookup key = some s → s.Prunes (d.lookup key.1 key.2)) :
    ∀ key s, (Batch.primeSlots rs slots).lookup key = some s →
      s.Prunes (d.lookup key.1 key.2) := by
  intro key s hs
  rw [Batch.lookup_primeSlots] at hs
  cases hl : slots.lookup key with
  | some s' =>
    rw [hl] at hs
    cases hs
    exact hslots key s hl
  | none =>
    -- a key without a slot takes the first record with that key, its own record
    rw [hl, Option.none_or] at hs
    obtain ⟨r, hfind, rfl⟩ := Option.map_eq_some_iff.mp hs
    have hkey : (r.kind, r.id) = key := by simpa using List.find?_some hfind
    rw [← hkey, Dataset.lookup_of_mem hu (hrs r (List.mem_of_find?_eq_some hfind))]
    exact Or.inl rfl

/-- Priming with a scan's result: a successful scan brings records of the dataset, and a
failed one brings none. -/
theorem prunes_slots_primedSlots (hu : d.KeysUnique) {r : Except StoreError (List Record)}
    {rs : List Record} (hr : Pruned r (.ok rs)) (hrs : ∀ x ∈ rs, x ∈ Store.recordsOf d)
    {slots : List ((RecordKind × RecordId) × Slot)}
    (hslots : ∀ key s, slots.lookup key = some s → s.Prunes (d.lookup key.1 key.2)) :
    ∀ key s, (Batch.primedSlots r slots).lookup key = some s →
      s.Prunes (d.lookup key.1 key.2) := by
  rcases hr with rfl | ⟨e, rfl⟩
  · exact prunes_slots_primeSlots hu hrs hslots
  · exact hslots

theorem Truthful.scanAll (hu : d.KeysUnique) (hb : Truthful d b) (kind : RecordKind) :
    Pruned ((Batch.scanAll kind).run b).1 (.ok (d.ofKind kind)) ∧
      Truthful d ((Batch.scanAll kind).run b).2 := by
  have hrs : ∀ r ∈ d.ofKind kind, r ∈ Store.recordsOf d := fun r hr ↦ (d.mem_ofKind hr).1
  cases hl : b.cache.fullScans.lookup kind with
  | some r =>
    -- a remembered scan is given back, and primes the slots again
    have hr := hb.fullScans kind r hl
    rw [Batch.run_scanAll_of_lookup_eq_some b hl]
    exact ⟨hr, hb.store, prunes_slots_primedSlots hu hr hrs hb.slots, hb.fullScans, hb.keyScans,
      hb.linkScans⟩
  | none =>
    have hr := hb.answer (.scanAll kind) (·.rows kind)
    rw [Dataset.rows_store] at hr
    rw [Batch.run_scanAll_of_lookup_eq_none b hl]
    refine ⟨hr, by simpa using hb.store, prunes_slots_primedSlots hu hr hrs hb.slots, ?_,
      hb.keyScans, hb.linkScans⟩
    exact forall_lookup_cons (fun k r ↦ Pruned r (.ok (d.ofKind k))) hr hb.fullScans

theorem Truthful.scanByForeignKey (hu : d.KeysUnique) (hb : Truthful d b) (fk : ForeignKey)
    (value : RecordId) :
    Pruned ((Batch.scanByForeignKey fk value).run b).1
      (.ok (d.store.scanByForeignKey fk value)) ∧
      Truthful d ((Batch.scanByForeignKey fk value).run b).2 := by
  have hrs : ∀ x ∈ d.store.scanByForeignKey fk value, x ∈ Store.recordsOf d :=
    fun _ hx ↦ d.mem_recordsOf_of_scanByForeignKey hx
  cases hl : b.cache.keyScans.lookup (fk, value) with
  | some r =>
    have hr := hb.keyScans (fk, value) r hl
    rw [Batch.run_scanByForeignKey_of_lookup_eq_some b hl]
    exact ⟨hr, hb.store, prunes_slots_primedSlots hu hr hrs hb.slots, hb.fullScans, hb.keyScans,
      hb.linkScans⟩
  | none =>
    have hr := hb.answer (.scanByForeignKey fk value) (·.scanByForeignKey fk value)
    rw [Batch.run_scanByForeignKey_of_lookup_eq_none b hl]
    refine ⟨hr, by simpa using hb.store, prunes_slots_primedSlots hu hr hrs hb.slots,
      hb.fullScans, ?_, hb.linkScans⟩
    exact forall_lookup_cons
      (fun (key : ForeignKey × RecordId) r ↦ Pruned r (.ok (d.store.scanByForeignKey key.1 key.2)))
      hr hb.keyScans

theorem Truthful.scanAssociation (hb : Truthful d b) (e : SubscriptionEnd) (user : Uuid) :
    Pruned ((Batch.scanAssociation e user).run b).1
      (.ok (d.store.scanAssociation e user)) ∧
      Truthful d ((Batch.scanAssociation e user).run b).2 := by
  cases hl : b.cache.linkScans.lookup (e, user) with
  | some r =>
    rw [Batch.run_scanAssociation_of_lookup_eq_some b hl]
    exact ⟨hb.linkScans (e, user) r hl, hb⟩
  | none =>
    have hr := hb.answer (.scanAssociation e user) (·.scanAssociation e user)
    rw [Batch.run_scanAssociation_of_lookup_eq_none b hl]
    refine ⟨hr, by simpa using hb.store, hb.slots, hb.fullScans, hb.keyScans, ?_⟩
    exact forall_lookup_cons
      (fun (key : SubscriptionEnd × Uuid) r ↦ Pruned r (.ok (d.store.scanAssociation key.1 key.2)))
      hr hb.linkScans

theorem Truthful.enqueue (hb : Truthful d b) (kind : RecordKind) (id : RecordId) :
    Truthful d ((Batch.enqueue kind id).run b).2 := by
  rw [Batch.run_enqueue]
  split
  · exact ⟨hb.store, hb.slots, hb.fullScans, hb.keyScans, hb.linkScans⟩
  · exact hb

/-- A flush fills each key of a window with the key's record in the dataset, or with the
failure of the window's call. -/
theorem Truthful.flush (hb : Truthful d b) : Truthful d (Batch.flush.run b).2 := by
  rw [Batch.run_flush]
  refine ⟨hb.store, ?_, hb.fullScans, hb.keyScans, hb.linkScans⟩
  rintro ⟨k, i⟩ s hs
  change (Batch.flushSlots b.session b.cache).lookup (k, i) = some s at hs
  rw [Batch.lookup_flushSlots] at hs
  split at hs
  · next hi =>
    cases hs
    rcases hb.answer (keyedCall k (b.cache.window k))
        (Session.keyedRecords · (keyedCall k (b.cache.window k))) with h | ⟨e, h⟩
    · refine Or.inl ?_
      rw [Session.keyedAnswer, h, ofAnswer_keyedCall _ _ hi, Dataset.get_store]
    · exact Or.inr ⟨e, by rw [Session.keyedAnswer, h]; rfl⟩
  · exact hb.slots _ _ hs

/-- Resolving a key that has a slot gives the slot, and changes nothing. -/
theorem Truthful.run_resolve (hb : Truthful d b) {kind : RecordKind} {id : RecordId}
    (h : (b.cache.slots.lookup (kind, id)).isSome) :
    ∃ s, (Batch.resolve kind id).run b = (s, b) ∧ s.Prunes (d.lookup kind id) := by
  obtain ⟨s, hs⟩ := Option.isSome_iff_exists.mp h
  exact ⟨s, Batch.run_resolve_of_lookup_eq_some b hs, hb.slots _ s hs⟩

end Operations

/-! ### The first phase of a field -/

/-- A first phase run from `b` to `b'` that kept the batch truthful and extended it, and left a
result that failed, or whose keys wait (pending, or with a slot) and that settles to `outcome`. -/
structure Attempted (d : Dataset) (b : Batch) (res : Except ResolveError Resolution) (b' : Batch)
    (outcome : Outcome) : Prop where
  truthful : Truthful d b'
  extends_ : Batch.Extends b b'
  waits : ∀ r, res = .ok r → ∀ key ∈ r.keys,
    key ∈ b'.cache.pending ∨ (b'.cache.slots.lookup key).isSome
  settles : ∀ r, res = .ok r → .ok (r.settleOn d) = outcome

section FirstPhase

variable {d : Dataset} {b : Batch}

theorem Attempted.pure (hb : Truthful d b) {res : Except ResolveError Resolution}
    {outcome : Outcome} (hkeys : ∀ r, res = .ok r → r.keys = [])
    (h : ∀ r, res = .ok r → .ok (r.settleOn d) = outcome) :
    Attempted d b ((pure res : StateM Batch _).run b).1 ((pure res : StateM Batch _).run b).2
      outcome := by
  refine ⟨hb, .refl b, ?_, h⟩
  intro r hr key hkey
  rw [hkeys r hr] at hkey
  cases hkey

/-- A failure in the first phase leaves the batch as it is. -/
theorem Attempted.fail (hb : Truthful d b) (e : ResolveError) (outcome : Outcome) :
    Attempted d b
      ((Pure.pure (.error e) : StateM Batch (Except ResolveError Resolution)).run b).1
      ((Pure.pure (.error e) : StateM Batch (Except ResolveError Resolution)).run b).2 outcome :=
  Attempted.pure hb (fun _ h ↦ by cases h) (fun _ h ↦ by cases h)

/-- A program that extends the batch, followed by one that attempts from where it stopped. -/
theorem Attempted.bind {α : Type} {m : StateM Batch α}
    {k : α → StateM Batch (Except ResolveError Resolution)} {outcome : Outcome}
    (hext : Batch.Extends b (m.run b).2)
    (hk : Attempted d (m.run b).2 ((k (m.run b).1).run (m.run b).2).1
      ((k (m.run b).1).run (m.run b).2).2 outcome) :
    Attempted d b ((m >>= k).run b).1 ((m >>= k).run b).2 outcome := by
  have hrun : (m >>= k).run b = (k (m.run b).1).run (m.run b).2 := by
    simp [StateT.run_bind]
  rw [hrun]
  exact ⟨hk.truthful, hext.trans hk.extends_, hk.waits, hk.settles⟩

/-- A prepared step over a faithful-looking part of the batch: a first phase that succeeds with
a resolution whose keys wait. -/
theorem Attempted.map_ok {m : StateM Batch Resolution} {outcome : Outcome}
    (hb : Truthful d (m.run b).2) (hext : Batch.Extends b (m.run b).2)
    (hwaits : ∀ key ∈ (m.run b).1.keys,
      key ∈ (m.run b).2.cache.pending ∨ ((m.run b).2.cache.slots.lookup key).isSome)
    (h : Except.ok ((m.run b).1.settleOn d) = outcome) :
    Attempted d b ((Except.ok <$> m : StateM Batch (Except ResolveError Resolution)).run b).1
      ((Except.ok <$> m : StateM Batch (Except ResolveError Resolution)).run b).2 outcome := by
  have hrun : (Except.ok <$> m : StateM Batch (Except ResolveError Resolution)).run b =
      (.ok (m.run b).1, (m.run b).2) := by
    simp [StateT.run_map]
  rw [hrun]
  refine ⟨hb, hext, ?_, ?_⟩
  · intro r hr
    cases hr
    exact hwaits
  · intro r hr
    cases hr
    exact h

theorem attempted_defer (hb : Truthful d b) (kind : RecordKind) (id : RecordId) :
    Attempted d b
      ((Except.ok <$> defer kind id : StateM Batch (Except ResolveError Resolution)).run b).1
      ((Except.ok <$> defer kind id : StateM Batch (Except ResolveError Resolution)).run b).2
      (.ok (.object (d.lookup kind id))) := by
  have hrun : (defer kind id).run b = (.deferred kind id, ((Batch.enqueue kind id).run b).2) := by
    simp [defer]
  refine Attempted.map_ok ?_ ?_ ?_ ?_ <;> rw [hrun]
  · exact hb.enqueue kind id
  · exact (stepOk_enqueue b kind id).extends_
  · intro key hkey
    rw [List.mem_singleton.mp hkey]
    exact enqueue_waiting b kind id
  · rfl

/-- Enqueueing keys one after another keeps the batch truthful, and every key waits after. -/
theorem truthful_forM_enqueue (hb : Truthful d b) (kind : RecordKind) (ids : List RecordId) :
    Truthful d ((ids.forM (Batch.enqueue kind)).run b).2 ∧
      Batch.Extends b ((ids.forM (Batch.enqueue kind)).run b).2 ∧
      ∀ id ∈ ids, (kind, id) ∈ ((ids.forM (Batch.enqueue kind)).run b).2.cache.pending ∨
        ((((ids.forM (Batch.enqueue kind)).run b).2.cache.slots.lookup (kind, id)).isSome) := by
  induction ids generalizing b with
  | nil => exact ⟨hb, .refl b, by simp⟩
  | cons id ids ih =>
    have hrun : ((id :: ids).forM (Batch.enqueue kind)).run b =
        (ids.forM (Batch.enqueue kind)).run ((Batch.enqueue kind id).run b).2 := by
      simp [List.forM_cons, StateT.run_bind]
    obtain ⟨hb', hext, hwait⟩ := ih (hb.enqueue kind id)
    have hext₁ := (stepOk_enqueue b kind id).extends_
    rw [hrun]
    refine ⟨hb', hext₁.trans hext, ?_⟩
    intro id' hid'
    rcases List.mem_cons.mp hid' with rfl | hid'
    · exact hext.waiting _ (enqueue_waiting b kind id')
    · exact hwait id' hid'

theorem attempted_deferUsers (hb : Truthful d b) (ids : List Uuid) {outcome : Outcome}
    (h : outcome = .ok (.list (ids.filterMap fun u ↦ d.lookup .user (.entity u)))) :
    Attempted d b
      ((Except.ok <$> deferUsers ids : StateM Batch (Except ResolveError Resolution)).run b).1
      ((Except.ok <$> deferUsers ids : StateM Batch (Except ResolveError Resolution)).run b).2
      outcome := by
  have hrun : (deferUsers ids).run b = (.deferredList .user (ids.map RecordId.entity),
      (((ids.map RecordId.entity).forM (Batch.enqueue .user)).run b).2) := by
    simp [deferUsers]
  obtain ⟨hb', hext, hwait⟩ := truthful_forM_enqueue hb .user (ids.map RecordId.entity)
  refine Attempted.map_ok ?_ ?_ ?_ ?_ <;> rw [hrun]
  · exact hb'
  · exact hext
  · intro key hkey
    obtain ⟨id, hid, rfl⟩ := List.mem_map.mp hkey
    exact hwait id hid
  · rw [h, Resolution.settleOn, List.filterMap_map]
    rfl

/-- A scan that succeeds with the dataset's answer, or fails. -/
theorem Attempted.of_scan {α : Type} {m : StateM Batch (Except StoreError α)} {truth : α}
    {k : Except StoreError α → StateM Batch (Except ResolveError Resolution)} {outcome : Outcome}
    (hscan : Pruned (m.run b).1 (.ok truth) ∧ Truthful d (m.run b).2)
    (hext : Batch.Extends b (m.run b).2)
    (hok : (m.run b).1 = .ok truth → Attempted d (m.run b).2 ((k (.ok truth)).run (m.run b).2).1
      ((k (.ok truth)).run (m.run b).2).2 outcome)
    (herr : ∀ e, ((k (.error e)).run (m.run b).2).1 = .error (.store e) ∧
      ((k (.error e)).run (m.run b).2).2 = (m.run b).2) :
    Attempted d b ((m >>= k).run b).1 ((m >>= k).run b).2 outcome := by
  refine Attempted.bind hext ?_
  rcases hscan.1 with h | ⟨e, h⟩
  · rw [h]
    exact hok h
  · -- a failed scan fails the field and changes nothing more
    rw [h, (herr e).1, (herr e).2]
    exact ⟨hscan.2, .refl _, (fun _ h ↦ by cases h), (fun _ h ↦ by cases h)⟩

/-- The first phase of following a relation attempts the relation's outcome on the dataset. -/
theorem attempted_follow (hu : d.KeysUnique) (hb : Truthful d b) (t : ObjectType) (f : Field)
    (r : Relation) (o : Option Record) :
    Attempted d b ((follow t f r o).run b).1 ((follow t f r o).run b).2 (d.follow t f r o) := by
  -- every pair of relation and record the relation does not start from fails at once
  have hfail : Attempted d b
      ((pure (.error (unknownField t f)) : StateM Batch (Except ResolveError Resolution)).run b).1
      ((pure (.error (unknownField t f)) : StateM Batch (Except ResolveError Resolution)).run b).2
      (d.follow t f r o) :=
    Attempted.fail hb _ _
  cases r <;> cases o <;> try exact hfail
  all_goals rename_i record
  all_goals cases record <;> try exact hfail
  case profileMemberType.some.profile p => exact attempted_defer hb _ _
  case postAuthor.some.post p => exact attempted_defer hb _ _
  case userProfile.some.user u =>
    refine Attempted.of_scan (hb.scanByForeignKey hu .profileUser (.entity u.id))
      (extends_scanByForeignKey b .profileUser (.entity u.id)) (fun _ ↦ ?_) (fun e ↦ ⟨rfl, rfl⟩)
    refine Attempted.pure (hb.scanByForeignKey hu .profileUser (.entity u.id)).2
      (fun _ h ↦ by cases h; rfl) fun _ h ↦ ?_
    cases h
    simp [Resolution.settleOn, Dataset.follow, Dataset.scanByForeignKey_profileUser,
      List.head?_filter]
  case userPosts.some.user u =>
    refine Attempted.of_scan (hb.scanByForeignKey hu .postAuthor (.entity u.id))
      (extends_scanByForeignKey b .postAuthor (.entity u.id)) (fun _ ↦ ?_) (fun e ↦ ⟨rfl, rfl⟩)
    refine Attempted.pure (hb.scanByForeignKey hu .postAuthor (.entity u.id)).2
      (fun _ h ↦ by cases h; rfl) fun _ h ↦ ?_
    cases h
    simp [Resolution.settleOn, Dataset.follow, Dataset.scanByForeignKey_postAuthor]
  case userSubscribedTo.some.user u =>
    refine Attempted.of_scan (hb.scanAssociation .subscriber u.id)
      (extends_scanAssociation b .subscriber u.id) (fun _ ↦ ?_) (fun e ↦ ⟨rfl, rfl⟩)
    exact attempted_deferUsers (hb.scanAssociation .subscriber u.id).2 _ (by
      simp only [Dataset.follow, Store.scanAssociation, SubscriptionEnd.user, List.filterMap_map,
        Dataset.store, Function.comp_def])
  case userSubscribedFrom.some.user u =>
    refine Attempted.of_scan (hb.scanAssociation .author u.id)
      (extends_scanAssociation b .author u.id) (fun _ ↦ ?_) (fun e ↦ ⟨rfl, rfl⟩)
    exact attempted_deferUsers (hb.scanAssociation .author u.id).2 _ (by
      simp only [Dataset.follow, Store.scanAssociation, SubscriptionEnd.user, List.filterMap_map,
        Dataset.store, Function.comp_def])

/-- The first phase of a field attempts the field's outcome on the dataset. -/
theorem attempted_resolveField (hu : d.KeysUnique) (hb : Truthful d b) (t : ObjectType)
    (fd : FieldDef) (f : Field) (o : Option Record) :
    Attempted d b ((resolveField t fd f o).run b).1 ((resolveField t fd f o).run b).2
      (d.fieldOutcome t fd f o) := by
  cases hr : fd.resolver with
  | typename =>
    simp only [resolveField, Dataset.fieldOutcome, hr]
    exact Attempted.pure hb (fun _ h ↦ by cases h; rfl) (fun _ h ↦ by cases h; rfl)
  | scalar =>
    simp only [resolveField, Dataset.fieldOutcome, hr]
    cases o.bind (·.scalar f.name) with
    | some v => exact Attempted.pure hb (fun _ h ↦ by cases h; rfl) (fun _ h ↦ by cases h; rfl)
    | none => exact Attempted.fail hb _ _
  | rootList kind =>
    simp only [resolveField, Dataset.fieldOutcome, hr]
    refine Attempted.of_scan (hb.scanAll hu kind) (extends_scanAll b kind) (fun _ ↦ ?_)
      (fun e ↦ ⟨rfl, rfl⟩)
    exact Attempted.pure (hb.scanAll hu kind).2 (fun _ h ↦ by cases h; rfl)
      (fun _ h ↦ by cases h; rfl)
  | rootLookup kind =>
    simp only [resolveField, Dataset.fieldOutcome, hr]
    cases lookupId kind f with
    | ok id => exact attempted_defer hb kind id
    | error e => exact Attempted.fail hb _ _
  | relation r =>
    simp only [resolveField, Dataset.fieldOutcome, hr]
    exact attempted_follow hu hb t f r o

end FirstPhase

/-! ### A level's two phases -/

section Level

variable {d : Dataset}

/-- The first phase of a whole level: each task attempted in turn, from a truthful batch. The
keys of every result still wait at the end, since later tasks only extend the batch. -/
theorem attempted_mapM (hu : d.KeysUnique)
    (tasks : List (ObjectType × FieldDef × Field × Option Record))
    {b : Batch} (hb : Truthful d b) :
    let run := (tasks.mapM resolveTask).run b
    Truthful d run.2 ∧
      List.Forall₂ (fun res task ↦ ∀ r, res = .ok r → .ok (r.settleOn d) = d.taskOutcome task)
        run.1 tasks ∧
      ∀ res ∈ run.1, ∀ r, res = .ok r → ∀ key ∈ r.keys,
        key ∈ run.2.cache.pending ∨ (run.2.cache.slots.lookup key).isSome := by
  induction tasks generalizing b with
  | nil => exact ⟨hb, .nil, by simp⟩
  | cons task tasks ih =>
    obtain ⟨t, fd, f, o⟩ := task
    have hfirst := attempted_resolveField hu hb t fd f o
    change Attempted d b ((resolveTask (t, fd, f, o)).run b).1
      ((resolveTask (t, fd, f, o)).run b).2 _ at hfirst
    obtain ⟨hb', hsettle, hwaits⟩ := ih hfirst.truthful
    have hext := (phased_mapM tasks ((resolveTask (t, fd, f, o)).run b).2).1
    simp only [List.mapM_cons, StateT.run_bind, id_bind_eq, StateT.run_pure, id_pure_eq]
    refine ⟨hb', .cons hfirst.settles hsettle, ?_⟩
    intro res hres r hr key hkey
    rcases List.mem_cons.mp hres with rfl | hres
    · exact hext.waiting key (hfirst.waits r hr key hkey)
    · exact hwaits res hres r hr key hkey

/-- Settling keys that all have slots reads them: the records found, in order, unless a failed
key fails the list. -/
theorem Truthful.run_settleKeys {b : Batch} (hb : Truthful d b) (kind : RecordKind)
    (ids : List RecordId) (hids : ∀ id ∈ ids, (b.cache.slots.lookup (kind, id)).isSome)
    (acc : List Record) :
    Pruned ((settleKeys kind ids acc).run b).1
      (.ok (acc.reverse ++ ids.filterMap (d.lookup kind))) := by
  induction ids generalizing acc with
  | nil => exact Or.inl (by simp [settleKeys])
  | cons id ids ih =>
    have hrest : ∀ id' ∈ ids, (b.cache.slots.lookup (kind, id')).isSome :=
      fun id' h ↦ hids id' (List.mem_cons_of_mem _ h)
    obtain ⟨s, hrun, hs⟩ := hb.run_resolve (hids id List.mem_cons_self)
    simp only [settleKeys, StateT.run_bind, hrun, id_bind_eq]
    rcases hs with rfl | ⟨e, rfl⟩
    · cases hl : d.lookup kind id with
      | none => simpa [Slot.ofLookup, hl] using ih hrest acc
      | some r => simpa [Slot.ofLookup, hl] using ih hrest (r :: acc)
    · exact Pruned.error _ _

/-- Settling a resolution whose keys all have slots gives what the dataset gives, or fails. -/
theorem Truthful.run_settle {b : Batch} (hb : Truthful d b) (r : Resolution)
    (hkeys : ∀ key ∈ r.keys, (b.cache.slots.lookup key).isSome) :
    Pruned (r.settle.run b).1 (.ok (r.settleOn d)) := by
  cases r with
  | value v => exact Pruned.refl _
  | record r => exact Pruned.refl _
  | records rs => exact Pruned.refl _
  | deferred kind id =>
    obtain ⟨s, hrun, hs⟩ := hb.run_resolve (hkeys _ List.mem_cons_self)
    simp only [Resolution.settle, StateT.run_bind, hrun, id_bind_eq]
    rcases hs with rfl | ⟨e, rfl⟩
    · exact Or.inl (by cases hl : d.lookup kind id <;> simp [Resolution.settleOn, Slot.ofLookup, hl])
    · exact Pruned.error _ _
  | deferredList kind ids =>
    have hids : ∀ id ∈ ids, (b.cache.slots.lookup (kind, id)).isSome :=
      fun id h ↦ hkeys _ (List.mem_map_of_mem h)
    simp only [Resolution.settle, StateT.run_bind, id_bind_eq, StateT.run_pure, id_pure_eq]
    rcases hb.run_settleKeys kind ids hids [] with h | ⟨e, h⟩
    · rw [h]
      exact Or.inl rfl
    · rw [h]
      exact Pruned.error _ _

theorem forall₂_mapM_settleOutcome {b : Batch} (hb : Truthful d b)
    (results : List (Except ResolveError Resolution))
    (tasks : List (ObjectType × FieldDef × Field × Option Record))
    (hsettle : List.Forall₂
      (fun res task ↦ ∀ r, res = .ok r → .ok (r.settleOn d) = d.taskOutcome task) results tasks)
    (hkeys : ∀ res ∈ results, ∀ r, res = .ok r → ∀ key ∈ r.keys,
      (b.cache.slots.lookup key).isSome) :
    List.Forall₂ (fun o task ↦ Pruned o (d.taskOutcome task))
      ((results.mapM settleOutcome).run b).1 tasks := by
  induction hsettle with
  | nil => exact .nil
  | @cons res task results tasks hhead _ ih =>
    have hrest := ih fun res' h ↦ hkeys res' (List.mem_cons_of_mem _ h)
    have hstay : ((settleOutcome res).run b).2 = b := by
      cases res with
      | ok r => exact settle_of_slots r (hkeys _ List.mem_cons_self r rfl)
      | error e => rfl
    have hfirst : Pruned ((settleOutcome res).run b).1 (d.taskOutcome task) := by
      cases res with
      | ok r =>
        rw [← hhead r rfl]
        exact hb.run_settle r (hkeys _ List.mem_cons_self r rfl)
      | error e => exact Pruned.error _ _
    simp only [List.mapM_cons, StateT.run_bind, id_bind_eq, StateT.run_pure, id_pure_eq]
    rw [hstay]
    exact .cons hfirst hrest

/-- A level's two phases from a truthful batch: after the first phase and the flush, settling
gives for every task its outcome on the dataset or a failure, and changes nothing; the batch
stays truthful. -/
theorem level_outcomes_pruned (hu : d.KeysUnique) {b : Batch} (hb : Truthful d b)
    (tasks : List (ObjectType × FieldDef × Field × Option Record)) :
    let phase := (tasks.mapM resolveTask).run b
    let flushed := (Batch.flush.run phase.2).2
    List.Forall₂ (fun o task ↦ Pruned o (d.taskOutcome task))
        ((phase.1.mapM settleOutcome).run flushed).1 tasks ∧
      ((phase.1.mapM settleOutcome).run flushed).2 = flushed ∧ Truthful d flushed := by
  intro phase flushed
  obtain ⟨hb', hsettle, hwaits⟩ := attempted_mapM hu tasks hb
  -- the flush gives a slot to every key that waited
  have hfilled : ∀ res ∈ phase.1, ∀ r, res = .ok r → ∀ key ∈ r.keys,
      (flushed.cache.slots.lookup key).isSome := by
    intro res hres r hr key hkey
    show ((Batch.flush.run phase.2).2.cache.slots.lookup key).isSome
    rw [Batch.run_flush]
    exact flush_fills phase.2 (hwaits res hres r hr key hkey)
  refine ⟨forall₂_mapM_settleOutcome hb'.flush phase.1 tasks hsettle hfilled, ?_, hb'.flush⟩
  refine mapM_settleOutcome_of_slots phase.1 fun key hkey ↦ ?_
  obtain ⟨res, hres, hkey⟩ := List.mem_flatMap.mp hkey
  cases res with
  | ok r => exact hfilled _ hres r rfl key hkey
  | error e => cases hkey

end Level

end SocialGraph
