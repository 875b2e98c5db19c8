import SocialGraph.Proofs.Batching
import SocialGraph.Proofs.LevelLayout

/-!
# Records match the types of their groups

Each object of a level below the root carries a record whose kind is the one its group's type
exposes (`ObjectType.ofKind`). The records of a level come from root scans, foreign-key scans,
the slots of the batch cache and the records scans prime it with. The store answers every
question with records of the kind asked for, since each of its tables holds records of its own
kind only (`Table.kinded`), and the cache files every record under its own kind (`Batch.KindsKept`), so every cache operation keeps such a batch (`KeepsKinds`, one lemma
per operation). The schema gives each field that yields objects the type that exposes the kind
its resolver fetches (`ObjectType.objectType_field`), so the objects a field gives on a level
form a group of the right type on the next.

Hence on every level of a run a declared scalar is found on its record, a relation is followed
only from a record of the kind it starts from, and the only errors resolvers give that do not
come from the store are refusals of a root look-up's `id` (`records_match_group_types`).
-/

namespace SocialGraph

/-! ### Kinds, types and the schema -/

/-- The object type that exposes the records of a kind. -/
def ObjectType.ofKind : RecordKind → ObjectType
  | .memberTier => .memberType
  | .user => .user
  | .profile => .profile
  | .post => .post

@[simp]
theorem ObjectType.ofKind_inj {k k' : RecordKind} :
    ObjectType.ofKind k = ObjectType.ofKind k' ↔ k = k' := by
  cases k <;> cases k' <;> decide

theorem ObjectType.ofKind_ne_query (k : RecordKind) : ObjectType.ofKind k ≠ .query := by
  cases k <;> decide

/-- The kind of record a relation is followed from. -/
def Relation.source : Relation → RecordKind
  | .profileMemberType => .profile
  | .userProfile | .userPosts | .userSubscribedTo | .userSubscribedFrom => .user
  | .postAuthor => .post

/-- The kind of record a relation leads to. -/
def Relation.target : Relation → RecordKind
  | .profileMemberType => .memberTier
  | .userProfile => .profile
  | .userPosts => .post
  | .userSubscribedTo | .userSubscribedFrom | .postAuthor => .user

/-- The kind of record a resolver fetches, if it fetches records. -/
def FieldResolver.fetches : FieldResolver → Option RecordKind
  | .typename | .scalar => none
  | .relation r => some r.target
  | .rootList kind | .rootLookup kind => some kind

/-- The type of the objects a shape gives, if it gives objects. -/
def Shape.objectType : Shape → Option ObjectType
  | .leaf => none
  | .object t | .list t => some t

theorem Planned.childType_eq {p : Planned} {fd : FieldDef} (h : p.definition = .ok fd) :
    p.childType = fd.shape.objectType := by
  obtain ⟨r, s, n⟩ := fd
  cases s <;> simp [Planned.childType, h, Shape.objectType]

section Schema

variable {t : ObjectType} {name : String} {fd : FieldDef}

/-- A field of the schema gives objects exactly when it fetches records, and then objects of the
type that exposes the kind it fetches. -/
theorem ObjectType.objectType_field (h : t.field name = some fd) :
    fd.shape.objectType = fd.resolver.fetches.map ObjectType.ofKind := by
  unfold ObjectType.field at h
  split at h
  · cases h
    rfl
  · split at h <;> cases h <;> rfl

/-- A relation of the schema is a field of the type that exposes the kind it starts from. -/
theorem ObjectType.eq_ofKind_source_of_field (h : t.field name = some fd) {rel : Relation}
    (hr : fd.resolver = .relation rel) : t = ObjectType.ofKind rel.source := by
  unfold ObjectType.field at h
  split at h
  · cases h
    cases hr
  · split at h <;> cases h <;> cases hr <;> rfl

/-- A scalar of the schema belongs to a type that exposes records, and is a column of each of
them. -/
theorem ObjectType.isSome_scalar_of_field (h : t.field name = some fd)
    (hs : fd.resolver = .scalar) :
    t ≠ .query ∧ ∀ r : Record, ObjectType.ofKind r.kind = t → (r.scalar name).isSome := by
  unfold ObjectType.field at h
  split at h
  · cases h
    cases hs
  · split at h <;> cases h <;> cases hs
    all_goals refine ⟨by decide, fun r hr ↦ ?_⟩
    all_goals cases r <;> cases hr
    all_goals rfl

end Schema

/-! ### The store answers with records of the kind asked for -/

namespace Store

variable {s : Store} {r : Record}

theorem kind_of_mem_rows {k : RecordKind} (h : r ∈ s.rows k) : r.kind = k :=
  (s.tables.get k).kinded r h

theorem kind_of_mem_scanByForeignKey {fk : ForeignKey} {v : RecordId}
    (h : r ∈ s.scanByForeignKey fk v) : r.kind = fk.kind :=
  kind_of_mem_rows (List.mem_filter.mp h).1

theorem kind_of_get {k : RecordKind} {i : RecordId} (h : s.get k i = some r) : r.kind = k :=
  kind_of_mem_rows (Table.mem_rows_of_get h)

end Store

/-! ### A cache that files records under their kinds -/

/-- A slot table holds under each key only a record of the key's kind. -/
def SlotsKinded (slots : List ((RecordKind × RecordId) × Slot)) : Prop :=
  ∀ key r, slots.lookup key = some (.found r) → r.kind = key.1

/-- A scan result that, when it succeeded, holds records of one kind. -/
def ScanOfKind (k : RecordKind) : Except StoreError (List Record) → Prop
  | .ok rs => ∀ r ∈ rs, r.kind = k
  | .error _ => True

/-- A batch files each record under its own kind: a found slot holds a record of the slot's
kind, and a remembered scan holds records of the kind it scanned. -/
structure Batch.KindsKept (b : Batch) : Prop where
  slots : SlotsKinded b.cache.slots
  fullScans : ∀ k r, b.cache.fullScans.lookup k = some r → ScanOfKind k r
  keyScans : ∀ key r, b.cache.keyScans.lookup key = some r → ScanOfKind key.1.kind r

theorem kindsKept_fresh (store : Store) (rules : List FailureRule) :
    (Batch.fresh store rules).KindsKept := by
  refine ⟨?_, ?_, ?_⟩ <;> intros <;> simp_all [SlotsKinded, Batch.fresh, Cache.empty]

/-- Priming files each record under its own key, so it keeps a table kinded. -/
theorem slotsKinded_primeSlots (rs : List Record) {slots : List ((RecordKind × RecordId) × Slot)}
    (h : SlotsKinded slots) : SlotsKinded (Batch.primeSlots rs slots) := by
  intro key r hr
  rw [Batch.lookup_primeSlots] at hr
  cases hl : slots.lookup key with
  | some s =>
    rw [hl, Option.some_or] at hr
    exact h key r (hl.trans hr)
  | none =>
    rw [hl, Option.none_or] at hr
    obtain ⟨x, hfind, hx⟩ := Option.map_eq_some_iff.mp hr
    cases hx
    have hkey : (r.kind, r.id) = key := by simpa using List.find?_some hfind
    rw [← hkey]

theorem slotsKinded_primedSlots (res : Except StoreError (List Record))
    {slots : List ((RecordKind × RecordId) × Slot)} (h : SlotsKinded slots) :
    SlotsKinded (Batch.primedSlots res slots) := by
  cases res with
  | ok rs => exact slotsKinded_primeSlots rs h
  | error e => exact h

/-- A session answers a scan with what the store gives, or a failure. -/
theorem scanOfKind_answer (s : Session) (c : StoreCall) (f : Store → List Record)
    {k : RecordKind} (h : ∀ r ∈ f s.store, r.kind = k) : ScanOfKind k (s.answer c f) := by
  unfold Session.answer
  split
  · trivial
  · exact h

/-! ### Programs that keep a batch kinded -/

/-- A state program that, run from a batch that files records under their kinds, leaves such a
batch and gives a result with property `P`. -/
def KeepsKinds {α : Type} (m : StateM Batch α) (P : α → Prop) : Prop :=
  ∀ b : Batch, b.KindsKept → (m.run b).2.KindsKept ∧ P (m.run b).1

section Rules

variable {α β : Type} {m : StateM Batch α} {P : α → Prop}

theorem KeepsKinds.pure {a : α} (h : P a) : KeepsKinds (pure a) P :=
  fun _ hb ↦ ⟨hb, h⟩

theorem KeepsKinds.bind {k : α → StateM Batch β} {Q : β → Prop} (hm : KeepsKinds m P)
    (hk : ∀ a, P a → KeepsKinds (k a) Q) : KeepsKinds (m >>= k) Q := by
  intro b hb
  obtain ⟨hb', ha⟩ := hm b hb
  simpa only [StateT.run_bind, id_bind_eq] using hk _ ha _ hb'

theorem KeepsKinds.map {f : α → β} {Q : β → Prop} (hm : KeepsKinds m P)
    (h : ∀ a, P a → Q (f a)) : KeepsKinds (f <$> m) Q := by
  intro b hb
  obtain ⟨hb', ha⟩ := hm b hb
  simpa only [StateT.run_map, id_map_eq] using ⟨hb', h _ ha⟩

theorem KeepsKinds.mono {Q : α → Prop} (hm : KeepsKinds m P) (h : ∀ a, P a → Q a) :
    KeepsKinds m Q :=
  fun b hb ↦ (hm b hb).imp_right (h _)

/-- Running a program over a list, where each run keeps a batch kinded and relates its result
to a companion element. -/
theorem keepsKinds_mapM {γ : Type} {g : α → StateM Batch β} {R : γ → α → Prop}
    {S : γ → β → Prop} (h : ∀ c a, R c a → KeepsKinds (g a) (S c)) {cs : List γ}
    {as : List α} (hR : List.Forall₂ R cs as) : KeepsKinds (as.mapM g) (List.Forall₂ S cs) := by
  induction hR with
  | nil => exact KeepsKinds.pure .nil
  | cons hca _ ih =>
    rw [List.mapM_cons]
    exact (h _ _ hca).bind fun _ hb ↦ ih.bind fun _ hbs ↦ KeepsKinds.pure (.cons hb hbs)

end Rules

/-! ### The cache operations -/

theorem keepsKinds_enqueue (kind : RecordKind) (id : RecordId) :
    KeepsKinds (Batch.enqueue kind id) fun _ ↦ True := by
  intro b hb
  rw [Batch.run_enqueue]
  split
  · exact ⟨⟨hb.slots, hb.fullScans, hb.keyScans⟩, trivial⟩
  · exact ⟨hb, trivial⟩

theorem keepsKinds_forM_enqueue (kind : RecordKind) (ids : List RecordId) :
    KeepsKinds (ids.forM (Batch.enqueue kind)) fun _ ↦ True := by
  induction ids with
  | nil => exact KeepsKinds.pure trivial
  | cons id ids ih =>
    show KeepsKinds (Batch.enqueue kind id >>= fun _ ↦ ids.forM (Batch.enqueue kind)) _
    exact (keepsKinds_enqueue kind id).bind fun _ _ ↦ ih

theorem keepsKinds_scanAll (kind : RecordKind) :
    KeepsKinds (Batch.scanAll kind) (ScanOfKind kind) := by
  intro b hb
  cases hl : b.cache.fullScans.lookup kind with
  | some r =>
    -- a remembered scan is given back, and primes the slots again
    rw [Batch.run_scanAll_of_lookup_eq_some b hl]
    exact ⟨⟨slotsKinded_primedSlots r hb.slots, hb.fullScans, hb.keyScans⟩,
      hb.fullScans kind r hl⟩
  | none =>
    have hr := scanOfKind_answer b.session (.scanAll kind) (·.rows kind)
      fun _ h ↦ Store.kind_of_mem_rows h
    rw [Batch.run_scanAll_of_lookup_eq_none b hl]
    exact ⟨⟨slotsKinded_primedSlots _ hb.slots,
      forall_lookup_cons (fun k r ↦ ScanOfKind k r) hr hb.fullScans, hb.keyScans⟩, hr⟩

theorem keepsKinds_scanByForeignKey (fk : ForeignKey) (value : RecordId) :
    KeepsKinds (Batch.scanByForeignKey fk value) (ScanOfKind fk.kind) := by
  intro b hb
  cases hl : b.cache.keyScans.lookup (fk, value) with
  | some r =>
    rw [Batch.run_scanByForeignKey_of_lookup_eq_some b hl]
    exact ⟨⟨slotsKinded_primedSlots r hb.slots, hb.fullScans, hb.keyScans⟩,
      hb.keyScans (fk, value) r hl⟩
  | none =>
    have hr := scanOfKind_answer b.session (.scanByForeignKey fk value)
      (·.scanByForeignKey fk value) fun _ h ↦ Store.kind_of_mem_scanByForeignKey h
    rw [Batch.run_scanByForeignKey_of_lookup_eq_none b hl]
    exact ⟨⟨slotsKinded_primedSlots _ hb.slots, hb.fullScans,
      forall_lookup_cons (fun (key : ForeignKey × RecordId) r ↦ ScanOfKind key.1.kind r) hr
        hb.keyScans⟩, hr⟩

theorem keepsKinds_scanAssociation (e : SubscriptionEnd) (user : Uuid) :
    KeepsKinds (Batch.scanAssociation e user) fun _ ↦ True := by
  intro b hb
  cases hl : b.cache.linkScans.lookup (e, user) with
  | some r =>
    rw [Batch.run_scanAssociation_of_lookup_eq_some b hl]
    exact ⟨hb, trivial⟩
  | none =>
    rw [Batch.run_scanAssociation_of_lookup_eq_none b hl]
    exact ⟨⟨hb.slots, hb.fullScans, hb.keyScans⟩, trivial⟩

/-- A flush fills each key of a window with the store's record of the key, which is of the
window's kind, or with a failure. -/
theorem keepsKinds_flush : KeepsKinds Batch.flush fun _ ↦ True := by
  intro b hb
  rw [Batch.run_flush]
  refine ⟨⟨?_, hb.fullScans, hb.keyScans⟩, trivial⟩
  rintro ⟨k, i⟩ r hr
  change (Batch.flushSlots b.session b.cache).lookup (k, i) = some (.found r) at hr
  rw [Batch.lookup_flushSlots] at hr
  split at hr
  · next hi =>
    rw [Option.some_inj] at hr
    unfold Session.keyedAnswer Session.answer at hr
    split at hr
    · cases hr
    · rw [ofAnswer_keyedCall _ _ hi] at hr
      cases hg : b.session.store.get k i with
      | none => simp [hg, Slot.ofLookup] at hr
      | some x =>
        rw [hg, Slot.ofLookup, Slot.found.injEq] at hr
        subst hr
        exact Store.kind_of_get hg
  · exact hb.slots _ r hr

/-- Resolving a key gives a record of the key's kind when it finds one. -/
theorem keepsKinds_resolve (kind : RecordKind) (id : RecordId) :
    KeepsKinds (Batch.resolve kind id) fun s ↦ ∀ r, s = .found r → r.kind = kind := by
  intro b hb
  cases hl : b.cache.slots.lookup (kind, id) with
  | some s =>
    rw [Batch.run_resolve_of_lookup_eq_some b hl]
    exact ⟨hb, fun r hr ↦ hb.slots _ r (hl.trans (congrArg some hr))⟩
  | none =>
    -- the key is sent with its window, and read from its slot after the flush
    rw [Batch.run_resolve_of_lookup_eq_none b hl]
    have hb' := (keepsKinds_flush _ (keepsKinds_enqueue kind id b hb).1).1
    refine ⟨hb', fun r hr ↦ ?_⟩
    cases hs : (Batch.flush.run ((Batch.enqueue kind id).run b).2).2.cache.slots.lookup
        (kind, id) with
    | none =>
      rw [hs, Option.getD_none] at hr
      cases hr
    | some s =>
      rw [hs, Option.getD_some] at hr
      subst hr
      exact hb'.slots _ _ hs

/-! ### The first phase of a field -/

/-- The records a first-phase value holds, and the keys it waits for, are of kind `k`; a leaf
value holds none. -/
def Resolution.OfKind (k : Option RecordKind) : Resolution → Prop
  | .value _ => True
  | .record r => ∀ x ∈ r, some x.kind = k
  | .records rs => ∀ x ∈ rs, some x.kind = k
  | .deferred kind _ | .deferredList kind _ => some kind = k

/-- An error of the store. -/
def ResolveError.IsStore (e : ResolveError) : Prop :=
  ∃ se, e = .store se

/-- An error that resolving a field can give on an object of the type it is selected on: an
error of the store, or the refusal of a root look-up's `id` argument. -/
def ResolveError.FromStoreOrId (fd : FieldDef) (f : Field) (e : ResolveError) : Prop :=
  e.IsStore ∨ ∃ kind, fd.resolver = .rootLookup kind ∧ lookupId kind f = .error e

/-- A first-phase result that, when it succeeded, holds or waits for records of kind `k`, and
that failed only with an error with property `E`. -/
structure ResultOfKind (k : Option RecordKind) (E : ResolveError → Prop)
    (res : Except ResolveError Resolution) : Prop where
  ok : ∀ r, res = .ok r → r.OfKind k
  error : ∀ e, res = .error e → E e

namespace ResultOfKind

variable {k : Option RecordKind} {E : ResolveError → Prop}

theorem of_ok {r : Resolution} (h : r.OfKind k) : ResultOfKind k E (.ok r) :=
  ⟨fun _ hr ↦ by cases hr; exact h, fun _ he ↦ nomatch he⟩

theorem of_error {e : ResolveError} (h : E e) : ResultOfKind k E (.error e) :=
  ⟨fun _ hr ↦ (nomatch hr), fun _ he ↦ by cases he; exact h⟩

theorem mono {E' : ResolveError → Prop} {res : Except ResolveError Resolution}
    (h : ResultOfKind k E res) (hE : ∀ e, E e → E' e) : ResultOfKind k E' res :=
  ⟨h.ok, fun e he ↦ hE e (h.error e he)⟩

end ResultOfKind

theorem keepsKinds_defer (kind : RecordKind) (id : RecordId) :
    KeepsKinds (defer kind id) fun res ↦ res.OfKind (some kind) := by
  unfold defer
  exact (keepsKinds_enqueue kind id).bind fun _ _ ↦ KeepsKinds.pure rfl

theorem keepsKinds_deferUsers (ids : List Uuid) :
    KeepsKinds (deferUsers ids) fun res ↦ res.OfKind (some .user) := by
  unfold deferUsers
  exact (keepsKinds_forM_enqueue _ _).bind fun _ _ ↦ KeepsKinds.pure rfl

/-- A scan read as a field's result: its records as the field gives them, or its failure. -/
theorem resultOfKind_scan {k : RecordKind} {r : Except StoreError (List Record)}
    (hr : ScanOfKind k r) (g : List Record → Resolution)
    (hg : ∀ rs, (∀ x ∈ rs, x.kind = k) → (g rs).OfKind (some k)) :
    ResultOfKind (some k) ResolveError.IsStore ((r.mapError ResolveError.store).map g) := by
  cases r with
  | ok rs => exact .of_ok (hg rs hr)
  | error se => exact .of_error ⟨se, rfl⟩

/-- Following a relation from a record of the kind it starts from gives, or waits for, records
of the kind it leads to, and fails only when a scan fails. -/
theorem keepsKinds_follow (t : ObjectType) (f : Field) (rel : Relation) {x : Record}
    (hx : x.kind = rel.source) :
    KeepsKinds (follow t f rel (some x)) (ResultOfKind (some rel.target) ResolveError.IsStore) := by
  -- a record of another kind than the relation starts from is ruled out by `hx`
  cases rel <;> cases x <;> cases hx <;> simp only [follow]
  case profileMemberType.profile | postAuthor.post =>
    exact (keepsKinds_defer _ _).map fun _ h ↦ .of_ok h
  case userProfile.user u =>
    exact (keepsKinds_scanByForeignKey _ _).bind fun r hr ↦ KeepsKinds.pure
      (resultOfKind_scan hr (Resolution.record ∘ List.head?) fun _ hrs x hx ↦
        by rw [hrs x (List.mem_of_mem_head? hx)])
  case userPosts.user u =>
    exact (keepsKinds_scanByForeignKey _ _).bind fun r hr ↦ KeepsKinds.pure
      (resultOfKind_scan hr Resolution.records fun _ hrs x hx ↦ by rw [hrs x hx])
  case userSubscribedTo.user | userSubscribedFrom.user =>
    -- the subscription rows give user keys to wait for
    refine (keepsKinds_scanAssociation _ _).bind fun r _ ↦ ?_
    cases r with
    | ok rows => exact (keepsKinds_deferUsers _).map fun _ h ↦ .of_ok h
    | error se => exact KeepsKinds.pure (.of_error ⟨se, rfl⟩)

/-- A field of the schema selected on an object of its type: below the root, the object's
record is of the kind the type exposes. -/
structure OnTypedObject (t : ObjectType) (fd : FieldDef) (f : Field) (o : Option Record) :
    Prop where
  field : t.field f.name = some fd
  record : t ≠ .query → ∃ r, o = some r ∧ ObjectType.ofKind r.kind = t

namespace OnTypedObject

variable {t : ObjectType} {fd : FieldDef} {f : Field} {o : Option Record}

/-- A declared scalar is a column of the object's record. -/
theorem isSome_scalar (h : OnTypedObject t fd f o) (hs : fd.resolver = .scalar) :
    (o.bind (·.scalar f.name)).isSome := by
  obtain ⟨hq, hcolumn⟩ := ObjectType.isSome_scalar_of_field h.field hs
  obtain ⟨r, rfl, hr⟩ := h.record hq
  exact hcolumn r hr

/-- A relation starts from the object's record. -/
theorem kind_eq_source (h : OnTypedObject t fd f o) {rel : Relation}
    (hr : fd.resolver = .relation rel) : ∃ r, o = some r ∧ r.kind = rel.source := by
  have ht := ObjectType.eq_ofKind_source_of_field h.field hr
  obtain ⟨r, rfl, hkind⟩ := h.record (ht ▸ ObjectType.ofKind_ne_query _)
  rw [ht, ObjectType.ofKind_inj] at hkind
  exact ⟨r, rfl, hkind⟩

end OnTypedObject

/-- The first phase of a field of the schema on an object of its type: the object's record has
the column a scalar reads and is of the kind a relation starts from, so the field gives, or
waits for, records of the kind it fetches, and fails only by the store or by a refused `id`. -/
theorem keepsKinds_resolveField {t : ObjectType} {fd : FieldDef} {f : Field} {o : Option Record}
    (h : OnTypedObject t fd f o) :
    KeepsKinds (resolveField t fd f o)
      (ResultOfKind fd.resolver.fetches (ResolveError.FromStoreOrId fd f)) := by
  obtain ⟨resolver, shape, nullable⟩ := fd
  cases resolver with
  | typename => exact KeepsKinds.pure (.of_ok trivial)
  | scalar =>
    obtain ⟨v, hv⟩ := Option.isSome_iff_exists.mp (h.isSome_scalar rfl)
    simp only [resolveField, hv]
    exact KeepsKinds.pure (.of_ok trivial)
  | rootList kind =>
    simp only [resolveField]
    exact (keepsKinds_scanAll kind).bind fun r hr ↦ KeepsKinds.pure
      ((resultOfKind_scan hr Resolution.records fun _ hrs x hx ↦ by rw [hrs x hx]).mono
        fun _ h ↦ .inl h)
  | rootLookup kind =>
    simp only [resolveField]
    cases hid : lookupId kind f with
    | ok id => exact (keepsKinds_defer kind id).map fun _ h ↦ .of_ok h
    | error e => exact KeepsKinds.pure (.of_error (.inr ⟨kind, rfl, hid⟩))
  | relation rel =>
    obtain ⟨x, rfl, hx⟩ := h.kind_eq_source rfl
    exact (keepsKinds_follow t f rel hx).mono fun _ h ↦ h.mono fun _ he ↦ .inl he

/-! ### Settling -/

/-- An outcome whose objects are records of kind `k`, and that failed only with an error with
property `E`. -/
structure OutcomeOfKind (k : Option RecordKind) (E : ResolveError → Prop) (o : Outcome) :
    Prop where
  records : ∀ r ∈ o.records, some r.kind = k
  error : ∀ e, o = .error e → E e

namespace OutcomeOfKind

variable {k : Option RecordKind} {E : ResolveError → Prop}

theorem of_records {s : Settled} (h : ∀ r ∈ Outcome.records (.ok s), some r.kind = k) :
    OutcomeOfKind k E (.ok s) :=
  ⟨h, fun _ he ↦ nomatch he⟩

theorem of_error {e : ResolveError} (h : E e) : OutcomeOfKind k E (.error e) :=
  ⟨fun _ hr ↦ by simp [Outcome.records] at hr, fun _ he ↦ by cases he; exact h⟩

end OutcomeOfKind

/-- Settling a list of keys keeps the records found, which are of the keys' kind. -/
theorem keepsKinds_settleKeys (kind : RecordKind) (ids : List RecordId) {acc : List Record}
    (hacc : ∀ x ∈ acc, x.kind = kind) :
    KeepsKinds (settleKeys kind ids acc) fun res ↦
      (∀ rs, res = .ok rs → ∀ x ∈ rs, x.kind = kind) ∧ ∀ e, res = .error e → e.IsStore := by
  induction ids generalizing acc with
  | nil =>
    refine KeepsKinds.pure ⟨fun rs h x hx ↦ ?_, fun e h ↦ by cases h⟩
    cases h
    exact hacc x (List.mem_reverse.mp hx)
  | cons id ids ih =>
    rw [settleKeys]
    refine (keepsKinds_resolve kind id).bind fun s hs ↦ ?_
    cases s with
    | found r => exact ih (List.forall_mem_cons.mpr ⟨hs r rfl, hacc⟩)
    | missing => exact ih hacc
    | failed se => exact KeepsKinds.pure ⟨fun rs h ↦ (by cases h), fun e h ↦ ⟨se, by cases h; rfl⟩⟩

/-- Settling a first-phase value of kind `k` gives objects of kind `k`, and fails only by the
store. -/
theorem keepsKinds_settle {k : Option RecordKind} {r : Resolution} (hr : r.OfKind k) :
    KeepsKinds r.settle (OutcomeOfKind k ResolveError.IsStore) := by
  cases r with
  | value v => exact KeepsKinds.pure (.of_records fun x hx ↦ by simp [Outcome.records] at hx)
  | record r =>
    refine KeepsKinds.pure (.of_records fun x hx ↦ hr x ?_)
    cases r <;> simp_all [Outcome.records]
  | records rs => exact KeepsKinds.pure (.of_records hr)
  | deferred kind id =>
    refine (keepsKinds_resolve kind id).bind fun s hs ↦ ?_
    cases s with
    | found x =>
      refine KeepsKinds.pure (.of_records fun y hy ↦ ?_)
      rw [List.mem_singleton.mp hy, hs x rfl]
      exact hr
    | missing => exact KeepsKinds.pure (.of_records fun y hy ↦ by simp [Outcome.records] at hy)
    | failed se => exact KeepsKinds.pure (.of_error ⟨se, rfl⟩)
  | deferredList kind ids =>
    refine (keepsKinds_settleKeys kind ids fun _ hx ↦ (List.not_mem_nil hx).elim).bind
      fun res h ↦ ?_
    cases res with
    | ok rs =>
      refine KeepsKinds.pure (.of_records fun x hx ↦ ?_)
      rw [h.1 rs rfl x hx]
      exact hr
    | error e => exact KeepsKinds.pure (.of_error (h.2 e rfl))

theorem keepsKinds_settleOutcome {k : Option RecordKind} {E : ResolveError → Prop}
    {res : Except ResolveError Resolution} (h : ResultOfKind k E res)
    (hE : ∀ e, e.IsStore → E e) : KeepsKinds (settleOutcome res) (OutcomeOfKind k E) := by
  cases res with
  | ok r =>
    exact (keepsKinds_settle (h.ok r rfl)).mono fun _ ho ↦
      ⟨ho.records, fun e he ↦ hE e (ho.error e he)⟩
  | error e => exact KeepsKinds.pure (.of_error (h.error e rfl))

/-! ### Typed groups -/

/-- The objects of a group below the root carry records of the kind its type exposes. -/
def Group.Typed (g : Group) : Prop :=
  g.object ≠ .query →
    ∀ n ∈ g.parents, ∃ r, n.record = some r ∧ ObjectType.ofKind r.kind = g.object

/-- A task of a level of typed groups resolves a field of the schema on an object of the
field's type. -/
theorem typed_of_mem_levelTasks {groups : List Group} (hg : ∀ g ∈ groups, g.Typed)
    {t : ObjectType} {fd : FieldDef} {f : Field} {o : Option Record}
    (h : (t, fd, f, o) ∈ levelTasks (groups.map fun g ↦ (g, collectFields g.object g.selection))) :
    OnTypedObject t fd f o := by
  simp only [levelTasks, List.mem_flatMap] at h
  obtain ⟨gp, hgp, p, hp, hτ⟩ := h
  obtain ⟨g, hg', rfl⟩ := List.mem_map.mp hgp
  cases hdef : p.definition with
  | error e => simp [hdef] at hτ
  | ok fd' =>
    simp only [hdef, List.mem_map, Prod.mk.injEq] at hτ
    obtain ⟨n, hn, rfl, rfl, rfl, rfl⟩ := hτ
    exact ⟨field_of_fieldDef ((definition_of_mem_collectFields hp).symm.trans hdef),
      fun hq ↦ hg g hg' hq n hn⟩

/-- The objects an outcome gives carry records of the type its task's field gives objects
of. -/
def TypedOutcome (task : ObjectType × FieldDef × Field × Option Record) (o : Outcome) : Prop :=
  ∀ r ∈ o.records, task.2.1.shape.objectType = some (ObjectType.ofKind r.kind)

/-- Laying out a planned field takes its outcomes off the front of the queue, and the group it
adds to the next level is typed when those outcomes are. -/
theorem layoutField_typed (g : Group) (p : Planned) {lay : Layout}
    {rest : List (ObjectType × FieldDef × Field × Option Record)}
    (hq : List.Forall₂ TypedOutcome (fieldTasks g p ++ rest) lay.queue) :
    List.Forall₂ TypedOutcome rest (layoutField g lay p).1.queue ∧
      ∃ more, (layoutField g lay p).1.next = lay.next ++ more ∧ ∀ g' ∈ more, g'.Typed := by
  unfold layoutField
  cases hdef : p.definition with
  | error e => exact ⟨by simpa [fieldTasks, hdef] using hq, [], by simp, by simp⟩
  | ok fd =>
    have htasks : fieldTasks g p = g.parents.map fun n ↦ (g.object, fd, p.field, n.record) := by
      simp [fieldTasks, hdef]
    rw [htasks] at hq
    have hlen : (g.parents.map fun n ↦ (g.object, fd, p.field, n.record)).length =
        g.parents.length := List.length_map ..
    have hos := List.forall₂_take g.parents.length hq
    have hrest := List.forall₂_drop g.parents.length hq
    rw [List.take_left' hlen] at hos
    rw [List.drop_left' hlen] at hrest
    generalize lay.queue.take g.parents.length = os at hos
    have hoslen : g.parents.length = os.length := by simpa using hos.length_eq
    rw [List.forall₂_map_left_iff] at hos
    -- every object of the column carries a record one of its outcomes gave
    have hkinds : ∀ m ∈ (columnOf p g.parents os).children,
        ∃ r, m.record = some r ∧ fd.shape.objectType = some (ObjectType.ofKind r.kind) := by
      intro m hm
      have hrec : m.record ∈ (os.flatMap Outcome.records).map some := by
        rw [← (columnOf_spec p g.parents os hoslen).2]
        exact List.mem_map_of_mem hm
      obtain ⟨r, hr, hmr⟩ := List.mem_map.mp hrec
      obtain ⟨o, ho, hro⟩ := List.mem_flatMap.mp hr
      exact ⟨r, hmr.symm, forall_of_forall₂ (fun o : Outcome ↦ ∀ r ∈ o.records,
        fd.shape.objectType = some (ObjectType.ofKind r.kind)) (fun _ _ h ↦ h) hos o ho r hro⟩
    dsimp only
    cases hc : p.childType with
    | none => exact ⟨hrest, [], by simp, by simp⟩
    | some c =>
      dsimp only
      split
      · exact ⟨hrest, [], by simp, by simp⟩
      · -- the objects given form one group, of the field's type
        refine ⟨hrest, _, rfl, fun g' hg' _ m hm ↦ ?_⟩
        rw [List.mem_singleton.mp hg'] at hm ⊢
        obtain ⟨r, hmr, hshape⟩ := hkinds m hm
        rw [← Planned.childType_eq hdef, hc, Option.some_inj] at hshape
        exact ⟨r, hmr, hshape.symm⟩

theorem layoutFields_typed (g : Group) (plan : List Planned) {lay : Layout}
    {rest : List (ObjectType × FieldDef × Field × Option Record)}
    (hq : List.Forall₂ TypedOutcome (plan.flatMap (fieldTasks g) ++ rest) lay.queue) :
    List.Forall₂ TypedOutcome rest (layoutFields g plan lay).1.queue ∧
      ∃ more, (layoutFields g plan lay).1.next = lay.next ++ more ∧ ∀ g' ∈ more, g'.Typed := by
  induction plan generalizing lay with
  | nil => exact ⟨by simpa [layoutFields] using hq, [], by simp [layoutFields], by simp⟩
  | cons p ps ih =>
    obtain ⟨hq₁, more₁, hnext₁, hmore₁⟩ :=
      layoutField_typed g p (by rwa [List.flatMap_cons, List.append_assoc] at hq)
    obtain ⟨hq₂, more₂, hnext₂, hmore₂⟩ := ih hq₁
    have hrun : (layoutFields g (p :: ps) lay).1 =
        (layoutFields g ps (layoutField g lay p).1).1 := by
      simp only [layoutFields]
    rw [hrun]
    exact ⟨hq₂, more₁ ++ more₂, by rw [hnext₂, hnext₁, List.append_assoc],
      List.forall_mem_append.mpr ⟨hmore₁, hmore₂⟩⟩

theorem layoutGroups_typed (planned : List (Group × List Planned)) {lay : Layout}
    {rest : List (ObjectType × FieldDef × Field × Option Record)}
    (hq : List.Forall₂ TypedOutcome (levelTasks planned ++ rest) lay.queue) :
    List.Forall₂ TypedOutcome rest (layoutGroups planned lay).1.queue ∧
      ∃ more, (layoutGroups planned lay).1.next = lay.next ++ more ∧ ∀ g' ∈ more, g'.Typed := by
  induction planned generalizing lay with
  | nil => exact ⟨by simpa [levelTasks, layoutGroups] using hq, [], by simp [layoutGroups], by simp⟩
  | cons gp planned ih =>
    obtain ⟨hq₁, more₁, hnext₁, hmore₁⟩ := layoutFields_typed gp.1 gp.2
      (by rwa [levelTasks_eq, List.flatMap_cons, List.append_assoc] at hq)
    obtain ⟨hq₂, more₂, hnext₂, hmore₂⟩ := ih (by rwa [levelTasks_eq])
    have hrun : (layoutGroups (gp :: planned) lay).1 =
        (layoutGroups planned (layoutFields gp.1 gp.2 lay).1).1 := by
      simp only [layoutGroups]
    rw [hrun]
    exact ⟨hq₂, more₁ ++ more₂, by rw [hnext₂, hnext₁, List.append_assoc],
      List.forall_mem_append.mpr ⟨hmore₁, hmore₂⟩⟩

/-! ### The levels of a run -/

theorem keepsKinds_resolveTask {task : ObjectType × FieldDef × Field × Option Record}
    (h : OnTypedObject task.1 task.2.1 task.2.2.1 task.2.2.2) :
    KeepsKinds (resolveTask task) (ResultOfKind task.2.1.resolver.fetches
      (ResolveError.FromStoreOrId task.2.1 task.2.2.1)) := by
  obtain ⟨t, fd, f, o⟩ := task
  exact keepsKinds_resolveField h

/-- One level from a kinded batch, over typed groups: the first phase gives for each task a
result of the kind its field fetches, failing only by the store or by a refused `id`; settling
gives objects of that kind and fails in no other way; the groups of the next level are typed;
and the batch stays kinded. -/
theorem levelRun_typed {groups : List Group} {b : Batch} (hb : b.KindsKept)
    (hg : ∀ g ∈ groups, g.Typed) :
    (levelRun groups b).settled.KindsKept ∧ (∀ g ∈ (levelRun groups b).next, g.Typed) ∧
      List.Forall₂ (fun task ↦ ResultOfKind task.2.1.resolver.fetches
        (ResolveError.FromStoreOrId task.2.1 task.2.2.1))
        (levelRun groups b).tasks (levelRun groups b).results ∧
      List.Forall₂ (fun task ↦ OutcomeOfKind task.2.1.resolver.fetches
        (ResolveError.FromStoreOrId task.2.1 task.2.2.1))
        (levelRun groups b).tasks (levelRun groups b).outcomes := by
  generalize hl : levelRun groups b = l
  have htasks : ∀ task ∈ l.tasks, OnTypedObject task.1 task.2.1 task.2.2.1 task.2.2.2 := by
    rintro ⟨t, fd, f, o⟩ h
    rw [← hl] at h
    exact typed_of_mem_levelTasks hg h
  -- the first phase runs the tasks in turn, the flush and the settling keep the batch kinded
  have hfirst : ∀ c a, (c = a ∧ a ∈ l.tasks) → KeepsKinds (resolveTask a)
      (ResultOfKind c.2.1.resolver.fetches (ResolveError.FromStoreOrId c.2.1 c.2.2.1)) := by
    rintro c a ⟨rfl, ha⟩
    exact keepsKinds_resolveTask (htasks c ha)
  have hsecond : ∀ (c : ObjectType × FieldDef × Field × Option Record) res,
      ResultOfKind c.2.1.resolver.fetches (ResolveError.FromStoreOrId c.2.1 c.2.2.1) res →
      KeepsKinds (settleOutcome res)
        (OutcomeOfKind c.2.1.resolver.fetches (ResolveError.FromStoreOrId c.2.1 c.2.2.1)) :=
    fun _ _ h ↦ keepsKinds_settleOutcome h fun _ he ↦ .inl he
  obtain ⟨hphased, hresults⟩ :=
    keepsKinds_mapM hfirst (List.forall₂_same.mpr fun τ hτ ↦ ⟨rfl, hτ⟩) l.start (hl ▸ hb)
  have hflushed := (keepsKinds_flush _ hphased).1
  obtain ⟨hsettled, houtcomes⟩ := keepsKinds_mapM hsecond hresults _ hflushed
  subst hl
  refine ⟨hsettled, ?_, hresults, houtcomes⟩
  -- the objects each outcome gives are of its field's type, so the next level's groups are
  have htyped : List.Forall₂ TypedOutcome (levelRun groups b).tasks
      (levelRun groups b).outcomes :=
    ((List.forall₂_and_left _ _).mpr ⟨htasks, houtcomes⟩).imp fun _ _ ⟨ht, ho⟩ r hr ↦ by
      rw [ObjectType.objectType_field ht.field, ← ho.records r hr, Option.map_some]
  have hq : List.Forall₂ TypedOutcome (levelTasks (levelRun groups b).planned ++ [])
      (⟨(levelRun groups b).outcomes, [], []⟩ : Layout).queue := by
    rw [List.append_nil]
    exact htyped
  obtain ⟨-, more, hnext, hmore⟩ := layoutGroups_typed (levelRun groups b).planned hq
  intro g hg'
  rw [LevelRun.next, hnext, List.nil_append] at hg'
  exact hmore g hg'

/-- Every level of a run from a kinded batch and typed groups keeps its groups typed, and its
results and outcomes of the kinds their fields fetch. -/
theorem levelRuns_typed (fuel : Nat) {groups : List Group} {b : Batch} (hb : b.KindsKept)
    (hg : ∀ g ∈ groups, g.Typed) :
    ∀ l ∈ levelRuns fuel groups b, (∀ g ∈ l.groups, g.Typed) ∧
      List.Forall₂ (fun task ↦ ResultOfKind task.2.1.resolver.fetches
        (ResolveError.FromStoreOrId task.2.1 task.2.2.1)) l.tasks l.results ∧
      List.Forall₂ (fun task ↦ OutcomeOfKind task.2.1.resolver.fetches
        (ResolveError.FromStoreOrId task.2.1 task.2.2.1)) l.tasks l.outcomes := by
  induction fuel generalizing groups b with
  | zero => simp [levelRuns]
  | succ fuel ih =>
    intro l hl
    rw [levelRuns] at hl
    split at hl
    · cases hl
    · obtain ⟨hsettled, hnext, hresults, houtcomes⟩ := levelRun_typed hb hg
      rcases List.mem_cons.mp hl with rfl | hl
      · exact ⟨hg, hresults, houtcomes⟩
      · exact ih hsettled hnext l hl

/-- Records match the types of their groups. On every level of an execution, over any store and
with any failing calls, each object of a group below the root carries a record of the kind
the group's type exposes. So a declared scalar is always found on its record, a relation is
followed only from a record of the kind it starts from, and every error of a first phase or
of settling comes from the store or is a root look-up's refusal of its `id`. -/
theorem records_match_group_types (store : Store) (rules : List FailureRule)
    (selection : List Field) :
    ∀ l ∈ levelRuns (heightOf selection + 1) [⟨.query, selection, [⟨none, []⟩]⟩]
        (Batch.fresh store rules),
      (∀ g ∈ l.groups, g.object ≠ .query → ∀ n ∈ g.parents,
        ∃ r, n.record = some r ∧ ObjectType.ofKind r.kind = g.object) ∧
      (∀ t fd f o, (t, fd, f, o) ∈ l.tasks → fd.resolver = .scalar →
        (o.bind (·.scalar f.name)).isSome) ∧
      (∀ t fd f o, (t, fd, f, o) ∈ l.tasks → ∀ rel, fd.resolver = .relation rel →
        ∃ r, o = some r ∧ r.kind = rel.source) ∧
      List.Forall₂ (fun (task : ObjectType × FieldDef × Field × Option Record) res ↦
        ∀ e, res = .error e → e.FromStoreOrId task.2.1 task.2.2.1) l.tasks l.results ∧
      List.Forall₂ (fun (task : ObjectType × FieldDef × Field × Option Record) (o : Outcome) ↦
        ∀ e, o = .error e → e.FromStoreOrId task.2.1 task.2.2.1) l.tasks l.outcomes := by
  intro l hl
  -- the root is the one group of type `Query`, so it is typed with no record
  have hroot : ∀ g ∈ [(⟨.query, selection, [⟨none, []⟩]⟩ : Group)], g.Typed := by
    intro g hg hq
    rw [List.mem_singleton.mp hg] at hq
    exact absurd rfl hq
  obtain ⟨hgroups, hresults, houtcomes⟩ :=
    levelRuns_typed _ (kindsKept_fresh store rules) hroot l hl
  have htask : ∀ t fd f o, (t, fd, f, o) ∈ l.tasks → OnTypedObject t fd f o :=
    fun _ _ _ _ h ↦ typed_of_mem_levelTasks hgroups h
  exact ⟨hgroups, fun t fd f o h hs ↦ (htask t fd f o h).isSome_scalar hs,
    fun t fd f o h _ hr ↦ (htask t fd f o h).kind_eq_source hr,
    hresults.imp fun _ _ h ↦ h.error, houtcomes.imp fun _ _ h ↦ h.error⟩

/-- The users' names over the one-author dataset: the second level of the run, which holds the
user's record in a group of type `User`. -/
theorem oneAuthor_users_records_typed :
    let selection : List Field := [⟨none, "users", [], none, [⟨none, "name", [], none, []⟩]⟩]
    let root : List Group := [⟨.query, selection, [⟨none, []⟩]⟩]
    let first := levelRun root (Batch.fresh oneAuthor.store [])
    let l := levelRun first.next first.settled
    l ∈ levelRuns (heightOf selection + 1) root (Batch.fresh oneAuthor.store []) ∧
      (∀ g ∈ l.groups, g.object ≠ .query → ∀ n ∈ g.parents,
        ∃ r, n.record = some r ∧ ObjectType.ofKind r.kind = g.object) ∧
      (∀ t fd f o, (t, fd, f, o) ∈ l.tasks → fd.resolver = .scalar →
        (o.bind (·.scalar f.name)).isSome) ∧
      (∀ t fd f o, (t, fd, f, o) ∈ l.tasks → ∀ rel, fd.resolver = .relation rel →
        ∃ r, o = some r ∧ r.kind = rel.source) ∧
      List.Forall₂ (fun (task : ObjectType × FieldDef × Field × Option Record) res ↦
        ∀ e, res = .error e → e.FromStoreOrId task.2.1 task.2.2.1) l.tasks l.results ∧
      List.Forall₂ (fun (task : ObjectType × FieldDef × Field × Option Record) (o : Outcome) ↦
        ∀ e, o = .error e → e.FromStoreOrId task.2.1 task.2.2.1) l.tasks l.outcomes := by
  intro selection root first l
  -- the root level gives the group of users, so a second level runs
  have hnext : first.next.isEmpty = false := rfl
  have hmem : l ∈ levelRuns (heightOf selection + 1) root (Batch.fresh oneAuthor.store []) := by
    show _ ∈ levelRuns (2 + 1) root (Batch.fresh oneAuthor.store [])
    rw [levelRuns, if_neg (by decide)]
    show _ ∈ _ :: levelRuns (1 + 1) first.next first.settled
    rw [levelRuns, if_neg (by rw [hnext]; decide)]
    exact List.mem_cons_of_mem _ List.mem_cons_self
  exact ⟨hmem, records_match_group_types oneAuthor.store [] selection l hmem⟩

end SocialGraph
