import SocialGraph.Proofs.Refinement

/-!
# Keyed look-ups are sent once per level

Whatever the store holds and whichever of its calls fail, the calls an execution makes come
level by level (`keyed_lookups_batched_per_level`). Each level (`LevelRun`) first sends the
scans its tasks ask for, in task order (group, planned field, object), each scan once and only
when no earlier level made it (`Batch.levelScans`); then its one flush sends one keyed call for
each kind with keys waiting, kinds in their order, a single look-up exactly when one key waits.
The keys sent are exactly the keys the level's results wait for that have no slot by the end
of the first phase, and settling the results reads slots only, so it sends nothing. Hence an
execution makes at most four keyed calls per level, however many records it reads.

The first phase is described task by task (`Phased`): a task sends the scan it asks for unless
it is remembered, and puts in the window only the keys its result waits for. A level starts
with an empty window, since the flush before it emptied it, so its window after the first
phase holds the keys its results wait for and nothing else.
-/

namespace SocialGraph

deriving instance DecidableEq for StoreCall

/-! ### What a level asks of the store -/

/-- The scan a level task asks the store for, if any: a root list scans its kind, and the
profile, posts and subscriptions of a user are scanned by the user's key. Every other field is
a value at hand or waits for a key. -/
def scanRequest : ObjectType × FieldDef × Field × Option Record → Option StoreCall
  | (_, fd, _, o) =>
    match fd.resolver, o with
    | .rootList kind, _ => some (.scanAll kind)
    | .relation .userProfile, some (.user u) =>
      some (.scanByForeignKey .profileUser (.entity u.id))
    | .relation .userPosts, some (.user u) => some (.scanByForeignKey .postAuthor (.entity u.id))
    | .relation .userSubscribedTo, some (.user u) => some (.scanAssociation .subscriber u.id)
    | .relation .userSubscribedFrom, some (.user u) => some (.scanAssociation .author u.id)
    | _, _ => none

theorem isScan_of_scanRequest {task : ObjectType × FieldDef × Field × Option Record}
    {c : StoreCall} (h : scanRequest task = some c) : c.isScan := by
  obtain ⟨t, fd, f, o⟩ := task
  simp only [scanRequest] at h
  split at h <;> cases h <;> rfl

/-- The scans that tasks run from a batch send: every scan they ask for that the batch does not
remember, the first time it is asked for, in task order. -/
def Batch.levelScans (b : Batch) (tasks : List (ObjectType × FieldDef × Field × Option Record)) :
    List StoreCall :=
  ((tasks.filterMap scanRequest).filter fun c ↦ (b.cache.memo c).isNone).eraseDups

/-- The keys a first-phase result waits for. -/
def resultKeys : Except ResolveError Resolution → List (RecordKind × RecordId)
  | .ok r => r.keys
  | .error _ => []

/-- The keys the results of a first phase wait for, in order. -/
def waitingKeys (results : List (Except ResolveError Resolution)) : List (RecordKind × RecordId) :=
  results.flatMap resultKeys

/-! ### Remembered scans -/

namespace Cache

/-- What is remembered for a scan depends only on the three tables of scans. -/
theorem memo_congr {c c' : Cache} (hf : c'.fullScans = c.fullScans)
    (hk : c'.keyScans = c.keyScans) (hl : c'.linkScans = c.linkScans) : c'.memo = c.memo := by
  funext sc
  cases sc <;> simp [memo, hf, hk, hl]

variable (c : Cache) (slots : List ((RecordKind × RecordId) × Slot))

theorem isNone_memo_fullScans_cons (kind : RecordKind) (r : Except StoreError (List Record))
    (sc : StoreCall) :
    (({ c with fullScans := (kind, r) :: c.fullScans, slots := slots } : Cache).memo sc).isNone ↔
      (c.memo sc).isNone ∧ StoreCall.scanAll kind ≠ sc := by
  cases sc with
  | scanAll k =>
    by_cases hk : k = kind
    · subst hk
      simp [memo]
    · simp [memo, List.lookup_cons, beq_false_of_ne hk, Ne.symm hk]
  | _ => simp [memo]

theorem isNone_memo_keyScans_cons (key : ForeignKey × RecordId)
    (r : Except StoreError (List Record)) (sc : StoreCall) :
    (({ c with keyScans := (key, r) :: c.keyScans, slots := slots } : Cache).memo sc).isNone ↔
      (c.memo sc).isNone ∧ StoreCall.scanByForeignKey key.1 key.2 ≠ sc := by
  cases sc with
  | scanByForeignKey fk value =>
    by_cases hk : (fk, value) = key
    · subst hk
      simp [memo]
    · have hne : ¬(key.1 = fk ∧ key.2 = value) := fun h ↦ hk (by rw [← h.1, ← h.2])
      simp [memo, List.lookup_cons, beq_false_of_ne hk, hne]
  | _ => simp [memo]

theorem isNone_memo_linkScans_cons (key : SubscriptionEnd × Uuid)
    (r : Except StoreError (List Subscription)) (sc : StoreCall) :
    (({ c with linkScans := (key, r) :: c.linkScans } : Cache).memo sc).isNone ↔
      (c.memo sc).isNone ∧ StoreCall.scanAssociation key.1 key.2 ≠ sc := by
  cases sc with
  | scanAssociation e user =>
    by_cases hk : (e, user) = key
    · subst hk
      simp [memo]
    · have hne : ¬(key.1 = e ∧ key.2 = user) := fun h ↦ hk (by rw [← h.1, ← h.2])
      simp [memo, List.lookup_cons, beq_false_of_ne hk, hne]
  | _ => simp [memo]

end Cache

/-! ### One step of a first phase -/

/-- A first-phase step from `b` to `b'` that asks for the scan `req` and waits for `keys`: it
extends the batch; it sends the scan when the batch does not remember it, and nothing else;
afterwards the scan is remembered and every other scan is as it was; and the keys it puts in
the window are keys it waits for, each of which waits or has a slot after it. -/
structure Phased (b : Batch) (req : Option StoreCall) (keys : List (RecordKind × RecordId))
    (b' : Batch) : Prop where
  extends_ : Batch.Extends b b'
  calls : b'.session.calls = b.session.calls ++ req.toList.filter fun c ↦ (b.cache.memo c).isNone
  memo : ∀ c, (b'.cache.memo c).isNone ↔ (b.cache.memo c).isNone ∧ req ≠ some c
  pending : ∀ key ∈ b'.cache.pending, key ∈ b.cache.pending ∨ key ∈ keys
  waits : ∀ key ∈ keys, key ∈ b'.cache.pending ∨ (b'.cache.slots.lookup key).isSome

namespace Phased

variable {b b₁ b₂ : Batch}

theorem refl (b : Batch) : Phased b none [] b :=
  ⟨.refl b, by simp, by simp, fun _ h ↦ Or.inl h, by simp⟩

/-- A step that asks for a scan, followed by one that asks for none. -/
theorem trans {req : Option StoreCall} {keys₁ keys₂ : List (RecordKind × RecordId)}
    (h₁ : Phased b req keys₁ b₁) (h₂ : Phased b₁ none keys₂ b₂) :
    Phased b req (keys₁ ++ keys₂) b₂ := by
  refine ⟨h₁.extends_.trans h₂.extends_, by simp [h₂.calls, h₁.calls], ?_, ?_, ?_⟩
  · intro c
    rw [h₂.memo c, h₁.memo c]
    simp
  · intro key hkey
    rcases h₂.pending key hkey with hkey | hkey
    · rcases h₁.pending key hkey with hkey | hkey
      · exact Or.inl hkey
      · exact Or.inr (List.mem_append_left _ hkey)
    · exact Or.inr (List.mem_append_right _ hkey)
  · intro key hkey
    rcases List.mem_append.mp hkey with hkey | hkey
    · exact h₂.extends_.waiting key (h₁.waits key hkey)
    · exact h₂.waits key hkey

/-- A scan the batch remembers: the step sends nothing and changes no memo and no window. -/
theorem of_remembered {sc : StoreCall} (hext : Batch.Extends b b₁)
    (hsession : b₁.session = b.session) (hmemo : b₁.cache.memo = b.cache.memo)
    (hpending : b₁.cache.pending = b.cache.pending) (hsc : (b.cache.memo sc).isSome) :
    Phased b (some sc) [] b₁ := by
  have hnone : (b.cache.memo sc).isNone = false := by simpa using hsc
  refine ⟨hext, by simp [hsession, hnone], ?_, by simp [hpending], by simp⟩
  intro c
  rw [hmemo]
  constructor
  · intro hc
    refine ⟨hc, fun heq ↦ ?_⟩
    cases heq
    simp [hnone] at hc
  · exact fun h ↦ h.1

/-- A scan the batch does not remember: the step sends it and remembers it. -/
theorem of_call {sc : StoreCall} (hext : Batch.Extends b b₁)
    (hcalls : b₁.session.calls = b.session.calls ++ [sc]) (hfresh : b.cache.memo sc = none)
    (hmemo : ∀ c, (b₁.cache.memo c).isNone ↔ (b.cache.memo c).isNone ∧ sc ≠ c)
    (hpending : b₁.cache.pending = b.cache.pending) : Phased b (some sc) [] b₁ := by
  refine ⟨hext, by simp [hcalls, hfresh], ?_, by simp [hpending], by simp⟩
  intro c
  rw [hmemo c]
  simp

/-- The first step of a program asks for a scan and waits for nothing, and the rest asks for
no scan. -/
theorem bind {α : Type} {m : StateM Batch α} {k : α → StateM Batch (Except ResolveError Resolution)}
    {req : Option StoreCall} (hm : Phased b req [] (m.run b).2)
    (hk : Phased (m.run b).2 none (resultKeys ((k (m.run b).1).run (m.run b).2).1)
      ((k (m.run b).1).run (m.run b).2).2) :
    Phased b req (resultKeys ((m >>= k).run b).1) ((m >>= k).run b).2 := by
  have hrun : (m >>= k).run b = (k (m.run b).1).run (m.run b).2 := by
    simp [StateT.run_bind]
  rw [hrun]
  simpa using hm.trans hk

/-- A program that gives a result waiting for nothing and leaves the batch as it is. -/
theorem pure (b : Batch) (res : Except ResolveError Resolution) (hres : resultKeys res = []) :
    Phased b none (resultKeys ((Pure.pure res : StateM Batch _).run b).1)
      ((Pure.pure res : StateM Batch _).run b).2 := by
  simpa [hres] using refl b

end Phased

/-! ### The operations of a first phase -/

section Operations

variable (b : Batch)

theorem phased_enqueue (kind : RecordKind) (id : RecordId) :
    Phased b none [(kind, id)] ((Batch.enqueue kind id).run b).2 := by
  have hext := (stepOk_enqueue b kind id).extends_
  refine ⟨hext, ?_, ?_, ?_, ?_⟩
  · rw [Batch.run_enqueue]
    split <;> simp
  · intro c
    rw [Batch.run_enqueue]
    split <;> exact ⟨fun h ↦ ⟨h, nofun⟩, fun h ↦ h.1⟩
  · intro key hkey
    rw [Batch.run_enqueue] at hkey
    split at hkey
    · rcases List.mem_append.mp hkey with hkey | hkey
      · exact Or.inl hkey
      · exact Or.inr hkey
    · exact Or.inl hkey
  · intro key hkey
    rw [List.mem_singleton.mp hkey]
    exact enqueue_waiting b kind id

theorem phased_forM_enqueue (kind : RecordKind) (ids : List RecordId) :
    Phased b none (ids.map (kind, ·)) ((ids.forM (Batch.enqueue kind)).run b).2 := by
  induction ids generalizing b with
  | nil => exact Phased.refl b
  | cons id ids ih =>
    have hrun : ((id :: ids).forM (Batch.enqueue kind)).run b =
        (ids.forM (Batch.enqueue kind)).run ((Batch.enqueue kind id).run b).2 := by
      simp [List.forM_cons, StateT.run_bind]
    rw [hrun, List.map_cons]
    exact (phased_enqueue b kind id).trans (ih _)

theorem phased_scanAll (kind : RecordKind) :
    Phased b (some (.scanAll kind)) [] ((Batch.scanAll kind).run b).2 := by
  have hext := extends_scanAll b kind
  cases hl : b.cache.fullScans.lookup kind with
  | some r =>
    rw [Batch.run_scanAll_of_lookup_eq_some b hl] at hext ⊢
    exact Phased.of_remembered hext rfl (Cache.memo_congr rfl rfl rfl) rfl
      (by simp [Cache.memo, hl])
  | none =>
    rw [Batch.run_scanAll_of_lookup_eq_none b hl] at hext ⊢
    refine Phased.of_call hext (by simp [Session.calls]) (by simp [Cache.memo, hl])
      (Cache.isNone_memo_fullScans_cons _ _ _ _) rfl

theorem phased_scanByForeignKey (fk : ForeignKey) (value : RecordId) :
    Phased b (some (.scanByForeignKey fk value)) []
      ((Batch.scanByForeignKey fk value).run b).2 := by
  have hext := extends_scanByForeignKey b fk value
  cases hl : b.cache.keyScans.lookup (fk, value) with
  | some r =>
    rw [Batch.run_scanByForeignKey_of_lookup_eq_some b hl] at hext ⊢
    exact Phased.of_remembered hext rfl (Cache.memo_congr rfl rfl rfl) rfl
      (by simp [Cache.memo, hl])
  | none =>
    rw [Batch.run_scanByForeignKey_of_lookup_eq_none b hl] at hext ⊢
    refine Phased.of_call hext (by simp [Session.calls]) (by simp [Cache.memo, hl])
      (Cache.isNone_memo_keyScans_cons _ _ (fk, value) _) rfl

theorem phased_scanAssociation (e : SubscriptionEnd) (user : Uuid) :
    Phased b (some (.scanAssociation e user)) [] ((Batch.scanAssociation e user).run b).2 := by
  have hext := extends_scanAssociation b e user
  cases hl : b.cache.linkScans.lookup (e, user) with
  | some r =>
    rw [Batch.run_scanAssociation_of_lookup_eq_some b hl] at hext ⊢
    exact Phased.of_remembered hext rfl rfl rfl (by simp [Cache.memo, hl])
  | none =>
    rw [Batch.run_scanAssociation_of_lookup_eq_none b hl] at hext ⊢
    refine Phased.of_call hext (by simp [Session.calls]) (by simp [Cache.memo, hl])
      (Cache.isNone_memo_linkScans_cons _ (e, user) _) rfl

end Operations

/-! ### The first phase of a level -/

section FirstPhase

variable (b : Batch)

theorem phased_defer (kind : RecordKind) (id : RecordId) :
    Phased b none
      (resultKeys
        ((Except.ok <$> defer kind id : StateM Batch (Except ResolveError Resolution)).run b).1)
      ((Except.ok <$> defer kind id : StateM Batch (Except ResolveError Resolution)).run b).2 := by
  have hrun : (Except.ok <$> defer kind id : StateM Batch (Except ResolveError Resolution)).run b =
      (.ok (.deferred kind id), ((Batch.enqueue kind id).run b).2) := by
    simp [defer]
  rw [hrun]
  exact phased_enqueue b kind id

theorem phased_deferUsers (ids : List Uuid) :
    Phased b none
      (resultKeys
        ((Except.ok <$> deferUsers ids : StateM Batch (Except ResolveError Resolution)).run b).1)
      ((Except.ok <$> deferUsers ids : StateM Batch (Except ResolveError Resolution)).run b).2 := by
  have hrun : (Except.ok <$> deferUsers ids : StateM Batch (Except ResolveError Resolution)).run b =
      (.ok (.deferredList .user (ids.map RecordId.entity)),
        (((ids.map RecordId.entity).forM (Batch.enqueue .user)).run b).2) := by
    simp [deferUsers]
  rw [hrun]
  exact phased_forM_enqueue b .user _

/-- Following a relation asks for the relation's scan, if it has one, and waits for the keys of
its result. -/
theorem phased_follow {t : ObjectType} {fd : FieldDef} {f : Field} {r : Relation}
    (hr : fd.resolver = .relation r) (o : Option Record) :
    Phased b (scanRequest (t, fd, f, o)) (resultKeys ((follow t f r o).run b).1)
      ((follow t f r o).run b).2 := by
  simp only [scanRequest, hr]
  -- every pair of relation and record the relation does not start from fails at once
  have hfail : Phased b none
      (resultKeys ((pure (.error (unknownField t f)) :
        StateM Batch (Except ResolveError Resolution)).run b).1)
      ((pure (.error (unknownField t f)) : StateM Batch (Except ResolveError Resolution)).run
        b).2 :=
    Phased.pure b _ rfl
  cases r <;> cases o <;> try exact hfail
  all_goals rename_i record
  all_goals cases record <;> try exact hfail
  case profileMemberType.some.profile p => exact phased_defer b _ _
  case postAuthor.some.post p => exact phased_defer b _ _
  case userProfile.some.user u =>
    refine Phased.bind (phased_scanByForeignKey b _ _) (Phased.pure _ _ ?_)
    cases ((Batch.scanByForeignKey .profileUser (.entity u.id)).run b).1 <;> rfl
  case userPosts.some.user u =>
    refine Phased.bind (phased_scanByForeignKey b _ _) (Phased.pure _ _ ?_)
    cases ((Batch.scanByForeignKey .postAuthor (.entity u.id)).run b).1 <;> rfl
  case userSubscribedTo.some.user u =>
    refine Phased.bind (phased_scanAssociation b _ _) ?_
    cases ((Batch.scanAssociation .subscriber u.id).run b).1 with
    | ok rows => exact phased_deferUsers _ _
    | error e => exact Phased.pure _ _ rfl
  case userSubscribedFrom.some.user u =>
    refine Phased.bind (phased_scanAssociation b _ _) ?_
    cases ((Batch.scanAssociation .author u.id).run b).1 with
    | ok rows => exact phased_deferUsers _ _
    | error e => exact Phased.pure _ _ rfl

/-- The first phase of a task asks for the task's scan, if it has one, and waits for the keys
of its result. -/
theorem phased_resolveTask (task : ObjectType × FieldDef × Field × Option Record) :
    Phased b (scanRequest task) (resultKeys ((resolveTask task).run b).1)
      ((resolveTask task).run b).2 := by
  obtain ⟨t, fd, f, o⟩ := task
  show Phased b _ (resultKeys ((resolveField t fd f o).run b).1) ((resolveField t fd f o).run b).2
  cases hr : fd.resolver with
  | typename =>
    simp only [resolveField, scanRequest, hr]
    exact Phased.pure b _ rfl
  | scalar =>
    simp only [resolveField, scanRequest, hr]
    exact Phased.pure b _ (by split <;> rfl)
  | rootList kind =>
    simp only [resolveField, scanRequest, hr]
    refine Phased.bind (phased_scanAll b kind) (Phased.pure _ _ ?_)
    cases ((Batch.scanAll kind).run b).1 <;> rfl
  | rootLookup kind =>
    simp only [resolveField, scanRequest, hr]
    cases lookupId kind f with
    | ok id => exact phased_defer b kind id
    | error e => exact Phased.pure b _ rfl
  | relation r =>
    simp only [resolveField, hr]
    exact phased_follow b hr o

end FirstPhase

theorem waitingKeys_cons (res : Except ResolveError Resolution)
    (results : List (Except ResolveError Resolution)) :
    waitingKeys (res :: results) = resultKeys res ++ waitingKeys results :=
  List.flatMap_cons

/-- A task's scans, then the rest's: the task sends its scan unless remembered, and the rest
send theirs unless remembered after it. -/
theorem levelScans_cons {b b' : Batch} {task : ObjectType × FieldDef × Field × Option Record}
    {keys : List (RecordKind × RecordId)} (h : Phased b (scanRequest task) keys b')
    (tasks : List (ObjectType × FieldDef × Field × Option Record)) :
    b.levelScans (task :: tasks) =
      ((scanRequest task).toList.filter fun c ↦ (b.cache.memo c).isNone) ++
        b'.levelScans tasks := by
  unfold Batch.levelScans
  cases hreq : scanRequest task with
  | none =>
    rw [hreq] at h
    rw [List.filterMap_cons_none hreq, Option.toList_none, List.filter_nil, List.nil_append]
    congr 1
    refine List.filter_congr fun c _ ↦ Bool.eq_iff_iff.mpr ?_
    rw [h.memo c]
    simp
  | some sc =>
    rw [hreq] at h
    rw [List.filterMap_cons_some hreq, Option.toList_some]
    by_cases hsc : (b.cache.memo sc).isNone
    · -- the scan is sent, and from then on remembered
      simp only [List.filter_cons, hsc, ↓reduceIte, List.filter_nil, List.eraseDups_cons,
        List.filter_filter, List.singleton_append]
      congr 2
      refine List.filter_congr fun c _ ↦ Bool.eq_iff_iff.mpr ?_
      rw [h.memo c]
      simp only [Bool.and_eq_true, Bool.not_eq_true', beq_eq_false_iff_ne, ne_eq,
        Option.some.injEq]
      exact ⟨fun ⟨hne, hc⟩ ↦ ⟨hc, fun h ↦ hne h.symm⟩, fun ⟨hc, hne⟩ ↦ ⟨fun h ↦ hne h.symm, hc⟩⟩
    · -- the scan is remembered, so nothing changes
      simp only [List.filter_cons, hsc, List.filter_nil]
      congr 1
      refine List.filter_congr fun c _ ↦ Bool.eq_iff_iff.mpr ?_
      rw [h.memo c]
      constructor
      · intro hc
        refine ⟨hc, fun heq ↦ ?_⟩
        cases heq
        exact hsc hc
      · exact fun hc ↦ hc.1

/-- The first phase of a level's tasks sends exactly their scans; it puts in the window only
keys its results wait for, and each of those waits or has a slot at its end. -/
theorem phased_mapM (tasks : List (ObjectType × FieldDef × Field × Option Record)) (b : Batch) :
    let phase := (tasks.mapM resolveTask).run b
    Batch.Extends b phase.2 ∧ phase.2.session.calls = b.session.calls ++ b.levelScans tasks ∧
      (∀ key ∈ phase.2.cache.pending, key ∈ b.cache.pending ∨ key ∈ waitingKeys phase.1) ∧
      ∀ key ∈ waitingKeys phase.1,
        key ∈ phase.2.cache.pending ∨ (phase.2.cache.slots.lookup key).isSome := by
  induction tasks generalizing b with
  | nil => exact ⟨.refl b, by simp [Batch.levelScans], fun _ h ↦ Or.inl h, by simp [waitingKeys]⟩
  | cons task tasks ih =>
    have hfirst := phased_resolveTask b task
    obtain ⟨hext, hcalls, hpending, hwaits⟩ := ih ((resolveTask task).run b).2
    simp only [List.mapM_cons, StateT.run_bind, id_bind_eq, StateT.run_pure, id_pure_eq]
    refine ⟨hfirst.extends_.trans hext, ?_, ?_, ?_⟩
    · rw [hcalls, hfirst.calls, levelScans_cons hfirst, List.append_assoc]
    · intro key hkey
      rw [waitingKeys_cons]
      rcases hpending key hkey with hkey | hkey
      · rcases hfirst.pending key hkey with hkey | hkey
        · exact Or.inl hkey
        · exact Or.inr (List.mem_append_left _ hkey)
      · exact Or.inr (List.mem_append_right _ hkey)
    · intro key hkey
      rw [waitingKeys_cons] at hkey
      rcases List.mem_append.mp hkey with hkey | hkey
      · exact hext.waiting key (hfirst.waits key hkey)
      · exact hwaits key hkey

/-! ### Settling reads slots only -/

section Settle

variable {b : Batch}

theorem settleKeys_of_slots (kind : RecordKind) (ids : List RecordId)
    (hids : ∀ id ∈ ids, (b.cache.slots.lookup (kind, id)).isSome) (acc : List Record) :
    ((settleKeys kind ids acc).run b).2 = b := by
  induction ids generalizing acc with
  | nil => rfl
  | cons id ids ih =>
    obtain ⟨s, hs⟩ := Option.isSome_iff_exists.mp (hids id List.mem_cons_self)
    have hrest : ∀ id' ∈ ids, (b.cache.slots.lookup (kind, id')).isSome :=
      fun id' h ↦ hids id' (List.mem_cons_of_mem _ h)
    simp only [settleKeys, StateT.run_bind, Batch.run_resolve_of_lookup_eq_some b hs, id_bind_eq]
    cases s with
    | found r => exact ih hrest _
    | missing => exact ih hrest _
    | failed e => rfl

theorem settle_of_slots (r : Resolution)
    (hkeys : ∀ key ∈ r.keys, (b.cache.slots.lookup key).isSome) :
    (r.settle.run b).2 = b := by
  cases r with
  | value v => rfl
  | record r => rfl
  | records rs => rfl
  | deferred kind id =>
    obtain ⟨s, hs⟩ := Option.isSome_iff_exists.mp (hkeys _ List.mem_cons_self)
    simp only [Resolution.settle, StateT.run_bind, Batch.run_resolve_of_lookup_eq_some b hs,
      id_bind_eq]
    cases s <;> rfl
  | deferredList kind ids =>
    simp only [Resolution.settle, StateT.run_bind, id_bind_eq, StateT.run_pure, id_pure_eq]
    exact settleKeys_of_slots kind ids (fun id h ↦ hkeys _ (List.mem_map_of_mem h)) []

/-- Settling results whose keys all have slots leaves the batch as it is, so it sends nothing. -/
theorem mapM_settleOutcome_of_slots (results : List (Except ResolveError Resolution))
    (hkeys : ∀ key ∈ waitingKeys results, (b.cache.slots.lookup key).isSome) :
    ((results.mapM settleOutcome).run b).2 = b := by
  induction results with
  | nil => rfl
  | cons res results ih =>
    rw [waitingKeys_cons] at hkeys
    have hhead : ((settleOutcome res).run b).2 = b := by
      cases res with
      | ok r => exact settle_of_slots r fun key h ↦ hkeys key (List.mem_append_left _ h)
      | error e => rfl
    have hrest := ih fun key h ↦ hkeys key (List.mem_append_right _ h)
    simp only [List.mapM_cons, StateT.run_bind, id_bind_eq, StateT.run_pure, id_pure_eq]
    rw [hhead, hrest]

end Settle

/-! ### The keyed calls of a flush -/

theorem kind_keyedCall (kind : RecordKind) (ids : List RecordId) :
    (keyedCall kind ids).kind = some kind := by
  match ids with
  | [_] => rfl
  | [] => rfl
  | _ :: _ :: _ => rfl

/-- A window is sent as a single look-up exactly when it holds one key. -/
theorem opName_keyedCall (kind : RecordKind) (ids : List RecordId) :
    (keyedCall kind ids).opName = "get_by_id" ↔ ids.length = 1 := by
  match ids with
  | [_] => simp [keyedCall, StoreCall.opName]
  | [] => simp [keyedCall, StoreCall.opName]
  | _ :: _ :: _ => simp [keyedCall, StoreCall.opName]

/-- A flush makes one call for each kind with a non-empty window, kinds in their order. -/
theorem kinds_flushCalls (c : Cache) :
    List.Sublist ((Batch.flushCalls c).map StoreCall.kind) (RecordKind.all.map some) := by
  have hkinds : (Batch.flushCalls c).map StoreCall.kind =
      (RecordKind.all.filter fun kind ↦ !(c.window kind).isEmpty).map some := by
    conv => rhs; rw [← List.filterMap_eq_map, List.filterMap_filter]
    simp only [Batch.flushCalls, Batch.windows, List.map_filterMap]
    congr 1
    funext kind
    by_cases h : c.window kind = [] <;> simp [h, kind_keyedCall]
  rw [hkinds]
  exact List.filter_sublist.map some

theorem length_flushCalls_le (c : Cache) : (Batch.flushCalls c).length ≤ 4 := by
  have := (kinds_flushCalls c).length_le
  simpa [RecordKind.all] using this

/-- Each call of a flush sends the window of its kind. -/
theorem keys_of_mem_flushCalls {c : Cache} {call : StoreCall} (h : call ∈ Batch.flushCalls c) :
    ∃ kind, call = keyedCall kind (c.window kind) := by
  obtain ⟨w, hw, rfl⟩ := List.mem_map.mp h
  exact ⟨w.1, by rw [← mem_windows hw]⟩

/-! ### The levels of a run -/

/-- One level of a run, up to the levels below it: its groups, the batch it starts from, the
results of its first phase and the batch after it, the batch after its flush, and the settled
outcomes with the batch after settling. -/
structure LevelRun where
  groups : List Group
  start : Batch
  results : List (Except ResolveError Resolution)
  phased : Batch
  flushed : Batch
  outcomes : List Outcome
  settled : Batch

namespace LevelRun

/-- The groups of a level with their plans. -/
def planned (l : LevelRun) : List (Group × List Planned) :=
  l.groups.map fun g ↦ (g, collectFields g.object g.selection)

/-- The tasks of a level's first phase. -/
def tasks (l : LevelRun) : List (ObjectType × FieldDef × Field × Option Record) :=
  levelTasks l.planned

/-- The groups of the level below. -/
def next (l : LevelRun) : List Group :=
  (layoutGroups l.planned ⟨l.outcomes, [], []⟩).1.next

/-- The calls a level makes: its scans, then one keyed call for each window. -/
def calls (l : LevelRun) : List StoreCall :=
  l.start.levelScans l.tasks ++ Batch.flushCalls l.phased.cache

end LevelRun

/-- A level run from a batch, up to the levels below it. -/
def levelRun (groups : List Group) (b : Batch) : LevelRun :=
  let planned := groups.map fun g ↦ (g, collectFields g.object g.selection)
  let phase := ((levelTasks planned).mapM resolveTask).run b
  let flushed := (Batch.flush.run phase.2).2
  let settled := (phase.1.mapM settleOutcome).run flushed
  ⟨groups, b, phase.1, phase.2, flushed, settled.1, settled.2⟩

/-- The levels a run goes through, from the groups and the batch of its first level: a level
runs while fuel and groups are left, and the next starts from the groups it gives and the
batch it leaves. -/
def levelRuns : Nat → List Group → Batch → List LevelRun
  | 0, _, _ => []
  | fuel + 1, groups, b =>
    if groups.isEmpty then []
    else
      let l := levelRun groups b
      l :: levelRuns fuel l.next l.settled

theorem length_levelRuns_le (fuel : Nat) (groups : List Group) (b : Batch) :
    (levelRuns fuel groups b).length ≤ fuel := by
  induction fuel generalizing groups b with
  | zero => simp [levelRuns]
  | succ fuel ih =>
    rw [levelRuns]
    split
    · simp
    · simpa using ih _ _

/-- A level batches its keyed look-ups. It starts with no key pending. Its first phase sends
exactly its scans, and its flush sends its keyed calls: at most one per kind, kinds in their
order, each sending the window of its kind, as a single look-up exactly when the window holds
one key. A window holds exactly the keys the level's results wait for that have no slot at the
end of the first phase. Settling leaves the batch as the flush left it, so it sends nothing. -/
structure LevelRun.Batched (l : LevelRun) : Prop where
  drained : l.start.cache.pending = []
  scans : l.phased.session.calls = l.start.session.calls ++ l.start.levelScans l.tasks
  flush : l.flushed.session.calls = l.phased.session.calls ++ Batch.flushCalls l.phased.cache
  kinds : List.Sublist ((Batch.flushCalls l.phased.cache).map StoreCall.kind)
    (RecordKind.all.map some)
  keyed : ∀ c ∈ Batch.flushCalls l.phased.cache, ∃ kind,
    c.keys = (l.phased.cache.window kind).map (kind, ·) ∧
      (c.opName = "get_by_id" ↔ (l.phased.cache.window kind).length = 1)
  window : ∀ kind id, id ∈ l.phased.cache.window kind ↔
    (kind, id) ∈ waitingKeys l.results ∧ l.phased.cache.slots.lookup (kind, id) = none
  settle : l.settled = l.flushed

@[simp]
theorem levelRun_start (groups : List Group) (b : Batch) : (levelRun groups b).start = b :=
  rfl

theorem levelRun_flushed_pending (groups : List Group) (b : Batch) :
    (levelRun groups b).flushed.cache.pending = [] := by
  show (Batch.flush.run _).2.cache.pending = []
  rw [Batch.run_flush]

/-- A level that starts with no key pending batches its keyed look-ups. -/
theorem levelRun_batched (groups : List Group) {b : Batch} (hb : b.cache.pending = []) :
    (levelRun groups b).Batched := by
  obtain ⟨-, hcalls, hpending, hwaits⟩ :=
    phased_mapM (levelTasks (groups.map fun g ↦ (g, collectFields g.object g.selection))) b
  dsimp only [levelRun]
  generalize ((levelTasks (groups.map fun g ↦ (g, collectFields g.object g.selection))).mapM
    resolveTask).run b = phase at hcalls hpending hwaits ⊢
  refine ⟨hb, hcalls, ?_, kinds_flushCalls _, ?_, ?_, ?_⟩
  · rw [Batch.run_flush]
    simp [Session.calls]
  · intro c hc
    obtain ⟨kind, rfl⟩ := keys_of_mem_flushCalls hc
    exact ⟨kind, StoreCall.keys_keyedCall _ _, opName_keyedCall _ _⟩
  · -- the window started empty, so it holds the keys waited for and nothing else
    intro kind id
    rw [Cache.mem_window]
    constructor
    · rintro ⟨hp, hnone⟩
      rcases hpending _ hp with hp | hw
      · rw [hb] at hp
        cases hp
      · exact ⟨hw, hnone⟩
    · rintro ⟨hw, hnone⟩
      rcases hwaits _ hw with hp | hs
      · exact ⟨hp, hnone⟩
      · rw [hnone] at hs
        cases hs
  · -- the flush gives a slot to every key the results wait for
    refine mapM_settleOutcome_of_slots _ fun key hkey ↦ ?_
    rw [Batch.run_flush]
    exact flush_fills _ (hwaits key hkey)

/-- From a batch with no key pending, the calls of a run are those of its levels, one level
after another, and each level batches its keyed look-ups. -/
theorem run_resolveLevel_calls (fuel : Nat) (groups : List Group) (b : Batch)
    (hb : b.cache.pending = []) :
    ((resolveLevel fuel groups).run b).2.session.calls =
        b.session.calls ++ (levelRuns fuel groups b).flatMap LevelRun.calls ∧
      ∀ l ∈ levelRuns fuel groups b, l.Batched := by
  induction fuel generalizing groups b with
  | zero => simp [resolveLevel, levelRuns]
  | succ fuel ih =>
    cases groups with
    | nil => simp [resolveLevel, levelRuns]
    | cons g gs =>
      have hl := levelRun_batched (g :: gs) hb
      have hsettled : (levelRun (g :: gs) b).settled.cache.pending = [] := by
        rw [hl.settle]
        exact levelRun_flushed_pending _ _
      obtain ⟨hcalls, hbatched⟩ :=
        ih (levelRun (g :: gs) b).next (levelRun (g :: gs) b).settled hsettled
      have hruns : levelRuns (fuel + 1) (g :: gs) b = levelRun (g :: gs) b ::
          levelRuns fuel (levelRun (g :: gs) b).next (levelRun (g :: gs) b).settled := by
        simp [levelRuns]
      -- the levels below run from the groups this level gives and the batch it leaves
      have hfinal : ((resolveLevel (fuel + 1) (g :: gs)).run b).2 =
          ((resolveLevel fuel (levelRun (g :: gs) b).next).run
            (levelRun (g :: gs) b).settled).2 := by
        rw [run_resolveLevel_succ fuel (List.cons_ne_nil g gs) b]
        rfl
      rw [hruns, hfinal]
      refine ⟨?_, ?_⟩
      · rw [hcalls, hl.settle, hl.flush, hl.scans, levelRun_start]
        simp [LevelRun.calls]
      · intro l hl'
        rcases List.mem_cons.mp hl' with rfl | hl'
        · exact hl
        · exact hbatched l hl'

/-- Levels make at most four keyed calls each: their scans are scans, and a flush makes at most
one call per kind. -/
theorem length_keyed_le (levels : List LevelRun) :
    ((levels.flatMap LevelRun.calls).filter (!·.isScan)).length ≤ 4 * levels.length := by
  induction levels with
  | nil => simp
  | cons l levels ih =>
    have hscans : (l.start.levelScans l.tasks).filter (!·.isScan) = [] := by
      refine List.filter_eq_nil_iff.mpr fun c hc ↦ ?_
      simp only [Batch.levelScans, List.mem_eraseDups, List.mem_filter, List.mem_filterMap] at hc
      obtain ⟨⟨task, -, hreq⟩, -⟩ := hc
      simp [isScan_of_scanRequest hreq]
    have hkeyed : (Batch.flushCalls l.phased.cache).filter (!·.isScan) =
        Batch.flushCalls l.phased.cache := by
      refine List.filter_eq_self.mpr fun c hc ↦ ?_
      obtain ⟨kind, rfl⟩ := keys_of_mem_flushCalls hc
      simp
    have hlen := length_flushCalls_le l.phased.cache
    rw [List.flatMap_cons, List.filter_append, LevelRun.calls, List.filter_append, hscans, hkeyed,
      List.nil_append, List.length_append, List.length_cons]
    omega

/-! ### Executing a selection -/

/-- The calls of an execution are those its levels make from a fresh cache. -/
theorem execute_calls (store : Store) (rules : List FailureRule) (selection : List Field) :
    (execute store rules selection).2 = ((resolveLevel (heightOf selection + 1)
      [⟨.query, selection, [⟨none, []⟩]⟩]).run (Batch.fresh store rules)).2.session.calls := by
  rw [execute_eq]

/-- Whatever the store holds and whichever calls fail, the calls of an execution are the calls
of its levels, one level after another, at most one level per step down the selection; each
level batches its keyed look-ups; so an execution makes at most four keyed calls per level. -/
theorem keyed_lookups_batched_per_level (store : Store) (rules : List FailureRule)
    (selection : List Field) :
    let levels := levelRuns (heightOf selection + 1) [⟨.query, selection, [⟨none, []⟩]⟩]
      (Batch.fresh store rules)
    (execute store rules selection).2 = levels.flatMap LevelRun.calls ∧
      (∀ l ∈ levels, l.Batched) ∧ levels.length ≤ heightOf selection + 1 ∧
      ((execute store rules selection).2.filter (!·.isScan)).length ≤ 4 * levels.length := by
  obtain ⟨hcalls, hbatched⟩ := run_resolveLevel_calls (heightOf selection + 1)
    [⟨.query, selection, [⟨none, []⟩]⟩] (Batch.fresh store rules) rfl
  have hlength := length_levelRuns_le (heightOf selection + 1)
    [⟨.query, selection, [⟨none, []⟩]⟩] (Batch.fresh store rules)
  dsimp only
  generalize levelRuns (heightOf selection + 1) [⟨.query, selection, [⟨none, []⟩]⟩]
    (Batch.fresh store rules) = levels at hcalls hbatched hlength ⊢
  have htrace : (execute store rules selection).2 = levels.flatMap LevelRun.calls := by
    rw [execute_calls, hcalls]
    rfl
  refine ⟨htrace, hbatched, hlength, ?_⟩
  rw [htrace]
  exact length_keyed_le levels

end SocialGraph
