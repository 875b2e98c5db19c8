import SocialGraph.Proofs.FaithfulCache

/-!
# A loaded store answers as its dataset

Loading a dataset files its records, member tiers first, then users, profiles and posts, each
list in its order, into one table per kind indexed by key. It stops at the first record whose
key its kind's table already holds and reports that record (`Store.ofDataset_eq_error_iff`).
So loading fails exactly when two records of one kind share a key (`Dataset.keysUnique_iff`).

What a loaded store answers is read off the loading run (`Store.ofDataset_tables`). Every
table's index stays in step with its rows (`Store.inStep_of_ofDataset`), and each table holds
the dataset's list of its kind in order (`Store.rows_of_ofDataset`). So a key's record, found
through the index, is the record of that kind with that key in the dataset. Several keys are
answered exactly with the keys that have a record, and a window of one key gets the same answer
as a single look-up. A scan gives the dataset's profiles, posts or subscriptions filtered on a
column, in the dataset's order (`loaded_store_answers_as_dataset`).

Repeated keys are found by `Record.key`, the pair of a record's kind and key.
-/

namespace SocialGraph

/-- What a store's tables index a record by: its kind and its key. -/
def Record.key (r : Record) : RecordKind × RecordId := (r.kind, r.id)

namespace Store

/-! ### The first repeated key -/

/-- The test loading makes against the records filed so far asks whether the record's key is
among theirs. -/
theorem any_sameKey_iff (seen : List Record) (r : Record) :
    seen.any (fun s ↦ s.kind == r.kind && s.id == r.id) = true ↔
      r.key ∈ seen.map Record.key := by
  simp [Record.key]

/-- `firstRepeat seen rs` reports the first record of `rs` whose key is among those of `seen`
or of the records of `rs` before it; all those before it have distinct keys, none of them a key
of `seen`. -/
theorem firstRepeat_eq_some_iff {seen rs : List Record} {r : Record} :
    firstRepeat seen rs = some r ↔
      ∃ pre post, rs = pre ++ r :: post ∧ (pre.map Record.key).Nodup ∧
        (∀ x ∈ pre, x.key ∉ seen.map Record.key) ∧
          r.key ∈ (seen ++ pre).map Record.key := by
  induction rs generalizing seen with
  | nil => simp [firstRepeat]
  | cons x rest ih =>
    rw [firstRepeat]
    split
    · next hit =>
      -- `x` repeats a key seen already, so it is the record reported and nothing comes before
      rw [any_sameKey_iff] at hit
      constructor
      · rintro ⟨⟩
        exact ⟨[], rest, rfl, List.nodup_nil, by simp, by simpa using hit⟩
      · rintro ⟨pre, post, hsplit, -, hfresh, -⟩
        cases pre with
        | nil =>
          obtain ⟨rfl, -⟩ := List.cons_eq_cons.mp hsplit
          rfl
        | cons y pre =>
          obtain ⟨rfl, -⟩ := List.cons_eq_cons.mp hsplit
          exact absurd hit (hfresh x List.mem_cons_self)
    · next miss =>
      -- `x` is filed, and the search goes on with `x` among the records seen
      rw [any_sameKey_iff] at miss
      rw [ih]
      constructor
      · rintro ⟨pre, post, rfl, hnodup, hfresh, hrep⟩
        refine ⟨x :: pre, post, rfl, ?_, ?_, ?_⟩
        · refine List.nodup_cons.mpr ⟨fun hx ↦ ?_, hnodup⟩
          obtain ⟨z, hz, hzx⟩ := List.mem_map.mp hx
          exact hfresh z hz (by simp [hzx])
        · intro z hz
          rcases List.mem_cons.mp hz with rfl | hz
          · exact miss
          · exact fun hseen ↦ hfresh z hz (List.mem_cons_of_mem _ hseen)
        · simp only [List.map_append, List.map_cons, List.mem_append, List.mem_cons] at hrep ⊢
          grind
      · rintro ⟨pre, post, hsplit, hnodup, hfresh, hrep⟩
        cases pre with
        | nil =>
          obtain ⟨rfl, -⟩ := List.cons_eq_cons.mp hsplit
          exact absurd (by simpa using hrep) miss
        | cons y pre =>
          obtain ⟨rfl, rfl⟩ := List.cons_eq_cons.mp hsplit
          obtain ⟨hx, hnodup⟩ := List.nodup_cons.mp hnodup
          refine ⟨pre, post, rfl, hnodup, fun z hz hseen ↦ ?_, ?_⟩
          · rw [List.map_cons, List.mem_cons] at hseen
            rcases hseen with hzx | hseen
            · exact hx (List.mem_map.mpr ⟨z, hz, hzx⟩)
            · exact hfresh z (List.mem_cons_of_mem _ hz) hseen
          · simp only [List.map_append, List.map_cons, List.mem_append, List.mem_cons] at hrep ⊢
            grind

/-- Loading refuses a dataset exactly at the first record, in load order, whose key an earlier
record already has. -/
theorem ofDataset_eq_error_iff {d : Dataset} {e : LoadError} :
    ofDataset d = .error e ↔
      ∃ pre r post, recordsOf d = pre ++ r :: post ∧ (pre.map Record.key).Nodup ∧
        r.key ∈ pre.map Record.key ∧ e = .duplicateId r.kind r.id := by
  -- the first repeat, read with nothing filed before loading starts
  have hfirst : ∀ r, firstRepeat [] (recordsOf d) = some r ↔
      ∃ pre post, recordsOf d = pre ++ r :: post ∧ (pre.map Record.key).Nodup ∧
        r.key ∈ pre.map Record.key := by
    intro r
    rw [firstRepeat_eq_some_iff]
    simp
  rw [ofDataset_eq]
  split
  · next r hr =>
    constructor
    · rintro ⟨⟩
      obtain ⟨pre, post, hsplit, hnodup, hrep⟩ := (hfirst r).mp hr
      exact ⟨pre, r, post, hsplit, hnodup, hrep, rfl⟩
    · rintro ⟨pre, r', post, hsplit, hnodup, hrep, rfl⟩
      have hr' := (hfirst r').mpr ⟨pre, post, hsplit, hnodup, hrep⟩
      rw [hr] at hr'
      cases hr'
      rfl
  · next hnone =>
    constructor
    · intro h
      cases h
    rintro ⟨pre, r, post, hsplit, hnodup, hrep, -⟩
    have hr := (hfirst r).mpr ⟨pre, post, hsplit, hnodup, hrep⟩
    rw [hnone] at hr
    cases hr

/-- A dataset with unique keys loads into its own store. -/
theorem ofDataset_of_keysUnique {d : Dataset} (hu : d.KeysUnique) : ofDataset d = .ok d.store := by
  cases h : ofDataset d with
  | ok s => rw [(ofDataset_eq_ok h).1]
  | error e =>
    obtain ⟨pre, r, post, hsplit, -, hrep, -⟩ := ofDataset_eq_error_iff.mp h
    -- the repeated key shows twice among the keys of the dataset
    have hdup : ¬ ((pre ++ r :: post).map Record.key).Nodup := by
      rw [List.map_append, List.map_cons, List.nodup_append]
      exact fun ⟨_, _, hapart⟩ ↦ hapart _ hrep _ List.mem_cons_self rfl
    exact absurd (hsplit ▸ hu) hdup

/-! ### Keys within each kind -/

/-- Records have distinct keys exactly when the records of each kind have distinct ids. -/
theorem nodup_keys_iff (rs : List Record) :
    (rs.map Record.key).Nodup ↔ ∀ k, ((rs.filter (·.kind == k)).map Record.id).Nodup := by
  simp only [List.Nodup, List.pairwise_map, List.pairwise_filter]
  constructor
  · intro h k
    refine h.imp fun {a b} hab ha hb hid ↦ hab ?_
    simp only [beq_iff_eq] at ha hb
    rw [Record.key, Record.key, ha, hb, hid]
  · intro h
    rw [List.pairwise_iff_forall_sublist]
    intro a b hab hkey
    -- two records with one key: the ids of their common kind repeat
    have hkind : a.kind = b.kind := congrArg Prod.fst hkey
    have hid : a.id = b.id := congrArg Prod.snd hkey
    exact List.pairwise_iff_forall_sublist.mp (h a.kind) hab (by simp) (by simp [hkind]) hid

end Store

namespace Dataset

variable {d : Dataset}

/-- A dataset has unique keys exactly when each kind's list has distinct ids. -/
theorem keysUnique_iff : d.KeysUnique ↔ ∀ k, ((d.ofKind k).map Record.id).Nodup := by
  rw [KeysUnique]
  simp only [← filter_recordsOf]
  exact Store.nodup_keys_iff _

end Dataset

/-! ### What a loaded store answers -/

namespace Store

variable {d : Dataset} {s : Store}

/-- A store that loads is the run of filing the dataset's records into the empty tables, with
the dataset's subscription rows. -/
theorem ofDataset_tables (h : ofDataset d = .ok s) :
    fileAll .empty (recordsOf d) = .ok s.tables ∧ s.subscriptions = d.subscriptions := by
  unfold ofDataset at h
  cases hrun : fileAll .empty (recordsOf d) with
  | error e =>
    rw [hrun] at h
    cases h
  | ok ts =>
    rw [hrun] at h
    cases h
    exact ⟨rfl, rfl⟩

/-- Every table of a loaded store has its index in step with its rows. -/
theorem inStep_of_ofDataset (h : ofDataset d = .ok s) (k : RecordKind) :
    (s.tables.get k).InStep := by
  refine fileAll_inStep (fun k ↦ ?_) (ofDataset_tables h).1 k
  rw [Tables.get_empty]
  exact Table.inStep_empty

/-- The rows of each kind of a loaded store are the dataset's list of that kind. -/
theorem rows_of_ofDataset (h : ofDataset d = .ok s) (k : RecordKind) : s.rows k = d.ofKind k := by
  rw [rows, fileAll_rows (ofDataset_tables h).1, Tables.get_empty, Table.rows_empty,
    List.nil_append, Dataset.filter_recordsOf]

/-- Through its index, a loaded store finds a key's record exactly when the dataset has a record
of that kind with that key. -/
theorem get_eq_some_iff_of_ofDataset (h : ofDataset d = .ok s) {k : RecordKind} {i : RecordId}
    {r : Record} : s.get k i = some r ↔ r ∈ d.ofKind k ∧ r.id = i := by
  rw [get, (inStep_of_ofDataset h k).get_eq_some_iff]
  show r ∈ s.rows k ∧ r.id = i ↔ _
  rw [rows_of_ofDataset h]

theorem size_of_ofDataset (h : ofDataset d = .ok s) :
    s.size = d.memberTypes.length + d.users.length + d.profiles.length + d.posts.length := by
  have hlen : ∀ k, (s.tables.get k).rows.length = (d.ofKind k).length :=
    fun k ↦ congrArg List.length (rows_of_ofDataset h k)
  simp only [size, RecordKind.all, List.foldr_cons, List.foldr_nil, hlen, Dataset.ofKind,
    List.length_map]
  omega

/-- A foreign-key scan of a loaded store filters the dataset's list of the column's records on
the column, in the dataset's order. -/
theorem scanByForeignKey_of_ofDataset (h : ofDataset d = .ok s) (fk : ForeignKey) {α : Type}
    {l : List α} {mk : α → Record} (hkind : d.ofKind fk.kind = l.map mk) (v : RecordId) :
    s.scanByForeignKey fk v = (l.filter fun a ↦ fk.holds (mk a) v).map mk :=
  scanByForeignKey_of_rows fk ((rows_of_ofDataset h fk.kind).trans hkind) v

theorem scanAssociation_of_ofDataset (h : ofDataset d = .ok s) (e : SubscriptionEnd) (u : Uuid) :
    s.scanAssociation e u = d.subscriptions.filter (e.user · == u) := by
  rw [scanAssociation, (ofDataset_tables h).2]

/-! ### Several keys at once -/

/-- The records of several keys pair each key that has a record with that record, and nothing
else. -/
theorem mem_getMany_iff (s : Store) {k : RecordKind} {ids : List RecordId} {i : RecordId}
    {r : Record} : (i, r) ∈ s.getMany k ids ↔ i ∈ ids ∧ s.get k i = some r := by
  simp only [getMany, List.mem_filterMap, Option.map_eq_some_iff, Prod.mk.injEq]
  constructor
  · rintro ⟨j, hj, r', hr', rfl, rfl⟩
    exact ⟨hj, hr'⟩
  · rintro ⟨hi, hr⟩
    exact ⟨i, hi, r, hr, rfl, rfl⟩

/-- A window of one key gets from several keys what a single look-up gets. -/
theorem getMany_singleton (s : Store) (k : RecordKind) (i : RecordId) :
    s.getMany k [i] = ((s.get k i).map (i, ·)).toList := by
  cases h : s.get k i <;> simp [getMany, h]

end Store

/-- Loading a dataset fails exactly when two records of one kind share a key, and then reports
the first record, in load order, whose key repeats an earlier one. Otherwise the store it gives
keeps each kind's index in step with its rows, holds every keyed record, and answers every
question as the dataset's lists do. -/
theorem loaded_store_answers_as_dataset (d : Dataset) :
    (∀ e, Store.ofDataset d = .error e ↔
      ∃ pre r post, Store.recordsOf d = pre ++ r :: post ∧ (pre.map Record.key).Nodup ∧
        r.key ∈ pre.map Record.key ∧ e = .duplicateId r.kind r.id) ∧
    ((∃ e, Store.ofDataset d = .error e) ↔ ∃ k, ¬ ((d.ofKind k).map Record.id).Nodup) ∧
    ((∀ k, ((d.ofKind k).map Record.id).Nodup) → ∃ s, Store.ofDataset d = .ok s ∧
      (∀ k, (s.tables.get k).InStep) ∧
      s.size = d.memberTypes.length + d.users.length + d.profiles.length + d.posts.length ∧
      (∀ k i r, s.get k i = some r ↔ r ∈ d.ofKind k ∧ r.id = i) ∧
      (∀ k ids i r, (i, r) ∈ s.getMany k ids ↔ i ∈ ids ∧ r ∈ d.ofKind k ∧ r.id = i) ∧
      (∀ k i, s.getMany k [i] = ((s.get k i).map (i, ·)).toList) ∧
      (∀ k, s.rows k = d.ofKind k) ∧
      (∀ v, s.scanByForeignKey .profileUser v =
        (d.profiles.filter (RecordId.entity ·.userId == v)).map .profile) ∧
      (∀ v, s.scanByForeignKey .postAuthor v =
        (d.posts.filter (RecordId.entity ·.authorId == v)).map .post) ∧
      (∀ u, s.scanAssociation .subscriber u = d.subscriptions.filter (·.subscriberId == u)) ∧
      (∀ u, s.scanAssociation .author u = d.subscriptions.filter (·.authorId == u))) := by
  refine ⟨fun e ↦ Store.ofDataset_eq_error_iff, ?_, fun hids ↦ ?_⟩
  · -- a dataset fails to load exactly when its keys are not unique
    rw [← Classical.not_forall, ← Dataset.keysUnique_iff]
    constructor
    · rintro ⟨e, he⟩ hu
      rw [Store.ofDataset_of_keysUnique hu] at he
      cases he
    · intro hu
      cases h : Store.ofDataset d with
      | ok s => exact absurd (Store.ofDataset_eq_ok h).2 hu
      | error e => exact ⟨e, rfl⟩
  · -- every answer is read off the loading run
    have hs := Store.ofDataset_of_keysUnique (Dataset.keysUnique_iff.mpr hids)
    refine ⟨d.store, hs, Store.inStep_of_ofDataset hs, Store.size_of_ofDataset hs,
      fun k i r ↦ Store.get_eq_some_iff_of_ofDataset hs, fun k ids i r ↦ ?_,
      d.store.getMany_singleton, Store.rows_of_ofDataset hs,
      Store.scanByForeignKey_of_ofDataset hs .profileUser rfl,
      Store.scanByForeignKey_of_ofDataset hs .postAuthor rfl,
      Store.scanAssociation_of_ofDataset hs .subscriber,
      Store.scanAssociation_of_ofDataset hs .author⟩
    rw [Store.mem_getMany_iff, Store.get_eq_some_iff_of_ofDataset hs]

end SocialGraph
