import SocialGraph.Proofs.Reference

/-!
# The tables of a store

A table keeps its rows and an index from keys to row positions. Loading files the records one
after another (`Table.file`): the key of the new row goes into the index at the row's position,
unless the index holds that key already. Filing keeps the index in step with the rows
(`Table.InStep`): the index sends a key to a position exactly when the row there has that key
(`InStep.file`, and over a whole load `Store.fileAll_inStep`). A key's row is therefore found
through the index exactly when it is a row of the table with that key
(`InStep.get_eq_some_iff`).

Filing the records of all kinds through one loop gives each kind the table of its own records in
their order (`Store.fileAll_rows`). From the empty tables that is, kind by kind, the table of
rows filed in order (`Table.ofRows`), whose index sends each key to its first row
(`Table.get_ofRows`); loading stops at the first record whose key repeats one of its kind
(`Store.ofDataset_eq`), and otherwise gives the store of the dataset (`Dataset.store`).
-/

namespace SocialGraph

/-! ### The tables of all kinds -/

namespace Tables

/-- The tables given kind by kind. -/
def ofKinds (f : (k : RecordKind) → Table k) : Tables :=
  ⟨f .memberTier, f .user, f .profile, f .post⟩

@[simp]
theorem get_ofKinds (f : (k : RecordKind) → Table k) (k : RecordKind) :
    (ofKinds f).get k = f k := by
  cases k <;> rfl

@[simp]
theorem get_set_self (ts : Tables) (k : RecordKind) (t : Table k) : (ts.set k t).get k = t := by
  cases k <;> rfl

theorem get_set_of_ne (ts : Tables) {k k' : RecordKind} (t : Table k) (h : k' ≠ k) :
    (ts.set k t).get k' = ts.get k' := by
  cases k <;> cases k' <;> first | rfl | exact absurd rfl h

@[simp]
theorem get_empty (k : RecordKind) : empty.get k = .empty := by
  cases k <;> rfl

/-- Tables are known by the table of each kind. -/
theorem ext_get {ts ts' : Tables} (h : ∀ k, ts.get k = ts'.get k) : ts = ts' := by
  obtain ⟨m, u, p, q⟩ := ts
  obtain ⟨m', u', p', q'⟩ := ts'
  have hm : m = m' := h .memberTier
  have hu : u = u' := h .user
  have hp : p = p' := h .profile
  have hq : q = q' := h .post
  rw [hm, hu, hp, hq]

end Tables

/-! ### Tables of rows filed in order -/

namespace Table

variable {k : RecordKind}

/-- Tables are known by their rows and their index. -/
theorem ext {t t' : Table k} (hrows : t.rows = t'.rows) (hindex : t.index = t'.index) :
    t = t' := by
  obtain ⟨rows, index, h⟩ := t
  obtain ⟨rows', index', h'⟩ := t'
  cases hrows
  cases hindex
  rfl

/-- The index of rows filed in order from the empty table: each row's key at the row's
position. -/
def indexOf (rows : List Record) : List (RecordId × Nat) := rows.zipIdx.map fun x ↦ (x.1.id, x.2)

/-- The table of rows filed in order from the empty table. -/
def ofRows (rows : List Record) (h : ∀ r ∈ rows, r.kind = k) : Table k := ⟨rows, indexOf rows, h⟩

@[simp]
theorem rows_ofRows (rows : List Record) (h : ∀ r ∈ rows, r.kind = k) :
    (ofRows rows h).rows = rows :=
  rfl

@[simp]
theorem index_ofRows (rows : List Record) (h : ∀ r ∈ rows, r.kind = k) :
    (ofRows rows h).index = indexOf rows :=
  rfl

/-- Tables of rows filed in order are known by their rows. -/
theorem ofRows_congr {rows rows' : List Record} (h : ∀ r ∈ rows, r.kind = k)
    (h' : ∀ r ∈ rows', r.kind = k) (e : rows = rows') : ofRows rows h = ofRows rows' h' := by
  cases e
  rfl

theorem indexOf_append_singleton (rows : List Record) (r : Record) :
    indexOf (rows ++ [r]) = indexOf rows ++ [(r.id, rows.length)] := by
  simp [indexOf, List.zipIdx_append]

/-- Counting positions from one further moves every position the index holds one further. -/
theorem lookup_zipIdx_succ (rows : List Record) (n : Nat) (id : RecordId) :
    ((rows.zipIdx (n + 1)).map fun x ↦ (x.1.id, x.2)).lookup id =
      (((rows.zipIdx n).map fun x ↦ (x.1.id, x.2)).lookup id).map (· + 1) := by
  induction rows generalizing n with
  | nil => rfl
  | cons r rows ih =>
    simp only [List.zipIdx_cons, List.map_cons, List.lookup_cons]
    cases id == r.id
    · exact ih (n + 1)
    · rfl

/-- The index of rows, past the first row. -/
theorem indexOf_cons (r : Record) (rows : List Record) :
    indexOf (r :: rows) = (r.id, 0) :: (rows.zipIdx 1).map fun x ↦ (x.1.id, x.2) :=
  rfl

/-- The index of rows holds exactly the keys of the rows. -/
theorem isSome_lookup_indexOf (rows : List Record) (id : RecordId) :
    ((indexOf rows).lookup id).isSome ↔ id ∈ rows.map Record.id := by
  induction rows with
  | nil => simp [indexOf]
  | cons r rows ih =>
    rw [indexOf_cons, List.lookup_cons, lookup_zipIdx_succ, List.map_cons, List.mem_cons]
    cases h : id == r.id
    · have hne : id ≠ r.id := by simpa using h
      simp only [Option.isSome_map]
      rw [← ih]
      exact ⟨.inr, fun h' ↦ h'.resolve_left hne⟩
    · simp only [Option.isSome_some, true_iff]
      exact .inl (by simpa using h)

/-- Through the index of rows, a key finds its first row. -/
theorem lookup_indexOf_bind (rows : List Record) (id : RecordId) :
    ((indexOf rows).lookup id).bind (fun pos ↦ rows[pos]?) = rows.find? (·.id == id) := by
  induction rows with
  | nil => rfl
  | cons r rows ih =>
    rw [indexOf_cons, List.lookup_cons, List.find?_cons]
    cases h : id == r.id
    · -- past the first row, every position is one further
      have h' : (r.id == id) = false :=
        beq_eq_false_iff_ne.mpr (Ne.symm (beq_eq_false_iff_ne.mp h))
      rw [h', lookup_zipIdx_succ, Option.bind_map, ← ih]
      rfl
    · have h' : (r.id == id) = true := beq_iff_eq.mpr (beq_iff_eq.mp h).symm
      rw [h']
      rfl

/-- Through its index, a table of rows finds a key's first row. -/
theorem get_ofRows (rows : List Record) (h : ∀ r ∈ rows, r.kind = k) (id : RecordId) :
    (ofRows rows h).get id = rows.find? (·.id == id) :=
  lookup_indexOf_bind rows id

/-- Filing a record into a table of rows refuses a key among the rows, and otherwise gives the
table of the rows with the record after them. -/
theorem file_ofRows (rows : List Record) (h : ∀ r ∈ rows, r.kind = k) (r : Record)
    (hr : r.kind = k) :
    (ofRows rows h).file r hr =
      if r.id ∈ rows.map Record.id then .error (.duplicateId r.kind r.id)
      else .ok (ofRows (rows ++ [r]) (kinded_append h hr)) := by
  have hkeys := isSome_lookup_indexOf rows r.id
  unfold file
  split
  · next pos hpos =>
    rw [index_ofRows] at hpos
    rw [if_pos (hkeys.mp (by rw [hpos]; rfl))]
  · next hnone =>
    rw [index_ofRows] at hnone
    rw [if_neg fun hmem ↦ by simpa [hnone] using hkeys.mpr hmem]
    congr 1
    exact ext rfl (indexOf_append_singleton rows r).symm

/-! ### An index in step with its rows -/

/-- A table's index is in step with its rows: it sends a key to a position exactly when the row
at that position has that key. -/
def InStep (t : Table k) : Prop :=
  ∀ id pos, t.index.lookup id = some pos ↔ t.rows[pos]?.map Record.id = some id

@[simp]
theorem rows_empty : (empty : Table k).rows = [] := rfl

theorem inStep_empty : (empty : Table k).InStep := by
  intro id pos
  simp [empty]

/-- Filing a record keeps the index in step: the new key goes to the new row's position, and the
key was at no position before, so no row had it. -/
theorem InStep.file {t t' : Table k} {r : Record} {hr : r.kind = k} (h : t.InStep)
    (hf : t.file r hr = .ok t') :
    t'.InStep := by
  unfold Table.file at hf
  split at hf
  · cases hf
  · next hnone =>
    cases hf
    intro id pos
    -- no row of the table has the new key
    have hfresh : ∀ {q}, t.rows[q]?.map Record.id ≠ some r.id := fun hq ↦ by
      rw [← h, hnone] at hq
      cases hq
    rw [List.lookup_append, List.getElem?_append]
    by_cases hid : id = r.id
    · subst hid
      rw [hnone, Option.none_or, List.lookup_cons, beq_self_eq_true]
      constructor
      · rintro ⟨⟩
        simp
      · intro hpos
        split at hpos
        · exact absurd hpos hfresh
        · next hge =>
          cases hq : pos - t.rows.length with
          | zero =>
            have hpos' : pos = t.rows.length := by omega
            rw [hpos']
          | succ q => simp [hq] at hpos
    · have hlast : ([(r.id, t.rows.length)] : List (RecordId × Nat)).lookup id = none := by
        simp [List.lookup_cons, beq_false_of_ne hid]
      rw [hlast, Option.or_none, h]
      split
      · rfl
      · next hge =>
        -- past the rows there is only the new row, whose key is another
        rw [List.getElem?_eq_none (by omega : t.rows.length ≤ pos)]
        cases hq : pos - t.rows.length with
        | zero => simp [Ne.symm hid]
        | succ q => simp

/-- A key's row is a row of the table. -/
theorem mem_rows_of_get {t : Table k} {id : RecordId} {r : Record} (h : t.get id = some r) :
    r ∈ t.rows := by
  obtain ⟨pos, -, hrow⟩ := Option.bind_eq_some_iff.mp h
  exact List.mem_of_getElem? hrow

/-- Through an index in step, the row of a key is the row of the table with that key. -/

theorem InStep.get_eq_some_iff {t : Table k} (h : t.InStep) {id : RecordId} {r : Record} :
    t.get id = some r ↔ r ∈ t.rows ∧ r.id = id := by
  constructor
  · intro hget
    obtain ⟨pos, hpos, hrow⟩ := Option.bind_eq_some_iff.mp hget
    have hkey := (h id pos).mp hpos
    rw [hrow, Option.map_some, Option.some_inj] at hkey
    exact ⟨List.mem_of_getElem? hrow, hkey⟩
  · rintro ⟨hr, rfl⟩
    obtain ⟨pos, hrow⟩ := List.mem_iff_getElem?.mp hr
    have hpos : t.index.lookup r.id = some pos := (h r.id pos).mpr (by rw [hrow]; rfl)
    rw [get, hpos, Option.bind_some, hrow]

end Table

/-! ### Loading -/

namespace Store

theorem fileAll_cons (ts : Tables) (r : Record) (rest : List Record) :
    fileAll ts (r :: rest) =
      (ts.get r.kind).file r rfl >>= fun t ↦ fileAll (ts.set r.kind t) rest :=
  rfl

/-- A load that gets through files each record into its kind's table, and goes on from there. -/
theorem fileAll_cons_eq_ok {ts ts' : Tables} {r : Record} {rest : List Record}
    (h : fileAll ts (r :: rest) = .ok ts') :
    ∃ t, (ts.get r.kind).file r rfl = .ok t ∧ fileAll (ts.set r.kind t) rest = .ok ts' := by
  rw [fileAll_cons] at h
  cases hf : (ts.get r.kind).file r rfl with
  | error e =>
    rw [hf] at h
    cases h
  | ok t =>
    rw [hf] at h
    exact ⟨t, rfl, h⟩

/-- Filing records keeps every table's index in step with its rows; by induction on the records,
each filing keeping it (`InStep.file`). -/
theorem fileAll_inStep {ts ts' : Tables} {rs : List Record} (h : ∀ k, (ts.get k).InStep)
    (hrun : fileAll ts rs = .ok ts') : ∀ k, (ts'.get k).InStep := by
  induction rs generalizing ts with
  | nil =>
    cases hrun
    exact h
  | cons r rest ih =>
    obtain ⟨t, hf, hrest⟩ := fileAll_cons_eq_ok hrun
    refine ih ?_ hrest
    intro k
    by_cases hk : k = r.kind
    · subst hk
      rw [Tables.get_set_self]
      exact (h r.kind).file hf
    · rw [Tables.get_set_of_ne ts t hk]
      exact h k

/-- Filing records puts after the rows of each kind the records of that kind, in order. -/
theorem fileAll_rows {ts ts' : Tables} {rs : List Record} (hrun : fileAll ts rs = .ok ts')
    (k : RecordKind) : (ts'.get k).rows = (ts.get k).rows ++ rs.filter (·.kind == k) := by
  induction rs generalizing ts with
  | nil =>
    cases hrun
    rw [List.filter_nil, List.append_nil]
  | cons r rest ih =>
    obtain ⟨t, hf, hrest⟩ := fileAll_cons_eq_ok hrun
    have hrows : t.rows = (ts.get r.kind).rows ++ [r] := by
      unfold Table.file at hf
      split at hf
      · cases hf
      · cases hf
        rfl
    rw [ih hrest, List.filter_cons]
    by_cases hk : k = r.kind
    · subst hk
      rw [Tables.get_set_self, hrows, if_pos (beq_self_eq_true _), List.append_assoc]
      rfl
    · rw [Tables.get_set_of_ne ts t hk, if_neg (by simpa using Ne.symm hk)]

/-- The first record, in order, whose kind and key an earlier record already has. -/
def firstRepeat : List Record → List Record → Option Record
  | _, [] => none
  | seen, r :: rest =>
    if seen.any (fun s => s.kind == r.kind && s.id == r.id) then some r
    else firstRepeat (r :: seen) rest

theorem kinded_filter (rs : List Record) (k : RecordKind) :
    ∀ r ∈ rs.filter (·.kind == k), r.kind = k := by
  intro r hr
  simpa using (List.mem_filter.mp hr).2

/-- The tables of records filed in order, kind by kind. -/
def tablesOf (rs : List Record) : Tables :=
  .ofKinds fun k ↦ .ofRows (rs.filter (·.kind == k)) (kinded_filter rs k)

@[simp]
theorem get_tablesOf (rs : List Record) (k : RecordKind) :
    (tablesOf rs).get k = .ofRows (rs.filter (·.kind == k)) (kinded_filter rs k) :=
  Tables.get_ofKinds _ k

/-- Filing into the tables of the records filed so far stops at the first record whose key
repeats one of its kind, and otherwise gives the tables of all the records; `seen` holds the
records filed so far, the latest first. -/
theorem fileAll_tablesOf (seen rs : List Record) :
    fileAll (tablesOf seen.reverse) rs =
      match firstRepeat seen rs with
      | some r => .error (.duplicateId r.kind r.id)
      | none => .ok (tablesOf (seen.reverse ++ rs)) := by
  induction rs generalizing seen with
  | nil => simp [fileAll, firstRepeat]
  | cons r rest ih =>
    -- the record's key is in its table exactly when an earlier record of its kind has it
    have hrepeat : r.id ∈ ((seen.reverse.filter (·.kind == r.kind)).map Record.id) ↔
        seen.any (fun s => s.kind == r.kind && s.id == r.id) = true := by
      simp only [List.mem_map, List.mem_filter, List.mem_reverse, beq_iff_eq, List.any_eq_true,
        Bool.and_eq_true]
      constructor
      · rintro ⟨s, ⟨hs, hk⟩, hid⟩
        exact ⟨s, hs, hk, hid⟩
      · rintro ⟨s, hs, hk, hid⟩
        exact ⟨s, ⟨hs, hk⟩, hid⟩
    rw [fileAll_cons, get_tablesOf, Table.file_ofRows, firstRepeat]
    by_cases hseen : seen.any (fun s => s.kind == r.kind && s.id == r.id) = true
    · rw [if_pos (hrepeat.mpr hseen), if_pos hseen]
      rfl
    · rw [if_neg (mt hrepeat.mp hseen), if_neg hseen]
      -- the record joins its kind's table, and the others stay as they are
      have hset : (tablesOf seen.reverse).set r.kind
          (.ofRows (seen.reverse.filter (·.kind == r.kind) ++ [r])
            (Table.kinded_append (kinded_filter _ _) rfl)) =
          tablesOf (r :: seen).reverse := by
        refine Tables.ext_get fun k ↦ ?_
        by_cases hk : k = r.kind
        · subst hk
          rw [Tables.get_set_self, get_tablesOf]
          exact Table.ofRows_congr _ _ (by simp [List.filter_append])
        · rw [Tables.get_set_of_ne _ _ hk, get_tablesOf, get_tablesOf]
          exact Table.ofRows_congr _ _ (by simp [List.filter_append, Ne.symm hk])
      show fileAll _ rest = _
      rw [hset, ih (r :: seen), List.reverse_cons, List.append_assoc, List.singleton_append]

end Store

/-! ### The store of a dataset -/

namespace Dataset

variable (d : Dataset)

/-- Records made by one constructor are all kept, or all dropped, by a filter on kind. -/
theorem filter_kind_map {α : Type} (l : List α) (f : α → Record) {k : RecordKind}
    (hf : ∀ a, (f a).kind = k) (kind : RecordKind) :
    (l.map f).filter (·.kind == kind) = if k = kind then l.map f else [] := by
  split
  · next h =>
    refine List.filter_eq_self.mpr fun r hr ↦ ?_
    obtain ⟨a, -, rfl⟩ := List.mem_map.mp hr
    simp [hf, h]
  · next h =>
    refine List.filter_eq_nil_iff.mpr fun r hr ↦ ?_
    obtain ⟨a, -, rfl⟩ := List.mem_map.mp hr
    simp [hf, h]

/-- The records of a kind are the dataset's list of that kind. -/
theorem filter_recordsOf (kind : RecordKind) :
    (Store.recordsOf d).filter (·.kind == kind) = d.ofKind kind := by
  cases kind <;>
    simp [Store.recordsOf, ofKind, List.filter_append,
      filter_kind_map d.memberTypes Record.memberTier (fun _ ↦ rfl),
      filter_kind_map d.users Record.user (fun _ ↦ rfl),
      filter_kind_map d.profiles Record.profile (fun _ ↦ rfl),
      filter_kind_map d.posts Record.post (fun _ ↦ rfl)]

theorem kinded_ofKind (kind : RecordKind) : ∀ r ∈ d.ofKind kind, r.kind = kind := by
  rw [← filter_recordsOf]
  exact Store.kinded_filter _ kind

/-- The store a dataset loads into: for each kind, the table of the dataset's records of that
kind, in order. -/
def store : Store := ⟨.ofKinds fun k ↦ .ofRows (d.ofKind k) (d.kinded_ofKind k), d.subscriptions⟩

/-- No two records of one kind share a key. -/
def KeysUnique : Prop := ((Store.recordsOf d).map fun r ↦ (r.kind, r.id)).Nodup

end Dataset

namespace Store

/-- Loading stops at the first record, in load order, whose key repeats one of its kind, and
otherwise gives the store of the dataset. -/
theorem ofDataset_eq (d : Dataset) :
    ofDataset d =
      match firstRepeat [] (recordsOf d) with
      | some r => .error (.duplicateId r.kind r.id)
      | none => .ok d.store := by
  have hstart : Tables.empty = tablesOf ([] : List Record).reverse := rfl
  rw [ofDataset, hstart, fileAll_tablesOf]
  split
  · rfl
  · have htables : tablesOf ([].reverse ++ recordsOf d) = d.store.tables := by
      refine Tables.ext_get fun k ↦ ?_
      rw [get_tablesOf, Dataset.store, Tables.get_ofKinds]
      exact Table.ofRows_congr _ _
        (by rw [List.reverse_nil, List.nil_append, Dataset.filter_recordsOf])
    rw [htables]
    rfl

/-- A run with no repeated key has distinct keys, none of them a key of the records before
it. -/
theorem firstRepeat_eq_none {seen rs : List Record} (h : firstRepeat seen rs = none) :
    (rs.map fun r ↦ (r.kind, r.id)).Nodup ∧
      ∀ r ∈ rs, (r.kind, r.id) ∉ seen.map fun s ↦ (s.kind, s.id) := by
  induction rs generalizing seen with
  | nil => simp
  | cons r rs ih =>
    rw [firstRepeat] at h
    split at h
    · cases h
    · next hnew =>
      obtain ⟨hnodup, hfresh⟩ := ih h
      refine ⟨List.nodup_cons.mpr ⟨?_, hnodup⟩, ?_⟩
      · intro hr
        obtain ⟨r', hr', heq⟩ := List.mem_map.mp hr
        exact hfresh r' hr' (List.mem_map.mpr ⟨r, List.mem_cons_self, heq.symm⟩)
      · intro r' hr' hseen
        rcases List.mem_cons.mp hr' with rfl | hr'
        · obtain ⟨s, hs, heq⟩ := List.mem_map.mp hseen
          simp only [Prod.mk.injEq] at heq
          exact hnew (List.any_eq_true.mpr ⟨s, hs, by simp [heq]⟩)
        · exact hfresh r' hr' (List.mem_cons_of_mem _ hseen)

/-- A dataset that loads has no repeated key, and loads into its own store. -/
theorem ofDataset_eq_ok {d : Dataset} {store : Store} (h : ofDataset d = .ok store) :
    store = d.store ∧ d.KeysUnique := by
  rw [ofDataset_eq] at h
  split at h
  · cases h
  · next hnone =>
    cases h
    exact ⟨rfl, (firstRepeat_eq_none hnone).1⟩

/-- A foreign-key scan filters the rows of the column's kind on the column. -/
theorem scanByForeignKey_of_rows (fk : ForeignKey) {s : Store} {α : Type} {l : List α}
    {mk : α → Record} (hrows : s.rows fk.kind = l.map mk) (v : RecordId) :
    s.scanByForeignKey fk v = (l.filter fun a ↦ fk.holds (mk a) v).map mk := by
  rw [scanByForeignKey, hrows, List.filter_map]
  rfl

end Store

end SocialGraph
