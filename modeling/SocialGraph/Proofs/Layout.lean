import SocialGraph.Proofs.Reference

/-!
# Laying out a level and putting it together

A level is resolved breadth first: the outcomes of every field on every object of every group
come in one queue; each planned field takes its outcomes off the front, turns them into a
column of cells and gathers the objects they give into one group of the next level; and once
the next level is done, each object is put together from its row of cells, reading the objects
of the next level by index.

This module shows that the indices line up: whatever the next level gives for each of its
objects, each cell reads back the value that the field's outcome completes to, with the
objects of the next level in place of the records they came from (`layoutField_spec`). So if
the next level gives what an evaluator `eval` gives, every object of this level is put
together as that evaluator's completion says (`layoutGroups_spec`). Nothing here depends on
the store or the cache: the outcomes and the evaluator are parameters.
-/

namespace SocialGraph

/-! ### The objects an outcome gives -/

/-- The records an outcome gives as objects of the next level. -/
def Outcome.records : Outcome → List Record
  | .ok (.object (some r)) => [r]
  | .ok (.list rs) => rs
  | _ => []

/-- An outcome that gives neither an object nor a list. -/
def Outcome.IsFlat : Outcome → Prop
  | .ok (.object (some _)) | .ok (.list _) => False
  | _ => True

theorem childNodes_records (path : List PathSegment) (o : Outcome) :
    (childNodes path o).map (·.record) = o.records.map some := by
  cases o with
  | error e => rfl
  | ok s =>
    cases s with
    | leaf v => rfl
    | object r => cases r <;> rfl
    | list rs =>
      simp only [childNodes, Outcome.records, List.map_map]
      conv => rhs; rw [← List.zipIdx_map_fst 0 rs, List.map_map]
      rfl

theorem length_childNodes (path : List PathSegment) (o : Outcome) :
    (childNodes path o).length = o.records.length := by
  simpa using congrArg List.length (childNodes_records path o)

/-! ### Columns -/

/-- The cells of a column's outcomes, when the field has given `start` objects before them. -/
def cellsFrom : Nat → List Outcome → List Cell
  | _, [] => []
  | start, o :: os => Cell.ofOutcome start o :: cellsFrom (start + o.records.length) os

theorem length_cellsFrom (start : Nat) (os : List Outcome) :
    (cellsFrom start os).length = os.length := by
  induction os generalizing start with
  | nil => rfl
  | cons o os ih => simp [cellsFrom, ih]

/-- A column's cells are those of its outcomes, and the objects it gives and the errors it
reports are those of its outcomes on its objects, in order. -/
theorem columnOf_eq (p : Planned) {parents : List Node} {os : List Outcome}
    (hlen : parents.length = os.length) :
    columnOf p parents os = ⟨cellsFrom 0 os,
      (parents.zip os).flatMap (fun x ↦ childNodes (x.1.path ++ [.key p.key]) x.2),
      (parents.zip os).flatMap (fun x ↦ outcomeErrors (x.1.path ++ [.key p.key]) x.2)⟩ := by
  -- the fold adds one object's outcome at a time to a column that holds those before it
  have hfold : ∀ (nodes : List Node) (os : List Outcome) (col : Column),
      nodes.length = os.length →
      List.foldl (fun col x ↦ col.push p.key x.1 x.2) col (nodes.zip os) =
        ⟨col.cells ++ cellsFrom col.children.length os,
          col.children ++
            (nodes.zip os).flatMap (fun x ↦ childNodes (x.1.path ++ [.key p.key]) x.2),
          col.errors ++
            (nodes.zip os).flatMap (fun x ↦ outcomeErrors (x.1.path ++ [.key p.key]) x.2)⟩ := by
    intro nodes
    induction nodes with
    | nil =>
      intro os col h
      cases os with
      | nil => simp [cellsFrom]
      | cons o os => cases h
    | cons node nodes ih =>
      intro os col h
      cases os with
      | nil => cases h
      | cons o os =>
        rw [List.zip_cons_cons, List.foldl_cons, ih os _ (by simpa using h)]
        simp [Column.push, cellsFrom, length_childNodes]
  simpa [columnOf] using hfold parents os ⟨[], [], []⟩ hlen

/-- A column holds the cells of its outcomes, and the objects they give in order. -/
theorem columnOf_spec (p : Planned) (parents : List Node) (outcomes : List Outcome)
    (hlen : parents.length = outcomes.length) :
    (columnOf p parents outcomes).cells = cellsFrom 0 outcomes ∧
      (columnOf p parents outcomes).children.map (·.record) =
        (outcomes.flatMap Outcome.records).map some := by
  rw [columnOf_eq p hlen]
  refine ⟨rfl, ?_⟩
  -- each object's outcome gives its records, and the outcomes are the zip's second halves
  have hsnd : (parents.zip outcomes).map Prod.snd = outcomes :=
    List.map_snd_zip (Nat.le_of_eq hlen.symm)
  calc ((parents.zip outcomes).flatMap fun x ↦
          childNodes (x.1.path ++ [.key p.key]) x.2).map (·.record)
      _ = (parents.zip outcomes).flatMap fun x ↦ x.2.records.map some := by
        simp only [List.map_flatMap, childNodes_records]
      _ = (outcomes.flatMap Outcome.records).map some := by
        conv => rhs; rw [← hsnd]
        simp only [List.flatMap_map, List.map_flatMap]

/-! ### Reading cells back -/

section Values

variable (p : Planned) (obj : ObjectType → Record → Option ObjectData)
  (N : List (List (Option ObjectData))) (target : Option Nat)

/-- Reading a range of indices of a next-level group reads the objects of the records placed
there. -/
theorem mapM_range'_takeChild {c : ObjectType} (start : Nat) (rs : List Record)
    (h : ∀ k (hk : k < rs.length), takeChild N target (start + k) = obj c rs[k]) :
    (List.range' start rs.length).mapM (takeChild N target) = rs.mapM (obj c) := by
  induction rs generalizing start with
  | nil => rfl
  | cons r rs ih =>
    have hhead := h 0 (by simp)
    have htail := ih (start + 1) fun k hk ↦ by
      rw [Nat.add_assoc, Nat.add_comm 1 k]
      exact h (k + 1) (by simpa using hk)
    simp only [List.length_cons, List.range'_succ, List.mapM_cons, htail]
    simp only [Nat.add_zero, List.getElem_cons_zero] at hhead
    rw [hhead]

/-- A cell reads back the value its outcome completes to, when the next level holds, at the
cell's indices, the objects of the outcome's records. -/
theorem value_ofOutcome (start : Nat) (o : Outcome)
    (hplaced : ∀ c, p.childType = some c →
      ∀ k (hk : k < o.records.length), takeChild N target (start + k) = obj c o.records[k])
    (hflat : p.childType = none → o.IsFlat) :
    ((Cell.ofOutcome start o).value N target).1 = p.complete obj o := by
  cases o with
  | error e => rfl
  | ok s =>
    cases s with
    | leaf v => rfl
    | object r =>
      cases r with
      | none => rfl
      | some r =>
        cases hc : p.childType with
        | none => exact (hflat hc).elim
        | some c =>
          have h := hplaced c hc 0 (by simp [Outcome.records])
          simp only [Nat.add_zero, Outcome.records, List.getElem_cons_zero] at h
          simp only [Cell.ofOutcome, Cell.value, h, Planned.complete, hc]
          cases obj c r <;> rfl
    | list rs =>
      cases hc : p.childType with
      | none => exact (hflat hc).elim
      | some c =>
        have h := mapM_range'_takeChild obj N target start rs (hplaced c hc)
        simp only [Cell.ofOutcome, Cell.value, Nat.add_sub_cancel_left, h, Planned.complete, hc]
        cases rs.mapM (obj c) <;> rfl

/-- The cells of a column read back the values their outcomes complete to. -/
theorem values_cellsFrom (start : Nat) (os : List Outcome)
    (hplaced : ∀ c, p.childType = some c → ∀ k (hk : k < (os.flatMap Outcome.records).length),
      takeChild N target (start + k) = obj c (os.flatMap Outcome.records)[k])
    (hflat : p.childType = none → ∀ o ∈ os, o.IsFlat) :
    (cellsFrom start os).map (fun cell ↦ (cell.value N target).1) = os.map (p.complete obj) := by
  induction os generalizing start with
  | nil => rfl
  | cons o os ih =>
    -- the first outcome's records come first among the column's, the rest after them
    have hhead : ∀ c, p.childType = some c → ∀ k (hk : k < o.records.length),
        takeChild N target (start + k) = obj c o.records[k] := by
      intro c hc k hk
      have h := hplaced c hc k (by rw [List.flatMap_cons, List.length_append]; omega)
      simpa only [List.flatMap_cons, List.getElem_append_left hk] using h
    have htail : ∀ c, p.childType = some c →
        ∀ k (hk : k < (os.flatMap Outcome.records).length),
        takeChild N target (start + o.records.length + k) =
          obj c (os.flatMap Outcome.records)[k] := by
      intro c hc k hk
      have h := hplaced c hc (o.records.length + k)
        (by rw [List.flatMap_cons, List.length_append]; omega)
      simpa only [List.flatMap_cons, List.getElem_append_right (Nat.le_add_right _ k),
        Nat.add_sub_cancel_left, ← Nat.add_assoc] using h
    rw [cellsFrom, List.map_cons, List.map_cons,
      value_ofOutcome p obj N target start o hhead fun hc ↦ hflat hc o List.mem_cons_self,
      ih _ htail fun hc o' ho' ↦ hflat hc o' (List.mem_cons_of_mem _ ho')]

end Values

/-- A cell of a column read back at an index, when the column reads back a list of values. -/
theorem value_getD {cells : List Cell} {N : List (List (Option ObjectData))}
    {target : Option Nat} {vs : List Json} (h : cells.map (fun c ↦ (c.value N target).1) = vs)
    {i : Nat} (hi : i < vs.length) : ((cells.getD i .failed).value N target).1 = vs[i] := by
  subst h
  rw [List.length_map] at hi
  simp [List.getD_eq_getElem?_getD, List.getElem?_eq_getElem hi]

/-! ### Putting an object together -/

/-- The values of a row of cells, each with its planned field. -/
def rowValues (N : List (List (Option ObjectData))) (plan : List Planned)
    (targets : List (Option Nat)) (row : List Cell) : List (Planned × Json) :=
  ((plan.zip targets).zip row).map fun x ↦ (x.1.1, (x.2.value N x.1.2).1)

/-- An object is put together from the values its row of cells reads back. -/
theorem assemble_fst (t : ObjectType) (plan : List Planned) (targets : List (Option Nat))
    (N : List (List (Option ObjectData))) (node : Node) (row : List Cell) :
    (assemble t plan targets N node row).1 = objectOfValues (rowValues N plan targets row) := by
  -- the entries are the values in order, and the object bubbles when one of them violates
  have hfields : ∀ xs : List ((Planned × Option Nat) × Cell),
      (assembleFields t N node xs).1 =
          (xs.map fun x ↦ (x.1.1, (x.2.value N x.1.2).1)).map (fun pv ↦ (pv.1.key, pv.2)) ∧
        (assembleFields t N node xs).2.1 =
          (xs.map fun x ↦ (x.1.1, (x.2.value N x.1.2).1)).any
            (fun pv ↦ isNull pv.2 && !pv.1.nullable) := by
    intro xs
    induction xs with
    | nil => exact ⟨rfl, rfl⟩
    | cons x xs ih =>
      obtain ⟨hdata, hbubbled⟩ := ih
      simp [assembleFields, hdata, hbubbled]
  obtain ⟨hdata, hbubbled⟩ := hfields ((plan.zip targets).zip row)
  simp only [assemble, hdata, hbubbled, objectOfValues, rowValues]
  rfl

theorem assembleGroup_fst (g : Group) (plan : List Planned) (columns : List (List Cell))
    (targets : List (Option Nat)) (N : List (List (Option ObjectData))) :
    (assembleGroup g plan columns targets N).1 = g.parents.zipIdx.map fun x ↦
      objectOfValues (rowValues N plan targets (columns.map (·.getD x.2 .failed))) := by
  simp [assembleGroup, assemble_fst]

/-- A map over a list with indices that reads each element at its own index. -/
theorem map_zipIdx_of_getElem {α β : Type} {l : List α} {f : α × Nat → β} {g : α → β}
    (h : ∀ i (hi : i < l.length), f (l[i], i) = g l[i]) : l.zipIdx.map f = l.map g := by
  refine List.ext_getElem (by simp) fun i h₁ h₂ ↦ ?_
  simp only [List.getElem_map, List.getElem_zipIdx, Nat.zero_add]
  exact h i (by simpa using h₂)

/-! ### Laying out fields and groups -/

section Layout

variable (eval : ObjectType → Option Record → List Field → Option ObjectData)
  (outcome : ObjectType → Option Record → Planned → Outcome)

/-- What the evaluator gives for each object of a group. -/
def groupValues (g : Group) : List (Option ObjectData) :=
  g.parents.map fun n ↦ eval g.object n.record g.selection

/-- The value a planned field completes to on an object, with the evaluator for the objects it
gives. -/
def fieldValue (t : ObjectType) (o : Option Record) (p : Planned) : Json :=
  p.complete (fun c r ↦ eval c (some r) p.children) (outcome t o p)

/-- The outcomes a planned field of a group has in the level's queue: one per object when the
field is valid, none when it is not. -/
def fieldOutcomes (g : Group) (p : Planned) : List Outcome :=
  match p.definition with
  | .ok _ => g.parents.map fun n ↦ outcome g.object n.record p
  | .error _ => []

/-- The next level read through a prefix of its groups: an index of a group there reads that
group's values. -/
theorem takeChild_of_isPrefix {N : List (List (Option ObjectData))} {next : List Group}
    (hN : next.map (groupValues eval) <+: N) {j : Nat} (hj : j < next.length) (k : Nat) :
    takeChild N (some j) k = (((groupValues eval next[j])[k]?).join) := by
  obtain ⟨more, rfl⟩ := hN
  have hj' : j < (next.map (groupValues eval)).length := by simpa using hj
  simp only [takeChild, Option.bind_some, List.getElem?_append_left hj', List.getElem?_map,
    List.getElem?_eq_getElem hj, Option.map_some]

/-- The values of a group whose objects are those of some records. -/
theorem groupValues_of_records {c : ObjectType} {selection : List Field} {children : List Node}
    {rs : List Record} (h : children.map (·.record) = rs.map some) :
    groupValues eval ⟨c, selection, children⟩ = rs.map fun r ↦ eval c (some r) selection := by
  have h' := congrArg (List.map fun o ↦ eval c o selection) h
  simpa [groupValues, List.map_map, Function.comp_def] using h'

variable {eval outcome}

/-- Laying out one planned field: it takes its outcomes off the queue, adds at most one group
of the next level, for the objects it gives, and its cells read back the values its outcomes
complete to, whatever the next level gives, provided it gives the evaluator's values. -/
theorem layoutField_spec
    (hinvalid : ∀ t o p e, p.definition = .error e → outcome t o p = .error e)
    (g : Group) (p : Planned)
    (hflat : ∀ o fd, p.definition = .ok fd → p.childType = none → (outcome g.object o p).IsFlat)
    {lay lay' : Layout} {rest : List Outcome} {cells : List Cell}
    {target : Option Nat} (hq : lay.queue = fieldOutcomes outcome g p ++ rest)
    (h : layoutField g lay p = (lay', cells, target)) :
    lay'.queue = rest ∧
      (∃ more, lay'.next = lay.next ++ more ∧
        ∀ g' ∈ more, p.childType = some g'.object ∧ g'.selection = p.children) ∧
      ∀ N, lay'.next.map (groupValues eval) <+: N →
        cells.map (fun c ↦ (c.value N target).1) =
          g.parents.map fun n ↦ fieldValue eval outcome g.object n.record p := by
  unfold layoutField at h
  cases hdef : p.definition with
  | error e =>
    -- an invalid field takes nothing and fails on every object
    rw [hdef] at h
    simp only [Prod.mk.injEq] at h
    obtain ⟨rfl, rfl, rfl⟩ := h
    refine ⟨by simpa [fieldOutcomes, hdef] using hq, ⟨[], by simp, by simp⟩, ?_⟩
    intro N _
    simp [Cell.value, fieldValue, hinvalid _ _ p e hdef, Planned.complete]
  | ok fd =>
    rw [hdef] at h
    have hqueue : lay.queue = (g.parents.map fun n ↦ outcome g.object n.record p) ++ rest := by
      simpa [fieldOutcomes, hdef] using hq
    have hlen : (g.parents.map fun n ↦ outcome g.object n.record p).length = g.parents.length :=
      List.length_map ..
    rw [hqueue, List.take_left' hlen, List.drop_left' hlen] at h
    obtain ⟨hcells, hchildren⟩ := columnOf_spec p g.parents _ hlen.symm
    -- the cells read back the completions wherever the objects they give are placed
    have hvalues : ∀ N tg, (∀ c, p.childType = some c → ∀ k (hk : k < ((g.parents.map
        fun n ↦ outcome g.object n.record p).flatMap Outcome.records).length),
        takeChild N tg (0 + k) = eval c (some ((g.parents.map
          fun n ↦ outcome g.object n.record p).flatMap Outcome.records)[k]) p.children) →
        (columnOf p g.parents (g.parents.map fun n ↦ outcome g.object n.record p)).cells.map
          (fun c ↦ (c.value N tg).1) =
          g.parents.map fun n ↦ fieldValue eval outcome g.object n.record p := by
      intro N tg hplaced
      rw [hcells, values_cellsFrom p (fun c r ↦ eval c (some r) p.children) N tg 0 _ hplaced
        fun hc o ho ↦ by
          obtain ⟨n, -, rfl⟩ := List.mem_map.mp ho
          exact hflat _ fd hdef hc]
      simp [fieldValue]
    cases hc : p.childType with
    | none =>
      simp only [hc, Prod.mk.injEq] at h
      obtain ⟨rfl, rfl, rfl⟩ := h
      refine ⟨rfl, ⟨[], by simp, by simp⟩, fun N _ ↦ hvalues N none ?_⟩
      intro c hc'
      cases hc.symm.trans hc'
    | some c =>
      simp only [hc] at h
      split at h
      · -- no object was given: the column's cells hold no index
        next hempty =>
        simp only [Prod.mk.injEq] at h
        obtain ⟨rfl, rfl, rfl⟩ := h
        refine ⟨rfl, ⟨[], by simp, by simp⟩, fun N _ ↦ hvalues N none ?_⟩
        intro c' _ k hk
        rw [List.isEmpty_iff] at hempty
        rw [hempty, List.map_nil] at hchildren
        have hnil := (List.map_eq_nil_iff.mp hchildren.symm)
        simp [hnil] at hk
      · -- the objects given form one new group, at the end of the next level
        simp only [Prod.mk.injEq] at h
        obtain ⟨rfl, rfl, rfl⟩ := h
        refine ⟨rfl, ⟨_, rfl, by simp⟩, fun N hN ↦ hvalues N _ ?_⟩
        intro c' hc' k hk
        cases hc.symm.trans hc'
        rw [takeChild_of_isPrefix eval hN (by simp), Nat.zero_add]
        simp [groupValues_of_records eval hchildren, List.getElem?_eq_getElem hk]

/-- Laying out the planned fields of a group: they take their outcomes off the queue in plan
order, and for every object of the group its row reads back the values its fields complete
to. -/
theorem layoutFields_spec
    (hinvalid : ∀ t o p e, p.definition = .error e → outcome t o p = .error e)
    (g : Group) (plan : List Planned)
    (hflat : ∀ p ∈ plan, ∀ o fd, p.definition = .ok fd → p.childType = none →
      (outcome g.object o p).IsFlat)
    {lay lay' : Layout} {rest : List Outcome} {columns : List (List Cell)}
    {targets : List (Option Nat)}
    (hq : lay.queue = plan.flatMap (fieldOutcomes outcome g) ++ rest)
    (h : layoutFields g plan lay = (lay', columns, targets)) :
    lay'.queue = rest ∧
      (∃ more, lay'.next = lay.next ++ more ∧
        ∀ g' ∈ more, ∃ p ∈ plan, p.childType = some g'.object ∧ g'.selection = p.children) ∧
      ∀ N, lay'.next.map (groupValues eval) <+: N → ∀ i (hi : i < g.parents.length),
        rowValues N plan targets (columns.map (·.getD i .failed)) =
          plan.map fun p ↦ (p, fieldValue eval outcome g.object g.parents[i].record p) := by
  induction plan generalizing lay lay' columns targets with
  | nil =>
    simp only [layoutFields, Prod.mk.injEq] at h
    obtain ⟨rfl, rfl, rfl⟩ := h
    exact ⟨by simpa using hq, ⟨[], by simp, by simp⟩, fun _ _ _ _ ↦ rfl⟩
  | cons p ps ih =>
    obtain ⟨⟨lay₁, column, target⟩, h₁⟩ : ∃ x, layoutField g lay p = x := ⟨_, rfl⟩
    obtain ⟨⟨lay₂, columns', targets'⟩, h₂⟩ : ∃ x, layoutFields g ps lay₁ = x := ⟨_, rfl⟩
    simp only [layoutFields, h₁, h₂, Prod.mk.injEq] at h
    obtain ⟨rfl, rfl, rfl⟩ := h
    obtain ⟨hq₁, ⟨more₁, hnext₁, hmore₁⟩, hvals₁⟩ :=
      layoutField_spec hinvalid g p (hflat p List.mem_cons_self)
        (by rw [hq, List.flatMap_cons, List.append_assoc]) h₁
    obtain ⟨hq₂, ⟨more₂, hnext₂, hmore₂⟩, hvals₂⟩ :=
      ih (fun q hq ↦ hflat q (List.mem_cons_of_mem _ hq)) hq₁ h₂
    refine ⟨hq₂, ⟨more₁ ++ more₂, by rw [hnext₂, hnext₁, List.append_assoc], ?_⟩, ?_⟩
    · intro g' hg'
      rcases List.mem_append.mp hg' with hg' | hg'
      · exact ⟨p, List.mem_cons_self, hmore₁ g' hg'⟩
      · obtain ⟨q, hq, hgq⟩ := hmore₂ g' hg'
        exact ⟨q, List.mem_cons_of_mem _ hq, hgq⟩
    · -- the first field's groups come before the others', so the same next level serves both
      intro N hN i hi
      have hN₁ : lay₁.next.map (groupValues eval) <+: N :=
        (List.prefix_append _ _).trans (by rwa [hnext₂, List.map_append] at hN)
      have hcol := value_getD (hvals₁ N hN₁) (i := i) (by simpa using hi)
      simp only [List.getElem_map] at hcol
      simp only [List.map_cons, rowValues, List.zip_cons_cons, hcol]
      exact congrArg _ (hvals₂ N hN i hi)

/-- Laying out a whole level: the groups take their outcomes off the queue in order, the next
level's groups are those of planned fields with an object type, with those fields' merged
sub-selections; and once the next level gives the evaluator's values, each object of the
level is put together from the values its fields complete to. -/
theorem layoutGroups_spec
    (hinvalid : ∀ t o p e, p.definition = .error e → outcome t o p = .error e)
    (planned : List (Group × List Planned))
    (hflat : ∀ gp ∈ planned, ∀ p ∈ gp.2, ∀ o fd, p.definition = .ok fd → p.childType = none →
      (outcome gp.1.object o p).IsFlat)
    {lay lay' : Layout} {rest : List Outcome}
    {layouts : List (List (List Cell) × List (Option Nat))}
    (hq : lay.queue = planned.flatMap (fun gp ↦ gp.2.flatMap (fieldOutcomes outcome gp.1)) ++ rest)
    (h : layoutGroups planned lay = (lay', layouts)) :
    lay'.queue = rest ∧
      (∃ more, lay'.next = lay.next ++ more ∧ ∀ g' ∈ more, ∃ gp ∈ planned, ∃ p ∈ gp.2,
        p.childType = some g'.object ∧ g'.selection = p.children) ∧
      ∀ N, lay'.next.map (groupValues eval) <+: N →
        (assembleLevel planned layouts N).1 = planned.map fun gp ↦ gp.1.parents.map fun n ↦
          objectOfValues (gp.2.map fun p ↦
            (p, fieldValue eval outcome gp.1.object n.record p)) := by
  induction planned generalizing lay lay' layouts with
  | nil =>
    simp only [layoutGroups, Prod.mk.injEq] at h
    obtain ⟨rfl, rfl⟩ := h
    exact ⟨by simpa using hq, ⟨[], by simp, by simp⟩, fun _ _ ↦ by simp [assembleLevel]⟩
  | cons gp planned ih =>
    obtain ⟨g, plan⟩ := gp
    obtain ⟨⟨lay₁, columns, targets⟩, h₁⟩ : ∃ x, layoutFields g plan lay = x := ⟨_, rfl⟩
    obtain ⟨⟨lay₂, layouts'⟩, h₂⟩ : ∃ x, layoutGroups planned lay₁ = x := ⟨_, rfl⟩
    simp only [layoutGroups, h₁, h₂, Prod.mk.injEq] at h
    obtain ⟨rfl, rfl⟩ := h
    obtain ⟨hq₁, ⟨more₁, hnext₁, hmore₁⟩, hrows⟩ :=
      layoutFields_spec hinvalid g plan (hflat (g, plan) List.mem_cons_self)
        (by rw [hq, List.flatMap_cons, List.append_assoc]) h₁
    obtain ⟨hq₂, ⟨more₂, hnext₂, hmore₂⟩, hlevel⟩ :=
      ih (fun gp hgp ↦ hflat gp (List.mem_cons_of_mem _ hgp)) hq₁ h₂
    refine ⟨hq₂, ⟨more₁ ++ more₂, by rw [hnext₂, hnext₁, List.append_assoc], ?_⟩, ?_⟩
    · intro g' hg'
      rcases List.mem_append.mp hg' with hg' | hg'
      · obtain ⟨p, hp, hgp⟩ := hmore₁ g' hg'
        exact ⟨(g, plan), List.mem_cons_self, p, hp, hgp⟩
      · obtain ⟨gp, hgp, hrest⟩ := hmore₂ g' hg'
        exact ⟨gp, List.mem_cons_of_mem _ hgp, hrest⟩
    · intro N hN
      have hN₁ : lay₁.next.map (groupValues eval) <+: N :=
        (List.prefix_append _ _).trans (by rwa [hnext₂, List.map_append] at hN)
      have hgroup : (assembleGroup g plan columns targets N).1 = g.parents.map fun n ↦
          objectOfValues (plan.map fun p ↦ (p, fieldValue eval outcome g.object n.record p)) := by
        rw [assembleGroup_fst]
        exact map_zipIdx_of_getElem fun i hi ↦ by rw [hrows N hN₁ i hi]
      have hrest := hlevel N hN
      simp only [assembleLevel, List.zip_cons_cons, List.map_cons] at hrest ⊢
      rw [hgroup, hrest]

end Layout

end SocialGraph
