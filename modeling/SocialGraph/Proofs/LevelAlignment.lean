import SocialGraph.Proofs.LayoutFrame
import SocialGraph.Proofs.LevelDepth
import SocialGraph.Proofs.ResponseShape

/-!
# The three passes of a level stay aligned

A level is resolved in three passes that share no index, only an order. The first phase runs
a task for every valid planned field of every group on every object of the group; laying the
level out takes the settled outcomes off a queue, field by field, into columns of cells, and
gathers the objects they give into groups of the next level; putting the level together reads
those objects back through the indices the cells hold.

This module shows that the passes agree (`LevelRun.Aligned`):

* read in task order, the cells of the valid fields are one per outcome, each made from its
  task's outcome; every field has a cell on every object of its group; and no outcome is left
  over (`layoutGroups_aligned`);
* read in layout order, the indices the cells point at are the objects of the next level, each
  once and in order (`levelPointers`, `objectSlots`): the cells of a column cover consecutive
  runs of the objects its outcomes give (`flatMap_indices_cellsFrom`), and a field whose
  outcomes give objects adds one group of them at the end of the next level;
* so a cell that points anywhere has a target group, every index it reads holds an entry the
  level below put together, and reading it gives nothing only where that entry is nothing.

The level below a level of an execution runs with fuel to spare, so it puts together an entry
for each of its objects (`map_length_resolveLevel`), and every level of an execution is aligned
(`level_phases_aligned`).
-/

namespace SocialGraph

/-! ### Lists related pairwise -/

/-- Tagging the right-hand list of a `Forall₂` with as many tags keeps the relation. -/
theorem forall₂_zip_right {α β γ : Type} {R : α → β → Prop} {xs : List α} {ys : List β}
    (h : List.Forall₂ R xs ys) :
    ∀ {ts : List γ}, ts.length = ys.length → List.Forall₂ (fun x y ↦ R x y.2) xs (ts.zip ys) := by
  induction h with
  | nil =>
    intro ts hts
    rw [List.length_eq_zero_iff.mp hts]
    exact .nil
  | cons hxy _ ih =>
    intro ts hts
    cases ts with
    | nil => cases hts
    | cons t ts => exact .cons hxy (ih (Nat.succ.inj hts))

/-- A `Forall₂` over a list split in two relates each part to the matching part of the other. -/
theorem forall₂_split_left {α β : Type} {R : α → β → Prop} {xs ys : List α} {us : List β}
    (h : List.Forall₂ R (xs ++ ys) us) :
    List.Forall₂ R xs (us.take xs.length) ∧ List.Forall₂ R ys (us.drop xs.length) := by
  have htake := List.forall₂_take xs.length h
  have hdrop := List.forall₂_drop xs.length h
  rw [List.take_left] at htake
  rw [List.drop_left] at hdrop
  exact ⟨htake, hdrop⟩

/-! ### What cells point at -/

/-- The indices of the next level's objects a cell points at: the one object it holds, or the
range of its list. -/
def Cell.indices : Cell → List Nat
  | .object j => [j]
  | .list s e => List.range' s (e - s)
  | _ => []

/-- A cell made from an outcome points at the objects the outcome gives, counted from where
the objects its field gave before end. -/
theorem indices_ofOutcome (start : Nat) (o : Outcome) :
    (Cell.ofOutcome start o).indices = List.range' start o.records.length := by
  rcases o with e | (v | (_ | r) | rs) <;> simp [Cell.ofOutcome, Cell.indices, Outcome.records]

/-- The cells of a column point, in order, at the consecutive objects its outcomes give. -/
theorem flatMap_indices_cellsFrom (start : Nat) (os : List Outcome) :
    (cellsFrom start os).flatMap Cell.indices =
      List.range' start (os.flatMap Outcome.records).length := by
  induction os generalizing start with
  | nil => rfl
  | cons o os ih =>
    rw [cellsFrom, List.flatMap_cons, indices_ofOutcome, ih, List.flatMap_cons,
      List.length_append, List.range'_append_1]

/-- An outcome of a field of leaves gives no object. -/
theorem records_eq_nil_of_fits_leaf {o : Outcome} (h : o.Fits .leaf) : o.records = [] := by
  rcases o with e | (v | r | rs) <;> simp_all [Outcome.Fits, Settled.Fits, Outcome.records]

/-- A cell made from an outcome, after however many objects its field gave before it. -/
def Cell.MadeFrom (o : Outcome) (cell : Cell) : Prop :=
  ∃ start, cell = Cell.ofOutcome start o

theorem madeFrom_cellsFrom (start : Nat) (os : List Outcome) :
    List.Forall₂ Cell.MadeFrom os (cellsFrom start os) := by
  induction os generalizing start with
  | nil => exact .nil
  | cons o os ih => exact .cons ⟨start, rfl⟩ (ih _)

/-! ### The objects of the next level -/

/-- The objects of groups of the next level, each as the index of its group, counted from
`start`, and its own index in the group, group by group. -/
def objectSlots (start : Nat) (groups : List Group) : List (Option Nat × Nat) :=
  (groups.zipIdx start).flatMap fun x ↦ (List.range x.1.parents.length).map (some x.2, ·)

@[simp]
theorem objectSlots_nil (start : Nat) : objectSlots start [] = [] :=
  rfl

theorem objectSlots_cons (start : Nat) (g : Group) (groups : List Group) :
    objectSlots start (g :: groups) =
      (List.range g.parents.length).map (some start, ·) ++ objectSlots (start + 1) groups := by
  simp [objectSlots, List.zipIdx_cons]

theorem objectSlots_append (start : Nat) (xs ys : List Group) :
    objectSlots start (xs ++ ys) = objectSlots start xs ++ objectSlots (start + xs.length) ys := by
  simp [objectSlots, List.zipIdx_append]

theorem mem_objectSlots {start : Nat} {groups : List Group} {x : Option Nat} {j : Nat} :
    (x, j) ∈ objectSlots start groups ↔
      ∃ t g, x = some (start + t) ∧ groups[t]? = some g ∧ j < g.parents.length := by
  constructor
  · intro h
    obtain ⟨⟨g, t⟩, hmem, hx⟩ := List.mem_flatMap.mp h
    obtain ⟨i, hi, hij⟩ := List.mem_map.mp hx
    obtain ⟨hle, hg⟩ := List.mk_mem_zipIdx_iff_le_and_getElem?_sub.mp hmem
    simp only [Prod.mk.injEq] at hij
    obtain ⟨rfl, rfl⟩ := hij
    exact ⟨t - start, g, by rw [Nat.add_sub_cancel' hle], hg, List.mem_range.mp hi⟩
  · rintro ⟨t, g, rfl, hg, hj⟩
    exact List.mem_flatMap.mpr ⟨(g, start + t), List.mk_add_mem_zipIdx_iff_getElem?.mpr hg,
      List.mem_map.mpr ⟨j, List.mem_range.mpr hj, rfl⟩⟩

/-- No object of the next level is counted twice. -/
theorem nodup_objectSlots (start : Nat) (groups : List Group) :
    (objectSlots start groups).Nodup := by
  induction groups generalizing start with
  | nil => exact List.nodup_nil
  | cons g groups ih =>
    rw [objectSlots_cons, List.nodup_append]
    refine ⟨List.nodup_range.map fun _ _ h ↦ (Prod.mk.inj h).2, ih _, ?_⟩
    -- the first group's objects carry its index, the others' later ones
    rintro ⟨x, j⟩ hx ⟨y, j'⟩ hy heq
    obtain ⟨i, -, hi⟩ := List.mem_map.mp hx
    obtain ⟨t, -, rfl, -, -⟩ := mem_objectSlots.mp hy
    simp only [Prod.mk.injEq] at hi heq
    have hsame : start = start + 1 + t := Option.some.inj (hi.1.trans heq.1)
    omega

/-! ### The pointers of a laid-out level -/

/-- The objects of the next level the cells of a column point at, through the field's target. -/
def columnPointers (target : Option Nat) (column : List Cell) : List (Option Nat × Nat) :=
  column.flatMap fun cell ↦ cell.indices.map (target, ·)

/-- The objects of the next level the cells of a laid-out group point at, field by field. -/
def groupPointers (columns : List (List Cell)) (targets : List (Option Nat)) :
    List (Option Nat × Nat) :=
  (targets.zip columns).flatMap fun x ↦ columnPointers x.1 x.2

/-- The objects of the next level the cells of a laid-out level point at, group by group. -/
def levelPointers (layouts : List (List (List Cell) × List (Option Nat))) :
    List (Option Nat × Nat) :=
  layouts.flatMap fun l ↦ groupPointers l.1 l.2

@[simp]
theorem groupPointers_cons (column : List Cell) (columns : List (List Cell)) (target : Option Nat)
    (targets : List (Option Nat)) :
    groupPointers (column :: columns) (target :: targets) =
      columnPointers target column ++ groupPointers columns targets :=
  rfl

theorem columnPointers_cellsFrom (target : Option Nat) (os : List Outcome) :
    columnPointers target (cellsFrom 0 os) =
      (List.range (os.flatMap Outcome.records).length).map (target, ·) := by
  rw [columnPointers, ← List.map_flatMap, flatMap_indices_cellsFrom, List.range_eq_range']

/-- The cell of the `k`-th planned field of the `a`-th group of a laid-out level on the
group's `i`-th object, with the field's target. -/
def cellAt (layouts : List (List (List Cell) × List (Option Nat))) (a k i : Nat) :
    Option (Option Nat × Cell) :=
  (layouts[a]?).bind fun l ↦ (l.2[k]?).bind fun target ↦
    ((l.1[k]?).bind (·[i]?)).map (target, ·)

/-- Every index a cell of a laid-out level points at is among the level's pointers. -/
theorem mem_levelPointers_of_cellAt {layouts : List (List (List Cell) × List (Option Nat))}
    {a k i : Nat} {target : Option Nat} {cell : Cell}
    (h : cellAt layouts a k i = some (target, cell)) {j : Nat} (hj : j ∈ cell.indices) :
    (target, j) ∈ levelPointers layouts := by
  simp only [cellAt, Option.bind_eq_some_iff, Option.map_eq_some_iff, Prod.mk.injEq] at h
  obtain ⟨l, hl, target', ht, cell', ⟨column, hcol, hcell⟩, rfl, rfl⟩ := h
  refine List.mem_flatMap.mpr ⟨l, List.mem_of_getElem? hl, List.mem_flatMap.mpr
    ⟨(target', column), ?_, List.mem_flatMap.mpr ⟨cell', List.mem_of_getElem? hcell, ?_⟩⟩⟩
  · exact List.mem_iff_getElem?.mpr ⟨k, List.getElem?_zip_eq_some.mpr ⟨ht, hcol⟩⟩
  · exact List.mem_map.mpr ⟨j, hj, rfl⟩

/-- A cell of a level whose pointers are the objects of its next level points into a group of
the next level, at an object that is there. -/
theorem target_of_cellAt {layouts : List (List (List Cell) × List (Option Nat))}
    {next : List Group} (hpointers : levelPointers layouts = objectSlots 0 next) {a k i : Nat}
    {target : Option Nat} {cell : Cell} (h : cellAt layouts a k i = some (target, cell)) {j : Nat}
    (hj : j ∈ cell.indices) :
    ∃ t g, target = some t ∧ next[t]? = some g ∧ j < g.parents.length := by
  have hmem := mem_levelPointers_of_cellAt h hj
  rw [hpointers] at hmem
  obtain ⟨t, g, ht, hg, hjg⟩ := mem_objectSlots.mp hmem
  exact ⟨t, g, by rw [ht, Nat.zero_add], hg, hjg⟩

/-! ### The cells in task order -/

/-- The cells of the valid planned fields of a laid-out group, field by field and object by
object, each with its task; an invalid field has no task, so its cells are left out. -/
def groupTaskCells (g : Group) (plan : List Planned) (columns : List (List Cell)) :
    List ((ObjectType × FieldDef × Field × Option Record) × Cell) :=
  (plan.zip columns).flatMap fun x ↦ (fieldTasks g x.1).zip x.2

/-- The cells of the valid planned fields of a laid-out level in task order, group by group. -/
def taskCells (planned : List (Group × List Planned))
    (layouts : List (List (List Cell) × List (Option Nat))) :
    List ((ObjectType × FieldDef × Field × Option Record) × Cell) :=
  (planned.zip layouts).flatMap fun x ↦ groupTaskCells x.1.1 x.1.2 x.2.1

@[simp]
theorem groupTaskCells_cons (g : Group) (p : Planned) (plan : List Planned) (column : List Cell)
    (columns : List (List Cell)) :
    groupTaskCells g (p :: plan) (column :: columns) =
      (fieldTasks g p).zip column ++ groupTaskCells g plan columns :=
  rfl

@[simp]
theorem taskCells_cons (gp : Group × List Planned) (planned : List (Group × List Planned))
    (l : List (List Cell) × List (Option Nat))
    (layouts : List (List (List Cell) × List (Option Nat))) :
    taskCells (gp :: planned) (l :: layouts) =
      groupTaskCells gp.1 gp.2 l.1 ++ taskCells planned layouts :=
  rfl

/-! ### Laying out one field -/

/-- The cells of a valid field point at the objects of the group it adds, if any: a field adds
no group only when its outcomes give no object, which the outcomes of a field of leaves never
do. -/
theorem columnPointers_fieldGroup {p : Planned} {fd : FieldDef} (hdef : p.definition = .ok fd)
    {parents : List Node} {os : List Outcome} (hlen : parents.length = os.length)
    (hfits : ∀ o ∈ os, o.Fits fd.shape) (start : Nat) :
    columnPointers ((fieldGroup p (columnOf p parents os)).map fun _ ↦ start) (cellsFrom 0 os) =
      objectSlots start (fieldGroup p (columnOf p parents os)).toList := by
  have hchildren :
      (columnOf p parents os).children.length = (os.flatMap Outcome.records).length := by
    simpa using congrArg List.length (columnOf_spec p parents os hlen).2
  rw [columnPointers_cellsFrom]
  unfold fieldGroup
  cases hc : p.childType with
  | none =>
    have hleaf : fd.shape = .leaf := by
      cases hs : fd.shape with
      | leaf => rfl
      | object c => cases hc.symm.trans (Planned.childType_of_shape hdef (.inl hs))
      | list c => cases hc.symm.trans (Planned.childType_of_shape hdef (.inr hs))
    have hnone : os.flatMap Outcome.records = [] :=
      List.flatMap_eq_nil_iff.mpr fun o ho ↦ records_eq_nil_of_fits_leaf (hleaf ▸ hfits o ho)
    simp [hnone]
  | some c =>
    dsimp only
    split
    · next hempty =>
      rw [List.isEmpty_iff.mp hempty, List.length_nil] at hchildren
      simp [← hchildren]
    · simp [objectSlots_cons, hchildren]

/-- What laying out a planned field of a group gives, from `lay` to `lay'`, when the queue
starts with the outcomes `os` of the field's tasks: a cell on every object of the group; with
the field's tasks, the cells in order, each made from its task's outcome; and the cells point
at exactly the objects of the groups the field adds to the next level. -/
structure FieldAligned (g : Group) (p : Planned) (os : List Outcome) (lay lay' : Layout)
    (column : List Cell) (target : Option Nat) : Prop where
  length : column.length = g.parents.length
  tasks : ((fieldTasks g p).zip column).map Prod.fst = fieldTasks g p
  cells : List.Forall₂ (fun o x ↦ Cell.MadeFrom o x.2) os ((fieldTasks g p).zip column)
  pointers : ∃ more, lay'.next = lay.next ++ more ∧
    columnPointers target column = objectSlots lay.next.length more

/-- Laying out a planned field whose outcomes stand at the front of the queue and have the
shapes of their tasks takes them off, and gives what `FieldAligned` says. -/
theorem layoutField_aligned (g : Group) (p : Planned) {lay : Layout} {os rest : List Outcome}
    (hq : lay.queue = os ++ rest)
    (hos : List.Forall₂ (fun task (o : Outcome) ↦ o.Fits task.2.1.shape) (fieldTasks g p) os) :
    (layoutField g lay p).1.queue = rest ∧ FieldAligned g p os lay (layoutField g lay p).1
      (layoutField g lay p).2.1 (layoutField g lay p).2.2 := by
  have hlen := hos.length_eq
  rw [layoutField_eq]
  dsimp only
  rw [hq, List.take_left' hlen.symm, List.drop_left' hlen.symm]
  refine ⟨rfl, ?_⟩
  cases hdef : p.definition with
  | error e =>
    -- an invalid field has no task, takes no outcome and fails on every object
    have hnil : fieldTasks g p = [] := by simp [fieldTasks, hdef]
    rw [hnil] at hos
    obtain rfl := List.forall₂_nil_left_iff.mp hos
    have hgroup : fieldGroup p (fieldColumn g p []) = none := by
      simp [fieldGroup, Planned.childType, hdef]
    refine ⟨by simp [fieldColumn, hdef], by simp [hnil], by simp [hnil], [], by simp [hgroup], ?_⟩
    simp [fieldColumn, hdef, columnPointers, Cell.indices]
  | ok fd =>
    -- a valid field takes one outcome per object, in the order of its tasks
    have htasks : fieldTasks g p = g.parents.map fun n ↦ (g.object, fd, p.field, n.record) := by
      simp [fieldTasks, hdef]
    have hpar : g.parents.length = os.length := by simpa [htasks] using hlen
    have hcol : fieldColumn g p os = columnOf p g.parents os := by simp [fieldColumn, hdef]
    have hfits : ∀ o ∈ os, o.Fits fd.shape := by
      rw [htasks, List.forall₂_map_left_iff] at hos
      exact forall_of_forall₂ (fun o : Outcome ↦ o.Fits fd.shape) (fun _ _ h ↦ h) hos
    have hlength : (cellsFrom 0 os).length = g.parents.length := by
      rw [length_cellsFrom, hpar]
    have htasklen : (fieldTasks g p).length = (cellsFrom 0 os).length := by
      rw [htasks, List.length_map, hlength]
    rw [hcol, (columnOf_spec p g.parents os hpar).1]
    exact ⟨hlength, List.map_fst_zip (Nat.le_of_eq htasklen),
      forall₂_zip_right (madeFrom_cellsFrom 0 os) htasklen, _, rfl,
      columnPointers_fieldGroup hdef hpar hfits _⟩

/-! ### Laying out the fields of a group -/

/-- Outcomes at the front of a queue, cut anywhere, leave their first part at the front and the
rest before what follows. -/
theorem queue_eq_take_append {lay : Layout} {os rest : List Outcome} (hq : lay.queue = os ++ rest)
    (n : Nat) : lay.queue = os.take n ++ (os.drop n ++ rest) := by
  rw [hq, ← List.append_assoc, List.take_append_drop]

/-- What laying out the planned fields of a group gives, from `lay` to `lay'`, when the queue
starts with the outcomes `os` of their tasks: a column and a target per field, with a cell on
every object in every column; with their tasks, the cells of the valid fields in task order,
each made from its task's outcome; and the cells point, in order, at exactly the objects of
the groups the fields add to the next level. -/
structure FieldsAligned (g : Group) (plan : List Planned) (os : List Outcome) (lay lay' : Layout)
    (columns : List (List Cell)) (targets : List (Option Nat)) : Prop where
  length_columns : columns.length = plan.length
  length_targets : targets.length = plan.length
  full : ∀ column ∈ columns, column.length = g.parents.length
  tasks : (groupTaskCells g plan columns).map Prod.fst = plan.flatMap (fieldTasks g)
  cells : List.Forall₂ (fun o x ↦ Cell.MadeFrom o x.2) os (groupTaskCells g plan columns)
  pointers : ∃ more, lay'.next = lay.next ++ more ∧
    groupPointers columns targets = objectSlots lay.next.length more

/-- Laying out the planned fields of a group, whose outcomes stand at the front of the queue
and have the shapes of their tasks, takes them off in plan order and gives what
`FieldsAligned` says. -/
theorem layoutFields_aligned (g : Group) (plan : List Planned) {lay lay' : Layout}
    {os rest : List Outcome} {columns : List (List Cell)} {targets : List (Option Nat)}
    (hq : lay.queue = os ++ rest)
    (hos : List.Forall₂ (fun task (o : Outcome) ↦ o.Fits task.2.1.shape)
      (plan.flatMap (fieldTasks g)) os)
    (h : layoutFields g plan lay = (lay', columns, targets)) :
    lay'.queue = rest ∧ FieldsAligned g plan os lay lay' columns targets := by
  induction plan generalizing lay lay' os columns targets with
  | nil =>
    simp only [layoutFields, Prod.mk.injEq] at h
    obtain ⟨rfl, rfl, rfl⟩ := h
    obtain rfl := List.forall₂_nil_left_iff.mp hos
    exact ⟨hq, rfl, rfl, by simp, rfl, .nil, [], by simp, rfl⟩
  | cons p ps ih =>
    obtain ⟨⟨lay₁, column, target⟩, h₁⟩ : ∃ x, layoutField g lay p = x := ⟨_, rfl⟩
    obtain ⟨⟨lay₂, columns', targets'⟩, h₂⟩ : ∃ x, layoutFields g ps lay₁ = x := ⟨_, rfl⟩
    simp only [layoutFields, h₁, h₂, Prod.mk.injEq] at h
    obtain ⟨rfl, rfl, rfl⟩ := h
    -- the first field takes the outcomes of its tasks off the front, the others the rest
    rw [List.flatMap_cons] at hos
    obtain ⟨hos₁, hos₂⟩ := forall₂_split_left hos
    obtain ⟨hq₁, hfield⟩ := layoutField_aligned g p (queue_eq_take_append hq _) hos₁
    rw [h₁] at hq₁ hfield
    obtain ⟨hq₂, hrest⟩ := ih hq₁ hos₂ h₂
    obtain ⟨more₁, hnext₁, hpoint₁⟩ := hfield.pointers
    obtain ⟨more₂, hnext₂, hpoint₂⟩ := hrest.pointers
    refine ⟨hq₂, by simp [hrest.length_columns], by simp [hrest.length_targets], ?_, ?_, ?_,
      more₁ ++ more₂, by rw [hnext₂, hnext₁, List.append_assoc], ?_⟩
    · intro c hc
      rcases List.mem_cons.mp hc with rfl | hc
      · exact hfield.length
      · exact hrest.full c hc
    · rw [groupTaskCells_cons, List.map_append, hfield.tasks, hrest.tasks, List.flatMap_cons]
    · rw [groupTaskCells_cons, ← List.take_append_drop (fieldTasks g p).length os]
      exact List.rel_append hfield.cells hrest.cells
    · rw [groupPointers_cons, hpoint₁, hpoint₂, objectSlots_append, hnext₁, List.length_append]

/-! ### Laying out a level -/

/-- What laying out the groups of a level gives, from `lay` to `lay'`, when the queue starts
with the outcomes `os` of the level's tasks: a layout per group, with a column and a target per
planned field and a cell on every object in every column; the cells of the valid fields in task
order, each made from its task's outcome; and the cells point, in order, at exactly the
objects of the groups the level adds to the next level. -/
structure LevelAligned (planned : List (Group × List Planned)) (os : List Outcome)
    (lay lay' : Layout) (layouts : List (List (List Cell) × List (Option Nat))) : Prop where
  length : layouts.length = planned.length
  full : ∀ (a : Nat) (g : Group) (plan : List Planned) (columns : List (List Cell))
    (targets : List (Option Nat)), planned[a]? = some (g, plan) →
    layouts[a]? = some (columns, targets) → columns.length = plan.length ∧
      targets.length = plan.length ∧ ∀ column ∈ columns, column.length = g.parents.length
  tasks : (taskCells planned layouts).map Prod.fst = levelTasks planned
  cells : List.Forall₂ (fun o x ↦ Cell.MadeFrom o x.2) os (taskCells planned layouts)
  pointers : ∃ more, lay'.next = lay.next ++ more ∧
    levelPointers layouts = objectSlots lay.next.length more

/-- Laying out the groups of a level, whose outcomes stand at the front of the queue and have
the shapes of their tasks, takes them off in order and gives what `LevelAligned` says. -/
theorem layoutGroups_aligned (planned : List (Group × List Planned)) {lay lay' : Layout}
    {os rest : List Outcome} {layouts : List (List (List Cell) × List (Option Nat))}
    (hq : lay.queue = os ++ rest)
    (hos : List.Forall₂ (fun task (o : Outcome) ↦ o.Fits task.2.1.shape) (levelTasks planned) os)
    (h : layoutGroups planned lay = (lay', layouts)) :
    lay'.queue = rest ∧ LevelAligned planned os lay lay' layouts := by
  induction planned generalizing lay lay' os layouts with
  | nil =>
    simp only [layoutGroups, Prod.mk.injEq] at h
    obtain ⟨rfl, rfl⟩ := h
    obtain rfl := List.forall₂_nil_left_iff.mp hos
    exact ⟨hq, rfl, by simp, rfl, .nil, [], by simp, rfl⟩
  | cons gp planned ih =>
    obtain ⟨g, plan⟩ := gp
    obtain ⟨⟨lay₁, columns, targets⟩, h₁⟩ : ∃ x, layoutFields g plan lay = x := ⟨_, rfl⟩
    obtain ⟨⟨lay₂, layouts'⟩, h₂⟩ : ∃ x, layoutGroups planned lay₁ = x := ⟨_, rfl⟩
    simp only [layoutGroups, h₁, h₂, Prod.mk.injEq] at h
    obtain ⟨rfl, rfl⟩ := h
    -- the first group takes the outcomes of its fields' tasks off the front, the others the rest
    rw [levelTasks_eq, List.flatMap_cons] at hos
    obtain ⟨hos₁, hos₂⟩ := forall₂_split_left hos
    obtain ⟨hq₁, hgroup⟩ := layoutFields_aligned g plan (queue_eq_take_append hq _) hos₁ h₁
    obtain ⟨hq₂, hrest⟩ := ih hq₁ hos₂ h₂
    obtain ⟨more₁, hnext₁, hpoint₁⟩ := hgroup.pointers
    obtain ⟨more₂, hnext₂, hpoint₂⟩ := hrest.pointers
    refine ⟨hq₂, by simp [hrest.length], ?_, ?_, ?_, more₁ ++ more₂,
      by rw [hnext₂, hnext₁, List.append_assoc], ?_⟩
    · intro a g' plan' columns' targets' hgp hl
      cases a with
      | zero =>
        simp only [List.getElem?_cons_zero, Option.some.injEq, Prod.mk.injEq] at hgp hl
        obtain ⟨rfl, rfl⟩ := hgp
        obtain ⟨rfl, rfl⟩ := hl
        exact ⟨hgroup.length_columns, hgroup.length_targets, hgroup.full⟩
      | succ a => exact hrest.full a g' plan' columns' targets' hgp hl
    · rw [taskCells_cons, List.map_append, hgroup.tasks, hrest.tasks, levelTasks_eq,
        levelTasks_eq, List.flatMap_cons]
    · rw [taskCells_cons, ← List.take_append_drop (plan.flatMap (fieldTasks g)).length os]
      exact List.rel_append hgroup.cells hrest.cells
    · rw [levelPointers, List.flatMap_cons, ← levelPointers, hpoint₁, hpoint₂, objectSlots_append,
        hnext₁, List.length_append]

/-! ### What the level below puts together -/

theorem length_assembleGroup_fst (g : Group) (plan : List Planned) (columns : List (List Cell))
    (targets : List (Option Nat)) (N : List (List (Option ObjectData))) :
    (assembleGroup g plan columns targets N).1.length = g.parents.length := by
  simp [assembleGroup]

/-- A level put together has an entry for each object of each of its groups. -/
theorem map_length_assembleLevel {planned : List (Group × List Planned)}
    {layouts : List (List (List Cell) × List (Option Nat))} (hlen : layouts.length = planned.length)
    (N : List (List (Option ObjectData))) :
    (assembleLevel planned layouts N).1.map List.length = planned.map (·.1.parents.length) := by
  have hfst : (planned.zip layouts).map Prod.fst = planned :=
    List.map_fst_zip (Nat.le_of_eq hlen.symm)
  calc (assembleLevel planned layouts N).1.map List.length
      _ = (planned.zip layouts).map fun x ↦ x.1.1.parents.length := by
        simp [assembleLevel, Function.comp_def, length_assembleGroup_fst]
      _ = planned.map (·.1.parents.length) := by
        conv => rhs; rw [← hfst]
        rw [List.map_map]
        rfl

/-- Resolving groups with fuel that outlasts their selections puts together an entry for each
object of each group. -/
theorem map_length_resolveLevel (fuel : Nat) (groups : List Group)
    (h : ∀ g ∈ groups, heightOf g.selection < fuel) (b : Batch) :
    ((resolveLevel fuel groups).run b).1.1.map List.length = groups.map (·.parents.length) := by
  cases fuel with
  | zero =>
    cases groups with
    | nil => rfl
    | cons g _ => exact absurd (h g List.mem_cons_self) (Nat.not_lt_zero _)
  | succ fuel =>
    cases groups with
    | nil => rfl
    | cons g gs =>
      rw [run_resolveLevel_levelRun fuel (List.cons_ne_nil g gs)]
      dsimp only
      rw [map_length_assembleLevel (length_layoutGroups _ _)]
      have hgroups : (levelRun (g :: gs) b).groups = g :: gs := rfl
      simp [LevelRun.planned, hgroups]

/-- Reading an index of a next-level group that holds an entry there reads that entry. -/
theorem takeChild_of_getElem? {N : List (List (Option ObjectData))} {t : Nat}
    {objects : List (Option ObjectData)} (hN : N[t]? = some objects) {j : Nat}
    (hj : j < objects.length) : takeChild N (some t) j = objects[j] := by
  simp [takeChild, hN, List.getElem?_eq_getElem hj]

/-! ### The levels of a run -/

/-- The layout of a level: the layout it ends with, and for each group its columns of cells and
the targets of its planned fields. -/
def LevelRun.laidOut (l : LevelRun) : Layout × List (List (List Cell) × List (Option Nat)) :=
  layoutGroups l.planned ⟨l.outcomes, [], []⟩

/-- The three passes of a level agree, with `nested` what the level below put together:

* the first phase gives one outcome per task, and the level has a task for every valid planned
  field of every group on every object of the group, in that order (`outcomes`);
* laying the level out uses every outcome (`consumed`), gives every planned field a cell on
  every object of its group (`full`), and, read in task order, makes each cell of a valid field
  from its task's outcome (`tasks`, `cells`);
* the indices the cells point at are the objects of the next level, in order (`pointers`), so
  each is pointed at by exactly one cell (`once`); a cell that points anywhere has a target
  group holding what it points at (`target`), each index it reads holds an entry of the nested
  results (`valid`), and reading it gives nothing only where that entry is nothing: the object
  there bubbled to null (`bubbled`). -/
structure LevelRun.Aligned (l : LevelRun) (nested : List (List (Option ObjectData))) : Prop where
  outcomes : l.outcomes.length = l.tasks.length
  consumed : l.laidOut.1.queue = []
  full : ∀ (a : Nat) (g : Group) (plan : List Planned) (columns : List (List Cell))
    (targets : List (Option Nat)), l.planned[a]? = some (g, plan) →
    l.laidOut.2[a]? = some (columns, targets) → columns.length = plan.length ∧
      targets.length = plan.length ∧ ∀ column ∈ columns, column.length = g.parents.length
  tasks : (taskCells l.planned l.laidOut.2).map Prod.fst = l.tasks
  cells : List.Forall₂ (fun o x ↦ Cell.MadeFrom o x.2) l.outcomes (taskCells l.planned l.laidOut.2)
  pointers : levelPointers l.laidOut.2 = objectSlots 0 l.next
  once : (levelPointers l.laidOut.2).Nodup
  target : ∀ (a k i : Nat) (target : Option Nat) (cell : Cell) (j : Nat),
    cellAt l.laidOut.2 a k i = some (target, cell) → j ∈ cell.indices →
      ∃ t g, target = some t ∧ l.next[t]? = some g ∧ j < g.parents.length
  valid : ∀ (a k i : Nat) (target : Option Nat) (cell : Cell) (j : Nat),
    cellAt l.laidOut.2 a k i = some (target, cell) → j ∈ cell.indices →
      ∃ t objects, target = some t ∧ nested[t]? = some objects ∧ j < objects.length
  bubbled : ∀ (a k i : Nat) (target : Option Nat) (cell : Cell) (j : Nat),
    cellAt l.laidOut.2 a k i = some (target, cell) → j ∈ cell.indices →
      takeChild nested target j = none →
        ∃ t objects, target = some t ∧ nested[t]? = some objects ∧ objects[j]? = some none

/-- A level is aligned with what the level below puts together, when that level runs with fuel
that outlasts its selections. -/
theorem levelRun_aligned (groups : List Group) (b : Batch) {fuel : Nat}
    (hfuel : ∀ g ∈ (levelRun groups b).next, heightOf g.selection < fuel) :
    (levelRun groups b).Aligned
      ((resolveLevel fuel (levelRun groups b).next).run (levelRun groups b).settled).1.1 := by
  have hfit : List.Forall₂ (fun task (o : Outcome) ↦ o.Fits task.2.1.shape)
      (levelRun groups b).tasks (levelRun groups b).outcomes :=
    forall₂_levelOutcomes groups b _
  generalize levelRun groups b = l at hfuel hfit ⊢
  have hq : (⟨l.outcomes, [], []⟩ : Layout).queue = l.outcomes ++ [] := (List.append_nil _).symm
  have hlay : layoutGroups l.planned ⟨l.outcomes, [], []⟩ = (l.laidOut.1, l.laidOut.2) := rfl
  obtain ⟨hqueue, hlaid⟩ := layoutGroups_aligned l.planned hq hfit hlay
  have hpointers : levelPointers l.laidOut.2 = objectSlots 0 l.next := by
    obtain ⟨more, hnext, hpoint⟩ := hlaid.pointers
    rw [hpoint, LevelRun.next, show (layoutGroups l.planned ⟨l.outcomes, [], []⟩).1.next = more
      from hnext]
    rfl
  -- the level below puts together an entry for each of its objects
  have hshape := map_length_resolveLevel fuel l.next hfuel l.settled
  generalize ((resolveLevel fuel l.next).run l.settled).1.1 = nested at hshape ⊢
  have hentry : ∀ (t : Nat) (g : Group), l.next[t]? = some g →
      ∃ objects : List (Option ObjectData), nested[t]? = some objects ∧
        objects.length = g.parents.length := by
    intro t g hg
    have hat := congrArg (·[t]?) hshape
    simp only [List.getElem?_map, hg, Option.map_some] at hat
    exact Option.map_eq_some_iff.mp hat
  have hvalid : ∀ (a k i : Nat) (target : Option Nat) (cell : Cell) (j : Nat),
      cellAt l.laidOut.2 a k i = some (target, cell) → j ∈ cell.indices →
        ∃ (t : Nat) (objects : List (Option ObjectData)), target = some t ∧
          nested[t]? = some objects ∧ j < objects.length := by
    intro a k i target cell j h hj
    obtain ⟨t, g, rfl, hg, hjg⟩ := target_of_cellAt hpointers h hj
    obtain ⟨objects, hobjects, hlen⟩ := hentry t g hg
    exact ⟨t, objects, rfl, hobjects, hlen ▸ hjg⟩
  refine ⟨hfit.length_eq.symm, hqueue, hlaid.full, hlaid.tasks, hlaid.cells, hpointers,
    hpointers ▸ nodup_objectSlots 0 l.next, fun a k i target cell j h hj ↦
    target_of_cellAt hpointers h hj, hvalid, ?_⟩
  intro a k i target cell j h hj hnone
  obtain ⟨t, objects, rfl, hobjects, hj'⟩ := hvalid a k i target cell j h hj
  rw [takeChild_of_getElem? hobjects hj'] at hnone
  exact ⟨t, objects, rfl, hobjects, by rw [List.getElem?_eq_getElem hj', hnone]⟩

/-- A run from groups, with fuel left, has a first level. -/
theorem length_levelRuns_pos (fuel : Nat) {groups : List Group} (hne : groups ≠ []) (b : Batch) :
    0 < (levelRuns (fuel + 1) groups b).length := by
  cases groups with
  | nil => exact absurd rfl hne
  | cons g gs => simp [levelRuns]

/-- Every level of a run from groups whose selections the fuel outlasts is aligned with what
the level below puts together: the `k`-th level runs with `k` fewer steps of fuel, and the
level below it with one fewer still; by induction on the fuel, each level's next groups being
lower than its own. -/
theorem levelRuns_aligned (fuel : Nat) {groups : List Group}
    (h : ∀ g ∈ groups, heightOf g.selection < fuel + 1) (b : Batch) (k : Nat)
    (hk : k < (levelRuns (fuel + 1) groups b).length) :
    (levelRuns (fuel + 1) groups b)[k].Aligned
      ((resolveLevel (fuel - k) (levelRuns (fuel + 1) groups b)[k].next).run
        (levelRuns (fuel + 1) groups b)[k].settled).1.1 := by
  induction fuel generalizing groups b k with
  | zero =>
    by_cases hempty : groups.isEmpty
    · simp [levelRuns, hempty] at hk
    · have hruns : levelRuns (0 + 1) groups b = [levelRun groups b] := by
        simp [levelRuns, hempty]
      simp only [hruns, List.length_singleton, Nat.lt_one_iff] at hk ⊢
      subst hk
      exact levelRun_aligned groups b (heightOf_levelRun_next_lt h b)
  | succ fuel ih =>
    by_cases hempty : groups.isEmpty
    · simp [levelRuns, hempty] at hk
    · have hruns : levelRuns (fuel + 1 + 1) groups b =
          levelRun groups b :: levelRuns (fuel + 1) (levelRun groups b).next
            (levelRun groups b).settled := by
        simp [levelRuns, hempty]
      simp only [hruns] at hk ⊢
      cases k with
      | zero => exact levelRun_aligned groups b (heightOf_levelRun_next_lt h b)
      | succ k =>
        simp only [List.getElem_cons_succ, Nat.add_sub_add_right]
        exact ih (heightOf_levelRun_next_lt h b) _ k (by simpa using hk)

/-- The three passes of every level of an execution stay aligned, over any store and with any
failing calls. The `k`-th level runs with the fuel the execution starts with less `k`, so the
level below it runs with `heightOf selection - k`, and its results are what the level reads its
objects from. On that level, the first phase gives one outcome per valid planned field of each
group on each object of the group, in that order; laying the level out uses them all, in the
same order, and cuts no row short; each object of the next level is pointed at by exactly one
cell, and only through its field's target; and reading the level below at a cell's index gives
nothing only where the object there bubbled to null. -/
theorem level_phases_aligned (store : Store) (rules : List FailureRule) (selection : List Field) :
    let levels := levelRuns (heightOf selection + 1) [⟨.query, selection, [⟨none, []⟩]⟩]
      (Batch.fresh store rules)
    ∀ k (hk : k < levels.length), levels[k].Aligned
      ((resolveLevel (heightOf selection - k) levels[k].next).run levels[k].settled).1.1 := by
  intro levels k hk
  refine levelRuns_aligned (heightOf selection) (fun g hg ↦ ?_) _ k hk
  rw [List.mem_singleton.mp hg]
  exact Nat.lt_succ_self _

/-- The root level of the users' names over the one-author dataset, whose one field gives the
list of users. -/
theorem oneAuthor_root_level_aligned :
    let selection : List Field := [⟨none, "users", [], none, [⟨none, "name", [], none, []⟩]⟩]
    let levels := levelRuns (heightOf selection + 1) [⟨.query, selection, [⟨none, []⟩]⟩]
      (Batch.fresh oneAuthor.store [])
    ∃ hk : 0 < levels.length, levels[0].Aligned
      ((resolveLevel (heightOf selection - 0) levels[0].next).run levels[0].settled).1.1 :=
  ⟨length_levelRuns_pos _ (List.cons_ne_nil _ _) _, level_phases_aligned oneAuthor.store [] _ 0 _⟩

end SocialGraph
