import SocialGraph.Proofs.OutcomeShapes
import SocialGraph.Proofs.ResponsePaths

/-!
# Where a level's cells, errors and objects stand

Laying out a level turns the queue of settled outcomes into columns of cells, the errors of the
failed outcomes and the groups of the next level. This module says where each of them stands,
for any outcomes that have the shapes their fields declare.

* Each cell fits its planned field (`CellFits`): an invalid field fails, a leaf field fails or
  holds its value, an object or list field fails, is null, or points into a group of the next
  level of the field's type and merged sub-selection.
* Each error reported while laying out stands at a failed cell of a valid field, at the path of
  the object and the field's key, and these errors are apart.
* Each object of the next level stands in a cell pointing at it (`ChildOf`): at the cell's path
  when the cell holds one object, and one list position below it when the cell holds a list.

The facts are stated over the rows the objects are put together from (`rowOf`), so that the
next steps never look at indices of columns.
-/

namespace SocialGraph

/-! ### Columns -/

theorem mem_cellsFrom {start : Nat} {os : List Outcome} {cell : Cell}
    (h : cell ∈ cellsFrom start os) : ∃ s, ∃ o ∈ os, cell = Cell.ofOutcome s o := by
  induction os generalizing start with
  | nil => cases h
  | cons o os ih =>
    rcases List.mem_cons.mp h with rfl | h
    · exact ⟨start, o, List.mem_cons_self, rfl⟩
    · obtain ⟨s, o', ho', rfl⟩ := ih h
      exact ⟨s, o', List.mem_cons_of_mem _ ho', rfl⟩

theorem getElem?_cellsFrom (start : Nat) {os : List Outcome} {i : Nat} {o : Outcome}
    (h : os[i]? = some o) : ∃ s, (cellsFrom start os)[i]? = some (Cell.ofOutcome s o) := by
  induction os generalizing start i with
  | nil => cases h
  | cons o' os ih =>
    cases i with
    | zero =>
      cases h
      exact ⟨start, rfl⟩
    | succ i => exact ih (start + o'.records.length) h

/-! ### The objects a cell points at -/

/-- The object `m` at index `j` of a field's next-level group stands in a cell of the field on
an object, whose field has path `base`: the cell points at it, and it stands at `base`; or the
cell spans a range of indices holding `j`, and it stands at its position in the list. -/
def ChildOf (base : List PathSegment) (j : Nat) (m : Node) : Cell → Prop
  | .object j' => j' = j ∧ m.path = base
  | .list s e => s ≤ j ∧ j < e ∧ m.path = base ++ [.index (j - s)]
  | _ => False

theorem childOf_ofOutcome {base : List PathSegment} {o : Outcome} {j : Nat} {m : Node}
    (h : (childNodes base o)[j]? = some m) (start : Nat) :
    ChildOf base (start + j) m (Cell.ofOutcome start o) := by
  rcases o with e | (v | (_ | r) | rs)
  · simp [childNodes] at h
  · simp [childNodes] at h
  · simp [childNodes] at h
  · -- one object: it is the cell's, at the field's path
    cases j with
    | zero =>
      simp only [childNodes, List.getElem?_cons_zero, Option.some.injEq] at h
      subst h
      exact ⟨rfl, rfl⟩
    | succ j => simp [childNodes] at h
  · -- a list: the object at position j of the list
    simp only [childNodes, List.getElem?_map, List.getElem?_zipIdx, Option.map_map] at h
    obtain ⟨r, hr, rfl⟩ := Option.map_eq_some_iff.mp h
    have hj : j < rs.length := (List.getElem?_eq_some_iff.mp hr).1
    refine ⟨Nat.le_add_right start j, Nat.add_lt_add_left hj start, ?_⟩
    simp

/-- Every object a column gives stands in the cell of the object it was given on. -/
theorem childOf_column (key : String) (start : Nat) {parents : List Node} {os : List Outcome}
    (hlen : parents.length = os.length) {j : Nat} {m : Node}
    (h : ((parents.zip os).flatMap fun x ↦ childNodes (x.1.path ++ [.key key]) x.2)[j]? =
      some m) :
    ∃ i : Nat, ∃ n : Node, ∃ cell : Cell, parents[i]? = some n ∧
      (cellsFrom start os)[i]? = some cell ∧ ChildOf (n.path ++ [.key key]) (start + j) m cell := by
  induction parents generalizing os start j with
  | nil => simp at h
  | cons n parents ih =>
    cases os with
    | nil => cases hlen
    | cons o os =>
      rw [List.zip_cons_cons, List.flatMap_cons] at h
      by_cases hj : j < (childNodes (n.path ++ [.key key]) o).length
      · -- an object the first outcome gave
        rw [List.getElem?_append_left hj] at h
        exact ⟨0, n, _, rfl, rfl, childOf_ofOutcome h start⟩
      · -- an object a later outcome gave: the later cells count from after the first's objects
        rw [List.getElem?_append_right (Nat.le_of_not_lt hj)] at h
        obtain ⟨i, n', cell, hn', hcell, hchild⟩ :=
          ih (start + o.records.length) (by simpa using hlen) h
        have hindex :
            start + o.records.length + (j - (childNodes (n.path ++ [.key key]) o).length) =
              start + j := by
          rw [length_childNodes] at hj ⊢
          omega
        rw [hindex] at hchild
        exact ⟨i + 1, n', cell, hn', hcell, hchild⟩

theorem path_of_mem_outcomeErrors {path : List PathSegment} {o : Outcome} {e : ResponseError}
    (h : e ∈ outcomeErrors path o) : e.path = some path := by
  cases o with
  | ok s => cases h
  | error err =>
    rw [List.mem_singleton.mp h]
    rfl

/-- Every error a column reports stands at a failed cell, at the path of the field on the cell's
object. -/
theorem failed_of_mem_columnErrors (key : String) (start : Nat) {parents : List Node}
    {os : List Outcome} {e : ResponseError}
    (he : e ∈ (parents.zip os).flatMap fun x ↦ outcomeErrors (x.1.path ++ [.key key]) x.2) :
    ∃ i : Nat, ∃ n : Node, parents[i]? = some n ∧ (cellsFrom start os)[i]? = some Cell.failed ∧
      e.path = some (n.path ++ [.key key]) := by
  obtain ⟨⟨n, o⟩, hx, he⟩ := List.mem_flatMap.mp he
  obtain ⟨i, hi⟩ := List.mem_iff_getElem?.mp hx
  obtain ⟨hn, ho⟩ := List.getElem?_zip_eq_some.mp hi
  cases o with
  | ok s => cases he
  | error err =>
    obtain ⟨s, hs⟩ := getElem?_cellsFrom start ho
    exact ⟨i, n, hn, hs, path_of_mem_outcomeErrors he⟩

/-- The errors of a column over objects that lie apart are apart. -/
theorem pairwise_columnErrors (key : String) {parents : List Node} {os : List Outcome}
    (hlen : parents.length = os.length)
    (hparents : parents.Pairwise fun n n' ↦ PathsApart n.path n'.path) :
    ((parents.zip os).flatMap fun x ↦ outcomeErrors (x.1.path ++ [.key key]) x.2).Pairwise
      ErrorsApart := by
  have hzip : (parents.zip os).Pairwise fun x y ↦ PathsApart x.1.path y.1.path :=
    List.Pairwise.of_map Prod.fst (fun _ _ h ↦ h) (by rwa [List.map_fst_zip (Nat.le_of_eq hlen)])
  refine List.pairwise_flatMap.mpr ⟨fun x _ ↦ ?_, hzip.imp fun hxy e he e' he' ↦ ?_⟩
  · -- an outcome reports one error at most
    rcases x with ⟨n, _ | _⟩ <;> simp [outcomeErrors]
  · exact errorsApart_of_below ⟨_, path_of_mem_outcomeErrors he⟩
      ⟨_, path_of_mem_outcomeErrors he'⟩ hxy

/-! ### Cells that fit their fields -/

/-- The target of a planned field holds, in the next level, a group of objects of type `c`
with the field's merged sub-selection. -/
def TargetHolds (next : List Group) (p : Planned) (target : Option Nat) (c : ObjectType) :
    Prop :=
  ∃ t g, target = some t ∧ next[t]? = some g ∧ g.object = c ∧ g.selection = p.children

theorem TargetHolds.mono {next next' : List Group} (h : next <+: next') {p : Planned}
    {target : Option Nat} {c : ObjectType} (ht : TargetHolds next p target c) :
    TargetHolds next' p target c := by
  obtain ⟨t, g, rfl, hg, hc, hs⟩ := ht
  obtain ⟨more, rfl⟩ := h
  have ht : t < next.length := (List.getElem?_eq_some_iff.mp hg).1
  exact ⟨t, g, rfl, by rw [List.getElem?_append_left ht, hg], hc, hs⟩

/-- A cell fits its planned field and the field's target in the next level: an invalid field
only fails; a valid one fails, or holds a leaf value when it gives leaves, null when it gives
one object and there was none, an index of its target when it gives one object, and a range of
indices of its target when it gives a list. -/
def CellFits (next : List Group) (p : Planned) (target : Option Nat) : Cell → Prop
  | .failed => True
  | .ready v => ∃ fd, p.definition = .ok fd ∧
      (fd.shape = .leaf ∨ (∃ c, fd.shape = .object c) ∧ v = .null)
  | .object _ => ∃ fd c, p.definition = .ok fd ∧ fd.shape = .object c ∧
      TargetHolds next p target c
  | .list s e => ∃ fd c, p.definition = .ok fd ∧ fd.shape = .list c ∧ s ≤ e ∧
      (s < e → TargetHolds next p target c)

theorem CellFits.mono {next next' : List Group} (h : next <+: next') {p : Planned}
    {target : Option Nat} : ∀ {cell : Cell}, CellFits next p target cell →
      CellFits next' p target cell
  | .failed, _ => trivial
  | .ready _, hc => hc
  | .object _, ⟨fd, c, hd, hs, ht⟩ => ⟨fd, c, hd, hs, ht.mono h⟩
  | .list _ _, ⟨fd, c, hd, hs, hle, ht⟩ => ⟨fd, c, hd, hs, hle, fun hlt ↦ (ht hlt).mono h⟩

theorem Planned.childType_of_shape {p : Planned} {fd : FieldDef} (hdef : p.definition = .ok fd)
    {c : ObjectType} (hs : fd.shape = .object c ∨ fd.shape = .list c) : p.childType = some c := by
  obtain ⟨r, s, n⟩ := fd
  simp only at hs
  rcases hs with rfl | rfl <;> simp [Planned.childType, hdef]

/-- The cell of an outcome of its field's shape fits the field, when the field's target holds
whatever the outcome gives. -/
theorem cellFits_ofOutcome {next : List Group} {p : Planned} {target : Option Nat}
    {fd : FieldDef} (hdef : p.definition = .ok fd) {o : Outcome} (ho : o.Fits fd.shape)
    (htarget : o.records ≠ [] → ∀ c, p.childType = some c → TargetHolds next p target c)
    (start : Nat) : CellFits next p target (Cell.ofOutcome start o) := by
  rcases o with e | (v | (_ | r) | rs)
  · trivial
  · -- a leaf value, of a field that gives leaves
    refine ⟨fd, hdef, Or.inl ?_⟩
    cases hs : fd.shape <;> simp_all [Outcome.Fits, Settled.Fits]
  · -- no object, of a field that gives one
    refine ⟨fd, hdef, Or.inr ⟨?_, rfl⟩⟩
    cases hs : fd.shape <;> simp_all [Outcome.Fits, Settled.Fits]
  · obtain ⟨c, hs⟩ : ∃ c, fd.shape = .object c := by
      cases hs : fd.shape <;> simp_all [Outcome.Fits, Settled.Fits]
    exact ⟨fd, c, hdef, hs, htarget (by simp [Outcome.records]) c
      (Planned.childType_of_shape hdef (Or.inl hs))⟩
  · obtain ⟨c, hs⟩ : ∃ c, fd.shape = .list c := by
      cases hs : fd.shape <;> simp_all [Outcome.Fits, Settled.Fits]
    refine ⟨fd, c, hdef, hs, Nat.le_add_right start rs.length, fun hlt ↦ ?_⟩
    have hne : rs ≠ [] := by
      rintro rfl
      simp at hlt
    exact htarget hne c (Planned.childType_of_shape hdef (Or.inr hs))

/-! ### Laying out one field -/

/-- The tasks of a planned field of a group: one per object when the field is valid. -/
def fieldTasks (g : Group) (p : Planned) : List (ObjectType × FieldDef × Field × Option Record) :=
  match p.definition with
  | .ok d => g.parents.map fun n ↦ (g.object, d, p.field, n.record)
  | .error _ => []

theorem levelTasks_eq (planned : List (Group × List Planned)) :
    levelTasks planned = planned.flatMap fun gp ↦ gp.2.flatMap (fieldTasks gp.1) := rfl

theorem forall_of_forall₂ {α β : Type} {R : α → β → Prop} (P : β → Prop)
    (h : ∀ a b, R a b → P b) {l : List α} {u : List β} (hl : List.Forall₂ R l u) :
    ∀ b ∈ u, P b := by
  induction hl with
  | nil => simp
  | cons hab _ ih =>
    intro b hb
    rcases List.mem_cons.mp hb with rfl | hb
    · exact h _ _ hab
    · exact ih b hb

/-- What laying out a planned field of a group gives, from the layout `lay` to `lay'`: the next
level only grows; the field's cells fit it; the errors it adds stand at its failed cells, at
the paths of the field on their objects, and are apart; and each object it adds to the next
level is pointed at by its target and stands in one of its cells. -/
structure FieldLaid (g : Group) (p : Planned) (lay lay' : Layout) (cells : List Cell)
    (target : Option Nat) : Prop where
  next : lay.next <+: lay'.next
  fits : ∀ cell ∈ cells, CellFits lay'.next p target cell
  errors : ∃ errs, lay'.errors = lay.errors ++ errs ∧ errs.Pairwise ErrorsApart ∧
    ∀ e ∈ errs, ∃ i : Nat, ∃ n : Node, g.parents[i]? = some n ∧ cells[i]? = some .failed ∧
      (∃ fd, p.definition = .ok fd) ∧ e.path = some (n.path ++ [.key p.key])
  children : ∀ t g' j m, lay.next.length ≤ t → lay'.next[t]? = some g' →
    g'.parents[j]? = some m → target = some t ∧ ∃ i : Nat, ∃ n : Node, ∃ cell : Cell,
      g.parents[i]? = some n ∧ cells[i]? = some cell ∧ ChildOf (n.path ++ [.key p.key]) j m cell

/-- Laying out a planned field whose outcomes have the shapes of their tasks takes them off the
front of the queue, and gives what `FieldLaid` says. -/
theorem layoutField_laid (g : Group) (p : Planned)
    (hparents : g.parents.Pairwise fun n n' ↦ PathsApart n.path n'.path) {lay lay' : Layout}
    {cells : List Cell} {target : Option Nat}
    {rest : List (ObjectType × FieldDef × Field × Option Record)}
    (hq : List.Forall₂ (fun task (o : Outcome) ↦ o.Fits task.2.1.shape) (fieldTasks g p ++ rest)
      lay.queue)
    (h : layoutField g lay p = (lay', cells, target)) :
    List.Forall₂ (fun task (o : Outcome) ↦ o.Fits task.2.1.shape) rest lay'.queue ∧
      FieldLaid g p lay lay' cells target := by
  unfold layoutField at h
  cases hdef : p.definition with
  | error e =>
    -- an invalid field takes nothing and fails on every object
    rw [hdef] at h
    simp only [Prod.mk.injEq] at h
    obtain ⟨rfl, rfl, rfl⟩ := h
    refine ⟨by simpa [fieldTasks, hdef] using hq,
      ⟨List.prefix_refl _, ?_, ⟨[], by simp, by simp, by simp⟩, ?_⟩⟩
    · intro cell hcell
      obtain ⟨_, _, rfl⟩ := List.mem_map.mp hcell
      trivial
    · intro t g' j m ht hg'
      have := (List.getElem?_eq_some_iff.mp hg').1
      omega
  | ok fd =>
    rw [hdef] at h
    -- the field takes one outcome per object off the front of the queue
    have htasks : fieldTasks g p = g.parents.map fun n ↦ (g.object, fd, p.field, n.record) := by
      simp [fieldTasks, hdef]
    rw [htasks] at hq
    have hlen : (g.parents.map fun n ↦ (g.object, fd, p.field, n.record)).length =
        g.parents.length := List.length_map ..
    have hos := List.forall₂_take g.parents.length hq
    have hrest := List.forall₂_drop g.parents.length hq
    rw [List.take_left' hlen] at hos
    rw [List.drop_left' hlen] at hrest
    generalize lay.queue.take g.parents.length = os at h hos
    have hoslen : g.parents.length = os.length := by simpa using hos.length_eq
    rw [List.forall₂_map_left_iff] at hos
    have hfits : ∀ o ∈ os, o.Fits fd.shape :=
      forall_of_forall₂ (fun o : Outcome ↦ o.Fits fd.shape) (fun _ _ h ↦ h) hos
    -- the column's cells fit the field wherever its target holds the objects they give
    have hcells : ∀ next tg, (∀ o ∈ os, o.records ≠ [] → ∀ c, p.childType = some c →
        TargetHolds next p tg c) → ∀ cell ∈ cellsFrom 0 os, CellFits next p tg cell := by
      intro next tg htarget cell hcell
      obtain ⟨s, o, ho, rfl⟩ := mem_cellsFrom hcell
      exact cellFits_ofOutcome hdef (hfits o ho) (htarget o ho) s
    have herrs := pairwise_columnErrors p.key hoslen hparents
    have hfailed : ∀ e ∈ (g.parents.zip os).flatMap
        (fun x ↦ outcomeErrors (x.1.path ++ [.key p.key]) x.2), ∃ i : Nat, ∃ n : Node,
        g.parents[i]? = some n ∧ (cellsFrom 0 os)[i]? = some .failed ∧
          (∃ fd, p.definition = .ok fd) ∧ e.path = some (n.path ++ [.key p.key]) := by
      intro e he
      obtain ⟨i, n, hn, hcell, hpath⟩ := failed_of_mem_columnErrors p.key 0 he
      exact ⟨i, n, hn, hcell, ⟨fd, hdef⟩, hpath⟩
    have hrecords := (columnOf_spec p g.parents os hoslen).2
    rw [columnOf_eq p hoslen] at h hrecords
    -- the next level grows only when the field gives objects
    have hsame : ∀ {lay' : Layout}, lay'.next = lay.next → ∀ (t : Nat) (g' : Group) (j : Nat)
        (m : Node), lay.next.length ≤ t →
        lay'.next[t]? = some g' → g'.parents[j]? = some m → False := by
      intro lay' hnext t g' j m ht hg' _
      rw [hnext] at hg'
      have := (List.getElem?_eq_some_iff.mp hg').1
      omega
    cases hc : p.childType with
    | none =>
      simp only [hc, Prod.mk.injEq] at h
      obtain ⟨rfl, rfl, rfl⟩ := h
      refine ⟨hrest, List.prefix_refl _, hcells _ _ fun _ _ _ c hc' ↦ ?_, ⟨_, rfl, herrs, hfailed⟩,
        fun t g' j m ht hg' hm ↦ (hsame rfl t g' j m ht hg' hm).elim⟩
      cases hc.symm.trans hc'
    | some c =>
      simp only [hc] at h
      split at h
      · -- no object given: no cell points anywhere
        next hempty =>
        simp only [Prod.mk.injEq] at h
        obtain ⟨rfl, rfl, rfl⟩ := h
        have hnone : ∀ o ∈ os, o.records = [] := by
          rw [List.isEmpty_iff.mp hempty, List.map_nil] at hrecords
          exact List.flatMap_eq_nil_iff.mp (List.map_eq_nil_iff.mp hrecords.symm)
        refine ⟨hrest, List.prefix_refl _, hcells _ _ fun o ho hne ↦ (hne (hnone o ho)).elim,
          ⟨_, rfl, herrs, hfailed⟩, fun t g' j m ht hg' hm ↦ (hsame rfl t g' j m ht hg' hm).elim⟩
      · -- the objects given form one new group at the end of the next level
        simp only [Prod.mk.injEq] at h
        obtain ⟨rfl, rfl, rfl⟩ := h
        refine ⟨hrest, List.prefix_append _ _, hcells _ _ fun _ _ _ c' hc' ↦ ?_,
          ⟨_, rfl, herrs, hfailed⟩, ?_⟩
        · cases hc.symm.trans hc'
          exact ⟨lay.next.length, _, rfl, List.getElem?_concat_length .., rfl, rfl⟩
        · intro t g' j m ht hg' hm
          have htl : t = lay.next.length := by
            have := (List.getElem?_eq_some_iff.mp hg').1
            simp only [List.length_append, List.length_singleton] at this
            omega
          subst htl
          simp only [List.getElem?_append_right (Nat.le_refl _), Nat.sub_self,
            List.getElem?_cons_zero, Option.some.injEq] at hg'
          subst hg'
          obtain ⟨i, n, cell, hn, hcell, hchild⟩ := childOf_column p.key 0 hoslen hm
          rw [Nat.zero_add] at hchild
          exact ⟨rfl, i, n, cell, hn, hcell, hchild⟩

/-! ### Laying out the fields of a group -/

/-- The row of the object at index `i` of a laid-out group: each planned field with its
target and its cell on the object, a failed cell where the field's column has none. -/
def rowOf (plan : List Planned) (columns : List (List Cell)) (targets : List (Option Nat))
    (i : Nat) : List ((Planned × Option Nat) × Cell) :=
  (plan.zip targets).zip (columns.map (·.getD i .failed))

@[simp] theorem rowOf_cons (p : Planned) (plan : List Planned) (column : List Cell)
    (columns : List (List Cell)) (target : Option Nat) (targets : List (Option Nat)) (i : Nat) :
    rowOf (p :: plan) (column :: columns) (target :: targets) i =
      ((p, target), column.getD i .failed) :: rowOf plan columns targets i := rfl

theorem mem_plan_of_mem_rowOf {plan : List Planned} {columns : List (List Cell)}
    {targets : List (Option Nat)} {i : Nat} {x : (Planned × Option Nat) × Cell}
    (hx : x ∈ rowOf plan columns targets i) : x.1.1 ∈ plan :=
  (List.of_mem_zip (List.of_mem_zip hx).1).1

theorem cellFits_getD {next : List Group} {p : Planned} {target : Option Nat}
    {column : List Cell} (h : ∀ cell ∈ column, CellFits next p target cell) (i : Nat) :
    CellFits next p target (column.getD i .failed) := by
  rw [List.getD_eq_getElem?_getD]
  cases hi : column[i]? with
  | none => trivial
  | some cell => exact h cell (List.mem_of_getElem? hi)

/-- What laying out the planned fields of a group gives, from the layout `lay` to `lay'`: a
column and a target per field; the next level only grows; every cell of every row fits its
field; the errors added stand at failed cells of valid fields, at the paths of those fields
on their objects, and are apart; and every object added to the next level stands in a cell
whose field's target points at it. -/
structure FieldsLaid (g : Group) (plan : List Planned) (lay lay' : Layout)
    (columns : List (List Cell)) (targets : List (Option Nat)) : Prop where
  length_columns : columns.length = plan.length
  length_targets : targets.length = plan.length
  next : lay.next <+: lay'.next
  fits : ∀ i, ∀ x ∈ rowOf plan columns targets i, CellFits lay'.next x.1.1 x.1.2 x.2
  errors : ∃ errs, lay'.errors = lay.errors ++ errs ∧ errs.Pairwise ErrorsApart ∧
    ∀ e ∈ errs, ∃ i : Nat, ∃ n : Node, g.parents[i]? = some n ∧
      ∃ x ∈ rowOf plan columns targets i, x.2 = .failed ∧ (∃ fd, x.1.1.definition = .ok fd) ∧
        e.path = some (n.path ++ [.key x.1.1.key])
  children : ∀ t g' j m, lay.next.length ≤ t → lay'.next[t]? = some g' →
    g'.parents[j]? = some m → ∃ i : Nat, ∃ n : Node, g.parents[i]? = some n ∧
      ∃ x ∈ rowOf plan columns targets i, x.1.2 = some t ∧
        ChildOf (n.path ++ [.key x.1.1.key]) j m x.2

/-- Laying out the planned fields of a group, whose keys differ, over objects that lie apart,
takes their outcomes off the front of the queue in plan order, and gives what `FieldsLaid`
says. -/
theorem layoutFields_laid (g : Group)
    (hparents : g.parents.Pairwise fun n n' ↦ PathsApart n.path n'.path) (plan : List Planned)
    (hkeys : (plan.map Planned.key).Nodup) {lay lay' : Layout} {columns : List (List Cell)}
    {targets : List (Option Nat)} {rest : List (ObjectType × FieldDef × Field × Option Record)}
    (hq : List.Forall₂ (fun task (o : Outcome) ↦ o.Fits task.2.1.shape)
      (plan.flatMap (fieldTasks g) ++ rest) lay.queue)
    (h : layoutFields g plan lay = (lay', columns, targets)) :
    List.Forall₂ (fun task (o : Outcome) ↦ o.Fits task.2.1.shape) rest lay'.queue ∧
      FieldsLaid g plan lay lay' columns targets := by
  induction plan generalizing lay lay' columns targets with
  | nil =>
    simp only [layoutFields, Prod.mk.injEq] at h
    obtain ⟨rfl, rfl, rfl⟩ := h
    refine ⟨by simpa using hq, rfl, rfl, List.prefix_refl _, fun _ _ hx ↦ by simp [rowOf] at hx,
      ⟨[], by simp, by simp, by simp⟩, fun t g' j m ht hg' _ ↦ ?_⟩
    have := (List.getElem?_eq_some_iff.mp hg').1
    omega
  | cons p ps ih =>
    obtain ⟨⟨lay₁, column, target⟩, h₁⟩ : ∃ x, layoutField g lay p = x := ⟨_, rfl⟩
    obtain ⟨⟨lay₂, columns', targets'⟩, h₂⟩ : ∃ x, layoutFields g ps lay₁ = x := ⟨_, rfl⟩
    simp only [layoutFields, h₁, h₂, Prod.mk.injEq] at h
    obtain ⟨rfl, rfl, rfl⟩ := h
    rw [List.map_cons, List.nodup_cons] at hkeys
    obtain ⟨hq₁, hfield⟩ := layoutField_laid g p hparents
      (by rwa [List.flatMap_cons, List.append_assoc] at hq) h₁
    obtain ⟨hq₂, hrest⟩ := ih hkeys.2 hq₁ h₂
    obtain ⟨errs₁, herrs₁, happart₁, hat₁⟩ := hfield.errors
    obtain ⟨errs₂, herrs₂, happart₂, hat₂⟩ := hrest.errors
    refine ⟨hq₂, ⟨by simp [hrest.length_columns], by simp [hrest.length_targets],
      hfield.next.trans hrest.next, ?_, ⟨errs₁ ++ errs₂, by rw [herrs₂, herrs₁, List.append_assoc],
      ?_, ?_⟩, ?_⟩⟩
    · -- the first field's cells fit it in its part of the next level, which the rest extends
      intro i x hx
      rw [rowOf_cons] at hx
      rcases List.mem_cons.mp hx with rfl | hx
      · exact (cellFits_getD hfield.fits i).mono hrest.next
      · exact hrest.fits i x hx
    · -- the first field's errors are below its key, the others' below other keys
      refine List.pairwise_append.mpr ⟨happart₁, happart₂, fun e he e' he' ↦ ?_⟩
      obtain ⟨i, n, hn, -, -, hpath⟩ := hat₁ e he
      obtain ⟨i', n', hn', x', hx', -, -, hpath'⟩ := hat₂ e' he'
      have hkey : x'.1.1.key ≠ p.key := fun heq ↦
        hkeys.1 (List.mem_map.mpr ⟨x'.1.1, mem_plan_of_mem_rowOf hx', heq⟩)
      exact errorsApart_field (eq_or_apart_of_pairwise hparents (List.mem_of_getElem? hn)
        (List.mem_of_getElem? hn')) (fun _ ↦ Ne.symm hkey) (.of_path hpath) (.of_path hpath')
    · intro e he
      rcases List.mem_append.mp he with he | he
      · obtain ⟨i, n, hn, hcell, hvalid, hpath⟩ := hat₁ e he
        refine ⟨i, n, hn, ((p, target), column.getD i .failed), by simp, ?_, hvalid, hpath⟩
        simp [List.getD_eq_getElem?_getD, hcell]
      · obtain ⟨i, n, hn, x, hx, hrest'⟩ := hat₂ e he
        exact ⟨i, n, hn, x, by simp [hx], hrest'⟩
    · intro t g' j m ht hg' hm
      by_cases ht₁ : t < lay₁.next.length
      · -- an object of the first field's group
        obtain ⟨more, hmore⟩ := hrest.next
        have hg₁ : lay₁.next[t]? = some g' := by
          rw [← hmore, List.getElem?_append_left ht₁] at hg'
          exact hg'
        obtain ⟨htarget, i, n, cell, hn, hcell, hchild⟩ := hfield.children t g' j m ht hg₁ hm
        refine ⟨i, n, hn, ((p, target), column.getD i .failed), by simp, htarget, ?_⟩
        simpa [List.getD_eq_getElem?_getD, hcell] using hchild
      · obtain ⟨i, n, hn, x, hx, hrest'⟩ :=
          hrest.children t g' j m (Nat.le_of_not_lt ht₁) hg' hm
        exact ⟨i, n, hn, x, by simp [hx], hrest'⟩

/-! ### Laying out a level -/

/-- In a laid-out level, `x` is an entry of the row of the object `n`: a planned field of the
object's group, with its target and its cell on the object. -/
def InRow (planned : List (Group × List Planned))
    (layouts : List (List (List Cell) × List (Option Nat))) (n : Node)
    (x : (Planned × Option Nat) × Cell) : Prop :=
  ∃ (a : Nat) (gp : Group × List Planned) (l : List (List Cell) × List (Option Nat)) (i : Nat),
    planned[a]? = some gp ∧ layouts[a]? = some l ∧ gp.1.parents[i]? = some n ∧
      x ∈ rowOf gp.2 l.1 l.2 i

theorem InRow.head {g : Group} {plan : List Planned} {columns : List (List Cell)}
    {targets : List (Option Nat)} {planned : List (Group × List Planned)}
    {layouts : List (List (List Cell) × List (Option Nat))} {i : Nat} {n : Node}
    {x : (Planned × Option Nat) × Cell} (hn : g.parents[i]? = some n)
    (hx : x ∈ rowOf plan columns targets i) :
    InRow ((g, plan) :: planned) ((columns, targets) :: layouts) n x :=
  ⟨0, (g, plan), (columns, targets), i, rfl, rfl, hn, hx⟩

theorem InRow.tail {gp : Group × List Planned} {l : List (List Cell) × List (Option Nat)}
    {planned : List (Group × List Planned)}
    {layouts : List (List (List Cell) × List (Option Nat))} {n : Node}
    {x : (Planned × Option Nat) × Cell} (h : InRow planned layouts n x) :
    InRow (gp :: planned) (l :: layouts) n x := by
  obtain ⟨a, gp', l', i, hgp, hl, hn, hx⟩ := h
  exact ⟨a + 1, gp', l', i, hgp, hl, hn, hx⟩

theorem InRow.cons_cases {g : Group} {plan : List Planned} {columns : List (List Cell)}
    {targets : List (Option Nat)} {planned : List (Group × List Planned)}
    {layouts : List (List (List Cell) × List (Option Nat))} {n : Node}
    {x : (Planned × Option Nat) × Cell}
    (h : InRow ((g, plan) :: planned) ((columns, targets) :: layouts) n x) :
    (∃ i, g.parents[i]? = some n ∧ x ∈ rowOf plan columns targets i) ∨
      InRow planned layouts n x := by
  obtain ⟨a, gp, l, i, hgp, hl, hn, hx⟩ := h
  cases a with
  | zero =>
    cases hgp
    cases hl
    exact Or.inl ⟨i, hn, hx⟩
  | succ a => exact Or.inr ⟨a, gp, l, i, hgp, hl, hn, hx⟩

/-- The group of an entry's row holds its object. -/
theorem InRow.mem_parents {planned : List (Group × List Planned)}
    {layouts : List (List (List Cell) × List (Option Nat))} {n : Node}
    {x : (Planned × Option Nat) × Cell} (h : InRow planned layouts n x) :
    ∃ gp ∈ planned, n ∈ gp.1.parents := by
  obtain ⟨a, gp, l, i, hgp, -, hn, -⟩ := h
  exact ⟨gp, List.mem_of_getElem? hgp, List.mem_of_getElem? hn⟩

/-- What laying out the groups of a level gives, from the layout `lay` to `lay'`: a column and
a target per planned field of each group; the next level only grows; every entry of every row
fits; the errors added stand at failed cells of valid fields, at the paths of those fields on
their objects, and are apart; and every object added to the next level stands in a cell
whose field's target points at it. -/
structure LevelLaid (planned : List (Group × List Planned))
    (layouts : List (List (List Cell) × List (Option Nat))) (lay lay' : Layout) : Prop where
  length : layouts.length = planned.length
  widths : ∀ (a : Nat) (gp : Group × List Planned) (l : List (List Cell) × List (Option Nat)),
    planned[a]? = some gp → layouts[a]? = some l →
    l.1.length = gp.2.length ∧ l.2.length = gp.2.length
  next : lay.next <+: lay'.next
  fits : ∀ n x, InRow planned layouts n x → CellFits lay'.next x.1.1 x.1.2 x.2
  errors : ∃ errs, lay'.errors = lay.errors ++ errs ∧ errs.Pairwise ErrorsApart ∧
    ∀ e ∈ errs, ∃ n x, InRow planned layouts n x ∧ x.2 = .failed ∧
      (∃ fd, x.1.1.definition = .ok fd) ∧ e.path = some (n.path ++ [.key x.1.1.key])
  children : ∀ (t : Nat) (g' : Group) (j : Nat) (m : Node), lay.next.length ≤ t →
    lay'.next[t]? = some g' → g'.parents[j]? = some m →
      ∃ n x, InRow planned layouts n x ∧ x.1.2 = some t ∧
      ChildOf (n.path ++ [.key x.1.1.key]) j m x.2

/-- Laying out the groups of a level, whose objects lie apart and whose plans have keys that
differ, takes the outcomes off the queue in order and gives what `LevelLaid` says. -/
theorem layoutGroups_laid (planned : List (Group × List Planned))
    (hapart : planned.Pairwise fun gp gp' ↦
      ∀ n ∈ gp.1.parents, ∀ n' ∈ gp'.1.parents, PathsApart n.path n'.path)
    (hparents : ∀ gp ∈ planned, gp.1.parents.Pairwise fun n n' ↦ PathsApart n.path n'.path)
    (hkeys : ∀ gp ∈ planned, (gp.2.map Planned.key).Nodup) {lay lay' : Layout}
    {layouts : List (List (List Cell) × List (Option Nat))}
    {rest : List (ObjectType × FieldDef × Field × Option Record)}
    (hq : List.Forall₂ (fun task (o : Outcome) ↦ o.Fits task.2.1.shape)
      (levelTasks planned ++ rest) lay.queue)
    (h : layoutGroups planned lay = (lay', layouts)) :
    List.Forall₂ (fun task (o : Outcome) ↦ o.Fits task.2.1.shape) rest lay'.queue ∧
      LevelLaid planned layouts lay lay' := by
  induction planned generalizing lay lay' layouts with
  | nil =>
    simp only [layoutGroups, Prod.mk.injEq] at h
    obtain ⟨rfl, rfl⟩ := h
    refine ⟨by simpa [levelTasks] using hq, ⟨rfl, by simp, List.prefix_refl _, ?_,
      ⟨[], by simp, by simp, by simp [InRow]⟩, fun t g' j m ht hg' _ ↦ ?_⟩⟩
    · rintro n x ⟨a, gp, l, i, hgp, _⟩
      simp at hgp
    · have := (List.getElem?_eq_some_iff.mp hg').1
      omega
  | cons gp planned ih =>
    obtain ⟨g, plan⟩ := gp
    obtain ⟨⟨lay₁, columns, targets⟩, h₁⟩ : ∃ x, layoutFields g plan lay = x := ⟨_, rfl⟩
    obtain ⟨⟨lay₂, layouts'⟩, h₂⟩ : ∃ x, layoutGroups planned lay₁ = x := ⟨_, rfl⟩
    simp only [layoutGroups, h₁, h₂, Prod.mk.injEq] at h
    obtain ⟨rfl, rfl⟩ := h
    rw [List.pairwise_cons] at hapart
    obtain ⟨hq₁, hgroup⟩ := layoutFields_laid g (hparents _ List.mem_cons_self) plan
      (hkeys _ List.mem_cons_self)
      (by rwa [levelTasks_eq, List.flatMap_cons, List.append_assoc] at hq) h₁
    obtain ⟨hq₂, hrest⟩ := ih hapart.2 (fun gp hgp ↦ hparents gp (List.mem_cons_of_mem _ hgp))
      (fun gp hgp ↦ hkeys gp (List.mem_cons_of_mem _ hgp)) (by rwa [levelTasks_eq]) h₂
    obtain ⟨errs₁, herrs₁, happart₁, hat₁⟩ := hgroup.errors
    obtain ⟨errs₂, herrs₂, happart₂, hat₂⟩ := hrest.errors
    refine ⟨hq₂, ⟨by simp [hrest.length], ?_, hgroup.next.trans hrest.next, ?_,
      ⟨errs₁ ++ errs₂, by rw [herrs₂, herrs₁, List.append_assoc], ?_, ?_⟩, ?_⟩⟩
    · intro a gp l hgp hl
      cases a with
      | zero =>
        cases hgp
        cases hl
        exact ⟨hgroup.length_columns, hgroup.length_targets⟩
      | succ a => exact hrest.widths a gp l hgp hl
    · intro n x hx
      rcases hx.cons_cases with ⟨i, -, hx⟩ | hx
      · exact (hgroup.fits i x hx).mono hrest.next
      · exact hrest.fits n x hx
    · -- the first group's errors are below its objects, the others' below other groups' objects
      refine List.pairwise_append.mpr ⟨happart₁, happart₂, fun e he e' he' ↦ ?_⟩
      obtain ⟨i, n, hn, x, -, -, -, hpath⟩ := hat₁ e he
      obtain ⟨n', x', hx', -, -, hpath'⟩ := hat₂ e' he'
      obtain ⟨gp', hgp', hn'⟩ := hx'.mem_parents
      exact errorsApart_of_below ⟨_, hpath⟩ ⟨_, hpath'⟩
        (hapart.1 gp' hgp' n (List.mem_of_getElem? hn) n' hn')
    · intro e he
      rcases List.mem_append.mp he with he | he
      · obtain ⟨i, n, hn, x, hx, hrest'⟩ := hat₁ e he
        exact ⟨n, x, InRow.head hn hx, hrest'⟩
      · obtain ⟨n, x, hx, hrest'⟩ := hat₂ e he
        exact ⟨n, x, hx.tail, hrest'⟩
    · intro t g' j m ht hg' hm
      by_cases ht₁ : t < lay₁.next.length
      · -- an object of one of the first group's fields
        obtain ⟨more, hmore⟩ := hrest.next
        have hg₁ : lay₁.next[t]? = some g' := by
          rw [← hmore, List.getElem?_append_left ht₁] at hg'
          exact hg'
        obtain ⟨i, n, hn, x, hx, hrest'⟩ := hgroup.children t g' j m ht hg₁ hm
        exact ⟨n, x, InRow.head hn hx, hrest'⟩
      · obtain ⟨n, x, hx, hrest'⟩ := hrest.children t g' j m (Nat.le_of_not_lt ht₁) hg' hm
        exact ⟨n, x, hx.tail, hrest'⟩

end SocialGraph
