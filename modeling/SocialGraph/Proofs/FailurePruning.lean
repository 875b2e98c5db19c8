import SocialGraph.Proofs.TruthfulCache
import SocialGraph.Proofs.PrunedValues
import SocialGraph.Proofs.ResponseShape

/-!
# Failing store calls only prune the data

Whatever failure rules the store runs with, executing a selection over the store of a dataset
gives the data the run without failures gives, with some subtrees cut down to null, and every
cut reported by an error at or below it (`failures_prune_data`).

A failed call changes the calls that follow it: a failed scan primes nothing, so its records
are looked up by key later, and a failed lookup fails every key of its batch. None of that is
followed here. The batch stays `Truthful` (Proofs/TruthfulCache), so every task of a level
has its outcome on the dataset or an error (`level_outcomes_pruned`). Laid out, each cell then
prunes the value that outcome completes to (`prunesAt_value_ofOutcome`): an error leaves a
null reported at the cell's own path. By induction on the levels left, every object a level
puts together prunes the evaluator's object at its path (`resolveLevel_prunes`), and the run
without failures gives the evaluator's objects (`resolveLevel_eval`).
-/

namespace SocialGraph

variable {d : Dataset} {errors : List ResponseError}

/-! ### Levels that prune the evaluator's objects -/

/-- The objects put together for some groups prune, group by group and object by object, the
evaluator's objects at the objects' paths, each cut reported among some errors. -/
def LevelPrunes (d : Dataset) (errors : List ResponseError) (groups : List Group)
    (N : List (List (Option ObjectData))) : Prop :=
  ∀ t (ht : t < groups.length), ∃ os, N[t]? = some os ∧
    List.Forall₂ (fun x n ↦ PrunesAt errors n.path (objectJson x)
      (objectJson (d.evalObject groups[t].object n.record groups[t].selection)))
      os groups[t].parents

/-- The objects of the next level, from an index of a group on, prune the evaluator's objects
for some nodes. -/
def Placed (d : Dataset) (errors : List ResponseError) (N : List (List (Option ObjectData)))
    (target : Option Nat) (c : ObjectType) (selection : List Field) (start : Nat)
    (nodes : List Node) : Prop :=
  ∀ k (hk : k < nodes.length), PrunesAt errors nodes[k].path
    (objectJson (takeChild N target (start + k)))
    (objectJson (d.evalObject c nodes[k].record selection))

namespace LevelPrunes

variable {groups : List Group} {N : List (List (Option ObjectData))}

theorem nil (N : List (List (Option ObjectData))) : LevelPrunes d errors [] N :=
  fun _ ht ↦ absurd ht (Nat.not_lt_zero _)

theorem cons {g : Group} {os : List (Option ObjectData)}
    (hhead : List.Forall₂ (fun x n ↦ PrunesAt errors n.path (objectJson x)
      (objectJson (d.evalObject g.object n.record g.selection))) os g.parents)
    (htail : LevelPrunes d errors groups N) : LevelPrunes d errors (g :: groups) (os :: N) := by
  intro t ht
  cases t with
  | zero => exact ⟨os, rfl, hhead⟩
  | succ t => exact htail t (by simpa using ht)

theorem mono {errors' : List ResponseError} (h : LevelPrunes d errors groups N)
    (hsub : ∀ e ∈ errors, e ∈ errors') : LevelPrunes d errors' groups N := by
  intro t ht
  obtain ⟨os, hN, hos⟩ := h t ht
  exact ⟨os, hN, hos.imp fun _ _ hx ↦ hx.mono hsub⟩

/-- The groups of a prefix are put together as in the whole level. -/
theorem of_prefix {groups' : List Group} (h : LevelPrunes d errors groups' N)
    (hpre : groups <+: groups') : LevelPrunes d errors groups N := by
  intro t ht
  rw [hpre.getElem ht]
  exact h t (Nat.lt_of_lt_of_le ht hpre.length_le)

/-- A group's objects are placed at its index of the next level. -/
theorem placed (h : LevelPrunes d errors groups N) {t : Nat} (ht : t < groups.length) :
    Placed d errors N (some t) groups[t].object groups[t].selection 0 groups[t].parents := by
  obtain ⟨os, hN, hos⟩ := h t ht
  intro k hk
  have hko : k < os.length := hos.length_eq ▸ hk
  have htake : takeChild N (some t) (0 + k) = os[k] := by
    simp [takeChild, hN, List.getElem?_eq_getElem hko]
  rw [htake]
  simpa using hos.get hko hk

end LevelPrunes

namespace Placed

variable {N : List (List (Option ObjectData))} {target : Option Nat} {c : ObjectType}
  {selection : List Field} {start : Nat} {l₁ l₂ : List Node}

theorem append_left (h : Placed d errors N target c selection start (l₁ ++ l₂)) :
    Placed d errors N target c selection start l₁ := fun k hk ↦ by
  have h' := h k (by simp; omega)
  rw [List.getElem_append_left hk] at h'
  exact h'

theorem append_right (h : Placed d errors N target c selection start (l₁ ++ l₂)) :
    Placed d errors N target c selection (start + l₁.length) l₂ := fun k hk ↦ by
  have h' := h (l₁.length + k) (by simp; omega)
  simpa [List.getElem_append_right (Nat.le_add_right _ k), Nat.add_assoc] using h'

end Placed

/-! ### Cells -/

section Cells

variable {p : Planned} {N : List (List (Option ObjectData))} {target : Option Nat}

theorem value_object (j : Nat) :
    ((Cell.object j).value N target).1 = objectJson (takeChild N target j) := by
  simp only [Cell.value]
  cases takeChild N target j <;> rfl

theorem value_list (start stop : Nat) :
    ((Cell.list start stop).value N target).1 =
      listJson ((List.range' start (stop - start)).mapM (takeChild N target)) := by
  simp only [Cell.value]
  cases (List.range' start (stop - start)).mapM (takeChild N target) <;> rfl

theorem getD_map_obj (x : Option ObjectData) : (x.map Json.obj).getD .null = objectJson x := by
  cases x <;> rfl

theorem getD_map_arr (x : Option (List ObjectData)) :
    (x.map fun os ↦ Json.arr (os.map Json.obj)).getD .null = listJson x := by
  cases x <;> rfl

/-- A cell prunes the value its field's outcome on the dataset completes to, when its own
outcome is that outcome or an error reported at the cell's path, and the next level prunes
the evaluator's objects at the cell's indices. -/
theorem prunesAt_value_ofOutcome (start : Nat) {base : List PathSegment} {o t : Outcome}
    (hpr : Pruned o t) (hflat : p.childType = none → t.IsFlat)
    (herr : ∀ e ∈ outcomeErrors base o, e ∈ errors)
    (hplaced : ∀ c, p.childType = some c →
      Placed d errors N target c p.children start (childNodes base o)) :
    PrunesAt errors base ((Cell.ofOutcome start o).value N target).1
      (p.complete (fun c r ↦ d.evalObject c (some r) p.children) t) := by
  rcases hpr with rfl | ⟨e, rfl⟩
  · cases o with
    | error e => exact PrunesAt.refl .null
    | ok s =>
      cases s with
      | leaf v => exact PrunesAt.refl v
      | object r =>
        cases r with
        | none => exact PrunesAt.refl .null
        | some r =>
          cases hc : p.childType with
          | none => exact (hflat hc).elim
          | some c =>
            -- the object stands at the cell's index of the next level
            have h := hplaced c hc 0 (by simp [childNodes])
            simp only [childNodes, List.getElem_cons_zero, Nat.add_zero] at h
            simpa [Cell.ofOutcome, value_object, Planned.complete, hc, getD_map_obj] using h
      | list rs =>
        cases hc : p.childType with
        | none => exact (hflat hc).elim
        | some c =>
          -- the list's objects stand at the cell's range of indices of the next level
          rw [Cell.ofOutcome, value_list, Nat.add_sub_cancel_left]
          simp only [Planned.complete, hc, getD_map_arr]
          refine prunesAt_listJson (by simp) fun k ha hb ↦ ?_
          have hk : k < (childNodes base (.ok (.list rs))).length := by simpa [childNodes] using hb
          have hnode : (childNodes base (.ok (.list rs)))[k] = ⟨some rs[k], base ++ [.index k]⟩ := by
            simp [childNodes]
          have h := hplaced c hc k hk
          rw [hnode] at h
          simpa [List.getElem_range'] using h
  · -- a failure is a null reported at the cell's own path
    exact PrunesAt.null
      ⟨ResponseError.atPath base e, herr _ (by simp [outcomeErrors]), base, rfl, List.prefix_refl _⟩ _

/-- The cells of a column prune, object by object, the values the field's outcomes on the
dataset complete to, when its outcomes are those outcomes or errors, its errors are reported
and the next level prunes the evaluator's objects at the column's indices. -/
theorem prunesAt_cellsFrom (start : Nat) {ns : List Node} {os ts : List Outcome}
    (hlen : ns.length = os.length) (hpr : List.Forall₂ Pruned os ts)
    (hflat : p.childType = none → ∀ t ∈ ts, t.IsFlat)
    (herr : ∀ e ∈ (ns.zip os).flatMap (fun x ↦ outcomeErrors (x.1.path ++ [.key p.key]) x.2),
      e ∈ errors)
    (hplaced : ∀ c, p.childType = some c → Placed d errors N target c p.children start
      ((ns.zip os).flatMap fun x ↦ childNodes (x.1.path ++ [.key p.key]) x.2)) :
    ∀ i (hi : i < ns.length) (ht : i < ts.length), PrunesAt errors (ns[i].path ++ [.key p.key])
      (((cellsFrom start os).getD i .failed).value N target).1
      (p.complete (fun c r ↦ d.evalObject c (some r) p.children) ts[i]) := by
  induction ns generalizing start os ts with
  | nil => exact fun i hi ↦ absurd hi (Nat.not_lt_zero _)
  | cons n ns ih =>
    cases hpr with
    | nil => cases hlen
    | @cons o t os ts hot hrest =>
      intro i hi ht
      simp only [List.zip_cons_cons, List.flatMap_cons, List.mem_append] at herr hplaced
      cases i with
      | zero =>
        exact prunesAt_value_ofOutcome start hot (fun hc ↦ hflat hc t List.mem_cons_self)
          (fun e he ↦ herr e (Or.inl he)) fun c hc ↦ (hplaced c hc).append_left
      | succ i =>
        -- the later objects' children stand after the first object's
        refine ih (start + o.records.length) (by simpa using hlen) hrest
          (fun hc t ht ↦ hflat hc t (List.mem_cons_of_mem _ ht)) (fun e he ↦ herr e (Or.inr he))
          (fun c hc ↦ ?_) i (by simpa using hi) (by simpa using ht)
        simpa [length_childNodes] using (hplaced c hc).append_right

end Cells

/-! ### Laying out a level -/

/-- The outcomes of a queue are those of its tasks on the dataset, or errors. -/
abbrev QueuePrunes (d : Dataset) (queue : List Outcome)
    (tasks : List (ObjectType × FieldDef × Field × Option Record)) : Prop :=
  List.Forall₂ (fun o task ↦ Pruned o (d.taskOutcome task)) queue tasks

/-- Laying out one planned field: it takes its outcomes off the queue, adds at most one group
of the next level, only adds errors, and each of its cells prunes the field's value on the
dataset once the next level prunes the evaluator's objects and its errors are reported. -/
theorem layoutField_prunes (g : Group) (p : Planned)
    (hflat : ∀ o fd, p.definition = .ok fd → p.childType = none →
      (d.plannedOutcome g.object o p).IsFlat)
    {lay lay' : Layout} {rest : List (ObjectType × FieldDef × Field × Option Record)}
    {cells : List Cell} {target : Option Nat} (hq : QueuePrunes d lay.queue (fieldTasks g p ++ rest))
    (h : layoutField g lay p = (lay', cells, target)) :
    QueuePrunes d lay'.queue rest ∧
      (∃ more, lay'.next = lay.next ++ more ∧
        ∀ g' ∈ more, p.childType = some g'.object ∧ g'.selection = p.children) ∧
      lay.errors <+: lay'.errors ∧
      ∀ errors N, (∀ e ∈ lay'.errors, e ∈ errors) → LevelPrunes d errors lay'.next N →
        ∀ i (hi : i < g.parents.length), PrunesAt errors (g.parents[i].path ++ [.key p.key])
          ((cells.getD i .failed).value N target).1 (d.evalField g.object g.parents[i].record p) := by
  unfold layoutField at h
  cases hdef : p.definition with
  | error e =>
    -- an invalid field takes nothing and is null on every object, in both runs
    rw [hdef] at h
    simp only [Prod.mk.injEq] at h
    obtain ⟨rfl, rfl, rfl⟩ := h
    refine ⟨by simpa [fieldTasks, hdef] using hq, ⟨[], by simp, by simp⟩, List.prefix_refl _,
      fun errors N _ _ i hi ↦ ?_⟩
    have hcell : (g.parents.map fun _ ↦ Cell.failed).getD i .failed = .failed := by
      rw [List.getD_eq_getElem?_getD, List.getElem?_map]
      cases g.parents[i]? <;> rfl
    rw [hcell]
    simp only [Dataset.evalField, Dataset.plannedOutcome, hdef]
    exact PrunesAt.refl .null
  | ok fd =>
    rw [hdef] at h
    -- the field takes one outcome per object off the front of the queue
    have htasks : fieldTasks g p = g.parents.map fun n ↦ (g.object, fd, p.field, n.record) := by
      simp [fieldTasks, hdef]
    have hlen : (fieldTasks g p).length = g.parents.length := by simp [htasks]
    have hos := List.forall₂_take g.parents.length hq
    have hrest := List.forall₂_drop g.parents.length hq
    rw [List.take_left' hlen] at hos
    rw [List.drop_left' hlen] at hrest
    generalize lay.queue.take g.parents.length = os at h hos
    have hoslen : g.parents.length = os.length := by rw [hos.length_eq, hlen]
    have hpr : List.Forall₂ Pruned os
        (g.parents.map fun n ↦ d.plannedOutcome g.object n.record p) := by
      rw [htasks, List.forall₂_map_right_iff] at hos
      rw [List.forall₂_map_right_iff]
      exact hos.imp fun _ _ ho ↦ by simpa [Dataset.plannedOutcome, hdef, Dataset.taskOutcome]
    have hflat' : p.childType = none →
        ∀ t ∈ g.parents.map fun n ↦ d.plannedOutcome g.object n.record p, t.IsFlat := by
      intro hc t ht
      obtain ⟨n, -, rfl⟩ := List.mem_map.mp ht
      exact hflat n.record fd hdef hc
    -- the cells prune the field's values wherever the objects they give are placed
    have hcells : ∀ errors N tg, (∀ e ∈ (columnOf p g.parents os).errors, e ∈ errors) →
        (∀ c, p.childType = some c → Placed d errors N tg c p.children 0
          (columnOf p g.parents os).children) →
        ∀ i (hi : i < g.parents.length), PrunesAt errors (g.parents[i].path ++ [.key p.key])
          (((columnOf p g.parents os).cells.getD i .failed).value N tg).1
          (d.evalField g.object g.parents[i].record p) := by
      intro errors N tg herr hplaced i hi
      rw [columnOf_eq p hoslen] at herr hplaced ⊢
      have h := prunesAt_cellsFrom 0 hoslen hpr hflat' herr hplaced i hi (by simpa using hi)
      rw [List.getElem_map] at h
      exact h
    have hsub : ∀ errors : List ResponseError, (∀ e ∈ lay.errors ++ (columnOf p g.parents os).errors, e ∈ errors) →
        ∀ e ∈ (columnOf p g.parents os).errors, e ∈ errors :=
      fun errors herrs e he ↦ herrs e (List.mem_append_right _ he)
    cases hc : p.childType with
    | none =>
      simp only [hc, Prod.mk.injEq] at h
      obtain ⟨rfl, rfl, rfl⟩ := h
      refine ⟨hrest, ⟨[], by simp, by simp⟩, List.prefix_append _ _, ?_⟩
      intro errors N herrs _
      exact hcells errors N none (hsub errors herrs) fun c hc' ↦ by cases hc.symm.trans hc'
    | some c =>
      simp only [hc] at h
      split at h
      · -- no object was given: the column's cells hold no index
        next hempty =>
        simp only [Prod.mk.injEq] at h
        obtain ⟨rfl, rfl, rfl⟩ := h
        refine ⟨hrest, ⟨[], by simp, by simp⟩, List.prefix_append _ _, ?_⟩
        intro errors N herrs _
        refine hcells errors N none (hsub errors herrs) fun c' _ k hk ↦ ?_
        rw [List.isEmpty_iff] at hempty
        simp [hempty] at hk
      · -- the objects given form one new group, at the end of the next level
        simp only [Prod.mk.injEq] at h
        obtain ⟨rfl, rfl, rfl⟩ := h
        refine ⟨hrest, ⟨_, rfl, by simp⟩, List.prefix_append _ _, ?_⟩
        intro errors N herrs hlevel
        refine hcells errors N _ (hsub errors herrs) fun c' hc' ↦ ?_
        cases hc.symm.trans hc'
        have hplaced := hlevel.placed (t := lay.next.length) (by simp)
        simpa using hplaced

/-- Laying out the planned fields of a group: they take their outcomes off the queue in plan
order, and for every object of the group its row prunes, field by field, the fields' values
on the dataset. -/
theorem layoutFields_prunes (g : Group) (plan : List Planned)
    (hflat : ∀ p ∈ plan, ∀ o fd, p.definition = .ok fd → p.childType = none →
      (d.plannedOutcome g.object o p).IsFlat)
    {lay lay' : Layout} {rest : List (ObjectType × FieldDef × Field × Option Record)}
    {columns : List (List Cell)} {targets : List (Option Nat)}
    (hq : QueuePrunes d lay.queue (plan.flatMap (fieldTasks g) ++ rest))
    (h : layoutFields g plan lay = (lay', columns, targets)) :
    QueuePrunes d lay'.queue rest ∧
      (∃ more, lay'.next = lay.next ++ more ∧
        ∀ g' ∈ more, ∃ p ∈ plan, p.childType = some g'.object ∧ g'.selection = p.children) ∧
      lay.errors <+: lay'.errors ∧
      ∀ errors N, (∀ e ∈ lay'.errors, e ∈ errors) → LevelPrunes d errors lay'.next N →
        ∀ i (hi : i < g.parents.length),
          List.Forall₂ (fun x y ↦ x.1 = y.1 ∧
              PrunesAt errors (g.parents[i].path ++ [.key x.1.key]) x.2 y.2)
            (rowValues N plan targets (columns.map (·.getD i .failed)))
            (plan.map fun p ↦ (p, d.evalField g.object g.parents[i].record p)) := by
  induction plan generalizing lay lay' columns targets with
  | nil =>
    simp only [layoutFields, Prod.mk.injEq] at h
    obtain ⟨rfl, rfl, rfl⟩ := h
    exact ⟨by simpa using hq, ⟨[], by simp, by simp⟩, List.prefix_refl _,
      fun _ _ _ _ _ _ ↦ .nil⟩
  | cons p ps ih =>
    obtain ⟨⟨lay₁, column, target⟩, h₁⟩ : ∃ x, layoutField g lay p = x := ⟨_, rfl⟩
    obtain ⟨⟨lay₂, columns', targets'⟩, h₂⟩ : ∃ x, layoutFields g ps lay₁ = x := ⟨_, rfl⟩
    simp only [layoutFields, h₁, h₂, Prod.mk.injEq] at h
    obtain ⟨rfl, rfl, rfl⟩ := h
    obtain ⟨hq₁, ⟨more₁, hnext₁, hmore₁⟩, herr₁, hcell⟩ :=
      layoutField_prunes g p (hflat p List.mem_cons_self)
        (by rwa [List.flatMap_cons, List.append_assoc] at hq) h₁
    obtain ⟨hq₂, ⟨more₂, hnext₂, hmore₂⟩, herr₂, hrow⟩ :=
      ih (fun q hq ↦ hflat q (List.mem_cons_of_mem _ hq)) hq₁ h₂
    refine ⟨hq₂, ⟨more₁ ++ more₂, by rw [hnext₂, hnext₁, List.append_assoc], ?_⟩,
      herr₁.trans herr₂, ?_⟩
    · intro g' hg'
      rcases List.mem_append.mp hg' with hg' | hg'
      · exact ⟨p, List.mem_cons_self, hmore₁ g' hg'⟩
      · obtain ⟨q, hq, hgq⟩ := hmore₂ g' hg'
        exact ⟨q, List.mem_cons_of_mem _ hq, hgq⟩
    · -- the first field's groups and errors come before the others'
      intro errors N herrs hlevel i hi
      have hlevel₁ : LevelPrunes d errors lay₁.next N :=
        hlevel.of_prefix (by rw [hnext₂]; exact List.prefix_append _ _)
      simp only [List.map_cons, rowValues, List.zip_cons_cons]
      exact .cons ⟨rfl, hcell errors N (fun e he ↦ herrs e (herr₂.subset he)) hlevel₁ i hi⟩
        (hrow errors N herrs hlevel i hi)

/-- Laying out a whole level of planned groups: the groups take their outcomes off the queue
in order, the next level's groups are those of planned fields with an object type, with those
fields' merged sub-selections; and once the next level prunes the evaluator's objects, so does
this level, with the errors of the layout reported. -/
theorem layoutGroups_prunes (planned : List (Group × List Planned))
    (hplan : ∀ gp ∈ planned, gp.2 = collectFields gp.1.object gp.1.selection)
    {lay lay' : Layout} {rest : List (ObjectType × FieldDef × Field × Option Record)}
    {layouts : List (List (List Cell) × List (Option Nat))}
    (hq : QueuePrunes d lay.queue (planned.flatMap (fun gp ↦ gp.2.flatMap (fieldTasks gp.1)) ++
      rest))
    (h : layoutGroups planned lay = (lay', layouts)) :
    QueuePrunes d lay'.queue rest ∧
      (∃ more, lay'.next = lay.next ++ more ∧ ∀ g' ∈ more, ∃ gp ∈ planned, ∃ p ∈ gp.2,
        p.childType = some g'.object ∧ g'.selection = p.children) ∧
      lay.errors <+: lay'.errors ∧
      ∀ errors N, (∀ e ∈ lay'.errors, e ∈ errors) → LevelPrunes d errors lay'.next N →
        LevelPrunes d errors (planned.map Prod.fst) (assembleLevel planned layouts N).1 := by
  induction planned generalizing lay lay' layouts with
  | nil =>
    simp only [layoutGroups, Prod.mk.injEq] at h
    obtain ⟨rfl, rfl⟩ := h
    exact ⟨by simpa using hq, ⟨[], by simp, by simp⟩, List.prefix_refl _,
      fun _ _ _ _ ↦ LevelPrunes.nil _⟩
  | cons gp planned ih =>
    obtain ⟨g, plan⟩ := gp
    obtain ⟨⟨lay₁, columns, targets⟩, h₁⟩ : ∃ x, layoutFields g plan lay = x := ⟨_, rfl⟩
    obtain ⟨⟨lay₂, layouts'⟩, h₂⟩ : ∃ x, layoutGroups planned lay₁ = x := ⟨_, rfl⟩
    simp only [layoutGroups, h₁, h₂, Prod.mk.injEq] at h
    obtain ⟨rfl, rfl⟩ := h
    have hplan₁ : plan = collectFields g.object g.selection := hplan (g, plan) List.mem_cons_self
    have hflat : ∀ p ∈ plan, ∀ o fd, p.definition = .ok fd → p.childType = none →
        (d.plannedOutcome g.object o p).IsFlat := by
      intro p hp o fd hdef hc
      rw [hplan₁] at hp
      exact plannedOutcome_isFlat d hp o hdef hc
    obtain ⟨hq₁, ⟨more₁, hnext₁, hmore₁⟩, herr₁, hrows⟩ :=
      layoutFields_prunes g plan hflat (by rwa [List.flatMap_cons, List.append_assoc] at hq) h₁
    obtain ⟨hq₂, ⟨more₂, hnext₂, hmore₂⟩, herr₂, hlevel'⟩ :=
      ih (fun gp hgp ↦ hplan gp (List.mem_cons_of_mem _ hgp)) hq₁ h₂
    refine ⟨hq₂, ⟨more₁ ++ more₂, by rw [hnext₂, hnext₁, List.append_assoc], ?_⟩,
      herr₁.trans herr₂, ?_⟩
    · intro g' hg'
      rcases List.mem_append.mp hg' with hg' | hg'
      · obtain ⟨p, hp, hgp⟩ := hmore₁ g' hg'
        exact ⟨(g, plan), List.mem_cons_self, p, hp, hgp⟩
      · obtain ⟨gp, hgp, hrest⟩ := hmore₂ g' hg'
        exact ⟨gp, List.mem_cons_of_mem _ hgp, hrest⟩
    · intro errors N herrs hlevel
      have hlevel₁ : LevelPrunes d errors lay₁.next N :=
        hlevel.of_prefix (by rw [hnext₂]; exact List.prefix_append _ _)
      -- each object of the group is put together from a row that prunes its fields' values
      have hgroup : List.Forall₂ (fun x n ↦ PrunesAt errors n.path (objectJson x)
          (objectJson (d.evalObject g.object n.record g.selection)))
          (assembleGroup g plan columns targets N).1 g.parents := by
        rw [assembleGroup_fst, List.forall₂_iff_get]
        refine ⟨by simp, fun i h₁ h₂ ↦ ?_⟩
        simp only [List.get_eq_getElem, List.getElem_map, List.getElem_zipIdx, Nat.zero_add]
        rw [Dataset.evalObject_eq, ← hplan₁]
        exact prunesAt_objectOfValues
          (hrows errors N (fun e he ↦ herrs e (herr₂.subset he)) hlevel₁ i h₂)
      simp only [assembleLevel, List.zip_cons_cons, List.map_cons]
      exact .cons hgroup (hlevel' errors N herrs hlevel)

/-! ### Every level -/

/-- From a truthful batch, resolving groups whose selections are lower than the fuel gives, for
every object of every group, an object that prunes the evaluator's, with its cuts reported
among the errors of the run, and leaves the batch truthful. -/
theorem resolveLevel_prunes (hu : d.KeysUnique) (fuel : Nat) (groups : List Group)
    (hheight : ∀ g ∈ groups, heightOf g.selection < fuel) {b : Batch} (hb : Truthful d b) :
    LevelPrunes d ((resolveLevel fuel groups).run b).1.2 groups
        ((resolveLevel fuel groups).run b).1.1 ∧
      Truthful d ((resolveLevel fuel groups).run b).2 := by
  induction fuel generalizing groups b with
  | zero =>
    -- no selection is lower than nothing, so no group is left
    cases groups with
    | nil => exact ⟨LevelPrunes.nil _, hb⟩
    | cons g _ => exact absurd (hheight g List.mem_cons_self) (Nat.not_lt_zero _)
  | succ fuel ih =>
    cases groups with
    | nil => exact ⟨LevelPrunes.nil _, hb⟩
    | cons g gs =>
      rw [run_resolveLevel_succ fuel (List.cons_ne_nil g gs) b]
      dsimp only
      generalize hplanned : (g :: gs).map (fun g ↦ (g, collectFields g.object g.selection)) =
        planned
      -- after the two phases every task has its outcome on the dataset or an error
      obtain ⟨hsettled, hstate, hb'⟩ := level_outcomes_pruned hu hb (levelTasks planned)
      rw [hstate]
      generalize ((levelTasks planned).mapM resolveTask).run b = phase at hsettled hb' ⊢
      generalize (Batch.flush.run phase.2).2 = b' at hsettled hb' ⊢
      generalize ((phase.1.mapM settleOutcome).run b').1 = settled at hsettled ⊢
      rw [levelTasks_eq] at hsettled
      obtain ⟨⟨lay, layouts⟩, hlaid⟩ : ∃ x, layoutGroups planned ⟨settled, [], []⟩ = x :=
        ⟨_, rfl⟩
      rw [hlaid]
      dsimp only
      have hplan : ∀ gp ∈ planned, gp.2 = collectFields gp.1.object gp.1.selection := by
        intro gp hgp
        rw [← hplanned] at hgp
        obtain ⟨g', -, rfl⟩ := List.mem_map.mp hgp
        rfl
      obtain ⟨-, ⟨more, hnext, hmore⟩, -, hassemble⟩ :=
        layoutGroups_prunes planned hplan (by simpa using hsettled : QueuePrunes _ _ (_ ++ []))
          hlaid
      -- each group of the next level has a lower selection than the group it came from
      have hlower : ∀ g' ∈ lay.next, heightOf g'.selection < fuel := by
        intro g' hg'
        rw [hnext, List.nil_append] at hg'
        obtain ⟨gp, hgp, p, hp, -, hsel⟩ := hmore g' hg'
        rw [← hplanned] at hgp
        obtain ⟨g'', hg'', rfl⟩ := List.mem_map.mp hgp
        have := heightOf_children_lt hp
        have := hheight g'' hg''
        rw [hsel]
        omega
      -- the levels below prune the evaluator's objects, so this level's objects do too
      obtain ⟨hdeeper, hb''⟩ := ih lay.next hlower hb'
      refine ⟨?_, hb''⟩
      have hgroups : planned.map Prod.fst = g :: gs := by
        rw [← hplanned, List.map_map]
        exact List.map_id' _
      rw [← hgroups]
      refine hassemble _ _ (fun e he ↦ ?_) (hdeeper.mono fun e he ↦ ?_)
      · simp [he]
      · simp [he]

/-! ### Executing a selection -/

/-- The data of a run whose root level put together one object. -/
theorem data_of_root (x : Option ObjectData) :
    (match ([[x]].getLast? >>= List.getLast?) with
      | some (some o) => Json.obj o
      | _ => Json.null) = objectJson x := by
  cases x <;> rfl

/-- Over the store a dataset loads into, with no failing call, the data of an execution is the
evaluator's root object. -/
theorem execute_data_objectJson {d : Dataset} {store : Store} (h : Store.ofDataset d = .ok store)
    (selection : List Field) :
    (execute store [] selection).1.data = some (objectJson (d.evalObject .query none selection)) := by
  obtain ⟨rfl, hu⟩ := Store.ofDataset_eq_ok h
  have hroot := (resolveLevel_eval hu (heightOf selection + 1) [⟨.query, selection, [⟨none, []⟩]⟩]
    (by simp) (faithful_fresh d)).1
  rw [execute_eq]
  dsimp only
  rw [hroot]
  exact congrArg some (data_of_root _)

/-- Over the store a dataset loads into, whatever calls the failure rules fail, the data of an
execution is one root object, which prunes the evaluator's at the root, with its cuts reported
among the execution's errors. -/
theorem execute_prunesAt_eval {d : Dataset} {store : Store} (h : Store.ofDataset d = .ok store)
    (rules : List FailureRule) (selection : List Field) :
    ∃ x, (execute store rules selection).1.data = some (objectJson x) ∧
      PrunesAt (execute store rules selection).1.errors [] (objectJson x)
        (objectJson (d.evalObject .query none selection)) := by
  obtain ⟨rfl, hu⟩ := Store.ofDataset_eq_ok h
  have hpruned := (resolveLevel_prunes hu (heightOf selection + 1)
    [⟨.query, selection, [⟨none, []⟩]⟩] (by simp) (truthful_fresh d rules)).1 0 (by simp)
  obtain ⟨x, hx⟩ := resolveLevel_single (heightOf selection) .query selection ⟨none, []⟩
    (Batch.fresh d.store rules)
  rw [hx] at hpruned
  obtain ⟨os, hos, hrel⟩ := hpruned
  simp only [List.getElem?_cons_zero, Option.some.injEq] at hos
  subst hos
  obtain ⟨hxw, -⟩ := List.forall₂_cons.mp hrel
  rw [execute_eq]
  dsimp only
  rw [hx]
  exact ⟨x, congrArg some (data_of_root x), hxw⟩

/-- Over the store a dataset loads into, whatever calls the failure rules fail, executing a
selection gives the data of the run where no call fails with some subtrees cut down to null,
and every place where it is null and that data is not lies at or below the path of one of its
errors. -/
theorem failures_prune_data {d : Dataset} {store : Store} (h : Store.ofDataset d = .ok store)
    (rules : List FailureRule) (selection : List Field) :
    let pruned := (execute store rules selection).1
    let full := (execute store [] selection).1
    ∃ v w, pruned.data = some v ∧ full.data = some w ∧ v.Prunes w ∧
      ∀ p, v.follow p = some .null → (∃ u, w.follow p = some u ∧ u ≠ .null) →
        ∃ e ∈ pruned.errors, ∃ q, e.path = some q ∧ p <+: q := by
  obtain ⟨x, hdata, hx⟩ := execute_prunesAt_eval h rules selection
  refine ⟨objectJson x, _, hdata, execute_data_objectJson h selection, hx.prunes, ?_⟩
  intro p hv hw
  simpa using hx.reported p hv hw

/-- The one-author dataset with every foreign-key scan failing: the posts of its user. -/
theorem failing_post_scans_prune_oneAuthor :
    Store.ofDataset oneAuthor = .ok oneAuthor.store ∧
      let selection : List Field := [⟨none, "users", [], none,
        [⟨none, "posts", [], none, [⟨none, "title", [], none, []⟩]⟩]⟩]
      let pruned := (execute oneAuthor.store
        [⟨some "scan_by_foreign_key", none, none, none, none, .connection "down"⟩] selection).1
      let full := (execute oneAuthor.store [] selection).1
      ∃ v w, pruned.data = some v ∧ full.data = some w ∧ v.Prunes w ∧
        ∀ p, v.follow p = some .null → (∃ u, w.follow p = some u ∧ u ≠ .null) →
          ∃ e ∈ pruned.errors, ∃ q, e.path = some q ∧ p <+: q :=
  ⟨rfl, failures_prune_data (d := oneAuthor) rfl _ _⟩

end SocialGraph
