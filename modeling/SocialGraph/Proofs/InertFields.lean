import SocialGraph.Proofs.ObjectPairs
import SocialGraph.Proofs.LevelDepth
import SocialGraph.Proofs.ResponseShape

/-!
# Inert fields cost nothing and put null in

Taking an inert field out of a selection (`Removes`) changes neither the calls a run makes nor
its data, except that the run with the field puts the field's key, with null, into each object
where the field applies.

The two runs are compared level by level. At each level the groups of the two runs agree but
at one group, whose selections are related by `Removes` (`RemovedAt`). Where the field stands
in that group's selection, its tasks fail at once and leave the batch as it is, so the two
levels make the same calls and settle to the same batch, lay out the same next level, and put
together objects that differ only by the field's key (`levelRun_insert`). Where a field of the
chain above it stands there, it is planned with the fields of its key beside it, and the two
plans differ only in that planned field's merged sub-selection. The two levels make the same
calls and lay out the same cells; the next levels differ only at the group the merged field adds,
whose selections are again related by `Removes` one field lower, framed by the sub-selections
merged beside it (`levelRun_twin`, `Removes.frame`). Where the merged field gives no objects, or
neither applies, nothing below it is read. By induction on the fuel, the whole runs make the
same calls and put together related objects (`resolveLevel_removed`).
-/

namespace SocialGraph

/-! ### Running tasks in parts -/

theorem run_mapM_append {σ α β : Type} (f : α → StateM σ β) (xs ys : List α) (s : σ) :
    ((xs ++ ys).mapM f).run s =
      (((xs.mapM f).run s).1 ++ ((ys.mapM f).run ((xs.mapM f).run s).2).1,
        ((ys.mapM f).run ((xs.mapM f).run s).2).2) := by
  rw [List.mapM_append]
  rfl

theorem length_run_mapM {σ α β : Type} (f : α → StateM σ β) :
    ∀ (xs : List α) (s : σ), ((xs.mapM f).run s).1.length = xs.length
  | [], _ => rfl
  | x :: xs, s => by
    simp only [List.mapM_cons, StateT.run_bind, id_bind_eq, StateT.run_pure, id_pure_eq,
      List.length_cons, length_run_mapM f xs]

/-- Steps that are the same step run alike. -/
theorem mapM_eq_of_map_eq {σ α β : Type} (f : α → StateM σ β) :
    ∀ {xs ys : List α}, xs.map f = ys.map f → xs.mapM f = ys.mapM f
  | [], [], _ => rfl
  | x :: xs, y :: ys, h => by
    simp only [List.map_cons, List.cons.injEq] at h
    rw [List.mapM_cons, List.mapM_cons, h.1, mapM_eq_of_map_eq f h.2]

/-- Settling failures keeps them and leaves the batch as it is. -/
theorem run_mapM_settleOutcome_errors (errs : List ResolveError) (b : Batch) :
    ((errs.map (Except.error : ResolveError → Except ResolveError Resolution)).mapM
      settleOutcome).run b = (errs.map .error, b) := by
  induction errs with
  | nil => rfl
  | cons e errs ih =>
    have hsettle : (settleOutcome (.error e)).run b = (.error e, b) := rfl
    simp only [List.map_cons, List.mapM_cons, StateT.run_bind, id_bind_eq, StateT.run_pure,
      id_pure_eq, hsettle, ih]

/-- The outcomes of a level's tasks, and the batch that settling them leaves. -/
def settledRun (tasks : List (ObjectType × FieldDef × Field × Option Record)) (b : Batch) :
    List Outcome × Batch :=
  let phase := (tasks.mapM resolveTask).run b
  (phase.1.mapM settleOutcome).run (Batch.flush.run phase.2).2

theorem levelRun_settledRun (groups : List Group) (b : Batch) :
    ((levelRun groups b).outcomes, (levelRun groups b).settled) =
      settledRun (levelTasks (groups.map fun g ↦ (g, collectFields g.object g.selection))) b :=
  rfl

/-- Tasks that resolve alike settle alike. -/
theorem settledRun_congr {tasks tasks' : List (ObjectType × FieldDef × Field × Option Record)}
    (h : tasks.map resolveTask = tasks'.map resolveTask) : settledRun tasks = settledRun tasks' := by
  funext b
  unfold settledRun
  rw [mapM_eq_of_map_eq resolveTask h]

/-- Tasks that fail at once and leave the batch as it is only add their failures to the
outcomes. -/
theorem settledRun_inert {inert : List (ObjectType × FieldDef × Field × Option Record)}
    {errs : List ResolveError} (hinert : ∀ b, (inert.mapM resolveTask).run b = (errs.map .error, b))
    (xs ys : List (ObjectType × FieldDef × Field × Option Record)) (b : Batch) :
    ∃ os os' s, os.length = xs.length ∧ os'.length = ys.length ∧
      settledRun (xs ++ inert ++ ys) b = (os ++ errs.map .error ++ os', s) ∧
      settledRun (xs ++ ys) b = (os ++ os', s) := by
  unfold settledRun
  simp only [run_mapM_append, hinert, run_mapM_settleOutcome_errors]
  exact ⟨_, _, _, by rw [length_run_mapM, length_run_mapM],
    by rw [length_run_mapM, length_run_mapM], rfl, rfl⟩

/-- An inert field's tasks fail at once and leave the batch as it is: an invalid field has
none, and a root look-up with a bad `id` fails before it asks the store. -/
theorem run_mapM_fieldTasks_inert {t : ObjectType} {f : Field} (hf : f.Inert t) (g : Group) :
    ∃ errs : List ResolveError, errs.length = (fieldTasks g (f.planned t)).length ∧
      ∀ b, ((fieldTasks g (f.planned t)).mapM resolveTask).run b = (errs.map .error, b) := by
  rcases hf with ⟨e, he⟩ | ⟨d, kind, e, hd, hres, hid⟩
  · have hnil : fieldTasks g (f.planned t) = [] := by simp [fieldTasks, Field.planned, he]
    exact ⟨[], by rw [hnil]; rfl, fun b ↦ by rw [hnil]; rfl⟩
  · have htasks : fieldTasks g (f.planned t) = g.parents.map fun n ↦ (g.object, d, f, n.record) := by
      simp [fieldTasks, Field.planned, hd]
    refine ⟨g.parents.map fun _ ↦ e, by simp [htasks], fun b ↦ ?_⟩
    rw [htasks]
    induction g.parents with
    | nil => rfl
    | cons n ns ih =>
      have hfail : (resolveTask (g.object, d, f, n.record)).run b = (.error e, b) :=
        run_resolveField_rootLookup hres hid g.object n.record b
      simp only [List.map_cons, List.mapM_cons, StateT.run_bind, id_bind_eq, StateT.run_pure,
        id_pure_eq, hfail, ih]

/-! ### A level around one group -/

theorem levelTasks_around (X Y : List (Group × List Planned)) (g : Group) (plan : List Planned) :
    levelTasks (X ++ (g, plan) :: Y) =
      levelTasks X ++ (plan.flatMap (fieldTasks g) ++ levelTasks Y) := by
  simp [levelTasks_eq]

theorem exists_append_of_length {α : Type} {l : List α} {m n : Nat} (h : l.length = m + n) :
    ∃ l₁ l₂, l = l₁ ++ l₂ ∧ l₁.length = m ∧ l₂.length = n :=
  ⟨l.take m, l.drop m, (List.take_append_drop m l).symm, by simp [h], by simp [h]⟩

/-- A failed planned field standing in one plan only: the two levels lay out the same columns
but its own, and the same next level. -/
theorem layoutGroups_insert (X Y : List (Group × List Planned)) {g g' : Group}
    (hpar : g.parents = g'.parents) (P Q : List Planned) (e : Planned) {o₁ o₂ o₄ o₅ : List Outcome}
    {errs : List ResolveError} (h₁ : o₁.length = (levelTasks X).length)
    (h₂ : o₂.length = (P.flatMap (fieldTasks g)).length)
    (he : errs.length = (fieldTasks g e).length)
    (h₄ : o₄.length = (Q.flatMap (fieldTasks g)).length) (h₅ : o₅.length = (levelTasks Y).length) :
    ∃ LX CP TP CQ TQ LY, LX.length = X.length ∧ P.length = TP.length ∧ TP.length = CP.length ∧
      (layoutGroups (X ++ (g, P ++ [e] ++ Q) :: Y)
          ⟨o₁ ++ (o₂ ++ (errs.map .error ++ (o₄ ++ o₅))), [], []⟩).2 =
        LX ++ (CP ++ (g.parents.map fun _ ↦ .failed) :: CQ, TP ++ none :: TQ) :: LY ∧
      (layoutGroups (X ++ (g', P ++ [] ++ Q) :: Y) ⟨o₁ ++ (o₂ ++ (o₄ ++ o₅)), [], []⟩).2 =
        LX ++ (CP ++ CQ, TP ++ TQ) :: LY ∧
      (layoutGroups (X ++ (g, P ++ [e] ++ Q) :: Y)
          ⟨o₁ ++ (o₂ ++ (errs.map .error ++ (o₄ ++ o₅))), [], []⟩).1.next =
        (layoutGroups (X ++ (g', P ++ [] ++ Q) :: Y) ⟨o₁ ++ (o₂ ++ (o₄ ++ o₅)), [], []⟩).1.next := by
  rw [layoutGroups_around, layoutGroups_around]
  dsimp only
  -- the groups before, then the fields before: the same outcomes, each queue keeping its rest
  obtain ⟨m₁, e₁, hx, hx', hxl, -⟩ := layoutGroups_frame X
    ⟨o₁ ++ (o₂ ++ (errs.map .error ++ (o₄ ++ o₅))), [], []⟩ ⟨o₁ ++ (o₂ ++ (o₄ ++ o₅)), [], []⟩
    h₁ rfl rfl rfl
  obtain ⟨m₂, e₂, hp, hp', hpl, -⟩ := layoutFields_frame hpar P
    ⟨o₂ ++ (errs.map .error ++ (o₄ ++ o₅)), [] ++ m₁, [] ++ e₁⟩ ⟨o₂ ++ (o₄ ++ o₅), [] ++ m₁, [] ++ e₁⟩
    h₂ rfl rfl rfl
  -- the failed field takes its failures off the queue and adds no group
  obtain ⟨e₃, hfail⟩ := layoutField_failed g e
    ⟨errs.map .error ++ (o₄ ++ o₅), [] ++ m₁ ++ m₂, [] ++ e₁ ++ e₂⟩ he rfl
  -- the fields after, then the groups after: the same outcomes, and next levels as long
  obtain ⟨m₄, e₄, hq, hq', hql, -⟩ := layoutFields_frame hpar Q
    ⟨o₄ ++ o₅, [] ++ m₁ ++ m₂, [] ++ e₁ ++ e₂ ++ e₃⟩ ⟨o₄ ++ o₅, [] ++ m₁ ++ m₂, [] ++ e₁ ++ e₂⟩
    h₄ rfl rfl rfl
  obtain ⟨m₅, e₅, hy, hy', hyl, -⟩ := layoutGroups_frame Y
    ⟨o₅, [] ++ m₁ ++ m₂ ++ m₄, [] ++ e₁ ++ e₂ ++ e₃ ++ e₄⟩ ⟨o₅, [] ++ m₁ ++ m₂ ++ m₄, [] ++ e₁ ++ e₂ ++ e₄⟩
    h₅ (List.append_nil o₅).symm (List.append_nil o₅).symm rfl
  dsimp only at hx hx' hp hp' hfail hq hq' hy hy'
  simp only [hx, hx', hp, hp', layoutFields_cons, hfail, layoutFields_nil, hq, hq', hy, hy', ← hxl,
    ← hpl, ← hql, ← hyl]
  simp only [List.append_assoc, List.singleton_append, List.nil_append, and_true]
  exact ⟨_, _, _, _, _, _, length_layoutGroups X _, (length_layoutFields g P _).2.symm,
    (length_layoutFields g P _).2.trans (length_layoutFields g P _).1.symm, rfl, rfl⟩

/-- A target that points before the first `n` groups of the next level or after the `k` that
follow them. -/
def PointsAway (n k : Nat) (target : Option Nat) : Prop :=
  ∀ j, target = some j → j < n ∨ n + k ≤ j

theorem length_fieldTasks_twin (g : Group) {p q : Planned} (hdef : p.definition = q.definition) :
    (fieldTasks g p).length = (fieldTasks g q).length := by
  unfold fieldTasks
  rw [hdef]
  split <;> simp

/-- Two planned fields with the same key and definition standing at the same place of a group's
two plans, over the same outcomes: the two levels lay out the same columns, and the same next
level but for the selection of the group the field adds, if any. Every other cell points away
from that group. -/
theorem layoutGroups_twin (X Y : List (Group × List Planned)) {g g' : Group}
    (hpar : g.parents = g'.parents) (P Q : List Planned) {p q : Planned} (hkey : p.key = q.key)
    (hdef : p.definition = q.definition) {o₁ o₂ o₃ o₄ o₅ : List Outcome}
    (h₁ : o₁.length = (levelTasks X).length) (h₂ : o₂.length = (P.flatMap (fieldTasks g)).length)
    (h₃ : o₃.length = (fieldTasks g p).length) (h₄ : o₄.length = (Q.flatMap (fieldTasks g)).length)
    (h₅ : o₅.length = (levelTasks Y).length) :
    ∃ LX CP TP CQ TQ LY H₁ H₂, LX.length = X.length ∧ P.length = TP.length ∧
      TP.length = CP.length ∧
      (layoutGroups (X ++ (g, P ++ [p] ++ Q) :: Y) ⟨o₁ ++ (o₂ ++ (o₃ ++ (o₄ ++ o₅))), [], []⟩).2 =
        LX ++ (CP ++ (fieldColumn g p o₃).cells :: CQ,
          TP ++ (fieldGroup p (fieldColumn g p o₃)).map (fun _ ↦ H₁.length) :: TQ) :: LY ∧
      (layoutGroups (X ++ (g', P ++ [q] ++ Q) :: Y) ⟨o₁ ++ (o₂ ++ (o₃ ++ (o₄ ++ o₅))), [], []⟩).2 =
        LX ++ (CP ++ (fieldColumn g p o₃).cells :: CQ,
          TP ++ (fieldGroup p (fieldColumn g p o₃)).map (fun _ ↦ H₁.length) :: TQ) :: LY ∧
      (layoutGroups (X ++ (g, P ++ [p] ++ Q) :: Y) ⟨o₁ ++ (o₂ ++ (o₃ ++ (o₄ ++ o₅))), [], []⟩).1.next =
        H₁ ++ (fieldGroup p (fieldColumn g p o₃)).toList ++ H₂ ∧
      (layoutGroups (X ++ (g', P ++ [q] ++ Q) :: Y) ⟨o₁ ++ (o₂ ++ (o₃ ++ (o₄ ++ o₅))), [], []⟩).1.next =
        H₁ ++ (fieldGroup q (fieldColumn g p o₃)).toList ++ H₂ ∧
      ∀ l ∈ LX ++ (CP ++ CQ, TP ++ TQ) :: LY, ∀ tg ∈ l.2,
        PointsAway H₁.length (fieldGroup p (fieldColumn g p o₃)).toList.length tg := by
  rw [layoutGroups_around, layoutGroups_around, ← layoutFields_congr hpar]
  dsimp only
  -- the groups before and the fields before lay out the same outcomes alike
  obtain ⟨m₁, e₁, hx, -, -, hxr⟩ := layoutGroups_frame X
    ⟨o₁ ++ (o₂ ++ (o₃ ++ (o₄ ++ o₅))), [], []⟩ ⟨o₁ ++ (o₂ ++ (o₃ ++ (o₄ ++ o₅))), [], []⟩
    h₁ rfl rfl rfl
  obtain ⟨m₂, e₂, hp, -, -, hpr⟩ := layoutFields_frame rfl P
    ⟨o₂ ++ (o₃ ++ (o₄ ++ o₅)), [] ++ m₁, [] ++ e₁⟩ ⟨o₂ ++ (o₃ ++ (o₄ ++ o₅)), [] ++ m₁, [] ++ e₁⟩
    h₂ rfl rfl rfl
  dsimp only at hx hp hxr hpr
  rw [hx, hp]
  -- the twin fields take the same outcomes and lay out the same column
  have hq₃ : o₃.length = (fieldTasks g q).length := h₃.trans (length_fieldTasks_twin g hdef)
  rw [layoutFields_cons, layoutFields_cons, layoutField_eq, layoutField_eq]
  dsimp only
  rw [List.take_left' h₃, List.drop_left' h₃, List.take_left' hq₃, List.drop_left' hq₃,
    ← fieldColumn_twin rfl hkey hdef o₃]
  generalize fieldColumn g p o₃ = col
  have hwidth : (fieldGroup q col).toList.length = (fieldGroup p col).toList.length := by
    rw [fieldGroup_twin hdef]
    cases fieldGroup p col <;> rfl
  -- the fields after and the groups after: the same outcomes, and next levels as long
  simp only [layoutFields_nil]
  obtain ⟨m₄, e₄, hq, hq', hql, hqr⟩ := layoutFields_frame rfl Q
    ⟨o₄ ++ o₅, [] ++ m₁ ++ m₂ ++ (fieldGroup p col).toList, [] ++ e₁ ++ e₂ ++ col.errors⟩
    ⟨o₄ ++ o₅, [] ++ m₁ ++ m₂ ++ (fieldGroup q col).toList, [] ++ e₁ ++ e₂ ++ col.errors⟩
    h₄ rfl rfl (by simp [hwidth])
  obtain ⟨m₅, e₅, hy, hy', hyl, hyr⟩ := layoutGroups_frame Y
    ⟨o₅, [] ++ m₁ ++ m₂ ++ (fieldGroup p col).toList ++ m₄, [] ++ e₁ ++ e₂ ++ col.errors ++ e₄⟩
    ⟨o₅, [] ++ m₁ ++ m₂ ++ (fieldGroup q col).toList ++ m₄, [] ++ e₁ ++ e₂ ++ col.errors ++ e₄⟩
    h₅ (List.append_nil o₅).symm (List.append_nil o₅).symm (by simp [hwidth])
  dsimp only at hq hq' hy hy' hqr hyr
  simp only [hq, hq', hy, hy', ← hql, ← hyl]
  have htarget : (fieldGroup q col).map (fun _ ↦ ([] ++ m₁ ++ m₂).length) =
      (fieldGroup p col).map (fun _ ↦ ([] ++ m₁ ++ m₂).length) := by
    rw [fieldGroup_twin hdef, Option.map_map]
    rfl
  rw [htarget]
  simp only [List.append_assoc, List.cons_append, List.nil_append] at hxr hpr hqr hyr ⊢
  refine ⟨_, _, _, _, _, _, m₁ ++ m₂, m₄ ++ m₅, length_layoutGroups X _,
    (length_layoutFields g P _).2.symm,
    (length_layoutFields g P _).2.trans (length_layoutFields g P _).1.symm, rfl, rfl, by simp,
    by simp, ?_⟩
  -- the cells before point into the groups before, and those after into the groups after
  intro l hl tg htg j hj
  simp only [List.mem_append, List.mem_cons] at hl
  rcases hl with hl | rfl | hl
  · have hlt := hxr l hl tg htg j hj
    simp only [List.length_append, List.length_nil] at hlt ⊢
    omega
  · rcases List.mem_append.mp htg with htg | htg
    · have hlt := hpr tg htg j hj
      simp only [List.length_append] at hlt ⊢
      omega
    · have hle := hqr tg htg j hj
      simp only [List.length_append] at hle ⊢
      omega
  · have hle := hyr l hl tg htg j hj
    simp only [List.length_append] at hle ⊢
    omega

theorem forall₂_append_split {α β : Type} {R : α → β → Prop} {xs ys : List α} {us vs : List β}
    (h : List.Forall₂ R (xs ++ ys) (us ++ vs)) (hx : xs.length = us.length) :
    List.Forall₂ R xs us ∧ List.Forall₂ R ys vs := by
  have htake := List.forall₂_take xs.length h
  have hdrop := List.forall₂_drop xs.length h
  rw [List.take_left, hx, List.take_left] at htake
  rw [List.drop_left, hx, List.drop_left] at hdrop
  exact ⟨htake, hdrop⟩

/-- Twin planned fields whose first phases agree make tasks that resolve alike. -/
theorem map_resolveTask_fieldTasks_twin (g : Group) {p q : Planned}
    (hdef : p.definition = q.definition)
    (hres : ∀ d o, resolveField g.object d p.field o = resolveField g.object d q.field o) :
    (fieldTasks g p).map resolveTask = (fieldTasks g q).map resolveTask := by
  unfold fieldTasks
  rw [← hdef]
  split
  · simp only [List.map_map]
    exact List.map_congr_left fun n _ ↦ hres _ _
  · rfl

/-- The group a planned field adds gives objects of the field's type and selects its
sub-selection. -/
theorem childType_of_mem_fieldGroup {p : Planned} {col : Column} {h : Group}
    (hh : h ∈ fieldGroup p col) : p.childType = some h.object ∧ h.selection = p.children := by
  unfold fieldGroup at hh
  split at hh
  · next c hc =>
    split at hh
    · cases hh
    · cases hh
      exact ⟨hc, rfl⟩
  · cases hh

/-- A column of a field's outcomes reads related values on every row from two next levels that
read related objects where the field points. -/
theorem lift_fieldColumn {R : ObjectData → ObjectData → Prop}
    {NA NB : List (List (Option ObjectData))} {target : Option Nat}
    (h : ∀ k, Option.Rel R (takeChild NA target k) (takeChild NB target k)) (g : Group)
    (p : Planned) (hleaf : ∀ d, p.definition = .ok d → d.shape ≠ .leaf) {os : List Outcome}
    (hfit : ∀ d, p.definition = .ok d → g.parents.length = os.length ∧ ∀ o ∈ os, o.Fits d.shape)
    (r : Nat) :
    Json.Lift R (((fieldColumn g p os).cells.getD r .failed).value NA target).1
      (((fieldColumn g p os).cells.getD r .failed).value NB target).1 := by
  unfold fieldColumn
  split
  · -- an invalid field fails on every object
    have hfail : (g.parents.map fun _ ↦ Cell.failed).getD r .failed = .failed := by
      rw [List.getD_eq_getElem?_getD, List.getElem?_map]
      cases g.parents[r]? <;> rfl
    rw [hfail]
    exact .null
  · next d hd =>
    obtain ⟨hlen, hos⟩ := hfit d hd
    rw [columnOf_eq p hlen]
    exact lift_getD_cellsFrom h (hleaf d hd) hos 0 r

/-- A cell that points away from the one group where two next levels may differ reads where
they agree. -/
theorem getElem?_eq_of_pointsAway {gp : Option Group} {n : Nat}
    {NA NB : List (List (Option ObjectData))} (hothers : ∀ j, (∀ h ∈ gp, j ≠ n) → NA[j]? = NB[j]?)
    {target : Option Nat} (haway : PointsAway n gp.toList.length target) :
    ∀ j, target = some j → NA[j]? = NB[j]? := by
  intro j hj
  refine hothers j fun h hh ↦ ?_
  have hj' := haway j hj
  rw [Option.mem_def] at hh
  subst hh
  simp only [Option.toList_some, List.length_singleton] at hj'
  omega

/-- The objects a level puts together for its groups, from the objects of the level below. -/
def LevelRun.assembled (l : LevelRun) (nested : List (List (Option ObjectData))) :
    List (List (Option ObjectData)) :=
  (assembleLevel l.planned (layoutGroups l.planned ⟨l.outcomes, [], []⟩).2 nested).1

theorem levelRun_next_eq (groups : List Group) (b : Batch) :
    (levelRun groups b).next =
      (layoutGroups (groups.map fun g ↦ (g, collectFields g.object g.selection))
        ⟨(levelRun groups b).outcomes, [], []⟩).1.next :=
  rfl

theorem levelRun_assembled_eq (groups : List Group) (b : Batch)
    (nested : List (List (Option ObjectData))) :
    (levelRun groups b).assembled nested =
      (assembleLevel (groups.map fun g ↦ (g, collectFields g.object g.selection))
        (layoutGroups (groups.map fun g ↦ (g, collectFields g.object g.selection))
          ⟨(levelRun groups b).outcomes, [], []⟩).2 nested).1 :=
  rfl

/-- An inert field may be null. -/
theorem Field.Inert.nullable {t : ObjectType} {f : Field} (hf : f.Inert t) :
    (f.planned t).nullable = true := by
  rcases hf with ⟨e, he⟩ | ⟨d, kind, e, hd, hres, -⟩
  · simp [Planned.nullable, Field.planned, he]
  · simp [Planned.nullable, Field.planned, hd, nullable_of_rootLookup hd hres]

section Around

variable (G₁ G₂ : List Group) {t : ObjectType} {ps : List Node} {selA selB : List Field}

theorem planned_around (sel : List Field) :
    (G₁ ++ (⟨t, sel, ps⟩ : Group) :: G₂).map (fun g ↦ (g, collectFields g.object g.selection)) =
      G₁.map (fun g ↦ (g, collectFields g.object g.selection)) ++
        ((⟨t, sel, ps⟩ : Group), collectFields t sel) ::
          G₂.map (fun g ↦ (g, collectFields g.object g.selection)) := by
  simp

/-- Two levels whose groups agree but at one, where the selections differ and plan the same
fields, make the same calls, settle to the same batch, lay out the same next level and put
together the same objects. -/
theorem levelRun_samePlan (hplan : collectFields t selA = collectFields t selB) (b : Batch) :
    (levelRun (G₁ ++ ⟨t, selA, ps⟩ :: G₂) b).settled =
        (levelRun (G₁ ++ ⟨t, selB, ps⟩ :: G₂) b).settled ∧
      (levelRun (G₁ ++ ⟨t, selA, ps⟩ :: G₂) b).next =
        (levelRun (G₁ ++ ⟨t, selB, ps⟩ :: G₂) b).next ∧
      ∀ N, (levelRun (G₁ ++ ⟨t, selA, ps⟩ :: G₂) b).assembled N =
        (levelRun (G₁ ++ ⟨t, selB, ps⟩ :: G₂) b).assembled N := by
  have hA := levelRun_settledRun (G₁ ++ ⟨t, selA, ps⟩ :: G₂) b
  have hB := levelRun_settledRun (G₁ ++ ⟨t, selB, ps⟩ :: G₂) b
  rw [planned_around, levelTasks_around, hplan] at hA
  rw [planned_around, levelTasks_around] at hB
  have hrun := hA.trans hB.symm
  simp only [Prod.mk.injEq] at hrun
  have hlayout (lay : Layout) :
      layoutFields ⟨t, selA, ps⟩ (collectFields t selB) lay =
        layoutFields ⟨t, selB, ps⟩ (collectFields t selB) lay := by
    rw [layoutFields_congr (show (⟨t, selA, ps⟩ : Group).parents = (⟨t, selB, ps⟩ : Group).parents
      from rfl)]
  refine ⟨hrun.2, ?_, fun N ↦ ?_⟩
  · unfold LevelRun.next LevelRun.planned
    rw [hrun.1]
    simp only [levelRun, planned_around, hplan, layoutGroups_append, layoutGroups_cons, hlayout]
  · unfold LevelRun.assembled LevelRun.planned
    rw [hrun.1]
    simp only [levelRun, planned_around, hplan, layoutGroups_append, layoutGroups_cons, hlayout]
    rw [assembleLevel_fst_append _ _ _ _ (length_layoutGroups _ _).symm,
      assembleLevel_fst_append _ _ _ _ (length_layoutGroups _ _).symm]
    rfl

/-- Two levels whose groups agree but at one, where one selection has an inert field the other
lacks, make the same calls, settle to the same batch and lay out the same next level; the
objects they put together agree but at that group, where the field's key stands in with null. -/
theorem levelRun_insert {f : Field} (hinert : f.Inert t) {P Q : List Planned}
    (hA : collectFields t selA = P ++ f.planned t :: Q) (hB : collectFields t selB = P ++ Q)
    (b : Batch) :
    (levelRun (G₁ ++ ⟨t, selA, ps⟩ :: G₂) b).settled =
        (levelRun (G₁ ++ ⟨t, selB, ps⟩ :: G₂) b).settled ∧
      (levelRun (G₁ ++ ⟨t, selA, ps⟩ :: G₂) b).next =
        (levelRun (G₁ ++ ⟨t, selB, ps⟩ :: G₂) b).next ∧
      ∀ N, NestedAgree G₁.length (Inserted f.responseKey)
        ((levelRun (G₁ ++ ⟨t, selA, ps⟩ :: G₂) b).assembled N)
        ((levelRun (G₁ ++ ⟨t, selB, ps⟩ :: G₂) b).assembled N) := by
  -- the field's tasks fail at once, so the other tasks settle as they would without them
  obtain ⟨errs, hlen, hfail⟩ := run_mapM_fieldTasks_inert hinert ⟨t, selA, ps⟩
  obtain ⟨os, os', s, hos, hos', hrA, hrB⟩ := settledRun_inert hfail
    (levelTasks (G₁.map fun g ↦ (g, collectFields g.object g.selection)) ++
      P.flatMap (fieldTasks ⟨t, selA, ps⟩))
    (Q.flatMap (fieldTasks ⟨t, selA, ps⟩) ++
      levelTasks (G₂.map fun g ↦ (g, collectFields g.object g.selection))) b
  have hlA := levelRun_settledRun (G₁ ++ ⟨t, selA, ps⟩ :: G₂) b
  have hlB := levelRun_settledRun (G₁ ++ ⟨t, selB, ps⟩ :: G₂) b
  rw [planned_around, levelTasks_around, hA, List.flatMap_append, List.flatMap_cons] at hlA
  rw [planned_around, levelTasks_around, hB, List.flatMap_append,
    show fieldTasks (⟨t, selB, ps⟩ : Group) = fieldTasks ⟨t, selA, ps⟩ from rfl] at hlB
  simp only [List.append_assoc] at hrA hrB hlA hlB
  rw [hrA, Prod.mk.injEq] at hlA
  rw [hrB, Prod.mk.injEq] at hlB
  -- the outcomes of the groups before, the fields before, the fields after, the groups after
  obtain ⟨o₁, o₂, rfl, h₁, h₂⟩ := exists_append_of_length (hos.trans (List.length_append ..))
  obtain ⟨o₄, o₅, rfl, h₄, h₅⟩ := exists_append_of_length (hos'.trans (List.length_append ..))
  simp only [List.append_assoc] at hlA hlB
  have hA' : collectFields t selA = P ++ [f.planned t] ++ Q := by simp [hA]
  have hB' : collectFields t selB = P ++ [] ++ Q := by simp [hB]
  obtain ⟨LX, CP, TP, CQ, TQ, LY, hLX, hP, hT, hlayA, hlayB, hnext⟩ :=
    layoutGroups_insert (G₁.map fun g ↦ (g, collectFields g.object g.selection))
      (G₂.map fun g ↦ (g, collectFields g.object g.selection))
      (show (⟨t, selA, ps⟩ : Group).parents = (⟨t, selB, ps⟩ : Group).parents from rfl) P Q
      (f.planned t) h₁ h₂ hlen h₄ h₅
  refine ⟨hlA.2.trans hlB.2.symm, ?_, fun N ↦ ?_⟩
  · rw [levelRun_next_eq, levelRun_next_eq, hlA.1, hlB.1, planned_around, planned_around, hA',
      hB']
    exact hnext
  · rw [levelRun_assembled_eq, levelRun_assembled_eq, hlA.1, hlB.1, planned_around,
      planned_around, hA', hB', hlayA, hlayB, assembleLevel_fst_append _ _ _ _ hLX.symm,
      assembleLevel_fst_append _ _ _ _ hLX.symm]
    have hU := length_assembleLevel_fst hLX.symm N
    rw [List.length_map] at hU
    rw [← hU]
    simp only [List.append_assoc, List.singleton_append, List.append_nil]
    exact nestedAgree_of_eq _ _ (assembleGroup_insert rfl hinert.nullable hP hT N)

/-- Two levels whose groups agree but at one, where the plans agree but for twin planned fields
that resolve alike (a field, and the same field with other sub-selections merged into it): the
levels make the same calls and settle to the same batch; their next levels agree but for the
selection of the group the field adds, if any; and the objects they put together agree but at
that group, where the values at the field's key are related as the field's column reads them
from the two levels below. -/
theorem levelRun_twin {P Q : List Planned} {p q : Planned}
    (hA : collectFields t selA = P ++ p :: Q) (hB : collectFields t selB = P ++ q :: Q)
    (hkey : p.key = q.key) (hdef : p.definition = q.definition)
    (hres : ∀ d o, resolveField t d p.field o = resolveField t d q.field o) (b : Batch) :
    (levelRun (G₁ ++ ⟨t, selA, ps⟩ :: G₂) b).settled =
        (levelRun (G₁ ++ ⟨t, selB, ps⟩ :: G₂) b).settled ∧
      ∃ (H₁ H₂ : List Group) (gp : Option Group), (levelRun (G₁ ++ ⟨t, selA, ps⟩ :: G₂) b).next =
          H₁ ++ gp.toList ++ H₂ ∧
        (levelRun (G₁ ++ ⟨t, selB, ps⟩ :: G₂) b).next =
          H₁ ++ (gp.map fun h ↦ { h with selection := q.children }).toList ++ H₂ ∧
        (∀ h ∈ gp, p.childType = some h.object ∧ h.selection = p.children) ∧
        ∀ (V : Json → Json → Prop) (NA NB : List (List (Option ObjectData))),
          (∀ v w, V v w → isNull v = isNull w) →
          (∀ j, (∀ h ∈ gp, j ≠ H₁.length) → NA[j]? = NB[j]?) →
          (∀ os : List Outcome,
            (∀ d, p.definition = .ok d → ps.length = os.length ∧ ∀ o ∈ os, o.Fits d.shape) →
            ∀ r, V (((fieldColumn ⟨t, selA, ps⟩ p os).cells.getD r .failed).value NA
                (gp.map fun _ ↦ H₁.length)).1
              (((fieldColumn ⟨t, selA, ps⟩ p os).cells.getD r .failed).value NB
                (gp.map fun _ ↦ H₁.length)).1) →
          NestedAgree G₁.length (AtKey p.key V)
            ((levelRun (G₁ ++ ⟨t, selA, ps⟩ :: G₂) b).assembled NA)
            ((levelRun (G₁ ++ ⟨t, selB, ps⟩ :: G₂) b).assembled NB) := by
  -- the twin fields' tasks resolve alike, so the levels settle alike
  have htasks : (levelTasks ((G₁ ++ ⟨t, selA, ps⟩ :: G₂).map fun g ↦
        (g, collectFields g.object g.selection))).map resolveTask =
      (levelTasks ((G₁ ++ ⟨t, selB, ps⟩ :: G₂).map fun g ↦
        (g, collectFields g.object g.selection))).map resolveTask := by
    rw [planned_around, planned_around, levelTasks_around, levelTasks_around, hA, hB]
    simp only [List.flatMap_append, List.flatMap_cons, List.map_append]
    rw [show fieldTasks (⟨t, selB, ps⟩ : Group) = fieldTasks ⟨t, selA, ps⟩ from rfl,
      map_resolveTask_fieldTasks_twin ⟨t, selA, ps⟩ hdef hres]
  have hrun := congrFun (settledRun_congr htasks) b
  rw [← levelRun_settledRun, ← levelRun_settledRun, Prod.mk.injEq] at hrun
  -- every outcome fits the shape of its task's field
  have hfit : List.Forall₂ (fun task (o : Outcome) ↦ o.Fits task.2.1.shape)
      (levelTasks ((G₁ ++ ⟨t, selA, ps⟩ :: G₂).map fun g ↦ (g, collectFields g.object g.selection)))
      (levelRun (G₁ ++ ⟨t, selA, ps⟩ :: G₂) b).outcomes :=
    forall₂_levelOutcomes _ b _
  have hA' : collectFields t selA = P ++ [p] ++ Q := by simp [hA]
  have hB' : collectFields t selB = P ++ [q] ++ Q := by simp [hB]
  rw [planned_around, levelTasks_around, hA'] at hfit
  simp only [List.flatMap_append, List.flatMap_cons, List.flatMap_nil, List.append_nil,
    List.append_assoc] at hfit
  refine ⟨hrun.2, ?_⟩
  simp only [levelRun_next_eq, levelRun_assembled_eq, ← hrun.1, planned_around, hA', hB']
  generalize (levelRun (G₁ ++ ⟨t, selA, ps⟩ :: G₂) b).outcomes = O at hfit ⊢
  -- the outcomes of the groups before, the fields before, the twin, the fields after, the groups
  -- after
  obtain ⟨o₁, O₂, rfl, h₁, hO₂⟩ :=
    exists_append_of_length (hfit.length_eq.symm.trans (List.length_append ..))
  obtain ⟨o₂, O₃, rfl, h₂, hO₃⟩ := exists_append_of_length (hO₂.trans (List.length_append ..))
  obtain ⟨o₃, O₄, rfl, h₃, hO₄⟩ := exists_append_of_length (hO₃.trans (List.length_append ..))
  obtain ⟨o₄, o₅, rfl, h₄, h₅⟩ := exists_append_of_length (hO₄.trans (List.length_append ..))
  -- the twin's outcomes fit its shape
  have hfit₃ : ∀ d, p.definition = .ok d → ps.length = o₃.length ∧ ∀ o ∈ o₃, o.Fits d.shape := by
    intro d hd
    have hmid := (forall₂_append_split (forall₂_append_split
      (forall₂_append_split hfit h₁.symm).2 h₂.symm).2 h₃.symm).1
    have htasks₃ : fieldTasks ⟨t, selA, ps⟩ p = ps.map fun n ↦ (t, d, p.field, n.record) := by
      simp [fieldTasks, hd]
    rw [htasks₃, List.forall₂_map_left_iff] at hmid
    rw [htasks₃, List.length_map] at h₃
    exact ⟨h₃.symm, forall_of_forall₂ (fun o : Outcome ↦ o.Fits d.shape) (fun _ _ h ↦ h) hmid⟩
  obtain ⟨LX, CP, TP, CQ, TQ, LY, H₁, H₂, hLX, hP, hT, hlayA, hlayB, hnA, hnB, haway⟩ :=
    layoutGroups_twin (G₁.map fun g ↦ (g, collectFields g.object g.selection))
      (G₂.map fun g ↦ (g, collectFields g.object g.selection))
      (show (⟨t, selA, ps⟩ : Group).parents = (⟨t, selB, ps⟩ : Group).parents from rfl) P Q hkey hdef
      h₁ h₂ h₃ h₄ h₅
  rw [hlayA, hlayB, hnA, hnB]
  refine ⟨H₁, H₂, fieldGroup p (fieldColumn ⟨t, selA, ps⟩ p o₃), rfl, ?_,
    fun h hh ↦ childType_of_mem_fieldGroup hh, ?_⟩
  · rw [fieldGroup_twin hdef]
  intro V NA NB hV hothers hcol
  -- the groups before and after, and the fields beside the twin, read where the next levels agree
  have hX : (assembleLevel (G₁.map fun g ↦ (g, collectFields g.object g.selection)) LX NA).1 =
      (assembleLevel (G₁.map fun g ↦ (g, collectFields g.object g.selection)) LX NB).1 :=
    assembleLevel_congr fun l hl tg htg ↦
      getElem?_eq_of_pointsAway hothers (haway l (List.mem_append_left _ hl) tg htg)
  have hY : (assembleLevel (G₂.map fun g ↦ (g, collectFields g.object g.selection)) LY NA).1 =
      (assembleLevel (G₂.map fun g ↦ (g, collectFields g.object g.selection)) LY NB).1 :=
    assembleLevel_congr fun l hl tg htg ↦ getElem?_eq_of_pointsAway hothers
      (haway l (List.mem_append_right _ (List.mem_cons_of_mem _ hl)) tg htg)
  have hagree : ∀ tg ∈ TP ++ TQ, ∀ j, tg = some j → NA[j]? = NB[j]? := fun tg htg ↦
    getElem?_eq_of_pointsAway hothers (haway _ (List.mem_append_right _ List.mem_cons_self) tg htg)
  have hnull : p.nullable = q.nullable := by
    unfold Planned.nullable
    rw [hdef]
  have hU := length_assembleLevel_fst hLX.symm NB
  rw [List.length_map] at hU
  rw [assembleLevel_fst_append _ _ _ _ hLX.symm, assembleLevel_fst_append _ _ _ _ hLX.symm, hX, hY,
    ← hU]
  refine nestedAgree_of_eq _ _ ?_
  simp only [List.append_assoc, List.singleton_append]
  exact assembleGroup_twin hV rfl hkey hnull hP hT hagree (hcol o₃ hfit₃)

end Around

/-! ### The two runs -/

/-- How an object of the run with the field relates to the object of the run without it, at the
end of a chain of fields with these response keys: the field's key stands in with null at the
end of the chain, and each key on the way holds related values. -/
def Carries (k : String) : List String → ObjectData → ObjectData → Prop
  | [] => Inserted k
  | a :: path => AtKey a (Json.Lift (Carries k path))

/-- How the objects of the two runs relate at a place of the chain: as `Carries` says where the
chain leads to objects the field applies to, and equal where it does not. -/
def carriedBy (f : Field) (ins : Bool) (anc : List Field) : ObjectData → ObjectData → Prop :=
  if ins then Carries f.responseKey (anc.map Field.responseKey) else Eq

/-- Objects that agree but at the key of a field of the chain, where they hold values related
as the chain below it says, are related as the chain says. -/
theorem carriedBy_cons {f p : Field} {ins : Bool} {anc : List Field} {o o' : ObjectData}
    (h : AtKey p.responseKey (Json.Lift (carriedBy f ins anc)) o o') :
    carriedBy f ins (p :: anc) o o' := by
  cases ins with
  | true => simpa [carriedBy, Carries] using h
  | false =>
    obtain ⟨pre, post, v, v', rfl, rfl, hv⟩ := h
    simp only [carriedBy, Bool.false_eq_true, if_false] at hv ⊢
    rw [hv.eq]

/-- Where two runs stand at a group: `selB` is `selA` with the field taken out at the end of the
chain `anc`, `ins` says whether the chain leads to objects the field applies to, and there the
field is alone under its key among the fields merged with it, and inert. -/
structure RemovedAt (f : Field) (ins : Bool) (anc : List Field) (t : ObjectType)
    (selA selB : List Field) : Prop where
  /-- The second selection is the first with the field taken out below the chain. -/
  removes : Removes f anc selA selB
  /-- Whether the chain leads to objects the field applies to. -/
  applies : ins = (placeIn t selA anc).any fun r ↦ f.appliesTo r.1.name
  /-- No field merged with the field where the chain leads has its key. -/
  alone : f.AloneAt t selA anc
  /-- The field is inert on the objects the chain leads to. -/
  inert : ∀ c sel, placeIn t selA anc = some (c, sel) → f.appliesTo c.name → f.Inert c

/-- How two runs of a level match: the same next level, with objects related by `R` at the
group; or next levels that differ at one group where the two runs again stand as `RemovedAt`
says, with objects related by `R` whenever the objects of the levels below are related there. -/
inductive LevelsMatch (f : Field) (ins : Bool) (i : Nat) (R : ObjectData → ObjectData → Prop)
    (lA lB : LevelRun) : Prop
  | same (next : lA.next = lB.next)
      (assembled : ∀ N, NestedAgree i R (lA.assembled N) (lB.assembled N))
  | split {H₁ H₂ : List Group} {c : ObjectType} {anc sA sB : List Field} {kids : List Node}
      (nextA : lA.next = H₁ ++ ⟨c, sA, kids⟩ :: H₂) (nextB : lB.next = H₁ ++ ⟨c, sB, kids⟩ :: H₂)
      (removed : RemovedAt f ins anc c sA sB)
      (assembled : ∀ NA NB, NestedAgree H₁.length (carriedBy f ins anc) NA NB →
        NestedAgree i R (lA.assembled NA) (lB.assembled NB))

/-- A planned field that gives objects is not a leaf. -/
theorem Planned.shape_ne_leaf_of_childType {p : Planned} {c : ObjectType}
    (hc : p.childType = some c) (d : FieldDef) (hdef : p.definition = .ok d) : d.shape ≠ .leaf := by
  intro hleaf
  unfold Planned.childType at hc
  rw [hdef] at hc
  obtain ⟨r, s, n⟩ := d
  dsimp only at hleaf
  subst hleaf
  simp at hc

/-- Where the two selections plan the same fields and the field applies below neither, the two
levels match with the same next level and the same objects. -/
theorem levelsMatch_samePlan (G₁ G₂ : List Group) {t : ObjectType} (ps : List Node)
    {selA selB : List Field} (hplan : collectFields t selA = collectFields t selB) {f : Field}
    {ins : Bool} {anc : List Field} (hins : ins = false) (b : Batch) :
    (levelRun (G₁ ++ ⟨t, selA, ps⟩ :: G₂) b).settled =
        (levelRun (G₁ ++ ⟨t, selB, ps⟩ :: G₂) b).settled ∧
      LevelsMatch f ins G₁.length (carriedBy f ins anc) (levelRun (G₁ ++ ⟨t, selA, ps⟩ :: G₂) b)
        (levelRun (G₁ ++ ⟨t, selB, ps⟩ :: G₂) b) := by
  obtain ⟨hs, hn, hN⟩ := levelRun_samePlan G₁ G₂ hplan b
  refine ⟨hs, .same hn fun N ↦ ?_⟩
  rw [hN, carriedBy, hins]
  exact nestedAgree_refl _ _

/-- One level of the two runs: they make the same calls, leave the same batch, and match. The
cases follow `Removes`: the field itself stands in the group's selection, or a field of the
chain does; each either applies to the group's objects or does not; and a field of the chain
that applies is merged with the fields of its key into one planned field, which gives objects
or does not. -/
theorem levelRun_removed {f : Field} {ins : Bool} {anc : List Field} {t : ObjectType}
    {selA selB : List Field} (h : RemovedAt f ins anc t selA selB) (G₁ G₂ : List Group)
    (ps : List Node) (b : Batch) :
    (levelRun (G₁ ++ ⟨t, selA, ps⟩ :: G₂) b).settled =
        (levelRun (G₁ ++ ⟨t, selB, ps⟩ :: G₂) b).settled ∧
      LevelsMatch f ins G₁.length (carriedBy f ins anc) (levelRun (G₁ ++ ⟨t, selA, ps⟩ :: G₂) b)
        (levelRun (G₁ ++ ⟨t, selB, ps⟩ :: G₂) b) := by
  obtain ⟨hremoves, happlies, halone, hinert⟩ := h
  cases hremoves with
  | @here pre post =>
    by_cases happ : f.appliesTo t.name = true
    · -- the field stands in the selection, alone under its key, where it fails at once
      have hins : ins = true := by simp [happlies, placeIn, happ]
      obtain ⟨hs, hn, hN⟩ := levelRun_insert G₁ G₂ (hinert t _ rfl happ)
        (collectFields_insert t happ halone.unique) (List.take_append_drop _ _).symm b
      refine ⟨hs, .same hn fun N ↦ ?_⟩
      simpa [carriedBy, hins, Carries] using hN N
    · -- the field does not apply here
      exact levelsMatch_samePlan G₁ G₂ ps (collectFields_skip t (by simpa using happ))
        (by simp [happlies, placeIn, happ]) b
  | @under anc pre post sel p inner nonempty =>
    by_cases happ : p.appliesTo t.name = true
    · -- the field of the chain stands in the selection, with a sub-selection either way, and is
      -- planned with the fields of its key beside it
      have hsel : sel.isEmpty = p.selection.isEmpty := by
        have h₁ : sel.isEmpty = false := by simpa using nonempty
        have h₂ : p.selection.isEmpty = false := by simpa using inner.ne_nil
        rw [h₁, h₂]
      obtain ⟨P, Q, q, q', A, B, hA, hB, hkey, hkey', hdef, hres, hq, hq'⟩ :=
        collectFields_withSelection t pre post happ hsel
      have hplace := placeIn_cons anc happ hA hkey
      obtain ⟨hs, H₁, H₂, gp, hnA, hnB, hgp, hN⟩ := levelRun_twin G₁ G₂ hA hB hkey'.symm
        hdef.symm (fun d o ↦ (hres d o).symm) b
      refine ⟨hs, ?_⟩
      cases hc : q.childType with
      | none =>
        -- the merged field gives no objects, so neither run reads below it
        have hins : ins = false := by rw [happlies, hplace, hc]; rfl
        have hgp₀ : gp = none := by
          cases gp with
          | none => rfl
          | some g₀ => simp [(hgp g₀ rfl).1] at hc
        subst hgp₀
        refine .same (by rw [hnA, hnB]; rfl) fun N ↦ ?_
        refine (hN Eq N N (fun _ _ h ↦ h ▸ rfl) (fun _ _ ↦ rfl) fun _ _ _ ↦ rfl).mono
          fun o o' ho ↦ ?_
        simp only [carriedBy, hins, Bool.false_eq_true, if_false]
        exact ho.eq
      | some c =>
        -- the merged field gives objects, of the type where the chain goes on
        have hleaf := q.shape_ne_leaf_of_childType hc
        have hnext : placeIn t (pre ++ p :: post) (p :: anc) = placeIn c q.children anc := by
          rw [hplace, hc]
          rfl
        cases gp with
        | none =>
          -- no object gave any: the next levels are the same
          refine .same (by rw [hnA, hnB]; rfl) fun N ↦ ?_
          refine (hN (Json.Lift (carriedBy f ins anc)) N N (fun _ _ h ↦ h.isNull_eq) (fun _ _ ↦ rfl)
            fun os hfit r ↦ lift_fieldColumn (fun _ ↦ .none) _ q hleaf hfit r).mono fun _ _ ho ↦ ?_
          exact carriedBy_cons (hkey ▸ ho)
        | some g₀ =>
          -- the next levels differ at its group, one field of the chain lower
          obtain ⟨hc₀, hsel₀⟩ := hgp g₀ rfl
          obtain ⟨c₀, s₀, kids⟩ := g₀
          dsimp only at hc₀ hsel₀
          subst hsel₀
          obtain rfl : c = c₀ := Option.some_inj.mp (hc.symm.trans hc₀)
          have hremoved : RemovedAt f ins anc c q.children q'.children := by
            refine ⟨?_, by rw [happlies, hnext], fun c' sel' h' ↦ halone c' sel' (hnext.trans h'),
              fun c' sel' h' ↦ hinert c' sel' (hnext.trans h')⟩
            rw [hq, hq']
            exact inner.frame A B
          refine .split (hnA.trans (by simp : _ = H₁ ++ ⟨c, q.children, kids⟩ :: H₂))
            (hnB.trans (by simp : _ = H₁ ++ ⟨c, q'.children, kids⟩ :: H₂)) hremoved
            fun NA NB hag ↦ ?_
          refine (hN (Json.Lift (carriedBy f ins anc)) NA NB (fun _ _ h ↦ h.isNull_eq)
            (fun j hj ↦ hag.others j (hj _ rfl))
            fun os hfit r ↦ lift_fieldColumn (takeChild_rel hag) _ q hleaf hfit r).mono
            fun _ _ ho ↦ ?_
          exact carriedBy_cons (hkey ▸ ho)
    · -- the field of the chain does not apply here
      have happ' : p.appliesTo t.name = false := by simpa using happ
      exact levelsMatch_samePlan G₁ G₂ ps
        ((collectFields_skip t happ').trans
          (collectFields_skip t (show ({ p with selection := sel } : Field).appliesTo t.name = false
            from happ')).symm)
        (by simp [happlies, placeIn, happ]) b

theorem run_resolveLevel_assembled (fuel : Nat) {groups : List Group} (hne : groups ≠ [])
    (b : Batch) :
    ((resolveLevel (fuel + 1) groups).run b).1.1 = (levelRun groups b).assembled
        ((resolveLevel fuel (levelRun groups b).next).run (levelRun groups b).settled).1.1 ∧
      ((resolveLevel (fuel + 1) groups).run b).2 =
        ((resolveLevel fuel (levelRun groups b).next).run (levelRun groups b).settled).2 := by
  rw [run_resolveLevel_levelRun fuel hne b]
  exact ⟨rfl, rfl⟩

/-- The two runs from levels whose groups agree but at one, where they stand as `RemovedAt`
says: they make the same calls, leave the same batch, and put together objects that agree but
at that group, where they are related as the chain says. By induction on the fuel, each level
matching by `levelRun_removed`. -/
theorem resolveLevel_removed {f : Field} {ins : Bool} :
    ∀ (fuel : Nat) (G₁ G₂ : List Group) {anc : List Field} {t : ObjectType} {ps : List Node}
      {selA selB : List Field}, RemovedAt f ins anc t selA selB → ∀ b : Batch,
      ((resolveLevel fuel (G₁ ++ ⟨t, selA, ps⟩ :: G₂)).run b).2 =
          ((resolveLevel fuel (G₁ ++ ⟨t, selB, ps⟩ :: G₂)).run b).2 ∧
        NestedAgree G₁.length (carriedBy f ins anc)
          ((resolveLevel fuel (G₁ ++ ⟨t, selA, ps⟩ :: G₂)).run b).1.1
          ((resolveLevel fuel (G₁ ++ ⟨t, selB, ps⟩ :: G₂)).run b).1.1
  | 0, _, _, _, _, _, _, _, _, _ => ⟨rfl, fun _ _ ↦ rfl, .none⟩
  | fuel + 1, G₁, G₂, anc, t, ps, selA, selB, h, b => by
    obtain ⟨hA, hA'⟩ := run_resolveLevel_assembled fuel
      (List.append_ne_nil_of_right_ne_nil G₁ (List.cons_ne_nil ⟨t, selA, ps⟩ G₂)) b
    obtain ⟨hB, hB'⟩ := run_resolveLevel_assembled fuel
      (List.append_ne_nil_of_right_ne_nil G₁ (List.cons_ne_nil ⟨t, selB, ps⟩ G₂)) b
    obtain ⟨hs, hm⟩ := levelRun_removed h G₁ G₂ ps b
    rw [hA, hA', hB, hB', hs]
    cases hm with
    | same hnext hN =>
      rw [hnext]
      exact ⟨rfl, hN _⟩
    | split hnA hnB hrem hN =>
      rw [hnA, hnB]
      obtain ⟨hst, hag⟩ := resolveLevel_removed fuel _ _ hrem
        (levelRun (G₁ ++ ⟨t, selB, ps⟩ :: G₂) b).settled
      exact ⟨hst, hN _ _ hag⟩

/-! ### Executing a selection with and without an inert field -/

/-- Taking an inert field out of a selection changes neither the calls an execution makes, in
their order, nor its data, except that with the field each object it applies to carries its key
with null. The fields of the chain above it may be merged with other fields of their keys; the
field itself is the only one with its response key among the fields merged where the chain
leads, and the selection it is taken out of keeps another field. -/
theorem inert_field_removal_keeps_calls_and_data (store : Store) (rules : List FailureRule)
    {f : Field} {anc S S' : List Field} (hremove : Removes f anc S S')
    (halone : f.AloneAt .query S anc)
    (hinert : ∀ c sel, placeIn .query S anc = some (c, sel) → f.appliesTo c.name → f.Inert c) :
    (execute store rules S).2 = (execute store rules S').2 ∧
      ∃ v w, (execute store rules S).1.data = some v ∧ (execute store rules S').1.data = some w ∧
        if (placeIn .query S anc).any (fun r ↦ f.appliesTo r.1.name) then
          Json.Lift (Carries f.responseKey (anc.map Field.responseKey)) v w
        else v = w := by
  -- both selections run with the fuel of the higher one
  have hfuel : (resolveLevel (heightOf S' + 1) [⟨.query, S', [⟨none, []⟩]⟩]).run
      (Batch.fresh store rules) =
      (resolveLevel (heightOf S + 1) [⟨.query, S', [⟨none, []⟩]⟩]).run (Batch.fresh store rules) := by
    obtain ⟨extra, hextra⟩ := Nat.exists_eq_add_of_le hremove.heightOf_le
    rw [hextra, Nat.add_right_comm]
    exact (resolveLevel_add_fuel _ extra _ (by simp) _).symm
  obtain ⟨hcalls, hagree⟩ := resolveLevel_removed (heightOf S + 1) [] []
    (⟨hremove, rfl, halone, hinert⟩ : RemovedAt f _ anc .query S S') (Batch.fresh store rules)
  obtain ⟨x, hx⟩ := resolveLevel_single (heightOf S) .query S ⟨none, []⟩ (Batch.fresh store rules)
  obtain ⟨y, hy⟩ := resolveLevel_single (heightOf S) .query S' ⟨none, []⟩ (Batch.fresh store rules)
  simp only [List.nil_append] at hcalls hagree
  rw [hx, hy] at hagree
  -- the root objects of the two runs are related as the chain says
  have hxy : Option.Rel (carriedBy f ((placeIn .query S anc).any fun r ↦ f.appliesTo r.1.name) anc)
      x y := by
    have hat := hagree.at_i
    simp only [List.length_nil, List.getElem?_cons_zero] at hat
    cases hat with
    | some h => exact (List.forall₂_cons.mp h).1
  rw [execute_eq, execute_eq]
  dsimp only
  rw [hfuel, hx, hy, hcalls]
  refine ⟨rfl, ?_⟩
  cases hxy with
  | none =>
    refine ⟨.null, .null, rfl, rfl, ?_⟩
    split
    · exact .null
    · rfl
  | some hr =>
    refine ⟨_, _, rfl, rfl, ?_⟩
    split
    · next hins => exact .obj (by simpa [carriedBy, hins] using hr)
    · next hins =>
      simp only [carriedBy, hins, Bool.false_eq_true, if_false] at hr
      rw [hr]

/-- On the one-author dataset, `posts` with no sub-selection is invalid on users. Beside
`users { id }`, which is merged with it, executing `users { name posts }` makes the calls of
`users { name }`, and its user carries `posts` with null. -/
theorem oneAuthor_invalid_posts_removed :
    let name : Field := ⟨none, "name", [], none, []⟩
    let posts : Field := ⟨none, "posts", [], none, []⟩
    let users : Field := ⟨none, "users", [], none, [name, posts]⟩
    let ids : Field := ⟨none, "users", [], none, [⟨none, "id", [], none, []⟩]⟩
    let without : List Field := [⟨none, "users", [], none, [name]⟩, ids]
    Store.ofDataset oneAuthor = .ok oneAuthor.store ∧ Removes posts [users] [users, ids] without ∧
      posts.AloneAt .query [users, ids] [users] ∧
      (∀ c sel, placeIn .query [users, ids] [users] = some (c, sel) → posts.appliesTo c.name →
        posts.Inert c) ∧
      (execute oneAuthor.store [] [users, ids]).2 = (execute oneAuthor.store [] without).2 ∧
      ∃ v w, (execute oneAuthor.store [] [users, ids]).1.data = some v ∧
        (execute oneAuthor.store [] without).1.data = some w ∧
        if (placeIn .query [users, ids] [users]).any (fun r ↦ posts.appliesTo r.1.name) then
          Json.Lift (Carries posts.responseKey ([users].map Field.responseKey)) v w
        else v = w := by
  intro name posts users ids without
  have hremove : Removes posts [users] [users, ids] without :=
    @Removes.under posts [] [] [ids] [name] users (@Removes.here posts [name] []) (by simp)
  -- the two `users` fields are planned as one, whose merged selection is `name posts id`
  have hplace : placeIn .query [users, ids] [users] =
      some (.user, [name, posts, ⟨none, "id", [], none, []⟩]) := rfl
  have halone : posts.AloneAt .query [users, ids] [users] := by
    intro c sel h
    rw [hplace, Option.some.injEq, Prod.mk.injEq] at h
    obtain ⟨-, rfl⟩ := h
    decide
  have hinert : ∀ c sel, placeIn .query [users, ids] [users] = some (c, sel) →
      posts.appliesTo c.name → posts.Inert c := by
    intro c sel h _
    rw [hplace, Option.some.injEq, Prod.mk.injEq] at h
    obtain ⟨rfl, -⟩ := h
    exact .inl ⟨_, rfl⟩
  exact ⟨rfl, hremove, halone, hinert,
    inert_field_removal_keeps_calls_and_data oneAuthor.store [] hremove halone hinert⟩

/-- The field, and not only the field, must be the only one with its key in its selection set:
two `users` fields are planned as one, and so are the `posts` fields below them, which take the
definition of the first. Beside `users { posts { title } }`, the invalid `posts` of
`users { name posts }` keeps the posts from loading, and taking it out makes them load. -/
theorem merged_invalid_field_hides_sibling_scans :
    let name : Field := ⟨none, "name", [], none, []⟩
    let posts : Field := ⟨none, "posts", [], none, []⟩
    let titled : Field :=
      ⟨none, "users", [], none, [⟨none, "posts", [], none, [⟨none, "title", [], none, []⟩]⟩]⟩
    Store.ofDataset oneAuthor = .ok oneAuthor.store ∧ (∃ e, fieldDef .user posts = .error e) ∧
      (execute oneAuthor.store [] [⟨none, "users", [], none, [name, posts]⟩, titled]).2 =
        [.scanAll .user] ∧
      (execute oneAuthor.store [] [⟨none, "users", [], none, [name]⟩, titled]).2 =
        [.scanAll .user, .scanByForeignKey .postAuthor (.entity ⟨List.replicate 32 1, rfl⟩)] :=
  ⟨rfl, ⟨_, rfl⟩, rfl, rfl⟩

end SocialGraph
