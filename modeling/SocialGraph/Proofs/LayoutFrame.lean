import SocialGraph.Proofs.FieldRemoval
import SocialGraph.Proofs.LevelLayout

/-!
# Laying out a level, one planned field at a time

Laying out a planned field reads only the outcomes it takes off the front of the queue and the
length of the next level so far: from them it makes its column of cells, at most one group of
the next level, and its errors (`layoutField_eq`). So two layouts whose queues start with the
same outcomes and whose next levels are as long lay out a plan alike, whatever follows in
their queues and whatever the groups of their next levels select (`layoutFields_frame`,
`layoutGroups_frame`). Two planned fields with the same key and definition lay out the same
column, and differ only in the selection of the group they add (`fieldColumn_twin`,
`fieldGroup_twin`); a field whose outcomes all failed fails on every object and adds no group
(`layoutField_failed`).
-/

namespace SocialGraph

/-! ### One field -/

/-- The column a planned field of a group lays out from the outcomes it takes: an invalid
field takes none and fails on every object. -/
def fieldColumn (g : Group) (p : Planned) (os : List Outcome) : Column :=
  match p.definition with
  | .error _ => ⟨g.parents.map fun _ ↦ .failed, [], []⟩
  | .ok _ => columnOf p g.parents os

/-- The group of the next level a planned field adds with a column, if it gives objects. -/
def fieldGroup (p : Planned) (col : Column) : Option Group :=
  match p.childType with
  | some c => if col.children.isEmpty then none else some ⟨c, p.children, col.children⟩
  | none => none

/-- Laying out a planned field: it takes its outcomes off the queue, adds the group of the
objects they give, if any, at the end of the next level, and points its cells there. -/
theorem layoutField_eq (g : Group) (lay : Layout) (p : Planned) :
    layoutField g lay p =
      let col := fieldColumn g p (lay.queue.take (fieldTasks g p).length)
      (⟨lay.queue.drop (fieldTasks g p).length, lay.next ++ (fieldGroup p col).toList,
          lay.errors ++ col.errors⟩,
        col.cells, (fieldGroup p col).map fun _ ↦ lay.next.length) := by
  obtain ⟨queue, next, errors⟩ := lay
  unfold layoutField fieldColumn fieldGroup fieldTasks Planned.childType
  cases p.definition with
  | error e => simp
  | ok d =>
    obtain ⟨resolver, shape, nullable⟩ := d
    cases shape with
    | leaf => simp
    | object c => simp only [List.length_map]; split <;> simp_all
    | list c => simp only [List.length_map]; split <;> simp_all

theorem length_fieldTasks_congr {g g' : Group} (hpar : g.parents = g'.parents) (p : Planned) :
    (fieldTasks g p).length = (fieldTasks g' p).length := by
  unfold fieldTasks
  split <;> simp [hpar]

theorem fieldColumn_congr {g g' : Group} (hpar : g.parents = g'.parents) (p : Planned)
    (os : List Outcome) : fieldColumn g p os = fieldColumn g' p os := by
  unfold fieldColumn
  rw [hpar]

/-- Two planned fields with the same key and definition lay out the same column. -/
theorem fieldColumn_twin {g g' : Group} (hpar : g.parents = g'.parents) {p q : Planned}
    (hkey : p.key = q.key) (hdef : p.definition = q.definition) (os : List Outcome) :
    fieldColumn g p os = fieldColumn g' q os := by
  unfold fieldColumn columnOf
  rw [hdef, hkey, hpar]

/-- Two planned fields with the same definition add groups that differ in their selections. -/
theorem fieldGroup_twin {p q : Planned} (hdef : p.definition = q.definition) (col : Column) :
    fieldGroup q col = (fieldGroup p col).map fun h ↦ { h with selection := q.children } := by
  have hc : q.childType = p.childType := by
    unfold Planned.childType
    rw [hdef]
  unfold fieldGroup
  rw [hc]
  cases p.childType with
  | none => rfl
  | some c =>
    dsimp only
    split <;> rfl

/-- Failed outcomes fill a column with failures. -/
theorem cellsFrom_errors (start : Nat) (errs : List ResolveError) :
    cellsFrom start (errs.map .error) = errs.map fun _ ↦ .failed := by
  induction errs generalizing start with
  | nil => rfl
  | cons e errs ih => simp [cellsFrom, Cell.ofOutcome, Outcome.records, ih]

/-- A planned field whose outcomes all failed fails on every object, adds no group and keeps
the rest of the queue. -/
theorem layoutField_failed (g : Group) (p : Planned) (lay : Layout) {errs : List ResolveError}
    {rest : List Outcome} (hlen : errs.length = (fieldTasks g p).length)
    (hq : lay.queue = errs.map .error ++ rest) :
    ∃ es, layoutField g lay p =
      (⟨rest, lay.next, lay.errors ++ es⟩, g.parents.map fun _ ↦ .failed, none) := by
  have htake : lay.queue.take (fieldTasks g p).length = errs.map .error := by
    rw [hq, ← hlen, List.take_left' (List.length_map _)]
  have hdrop : lay.queue.drop (fieldTasks g p).length = rest := by
    rw [hq, ← hlen, List.drop_left' (List.length_map _)]
  -- failed outcomes fill the column with failures and give no object
  have hcol : (fieldColumn g p (errs.map .error)).cells = g.parents.map (fun _ ↦ .failed) ∧
      (fieldColumn g p (errs.map .error)).children = [] := by
    unfold fieldColumn
    split
    · exact ⟨rfl, rfl⟩
    · next d hdef =>
      have hpar :
          g.parents.length = (errs.map (Except.error : ResolveError → Outcome)).length := by
        simpa [fieldTasks, hdef] using hlen.symm
      rw [columnOf_eq p hpar, cellsFrom_errors]
      refine ⟨?_, List.flatMap_eq_nil_iff.mpr fun x hx ↦ ?_⟩
      · rw [List.map_const', List.map_const', hpar, List.length_map]
      · obtain ⟨e, -, he⟩ := List.mem_map.mp (List.of_mem_zip hx).2
        rw [← he]
        rfl
  have hgroup : fieldGroup p (fieldColumn g p (errs.map .error)) = none := by
    unfold fieldGroup
    split
    · rw [hcol.2]
      rfl
    · rfl
  refine ⟨(fieldColumn g p (errs.map .error)).errors, ?_⟩
  rw [layoutField_eq]
  simp only [htake, hdrop, hgroup, hcol.1, Option.toList_none, List.append_nil, Option.map_none]

/-! ### Plans and levels -/

@[simp]
theorem layoutFields_nil (g : Group) (lay : Layout) : layoutFields g [] lay = (lay, [], []) :=
  rfl

theorem layoutFields_cons (g : Group) (p : Planned) (ps : List Planned) (lay : Layout) :
    layoutFields g (p :: ps) lay =
      ((layoutFields g ps (layoutField g lay p).1).1,
        (layoutField g lay p).2.1 :: (layoutFields g ps (layoutField g lay p).1).2.1,
        (layoutField g lay p).2.2 :: (layoutFields g ps (layoutField g lay p).1).2.2) :=
  rfl

theorem layoutGroups_cons (g : Group) (plan : List Planned) (rest : List (Group × List Planned))
    (lay : Layout) :
    layoutGroups ((g, plan) :: rest) lay =
      ((layoutGroups rest (layoutFields g plan lay).1).1,
        ((layoutFields g plan lay).2.1, (layoutFields g plan lay).2.2) ::
          (layoutGroups rest (layoutFields g plan lay).1).2) :=
  rfl

/-- Laying out a plan in two parts: the second part starts where the first left off. -/
theorem layoutFields_append (g : Group) (ps qs : List Planned) (lay : Layout) :
    layoutFields g (ps ++ qs) lay =
      ((layoutFields g qs (layoutFields g ps lay).1).1,
        (layoutFields g ps lay).2.1 ++ (layoutFields g qs (layoutFields g ps lay).1).2.1,
        (layoutFields g ps lay).2.2 ++ (layoutFields g qs (layoutFields g ps lay).1).2.2) := by
  induction ps generalizing lay with
  | nil => rfl
  | cons p ps ih => rw [List.cons_append, layoutFields_cons, layoutFields_cons, ih]; rfl

/-- Laying out the groups of a level in two parts. -/
theorem layoutGroups_append (xs ys : List (Group × List Planned)) (lay : Layout) :
    layoutGroups (xs ++ ys) lay =
      ((layoutGroups ys (layoutGroups xs lay).1).1,
        (layoutGroups xs lay).2 ++ (layoutGroups ys (layoutGroups xs lay).1).2) := by
  induction xs generalizing lay with
  | nil => rfl
  | cons x xs ih =>
    obtain ⟨g, plan⟩ := x
    rw [List.cons_append, layoutGroups_cons, layoutGroups_cons, ih]
    rfl

/-- A plan lays out one column and one target per planned field. -/
theorem length_layoutFields (g : Group) (plan : List Planned) (lay : Layout) :
    (layoutFields g plan lay).2.1.length = plan.length ∧
      (layoutFields g plan lay).2.2.length = plan.length := by
  induction plan generalizing lay with
  | nil => exact ⟨rfl, rfl⟩
  | cons p ps ih =>
    rw [layoutFields_cons]
    exact ⟨congrArg (· + 1) (ih _).1, congrArg (· + 1) (ih _).2⟩

/-- Laying out a level around a run of planned fields of one group: the groups before it, the
group's fields before, in and after the run, and the groups after it. -/
theorem layoutGroups_around (X Y : List (Group × List Planned)) (g : Group) (P M Q : List Planned)
    (lay : Layout) :
    layoutGroups (X ++ (g, P ++ M ++ Q) :: Y) lay =
      let pre := layoutGroups X lay
      let fp := layoutFields g P pre.1
      let fm := layoutFields g M fp.1
      let fq := layoutFields g Q fm.1
      let post := layoutGroups Y fq.1
      (post.1, pre.2 ++ (fp.2.1 ++ fm.2.1 ++ fq.2.1, fp.2.2 ++ fm.2.2 ++ fq.2.2) :: post.2) := by
  rw [layoutGroups_append, layoutGroups_cons, layoutFields_append, layoutFields_append]

/-- Two layouts whose queues start with the outcomes of a plan and whose next levels are as
long lay the plan out alike: the same columns and targets, the same groups and errors added,
each queue left with its own rest; and every target points at a group the plan added. By
induction on the plan, each field reading only its outcomes and the next level's length. -/
theorem layoutFields_frame {g g' : Group} (hpar : g.parents = g'.parents) :
    ∀ (plan : List Planned) (lay lay' : Layout) {os rest rest' : List Outcome},
      os.length = (plan.flatMap (fieldTasks g)).length →
      lay.queue = os ++ rest → lay'.queue = os ++ rest' → lay.next.length = lay'.next.length →
      ∃ more es, (layoutFields g plan lay).1 = ⟨rest, lay.next ++ more, lay.errors ++ es⟩ ∧
        (layoutFields g' plan lay').1 = ⟨rest', lay'.next ++ more, lay'.errors ++ es⟩ ∧
        (layoutFields g plan lay).2 = (layoutFields g' plan lay').2 ∧
        ∀ tg ∈ (layoutFields g plan lay).2.2, ∀ j, tg = some j →
          lay.next.length ≤ j ∧ j < lay.next.length + more.length
  | [], lay, lay', os, rest, rest', hos, hq, hq', _ => by
    have hnil : os = [] := List.eq_nil_of_length_eq_zero (by simpa using hos)
    subst hnil
    obtain ⟨queue, next, errors⟩ := lay
    obtain ⟨queue', next', errors'⟩ := lay'
    simp only [List.nil_append] at hq hq'
    subst hq hq'
    exact ⟨[], [], by simp [layoutFields], by simp [layoutFields], rfl, by simp [layoutFields]⟩
  | p :: ps, lay, lay', os, rest, rest', hos, hq, hq', hn => by
    -- the first field takes its own outcomes off the front of both queues
    have hwidth := length_fieldTasks_congr hpar p
    obtain ⟨os₁, os₂, rfl, hos₁⟩ :
        ∃ os₁ os₂, os = os₁ ++ os₂ ∧ os₁.length = (fieldTasks g p).length :=
      ⟨_, _, (List.take_append_drop (fieldTasks g p).length os).symm, by
        simp only [List.flatMap_cons, List.length_append] at hos
        simp only [List.length_take]
        omega⟩
    have hos₂ : os₂.length = (ps.flatMap (fieldTasks g)).length := by
      simp only [List.flatMap_cons, List.length_append] at hos
      omega
    rw [List.append_assoc] at hq hq'
    rw [layoutFields_cons, layoutFields_cons, layoutField_eq, layoutField_eq]
    simp only [hq, hq', ← hwidth, List.take_left' hos₁, List.drop_left' hos₁,
      ← fieldColumn_congr hpar p os₁]
    generalize fieldColumn g p os₁ = col
    -- the rest of the plan, from the layouts the first field leaves
    obtain ⟨more, es, h₁, h₂, h₃, h₄⟩ := layoutFields_frame hpar ps
      ⟨os₂ ++ rest, lay.next ++ (fieldGroup p col).toList, lay.errors ++ col.errors⟩
      ⟨os₂ ++ rest', lay'.next ++ (fieldGroup p col).toList, lay'.errors ++ col.errors⟩
      hos₂ rfl rfl (by simp [hn])
    refine ⟨(fieldGroup p col).toList ++ more, col.errors ++ es, ?_, ?_, ?_, ?_⟩
    · rw [h₁]
      simp
    · rw [h₂]
      simp
    · rw [h₃, hn]
    · intro tg htg j hj
      rcases List.mem_cons.mp htg with rfl | htg
      · cases hG : fieldGroup p col <;> simp_all
      · have h := h₄ tg htg j hj
        simp only [List.length_append] at h ⊢
        omega

/-- Two layouts whose queues start with the outcomes of a level's groups and whose next
levels are as long lay the groups out alike; by induction on the groups. -/
theorem layoutGroups_frame :
    ∀ (planned : List (Group × List Planned)) (lay lay' : Layout) {os rest rest' : List Outcome},
      os.length = (levelTasks planned).length →
      lay.queue = os ++ rest → lay'.queue = os ++ rest' → lay.next.length = lay'.next.length →
      ∃ more es, (layoutGroups planned lay).1 = ⟨rest, lay.next ++ more, lay.errors ++ es⟩ ∧
        (layoutGroups planned lay').1 = ⟨rest', lay'.next ++ more, lay'.errors ++ es⟩ ∧
        (layoutGroups planned lay).2 = (layoutGroups planned lay').2 ∧
        ∀ l ∈ (layoutGroups planned lay).2, ∀ tg ∈ l.2, ∀ j, tg = some j →
          lay.next.length ≤ j ∧ j < lay.next.length + more.length
  | [], lay, lay', os, rest, rest', hos, hq, hq', _ => by
    have hnil : os = [] := List.eq_nil_of_length_eq_zero (by simpa [levelTasks] using hos)
    subst hnil
    obtain ⟨queue, next, errors⟩ := lay
    obtain ⟨queue', next', errors'⟩ := lay'
    simp only [List.nil_append] at hq hq'
    subst hq hq'
    exact ⟨[], [], by simp [layoutGroups], by simp [layoutGroups], rfl, by simp [layoutGroups]⟩
  | (g, plan) :: planned, lay, lay', os, rest, rest', hos, hq, hq', hn => by
    -- the first group takes its own outcomes off the front of both queues
    obtain ⟨os₁, os₂, rfl, hos₁⟩ :
        ∃ os₁ os₂, os = os₁ ++ os₂ ∧ os₁.length = (plan.flatMap (fieldTasks g)).length :=
      ⟨_, _, (List.take_append_drop (plan.flatMap (fieldTasks g)).length os).symm, by
        simp only [levelTasks_eq, List.flatMap_cons, List.length_append] at hos
        simp only [List.length_take]
        omega⟩
    have hos₂ : os₂.length = (levelTasks planned).length := by
      simp only [levelTasks_eq, List.flatMap_cons, List.length_append] at hos ⊢
      omega
    rw [List.append_assoc] at hq hq'
    obtain ⟨more₁, es₁, h₁, h₂, h₃, h₄⟩ := layoutFields_frame rfl plan lay lay' hos₁ hq hq' hn
    obtain ⟨more₂, es₂, h₅, h₆, h₇, h₈⟩ := layoutGroups_frame planned
      (layoutFields g plan lay).1 (layoutFields g plan lay').1 hos₂
      (by rw [h₁]) (by rw [h₂]) (by simp [h₁, h₂, hn])
    rw [layoutGroups_cons, layoutGroups_cons]
    refine ⟨more₁ ++ more₂, es₁ ++ es₂, ?_, ?_, ?_, ?_⟩
    · rw [h₅, h₁]
      simp
    · rw [h₆, h₂]
      simp
    · rw [h₃, h₇]
    · intro l hl tg htg j hj
      rcases List.mem_cons.mp hl with rfl | hl
      · have h := h₄ tg htg j hj
        simp only [List.length_append]
        omega
      · have h := h₈ l hl tg htg j hj
        simp only [h₁, List.length_append] at h ⊢
        omega

/-- Laying out a plan reads the group only through its objects. -/
theorem layoutFields_congr {g g' : Group} (hpar : g.parents = g'.parents) :
    layoutFields g = layoutFields g' := by
  funext plan lay
  induction plan generalizing lay with
  | nil => rfl
  | cons p ps ih =>
    have hfield : layoutField g lay p = layoutField g' lay p := by
      rw [layoutField_eq, layoutField_eq, length_fieldTasks_congr hpar, fieldColumn_congr hpar]
    rw [layoutFields_cons, layoutFields_cons, hfield, ih]

end SocialGraph
