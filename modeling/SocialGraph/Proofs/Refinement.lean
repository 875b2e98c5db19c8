import SocialGraph.Proofs.FaithfulCache
import SocialGraph.Proofs.Layout

/-!
# Batched execution gives the meaning of a selection

Over the store a dataset loads into, with no failing call, executing a selection gives the
data that the depth-first evaluator `Dataset.eval` gives (`execute_data_eq_eval`), for every
selection: any nesting, aliases, type conditions and repeated response keys.

The proof goes level by level (`resolveLevel_eval`). From a faithful batch, a level's two
phases give each task's outcome on the dataset (`level_outcomes`); laying the outcomes out and
putting the objects together gives what the evaluator gives, once the next level does
(`layoutGroups_spec`); and the next level does, by induction on the levels left, since each of
its groups has a lower selection than the group it came from.
-/

namespace SocialGraph

/-! ### One level -/

/-- A level that has groups: its first phase, the flush, the settling, the layout, the levels
below, and the objects put together. -/
theorem run_resolveLevel_succ (fuel : Nat) {groups : List Group} (hne : groups ≠ [])
    (b : Batch) :
    (resolveLevel (fuel + 1) groups).run b =
      let planned := groups.map fun g ↦ (g, collectFields g.object g.selection)
      let phase := ((levelTasks planned).mapM resolveTask).run b
      let flushed := (Batch.flush.run phase.2).2
      let settled := (phase.1.mapM settleOutcome).run flushed
      let laid := layoutGroups planned ⟨settled.1, [], []⟩
      let deeper := (resolveLevel fuel laid.1.next).run settled.2
      (((assembleLevel planned laid.2 deeper.1.1).1,
        invalidErrors planned ++ laid.1.errors ++ deeper.1.2 ++
          (assembleLevel planned laid.2 deeper.1.1).2), deeper.2) := by
  have hempty : groups.isEmpty = false := by simpa using hne
  simp only [resolveLevel, hempty]
  rfl

/-! ### Fields without an object type give leaf values -/

/-- A valid field is the schema's field of its name. -/
theorem field_of_fieldDef {t : ObjectType} {f : Field} {fd : FieldDef}
    (h : fieldDef t f = .ok fd) : t.field f.name = some fd := by
  unfold fieldDef at h
  cases hf : t.field f.name with
  | none => simp [hf] at h
  | some d =>
    simp only [hf] at h
    cases hc : checkArguments t d f with
    | error e => simp [hc, bind, Except.bind] at h
    | ok u =>
      -- the three refusals are errors; only the last branch gives the definition back
      simp only [hc, bind, Except.bind] at h
      split at h
      · cases h
      · cases h
      · cases h
      · cases h
        rfl

/-- A field of the schema whose values are leaves is `__typename` or a scalar column. -/
theorem ObjectType.resolver_of_leaf {t : ObjectType} {name : String} {fd : FieldDef}
    (h : t.field name = some fd) (hleaf : fd.shape = .leaf) :
    fd.resolver = .typename ∨ fd.resolver = .scalar := by
  unfold ObjectType.field at h
  split at h
  · cases h
    exact Or.inl rfl
  · split at h <;> cases h <;> simp_all [FieldDef.scalar, FieldDef.rootList, FieldDef.rootLookup]

theorem Planned.shape_of_childType {p : Planned} {fd : FieldDef} (hdef : p.definition = .ok fd)
    (hc : p.childType = none) : fd.shape = .leaf := by
  unfold Planned.childType at hc
  rw [hdef] at hc
  obtain ⟨r, s, n⟩ := fd
  cases s <;> simp_all

/-- Every planned field's definition is that of its first field. -/
theorem definition_of_mem_collectFields {t : ObjectType} {selection : List Field} {p : Planned}
    (hp : p ∈ collectFields t selection) : p.definition = fieldDef t p.field := by
  refine forall_collectFields (fun p ↦ p.definition = fieldDef t p.field) ?_ p hp
  intro plan f _ hplan q hq
  unfold addField at hq
  split at hq
  · obtain ⟨q', hq', rfl⟩ := List.mem_map.mp hq
    split
    · exact hplan q' hq'
    · exact hplan q' hq'
  · rcases List.mem_append.mp hq with hq | hq
    · exact hplan q hq
    · rw [List.mem_singleton.mp hq]

/-- A planned field with no object type gives a leaf value or fails, on every object. -/
theorem plannedOutcome_isFlat (d : Dataset) {t : ObjectType} {selection : List Field}
    {p : Planned} (hp : p ∈ collectFields t selection) (o : Option Record) {fd : FieldDef}
    (hdef : p.definition = .ok fd) (hc : p.childType = none) :
    (d.plannedOutcome t o p).IsFlat := by
  have hfield := field_of_fieldDef ((definition_of_mem_collectFields hp).symm.trans hdef)
  rw [Dataset.plannedOutcome, hdef]
  rcases ObjectType.resolver_of_leaf hfield (Planned.shape_of_childType hdef hc) with hr | hr
  · simp [Dataset.fieldOutcome, hr, Outcome.IsFlat]
  · simp only [Dataset.fieldOutcome, hr]
    cases o.bind (·.scalar p.field.name) <;> trivial

/-! ### Every level -/

/-- The outcomes of a level's tasks are those of its planned fields, group by group, field by
field. -/
theorem map_taskOutcome_levelTasks (d : Dataset) (planned : List (Group × List Planned)) :
    (levelTasks planned).map d.taskOutcome =
      planned.flatMap fun gp ↦ gp.2.flatMap (fieldOutcomes d.plannedOutcome gp.1) := by
  simp only [levelTasks, List.map_flatMap]
  congr 1
  funext gp
  obtain ⟨g, plan⟩ := gp
  dsimp only
  congr 1
  funext p
  cases hd : p.definition <;>
    simp [hd, fieldOutcomes, Dataset.plannedOutcome, Dataset.taskOutcome]

/-- From a faithful batch, resolving groups whose selections are lower than the fuel gives,
for every object of every group, the object the evaluator gives, and leaves the batch
faithful. -/
theorem resolveLevel_eval {d : Dataset} (hu : d.KeysUnique) (fuel : Nat) (groups : List Group)
    (hheight : ∀ g ∈ groups, heightOf g.selection < fuel) {b : Batch} (hb : Faithful d b) :
    ((resolveLevel fuel groups).run b).1.1 = groups.map (groupValues d.evalObject) ∧
      Faithful d ((resolveLevel fuel groups).run b).2 := by
  induction fuel generalizing groups b with
  | zero =>
    -- no selection is lower than nothing, so no group is left
    cases groups with
    | nil => exact ⟨rfl, hb⟩
    | cons g _ => exact absurd (hheight g List.mem_cons_self) (Nat.not_lt_zero _)
  | succ fuel ih =>
    cases groups with
    | nil => exact ⟨rfl, hb⟩
    | cons g gs =>
      rw [run_resolveLevel_succ fuel (List.cons_ne_nil g gs) b]
      dsimp only
      obtain ⟨hsettled, hb'⟩ := level_outcomes hu hb
        (levelTasks ((g :: gs).map fun g ↦ (g, collectFields g.object g.selection)))
      -- the two phases give every task's outcome on the dataset
      rw [hsettled, map_taskOutcome_levelTasks]
      generalize hplanned : (g :: gs).map (fun g ↦ (g, collectFields g.object g.selection)) =
        planned at hb' ⊢
      generalize (Batch.flush.run _).2 = b' at hb' ⊢
      obtain ⟨⟨lay, layouts⟩, hlaid⟩ : ∃ x, layoutGroups planned
          ⟨planned.flatMap fun gp ↦ gp.2.flatMap (fieldOutcomes d.plannedOutcome gp.1), [], []⟩ =
            x :=
        ⟨_, rfl⟩
      rw [hlaid]
      dsimp only
      have hflat : ∀ gp ∈ planned, ∀ p ∈ gp.2, ∀ o fd, p.definition = .ok fd →
          p.childType = none → (d.plannedOutcome gp.1.object o p).IsFlat := by
        intro gp hgp p hp o fd hdef hc
        rw [← hplanned] at hgp
        obtain ⟨g', -, rfl⟩ := List.mem_map.mp hgp
        exact plannedOutcome_isFlat d hp o hdef hc
      obtain ⟨-, ⟨more, hnext, hmore⟩, hassemble⟩ := layoutGroups_spec
        (fun _ _ _ e hdef ↦ by simp [Dataset.plannedOutcome, hdef]) planned hflat
        (List.append_nil _).symm hlaid
      -- each group of the next level has a lower selection than the group it came from
      have hlower : ∀ g' ∈ lay.next, heightOf g'.selection < fuel := by
        intro g' hg'
        rw [hnext, List.nil_append] at hg'
        obtain ⟨gp, hgp, p, hp, -, hsel⟩ := hmore g' hg'
        rw [← hplanned] at hgp
        obtain ⟨g'', hg'', rfl⟩ := List.mem_map.mp hgp
        have := heightOf_children_lt hp
        have := hheight g'' hg''
        rw [hsel]
        omega
      -- the levels below give the evaluator's values, so this level's objects are its own
      obtain ⟨hdeeper, hb''⟩ := ih lay.next hlower hb'
      refine ⟨?_, hb''⟩
      rw [hdeeper, hassemble _ (List.prefix_refl _), ← hplanned, List.map_map]
      refine List.map_congr_left fun g' _ ↦ ?_
      simp only [Function.comp_apply, groupValues, Dataset.evalObject_eq]
      rfl

/-! ### Executing a selection -/

/-- Executing a selection runs its levels from a fresh cache in front of the store: the data is
the root object, the errors are those of the levels, and the calls are the session's. -/
theorem execute_eq (store : Store) (rules : List FailureRule) (selection : List Field) :
    execute store rules selection =
      let run := (resolveLevel (heightOf selection + 1) [⟨.query, selection, [⟨none, []⟩]⟩]).run
        (Batch.fresh store rules)
      (⟨some (match run.1.1.getLast? >>= List.getLast? with
          | some (some o) => Json.obj o
          | _ => Json.null), run.1.2⟩, run.2.session.calls) := by
  dsimp only [execute]
  generalize (resolveLevel (heightOf selection + 1) [⟨.query, selection, [⟨none, []⟩]⟩]).run
    (Batch.fresh store rules) = r
  obtain ⟨⟨levels, errors⟩, final⟩ := r
  rfl

/-- Over the store a dataset loads into, with no failing call, executing a selection gives the
data that the depth-first evaluator gives. -/
theorem execute_data_eq_eval {d : Dataset} {store : Store} (h : Store.ofDataset d = .ok store)
    (selection : List Field) : (execute store [] selection).1.data = some (d.eval selection) := by
  obtain ⟨rfl, hu⟩ := Store.ofDataset_eq_ok h
  have hroot := (resolveLevel_eval hu (heightOf selection + 1) [⟨.query, selection, [⟨none, []⟩]⟩]
    (by simp) (faithful_fresh d)).1
  rw [execute_eq]
  dsimp only
  rw [hroot]
  cases hobj : d.evalObject .query none selection <;>
    simp [groupValues, Dataset.eval, hobj]

/-- The identifier all of whose 32 digits are `d`, taken modulo 16. -/
def Uuid.repeating (d : Nat) : Uuid :=
  ⟨List.replicate 32 ⟨d % 16, Nat.mod_lt d (by decide)⟩, List.length_replicate⟩

/-- A dataset with one user, who wrote one post. -/
def oneAuthor : Dataset :=
  ⟨[], [⟨.repeating 1, "Ada", 0⟩], [],
    [⟨.repeating 2, "Notes", "On the engine.", .repeating 1⟩], []⟩

theorem execute_oneAuthor_posts :
    Store.ofDataset oneAuthor = .ok oneAuthor.store ∧
      (execute oneAuthor.store []
        [⟨none, "users", [], none,
          [⟨none, "posts", [], none, [⟨none, "title", [], none, []⟩]⟩]⟩]).1.data =
        some (oneAuthor.eval
          [⟨none, "users", [], none,
            [⟨none, "posts", [], none, [⟨none, "title", [], none, []⟩]⟩]⟩]) :=
  ⟨rfl, execute_data_eq_eval rfl _⟩

end SocialGraph
