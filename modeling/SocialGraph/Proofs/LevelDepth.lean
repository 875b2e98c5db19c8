import SocialGraph.Proofs.Batching

/-!
# How deep a run goes

Each level of a run holds one group for each valid object field of the level above that gave
objects, with the field's merged sub-selection. So the groups of the `n`-th level select only
fields at nesting depth `n` of the query (`levelRuns_atDepth`), and those are lower than the
query by `n` (`height_add_le_of_mem_fieldsAt`). A group below the root never has an empty
selection, since an object field without a sub-selection is invalid: so a run has at most as
many levels as the query is high, the root level apart (`length_levelRuns_le_height`).

The recursion stops because the groups run out, not because the fuel does: from the query's
height on, more fuel changes nothing (`resolveLevel_add_fuel`).
-/

namespace SocialGraph

/-! ### Fields at a depth -/

/-- The fields at a nesting depth of a selection: the selection's own at depth zero, and the
sub-selections of those at one depth at the next. -/
def fieldsAt (selection : List Field) : Nat → List Field
  | 0 => selection
  | n + 1 => (fieldsAt selection n).flatMap (·.selection)

/-- A field at a depth of a selection is lower than the selection by that depth. -/
theorem height_add_le_of_mem_fieldsAt {selection : List Field} :
    ∀ {n : Nat} {f : Field}, f ∈ fieldsAt selection n → f.height + n ≤ heightOf selection
  | 0, _, hf => height_le_heightOf hf
  | n + 1, f, hf => by
    obtain ⟨f', hf', hf⟩ := List.mem_flatMap.mp hf
    have hdepth := height_add_le_of_mem_fieldsAt hf'
    have hsub := height_le_heightOf hf
    rw [Field.height_eq f'] at hdepth
    omega

/-! ### Sub-selections of planned fields -/

/-- Each field of a planned field's merged sub-selection is in the sub-selection of a field of
the selection it was planned from. -/
theorem mem_selection_of_mem_children {t : ObjectType} {selection : List Field} {p : Planned}
    (hp : p ∈ collectFields t selection) {f : Field} (hf : f ∈ p.children) :
    ∃ f' ∈ selection, f ∈ f'.selection := by
  refine forall_collectFields (fun p ↦ ∀ f ∈ p.children, ∃ f' ∈ selection, f ∈ f'.selection)
    ?_ p hp f hf
  intro plan f' hf' hplan q hq f hf
  unfold addField at hq
  split at hq
  · obtain ⟨q', hq', rfl⟩ := List.mem_map.mp hq
    split at hf
    · -- a merged field's sub-selection is its own followed by the new field's
      rcases List.mem_append.mp hf with hf | hf
      · exact hplan q' hq' f hf
      · exact ⟨f', hf', hf⟩
    · exact hplan q' hq' f hf
  · rcases List.mem_append.mp hq with hq | hq
    · exact hplan q hq f hf
    · rw [List.mem_singleton.mp hq] at hf
      exact ⟨f', hf', hf⟩

/-- A planned field's merged sub-selection begins with its first field's. -/
theorem selection_prefix_children {t : ObjectType} {selection : List Field} {p : Planned}
    (hp : p ∈ collectFields t selection) : p.field.selection <+: p.children := by
  refine forall_collectFields (fun p ↦ p.field.selection <+: p.children) ?_ p hp
  intro plan f _ hplan q hq
  unfold addField at hq
  split at hq
  · obtain ⟨q', hq', rfl⟩ := List.mem_map.mp hq
    split
    · exact (hplan q' hq').trans (List.prefix_append _ _)
    · exact hplan q' hq'
  · rcases List.mem_append.mp hq with hq | hq
    · exact hplan q hq
    · obtain rfl := List.mem_singleton.mp hq
      exact List.prefix_refl _

/-- A valid field that gives objects has a sub-selection. -/
theorem selection_ne_nil_of_fieldDef {t : ObjectType} {f : Field} {fd : FieldDef}
    (h : fieldDef t f = .ok fd) (hshape : fd.shape ≠ .leaf) : f.selection ≠ [] := by
  intro hnil
  unfold fieldDef at h
  cases hf : t.field f.name with
  | none => simp [hf] at h
  | some d =>
    simp only [hf] at h
    cases hc : checkArguments t d f with
    | error e => simp [hc, bind, Except.bind] at h
    | ok u =>
      simp only [hc, hnil, List.isEmpty_nil, bind, Except.bind] at h
      -- with no sub-selection only a leaf field is valid
      split at h
      · cases h
      · cases h
      · cases h
      · next _ hobj hlist =>
        cases h
        cases hd : fd.shape with
        | leaf => exact hshape hd
        | object c => exact hobj c hd rfl
        | list c => exact hlist c hd rfl

/-- A planned field with an object type has a merged sub-selection that is not empty. -/
theorem children_ne_nil {t : ObjectType} {selection : List Field} {p : Planned}
    (hp : p ∈ collectFields t selection) {c : ObjectType} (hc : p.childType = some c) :
    p.children ≠ [] := by
  obtain ⟨fd, hdef, hshape⟩ : ∃ fd, p.definition = .ok fd ∧ fd.shape ≠ .leaf := by
    unfold Planned.childType at hc
    split at hc
    · next fd _ _ _ hdef => exact ⟨_, hdef, by simp⟩
    · next fd _ _ _ hdef => exact ⟨_, hdef, by simp⟩
    · cases hc
  have hsel := selection_ne_nil_of_fieldDef
    ((definition_of_mem_collectFields hp).symm.trans hdef) hshape
  intro hnil
  exact hsel (List.prefix_nil.mp (hnil ▸ selection_prefix_children hp))

/-! ### The groups of the next level -/

/-- Every object a column gives stands below the field on one of the column's objects: at the
field's path, or at a position of the list the field gave there. -/
theorem mem_children_columnOf {p : Planned} {parents : List Node} {os : List Outcome} {m : Node}
    (h : m ∈ (columnOf p parents os).children) : ∃ n ∈ parents,
      m.path = n.path ++ [.key p.key] ∨ ∃ i, m.path = n.path ++ [.key p.key, .index i] := by
  -- the fold adds the objects of one outcome at a time
  have hfold : ∀ (xs : List (Node × Outcome)) (col : Column),
      m ∈ (xs.foldl (fun col x ↦ col.push p.key x.1 x.2) col).children →
        m ∈ col.children ∨ ∃ x ∈ xs, m ∈ childNodes (x.1.path ++ [.key p.key]) x.2 := by
    intro xs
    induction xs with
    | nil => exact fun _ h ↦ .inl h
    | cons x xs ih =>
      intro col h
      rcases ih _ h with h | ⟨y, hy, hm⟩
      · rcases List.mem_append.mp h with h | h
        · exact .inl h
        · exact .inr ⟨x, List.mem_cons_self, h⟩
      · exact .inr ⟨y, List.mem_cons_of_mem _ hy, hm⟩
  rcases hfold _ _ h with h | ⟨⟨n, o⟩, hx, hm⟩
  · cases h
  · refine ⟨n, (List.of_mem_zip hx).1, ?_⟩
    rcases o with _ | (_ | (_ | r) | rs) <;> simp [childNodes] at hm
    · exact .inl (by rw [hm])
    · obtain ⟨r, i, -, rfl⟩ := hm
      exact .inr ⟨i, by simp⟩

/-- A group of the next level that a planned field of a group gives: of the field's object
type, with its merged sub-selection, holding objects the field gave on objects of the group, at
the field's path or at positions of the lists it gave. -/
structure GivenBy (g : Group) (p : Planned) (g' : Group) : Prop where
  object : p.childType = some g'.object
  selection : g'.selection = p.children
  parents : ∀ m ∈ g'.parents, ∃ n ∈ g.parents,
    m.path = n.path ++ [.key p.key] ∨ ∃ i, m.path = n.path ++ [.key p.key, .index i]

/-- Laying out a planned field adds at most one group to the next level, the one the field
gives. -/
theorem next_layoutField (g : Group) (lay : Layout) (p : Planned) :
    ∃ more, (layoutField g lay p).1.next = lay.next ++ more ∧ ∀ g' ∈ more, GivenBy g p g' := by
  unfold layoutField
  cases p.definition with
  | error e => exact ⟨[], by simp, by simp⟩
  | ok fd =>
    dsimp only
    cases hc : p.childType with
    | none => exact ⟨[], by simp, by simp⟩
    | some c =>
      dsimp only
      split
      · exact ⟨[], by simp, by simp⟩
      · refine ⟨_, rfl, fun g' hg' ↦ ?_⟩
        rw [List.mem_singleton.mp hg']
        exact ⟨hc, rfl, fun m hm ↦ mem_children_columnOf hm⟩

/-- Laying out the planned fields of a group adds the groups they give. -/
theorem next_layoutFields (g : Group) (plan : List Planned) (lay : Layout) :
    ∃ more, (layoutFields g plan lay).1.next = lay.next ++ more ∧
      ∀ g' ∈ more, ∃ p ∈ plan, GivenBy g p g' := by
  induction plan generalizing lay with
  | nil => exact ⟨[], by simp [layoutFields], by simp⟩
  | cons p ps ih =>
    obtain ⟨more₁, hnext₁, hmore₁⟩ := next_layoutField g lay p
    obtain ⟨more₂, hnext₂, hmore₂⟩ := ih (layoutField g lay p).1
    refine ⟨more₁ ++ more₂, ?_, fun g' hg' ↦ ?_⟩
    · simp only [layoutFields]
      rw [hnext₂, hnext₁, List.append_assoc]
    · rcases List.mem_append.mp hg' with hg' | hg'
      · exact ⟨p, List.mem_cons_self, hmore₁ g' hg'⟩
      · obtain ⟨q, hq, hgq⟩ := hmore₂ g' hg'
        exact ⟨q, List.mem_cons_of_mem _ hq, hgq⟩

/-- Laying out the groups of a level adds the groups their planned fields give. -/
theorem next_layoutGroups (planned : List (Group × List Planned)) (lay : Layout) :
    ∃ more, (layoutGroups planned lay).1.next = lay.next ++ more ∧ ∀ g' ∈ more,
      ∃ gp ∈ planned, ∃ p ∈ gp.2, GivenBy gp.1 p g' := by
  induction planned generalizing lay with
  | nil => exact ⟨[], by simp [layoutGroups], by simp⟩
  | cons gp planned ih =>
    obtain ⟨more₁, hnext₁, hmore₁⟩ := next_layoutFields gp.1 gp.2 lay
    obtain ⟨more₂, hnext₂, hmore₂⟩ := ih (layoutFields gp.1 gp.2 lay).1
    refine ⟨more₁ ++ more₂, ?_, fun g' hg' ↦ ?_⟩
    · simp only [layoutGroups]
      rw [hnext₂, hnext₁, List.append_assoc]
    · rcases List.mem_append.mp hg' with hg' | hg'
      · obtain ⟨p, hp, hgp⟩ := hmore₁ g' hg'
        exact ⟨gp, List.mem_cons_self, p, hp, hgp⟩
      · obtain ⟨gp', hgp', hrest⟩ := hmore₂ g' hg'
        exact ⟨gp', List.mem_cons_of_mem _ hgp', hrest⟩

/-- Each group of the level below a level is one that a planned field of one of its groups
gives. -/
theorem mem_levelRun_next {groups : List Group} {b : Batch} {g' : Group}
    (h : g' ∈ (levelRun groups b).next) :
    ∃ g ∈ groups, ∃ p ∈ collectFields g.object g.selection, GivenBy g p g' := by
  obtain ⟨more, hnext, hmore⟩ := next_layoutGroups (levelRun groups b).planned
    ⟨(levelRun groups b).outcomes, [], []⟩
  rw [LevelRun.next, hnext, List.nil_append] at h
  obtain ⟨gp, hgp, p, hp, hgp'⟩ := hmore g' h
  obtain ⟨g, hg, rfl⟩ := List.mem_map.mp hgp
  exact ⟨g, hg, p, hp, hgp'⟩

/-- The groups of the level below are lower than those of the level. -/
theorem heightOf_levelRun_next_lt {groups : List Group} {fuel : Nat}
    (h : ∀ g ∈ groups, heightOf g.selection < fuel + 1) (b : Batch) :
    ∀ g' ∈ (levelRun groups b).next, heightOf g'.selection < fuel := by
  intro g' hg'
  obtain ⟨g, hg, p, hp, -, hsel, -⟩ := mem_levelRun_next hg'
  have hlt := heightOf_children_lt hp
  have hle := h g hg
  rw [hsel]
  omega

/-! ### The levels of a run -/

/-- Groups at a nesting depth of a selection: they select only fields at that depth, and below
the top none of them selects nothing. -/
structure AtDepth (selection : List Field) (n : Nat) (groups : List Group) : Prop where
  fields : ∀ g ∈ groups, ∀ f ∈ g.selection, f ∈ fieldsAt selection n
  nonempty : 0 < n → ∀ g ∈ groups, g.selection ≠ []

/-- The groups of the level below groups at a depth are at the next depth. -/
theorem AtDepth.levelRun_next {selection : List Field} {n : Nat} {groups : List Group}
    (h : AtDepth selection n groups) (b : Batch) :
    AtDepth selection (n + 1) (levelRun groups b).next := by
  refine ⟨fun g' hg' f hf ↦ ?_, fun _ g' hg' ↦ ?_⟩
  · obtain ⟨g, hg, p, hp, -, hsel, -⟩ := mem_levelRun_next hg'
    rw [hsel] at hf
    obtain ⟨f', hf', hf⟩ := mem_selection_of_mem_children hp hf
    exact List.mem_flatMap.mpr ⟨f', h.fields g hg f' hf', hf⟩
  · obtain ⟨g, -, p, hp, hc, hsel, -⟩ := mem_levelRun_next hg'
    rw [hsel]
    exact children_ne_nil hp hc

/-- Every level of a run has groups. -/
theorem groups_ne_nil_of_mem_levelRuns :
    ∀ {fuel : Nat} {groups : List Group} {b : Batch} {l : LevelRun},
      l ∈ levelRuns fuel groups b → l.groups ≠ []
  | 0, _, _, _, hl => by simp [levelRuns] at hl
  | fuel + 1, groups, b, l, hl => by
    rw [levelRuns] at hl
    split at hl
    · cases hl
    · next hne =>
      rcases List.mem_cons.mp hl with rfl | hl
      · show groups ≠ []
        simpa using hne
      · exact groups_ne_nil_of_mem_levelRuns hl

/-- The `k`-th level of a run from groups at depth `n` is at depth `n + k`. -/
theorem levelRuns_atDepth {selection : List Field} (fuel : Nat) (groups : List Group)
    (b : Batch) {n : Nat} (h : AtDepth selection n groups) :
    ∀ k (hk : k < (levelRuns fuel groups b).length),
      AtDepth selection (n + k) (levelRuns fuel groups b)[k].groups := by
  induction fuel generalizing groups b n with
  | zero => simp [levelRuns]
  | succ fuel ih =>
    intro k hk
    by_cases hempty : groups.isEmpty
    · simp [levelRuns, hempty] at hk
    · have hruns : levelRuns (fuel + 1) groups b =
          levelRun groups b :: levelRuns fuel (levelRun groups b).next
            (levelRun groups b).settled := by
        simp [levelRuns, hempty]
      simp only [hruns] at hk ⊢
      cases k with
      | zero => exact h
      | succ k =>
        -- the levels below run from the groups this level gives, one depth down
        have hbelow := ih _ _ (h.levelRun_next b) k (by simpa using hk)
        rwa [Nat.add_assoc, Nat.add_comm 1 k] at hbelow

/-- A run from groups at the top of a selection has at most as many levels as the selection is
high, the first level apart. -/
theorem length_levelRuns_le_height {selection : List Field} (fuel : Nat) (groups : List Group)
    (b : Batch) (h : AtDepth selection 0 groups) :
    (levelRuns fuel groups b).length ≤ max 1 (heightOf selection) := by
  rcases Nat.lt_or_ge (levelRuns fuel groups b).length 2 with hshort | hlong
  · omega
  -- the last level is below the first, so it selects a field at its own depth
  obtain ⟨k, hk⟩ : ∃ k, (levelRuns fuel groups b).length = k + 2 :=
    ⟨(levelRuns fuel groups b).length - 2, by omega⟩
  have hlast : k + 1 < (levelRuns fuel groups b).length := by omega
  have hdepth := levelRuns_atDepth fuel groups b h (k + 1) hlast
  obtain ⟨g, hg⟩ := List.exists_mem_of_ne_nil _
    (groups_ne_nil_of_mem_levelRuns (List.getElem_mem hlast))
  obtain ⟨f, hf⟩ := List.exists_mem_of_ne_nil _ (hdepth.nonempty (by omega) g hg)
  have hheight := height_add_le_of_mem_fieldsAt (hdepth.fields g hg f hf)
  rw [Field.height_eq] at hheight
  omega

/-! ### Fuel -/

/-- A level that has groups, read through the level run: the levels below run from the groups
it gives and the batch it leaves. -/
theorem run_resolveLevel_levelRun (fuel : Nat) {groups : List Group} (hne : groups ≠ [])
    (b : Batch) :
    (resolveLevel (fuel + 1) groups).run b =
      let l := levelRun groups b
      let laid := layoutGroups l.planned ⟨l.outcomes, [], []⟩
      let deeper := (resolveLevel fuel l.next).run l.settled
      (((assembleLevel l.planned laid.2 deeper.1.1).1,
        invalidErrors l.planned ++ laid.1.errors ++ deeper.1.2 ++
          (assembleLevel l.planned laid.2 deeper.1.1).2), deeper.2) := by
  rw [run_resolveLevel_succ fuel hne b]
  rfl

/-- Once the fuel exceeds the height of every group's selection, more fuel changes nothing:
the recursion stops because the groups run out; by induction on the fuel, each level's groups
being lower than the level above. -/
theorem resolveLevel_add_fuel (fuel extra : Nat) (groups : List Group)
    (h : ∀ g ∈ groups, heightOf g.selection < fuel) (b : Batch) :
    (resolveLevel (fuel + extra) groups).run b = (resolveLevel fuel groups).run b := by
  induction fuel generalizing groups b with
  | zero =>
    cases groups with
    | nil => cases extra <;> rfl
    | cons g _ => exact absurd (h g List.mem_cons_self) (Nat.not_lt_zero _)
  | succ fuel ih =>
    cases groups with
    | nil => cases extra <;> rfl
    | cons g gs =>
      rw [Nat.add_right_comm, run_resolveLevel_levelRun (fuel + extra) (List.cons_ne_nil g gs),
        run_resolveLevel_levelRun fuel (List.cons_ne_nil g gs)]
      dsimp only
      rw [ih _ (heightOf_levelRun_next_lt h b)]

end SocialGraph
