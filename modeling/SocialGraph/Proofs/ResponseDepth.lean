import Mathlib.Order.MinMax
import SocialGraph.Proofs.LevelDepth
import SocialGraph.Proofs.FailurePruning

/-!
# A run is as deep as its query

Resolution goes level by level, and nothing in the store bounds it: subscriptions may form
cycles, and one user may be reached again and again. What bounds it is the query. The groups of
the `n`-th level select fields at nesting depth `n` of the query (`levelRuns_atDepth`), so a
run has at most as many levels as the query is high (`length_levelRuns_le_height`), and fuel
beyond that height changes nothing (`resolveLevel_add_fuel`).

The data is as shallow: the evaluator nests no deeper than the selection
(`depth_evalObject_le`), since leaf fields hold scalars, and whatever calls fail, the data of a
run is the evaluator's with subtrees cut down to null (`execute_prunesAt_eval`), which is no
deeper (`Json.Prunes.depth_le`).
-/

namespace SocialGraph

/-! ### How deep a value nests fields -/

namespace Json

mutual

/-- How deep a value nests fields: an object is one deeper than its deepest member's value, an
array as deep as its deepest item, and a scalar nests none. -/
def depth : Json → Nat
  | .arr items => depthItems items
  | .obj members => depthMembers members
  | _ => 0

/-- The depth of the deepest of some items. -/
def depthItems : List Json → Nat
  | [] => 0
  | v :: vs => max v.depth (depthItems vs)

/-- One more than the depth of the deepest of some members' values. -/
def depthMembers : List (String × Json) → Nat
  | [] => 0
  | (_, v) :: ms => max (v.depth + 1) (depthMembers ms)

end

theorem depthItems_le {vs : List Json} {n : Nat} (h : ∀ v ∈ vs, v.depth ≤ n) :
    depthItems vs ≤ n := by
  induction vs with
  | nil => exact Nat.zero_le _
  | cons v vs ih =>
    rw [depthItems]
    exact Nat.max_le.mpr ⟨h v List.mem_cons_self, ih fun w hw ↦ h w (List.mem_cons_of_mem _ hw)⟩

theorem depthMembers_le {ms : List (String × Json)} {n : Nat} (h : ∀ m ∈ ms, m.2.depth + 1 ≤ n) :
    depthMembers ms ≤ n := by
  induction ms with
  | nil => exact Nat.zero_le _
  | cons m ms ih =>
    obtain ⟨k, v⟩ := m
    rw [depthMembers]
    exact Nat.max_le.mpr ⟨h _ List.mem_cons_self, ih fun w hw ↦ h w (List.mem_cons_of_mem _ hw)⟩

mutual

/-- Cutting subtrees down to null makes a value no deeper. -/
theorem Prunes.depth_le : ∀ (v : Json) {w : Json}, v.Prunes w → v.depth ≤ w.depth
  | .null, _, _ => Nat.zero_le _
  | .bool _, _, h => by cases h; exact Nat.le_refl _
  | .num _, _, h => by cases h; exact Nat.le_refl _
  | .str _, _, h => by cases h; exact Nat.le_refl _
  | .arr vs, _, h => by
    cases h with
    | arr items => exact Prunes.depthItems_le vs items
  | .obj ms, _, h => by
    cases h with
    | obj keys values => exact Prunes.depthMembers_le ms keys values

theorem Prunes.depthItems_le : ∀ (vs : List Json) {ws : List Json},
    List.Forall₂ Prunes vs ws → depthItems vs ≤ depthItems ws
  | [], _, h => by cases h; exact Nat.le_refl _
  | v :: vs, _, h => by
    cases h with
    | cons hv hvs =>
      simp only [depthItems]
      exact max_le_max (Prunes.depth_le v hv) (Prunes.depthItems_le vs hvs)

theorem Prunes.depthMembers_le : ∀ (ms : List (String × Json)) {ns : List (String × Json)},
    ms.map Prod.fst = ns.map Prod.fst → List.Forall₂ Prunes (ms.map Prod.snd) (ns.map Prod.snd) →
      depthMembers ms ≤ depthMembers ns
  | [], _, _, _ => Nat.zero_le _
  | (_, v) :: ms, ns, hk, hv => by
    cases ns with
    | nil => cases hk
    | cons n ns =>
      cases hv with
      | cons hvn hrest =>
        simp only [depthMembers]
        exact max_le_max (Nat.succ_le_succ (Prunes.depth_le v hvn))
          (Prunes.depthMembers_le ms (List.cons.inj hk).2 hrest)

end

end Json

/-! ### The evaluator nests no deeper than the selection -/

theorem Json.depth_ofDouble (x : Float) : (Json.ofDouble x).depth = 0 := by
  unfold Json.ofDouble
  split <;> rfl

/-- A scalar column holds a value that nests no fields. -/
theorem depth_scalar {r : Record} {name : String} {v : Json} (h : r.scalar name = some v) :
    v.depth = 0 := by
  unfold Record.scalar at h
  split at h <;> cases h <;> first | rfl | exact Json.depth_ofDouble _

namespace Dataset

variable (d : Dataset)

/-- A field's leaf value on the dataset is a scalar: the type's name or a scalar column. -/
theorem depth_of_plannedOutcome_leaf {t : ObjectType} {o : Option Record} {p : Planned}
    {v : Json} (h : d.plannedOutcome t o p = .ok (.leaf v)) : v.depth = 0 := by
  unfold plannedOutcome at h
  split at h
  · unfold fieldOutcome at h
    split at h
    · cases h
      rfl
    · split at h
      · next hv =>
        cases h
        obtain ⟨r, -, hr⟩ := Option.bind_eq_some_iff.mp hv
        exact depth_scalar hr
      · cases h
    · cases h
    · rename_i kind _
      cases hl : lookupId kind p.field <;> simp [hl, Except.map] at h
    · unfold Dataset.follow at h
      split at h <;> cases h
  · cases h

/-- The object the evaluator gives for a selection nests no deeper than the selection; by
strong induction on its height, each planned field's objects being lower. -/
theorem depth_evalObject_le (t : ObjectType) (o : Option Record) (selection : List Field) :
    (objectJson (d.evalObject t o selection)).depth ≤ heightOf selection := by
  -- by induction on a bound of the height, each planned field's objects being lower
  suffices h : ∀ n t o (selection : List Field), heightOf selection < n →
      (objectJson (d.evalObject t o selection)).depth ≤ heightOf selection from
    h _ t o selection (Nat.lt_succ_self _)
  intro n
  induction n with
  | zero => exact fun _ _ _ h ↦ absurd h (Nat.not_lt_zero _)
  | succ n ih =>
  intro t o selection hbound
  -- a planned field's value is one level shallower than the selection
  have hfield : ∀ p ∈ collectFields t selection,
      (d.evalField t o p).depth + 1 ≤ heightOf selection := by
    intro p hp
    have hlt := heightOf_children_lt hp
    have hobj : ∀ c r, (objectJson (d.evalObject c (some r) p.children)).depth <
        heightOf selection :=
      fun c r ↦ Nat.lt_of_le_of_lt (ih c (some r) p.children (by omega)) hlt
    have hnull : Json.null.depth + 1 ≤ heightOf selection :=
      Nat.succ_le_of_lt (Nat.lt_of_le_of_lt (Nat.zero_le _) hlt)
    unfold evalField
    cases hout : d.plannedOutcome t o p with
    | error e => exact hnull
    | ok s =>
      cases s with
      | leaf v =>
        simp only [Planned.complete, d.depth_of_plannedOutcome_leaf hout]
        exact hnull
      | object r =>
        cases r with
        | none => exact hnull
        | some r =>
          cases hc : p.childType with
          | none =>
            simp only [Planned.complete, hc]
            exact hnull
          | some c =>
            simp only [Planned.complete, hc, getD_map_obj]
            exact Nat.succ_le_of_lt (hobj c r)
      | list rs =>
        cases hc : p.childType with
        | none =>
          simp only [Planned.complete, hc]
          exact hnull
        | some c =>
          simp only [Planned.complete, hc]
          cases hrs : rs.mapM fun r ↦ d.evalObject c (some r) p.children with
          | none => exact hnull
          | some os =>
            -- each object of the list is one the evaluator gives for the field's sub-selection
            refine Nat.succ_le_of_lt (Nat.lt_of_le_of_lt (Json.depthItems_le fun v hv ↦ ?_) hlt)
            obtain ⟨x, hx, rfl⟩ := List.mem_map.mp hv
            obtain ⟨r, -, hr⟩ := exists_left_of_forall₂ (mapM_eq_some_iff.mp hrs) hx
            have := ih c (some r) p.children (by omega)
            rwa [hr] at this
  rw [evalObject_eq]
  unfold objectOfValues
  split
  · exact Nat.zero_le _
  · simp only [objectJson, Json.depth]
    refine Json.depthMembers_le fun m hm ↦ ?_
    obtain ⟨pv, hpv, rfl⟩ := List.mem_map.mp hm
    obtain ⟨p, hp, rfl⟩ := List.mem_map.mp hpv
    exact hfield p hp

end Dataset

/-! ### Runs -/

/-- The root group of an execution is at the top of its selection. -/
theorem atDepth_root (selection : List Field) :
    AtDepth selection 0 [⟨.query, selection, [⟨none, []⟩]⟩] :=
  ⟨fun g hg f hf ↦ by rw [List.mem_singleton.mp hg] at hf; exact hf, fun h ↦ absurd h (by omega)⟩

/-- However cyclic the data and whichever calls fail, a run is bounded by its selection: the
groups of the `n`-th level select only fields at nesting depth `n` of the selection; there are
at most as many levels as the selection is high, the root level apart; fuel beyond that height
changes nothing, so the recursion ends because the groups run out; and the data nests no
deeper than the selection. -/
theorem resolution_depth_bounded {d : Dataset} {store : Store}
    (h : Store.ofDataset d = .ok store) (rules : List FailureRule) (selection : List Field) :
    let root : List Group := [⟨.query, selection, [⟨none, []⟩]⟩]
    let levels := levelRuns (heightOf selection + 1) root (Batch.fresh store rules)
    (∀ n (hn : n < levels.length), ∀ g ∈ levels[n].groups, ∀ f ∈ g.selection,
        f ∈ fieldsAt selection n) ∧
      levels.length ≤ max 1 (heightOf selection) ∧
      (∀ extra, (resolveLevel (heightOf selection + 1 + extra) root).run (Batch.fresh store rules) =
        (resolveLevel (heightOf selection + 1) root).run (Batch.fresh store rules)) ∧
      ∃ v, (execute store rules selection).1.data = some v ∧ v.depth ≤ heightOf selection := by
  intro root levels
  have hdepth := levelRuns_atDepth (heightOf selection + 1) root (Batch.fresh store rules)
    (atDepth_root selection)
  refine ⟨fun n hn ↦ by simpa using (hdepth n hn).fields,
    length_levelRuns_le_height _ root _ (atDepth_root selection),
    fun extra ↦ resolveLevel_add_fuel _ extra root (by simp [root]) _, ?_⟩
  -- the data prunes the evaluator's root object, which is no deeper than the selection
  obtain ⟨x, hdata, hx⟩ := execute_prunesAt_eval h rules selection
  exact ⟨objectJson x, hdata,
    Nat.le_trans (Json.Prunes.depth_le _ hx.prunes) (d.depth_evalObject_le .query none selection)⟩

/-- The one-author dataset, with every foreign-key scan failing: the posts of its user. -/
theorem oneAuthor_posts_depth_bounded :
    Store.ofDataset oneAuthor = .ok oneAuthor.store ∧
      let selection : List Field := [⟨none, "users", [], none,
        [⟨none, "posts", [], none, [⟨none, "title", [], none, []⟩]⟩]⟩]
      let rules : List FailureRule :=
        [⟨some "scan_by_foreign_key", none, none, none, none, .connection "down"⟩]
      let root : List Group := [⟨.query, selection, [⟨none, []⟩]⟩]
      let levels := levelRuns (heightOf selection + 1) root (Batch.fresh oneAuthor.store rules)
      (∀ n (hn : n < levels.length), ∀ g ∈ levels[n].groups, ∀ f ∈ g.selection,
          f ∈ fieldsAt selection n) ∧
        levels.length ≤ max 1 (heightOf selection) ∧
        (∀ extra, (resolveLevel (heightOf selection + 1 + extra) root).run
            (Batch.fresh oneAuthor.store rules) =
          (resolveLevel (heightOf selection + 1) root).run (Batch.fresh oneAuthor.store rules)) ∧
        ∃ v, (execute oneAuthor.store rules selection).1.data = some v ∧
          v.depth ≤ heightOf selection :=
  ⟨rfl, resolution_depth_bounded (d := oneAuthor) rfl _ _⟩

end SocialGraph
