import SocialGraph.Proofs.LevelDepth
import SocialGraph.Proofs.PrunedValues
import SocialGraph.Proofs.ResponseShape

/-!
# Invalid fields are reported once per selection set

A selection set of a query stands at a path of response keys (`selectionAt`): from the root,
each key names the planned field whose merged sub-selection comes next. An execution reaches
it on the objects whose paths have those keys, list positions left out (`keyPath`). A field of
the selection set that the schema refuses is reported once for the whole selection set, not
once per object: at the first object that reaches it, in the order the execution visits them,
and not at all when no object does (`invalid_field_reported_once`). In every object at that
place in the data, the field is null.

The execution resolves a level of the query at a time, and the objects of one place of the
query make one group of a level, whatever parents they came from. The proof carries this along
the levels (`KeyedAt`): the objects of a group all stand at the place its selection is at, and
objects of different groups stand at different places. The errors of a level stand one key
below the level's objects (`site_of_levelError`) and those of the levels below it deeper still
(`errors_below`), so only the level at the place of the selection set reports at the field's
key path, and there only the invalid field's one report of the place's group does
(`eq_report_of_keyPath`, `report_mem_errors`).
-/

namespace SocialGraph

/-! ### Places in a query -/

/-- The response keys of a path, list positions left out. -/
def keyPath (path : List PathSegment) : List String :=
  path.filterMap fun
    | .key k => some k
    | .index _ => none

@[simp] theorem keyPath_append (p q : List PathSegment) :
    keyPath (p ++ q) = keyPath p ++ keyPath q :=
  List.filterMap_append

@[simp] theorem keyPath_nil : keyPath [] = [] := rfl

@[simp] theorem keyPath_cons_key (k : String) (path : List PathSegment) :
    keyPath (.key k :: path) = k :: keyPath path := rfl

@[simp] theorem keyPath_cons_index (i : Nat) (path : List PathSegment) :
    keyPath (.index i :: path) = keyPath path := rfl

/-- The type and the merged selection a selection on a type reaches along response keys: each
key names a planned field that gives objects, whose merged sub-selection comes next. -/
def selectionAt (t : ObjectType) (selection : List Field) :
    List String → Option (ObjectType × List Field)
  | [] => some (t, selection)
  | k :: K => do
    let p ← (collectFields t selection).find? (·.key == k)
    let c ← p.childType
    selectionAt c p.children K

/-- One key further down: the planned field of the key, when it gives objects. -/
theorem selectionAt_concat (t : ObjectType) (selection : List Field) (K : List String)
    (k : String) :
    selectionAt t selection (K ++ [k]) = (selectionAt t selection K).bind fun place ↦
      ((collectFields place.1 place.2).find? (·.key == k)).bind fun p ↦
        p.childType.map fun c ↦ (c, p.children) := by
  induction K generalizing t selection with
  | nil =>
    simp only [List.nil_append, selectionAt, Option.bind_eq_bind, Option.bind_some,
      Option.map_eq_bind, Function.comp_def]
  | cons k' K ih =>
    simp only [List.cons_append, selectionAt, Option.bind_eq_bind, Option.bind_assoc]
    congr 1
    funext p
    congr 1
    funext c
    exact ih c p.children

/-- A planned field is the one its key finds in its plan, whose keys differ. -/
theorem find?_key_collectFields {t : ObjectType} {selection : List Field} {p : Planned}
    (hp : p ∈ collectFields t selection) :
    (collectFields t selection).find? (·.key == p.key) = some p := by
  have hkeys := nodup_keys_collectFields t selection
  obtain ⟨q, hq, hqp⟩ : ∃ q, (collectFields t selection).find? (·.key == p.key) = some q ∧
      q.key = p.key := by
    cases hf : (collectFields t selection).find? (·.key == p.key) with
    | none =>
      rw [List.find?_eq_none] at hf
      exact absurd (by simp) (hf p hp)
    | some q => exact ⟨q, rfl, by simpa using List.find?_some hf⟩
  rw [hq, List.inj_on_of_nodup_map hkeys (List.mem_of_find?_eq_some hq) hp hqp]

/-- Planned fields of one plan with one key are one field. -/
theorem eq_of_key_eq {t : ObjectType} {selection : List Field} {p q : Planned}
    (hp : p ∈ collectFields t selection) (hq : q ∈ collectFields t selection)
    (hkey : q.key = p.key) : q = p :=
  List.inj_on_of_nodup_map (nodup_keys_collectFields t selection) hq hp hkey

/-! ### The places of a level's objects -/

theorem ChildOf.keyPath {base : List PathSegment} {j : Nat} {m : Node} {cell : Cell}
    (h : ChildOf base j m cell) : keyPath m.path = keyPath base := by
  cases cell with
  | object j' => rw [h.2]
  | list s e => simp [h.2.2]
  | ready v => exact h.elim
  | failed => exact h.elim

/-- Entries of rows of one group for one planned field have one target. -/
theorem rowOf_fst_eq {plan : List Planned} {columns : List (List Cell)}
    {targets : List (Option Nat)} (ht : targets.length = plan.length)
    (hkeys : (plan.map Planned.key).Nodup) {i i' : Nat} {x x' : (Planned × Option Nat) × Cell}
    (hx : x ∈ rowOf plan columns targets i) (hx' : x' ∈ rowOf plan columns targets i')
    (hkey : x.1.1.key = x'.1.1.key) : x.1 = x'.1 := by
  have hzip : ((plan.zip targets).map fun pt ↦ pt.1.key).Nodup := by
    have hfst : (plan.zip targets).map Prod.fst = plan := List.map_fst_zip (Nat.le_of_eq ht.symm)
    have hcomp : (fun pt : Planned × Option Nat ↦ pt.1.key) = Planned.key ∘ Prod.fst := rfl
    rw [hcomp, ← List.map_map, hfst]
    exact hkeys
  exact List.inj_on_of_nodup_map hzip (List.of_mem_zip hx).1 (List.of_mem_zip hx').1 hkey

/-- Groups of a level at a depth of a selection, placed by the response keys of their objects'
paths: the objects of a group all stand at one place, as deep as the level, where the selection
reaches the group's type and selection; and objects at one place are in one group. -/
structure KeyedAt (selection : List Field) (depth : Nat) (groups : List Group) : Prop where
  sites : ∀ g ∈ groups, ∃ K : List String, K.length = depth ∧
    selectionAt .query selection K = some (g.object, g.selection) ∧
    ∀ n ∈ g.parents, keyPath n.path = K
  apart : ∀ {a a' i i' : Nat} {g g' : Group} {n n' : Node}, groups[a]? = some g →
    g.parents[i]? = some n → groups[a']? = some g' → g'.parents[i']? = some n' →
    keyPath n.path = keyPath n'.path → a = a'

/-- The root group is at the top of its selection. -/
theorem keyedAt_root (selection : List Field) :
    KeyedAt selection 0 [⟨.query, selection, [⟨none, []⟩]⟩] := by
  refine ⟨fun g hg ↦ ⟨[], rfl, ?_, ?_⟩, fun hg _ hg' _ _ ↦ ?_⟩
  · rw [List.mem_singleton.mp hg]
    rfl
  · rw [List.mem_singleton.mp hg]
    simp [keyPath]
  · obtain ⟨ha, -⟩ := List.getElem?_eq_some_iff.mp hg
    obtain ⟨ha', -⟩ := List.getElem?_eq_some_iff.mp hg'
    simp only [List.length_singleton, Nat.lt_one_iff] at ha ha'
    rw [ha, ha']

section NextLevel

variable {selection : List Field} {depth : Nat} {groups : List Group}
  {planned : List (Group × List Planned)} {layouts : List (List (List Cell) × List (Option Nat))}
  {lay₀ lay : Layout}

/-- A group the next level gets from a planned field stands one key below the group the field
was planned for. -/
theorem KeyedAt.site_of_givenBy (h : KeyedAt selection depth groups) {g g' : Group}
    (hg : g ∈ groups) {p : Planned} (hp : p ∈ collectFields g.object g.selection)
    (hgiven : GivenBy g p g') :
    ∃ K : List String, K.length = depth + 1 ∧
      selectionAt .query selection K = some (g'.object, g'.selection) ∧
      ∀ m ∈ g'.parents, keyPath m.path = K := by
  obtain ⟨K, hlen, hat, hkeys⟩ := h.sites g hg
  refine ⟨K ++ [p.key], by simp [hlen], ?_, fun m hm ↦ ?_⟩
  · rw [selectionAt_concat, hat]
    simp [find?_key_collectFields hp, hgiven.object, hgiven.selection]
  · obtain ⟨n, hn, hpath | ⟨i, hpath⟩⟩ := hgiven.parents m hm <;>
      simp [hpath, hkeys n hn]

/-- Objects of the next level at one place are in one group: their cells are entries of rows
of one group, for one planned field, whose target is the group. -/
theorem KeyedAt.next_apart (h : KeyedAt selection depth groups)
    (hplanned : planned = groups.map fun g ↦ (g, collectFields g.object g.selection))
    (hlaid : LevelLaid planned layouts lay₀ lay) (hstart : lay₀.next = []) {t t' j j' : Nat}
    {g g' : Group} {m m' : Node} (hg : lay.next[t]? = some g) (hm : g.parents[j]? = some m)
    (hg' : lay.next[t']? = some g') (hm' : g'.parents[j']? = some m')
    (hkey : keyPath m.path = keyPath m'.path) : t = t' := by
  obtain ⟨n, x, ⟨a, gp, l, i, hgp, hl, hn, hx⟩, htarget, hchild⟩ :=
    hlaid.children t g j m (by simp [hstart]) hg hm
  obtain ⟨n', x', ⟨a', gp', l', i', hgp', hl', hn', hx'⟩, htarget', hchild'⟩ :=
    hlaid.children t' g' j' m' (by simp [hstart]) hg' hm'
  simp only [hchild.keyPath, hchild'.keyPath, keyPath_append, keyPath_cons_key,
    keyPath_nil] at hkey
  obtain ⟨hnn', hxx'⟩ := List.append_inj' hkey rfl
  -- the cells' objects are at one place, so in one group
  obtain ⟨hga, -⟩ := getElem?_planned hplanned hgp
  obtain ⟨hga', -⟩ := getElem?_planned hplanned hgp'
  obtain rfl := h.apart hga hn hga' hn' hnn'
  rw [hgp] at hgp'
  rw [hl] at hl'
  cases hgp'
  cases hl'
  -- one group, one planned field: one target
  have hkeys : (gp.2.map Planned.key).Nodup := by
    rw [(getElem?_planned hplanned hgp).2]
    exact nodup_keys_collectFields _ _
  have hfst := rowOf_fst_eq (hlaid.widths a gp l hgp hl).2 hkeys hx hx'
    (List.singleton_inj.mp hxx')
  rw [hfst] at htarget
  exact Option.some.inj (htarget.symm.trans htarget')

end NextLevel

/-! ### The levels of a run -/

section Levels

variable {selection : List Field} {depth : Nat} {groups : List Group}

/-- The layout of a level run: the layout it leaves, and the columns and targets of its
groups. -/
def LevelRun.laid (l : LevelRun) : Layout × List (List (List Cell) × List (Option Nat)) :=
  layoutGroups l.planned ⟨l.outcomes, [], []⟩

/-- A level of groups whose objects lie apart is laid out as `LevelLaid` says. -/
theorem levelRun_laid (hnodes : NodesApart groups) (b : Batch) :
    LevelLaid (levelRun groups b).planned (levelRun groups b).laid.2
      ⟨(levelRun groups b).outcomes, [], []⟩ (levelRun groups b).laid.1 := by
  have hq : List.Forall₂ (fun task (o : Outcome) ↦ o.Fits task.2.1.shape)
      (levelTasks (levelRun groups b).planned ++ []) (levelRun groups b).outcomes := by
    rw [List.append_nil]
    exact forall₂_levelOutcomes groups b _
  exact (layoutGroups_laid _ hnodes.planned_pairwise hnodes.planned_parents (planned_keys groups)
    hq rfl).2

theorem NodesApart.levelRun_next (hnodes : NodesApart groups) (b : Batch) :
    NodesApart (levelRun groups b).next :=
  nodesApart_next hnodes rfl (levelRun_laid hnodes b) rfl

/-- The groups of the level below keyed groups are keyed one key deeper. -/
theorem KeyedAt.levelRun_next (h : KeyedAt selection depth groups) (hnodes : NodesApart groups)
    (b : Batch) : KeyedAt selection (depth + 1) (levelRun groups b).next := by
  refine ⟨fun g' hg' ↦ ?_, fun hg hm hg' hm' hkey ↦ ?_⟩
  · obtain ⟨g, hg, p, hp, hgiven⟩ := mem_levelRun_next hg'
    exact h.site_of_givenBy hg hp hgiven
  · exact h.next_apart rfl (levelRun_laid hnodes b) rfl hg hm hg' hm' hkey

/-- The objects at one place are in one group. -/
theorem KeyedAt.eq_of_keyPath (h : KeyedAt selection depth groups) {g g' : Group}
    (hg : g ∈ groups) (hg' : g' ∈ groups) {n n' : Node} (hn : n ∈ g.parents)
    (hn' : n' ∈ g'.parents) (hkey : keyPath n.path = keyPath n'.path) : g = g' := by
  obtain ⟨a, ha⟩ := List.mem_iff_getElem?.mp hg
  obtain ⟨a', ha'⟩ := List.mem_iff_getElem?.mp hg'
  obtain ⟨i, hi⟩ := List.mem_iff_getElem?.mp hn
  obtain ⟨i', hi'⟩ := List.mem_iff_getElem?.mp hn'
  obtain rfl := h.apart ha hi ha' hi' hkey
  exact Option.some.inj (ha.symm.trans ha')

/-- Every object of keyed groups is as deep as their level. -/
theorem KeyedAt.length_keyPath (h : KeyedAt selection depth groups) {g : Group} (hg : g ∈ groups)
    {n : Node} (hn : n ∈ g.parents) : (keyPath n.path).length = depth := by
  obtain ⟨K, hlen, -, hkeys⟩ := h.sites g hg
  rw [hkeys n hn, hlen]

/-- The objects a run visits from some groups: level by level, group by group, in order. -/
def visited (fuel : Nat) (groups : List Group) (b : Batch) : List Node :=
  (levelRuns fuel groups b).flatMap fun l ↦ l.groups.flatMap (·.parents)

theorem visited_succ (fuel : Nat) {groups : List Group} (hne : groups ≠ []) (b : Batch) :
    visited (fuel + 1) groups b =
      groups.flatMap (·.parents) ++ visited fuel (levelRun groups b).next (levelRun groups b).settled := by
  have hempty : groups.isEmpty = false := by simpa using hne
  simp [visited, levelRuns, hempty, levelRun]

end Levels

/-! ### Where the errors of a run stand -/

section LevelErrors

variable {groups : List Group} {planned : List (Group × List Planned)}
  {layouts : List (List (List Cell) × List (Option Nat))} {lay₀ lay : Layout}
  (hplanned : planned = groups.map fun g ↦ (g, collectFields g.object g.selection))
include hplanned

theorem InRow.site {n : Node} {x : (Planned × Option Nat) × Cell}
    (hx : InRow planned layouts n x) :
    ∃ g ∈ groups, n ∈ g.parents ∧ x.1.1 ∈ collectFields g.object g.selection := by
  obtain ⟨a, gp, l, i, hgp, -, hn, hxr⟩ := hx
  obtain ⟨hg, hplan⟩ := getElem?_planned hplanned hgp
  exact ⟨gp.1, List.mem_of_getElem? hg, List.mem_of_getElem? hn,
    hplan ▸ mem_plan_of_mem_rowOf hxr⟩

/-- Every error a level reports itself stands at a planned field on an object of one of its
groups; when the field is invalid, the error is the field's report at the group's first
object. -/
theorem site_of_levelError (hlaid : LevelLaid planned layouts lay₀ lay)
    (hstart : lay₀.errors = []) {nested : List (List (Option ObjectData))} {err : ResponseError}
    (he : err ∈ invalidErrors planned ++ lay.errors ++ (assembleLevel planned layouts nested).2) :
    ∃ g ∈ groups, ∃ n ∈ g.parents, ∃ q ∈ collectFields g.object g.selection,
      err.path = some (n.path ++ [.key q.key]) ∧ ∀ e, q.definition = .error e →
        g.parents.head? = some n ∧ err = ResponseError.atPath (n.path ++ [.key q.key]) e := by
  simp only [List.mem_append] at he
  rcases he with (he | he) | he
  · -- an invalid field's report
    obtain ⟨a, g, plan, n, q, e, hgp, hn, hq, hdef, rfl⟩ := eq_of_mem_invalidErrors he
    obtain ⟨hg, hplan⟩ := getElem?_planned hplanned hgp
    refine ⟨g, List.mem_of_getElem? hg, n, List.mem_of_getElem? hn, q, hplan ▸ hq, rfl,
      fun e' hdef' ↦ ?_⟩
    obtain rfl : e = e' := Except.error.inj (hdef.symm.trans hdef')
    exact ⟨by rw [List.head?_eq_getElem?, hn], rfl⟩
  · -- a failure of a valid field
    obtain ⟨errs, herrs, -, hsites⟩ := hlaid.errors
    rw [herrs, hstart, List.nil_append] at he
    obtain ⟨n, x, hx, -, ⟨fd, hfd⟩, hpath⟩ := hsites err he
    obtain ⟨g, hg, hn, hq⟩ := InRow.site hplanned hx
    exact ⟨g, hg, n, hn, x.1.1, hq, hpath, fun e he' ↦ by simp [hfd] at he'⟩
  · -- a null of a field that may not be null, so of a valid one
    obtain ⟨n, x, hx, -, -, hnull, hpath⟩ := mem_assembleLevel_errors he
    obtain ⟨g, hg, hn, hq⟩ := InRow.site hplanned hx
    exact ⟨g, hg, n, hn, x.1.1, hq, hpath, fun e he' ↦ by simp [Planned.nullable, he'] at hnull⟩

end LevelErrors

section Runs

variable {selection : List Field}

/-- The errors of a run from some groups: those its first level reports itself, around those
of the levels below. -/
theorem errors_succ (fuel : Nat) {groups : List Group} (hne : groups ≠ []) (b : Batch) :
    ((resolveLevel (fuel + 1) groups).run b).1.2 =
      invalidErrors (levelRun groups b).planned ++ (levelRun groups b).laid.1.errors ++
        ((resolveLevel fuel (levelRun groups b).next).run (levelRun groups b).settled).1.2 ++
        (assembleLevel (levelRun groups b).planned (levelRun groups b).laid.2
          ((resolveLevel fuel (levelRun groups b).next).run (levelRun groups b).settled).1.1).2 := by
  rw [run_resolveLevel_levelRun fuel hne b]
  rfl

/-- Every error of a run from some groups is one its first level reports itself, or one of the
levels below. -/
theorem mem_errors_succ (fuel : Nat) {groups : List Group} (hne : groups ≠ []) (b : Batch)
    {err : ResponseError} (he : err ∈ ((resolveLevel (fuel + 1) groups).run b).1.2) :
    (∃ nested, err ∈ invalidErrors (levelRun groups b).planned ++
      (levelRun groups b).laid.1.errors ++
        (assembleLevel (levelRun groups b).planned (levelRun groups b).laid.2 nested).2) ∨
      err ∈ ((resolveLevel fuel (levelRun groups b).next).run (levelRun groups b).settled).1.2 := by
  rw [errors_succ fuel hne b] at he
  simp only [List.mem_append] at he ⊢
  rcases he with ((he | he) | he) | he
  · exact .inl ⟨[], .inl (.inl he)⟩
  · exact .inl ⟨[], .inl (.inr he)⟩
  · exact .inr he
  · exact .inl ⟨_, .inr he⟩

/-- Every error of a run from keyed groups stands below the depth of their objects. -/
theorem errors_below (fuel : Nat) : ∀ {depth : Nat} {groups : List Group} {b : Batch},
    KeyedAt selection depth groups → NodesApart groups →
    ∀ err ∈ ((resolveLevel fuel groups).run b).1.2,
      ∃ path, err.path = some path ∧ depth < (keyPath path).length := by
  induction fuel with
  | zero =>
    intro _ _ _ _ _ err he
    simp [resolveLevel] at he
  | succ fuel ih =>
    intro depth groups b hkeyed hnodes err he
    by_cases hne : groups = []
    · subst hne
      simp [resolveLevel] at he
    rcases mem_errors_succ fuel hne b he with ⟨nested, he⟩ | he
    · obtain ⟨g, hg, n, hn, q, -, hpath, -⟩ :=
        site_of_levelError rfl (levelRun_laid hnodes b) rfl he
      exact ⟨_, hpath, by simp [hkeyed.length_keyPath hg hn]⟩
    · obtain ⟨path, hpath, hlt⟩ :=
        ih (hkeyed.levelRun_next hnodes b) (hnodes.levelRun_next b) err he
      exact ⟨path, hpath, by omega⟩

/-- Every object a run from keyed groups visits is as deep as their objects or deeper. -/
theorem visited_below (fuel : Nat) : ∀ {depth : Nat} {groups : List Group} {b : Batch},
    KeyedAt selection depth groups → NodesApart groups →
    ∀ m ∈ visited fuel groups b, depth ≤ (keyPath m.path).length := by
  induction fuel with
  | zero =>
    intro _ _ _ _ _ m hm
    simp [visited, levelRuns] at hm
  | succ fuel ih =>
    intro depth groups b hkeyed hnodes m hm
    by_cases hne : groups = []
    · subst hne
      simp [visited, levelRuns] at hm
    rw [visited_succ fuel hne b, List.mem_append] at hm
    rcases hm with hm | hm
    · obtain ⟨g, hg, hm⟩ := List.mem_flatMap.mp hm
      exact Nat.le_of_eq (hkeyed.length_keyPath hg hm).symm
    · have := ih (hkeyed.levelRun_next hnodes b) (hnodes.levelRun_next b) m hm
      omega

end Runs

section Places

variable {selection : List Field} {depth : Nat} {groups : List Group} {K : List String}

theorem KeyedAt.uniform (h : KeyedAt selection depth groups) :
    ∀ g ∈ groups, ∃ K' : List String, ∀ n ∈ g.parents, keyPath n.path = K' := by
  intro g hg
  obtain ⟨K', -, -, hkeys⟩ := h.sites g hg
  exact ⟨K', hkeys⟩

/-- The first object at a place among the objects of some groups, each at one place, is the
first object of a group. -/
theorem head?_filter_parents
    (hsites : ∀ g ∈ groups, ∃ K' : List String, ∀ n ∈ g.parents, keyPath n.path = K')
    {first : Node} (h : ((groups.flatMap (·.parents)).filter (keyPath ·.path == K)).head? =
      some first) :
    ∃ g ∈ groups, g.parents.head? = some first ∧ keyPath first.path = K := by
  induction groups with
  | nil => simp at h
  | cons g gs ih =>
    rw [List.flatMap_cons, List.filter_append, List.head?_append] at h
    cases hf : (g.parents.filter (keyPath ·.path == K)).head? with
    | none =>
      rw [hf, Option.none_or] at h
      obtain ⟨g', hg', hfirst⟩ := ih (fun g hg ↦ hsites g (List.mem_cons_of_mem _ hg)) h
      exact ⟨g', List.mem_cons_of_mem _ hg', hfirst⟩
    | some x =>
      rw [hf, Option.some_or, Option.some.injEq] at h
      subst h
      have hx := List.mem_filter.mp (List.mem_of_mem_head? hf)
      -- one object of the group is at the place, so all of them are
      obtain ⟨K', hK'⟩ := hsites g List.mem_cons_self
      have hall : g.parents.filter (keyPath ·.path == K) = g.parents := by
        refine List.filter_eq_self.mpr fun n hn ↦ ?_
        rw [hK' n hn, ← hK' x hx.1]
        exact hx.2
      rw [hall] at hf
      exact ⟨g, List.mem_cons_self, hf, by simpa using hx.2⟩

/-- No object of keyed groups stands at a place of another depth. -/
theorem KeyedAt.filter_parents_eq_nil (h : KeyedAt selection depth groups)
    (hK : K.length ≠ depth) : (groups.flatMap (·.parents)).filter (keyPath ·.path == K) = [] := by
  refine List.filter_eq_nil_iff.mpr fun m hm hmK ↦ hK ?_
  obtain ⟨g, hg, hm⟩ := List.mem_flatMap.mp hm
  rw [← h.length_keyPath hg hm, beq_iff_eq.mp hmK]

/-- No object a run from keyed groups visits stands at a place above their depth. -/
theorem filter_visited_eq_nil (h : KeyedAt selection depth groups) (hnodes : NodesApart groups)
    (hK : K.length < depth) (fuel : Nat) (b : Batch) :
    (visited fuel groups b).filter (keyPath ·.path == K) = [] := by
  refine List.filter_eq_nil_iff.mpr fun m hm hmK ↦ ?_
  have hle := visited_below fuel h hnodes m hm
  rw [beq_iff_eq.mp hmK] at hle
  omega

/-- The first object of keyed groups at the place of one of them is that group's first. -/
theorem KeyedAt.head?_filter_parents_eq (h : KeyedAt selection depth groups) {g : Group}
    (hg : g ∈ groups) {n : Node} (hn : g.parents.head? = some n) (hK : keyPath n.path = K) :
    ((groups.flatMap (·.parents)).filter (keyPath ·.path == K)).head? = some n := by
  cases hh : ((groups.flatMap (·.parents)).filter (keyPath ·.path == K)).head? with
  | none =>
    -- the group's first object is at the place
    have hmem : n ∈ (groups.flatMap (·.parents)).filter (keyPath ·.path == K) :=
      List.mem_filter.mpr
        ⟨List.mem_flatMap.mpr ⟨g, hg, List.mem_of_mem_head? hn⟩, by simpa using hK⟩
    rw [List.head?_eq_none_iff.mp hh] at hmem
    cases hmem
  | some first =>
    obtain ⟨g', hg', hfirst, hK'⟩ := head?_filter_parents h.uniform hh
    obtain rfl := h.eq_of_keyPath hg' hg (List.mem_of_mem_head? hfirst)
      (List.mem_of_mem_head? hn) (hK'.trans hK.symm)
    exact congrArg some (Option.some.inj (hfirst.symm.trans hn))

end Places

/-! ### The reports of an invalid field -/

section Reports

variable {selection : List Field} {K : List String} {t : ObjectType} {sel : List Field}
  {p : Planned} {e : ResolveError}
  (hat : selectionAt .query selection K = some (t, sel)) (hp : p ∈ collectFields t sel)
  (hdef : p.definition = .error e)
include hat hp

/-- A group at the place of the selection set plans the invalid field. -/
theorem KeyedAt.mem_plan_of_site {depth : Nat} {groups : List Group}
    (hkeyed : KeyedAt selection depth groups) {g : Group} (hg : g ∈ groups) {n : Node}
    (hn : n ∈ g.parents) (hK : keyPath n.path = K) :
    p ∈ collectFields g.object g.selection := by
  obtain ⟨K', -, hatg, hkeys⟩ := hkeyed.sites g hg
  rw [← hkeys n hn, hK, hat, Option.some.injEq, Prod.mk.injEq] at hatg
  rw [← hatg.1, ← hatg.2]
  exact hp

include hdef

/-- An error of a run from keyed groups at the key path of the invalid field is the field's
report at the first object the run visits at its selection set's place: by induction on the
levels, the level at the place's depth reporting it, and no other level at that key path. -/
theorem eq_report_of_keyPath (fuel : Nat) : ∀ {depth : Nat} {groups : List Group} {b : Batch},
    KeyedAt selection depth groups → NodesApart groups → depth ≤ K.length →
    ∀ err ∈ ((resolveLevel fuel groups).run b).1.2, err.path.map keyPath = some (K ++ [p.key]) →
      ∃ first, ((visited fuel groups b).filter (keyPath ·.path == K)).head? = some first ∧
        err = .atPath (first.path ++ [.key p.key]) e := by
  induction fuel with
  | zero =>
    intro _ _ _ _ _ _ err he
    simp [resolveLevel] at he
  | succ fuel ih =>
    intro depth groups b hkeyed hnodes hdepth err he hkey
    by_cases hne : groups = []
    · subst hne
      simp [resolveLevel] at he
    rw [visited_succ fuel hne b, List.filter_append, List.head?_append]
    rcases mem_errors_succ fuel hne b he with ⟨nested, he⟩ | he
    · -- an error of this level stands at a planned field on an object of a group
      obtain ⟨g, hg, n, hn, q, hq, hpath, hinvalid⟩ :=
        site_of_levelError rfl (levelRun_laid hnodes b) rfl he
      rw [hpath, Option.map_some, Option.some.injEq, keyPath_append, keyPath_cons_key,
        keyPath_nil] at hkey
      obtain ⟨hnK, hqp⟩ := List.append_inj' hkey rfl
      -- the group is the place's, and the field the invalid one
      obtain rfl : q = p := eq_of_key_eq (hkeyed.mem_plan_of_site hat hp hg hn hnK) hq
        (List.singleton_inj.mp hqp)
      obtain ⟨hfirst, rfl⟩ := hinvalid e hdef
      exact ⟨n, by rw [hkeyed.head?_filter_parents_eq hg hfirst hnK, Option.some_or], rfl⟩
    · by_cases hlen : K.length = depth
      · -- the levels below report deeper down
        obtain ⟨path, hpath, hlt⟩ :=
          errors_below fuel (hkeyed.levelRun_next hnodes b) (hnodes.levelRun_next b) err he
        rw [hpath, Option.map_some, Option.some.injEq] at hkey
        have hlength := congrArg List.length hkey
        simp only [List.length_append, List.length_singleton] at hlength
        omega
      · obtain ⟨first, hfirst, rfl⟩ := ih (hkeyed.levelRun_next hnodes b)
          (hnodes.levelRun_next b) (by omega) err he hkey
        refine ⟨first, ?_, rfl⟩
        rw [hkeyed.filter_parents_eq_nil hlen, List.head?_nil, Option.none_or, hfirst]

/-- A run from keyed groups that visits an object at the selection set's place reports the
invalid field at the first such object. -/
theorem report_mem_errors (fuel : Nat) : ∀ {depth : Nat} {groups : List Group} {b : Batch},
    KeyedAt selection depth groups → NodesApart groups → depth ≤ K.length →
    ∀ first, ((visited fuel groups b).filter (keyPath ·.path == K)).head? = some first →
      .atPath (first.path ++ [.key p.key]) e ∈ ((resolveLevel fuel groups).run b).1.2 := by
  induction fuel with
  | zero =>
    intro _ _ _ _ _ _ first h
    simp [visited, levelRuns] at h
  | succ fuel ih =>
    intro depth groups b hkeyed hnodes hdepth first h
    by_cases hne : groups = []
    · subst hne
      simp [visited, levelRuns] at h
    rw [visited_succ fuel hne b, List.filter_append, List.head?_append] at h
    rw [errors_succ fuel hne b]
    simp only [List.mem_append]
    by_cases hlen : K.length = depth
    · -- the place is at this level: its group reports the field at its first object
      rw [filter_visited_eq_nil (hkeyed.levelRun_next hnodes b) (hnodes.levelRun_next b)
        (by omega), List.head?_nil, Option.or_none] at h
      obtain ⟨g, hg, hfirst, hK⟩ := head?_filter_parents hkeyed.uniform h
      exact .inl (.inl (.inl (mem_invalidErrors_of (List.mem_map.mpr ⟨g, hg, rfl⟩) hfirst
        (hkeyed.mem_plan_of_site hat hp hg (List.mem_of_mem_head? hfirst) hK) hdef)))
    · rw [hkeyed.filter_parents_eq_nil hlen, List.head?_nil, Option.none_or] at h
      exact .inl (.inr (ih (hkeyed.levelRun_next hnodes b) (hnodes.levelRun_next b) (by omega)
        first h))

end Reports

/-! ### Values at a place -/

/-- Every planned field of an object that fits its selection has an entry, under its key, with
a value that fits it. -/
theorem ObjectFits.lookup {t : ObjectType} {selection : List Field} {o : ObjectData}
    (h : ObjectFits t selection o) {p : Planned} (hp : p ∈ collectFields t selection) :
    ∃ v, o.lookup p.key = some v ∧ ValueFits p v := by
  obtain ⟨values, hplan, hfits⟩ := h
  obtain ⟨pv, hpv, rfl⟩ := List.mem_map.mp (hplan ▸ hp)
  have hkeys : (values.map (·.1.key)).Nodup := by
    have hnodup := nodup_keys_collectFields t selection
    rwa [← hplan, List.map_map] at hnodup
  exact ⟨pv.2, lookup_key_of_mem hkeys hpv, hfits pv hpv⟩

/-- A field the schema refuses is null wherever it fits. -/
theorem ValueFits.eq_null_of_error {p : Planned} {v : Json} (h : ValueFits p v)
    {e : ResolveError} (hdef : p.definition = .error e) : v = .null := by
  cases h with
  | null => rfl
  | leaf hd => cases hd.symm.trans hdef
  | object hd => cases hd.symm.trans hdef
  | list hd => cases hd.symm.trans hdef

/-- A value made of objects that fit a selection on a type: one object, or a list of them. -/
inductive ObjectsFit (t : ObjectType) (selection : List Field) : Json → Prop
  | obj {o : ObjectData} (fits : ObjectFits t selection o) : ObjectsFit t selection (.obj o)
  | arr {os : List ObjectData} (fits : ∀ o ∈ os, ObjectFits t selection o) :
      ObjectsFit t selection (.arr (os.map .obj))

/-- A value that fits a field giving objects is null or made of objects that fit the field's
type and merged sub-selection. -/
theorem ValueFits.objectsFit {p : Planned} {v : Json} (h : ValueFits p v) {c : ObjectType}
    (hc : p.childType = some c) : v = .null ∨ ObjectsFit c p.children v := by
  cases h with
  | null => exact .inl rfl
  | @leaf _ fd _ hd hshape =>
    obtain ⟨r, s, n⟩ := fd
    subst hshape
    simp [Planned.childType, hd] at hc
  | @object _ fd c' _ hd hshape hfits =>
    obtain ⟨r, s, n⟩ := fd
    subst hshape
    obtain rfl : c' = c := by simpa [Planned.childType, hd] using hc
    exact .inr (.obj hfits)
  | @list _ fd c' _ hd hshape hfits =>
    obtain ⟨r, s, n⟩ := fd
    subst hshape
    obtain rfl : c' = c := by simpa [Planned.childType, hd] using hc
    exact .inr (.arr hfits)

/-- Following a path into objects that fit a selection reaches, at an object, one that fits the
selection its response keys reach: each key goes into the value of a planned field, which the
place below is the field's type and merged sub-selection; each position, into a list member. -/
theorem ObjectsFit.follow {t : ObjectType} {selection : List Field} {v : Json}
    (h : ObjectsFit t selection v) {path : List PathSegment} {o : ObjectData}
    {place : ObjectType × List Field} (hfollow : v.follow path = some (.obj o))
    (hat : selectionAt t selection (keyPath path) = some place) :
    ObjectFits place.1 place.2 o := by
  induction path generalizing t selection v with
  | nil =>
    cases h with
    | obj hfits =>
      simp only [Json.follow_nil, Option.some.injEq, Json.obj.injEq] at hfollow
      simp only [keyPath_nil, selectionAt, Option.some.injEq] at hat
      subst hfollow hat
      exact hfits
    | arr => simp at hfollow
  | cons s path ih =>
    cases s with
    | key k =>
      cases h with
      | arr => simp at hfollow
      | @obj o' hfits =>
        -- the key names a planned field that gives objects
        simp only [keyPath_cons_key, selectionAt, Option.bind_eq_bind] at hat
        obtain ⟨p, hp, hat⟩ := Option.bind_eq_some_iff.mp hat
        obtain ⟨c, hc, hat⟩ := Option.bind_eq_some_iff.mp hat
        have hpk : p.key = k := by simpa using List.find?_some hp
        obtain ⟨w, hw, hfitsw⟩ := hfits.lookup (List.mem_of_find?_eq_some hp)
        rw [hpk] at hw
        rw [Json.follow_obj_key, hw, Option.bind_some] at hfollow
        rcases hfitsw.objectsFit hc with rfl | hw'
        · cases path <;> simp at hfollow
        · exact ih hw' hfollow hat
    | index i =>
      cases h with
      | obj => simp at hfollow
      | @arr os hfits =>
        simp only [Json.follow_arr_index, List.getElem?_map] at hfollow
        cases hi : os[i]? with
        | none => simp [hi] at hfollow
        | some o' =>
          simp only [hi, Option.map_some, Option.bind_some] at hfollow
          exact ih (.obj (hfits o' (List.mem_of_getElem? hi))) hfollow (by simpa using hat)

/-! ### Executing a query -/

theorem validation_of_checkArguments {t : ObjectType} {d : FieldDef} {f : Field}
    {e : ResolveError} (h : checkArguments t d f = .error e) :
    ∃ message, e = .validation message := by
  unfold checkArguments at h
  -- split on the names the field takes, then on the first argument refused
  split at h <;> dsimp only at h <;> split at h
  all_goals first | exact ⟨_, (Except.error.inj h).symm⟩ | cases h

/-- The schema refuses a field with a validation error. -/
theorem validation_of_fieldDef_eq_error {t : ObjectType} {f : Field} {e : ResolveError}
    (h : fieldDef t f = .error e) : ∃ message, e = .validation message := by
  unfold fieldDef at h
  cases hd : t.field f.name with
  | none =>
    simp only [hd] at h
    exact ⟨_, (Except.error.inj h).symm⟩
  | some d =>
    cases hargs : checkArguments t d f with
    | error e' =>
      simp only [hd, hargs] at h
      obtain rfl : e' = e := Except.error.inj h
      exact validation_of_checkArguments hargs
    | ok u =>
      simp only [hd, hargs, bind, Except.bind] at h
      split at h <;> first | exact ⟨_, (Except.error.inj h).symm⟩ | cases h

/-- The data of an execution is null or the root object, which fits the query's selection. -/
theorem execute_data_fits (store : Store) (rules : List FailureRule) (selection : List Field) :
    (execute store rules selection).1.data.getD .null = .null ∨
      ObjectsFit .query selection ((execute store rules selection).1.data.getD .null) := by
  have hfits := resolveLevel_fits (heightOf selection + 1) [⟨.query, selection, [⟨none, []⟩]⟩]
    (nodesApart_root _ _ _) (Batch.fresh store rules)
  have hroot := resolveLevel_single (heightOf selection) .query selection ⟨none, []⟩
    (Batch.fresh store rules)
  rw [execute_eq]
  dsimp only
  generalize (resolveLevel (heightOf selection + 1) [⟨.query, selection, [⟨none, []⟩]⟩]).run
    (Batch.fresh store rules) = r at hfits hroot
  obtain ⟨⟨levels, errors⟩, final⟩ := r
  obtain ⟨x, rfl⟩ := hroot
  cases x with
  | none => exact .inl rfl
  | some o => exact .inr (.obj (hfits.objects 0 _ rfl 0 o rfl))

theorem execute_errors (store : Store) (rules : List FailureRule) (selection : List Field) :
    (execute store rules selection).1.errors =
      ((resolveLevel (heightOf selection + 1) [⟨.query, selection, [⟨none, []⟩]⟩]).run
        (Batch.fresh store rules)).1.2 := by
  rw [execute_eq]

/-- Errors apart from each other, all one error with a path, hold it at most once. -/
theorem eq_singleton_of_apart {errs : List ResponseError} (hapart : errs.Pairwise ErrorsApart)
    {x : ResponseError} (hx : x.path.isSome) (hall : ∀ y ∈ errs, y = x) (hmem : x ∈ errs) :
    errs = [x] := by
  obtain ⟨path, hpath⟩ := Option.isSome_iff_exists.mp hx
  cases errs with
  | nil => cases hmem
  | cons y rest =>
    obtain rfl := hall y List.mem_cons_self
    cases rest with
    | nil => rfl
    | cons z rest =>
      obtain rfl := hall z (List.mem_cons_of_mem _ List.mem_cons_self)
      exact absurd rfl ((List.rel_of_pairwise_cons hapart List.mem_cons_self) path path hpath
        hpath).ne

/-- The objects an execution visits at a place of its query, in the order it visits them: level
by level, and in each level group by group, before any null is carried up. -/
def reachedAt (store : Store) (rules : List FailureRule) (selection : List Field)
    (K : List String) : List Node :=
  (visited (heightOf selection + 1) [⟨.query, selection, [⟨none, []⟩]⟩]
    (Batch.fresh store rules)).filter (keyPath ·.path == K)

/-- A field that the schema refuses, planned in a selection set of a query, is reported by one
validation error: at the first object the execution visits at the selection set's place,
followed by the field's key, and not at all when no object reaches the place. Wherever the
data holds an object at that place, the field is null in it. -/
theorem invalid_field_reported_once (store : Store) (rules : List FailureRule)
    (selection : List Field) {K : List String} {t : ObjectType} {sel : List Field}
    {p : Planned} {e : ResolveError} (hat : selectionAt .query selection K = some (t, sel))
    (hp : p ∈ collectFields t sel) (hdef : p.definition = .error e) :
    let response := (execute store rules selection).1
    e.code = "VALIDATION_ERROR" ∧
      response.errors.filter (fun err ↦ err.path.map keyPath == some (K ++ [p.key])) =
        ((reachedAt store rules selection K).head?.map fun first ↦
          ResponseError.atPath (first.path ++ [.key p.key]) e).toList ∧
      ∀ path o, (response.data.getD .null).follow path = some (.obj o) → keyPath path = K →
        o.lookup p.key = some .null := by
  dsimp only
  have hkeyed := keyedAt_root selection
  have hnodes : NodesApart [⟨.query, selection, [⟨none, []⟩]⟩] := nodesApart_root _ _ _
  refine ⟨?code, ?errors, ?data⟩
  case code =>
    obtain ⟨message, rfl⟩ :=
      validation_of_fieldDef_eq_error ((definition_of_mem_collectFields hp).symm.trans hdef)
    rfl
  case errors =>
    rw [execute_errors]
    cases hfirst : (reachedAt store rules selection K).head? with
    | none =>
      -- no object reaches the place, so nothing is reported at the field
      refine List.filter_eq_nil_iff.mpr fun err he hkey ↦ ?_
      obtain ⟨first, hhead, -⟩ := eq_report_of_keyPath hat hp hdef _ hkeyed hnodes
        (Nat.zero_le _) err he (beq_iff_eq.mp hkey)
      exact absurd (hfirst.symm.trans hhead) (by simp)
    | some first =>
      have hK : keyPath first.path = K := by
        simpa using (List.mem_filter.mp (List.mem_of_mem_head? hfirst)).2
      refine eq_singleton_of_apart
        ((resolveLevel_fits _ _ hnodes _).apart.sublist List.filter_sublist) rfl ?_ ?_
      · -- every error at the field's key path is its report at the first object of the place
        intro err herr
        obtain ⟨he, hkey⟩ := List.mem_filter.mp herr
        obtain ⟨first', hhead, rfl⟩ := eq_report_of_keyPath hat hp hdef _ hkeyed hnodes
          (Nat.zero_le _) err he (beq_iff_eq.mp hkey)
        obtain rfl : first' = first := Option.some.inj (hhead.symm.trans hfirst)
        rfl
      · refine List.mem_filter.mpr
          ⟨report_mem_errors hat hp hdef _ hkeyed hnodes (Nat.zero_le _) first hfirst, ?_⟩
        simp [ResponseError.atPath, hK]
  case data =>
    intro path o hfollow hK
    rcases execute_data_fits store rules selection with hnull | hfits
    · rw [hnull] at hfollow
      cases path <;> simp at hfollow
    · -- the object at the place fits the selection set there, which plans the field
      have hobj : ObjectFits t sel o := hfits.follow hfollow (by rw [hK]; exact hat)
      obtain ⟨v, hv, hfitsv⟩ := hobj.lookup hp
      rw [hv, hfitsv.eq_null_of_error hdef]

/-- The selection `{ name password }` on users, who have no password. -/
def passwordSelection : List Field :=
  [⟨none, "name", [], none, []⟩, ⟨none, "password", [], none, []⟩]

/-- The planned password field, which the schema refuses. -/
def passwordPlanned : Planned :=
  ⟨"password", ⟨none, "password", [], none, []⟩,
    .error (.validation "Cannot query field \"password\" on type \"User\"."), []⟩

/-- Over the one-author dataset, one object reaches the users' selection set, at the first
place of the list, and it is the one the refused password field is reported at. -/
theorem users_password_reported_once :
    selectionAt .query [⟨none, "users", [], none, passwordSelection⟩] ["users"] =
        some (.user, passwordSelection) ∧
      passwordPlanned ∈ collectFields .user passwordSelection ∧
      passwordPlanned.definition =
        .error (.validation "Cannot query field \"password\" on type \"User\".") ∧
      (reachedAt oneAuthor.store [] [⟨none, "users", [], none, passwordSelection⟩] ["users"]).map
          (·.path) = [[.key "users", .index 0]] ∧
      let response := (execute oneAuthor.store [] [⟨none, "users", [], none, passwordSelection⟩]).1
      ResolveError.code (.validation "Cannot query field \"password\" on type \"User\".") =
          "VALIDATION_ERROR" ∧
        response.errors.filter
            (fun err ↦ err.path.map keyPath == some (["users"] ++ [passwordPlanned.key])) =
          ((reachedAt oneAuthor.store [] [⟨none, "users", [], none, passwordSelection⟩]
              ["users"]).head?.map
            fun first ↦ ResponseError.atPath (first.path ++ [.key passwordPlanned.key])
              (.validation "Cannot query field \"password\" on type \"User\".")).toList ∧
        ∀ path o, (response.data.getD .null).follow path = some (.obj o) →
          keyPath path = ["users"] → o.lookup passwordPlanned.key = some .null := by
  have hat : selectionAt .query [⟨none, "users", [], none, passwordSelection⟩] ["users"] =
      some (.user, passwordSelection) := by
    rfl
  have hp : passwordPlanned ∈ collectFields .user passwordSelection :=
    List.mem_iff_getElem?.mpr ⟨1, rfl⟩
  have hdef : passwordPlanned.definition =
      .error (.validation "Cannot query field \"password\" on type \"User\".") := rfl
  have hreached : (reachedAt oneAuthor.store [] [⟨none, "users", [], none, passwordSelection⟩]
      ["users"]).map (·.path) = [[.key "users", .index 0]] := by
    rfl
  exact ⟨hat, hp, hdef, hreached, invalid_field_reported_once _ _ _ hat hp hdef⟩

end SocialGraph
