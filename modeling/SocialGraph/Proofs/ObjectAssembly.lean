import Mathlib.Data.List.Nodup
import SocialGraph.Proofs.LevelLayout

/-!
# Objects put together from the cells of their rows

What an object of a response fitting its selection means (`ObjectFits`, with `ValueFits` for
the value of one field), and what putting a level's objects together does with the cells of
their rows:

* an object put together from a row of cells that fit their fields fits its selection, once
  the objects of the next level fit theirs (`objectFits_of_objectOfValues`,
  `valueFits_of_cellFits`); its response keys are those of the plan, which differ
  (`nodup_keys_collectFields`), so following a key into it reaches that field's value;
* following a path from a cell pointing at objects of the next level goes into the object at
  the path's position (`reachesNull_value_of_childOf`);
* every error of an invalid field stands at the field on its group's first object
  (`mem_invalidErrors`), and every nullability error at a field that may not be null whose
  cell's value is a null not reported yet (`mem_assembleLevel_errors`); within each kind the
  errors are apart when the objects are.
-/

namespace SocialGraph

/-! ### Objects that fit their selections -/

mutual

/-- An object put together for a selection on a type fits them: its entries are the response
keys of the selection's plan, in plan order, each with a value that fits its planned field. -/
inductive ObjectFits : ObjectType → List Field → ObjectData → Prop
  | intro {t : ObjectType} {selection : List Field} (values : List (Planned × Json))
      (plan : values.map Prod.fst = collectFields t selection)
      (fits : ∀ pv ∈ values, ValueFits pv.1 pv.2) :
      ObjectFits t selection (values.map fun pv ↦ (pv.1.key, pv.2))

/-- A value fits its planned field: it is null only where the field may be null, and otherwise
it is a value of the field's shape, whose objects fit the field's type and merged
sub-selection. -/
inductive ValueFits : Planned → Json → Prop
  | null {p : Planned} (nullable : p.nullable = true) : ValueFits p .null
  | leaf {p : Planned} {fd : FieldDef} {v : Json} (definition : p.definition = .ok fd)
      (shape : fd.shape = .leaf) (nonnull : v ≠ .null) : ValueFits p v
  | object {p : Planned} {fd : FieldDef} {c : ObjectType} {o : ObjectData}
      (definition : p.definition = .ok fd) (shape : fd.shape = .object c)
      (fits : ObjectFits c p.children o) : ValueFits p (.obj o)
  | list {p : Planned} {fd : FieldDef} {c : ObjectType} {os : List ObjectData}
      (definition : p.definition = .ok fd) (shape : fd.shape = .list c)
      (fits : ∀ o ∈ os, ObjectFits c p.children o) : ValueFits p (.arr (os.map .obj))

end

/-- An object that fits a selection has the response keys of the selection's plan, in order. -/
theorem ObjectFits.keys {t : ObjectType} {selection : List Field} {o : ObjectData}
    (h : ObjectFits t selection o) :
    o.map Prod.fst = (collectFields t selection).map Planned.key := by
  obtain ⟨values, hplan, -⟩ := h
  rw [← hplan, List.map_map, List.map_map]
  rfl

/-- A value that fits a field that may not be null is not null. -/
theorem ValueFits.ne_null {p : Planned} {v : Json} (h : ValueFits p v)
    (hp : p.nullable = false) : v ≠ .null := by
  cases h with
  | null hn => simp_all
  | leaf _ _ hv => exact hv
  | object => nofun
  | list => nofun

/-! ### Plans and rows -/

theorem keys_addField (t : ObjectType) (plan : List Planned) (f : Field) :
    (addField t plan f).map Planned.key =
      if plan.any (·.key == f.responseKey) then plan.map Planned.key
      else plan.map Planned.key ++ [f.responseKey] := by
  unfold addField
  split
  · -- merging a field into its key's planned field keeps every key
    rw [List.map_map]
    congr 1
    funext q
    simp only [Function.comp_apply]
    split <;> rfl
  · simp

/-- The response keys of a plan differ. -/
theorem nodup_keys_collectFields (t : ObjectType) (selection : List Field) :
    ((collectFields t selection).map Planned.key).Nodup := by
  -- a field is planned anew only under a key the plan does not have yet
  have hfold : ∀ (fs : List Field) (plan : List Planned), (plan.map Planned.key).Nodup →
      ((fs.foldl (addField t) plan).map Planned.key).Nodup := by
    intro fs
    induction fs with
    | nil => exact fun _ h ↦ h
    | cons f fs ih =>
      intro plan hplan
      refine ih _ ?_
      rw [keys_addField]
      split
      · exact hplan
      · next hany =>
        refine List.nodup_append.mpr ⟨hplan, List.nodup_singleton _, ?_⟩
        intro k hk k' hk' heq
        rw [List.mem_singleton] at hk'
        obtain ⟨q, hq, hqk⟩ := List.mem_map.mp hk
        exact hany (List.any_eq_true.mpr ⟨q, hq, by simp [hqk, heq, hk']⟩)
  exact hfold _ [] List.nodup_nil

/-- The planned fields of a row are the plan, when the group has a column and a target per
planned field. -/
theorem map_rowOf {plan : List Planned} {columns : List (List Cell)}
    {targets : List (Option Nat)} (hc : columns.length = plan.length)
    (ht : targets.length = plan.length) (i : Nat) :
    (rowOf plan columns targets i).map (·.1.1) = plan := by
  have hzip : (plan.zip targets).length ≤ (columns.map (·.getD i .failed)).length := by
    simp [hc, ht]
  calc (rowOf plan columns targets i).map (·.1.1)
      _ = ((rowOf plan columns targets i).map Prod.fst).map Prod.fst := by rw [List.map_map]; rfl
      _ = plan := by
        rw [rowOf, List.map_fst_zip hzip, List.map_fst_zip (Nat.le_of_eq ht.symm)]

theorem nodup_keys_rowOf {plan : List Planned} {columns : List (List Cell)}
    {targets : List (Option Nat)} (hc : columns.length = plan.length)
    (ht : targets.length = plan.length) (hkeys : (plan.map Planned.key).Nodup) (i : Nat) :
    ((rowOf plan columns targets i).map (·.1.1.key)).Nodup := by
  have hcomp : (fun x : (Planned × Option Nat) × Cell ↦ x.1.1.key) =
      Planned.key ∘ fun x ↦ x.1.1 := rfl
  rw [hcomp, ← List.map_map, map_rowOf hc ht]
  exact hkeys

/-- The entry of an object under a key is the value of the field with that key, when the keys
of the fields differ. -/
theorem lookup_key_of_mem {values : List (Planned × Json)}
    (hkeys : (values.map (·.1.key)).Nodup) {pv : Planned × Json} (hpv : pv ∈ values) :
    (values.map fun pv ↦ (pv.1.key, pv.2)).lookup pv.1.key = some pv.2 := by
  induction values with
  | nil => cases hpv
  | cons qv values ih =>
    rw [List.map_cons, List.nodup_cons] at hkeys
    rcases List.mem_cons.mp hpv with rfl | hpv
    · simp
    · have hne : pv.1.key ≠ qv.1.key := fun heq ↦
        hkeys.1 (List.mem_map.mpr ⟨pv, hpv, heq⟩)
      simp [List.lookup_cons, beq_false_of_ne hne, ih hkeys.2 hpv]

/-! ### Values of cells -/

/-- Reading a range of indices gives one object per index, the object at that index. -/
theorem mapM_range'_eq_some {α : Type} {f : Nat → Option α} :
    ∀ {s n : Nat} {items : List α}, (List.range' s n).mapM f = some items →
      items.length = n ∧ ∀ k < n, items[k]? = f (s + k)
  | _, 0, items, h => by
    simp only [List.range'_zero, List.mapM_nil, pure, Option.some.injEq] at h
    subst h
    exact ⟨rfl, fun k hk ↦ absurd hk (Nat.not_lt_zero k)⟩
  | s, n + 1, items, h => by
    simp only [List.range'_succ, List.mapM_cons] at h
    cases hs : f s with
    | none => simp [hs] at h
    | some b =>
      cases hrest : (List.range' (s + 1) n).mapM f with
      | none => simp [hs, hrest] at h
      | some bs =>
        simp only [hs, hrest, Option.bind_eq_bind, Option.bind_some, pure,
          Option.some.injEq] at h
        subst h
        obtain ⟨hlen, hat⟩ := mapM_range'_eq_some hrest
        refine ⟨by simp [hlen], fun k hk ↦ ?_⟩
        cases k with
        | zero => simp [hs]
        | succ k =>
          rw [List.getElem?_cons_succ, hat k (by omega)]
          congr 1
          omega

/-- A cell whose value is a null not reported yet holds null itself. -/
theorem eq_ready_of_value {N : List (List (Option ObjectData))} {target : Option Nat}
    {cell : Cell} (hnull : isNull (cell.value N target).1 = true)
    (hreported : (cell.value N target).2 = false) : ∃ v, cell = .ready v := by
  cases cell with
  | ready v => exact ⟨v, rfl⟩
  | failed => simp [Cell.value] at hreported
  | object j =>
    cases h : takeChild N target j <;> simp [Cell.value, h, isNull] at hnull hreported
  | list s e =>
    cases h : (List.range' s (e - s)).mapM (takeChild N target) <;>
      simp [Cell.value, h, isNull] at hnull hreported

/-- The value of a cell that fits its field fits the field, unless the field may not be null and
the value is null; provided the objects of the next level fit their groups. -/
theorem valueFits_of_cellFits {next : List Group} {N : List (List (Option ObjectData))}
    (hN : ∀ t g, next[t]? = some g → ∀ j o, takeChild N (some t) j = some o →
      ObjectFits g.object g.selection o)
    {p : Planned} {target : Option Nat} {cell : Cell} (hcell : CellFits next p target cell)
    (hok : (isNull (cell.value N target).1 && !p.nullable) = false) :
    ValueFits p (cell.value N target).1 := by
  -- a null value passes where the field may be null
  have hnull : ∀ {v : Json}, v = .null → (isNull v && !p.nullable) = false → ValueFits p v := by
    rintro v rfl h
    exact .null (by simpa [isNull] using h)
  cases cell with
  | failed => exact hnull rfl hok
  | ready v =>
    obtain ⟨fd, hdef, hshape⟩ := hcell
    by_cases hv : v = .null
    · exact hnull hv hok
    · rcases hshape with hleaf | ⟨-, hv'⟩
      · exact .leaf hdef hleaf hv
      · exact absurd hv' hv
  | object j =>
    obtain ⟨fd, c, hdef, hs, t, g, rfl, hg, rfl, hsel⟩ := hcell
    simp only [Cell.value] at hok ⊢
    split
    · next o ho =>
      exact .object hdef hs (hsel ▸ hN t g hg j o ho)
    · exact hnull rfl (by simpa [Cell.value, *] using hok)
  | list s e =>
    obtain ⟨fd, c, hdef, hs, hle, htarget⟩ := hcell
    simp only [Cell.value] at hok ⊢
    split
    · next items hitems =>
      refine .list hdef hs fun o ho ↦ ?_
      obtain ⟨hlen, hat⟩ := mapM_range'_eq_some hitems
      obtain ⟨k, hk, hko⟩ := List.getElem_of_mem ho
      obtain ⟨t, g, rfl, hg, rfl, hsel⟩ := htarget (by omega)
      have hread := hat k (by omega)
      rw [List.getElem?_eq_getElem hk, hko] at hread
      exact hsel ▸ hN t g hg (s + k) o hread.symm
    · exact hnull rfl (by simpa [Cell.value, *] using hok)

/-- Following a path below an object of the next level from the cell pointing at it: the path
goes on from the cell's value, through the object's position in a list when the cell holds
one, and meets a null where it would below the object. -/
theorem reachesNull_value_of_childOf {N : List (List (Option ObjectData))} {t : Nat}
    {base : List PathSegment} {j : Nat} {m : Node} {cell : Cell} (hchild : ChildOf base j m cell)
    {rel : List PathSegment} (hnull : ReachesNull (objectJson (takeChild N (some t) j)) rel) :
    ∃ ext, m.path = base ++ ext ∧ ReachesNull (cell.value N (some t)).1 (ext ++ rel) := by
  cases cell with
  | ready v => exact hchild.elim
  | failed => exact hchild.elim
  | object j' =>
    obtain ⟨rfl, hpath⟩ := hchild
    refine ⟨[], by simpa using hpath, ?_⟩
    simp only [Cell.value, List.nil_append]
    split
    · next o ho =>
      rw [ho] at hnull
      exact hnull
    · exact reachesNull_null rel
  | list s e =>
    obtain ⟨hs, hj, hpath⟩ := hchild
    refine ⟨[.index (j - s)], hpath, ?_⟩
    simp only [Cell.value]
    split
    · next items hitems =>
      -- the object stands in the list at its index less the cell's first
      obtain ⟨hlen, hat⟩ := mapM_range'_eq_some hitems
      have hread := hat (j - s) (by omega)
      rw [Nat.add_sub_cancel' hs] at hread
      cases ho : takeChild N (some t) j with
      | none =>
        rw [ho, List.getElem?_eq_none_iff] at hread
        omega
      | some o =>
        rw [ho] at hread hnull
        exact ⟨.obj o, by simp [hread], hnull⟩
    · exact reachesNull_null _

/-! ### Objects put together -/

/-- Following a path from an object put together from its fields' values goes on from the value
of the field under the path's first key, when the keys differ; an object that could not be put
together is null. -/
theorem reachesNull_objectOfValues {values : List (Planned × Json)}
    (hkeys : (values.map (·.1.key)).Nodup) {pv : Planned × Json} (hpv : pv ∈ values)
    {rest : List PathSegment} (h : ReachesNull pv.2 rest) :
    ReachesNull (objectJson (objectOfValues values)) (.key pv.1.key :: rest) := by
  unfold objectOfValues
  split
  · exact reachesNull_null _
  · exact ⟨pv.2, lookup_key_of_mem hkeys hpv, h⟩

/-- An object put together from the values of a selection's plan fits the selection when each
value that does not break its field's nullability fits its field. -/
theorem objectFits_of_objectOfValues {values : List (Planned × Json)} {o : ObjectData}
    (h : objectOfValues values = some o) {t : ObjectType} {selection : List Field}
    (hplan : values.map Prod.fst = collectFields t selection)
    (hfits : ∀ pv ∈ values, (isNull pv.2 && !pv.1.nullable) = false → ValueFits pv.1 pv.2) :
    ObjectFits t selection o := by
  unfold objectOfValues at h
  split at h
  · cases h
  · next hany =>
    cases h
    refine .intro values hplan fun pv hpv ↦ hfits pv hpv ?_
    simp only [List.any_eq_true, not_exists, not_and] at hany
    simpa using hany pv hpv

/-- The object at index `i` of group `a` of a level put together is the one the values of its
row give, when the group has an object there. -/
theorem takeChild_assembleLevel (planned : List (Group × List Planned))
    (layouts : List (List (List Cell) × List (Option Nat))) (N : List (List (Option ObjectData)))
    (a i : Nat) :
    takeChild (assembleLevel planned layouts N).1 (some a) i =
      ((planned.zip layouts)[a]?).bind fun x ↦ (x.1.1.parents[i]?).bind fun _ ↦
        objectOfValues ((rowOf x.1.2 x.2.1 x.2.2 i).map fun x ↦
          (x.1.1, (x.2.value N x.1.2).1)) := by
  simp only [takeChild, assembleLevel, List.map_map, List.getElem?_map, Option.bind_some]
  cases (planned.zip layouts)[a]? with
  | none => rfl
  | some x =>
    obtain ⟨⟨g, plan⟩, columns, targets⟩ := x
    simp only [Option.map_some, Option.bind_some, Function.comp_apply, assembleGroup_fst,
      List.getElem?_map, List.getElem?_zipIdx, Option.map_map]
    cases g.parents[i]? with
    | none => rfl
    | some n =>
      simp only [Option.map_some, Function.comp_apply, Nat.zero_add, Option.join_some,
        Option.bind_some]
      rfl

/-- The object at an object's place in a level put together. -/
theorem takeChild_assembleLevel_of_getElem? {planned : List (Group × List Planned)}
    {layouts : List (List (List Cell) × List (Option Nat))} (N : List (List (Option ObjectData)))
    {a i : Nat} {g : Group} {plan : List Planned} {columns : List (List Cell)}
    {targets : List (Option Nat)} {n : Node} (hgp : planned[a]? = some (g, plan))
    (hl : layouts[a]? = some (columns, targets)) (hn : g.parents[i]? = some n) :
    takeChild (assembleLevel planned layouts N).1 (some a) i =
      objectOfValues ((rowOf plan columns targets i).map fun x ↦
        (x.1.1, (x.2.value N x.1.2).1)) := by
  rw [takeChild_assembleLevel]
  have hzip : (planned.zip layouts)[a]? = some ((g, plan), (columns, targets)) :=
    List.getElem?_zip_eq_some.mpr ⟨hgp, hl⟩
  simp [hzip, hn]

/-- An object of a level put together stands at a place of an object of a group. -/
theorem exists_of_takeChild_assembleLevel {planned : List (Group × List Planned)}
    {layouts : List (List (List Cell) × List (Option Nat))} {N : List (List (Option ObjectData))}
    {a i : Nat} {o : ObjectData}
    (h : takeChild (assembleLevel planned layouts N).1 (some a) i = some o) :
    ∃ g plan columns targets n, planned[a]? = some (g, plan) ∧
      layouts[a]? = some (columns, targets) ∧ g.parents[i]? = some n ∧
      objectOfValues ((rowOf plan columns targets i).map fun x ↦
        (x.1.1, (x.2.value N x.1.2).1)) = some o := by
  rw [takeChild_assembleLevel] at h
  obtain ⟨⟨⟨g, plan⟩, columns, targets⟩, hzip, h⟩ := Option.bind_eq_some_iff.mp h
  obtain ⟨n, hn, h⟩ := Option.bind_eq_some_iff.mp h
  obtain ⟨hgp, hl⟩ := List.getElem?_zip_eq_some.mp hzip
  exact ⟨g, plan, columns, targets, n, hgp, hl, hn, h⟩

/-! ### Errors of invalid fields -/

/-- Every error of an invalid planned field is the field's report at its path on the first
object of its group. -/
theorem eq_of_mem_invalidErrors {planned : List (Group × List Planned)} {e : ResponseError}
    (he : e ∈ invalidErrors planned) :
    ∃ (a : Nat) (g : Group) (plan : List Planned) (n : Node) (p : Planned) (err : ResolveError),
      planned[a]? = some (g, plan) ∧ g.parents[0]? = some n ∧ p ∈ plan ∧
        p.definition = .error err ∧ e = ResponseError.atPath (n.path ++ [.key p.key]) err := by
  obtain ⟨⟨g, plan⟩, hgp, he⟩ := List.mem_flatMap.mp he
  obtain ⟨a, ha⟩ := List.mem_iff_getElem?.mp hgp
  simp only [List.head?_eq_getElem?] at he
  cases hn : g.parents[0]? with
  | none => simp [hn] at he
  | some n =>
    simp only [hn, List.mem_filterMap] at he
    obtain ⟨p, hp, hpe⟩ := he
    cases hdef : p.definition with
    | ok fd => simp [hdef] at hpe
    | error err =>
      simp only [hdef, Option.some.injEq] at hpe
      exact ⟨a, g, plan, n, p, err, ha, hn, hp, hdef, hpe.symm⟩

/-- Every error of an invalid planned field stands at the path of the field on the first object
of its group. -/
theorem mem_invalidErrors {planned : List (Group × List Planned)} {e : ResponseError}
    (he : e ∈ invalidErrors planned) :
    ∃ (a : Nat) (g : Group) (plan : List Planned) (n : Node) (p : Planned),
      planned[a]? = some (g, plan) ∧ g.parents[0]? = some n ∧ p ∈ plan ∧
        (∃ err, p.definition = .error err) ∧ e.path = some (n.path ++ [.key p.key]) := by
  obtain ⟨a, g, plan, n, p, err, ha, hn, hp, hdef, rfl⟩ := eq_of_mem_invalidErrors he
  exact ⟨a, g, plan, n, p, ha, hn, hp, ⟨err, hdef⟩, rfl⟩

/-- An invalid planned field of a group with objects is reported at its path on the group's
first object. -/
theorem mem_invalidErrors_of {planned : List (Group × List Planned)} {g : Group}
    {plan : List Planned} (hgp : (g, plan) ∈ planned) {n : Node} (hn : g.parents.head? = some n)
    {p : Planned} (hp : p ∈ plan) {err : ResolveError} (hdef : p.definition = .error err) :
    ResponseError.atPath (n.path ++ [.key p.key]) err ∈ invalidErrors planned := by
  refine List.mem_flatMap.mpr ⟨(g, plan), hgp, ?_⟩
  simp only [hn, List.mem_filterMap]
  exact ⟨p, hp, by simp [hdef]⟩

/-- The error of a group's invalid field stands at the field's path on the group's first
object. -/
theorem path_of_mem_fieldError {n : Node} {p : Planned} {e : ResponseError}
    (he : e ∈ (match p.definition with
      | .error err => some (ResponseError.atPath (n.path ++ [PathSegment.key p.key]) err)
      | .ok _ => none : Option ResponseError)) :
    e.path = some (n.path ++ [.key p.key]) := by
  cases hdef : p.definition <;> simp [hdef] at he
  rw [← he]
  rfl

/-- The errors of invalid fields are apart: within a group they are below different keys of
its first object, and the groups' objects lie apart. -/
theorem pairwise_invalidErrors {planned : List (Group × List Planned)}
    (hapart : planned.Pairwise fun gp gp' ↦
      ∀ n ∈ gp.1.parents, ∀ n' ∈ gp'.1.parents, PathsApart n.path n'.path)
    (hkeys : ∀ gp ∈ planned, (gp.2.map Planned.key).Nodup) :
    (invalidErrors planned).Pairwise ErrorsApart := by
  refine List.pairwise_flatMap.mpr ⟨fun gp hgp ↦ ?_, hapart.imp fun hgg e he e' he' ↦ ?_⟩
  · obtain ⟨g, plan⟩ := gp
    simp only [List.head?_eq_getElem?]
    cases hn : g.parents[0]? with
    | none => exact List.Pairwise.nil
    | some n =>
      refine List.pairwise_filterMap.mpr ((List.pairwise_map.mp (hkeys _ hgp)).imp ?_)
      intro p q hpq e he e' he'
      exact errorsApart_field (Or.inl rfl) (fun _ ↦ hpq) (.of_path (path_of_mem_fieldError he))
        (.of_path (path_of_mem_fieldError he'))
  · -- errors of different groups are below objects of different groups
    have hbelow : ∀ gp (e : ResponseError), e ∈ invalidErrors [gp] → ∃ n ∈ gp.1.parents,
        e.Below n.path := by
      intro gp e he
      obtain ⟨a, g, plan, n, p, ha, hn, -, -, hpath⟩ := mem_invalidErrors he
      have hgp : (g, plan) = gp := by simpa using List.mem_of_getElem? ha
      subst hgp
      exact ⟨n, List.mem_of_getElem? hn, _, hpath⟩
    obtain ⟨n, hn, hen⟩ := hbelow _ e (by simpa [invalidErrors] using he)
    obtain ⟨n', hn', hen'⟩ := hbelow _ e' (by simpa [invalidErrors] using he')
    exact errorsApart_of_below hen hen' (hgg n hn n' hn')

/-! ### Errors of null fields that may not be null -/

section Assembly

variable (t : ObjectType) (N : List (List (Option ObjectData))) (node : Node)

theorem assembleFields_cons_errors (x : (Planned × Option Nat) × Cell)
    (xs : List ((Planned × Option Nat) × Cell)) :
    (assembleFields t N node (x :: xs)).2.2 =
      (if (isNull (x.2.value N x.1.2).1 && !x.1.1.nullable) && !(x.2.value N x.1.2).2 then
        [ResponseError.atPath (node.path ++ [.key x.1.1.key])
          (.nullability t.name x.1.1.field.name)]
      else []) ++ (assembleFields t N node xs).2.2 := by
  obtain ⟨⟨p, target⟩, cell⟩ := x
  simp only [assembleFields]

/-- Every nullability error of an object stands at a field that may not be null, whose cell's
value is a null not reported yet. -/
theorem mem_assembleFields_errors {xs : List ((Planned × Option Nat) × Cell)} {e : ResponseError}
    (he : e ∈ (assembleFields t N node xs).2.2) :
    ∃ x ∈ xs, isNull (x.2.value N x.1.2).1 = true ∧ (x.2.value N x.1.2).2 = false ∧
      x.1.1.nullable = false ∧ e.path = some (node.path ++ [.key x.1.1.key]) := by
  induction xs with
  | nil => cases he
  | cons x xs ih =>
    rw [assembleFields_cons_errors] at he
    rcases List.mem_append.mp he with he | he
    · split at he
      · next hviolated =>
        rw [List.mem_singleton.mp he]
        simp only [Bool.and_eq_true, Bool.not_eq_true'] at hviolated
        exact ⟨x, List.mem_cons_self, hviolated.1.1, hviolated.2, hviolated.1.2, rfl⟩
      · cases he
    · obtain ⟨y, hy, hrest⟩ := ih he
      exact ⟨y, List.mem_cons_of_mem _ hy, hrest⟩

/-- The nullability errors of an object are apart: they are below different keys. -/
theorem pairwise_assembleFields_errors {xs : List ((Planned × Option Nat) × Cell)}
    (hkeys : (xs.map (·.1.1.key)).Nodup) :
    (assembleFields t N node xs).2.2.Pairwise ErrorsApart := by
  induction xs with
  | nil => exact List.Pairwise.nil
  | cons x xs ih =>
    rw [List.map_cons, List.nodup_cons] at hkeys
    rw [assembleFields_cons_errors]
    refine List.pairwise_append.mpr ⟨?_, ih hkeys.2, fun e he e' he' ↦ ?_⟩
    · split <;> simp
    · have hpath : e.path = some (node.path ++ [.key x.1.1.key]) := by
        split at he
        · rw [List.mem_singleton.mp he]
          rfl
        · cases he
      obtain ⟨y, hy, -, -, -, hpath'⟩ := mem_assembleFields_errors t N node he'
      have hkey : x.1.1.key ≠ y.1.1.key := fun heq ↦
        hkeys.1 (List.mem_map.mpr ⟨y, hy, heq.symm⟩)
      exact errorsApart_field (Or.inl rfl) (fun _ ↦ hkey) (.of_path hpath)
        (.of_path hpath')

theorem assemble_snd (plan : List Planned) (targets : List (Option Nat)) (row : List Cell) :
    (assemble t plan targets N node row).2 =
      (assembleFields t N node ((plan.zip targets).zip row)).2.2 := by
  simp only [assemble]

end Assembly

theorem assembleGroup_snd (g : Group) (plan : List Planned) (columns : List (List Cell))
    (targets : List (Option Nat)) (N : List (List (Option ObjectData))) :
    (assembleGroup g plan columns targets N).2 = g.parents.zipIdx.flatMap fun x ↦
      (assembleFields g.object N x.1 (rowOf plan columns targets x.2)).2.2 := by
  simp only [assembleGroup, List.flatMap_map, assemble_snd]
  rfl

/-- Every nullability error of a group stands at a field that may not be null on one of its
objects, whose cell's value is a null not reported yet. -/
theorem mem_assembleGroup_errors {g : Group} {plan : List Planned} {columns : List (List Cell)}
    {targets : List (Option Nat)} {N : List (List (Option ObjectData))} {e : ResponseError}
    (he : e ∈ (assembleGroup g plan columns targets N).2) :
    ∃ (i : Nat) (n : Node), g.parents[i]? = some n ∧ ∃ x ∈ rowOf plan columns targets i,
      isNull (x.2.value N x.1.2).1 = true ∧ (x.2.value N x.1.2).2 = false ∧
        x.1.1.nullable = false ∧ e.path = some (n.path ++ [.key x.1.1.key]) := by
  rw [assembleGroup_snd] at he
  obtain ⟨⟨n, i⟩, hni, he⟩ := List.mem_flatMap.mp he
  exact ⟨i, n, List.mk_mem_zipIdx_iff_getElem?.mp hni, mem_assembleFields_errors _ _ _ he⟩

/-- The nullability errors of a group over objects that lie apart are apart. -/
theorem pairwise_assembleGroup_errors {g : Group} {plan : List Planned}
    {columns : List (List Cell)} {targets : List (Option Nat)}
    (N : List (List (Option ObjectData)))
    (hparents : g.parents.Pairwise fun n n' ↦ PathsApart n.path n'.path)
    (hc : columns.length = plan.length) (ht : targets.length = plan.length)
    (hkeys : (plan.map Planned.key).Nodup) :
    (assembleGroup g plan columns targets N).2.Pairwise ErrorsApart := by
  rw [assembleGroup_snd]
  have hzip : g.parents.zipIdx.Pairwise fun x y ↦ PathsApart x.1.path y.1.path :=
    List.Pairwise.of_map Prod.fst (fun _ _ h ↦ h) (by rwa [List.zipIdx_map_fst])
  refine List.pairwise_flatMap.mpr ⟨fun x _ ↦ ?_, hzip.imp fun hxy e he e' he' ↦ ?_⟩
  · exact pairwise_assembleFields_errors _ _ _ (nodup_keys_rowOf hc ht hkeys x.2)
  · obtain ⟨x, -, -, -, -, hpath⟩ := mem_assembleFields_errors _ _ _ he
    obtain ⟨x', -, -, -, -, hpath'⟩ := mem_assembleFields_errors _ _ _ he'
    exact errorsApart_of_below ⟨_, hpath⟩ ⟨_, hpath'⟩ hxy

theorem assembleLevel_snd (planned : List (Group × List Planned))
    (layouts : List (List (List Cell) × List (Option Nat))) (N : List (List (Option ObjectData))) :
    (assembleLevel planned layouts N).2 = (planned.zip layouts).flatMap fun x ↦
      (assembleGroup x.1.1 x.1.2 x.2.1 x.2.2 N).2 := by
  simp only [assembleLevel, List.flatMap_map]

/-- Every nullability error of a level stands at an entry of an object's row: a field that may
not be null, whose cell's value is a null not reported yet. -/
theorem mem_assembleLevel_errors {planned : List (Group × List Planned)}
    {layouts : List (List (List Cell) × List (Option Nat))} {N : List (List (Option ObjectData))}
    {e : ResponseError} (he : e ∈ (assembleLevel planned layouts N).2) :
    ∃ n x, InRow planned layouts n x ∧ isNull (x.2.value N x.1.2).1 = true ∧
      (x.2.value N x.1.2).2 = false ∧ x.1.1.nullable = false ∧
        e.path = some (n.path ++ [.key x.1.1.key]) := by
  rw [assembleLevel_snd] at he
  obtain ⟨⟨⟨g, plan⟩, columns, targets⟩, hx, he⟩ := List.mem_flatMap.mp he
  obtain ⟨a, ha⟩ := List.mem_iff_getElem?.mp hx
  obtain ⟨hgp, hl⟩ := List.getElem?_zip_eq_some.mp ha
  obtain ⟨i, n, hn, x, hxr, hrest⟩ := mem_assembleGroup_errors he
  exact ⟨n, x, ⟨a, (g, plan), (columns, targets), i, hgp, hl, hn, hxr⟩, hrest⟩

/-- The nullability errors of a level whose objects lie apart are apart. -/
theorem pairwise_assembleLevel_errors {planned : List (Group × List Planned)}
    {layouts : List (List (List Cell) × List (Option Nat))} (N : List (List (Option ObjectData)))
    (hlen : layouts.length = planned.length)
    (hwidths : ∀ (a : Nat) (gp : Group × List Planned) (l : List (List Cell) × List (Option Nat)),
      planned[a]? = some gp → layouts[a]? = some l →
        l.1.length = gp.2.length ∧ l.2.length = gp.2.length)
    (hapart : planned.Pairwise fun gp gp' ↦
      ∀ n ∈ gp.1.parents, ∀ n' ∈ gp'.1.parents, PathsApart n.path n'.path)
    (hparents : ∀ gp ∈ planned, gp.1.parents.Pairwise fun n n' ↦ PathsApart n.path n'.path)
    (hkeys : ∀ gp ∈ planned, (gp.2.map Planned.key).Nodup) :
    (assembleLevel planned layouts N).2.Pairwise ErrorsApart := by
  rw [assembleLevel_snd]
  have hzip : (planned.zip layouts).Pairwise fun x y ↦
      ∀ n ∈ x.1.1.parents, ∀ n' ∈ y.1.1.parents, PathsApart n.path n'.path :=
    List.Pairwise.of_map Prod.fst (fun _ _ h ↦ h)
      (by rwa [List.map_fst_zip (Nat.le_of_eq hlen.symm)])
  refine List.pairwise_flatMap.mpr ⟨fun x hx ↦ ?_, hzip.imp fun hxy e he e' he' ↦ ?_⟩
  · obtain ⟨a, ha⟩ := List.mem_iff_getElem?.mp hx
    obtain ⟨hgp, hl⟩ := List.getElem?_zip_eq_some.mp ha
    obtain ⟨hc, ht⟩ := hwidths a x.1 x.2 hgp hl
    exact pairwise_assembleGroup_errors N (hparents x.1 (List.mem_of_getElem? hgp)) hc ht
      (hkeys x.1 (List.mem_of_getElem? hgp))
  · obtain ⟨i, n, hn, x, -, -, -, -, hpath⟩ := mem_assembleGroup_errors he
    obtain ⟨i', n', hn', x', -, -, -, -, hpath'⟩ := mem_assembleGroup_errors he'
    exact errorsApart_of_below ⟨_, hpath⟩ ⟨_, hpath'⟩
      (hxy n (List.mem_of_getElem? hn) n' (List.mem_of_getElem? hn'))

end SocialGraph
