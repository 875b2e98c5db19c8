import SocialGraph.Proofs.LayoutFrame

/-!
# Objects that two runs put together

Two runs of a level that lay out the same cells may still put different objects together:
the objects of the next level they read differ, or one plan has a planned field the other
lacks. This module relates what they put together. `Json.Lift R` relates two values of an
object field whose objects are in `R`; `NestedAgree i R` relates the objects of two next
levels that agree at every group but the `i`-th. A cell reads related values when it points
into related objects (`lift_value_ofOutcome`); a row reads equal values when none of its cells
points at the group where the runs differ (`rowValues_congr`). So a group puts together the
same objects, except that a failed nullable field standing in one plan only puts its key in
with null (`assembleGroup_insert`), and a field whose objects differ puts related values at
its key (`assembleGroup_twin`).
-/

namespace SocialGraph

/-! ### Related values and objects -/

/-- Two values of an object field that agree up to a relation between the objects they hold:
both null, two objects in the relation, or two lists of objects pairwise in it. -/
inductive Json.Lift (R : ObjectData → ObjectData → Prop) : Json → Json → Prop
  | null : Json.Lift R .null .null
  | obj {o o' : ObjectData} : R o o' → Json.Lift R (.obj o) (.obj o')
  | arr {os os' : List ObjectData} :
      List.Forall₂ R os os' → Json.Lift R (.arr (os.map .obj)) (.arr (os'.map .obj))

theorem Json.Lift.isNull_eq {R : ObjectData → ObjectData → Prop} {v w : Json}
    (h : Json.Lift R v w) : isNull v = isNull w := by
  cases h <;> rfl

theorem Json.Lift.eq {v w : Json} (h : Json.Lift Eq v w) : v = w := by
  cases h with
  | null => rfl
  | obj h => rw [h]
  | arr h =>
    have hos : ∀ {os os' : List ObjectData}, List.Forall₂ Eq os os' → os = os' := by
      intro os os' h
      induction h with
      | nil => rfl
      | cons hab _ ih => rw [hab, ih]
    rw [hos h]

/-- `Inserted k o o'`: the object `o` is `o'` with the key `k` put in, with null. -/
def Inserted (k : String) (o o' : ObjectData) : Prop :=
  ∃ pre post, o = pre ++ (k, .null) :: post ∧ o' = pre ++ post

/-- `AtKey a V o o'`: the objects agree but at the key `a`, where their values are in `V`. -/
def AtKey (a : String) (V : Json → Json → Prop) (o o' : ObjectData) : Prop :=
  ∃ pre post v v', o = pre ++ (a, v) :: post ∧ o' = pre ++ (a, v') :: post ∧ V v v'

/-- Objects that agree but at a key where they hold equal values are equal. -/
theorem AtKey.eq {a : String} {o o' : ObjectData} (h : AtKey a Eq o o') : o = o' := by
  obtain ⟨pre, post, v, v', rfl, rfl, rfl⟩ := h
  rfl

/-- The objects that two runs put together for the groups of a level agree at every group
but the `i`-th, whose objects are pairwise in a relation. -/
structure NestedAgree (i : Nat) (R : ObjectData → ObjectData → Prop)
    (N N' : List (List (Option ObjectData))) : Prop where
  others : ∀ j, j ≠ i → N[j]? = N'[j]?
  at_i : Option.Rel (List.Forall₂ (Option.Rel R)) N[i]? N'[i]?

/-- Lists that agree but at one place, where they hold related lists, agree at every other
index. -/
theorem nestedAgree_of_eq {R : ObjectData → ObjectData → Prop}
    (U V : List (List (Option ObjectData))) {xs xs' : List (Option ObjectData)}
    (h : List.Forall₂ (Option.Rel R) xs xs') :
    NestedAgree U.length R (U ++ xs :: V) (U ++ xs' :: V) := by
  refine ⟨fun j hj ↦ ?_, ?_⟩
  · rcases Nat.lt_or_ge j U.length with hlt | hge
    · rw [List.getElem?_append_left hlt, List.getElem?_append_left hlt]
    · have hgt : U.length < j := Nat.lt_of_le_of_ne hge (Ne.symm hj)
      rw [List.getElem?_append_right hge, List.getElem?_append_right hge]
      obtain ⟨k, hk⟩ : ∃ k, j - U.length = k + 1 := ⟨j - U.length - 1, by omega⟩
      rw [hk]
      rfl
  · simpa using Option.Rel.some h

theorem NestedAgree.mono {i : Nat} {R R' : ObjectData → ObjectData → Prop}
    {N N' : List (List (Option ObjectData))} (h : NestedAgree i R N N')
    (hR : ∀ o o', R o o' → R' o o') : NestedAgree i R' N N' := by
  refine ⟨h.others, ?_⟩
  have hat := h.at_i
  generalize N[i]? = a at hat ⊢
  generalize N'[i]? = a' at hat ⊢
  cases hat with
  | none => exact .none
  | some hxy =>
    refine .some (hxy.imp fun x y hx ↦ ?_)
    cases hx with
    | none => exact .none
    | some hxy' => exact .some (hR _ _ hxy')

/-- Two runs that put together the same objects agree up to equality. -/
theorem nestedAgree_refl (i : Nat) (N : List (List (Option ObjectData))) : NestedAgree i Eq N N := by
  refine ⟨fun _ _ ↦ rfl, ?_⟩
  generalize N[i]? = a
  cases a with
  | none => exact .none
  | some xs =>
    refine .some (List.forall₂_same.mpr fun x _ ↦ ?_)
    cases x with
    | none => exact .none
    | some o => exact .some rfl

/-! ### Reading the next level -/

theorem takeChild_congr {N N' : List (List (Option ObjectData))} {target : Option Nat}
    (h : ∀ j, target = some j → N[j]? = N'[j]?) : takeChild N target = takeChild N' target := by
  funext k
  cases target with
  | none => rfl
  | some j => simp only [takeChild, Option.bind_some, h j rfl]

/-- A cell reads the same value from two next levels that agree where it points. -/
theorem Cell.value_congr {N N' : List (List (Option ObjectData))} {target : Option Nat}
    (h : ∀ j, target = some j → N[j]? = N'[j]?) (cell : Cell) :
    cell.value N target = cell.value N' target := by
  have hchild := takeChild_congr h
  cases cell <;> simp only [Cell.value, hchild]

theorem rel_join_getElem? {R : ObjectData → ObjectData → Prop}
    {xs ys : List (Option ObjectData)} (h : List.Forall₂ (Option.Rel R) xs ys) (k : Nat) :
    Option.Rel R (xs[k]?.join) (ys[k]?.join) := by
  induction h generalizing k with
  | nil => exact .none
  | cons hab _ ih =>
    cases k with
    | zero => simpa using hab
    | succ k => simpa using ih k

/-- At the group where two next levels differ, a cell reads related objects. -/
theorem takeChild_rel {i : Nat} {R : ObjectData → ObjectData → Prop}
    {N N' : List (List (Option ObjectData))} (h : NestedAgree i R N N') (k : Nat) :
    Option.Rel R (takeChild N (some i) k) (takeChild N' (some i) k) := by
  have hat := h.at_i
  simp only [takeChild, Option.bind_some]
  generalize N[i]? = a at hat ⊢
  generalize N'[i]? = b at hat ⊢
  cases hat with
  | none => exact .none
  | some hxy => simpa using rel_join_getElem? hxy k

/-- Reading related options at every index reads related lists. -/
theorem rel_mapM {α β γ : Type} {R : β → γ → Prop} {f : α → Option β} {g : α → Option γ}
    (h : ∀ a, Option.Rel R (f a) (g a)) :
    ∀ l : List α, Option.Rel (List.Forall₂ R) (l.mapM f) (l.mapM g)
  | [] => .some .nil
  | a :: l => by
    have ha := h a
    have hl := rel_mapM h l
    simp only [List.mapM_cons]
    generalize f a = x, g a = y at ha ⊢
    generalize l.mapM f = xs, l.mapM g = ys at hl ⊢
    cases ha with
    | none => exact .none
    | some hab =>
      cases hl with
      | none => exact .none
      | some hxy => exact .some (.cons hab hxy)

/-- A cell of an outcome of an object field reads related values from two next levels that
read related objects where it points. -/
theorem lift_value_ofOutcome {R : ObjectData → ObjectData → Prop}
    {N N' : List (List (Option ObjectData))} {target : Option Nat}
    (h : ∀ k, Option.Rel R (takeChild N target k) (takeChild N' target k))
    {shape : Shape} (hshape : shape ≠ .leaf) (s : Nat) {o : Outcome} (ho : o.Fits shape) :
    Json.Lift R ((Cell.ofOutcome s o).value N target).1
      ((Cell.ofOutcome s o).value N' target).1 := by
  rcases o with e | (v | r | rs)
  · exact .null
  · cases shape <;> simp_all [Outcome.Fits, Settled.Fits]
  · cases r with
    | none => exact .null
    | some r =>
      have hs := h s
      simp only [Cell.ofOutcome, Cell.value]
      generalize takeChild N target s = x, takeChild N' target s = y at hs ⊢
      cases hs with
      | none => exact .null
      | some hxy => exact .obj hxy
  · have hl := rel_mapM h (List.range' s (s + rs.length - s))
    simp only [Cell.ofOutcome, Cell.value]
    generalize (List.range' s (s + rs.length - s)).mapM (takeChild N target) = x,
      (List.range' s (s + rs.length - s)).mapM (takeChild N' target) = y at hl ⊢
    cases hl with
    | none => exact .null
    | some hxy => exact .arr hxy

/-- Every row of a column of outcomes of an object field reads related values. -/
theorem lift_getD_cellsFrom {R : ObjectData → ObjectData → Prop}
    {N N' : List (List (Option ObjectData))} {target : Option Nat}
    (h : ∀ k, Option.Rel R (takeChild N target k) (takeChild N' target k))
    {shape : Shape} (hshape : shape ≠ .leaf) {os : List Outcome} (hfit : ∀ o ∈ os, o.Fits shape)
    (start r : Nat) :
    Json.Lift R (((cellsFrom start os).getD r .failed).value N target).1
      (((cellsFrom start os).getD r .failed).value N' target).1 := by
  rw [List.getD_eq_getElem?_getD]
  cases hr : (cellsFrom start os)[r]? with
  | none => exact .null
  | some cell =>
    obtain ⟨s, o, ho, rfl⟩ := mem_cellsFrom (List.mem_of_getElem? hr)
    exact lift_value_ofOutcome h hshape s (hfit o ho)

/-! ### Putting objects together -/

/-- A nullable field that is null in one object only puts its key in with null. -/
theorem objectOfValues_insert {p : Planned} (hp : p.nullable = true)
    (xs ys : List (Planned × Json)) :
    Option.Rel (Inserted p.key) (objectOfValues (xs ++ (p, .null) :: ys))
      (objectOfValues (xs ++ ys)) := by
  unfold objectOfValues
  have hany : (xs ++ (p, .null) :: ys).any (fun x ↦ isNull x.2 && !x.1.nullable) =
      (xs ++ ys).any (fun x ↦ isNull x.2 && !x.1.nullable) := by
    simp [hp]
  rw [hany]
  split
  · exact .none
  · exact .some ⟨xs.map fun x ↦ (x.1.key, x.2), ys.map fun x ↦ (x.1.key, x.2), by simp, by simp⟩

/-- Two fields with the same key whose values are related, by a relation that relates nulls
only to nulls, put related values at that key. -/
theorem objectOfValues_twin {V : Json → Json → Prop} (hV : ∀ v w, V v w → isNull v = isNull w)
    {p q : Planned} (hkey : p.key = q.key) (hnull : p.nullable = q.nullable) {v w : Json}
    (hvw : V v w) (xs ys : List (Planned × Json)) :
    Option.Rel (AtKey p.key V) (objectOfValues (xs ++ (p, v) :: ys))
      (objectOfValues (xs ++ (q, w) :: ys)) := by
  unfold objectOfValues
  have hany : (xs ++ (p, v) :: ys).any (fun x ↦ isNull x.2 && !x.1.nullable) =
      (xs ++ (q, w) :: ys).any (fun x ↦ isNull x.2 && !x.1.nullable) := by
    simp [hnull, hV v w hvw]
  rw [hany]
  split
  · exact .none
  · exact .some ⟨xs.map fun x ↦ (x.1.key, x.2), ys.map fun x ↦ (x.1.key, x.2), v, w, by simp,
      by simp [hkey], hvw⟩

/-! ### Rows and groups -/

section Rows

variable (N : List (List (Option ObjectData)))

theorem rowValues_append {plan₁ : List Planned} (plan₂ : List Planned)
    {targets₁ : List (Option Nat)} (targets₂ : List (Option Nat)) {row₁ : List Cell}
    (row₂ : List Cell) (h₁ : plan₁.length = targets₁.length) (h₂ : targets₁.length = row₁.length) :
    rowValues N (plan₁ ++ plan₂) (targets₁ ++ targets₂) (row₁ ++ row₂) =
      rowValues N plan₁ targets₁ row₁ ++ rowValues N plan₂ targets₂ row₂ := by
  unfold rowValues
  rw [List.zip_append h₁, List.zip_append (by simpa [List.length_zip, h₁] using h₂),
    List.map_append]

theorem rowValues_cons (p : Planned) (plan : List Planned) (target : Option Nat)
    (targets : List (Option Nat)) (cell : Cell) (row : List Cell) :
    rowValues N (p :: plan) (target :: targets) (cell :: row) =
      (p, (cell.value N target).1) :: rowValues N plan targets row :=
  rfl

end Rows

/-- A row reads the same values from two next levels that agree wherever it points. -/
theorem rowValues_congr {N N' : List (List (Option ObjectData))} {plan : List Planned}
    {targets : List (Option Nat)} {row : List Cell}
    (h : ∀ tg ∈ targets, ∀ j, tg = some j → N[j]? = N'[j]?) :
    rowValues N plan targets row = rowValues N' plan targets row := by
  unfold rowValues
  refine List.map_congr_left fun x hx ↦ ?_
  rw [Cell.value_congr (h x.1.2 (List.of_mem_zip (List.of_mem_zip hx).1).2) x.2]

/-- A group puts the same objects together from two next levels that agree wherever its
cells point. -/
theorem assembleGroup_congr {g g' : Group} (hpar : g.parents = g'.parents) {plan : List Planned}
    {columns : List (List Cell)} {targets : List (Option Nat)}
    {N N' : List (List (Option ObjectData))}
    (h : ∀ tg ∈ targets, ∀ j, tg = some j → N[j]? = N'[j]?) :
    (assembleGroup g plan columns targets N).1 = (assembleGroup g' plan columns targets N').1 := by
  rw [assembleGroup_fst, assembleGroup_fst, hpar]
  exact List.map_congr_left fun x _ ↦ by rw [rowValues_congr h]

/-- A nullable field that fails on every object of a group and stands in one plan only puts
its key in every object, with null. -/
theorem assembleGroup_insert {g g' : Group} (hpar : g.parents = g'.parents)
    {P Q : List Planned} {e : Planned} (he : e.nullable = true) {CP CQ : List (List Cell)}
    {TP TQ : List (Option Nat)} (hP : P.length = TP.length) (hT : TP.length = CP.length)
    (N : List (List (Option ObjectData))) :
    List.Forall₂ (Option.Rel (Inserted e.key))
      (assembleGroup g (P ++ e :: Q) (CP ++ (g.parents.map fun _ ↦ .failed) :: CQ)
        (TP ++ none :: TQ) N).1
      (assembleGroup g' (P ++ Q) (CP ++ CQ) (TP ++ TQ) N).1 := by
  rw [assembleGroup_fst, assembleGroup_fst, ← hpar, List.forall₂_map_left_iff,
    List.forall₂_map_right_iff]
  refine List.forall₂_same.mpr fun x _ ↦ ?_
  -- the field's cell is a failure on every row, so it reads null
  have hfail : (g.parents.map fun _ ↦ Cell.failed).getD x.2 .failed = .failed := by
    rw [List.getD_eq_getElem?_getD, List.getElem?_map]
    cases g.parents[x.2]? <;> rfl
  have hrow : TP.length = (CP.map (·.getD x.2 .failed)).length := by simp [hT]
  simp only [List.map_append, List.map_cons, hfail]
  rw [rowValues_append N _ _ _ hP hrow, rowValues_append N _ _ _ hP hrow, rowValues_cons]
  exact objectOfValues_insert he _ _

/-- A field with the same key and nullability in two plans of a group, whose cells read
related values from the two next levels, while every other cell points where they agree:
the objects agree but at the field's key. -/
theorem assembleGroup_twin {V : Json → Json → Prop} (hV : ∀ v w, V v w → isNull v = isNull w)
    {g g' : Group} (hpar : g.parents = g'.parents) {P Q : List Planned} {p q : Planned}
    (hkey : p.key = q.key) (hnull : p.nullable = q.nullable) {CP CQ : List (List Cell)}
    {col : List Cell} {TP TQ : List (Option Nat)} {tg : Option Nat} (hP : P.length = TP.length)
    (hT : TP.length = CP.length) {N N' : List (List (Option ObjectData))}
    (hagree : ∀ tg' ∈ TP ++ TQ, ∀ j, tg' = some j → N[j]? = N'[j]?)
    (hcol : ∀ r, V ((col.getD r .failed).value N tg).1 ((col.getD r .failed).value N' tg).1) :
    List.Forall₂ (Option.Rel (AtKey p.key V))
      (assembleGroup g (P ++ p :: Q) (CP ++ col :: CQ) (TP ++ tg :: TQ) N).1
      (assembleGroup g' (P ++ q :: Q) (CP ++ col :: CQ) (TP ++ tg :: TQ) N').1 := by
  rw [assembleGroup_fst, assembleGroup_fst, ← hpar, List.forall₂_map_left_iff,
    List.forall₂_map_right_iff]
  refine List.forall₂_same.mpr fun x _ ↦ ?_
  have hrow : TP.length = (CP.map (·.getD x.2 .failed)).length := by simp [hT]
  simp only [List.map_append, List.map_cons]
  rw [rowValues_append N _ _ _ hP hrow, rowValues_append N' _ _ _ hP hrow, rowValues_cons,
    rowValues_cons]
  -- the fields before and after read where the next levels agree
  rw [@rowValues_congr N N' P _ _ fun tg' h ↦ hagree tg' (List.mem_append_left _ h),
    @rowValues_congr N N' Q _ _ fun tg' h ↦ hagree tg' (List.mem_append_right _ h)]
  exact objectOfValues_twin hV hkey hnull (hcol x.2) _ _

/-! ### Levels -/

/-- Putting a level together in parts: the groups before a group, the group, and those after
it. -/
theorem assembleLevel_fst_append {X : List (Group × List Planned)} (Y : List (Group × List Planned))
    (x : Group × List Planned) {LX : List (List (List Cell) × List (Option Nat))}
    (LY : List (List (List Cell) × List (Option Nat))) (l : List (List Cell) × List (Option Nat))
    (hX : X.length = LX.length) (N : List (List (Option ObjectData))) :
    (assembleLevel (X ++ x :: Y) (LX ++ l :: LY) N).1 =
      (assembleLevel X LX N).1 ++ (assembleGroup x.1 x.2 l.1 l.2 N).1 :: (assembleLevel Y LY N).1 := by
  simp [assembleLevel, List.zip_append hX]

theorem length_assembleLevel_fst {X : List (Group × List Planned)}
    {LX : List (List (List Cell) × List (Option Nat))} (hX : X.length = LX.length)
    (N : List (List (Option ObjectData))) : (assembleLevel X LX N).1.length = X.length := by
  simp [assembleLevel, hX]

/-- A level puts the same objects together from two next levels that agree wherever its cells
point. -/
theorem assembleLevel_congr {planned : List (Group × List Planned)}
    {layouts : List (List (List Cell) × List (Option Nat))} {N N' : List (List (Option ObjectData))}
    (h : ∀ l ∈ layouts, ∀ tg ∈ l.2, ∀ j, tg = some j → N[j]? = N'[j]?) :
    (assembleLevel planned layouts N).1 = (assembleLevel planned layouts N').1 := by
  unfold assembleLevel
  simp only [List.map_map]
  refine List.map_congr_left fun x hx ↦ ?_
  obtain ⟨⟨g, plan⟩, columns, targets⟩ := x
  exact assembleGroup_congr rfl (h _ (List.of_mem_zip hx).2)

end SocialGraph
