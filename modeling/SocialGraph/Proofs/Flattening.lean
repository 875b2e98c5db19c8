import SocialGraph.Selection.OfDocument

/-!
# Runs of flattening that succeed

`flatten` recurses on the fragments it expands as well as on the selections it reads, so it is
defined by well-founded recursion and proofs do not unfold it. They go through `Flattens`, the
relation of its successful runs: one rule for each way a selection is handled (a field kept or
skipped by its directives; a spread expanded, dropped because no object can meet both its type
condition and the one in force, or skipped; an inline fragment the same), and
`flatten_eq_ok_iff`, by which the runs that succeed are exactly the derivations of `Flattens`.
Facts about successful runs are then proved by induction on derivations, such as the first one
here: a flattened field carries the condition in force where it stands, which fragments only
narrow (`Flattens.typeCondition_eq`).

The selection of a parsed document is the flattening of the chosen operation's selection set,
with the operation's variables coerced (`selectionOf_eq_ok`).
-/

namespace SocialGraph

open Document

/-! ### Results of `Except` programs -/

theorem Except.bind_eq_ok {ε α β : Type} {x : Except ε α} {f : α → Except ε β} {b : β} :
    x >>= f = .ok b ↔ ∃ a, x = .ok a ∧ f a = .ok b := by
  cases x <;> simp [bind, Except.bind]

theorem Except.bind_eq_error {ε α β : Type} {x : Except ε α} {f : α → Except ε β} {e : ε} :
    x >>= f = .error e ↔ x = .error e ∨ ∃ a, x = .ok a ∧ f a = .error e := by
  cases x <;> simp [bind, Except.bind]

/-! ### Type conditions -/

/-- Two conditions meet unless both are types and they differ. -/
theorem narrow_eq_none_iff {o i : Option String} :
    narrow o i = none ↔ ∃ a b, o = some a ∧ i = some b ∧ a ≠ b := by
  cases o <;> cases i <;> simp [narrow]

/-- Within a fragment of a type, the type stays in force. -/
theorem narrow_some_left {a : String} {i c : Option String} (h : narrow (some a) i = some c) :
    c = some a := by
  cases i with
  | none => simpa [narrow] using h.symm
  | some b =>
    by_cases hab : a = b
    · subst hab
      simpa [narrow] using h.symm
    · simp [narrow, hab] at h

/-- A fragment of a type puts its type in force, and is entered only under no condition or
under its own type. -/
theorem narrow_some_right {o c : Option String} {b : String} (h : narrow o (some b) = some c) :
    c = some b ∧ (o = none ∨ o = some b) := by
  cases o with
  | none =>
    simp only [narrow, Option.orElse_some, Option.some.injEq] at h
    exact ⟨h.symm, .inl rfl⟩
  | some a =>
    by_cases hab : a = b
    · subst hab
      simp only [narrow, bne_self_eq_false, Bool.false_eq_true, ↓reduceIte,
        Option.some.injEq] at h
      exact ⟨h.symm, .inr rfl⟩
    · simp [narrow, hab] at h

/-- A fragment without a type condition keeps the condition in force. -/
theorem narrow_none_right (o : Option String) : narrow o none = some o := by
  cases o <;> rfl

theorem Field.appliesTo_iff {f : Field} {t : String} :
    f.appliesTo t = true ↔ f.typeCondition = none ∨ f.typeCondition = some t := by
  unfold Field.appliesTo
  cases f.typeCondition <;> simp

/-! ### Looking fragments up -/

/-- The look-up with evidence finds the fragment that `find?` finds. -/
theorem map_val_findFragment (fragments : List Fragment) (name : String) :
    (findFragment fragments name).map Subtype.val = fragments.find? (·.name == name) := by
  induction fragments with
  | nil => rfl
  | cons f fs ih =>
    by_cases h : f.name = name
    · simp [findFragment, h]
    · simp [findFragment, h, ← ih, Option.map_map, Function.comp_def]

theorem findFragment_of_find? {fragments : List Fragment} {name : String} {fragment : Fragment}
    (h : fragments.find? (·.name == name) = some fragment) :
    ∃ hmem hname, findFragment fragments name = some ⟨fragment, hmem, hname⟩ := by
  rw [← map_val_findFragment, Option.map_eq_some_iff] at h
  obtain ⟨⟨g, hmem, hname⟩, hg, rfl⟩ := h
  exact ⟨hmem, hname, hg⟩

/-! ### Successful runs -/

/-- `Flattens fragments vs sels cond spreading out`: flattening the selections `sels` under the
type condition `cond`, with the fragments `spreading` being expanded, succeeds with the fields
`out`. -/
inductive Flattens (fragments : List Fragment) (vs : Variables) :
    List Selection → Option String → List String → List Field → Prop
  | nil {cond : Option String} {spreading : List String} :
      Flattens fragments vs [] cond spreading []
  /-- A kept field is marked with the condition in force; its own selection is flattened under
  no condition. -/
  | field {aliasName : Option String} {name : String} {args : List (String × Value)}
      {dirs : List Directive} {sub rest : List Selection} {cond : Option String}
      {spreading : List String} {arguments : List (String × InputValue)}
      {selection out : List Field}
      (hincluded : included vs dirs = .ok true) (hargs : argumentsOf vs args [] = .ok arguments)
      (hsub : Flattens fragments vs sub none spreading selection)
      (hrest : Flattens fragments vs rest cond spreading out) :
      Flattens fragments vs (.field aliasName name args dirs sub :: rest) cond spreading
        (⟨aliasName, name, arguments, cond, selection⟩ :: out)
  | fieldSkipped {aliasName : Option String} {name : String} {args : List (String × Value)}
      {dirs : List Directive} {sub rest : List Selection} {cond : Option String}
      {spreading : List String} {out : List Field}
      (hskipped : included vs dirs = .ok false)
      (hrest : Flattens fragments vs rest cond spreading out) :
      Flattens fragments vs (.field aliasName name args dirs sub :: rest) cond spreading out
  /-- A spread of a fragment not being expanded, whose type meets the condition in force. -/
  | spread {name : String} {dirs : List Directive} {rest : List Selection}
      {cond c : Option String} {spreading : List String} {fragment : Fragment}
      {here out : List Field}
      (hincluded : included vs dirs = .ok true)
      (hfound : fragments.find? (·.name == name) = some fragment)
      (hfresh : name ∉ spreading)
      (hnarrow : narrow cond (some fragment.typeCondition) = some c)
      (hbody : Flattens fragments vs fragment.selection c (name :: spreading) here)
      (hrest : Flattens fragments vs rest cond spreading out) :
      Flattens fragments vs (.spread name dirs :: rest) cond spreading (here ++ out)
  | spreadApart {name : String} {dirs : List Directive} {rest : List Selection}
      {cond : Option String} {spreading : List String} {fragment : Fragment} {out : List Field}
      (hincluded : included vs dirs = .ok true)
      (hfound : fragments.find? (·.name == name) = some fragment)
      (hfresh : name ∉ spreading)
      (hapart : narrow cond (some fragment.typeCondition) = none)
      (hrest : Flattens fragments vs rest cond spreading out) :
      Flattens fragments vs (.spread name dirs :: rest) cond spreading out
  | spreadSkipped {name : String} {dirs : List Directive} {rest : List Selection}
      {cond : Option String} {spreading : List String} {out : List Field}
      (hskipped : included vs dirs = .ok false)
      (hrest : Flattens fragments vs rest cond spreading out) :
      Flattens fragments vs (.spread name dirs :: rest) cond spreading out
  | inline {typeCondition : Option String} {dirs : List Directive} {sub rest : List Selection}
      {cond c : Option String} {spreading : List String} {here out : List Field}
      (hincluded : included vs dirs = .ok true) (hnarrow : narrow cond typeCondition = some c)
      (hbody : Flattens fragments vs sub c spreading here)
      (hrest : Flattens fragments vs rest cond spreading out) :
      Flattens fragments vs (.inline typeCondition dirs sub :: rest) cond spreading (here ++ out)
  | inlineApart {typeCondition : Option String} {dirs : List Directive}
      {sub rest : List Selection} {cond : Option String} {spreading : List String}
      {out : List Field}
      (hincluded : included vs dirs = .ok true) (hapart : narrow cond typeCondition = none)
      (hrest : Flattens fragments vs rest cond spreading out) :
      Flattens fragments vs (.inline typeCondition dirs sub :: rest) cond spreading out
  | inlineSkipped {typeCondition : Option String} {dirs : List Directive}
      {sub rest : List Selection} {cond : Option String} {spreading : List String}
      {out : List Field}
      (hskipped : included vs dirs = .ok false)
      (hrest : Flattens fragments vs rest cond spreading out) :
      Flattens fragments vs (.inline typeCondition dirs sub :: rest) cond spreading out

section Runs

variable {fragments : List Fragment} {vs : Variables}

theorem flattens_of_flatten {sels : List Selection} {cond : Option String}
    {spreading : List String} {out : List Field}
    (h : flatten fragments vs sels cond spreading = .ok out) :
    Flattens fragments vs sels cond spreading out := by
  -- each case peels the run's binds in the order the definition makes them
  fun_induction flatten fragments vs sels cond spreading generalizing out with
  | case1 =>
    cases h
    exact .nil
  | case2 aliasName name args dirs sub rest cond spreading ihRest ihSub =>
    obtain ⟨b, hinc, h⟩ := Except.bind_eq_ok.mp h
    cases b with
    | false =>
      simp only [Bool.false_eq_true, ↓reduceIte, pure_bind] at h
      obtain ⟨t, ht, h⟩ := Except.bind_eq_ok.mp h
      cases h
      exact .fieldSkipped hinc (ihRest ht)
    | true =>
      simp only [↓reduceIte, pure_bind] at h
      obtain ⟨arguments, hargs, h⟩ := Except.bind_eq_ok.mp h
      obtain ⟨selection, hsel, h⟩ := Except.bind_eq_ok.mp h
      obtain ⟨t, ht, h⟩ := Except.bind_eq_ok.mp h
      cases h
      exact .field hinc hargs (ihSub hsel) (ihRest ht)
  | case3 name dirs rest cond spreading ihRest ihBody =>
    obtain ⟨b, hinc, h⟩ := Except.bind_eq_ok.mp h
    cases b with
    | false =>
      simp only [Bool.false_eq_true, ↓reduceIte, pure_bind] at h
      obtain ⟨t, ht, h⟩ := Except.bind_eq_ok.mp h
      cases h
      exact .spreadSkipped hinc (ihRest ht)
    | true =>
      simp only [↓reduceIte] at h
      split at h
      · cases h
      · rename_i fragment hfragment hff
        have hfound : fragments.find? (·.name == name) = some fragment := by
          rw [← map_val_findFragment, hff]
          rfl
        split at h
        · cases h
        · rename_i hfresh
          split at h
          · rename_i c hnarrow
            obtain ⟨here, hhere, h⟩ := Except.bind_eq_ok.mp h
            obtain ⟨t, ht, h⟩ := Except.bind_eq_ok.mp h
            cases h
            exact .spread hinc hfound (by simpa using hfresh) hnarrow
              (ihBody fragment hfragment hfresh c hhere) (ihRest ht)
          · rename_i hnarrow
            simp only [pure_bind] at h
            obtain ⟨t, ht, h⟩ := Except.bind_eq_ok.mp h
            cases h
            exact .spreadApart hinc hfound (by simpa using hfresh) hnarrow (ihRest ht)
  | case4 typeCondition dirs sub rest cond spreading ihRest ihBody =>
    obtain ⟨b, hinc, h⟩ := Except.bind_eq_ok.mp h
    cases b with
    | false =>
      simp only [Bool.false_eq_true, ↓reduceIte, pure_bind] at h
      obtain ⟨t, ht, h⟩ := Except.bind_eq_ok.mp h
      cases h
      exact .inlineSkipped hinc (ihRest ht)
    | true =>
      simp only [↓reduceIte] at h
      split at h
      · rename_i c hnarrow
        obtain ⟨here, hhere, h⟩ := Except.bind_eq_ok.mp h
        obtain ⟨t, ht, h⟩ := Except.bind_eq_ok.mp h
        cases h
        exact .inline hinc hnarrow (ihBody c hhere) (ihRest ht)
      · rename_i hnarrow
        simp only [pure_bind] at h
        obtain ⟨t, ht, h⟩ := Except.bind_eq_ok.mp h
        cases h
        exact .inlineApart hinc hnarrow (ihRest ht)

theorem flatten_of_flattens {sels : List Selection} {cond : Option String}
    {spreading : List String} {out : List Field}
    (h : Flattens fragments vs sels cond spreading out) :
    flatten fragments vs sels cond spreading = .ok out := by
  induction h with
  | nil => rw [flatten]
  | field hinc hargs _ _ ihSub ihRest =>
    rw [flatten]
    simp [hinc, hargs, ihSub, ihRest, bind, Except.bind, pure, Except.pure]
  | fieldSkipped hinc _ ihRest =>
    rw [flatten]
    simp [hinc, ihRest, bind, Except.bind, pure, Except.pure]
  | spread hinc hfound hfresh hnarrow _ _ ihBody ihRest =>
    obtain ⟨_, _, hff⟩ := findFragment_of_find? hfound
    rw [flatten]
    simp [hinc, hff, hfresh, hnarrow, ihBody, ihRest, bind, Except.bind, pure, Except.pure]
  | spreadApart hinc hfound hfresh hnarrow _ ihRest =>
    obtain ⟨_, _, hff⟩ := findFragment_of_find? hfound
    rw [flatten]
    simp [hinc, hff, hfresh, hnarrow, ihRest, bind, Except.bind, pure, Except.pure]
  | spreadSkipped hinc _ ihRest =>
    rw [flatten]
    simp [hinc, ihRest, bind, Except.bind, pure, Except.pure]
  | inline hinc hnarrow _ _ ihBody ihRest =>
    rw [flatten]
    simp [hinc, hnarrow, ihBody, ihRest, bind, Except.bind, pure, Except.pure]
  | inlineApart hinc hnarrow _ ihRest =>
    rw [flatten]
    simp [hinc, hnarrow, ihRest, bind, Except.bind, pure, Except.pure]
  | inlineSkipped hinc _ ihRest =>
    rw [flatten]
    simp [hinc, ihRest, bind, Except.bind, pure, Except.pure]

/-- The successful runs of flattening are the derivations of `Flattens`. -/
theorem flatten_eq_ok_iff {sels : List Selection} {cond : Option String}
    {spreading : List String} {out : List Field} :
    flatten fragments vs sels cond spreading = .ok out ↔
      Flattens fragments vs sels cond spreading out :=
  ⟨flattens_of_flatten, flatten_of_flattens⟩

/-- Every field flattened under a type stays under it: fragments inside can only keep the
condition in force. -/
theorem Flattens.typeCondition_eq {sels : List Selection} {cond : Option String}
    {spreading : List String} {out : List Field}
    (h : Flattens fragments vs sels cond spreading out) {a : String} (hcond : cond = some a) :
    ∀ f ∈ out, f.typeCondition = some a := by
  induction h with
  | nil => simp
  | field _ _ _ _ _ ihRest =>
    intro f hf
    rcases List.mem_cons.mp hf with rfl | hf
    · exact hcond
    · exact ihRest hcond f hf
  | spread _ _ _ hnarrow _ _ ihBody ihRest | inline _ hnarrow _ _ ihBody ihRest =>
    subst hcond
    intro f hf
    rcases List.mem_append.mp hf with hf | hf
    · exact ihBody (narrow_some_left hnarrow) f hf
    · exact ihRest rfl f hf
  | fieldSkipped _ _ ihRest | spreadApart _ _ _ _ _ ihRest | spreadSkipped _ _ ihRest
  | inlineApart _ _ _ ihRest | inlineSkipped _ _ ihRest => exact ihRest hcond

/-- No field flattened under one type applies to another. -/
theorem Flattens.filter_appliesTo_eq_nil {sels : List Selection} {spreading : List String}
    {out : List Field} {a t : String} (h : Flattens fragments vs sels (some a) spreading out)
    (hne : a ≠ t) : out.filter (·.appliesTo t) = [] := by
  refine List.filter_eq_nil_iff.mpr fun f hf happ ↦ ?_
  rcases Field.appliesTo_iff.mp happ with hnone | hsome
  · simp [h.typeCondition_eq rfl f hf] at hnone
  · exact hne (Option.some.inj ((h.typeCondition_eq rfl f hf).symm.trans hsome))

end Runs

/-! ### The selection of a parsed document -/

/-- A parsed document gives a selection when a query operation is chosen, its variables are
coerced, and its selection set flattens. -/
theorem selectionOf_eq_ok {definitions : List Definition} {operationName : Option String}
    {provided : Json} {fields : List Field}
    (h : selectionOf definitions operationName provided = .ok fields) :
    ∃ operation vs, pickOperation (operationsOf definitions) operationName = .ok operation ∧
      operation.kind = .query ∧
      Variables.coerce provided operation.variableDefinitions ⟨[], []⟩ = .ok vs ∧
      Flattens (fragmentsOf definitions) vs operation.selection none [] fields := by
  unfold selectionOf at h
  obtain ⟨operation, hpick, h⟩ := Except.bind_eq_ok.mp h
  by_cases hkind : operation.kind = .query
  · simp only [hkind, bne_self_eq_false, Bool.false_eq_true, ↓reduceIte] at h
    obtain ⟨vs, hvs, h⟩ := Except.bind_eq_ok.mp h
    exact ⟨operation, vs, hpick, hkind, hvs, flattens_of_flatten h⟩
  · simp [hkind, bne, throw, throwThe, MonadExceptOf.throw, bind, Except.bind] at h

end SocialGraph
