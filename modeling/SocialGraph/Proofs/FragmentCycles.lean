import SocialGraph.Proofs.Flattening

/-!
# Flattening ends, and refuses only real fragment cycles

Flattening a spread goes on with the body of the fragment spread, which is no part of the
selection being read, so no structural argument shows that it ends. What does is the stack of
fragments being expanded. A spread is expanded only when it names a fragment of the document
that is not on the stack, and then its name goes on the stack; every other step goes into a
smaller selection. So along every chain of calls (`FlattenCall`) the pair (the number of
fragment names not on the stack, the size of the selection) goes down lexicographically
(`FlattenCall.measure_lt`), which is the measure `flatten` is defined by, and no chain of calls
goes on forever (`wellFounded_flattenCall`).

The same stack is what refuses cycles: a spread of a fragment already on the stack stops
flattening with `fragmentCycle`. Such a report is always real (`fragmentCycle_spreads_itself`):
the fragment spreads itself, through selections that its directives keep, directly or inside
fields, inline fragments and other fragments (`SpreadsFragment`). The proof follows the run: a
cycle found below a spread of `m` is either a cycle of a fragment spread below it, or it closes
at a fragment further up the stack, and then the spread of `m` is one more step on its way
(`flatten_fragmentCycle`). Nothing else stops a run with that error: looking variables up and
reading directives fail in other ways (`included_error`, `argumentsOf_error`).
-/

namespace SocialGraph

open Document

/-! ### The calls of a run -/

/-- What `flatten` is given: the selections, the type condition in force and the fragments being
expanded. -/
abbrev FlattenInput := List Selection × Option String × List String

/-- `FlattenCall fragments y x`: flattening `x` goes on with flattening `y`, the rest of a list
of selections, the selection of a field, the body of an inline fragment whose condition meets
the one in force, or the body of a fragment spread that is not being expanded already. Calls
that depend on the directives or on the success of earlier steps are counted whether or not
they are made. -/
inductive FlattenCall (fragments : List Fragment) : FlattenInput → FlattenInput → Prop
  | rest {s : Selection} {rest : List Selection} {cond : Option String}
      {spreading : List String} :
      FlattenCall fragments (rest, cond, spreading) (s :: rest, cond, spreading)
  | fieldSelection {aliasName : Option String} {name : String} {args : List (String × Value)}
      {dirs : List Directive} {sub rest : List Selection} {cond : Option String}
      {spreading : List String} :
      FlattenCall fragments (sub, none, spreading)
        (.field aliasName name args dirs sub :: rest, cond, spreading)
  | spreadBody {name : String} {dirs : List Directive} {rest : List Selection}
      {cond c : Option String} {spreading : List String} {fragment : Fragment}
      (hfound : fragments.find? (·.name == name) = some fragment) (hfresh : name ∉ spreading)
      (hnarrow : narrow cond (some fragment.typeCondition) = some c) :
      FlattenCall fragments (fragment.selection, c, name :: spreading)
        (.spread name dirs :: rest, cond, spreading)
  | inlineBody {typeCondition : Option String} {dirs : List Directive}
      {sub rest : List Selection} {cond c : Option String} {spreading : List String}
      (hnarrow : narrow cond typeCondition = some c) :
      FlattenCall fragments (sub, c, spreading)
        (.inline typeCondition dirs sub :: rest, cond, spreading)

/-- Every call lowers the pair (the number of fragment names not on the stack, the size of the
selections): a spread lowers the number of names left to expand, every other call keeps the
stack and goes into a smaller selection. -/
theorem FlattenCall.measure_lt {fragments : List Fragment} {x y : FlattenInput}
    (h : FlattenCall fragments y x) :
    Prod.Lex (· < ·) (· < ·) (unspread fragments y.2.2, sizeOf y.1)
      (unspread fragments x.2.2, sizeOf x.1) := by
  cases h with
  | spreadBody hfound hfresh _ =>
    obtain ⟨hmem, hname, -⟩ := findFragment_of_find? hfound
    exact .left _ _ (unspread_cons_lt hmem hname (by simpa using hfresh))
  | rest | fieldSelection | inlineBody =>
    apply Prod.Lex.right
    simp only [List.cons.sizeOf_spec, Selection.field.sizeOf_spec, Selection.inline.sizeOf_spec]
    omega

/-- No chain of calls goes on forever. -/
theorem wellFounded_flattenCall (fragments : List Fragment) :
    WellFounded (FlattenCall fragments) :=
  Subrelation.wf (fun h ↦ h.measure_lt)
    (InvImage.wf (fun x : FlattenInput ↦ (unspread fragments x.2.2, sizeOf x.1))
      (Prod.lex Nat.lt_wfRel Nat.lt_wfRel).wf)

/-! ### Spreads -/

/-- `SpreadsFragment fragments vs name sels`: the selections `sels` spread the fragment `name`,
directly or inside fields, inline fragments and spread fragments, through selections that their
directives keep. -/
inductive SpreadsFragment (fragments : List Fragment) (vs : Variables) (name : String) :
    List Selection → Prop
  | spread {dirs : List Directive} {rest : List Selection}
      (hincluded : included vs dirs = .ok true) :
      SpreadsFragment fragments vs name (.spread name dirs :: rest)
  | inField {aliasName : Option String} {field : String} {args : List (String × Value)}
      {dirs : List Directive} {sub rest : List Selection}
      (hincluded : included vs dirs = .ok true) (hsub : SpreadsFragment fragments vs name sub) :
      SpreadsFragment fragments vs name (.field aliasName field args dirs sub :: rest)
  | inInline {typeCondition : Option String} {dirs : List Directive} {sub rest : List Selection}
      (hincluded : included vs dirs = .ok true) (hsub : SpreadsFragment fragments vs name sub) :
      SpreadsFragment fragments vs name (.inline typeCondition dirs sub :: rest)
  | inSpread {other : String} {dirs : List Directive} {rest : List Selection}
      {fragment : Fragment}
      (hincluded : included vs dirs = .ok true)
      (hfound : fragments.find? (·.name == other) = some fragment)
      (hbody : SpreadsFragment fragments vs name fragment.selection) :
      SpreadsFragment fragments vs name (.spread other dirs :: rest)
  | later {s : Selection} {rest : List Selection} (hrest : SpreadsFragment fragments vs name rest) :
      SpreadsFragment fragments vs name (s :: rest)

/-- A fragment spreads itself: it is defined, and its selection spreads it. -/
def SpreadsItself (fragments : List Fragment) (vs : Variables) (name : String) : Prop :=
  ∃ fragment, fragments.find? (·.name == name) = some fragment ∧
    SpreadsFragment fragments vs name fragment.selection

/-! ### What else can fail -/

theorem Variables.lookup_error {vs : Variables} {name : String} {e : SelectionError}
    (h : vs.lookup name = .error e) : e = .undefinedVariable name := by
  unfold Variables.lookup at h
  split at h
  · cases h
  · cases h
    rfl

mutual

/-- Reading a value fails only on an undefined variable. -/
theorem inputOf_error (vs : Variables) {e : SelectionError} :
    ∀ v : Value, inputOf vs v = .error e → ∃ name, e = .undefinedVariable name
  | .variable name, h => by
    cases hl : vs.lookup name with
    | error e' =>
      simp only [inputOf, hl, bind, Except.bind, Except.error.injEq] at h
      exact ⟨name, h ▸ Variables.lookup_error hl⟩
    | ok x => simp [inputOf, hl, bind, Except.bind, pure, Except.pure] at h
  | .int _, h | .float _, h | .string _, h | .boolean _, h | .null, h | .enum _, h => by
    simp [inputOf] at h
  | .list items, h => by
    cases hi : inputsOf vs items with
    | error e' =>
      simp only [inputOf, hi, Functor.map, Except.map, Except.error.injEq] at h
      exact h ▸ inputsOf_error vs items hi
    | ok xs => simp [inputOf, hi, Functor.map, Except.map] at h
  | .object members, h => by
    cases hm : membersOf vs members with
    | error e' =>
      simp only [inputOf, hm, Functor.map, Except.map, Except.error.injEq] at h
      exact h ▸ membersOf_error vs members hm
    | ok xs => simp [inputOf, hm, Functor.map, Except.map] at h

theorem inputsOf_error (vs : Variables) {e : SelectionError} :
    ∀ items : List Value, inputsOf vs items = .error e → ∃ name, e = .undefinedVariable name
  | [], h => by simp [inputsOf] at h
  | v :: rest, h => by
    rcases Except.bind_eq_error.mp h with hv | ⟨x, -, h⟩
    · exact inputOf_error vs v hv
    · rcases Except.bind_eq_error.mp h with hr | ⟨_, -, h⟩
      · exact inputsOf_error vs rest hr
      · cases h

theorem membersOf_error (vs : Variables) {e : SelectionError} :
    ∀ members : List (String × Value), membersOf vs members = .error e →
      ∃ name, e = .undefinedVariable name
  | [], h => by simp [membersOf] at h
  | (k, v) :: rest, h => by
    rcases Except.bind_eq_error.mp h with hv | ⟨x, -, h⟩
    · exact inputOf_error vs v hv
    · rcases Except.bind_eq_error.mp h with hr | ⟨_, -, h⟩
      · exact membersOf_error vs rest hr
      · cases h

end

/-- Arguments fail only on an undefined variable. -/
theorem argumentsOf_error {vs : Variables} {e : SelectionError} :
    ∀ {args : List (String × Value)} {acc : List (String × InputValue)},
      argumentsOf vs args acc = .error e → ∃ name, e = .undefinedVariable name
  | [], _, h => by simp [argumentsOf] at h
  | (n, .variable v) :: rest, acc, h => by
    rcases Except.bind_eq_error.mp h with hl | ⟨x, -, h⟩
    · exact ⟨v, Variables.lookup_error hl⟩
    · cases x with
      | some _ => exact argumentsOf_error h
      | none => exact argumentsOf_error h
  | (n, .int _) :: rest, acc, h | (n, .float _) :: rest, acc, h
  | (n, .string _) :: rest, acc, h | (n, .boolean _) :: rest, acc, h
  | (n, .null) :: rest, acc, h | (n, .enum _) :: rest, acc, h
  | (n, .list _) :: rest, acc, h | (n, .object _) :: rest, acc, h => by
    rcases Except.bind_eq_error.mp h with hv | ⟨x, -, h⟩
    · exact inputOf_error vs _ hv
    · exact argumentsOf_error h

/-- Directives fail only on an undefined variable or a condition that is not a Boolean. -/
theorem included_error {vs : Variables} {e : SelectionError} :
    ∀ {dirs : List Directive}, included vs dirs = .error e →
      (∃ name, e = .undefinedVariable name) ∨ ∃ name, e = .invalidDirective name
  | [], h => by simp [included] at h
  | d :: rest, h => by
    unfold included at h
    split at h
    · rcases Except.bind_eq_error.mp h with hc | ⟨condition, -, h⟩
      · cases hif : (d.arguments.find? (·.1 == "if")).map (·.2) with
        | none =>
          rw [hif] at hc
          cases hc
        | some v =>
          rw [hif] at hc
          rcases Except.bind_eq_error.mp hc with hv | ⟨_, -, hv⟩
          · exact .inl (inputOf_error vs v hv)
          · cases hv
      · split at h
        · split at h
          · cases h
          · exact included_error h
        · cases h
          exact .inr ⟨d.name, rfl⟩
    · exact included_error h

theorem Except.ite_throw_eq_error {ε α : Type} {c : Bool} {x e : ε} {k : Except ε α}
    (h : (if c = true then (throw x >>= fun (_ : PUnit) ↦ k) else k) = .error e) :
    e = x ∨ k = .error e := by
  split at h
  · simp only [throw, throwThe, MonadExceptOf.throw, bind, Except.bind, Except.error.injEq] at h
    exact .inl h.symm
  · exact .inr h

/-- Coercing variables fails only on a non-null variable without a value, or on an undefined
variable in a default. -/
theorem coerce_error {provided : Json} {e : SelectionError} :
    ∀ {decls : List VariableDefinition} {vs : Variables},
      Variables.coerce provided decls vs = .error e →
        (∃ name type, e = .missingVariable name type) ∨ ∃ name, e = .undefinedVariable name
  | [], _, h => by simp [Variables.coerce] at h
  | d :: rest, vs, h => by
    unfold Variables.coerce at h
    cases hget : provided.get? d.name with
    | some j =>
      simp only [hget, pure_bind] at h
      rcases Except.ite_throw_eq_error h with rfl | h
      · exact .inl ⟨_, _, rfl⟩
      · exact coerce_error h
    | none =>
      simp only [hget] at h
      rcases Except.bind_eq_error.mp h with hdefault | ⟨value, -, h⟩
      · -- reading the default failed
        cases hd : d.default with
        | none =>
          simp only [hd, Option.mapM_none] at hdefault
          cases hdefault
        | some v =>
          cases hv : inputOf ⟨[], []⟩ v with
          | error e' =>
            simp only [hd, hv, Option.mapM_some, Functor.map, Except.map,
              Except.error.injEq] at hdefault
            exact .inr (inputOf_error _ v (hdefault ▸ hv))
          | ok x => simp [hd, hv, Option.mapM_some, Functor.map, Except.map] at hdefault
      · rcases Except.ite_throw_eq_error h with rfl | h
        · exact .inl ⟨_, _, rfl⟩
        · exact coerce_error h

/-! ### Cycles -/

theorem Except.eq_error_of_bind_pure {ε α β : Type} {x : Except ε α} {f : α → β} {e : ε}
    (h : (x >>= fun a ↦ pure (f a)) = .error e) : x = .error e := by
  cases x with
  | error => simpa [bind, Except.bind] using h
  | ok => cases h

section Cycles

variable {fragments : List Fragment} {vs : Variables}

theorem included_ne_fragmentCycle {dirs : List Directive} {name : String} :
    included vs dirs ≠ .error (.fragmentCycle name) := by
  intro hinc
  rcases included_error hinc with ⟨_, he⟩ | ⟨_, he⟩ <;> cases he

/-- A cycle found later in a list is a cycle of the whole list. -/
theorem SpreadsFragment.cycle_cons {name : String} {spreading : List String} {s : Selection}
    {rest : List Selection}
    (h : SpreadsItself fragments vs name ∨
      (name ∈ spreading ∧ SpreadsFragment fragments vs name rest)) :
    SpreadsItself fragments vs name ∨
      (name ∈ spreading ∧ SpreadsFragment fragments vs name (s :: rest)) :=
  h.imp_right fun ⟨hmem, hr⟩ ↦ ⟨hmem, .later hr⟩

/-- A run that stops on a cycle of `name` found a fragment that spreads itself, or `name` is on
the stack and the selections spread it. -/
theorem flatten_fragmentCycle {sels : List Selection} {cond : Option String}
    {spreading : List String} {name : String}
    (h : flatten fragments vs sels cond spreading = .error (.fragmentCycle name)) :
    SpreadsItself fragments vs name ∨
      (name ∈ spreading ∧ SpreadsFragment fragments vs name sels) := by
  fun_induction flatten fragments vs sels cond spreading with
  | case1 => cases h
  | case2 aliasName field args dirs sub rest cond spreading ihRest ihSub =>
    rcases Except.bind_eq_error.mp h with hinc | ⟨b, hinc, h⟩
    · exact absurd hinc included_ne_fragmentCycle
    cases b with
    | false =>
      simp only [Bool.false_eq_true, ↓reduceIte, pure_bind] at h
      exact SpreadsFragment.cycle_cons (ihRest (Except.eq_error_of_bind_pure h))
    | true =>
      simp only [↓reduceIte] at h
      rcases Except.bind_eq_error.mp h with hargs | ⟨arguments, -, h⟩
      · obtain ⟨_, he⟩ := argumentsOf_error hargs
        cases he
      rcases Except.bind_eq_error.mp h with hsub | ⟨selection, -, h⟩
      · exact (ihSub hsub).imp_right fun h ↦ ⟨h.1, .inField hinc h.2⟩
      · exact SpreadsFragment.cycle_cons (ihRest (Except.eq_error_of_bind_pure h))
  | case3 other dirs rest cond spreading ihRest ihBody =>
    rcases Except.bind_eq_error.mp h with hinc | ⟨b, hinc, h⟩
    · exact absurd hinc included_ne_fragmentCycle
    cases b with
    | false =>
      simp only [Bool.false_eq_true, ↓reduceIte, pure_bind] at h
      exact SpreadsFragment.cycle_cons (ihRest (Except.eq_error_of_bind_pure h))
    | true =>
      simp only [↓reduceIte] at h
      split at h
      · cases h
      · rename_i fragment hfragment hff
        have hfound : fragments.find? (·.name == other) = some fragment := by
          rw [← map_val_findFragment, hff]
          rfl
        split at h
        · -- the spread closes a cycle: `other` is the name reported, and it is on the stack
          rename_i hcycle
          cases h
          exact .inr ⟨by simpa using hcycle, .spread hinc⟩
        · rename_i hfresh
          split at h
          · rename_i c hnarrow
            rcases Except.bind_eq_error.mp h with hbody | ⟨here, -, h⟩
            · rcases ihBody fragment hfragment hfresh c hbody with hself | ⟨hmem, hs⟩
              · exact .inl hself
              · -- found in the body: a cycle of `other` itself, or one closing further up
                rcases List.mem_cons.mp hmem with rfl | hmem
                · exact .inl ⟨fragment, hfound, hs⟩
                · exact .inr ⟨hmem, .inSpread hinc hfound hs⟩
            · exact SpreadsFragment.cycle_cons (ihRest (Except.eq_error_of_bind_pure h))
          · simp only [pure_bind] at h
            exact SpreadsFragment.cycle_cons (ihRest (Except.eq_error_of_bind_pure h))
  | case4 typeCondition dirs sub rest cond spreading ihRest ihBody =>
    rcases Except.bind_eq_error.mp h with hinc | ⟨b, hinc, h⟩
    · exact absurd hinc included_ne_fragmentCycle
    cases b with
    | false =>
      simp only [Bool.false_eq_true, ↓reduceIte, pure_bind] at h
      exact SpreadsFragment.cycle_cons (ihRest (Except.eq_error_of_bind_pure h))
    | true =>
      simp only [↓reduceIte] at h
      split at h
      · rename_i c hnarrow
        rcases Except.bind_eq_error.mp h with hbody | ⟨here, -, h⟩
        · exact (ihBody c hbody).imp_right fun h ↦ ⟨h.1, .inInline hinc h.2⟩
        · exact SpreadsFragment.cycle_cons (ihRest (Except.eq_error_of_bind_pure h))
      · simp only [pure_bind] at h
        exact SpreadsFragment.cycle_cons (ihRest (Except.eq_error_of_bind_pure h))

end Cycles

/-- A parsed document refused for a cycle of a fragment was refused rightly: under the chosen
operation's variables, the fragment spreads itself. -/
theorem fragmentCycle_spreads_itself {definitions : List Definition}
    {operationName : Option String} {provided : Json} {name : String}
    (h : selectionOf definitions operationName provided = .error (.fragmentCycle name)) :
    ∃ operation vs, pickOperation (operationsOf definitions) operationName = .ok operation ∧
      Variables.coerce provided operation.variableDefinitions ⟨[], []⟩ = .ok vs ∧
      SpreadsItself (fragmentsOf definitions) vs name := by
  unfold selectionOf at h
  rcases Except.bind_eq_error.mp h with hpick | ⟨operation, hpick, h⟩
  · unfold pickOperation at hpick
    split at hpick <;> (try split at hpick) <;> cases hpick
  by_cases hkind : operation.kind = .query
  · simp only [hkind, bne_self_eq_false, Bool.false_eq_true, ↓reduceIte] at h
    rcases Except.bind_eq_error.mp h with hvs | ⟨vs, hvs, h⟩
    · rcases coerce_error hvs with ⟨_, _, he⟩ | ⟨_, he⟩ <;> cases he
    · rcases flatten_fragmentCycle h with hself | ⟨hmem, -⟩
      · exact ⟨operation, vs, hpick, hvs, hself⟩
      · cases hmem
  · simp [hkind, bne, throw, throwThe, MonadExceptOf.throw, bind, Except.bind] at h

/-- Flattening ends on every document, and refuses one only for a real cycle: every call it
makes lowers (the number of fragment names not on the stack, the size of the selections)
lexicographically, so no chain of calls goes on forever; and a document refused for a cycle of a
fragment has that fragment spread, through selections its directives keep, inside its own
expansion. -/
theorem flattening_terminates_and_cycles_are_real :
    (∀ (fragments : List Fragment) (x y : FlattenInput), FlattenCall fragments y x →
      Prod.Lex (· < ·) (· < ·) (unspread fragments y.2.2, sizeOf y.1)
        (unspread fragments x.2.2, sizeOf x.1)) ∧
    (∀ fragments : List Fragment, WellFounded (FlattenCall fragments)) ∧
    (∀ (definitions : List Definition) (operationName : Option String) (provided : Json)
      (name : String),
      selectionOf definitions operationName provided = .error (.fragmentCycle name) →
      ∃ operation vs, pickOperation (operationsOf definitions) operationName = .ok operation ∧
        Variables.coerce provided operation.variableDefinitions ⟨[], []⟩ = .ok vs ∧
        SpreadsItself (fragmentsOf definitions) vs name) :=
  ⟨fun _ _ _ h ↦ h.measure_lt, wellFounded_flattenCall, fun _ _ _ _ h ↦
    fragmentCycle_spreads_itself h⟩

/-- `{ ...A } fragment A on Query { ... on Query { ...A } }`: a fragment that spreads itself
inside an inline fragment. -/
def selfSpreading : List Definition :=
  [.operation ⟨.query, none, [], [], [.spread "A" []]⟩,
   .fragment ⟨"A", "Query", [], [.inline (some "Query") [] [.spread "A" []]]⟩]

theorem selfSpreading_cycle_is_real :
    selectionOf selfSpreading none (.obj []) = .error (.fragmentCycle "A") ∧
      ∃ operation vs, pickOperation (operationsOf selfSpreading) none = .ok operation ∧
        Variables.coerce (.obj []) operation.variableDefinitions ⟨[], []⟩ = .ok vs ∧
        SpreadsItself (fragmentsOf selfSpreading) vs "A" := by
  have h : selectionOf selfSpreading none (.obj []) = .error (.fragmentCycle "A") := by
    simp [selectionOf, selfSpreading, pickOperation, operationsOf, fragmentsOf,
      Variables.coerce, flatten, findFragment, included, narrow, bind, Except.bind, throw,
      throwThe, MonadExceptOf.throw]
  exact ⟨h, flattening_terminates_and_cycles_are_real.2.2 _ _ _ _ h⟩

end SocialGraph
