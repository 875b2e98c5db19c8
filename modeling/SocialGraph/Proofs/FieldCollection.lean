import SocialGraph.Proofs.Flattening

/-!
# Flattening agrees with field collection

GraphQL collects the fields of a selection set for one object type at a time (`Collects`): it
skips a selection that `@skip` or `@include` excludes, enters an inline fragment or a fragment
spread only when its type condition is absent or is that type, and visits fields in document
order. Here collection neither merges fields by response key nor skips a fragment spread twice.

Flattening happens once, before any object type is known, so it cannot choose fragments by type.
It enters every fragment whose condition can still hold and marks the fields it yields with the
condition in force, which nested fragments narrow (`narrow`). The two agree: for every type, the
flattened fields that apply to it are the fields collection visits, in order, each with its
alias and its substituted arguments, and the same holds again of every field's own selection,
whose condition starts afresh (`selection_collects_fields`).

The proof is one induction on the successful run (`Flattens.collects`). A fragment whose type
is not the one collected for contributes nothing to either side: collection does not enter it,
and every field flattening takes from it carries the fragment's type
(`Flattens.filter_appliesTo_eq_nil`).
-/

namespace SocialGraph

open Document

/-- `Collects fragments vs t sels out`: collecting the fields of the selections `sels` for an
object of type `t` visits, in order, fields that `out` holds: each with the alias, name and
substituted arguments of the field visited, and with a selection whose fields that apply to any
type are the ones collected for that type from the visited field's own selections. -/
inductive Collects (fragments : List Fragment) (vs : Variables) :
    String → List Selection → List Field → Prop
  | nil {t : String} : Collects fragments vs t [] []
  | field {t : String} {aliasName : Option String} {name : String}
      {args : List (String × Value)} {dirs : List Directive} {sub rest : List Selection}
      {f : Field} {out : List Field}
      (hincluded : included vs dirs = .ok true) (halias : f.aliasName = aliasName)
      (hname : f.name = name) (hargs : argumentsOf vs args [] = .ok f.arguments)
      (hsub : ∀ t', Collects fragments vs t' sub (f.selection.filter (·.appliesTo t')))
      (hrest : Collects fragments vs t rest out) :
      Collects fragments vs t (.field aliasName name args dirs sub :: rest) (f :: out)
  | fieldSkipped {t : String} {aliasName : Option String} {name : String}
      {args : List (String × Value)} {dirs : List Directive} {sub rest : List Selection}
      {out : List Field}
      (hskipped : included vs dirs = .ok false) (hrest : Collects fragments vs t rest out) :
      Collects fragments vs t (.field aliasName name args dirs sub :: rest) out
  | spread {t name : String} {dirs : List Directive} {rest : List Selection}
      {fragment : Fragment} {here out : List Field}
      (hincluded : included vs dirs = .ok true)
      (hfound : fragments.find? (·.name == name) = some fragment)
      (happlies : fragment.typeCondition = t)
      (hbody : Collects fragments vs t fragment.selection here)
      (hrest : Collects fragments vs t rest out) :
      Collects fragments vs t (.spread name dirs :: rest) (here ++ out)
  | spreadOther {t name : String} {dirs : List Directive} {rest : List Selection}
      {fragment : Fragment} {out : List Field}
      (hincluded : included vs dirs = .ok true)
      (hfound : fragments.find? (·.name == name) = some fragment)
      (hother : fragment.typeCondition ≠ t)
      (hrest : Collects fragments vs t rest out) :
      Collects fragments vs t (.spread name dirs :: rest) out
  | spreadSkipped {t name : String} {dirs : List Directive} {rest : List Selection}
      {out : List Field}
      (hskipped : included vs dirs = .ok false) (hrest : Collects fragments vs t rest out) :
      Collects fragments vs t (.spread name dirs :: rest) out
  | inline {t : String} {typeCondition : Option String} {dirs : List Directive}
      {sub rest : List Selection} {here out : List Field}
      (hincluded : included vs dirs = .ok true)
      (happlies : typeCondition = none ∨ typeCondition = some t)
      (hbody : Collects fragments vs t sub here) (hrest : Collects fragments vs t rest out) :
      Collects fragments vs t (.inline typeCondition dirs sub :: rest) (here ++ out)
  | inlineOther {t other : String} {dirs : List Directive} {sub rest : List Selection}
      {out : List Field}
      (hincluded : included vs dirs = .ok true) (hother : other ≠ t)
      (hrest : Collects fragments vs t rest out) :
      Collects fragments vs t (.inline (some other) dirs sub :: rest) out
  | inlineSkipped {t : String} {typeCondition : Option String} {dirs : List Directive}
      {sub rest : List Selection} {out : List Field}
      (hskipped : included vs dirs = .ok false) (hrest : Collects fragments vs t rest out) :
      Collects fragments vs t (.inline typeCondition dirs sub :: rest) out

variable {fragments : List Fragment} {vs : Variables}

/-- A successful run under a condition that a type meets yields, among the fields that apply to
the type, exactly the fields collection visits for it. -/
theorem Flattens.collects {sels : List Selection} {cond : Option String}
    {spreading : List String} {out : List Field}
    (h : Flattens fragments vs sels cond spreading out) {t : String}
    (hcond : cond = none ∨ cond = some t) :
    Collects fragments vs t sels (out.filter (·.appliesTo t)) := by
  induction h generalizing t with
  | nil => exact .nil
  | @field aliasName name args dirs sub rest cond spreading arguments selection out hinc hargs _ _
      ihSub ihRest =>
    have happ : Field.appliesTo ⟨aliasName, name, arguments, cond, selection⟩ t = true :=
      Field.appliesTo_iff.mpr hcond
    simp only [List.filter_cons, happ, ↓reduceIte]
    exact .field hinc rfl rfl hargs (fun _ ↦ ihSub (.inl rfl)) (ihRest hcond)
  | fieldSkipped hskip _ ihRest => exact .fieldSkipped hskip (ihRest hcond)
  | @spread name dirs rest cond c spreading fragment here out hinc hfound _ hnarrow hbody _
      ihBody ihRest =>
    obtain ⟨rfl, -⟩ := narrow_some_right hnarrow
    rw [List.filter_append]
    by_cases htype : fragment.typeCondition = t
    · exact .spread hinc hfound htype (ihBody (.inr (congrArg some htype))) (ihRest hcond)
    · -- the fragment's fields carry its type, so none of them applies to `t`
      rw [hbody.filter_appliesTo_eq_nil htype, List.nil_append]
      exact .spreadOther hinc hfound htype (ihRest hcond)
  | spreadApart hinc hfound _ hapart _ ihRest =>
    obtain ⟨a, b, rfl, hb, hab⟩ := narrow_eq_none_iff.mp hapart
    have hat : a = t := by simpa using hcond
    subst hat
    have htype : _ = b := Option.some.inj hb
    exact .spreadOther hinc hfound (by rw [htype]; exact Ne.symm hab) (ihRest hcond)
  | spreadSkipped hskip _ ihRest => exact .spreadSkipped hskip (ihRest hcond)
  | @inline typeCondition dirs sub rest cond c spreading here out hinc hnarrow hbody _
      ihBody ihRest =>
    rw [List.filter_append]
    cases typeCondition with
    | none =>
      -- an inline fragment without a type condition keeps the condition in force
      rw [narrow_none_right, Option.some.injEq] at hnarrow
      subst hnarrow
      exact .inline hinc (.inl rfl) (ihBody hcond) (ihRest hcond)
    | some b =>
      obtain ⟨rfl, -⟩ := narrow_some_right hnarrow
      by_cases hbt : b = t
      · exact .inline hinc (.inr (congrArg some hbt)) (ihBody (.inr (congrArg some hbt)))
          (ihRest hcond)
      · rw [hbody.filter_appliesTo_eq_nil hbt, List.nil_append]
        exact .inlineOther hinc hbt (ihRest hcond)
  | inlineApart hinc hapart _ ihRest =>
    obtain ⟨a, b, rfl, rfl, hab⟩ := narrow_eq_none_iff.mp hapart
    have hat : a = t := by simpa using hcond
    subst hat
    exact .inlineOther hinc (Ne.symm hab) (ihRest hcond)
  | inlineSkipped hskip _ ihRest => exact .inlineSkipped hskip (ihRest hcond)

/-- Flattening agrees with field collection: whenever a parsed document gives a selection, the
chosen operation's variables are coerced and, for every object type, the fields of the
selection that apply to it are the fields collected for it from the operation's selection set,
at every level. -/
theorem selection_collects_fields {definitions : List Definition}
    {operationName : Option String} {provided : Json} {fields : List Field}
    (h : selectionOf definitions operationName provided = .ok fields) :
    ∃ operation vs, pickOperation (operationsOf definitions) operationName = .ok operation ∧
      Variables.coerce provided operation.variableDefinitions ⟨[], []⟩ = .ok vs ∧
      ∀ t, Collects (fragmentsOf definitions) vs t operation.selection
        (fields.filter (·.appliesTo t)) := by
  obtain ⟨operation, vs, hpick, -, hvs, hrun⟩ := selectionOf_eq_ok h
  exact ⟨operation, vs, hpick, hvs, fun _ ↦ hrun.collects (.inl rfl)⟩

/-- `{ users { ...U ... on Post { title } } } fragment U on User { name }`: a field whose
selection spreads a fragment on one type and holds an inline fragment on another. -/
def typedFragments : List Definition :=
  [.operation ⟨.query, none, [], [],
    [.field none "users" [] []
      [.spread "U" [], .inline (some "Post") [] [.field none "title" [] [] []]]]⟩,
   .fragment ⟨"U", "User", [], [.field none "name" [] [] []]⟩]

theorem typedFragments_fields_collected :
    selectionOf typedFragments none (.obj []) =
        .ok [⟨none, "users", [], none,
          [⟨none, "name", [], some "User", []⟩, ⟨none, "title", [], some "Post", []⟩]⟩] ∧
      ∃ operation vs, pickOperation (operationsOf typedFragments) none = .ok operation ∧
        Variables.coerce (.obj []) operation.variableDefinitions ⟨[], []⟩ = .ok vs ∧
        ∀ t, Collects (fragmentsOf typedFragments) vs t operation.selection
          ([⟨none, "users", [], none,
            [⟨none, "name", [], some "User", []⟩, ⟨none, "title", [], some "Post", []⟩]⟩].filter
              (·.appliesTo t)) := by
  have h : selectionOf typedFragments none (.obj []) =
      .ok [⟨none, "users", [], none,
        [⟨none, "name", [], some "User", []⟩, ⟨none, "title", [], some "Post", []⟩]⟩] := by
    simp [selectionOf, typedFragments, pickOperation, operationsOf, fragmentsOf,
      Variables.coerce, flatten, findFragment, included, argumentsOf, narrow, bind, Except.bind,
      pure, Except.pure]
  exact ⟨h, selection_collects_fields h⟩

end SocialGraph
