import SocialGraph.Proofs.CanonicalValues

/-!
# Variables are literals

A variable of an operation stands for its value, as if the value had been written into the
document where the variable is used. Binding the variables (`Document.Value.bind`) writes the
literal of a variable's value in its place, null where a declared variable has no value, and
leaves out an argument that is nothing but such a variable (`Document.bindArguments`); the
operation that runs then needs no variable definitions (`inlineVariables`). The bound document,
run with no variables, gives the selection the document gives with them
(`variables_are_inlined_literals`).

A variable reaches a selection along three paths: an argument that is the variable itself
(`argumentsOf`), a variable inside a list or an object (`inputOf`), and the condition of
`@skip` or `@include` (`included`). On each, the literal reads back as the value
(`InputValue.Canonical.inputOf_literal`), because every value a variable holds is canonical
(`Variables.Canonical.coerce`): its object members are sorted by name already, as reading a
literal sorts them.
-/

namespace SocialGraph

open Document

/-! ### Binding variables -/

namespace Document

/-- A declared variable without a value: an argument that is only such a variable is left
out. -/
def Value.isUnset (vs : Variables) : Value → Bool
  | .variable n => vs.declared.contains n && (vs.values.lookup n).isNone
  | _ => false

mutual

/-- A value with the variables given: a variable with a value becomes the literal of the
value, a declared variable without one becomes null, and an undeclared one stays. -/
def Value.bind (vs : Variables) : Value → Value
  | .variable n =>
    if vs.declared.contains n then ((vs.values.lookup n).map InputValue.literal).getD .null
    else .variable n
  | .list items => .list (Value.bindItems vs items)
  | .object members => .object (Value.bindMembers vs members)
  | v => v

/-- List items with the variables given. -/
def Value.bindItems (vs : Variables) : List Value → List Value
  | [] => []
  | v :: rest => Value.bind vs v :: Value.bindItems vs rest

/-- Object members with the variables given. -/
def Value.bindMembers (vs : Variables) : List (String × Value) → List (String × Value)
  | [] => []
  | (k, v) :: rest => (k, Value.bind vs v) :: Value.bindMembers vs rest

end

/-- Arguments with the variables given, less those that are only a declared variable without
a value. -/
def bindArguments (vs : Variables) (args : List (String × Value)) : List (String × Value) :=
  (args.filter fun a ↦ !a.2.isUnset vs).map fun a ↦ (a.1, a.2.bind vs)

def Directive.bind (vs : Variables) (d : Directive) : Directive :=
  { d with arguments := bindArguments vs d.arguments }

mutual

/-- A selection with the variables given, in its arguments and directives at every depth. -/
def Selection.bind (vs : Variables) : Selection → Selection
  | .field aliasName name args dirs sub =>
    .field aliasName name (bindArguments vs args) (dirs.map (Directive.bind vs))
      (Selection.bindAll vs sub)
  | .spread name dirs => .spread name (dirs.map (Directive.bind vs))
  | .inline typeCondition dirs sub =>
    .inline typeCondition (dirs.map (Directive.bind vs)) (Selection.bindAll vs sub)

/-- Selections with the variables given. -/
def Selection.bindAll (vs : Variables) : List Selection → List Selection
  | [] => []
  | s :: rest => Selection.bind vs s :: Selection.bindAll vs rest

end

def Fragment.bind (vs : Variables) (f : Fragment) : Fragment :=
  { f with directives := f.directives.map (Directive.bind vs),
           selection := Selection.bindAll vs f.selection }

def VariableDefinition.bind (vs : Variables) (d : VariableDefinition) : VariableDefinition :=
  { d with default := d.default.map (Value.bind vs) }

def Operation.bind (vs : Variables) (o : Operation) : Operation :=
  { o with variableDefinitions := o.variableDefinitions.map (VariableDefinition.bind vs),
           directives := o.directives.map (Directive.bind vs),
           selection := Selection.bindAll vs o.selection }

def Definition.bind (vs : Variables) : Definition → Definition
  | .operation o => .operation (o.bind vs)
  | .fragment f => .fragment (f.bind vs)

/-- Whether a request that names this operation, or none, may run the operation. -/
def Operation.answers (operationName : Option String) (o : Operation) : Bool :=
  operationName.all (o.name == some ·)

/-- The operation a request runs, with the variables given and no variable definitions left. -/
def Operation.inline (vs : Variables) (o : Operation) : Operation :=
  { o.bind vs with variableDefinitions := [] }

end Document

/-- A document with the variables given: every definition bound, and the first operation a
request may run inlined. -/
def inlineVariables (vs : Variables) (operationName : Option String) :
    List Definition → List Definition
  | [] => []
  | .operation o :: rest =>
    if o.answers operationName then .operation (o.inline vs) :: rest.map (·.bind vs)
    else .operation (o.bind vs) :: inlineVariables vs operationName rest
  | .fragment f :: rest => .fragment (f.bind vs) :: inlineVariables vs operationName rest

/-! ### The values of bound values -/

section Reading

variable {vs : Variables}

theorem InputValue.literal_ne_variable (x : InputValue) (u : String) :
    x.literal ≠ .variable u := by
  cases x <;> simp [InputValue.literal]

theorem Document.Value.bind_ne_variable {v : Value} (hv : ∀ u, v ≠ .variable u) (u : String) :
    v.bind vs ≠ .variable u := by
  cases v <;> simp_all [Value.bind]

theorem Document.Value.isUnset_of_ne_variable {v : Value} (hv : ∀ u, v ≠ .variable u) :
    v.isUnset vs = false := by
  cases v <;> simp_all [Value.isUnset]

mutual

/-- A bound value reads, under any variables, as the value reads under those it was bound
with. -/
theorem inputOf_bind (hvs : vs.Canonical) (w : Variables) :
    (v : Value) → ∀ {x : InputValue}, inputOf vs v = .ok x → inputOf w (v.bind vs) = .ok x
  | .variable n, x, h => by
    rw [inputOf] at h
    obtain ⟨o, hlookup, hx⟩ := Except.bind_eq_ok.mp h
    obtain ⟨hdeclared, ho⟩ := Variables.lookup_eq_ok_iff.mp hlookup
    cases hx
    cases o with
    | none =>
      simp only [Value.bind, List.contains_iff_mem, hdeclared, ho]
      rfl
    | some y =>
      simp only [Value.bind, List.contains_iff_mem, hdeclared, ho]
      exact (hvs.lookup ho).inputOf_literal w
  | .int _, _, h => h
  | .float _, _, h => h
  | .string _, _, h => h
  | .boolean _, _, h => h
  | .null, _, h => h
  | .enum _, _, h => h
  | .list items, _, h => by
    rw [inputOf] at h
    obtain ⟨xs, hxs, rfl⟩ := Except.map_eq_ok.mp h
    simp only [Value.bind, inputOf, inputsOf_bindItems hvs w items hxs]
    rfl
  | .object members, _, h => by
    rw [inputOf] at h
    obtain ⟨ms, hms, rfl⟩ := Except.map_eq_ok.mp h
    simp only [Value.bind, inputOf, membersOf_bindMembers hvs w members hms]
    rfl

theorem inputsOf_bindItems (hvs : vs.Canonical) (w : Variables) :
    (items : List Value) → ∀ {xs : List InputValue}, inputsOf vs items = .ok xs →
      inputsOf w (Value.bindItems vs items) = .ok xs
  | [], _, h => h
  | v :: rest, _, h => by
    rw [inputsOf] at h
    obtain ⟨x, hx, h⟩ := Except.bind_eq_ok.mp h
    obtain ⟨xs, hxs, h⟩ := Except.bind_eq_ok.mp h
    cases h
    simp only [Value.bindItems, inputsOf, inputOf_bind hvs w v hx,
      inputsOf_bindItems hvs w rest hxs]
    rfl

theorem membersOf_bindMembers (hvs : vs.Canonical) (w : Variables) :
    (members : List (String × Value)) → ∀ {ms : List (String × InputValue)},
      membersOf vs members = .ok ms → membersOf w (Value.bindMembers vs members) = .ok ms
  | [], _, h => h
  | (k, v) :: rest, _, h => by
    rw [membersOf] at h
    obtain ⟨x, hx, h⟩ := Except.bind_eq_ok.mp h
    obtain ⟨ms, hms, h⟩ := Except.bind_eq_ok.mp h
    cases h
    simp only [Value.bindMembers, membersOf, inputOf_bind hvs w v hx,
      membersOf_bindMembers hvs w rest hms]
    rfl

end

end Reading

/-! ### Arguments and directives -/

section Arguments

variable {vs : Variables}

theorem Document.bindArguments_cons (n : String) (v : Value) (rest : List (String × Value)) :
    bindArguments vs ((n, v) :: rest) =
      if v.isUnset vs then bindArguments vs rest else (n, v.bind vs) :: bindArguments vs rest := by
  by_cases h : v.isUnset vs <;> simp [bindArguments, h]

/-- An argument that is not a variable is read as a value. -/
theorem argumentsOf_cons_of_ne_variable {n : String} {v : Value} (hv : ∀ u, v ≠ .variable u)
    (rest : List (String × Value)) (acc : List (String × InputValue)) :
    argumentsOf vs ((n, v) :: rest) acc =
      inputOf vs v >>= fun x ↦ argumentsOf vs rest (NameMap.insert n x acc) := by
  cases v <;> first | rfl | exact absurd rfl (hv _)

/-- Bound arguments read, under any variables, as the arguments read under those they were
bound with. -/
theorem argumentsOf_bind (hvs : vs.Canonical) (w : Variables) (args : List (String × Value)) :
    ∀ {acc out : List (String × InputValue)}, argumentsOf vs args acc = .ok out →
      argumentsOf w (bindArguments vs args) acc = .ok out := by
  induction args with
  | nil => exact id
  | cons a rest ih =>
    intro acc out h
    obtain ⟨n, v⟩ := a
    by_cases hv : ∃ u, v = .variable u
    · -- an argument that is only a variable
      obtain ⟨u, rfl⟩ := hv
      rw [argumentsOf] at h
      obtain ⟨o, hlookup, h⟩ := Except.bind_eq_ok.mp h
      obtain ⟨hdeclared, ho⟩ := Variables.lookup_eq_ok_iff.mp hlookup
      cases o with
      | none =>
        -- declared without a value: left out on both sides
        have hunset : (Value.variable u).isUnset vs = true := by
          simp [Value.isUnset, hdeclared, ho]
        rw [bindArguments_cons, if_pos hunset]
        exact ih h
      | some y =>
        -- the literal of the value stands in its place
        have hkept : (Value.variable u).isUnset vs = false := by simp [Value.isUnset, ho]
        have hbind : (Value.variable u).bind vs = y.literal := by
          simp [Value.bind, hdeclared, ho]
        rw [bindArguments_cons, hkept, if_neg Bool.false_ne_true, hbind,
          argumentsOf_cons_of_ne_variable (y.literal_ne_variable),
          (hvs.lookup ho).inputOf_literal w]
        exact ih h
    · simp only [not_exists] at hv
      rw [argumentsOf_cons_of_ne_variable hv] at h
      obtain ⟨x, hx, h⟩ := Except.bind_eq_ok.mp h
      rw [bindArguments_cons, Value.isUnset_of_ne_variable hv, if_neg Bool.false_ne_true,
        argumentsOf_cons_of_ne_variable (Value.bind_ne_variable hv), inputOf_bind hvs w v hx]
      exact ih h

/-- The first argument of a name is still the first once bound, unless it is left out. -/
theorem find?_bindArguments {key : String} (args : List (String × Value)) :
    ∀ {k : String} {v : Value}, args.find? (·.1 == key) = some (k, v) → v.isUnset vs = false →
      (bindArguments vs args).find? (·.1 == key) = some (k, v.bind vs) := by
  induction args with
  | nil => simp
  | cons a rest ih =>
    intro k v hfind hv
    obtain ⟨n, u⟩ := a
    by_cases hn : n = key
    · subst hn
      simp only [List.find?_cons, beq_self_eq_true, Option.some.injEq, Prod.mk.injEq] at hfind
      obtain ⟨rfl, rfl⟩ := hfind
      rw [bindArguments_cons, hv, if_neg Bool.false_ne_true]
      simp
    · have hskip : ((n, u).1 == key) = false := by simpa using hn
      rw [List.find?_cons_of_neg (by simp [hskip])] at hfind
      rw [bindArguments_cons]
      split
      · exact ih hfind hv
      · rw [List.find?_cons_of_neg (by simp [hskip])]
        exact ih hfind hv

/-- A declared variable without a value reads as null. -/
theorem inputOf_of_isUnset {v : Value} (h : v.isUnset vs = true) : inputOf vs v = .ok .null := by
  obtain ⟨u, rfl⟩ : ∃ u, v = .variable u := by cases v <;> simp_all [Value.isUnset]
  simp only [Value.isUnset, Bool.and_eq_true, List.contains_iff_mem,
    Option.isNone_iff_eq_none] at h
  rw [inputOf, Variables.lookup_eq_ok_iff.mpr h]
  rfl

/-- A value that reads as something other than null is kept by binding. -/
theorem isUnset_eq_false {v : Value} {x : InputValue} (h : inputOf vs v = .ok x)
    (hx : x ≠ .null) : v.isUnset vs = false := by
  refine Bool.eq_false_iff.mpr fun hunset ↦ hx ?_
  rw [inputOf_of_isUnset hunset] at h
  exact (Except.ok.inj h).symm

/-- A condition read from a directive's arguments is the value of its `if` argument. -/
theorem exists_find?_if {args : List (String × Value)} {x : InputValue}
    (h : ((args.find? (·.1 == "if")).map (·.2)).mapM (inputOf vs) = .ok (some x)) :
    ∃ a, args.find? (·.1 == "if") = some a ∧ inputOf vs a.2 = .ok x := by
  cases hfind : args.find? (·.1 == "if") with
  | none => simp [hfind, pure, Except.pure] at h
  | some a =>
    simp only [hfind, Option.map_some, Option.mapM_some, Except.map_eq_ok] at h
    obtain ⟨y, hy, hyx⟩ := h
    cases hyx
    exact ⟨a, rfl, hy⟩

/-- Bound directives keep a selection, under any variables, as the directives do under the
variables they were bound with. -/
theorem included_bind (hvs : vs.Canonical) (w : Variables) (dirs : List Directive) :
    ∀ {b : Bool}, included vs dirs = .ok b →
      included w (dirs.map (Directive.bind vs)) = .ok b := by
  induction dirs with
  | nil => exact id
  | cons d rest ih =>
    intro b h
    rw [included] at h
    rw [List.map_cons, included]
    simp only [Directive.bind]
    by_cases hname : (d.name == "skip" || d.name == "include") = true
    · simp only [hname, ↓reduceIte] at h ⊢
      obtain ⟨condition, hcondition, h⟩ := Except.bind_eq_ok.mp h
      -- the condition is a boolean
      obtain ⟨flag, rfl⟩ : ∃ flag, condition = some (.boolean flag) := by
        split at h
        · exact ⟨_, rfl⟩
        · simp [throw, throwThe, MonadExceptOf.throw] at h
      -- read from an argument that binding keeps
      obtain ⟨⟨k, v⟩, hfind, hv⟩ := exists_find?_if hcondition
      rw [find?_bindArguments d.arguments hfind (isUnset_eq_false hv nofun)]
      refine Except.bind_eq_ok.mpr ⟨some (.boolean flag), ?_, ?_⟩
      · simp [inputOf_bind hvs w v hv, Functor.map, Except.map]
      · by_cases hflag : (flag != (d.name == "include")) = true
        · simpa [hflag] using h
        · simp only [hflag] at h ⊢
          exact ih h
    · simp only [hname, Bool.false_eq_true, ↓reduceIte] at h ⊢
      exact ih h

end Arguments

/-! ### Flattening a bound document -/

section Flattening

variable {fragments : List Fragment} {vs : Variables}

theorem find?_map_bind {name : String} {fragment : Fragment}
    (h : fragments.find? (·.name == name) = some fragment) :
    (fragments.map (Fragment.bind vs)).find? (·.name == name) = some (fragment.bind vs) := by
  rw [List.find?_map, show ((·.name == name) ∘ Fragment.bind vs) = (·.name == name) from rfl, h]
  rfl

/-- Flattening the bound selections, under any variables and with the bound fragments,
succeeds with the fields flattening succeeds with under the variables they were bound with. -/
theorem Flattens.bind (hvs : vs.Canonical) (w : Variables) {sels : List Selection}
    {cond : Option String} {spreading : List String} {out : List Field}
    (h : Flattens fragments vs sels cond spreading out) :
    Flattens (fragments.map (Fragment.bind vs)) w (Selection.bindAll vs sels) cond spreading
      out := by
  induction h with
  | nil => exact .nil
  | field hinc hargs _ _ ihSub ihRest =>
    exact .field (included_bind hvs w _ hinc) (argumentsOf_bind hvs w _ hargs) ihSub ihRest
  | fieldSkipped hskip _ ihRest => exact .fieldSkipped (included_bind hvs w _ hskip) ihRest
  | spread hinc hfound hfresh hnarrow _ _ ihBody ihRest =>
    exact .spread (included_bind hvs w _ hinc) (find?_map_bind hfound) hfresh hnarrow ihBody
      ihRest
  | spreadApart hinc hfound hfresh hapart _ ihRest =>
    exact .spreadApart (included_bind hvs w _ hinc) (find?_map_bind hfound) hfresh hapart ihRest
  | spreadSkipped hskip _ ihRest => exact .spreadSkipped (included_bind hvs w _ hskip) ihRest
  | inline hinc hnarrow _ _ ihBody ihRest =>
    exact .inline (included_bind hvs w _ hinc) hnarrow ihBody ihRest
  | inlineApart hinc hapart _ ihRest =>
    exact .inlineApart (included_bind hvs w _ hinc) hapart ihRest
  | inlineSkipped hskip _ ihRest => exact .inlineSkipped (included_bind hvs w _ hskip) ihRest

end Flattening

/-! ### The bound document -/

section Documents

variable {vs : Variables}

@[simp] theorem operationsOf_cons_operation (o : Operation) (rest : List Definition) :
    operationsOf (.operation o :: rest) = o :: operationsOf rest := rfl

@[simp] theorem operationsOf_cons_fragment (f : Fragment) (rest : List Definition) :
    operationsOf (.fragment f :: rest) = operationsOf rest := rfl

@[simp] theorem fragmentsOf_cons_operation (o : Operation) (rest : List Definition) :
    fragmentsOf (.operation o :: rest) = fragmentsOf rest := rfl

@[simp] theorem fragmentsOf_cons_fragment (f : Fragment) (rest : List Definition) :
    fragmentsOf (.fragment f :: rest) = fragmentsOf rest ++ [f] := by
  simp [fragmentsOf]

theorem operationsOf_map_bind (definitions : List Definition) :
    operationsOf (definitions.map (Definition.bind vs)) =
      (operationsOf definitions).map (Operation.bind vs) := by
  induction definitions with
  | nil => rfl
  | cons d rest ih => cases d <;> simp [Definition.bind, ih]

theorem fragmentsOf_map_bind (definitions : List Definition) :
    fragmentsOf (definitions.map (Definition.bind vs)) =
      (fragmentsOf definitions).map (Fragment.bind vs) := by
  induction definitions with
  | nil => rfl
  | cons d rest ih => cases d <;> simp [Definition.bind, ih]

/-- The fragments of the bound document are the document's, bound. -/
theorem fragmentsOf_inlineVariables (operationName : Option String)
    (definitions : List Definition) :
    fragmentsOf (inlineVariables vs operationName definitions) =
      (fragmentsOf definitions).map (Fragment.bind vs) := by
  induction definitions with
  | nil => rfl
  | cons d rest ih =>
    cases d with
    | operation o =>
      by_cases ho : o.answers operationName
      · simp [inlineVariables, ho, fragmentsOf_map_bind]
      · simp [inlineVariables, ho, ih]
    | fragment f => simp [inlineVariables, ih]

theorem find?_operationsOf_inlineVariables {n : String} {o : Operation}
    (definitions : List Definition)
    (h : (operationsOf definitions).find? (·.name == some n) = some o) :
    (operationsOf (inlineVariables vs (some n) definitions)).find? (·.name == some n) =
      some (o.inline vs) := by
  induction definitions with
  | nil => simp [operationsOf] at h
  | cons d rest ih =>
    cases d with
    | operation o' =>
      by_cases ho : o'.name = some n
      · simp only [operationsOf_cons_operation, List.find?_cons, ho, beq_self_eq_true,
          Option.some.injEq] at h
        subst h
        simp [inlineVariables, Operation.answers, Operation.inline, Operation.bind, ho]
      · have hskip : (o'.name == some n) = false := by simpa using ho
        simp only [operationsOf_cons_operation, List.find?_cons, hskip] at h
        simpa [inlineVariables, Operation.answers, Operation.bind, ho] using ih h
    | fragment f => simpa [inlineVariables] using ih (by simpa using h)

theorem operationsOf_inlineVariables_of_single {o : Operation} (definitions : List Definition)
    (h : operationsOf definitions = [o]) :
    operationsOf (inlineVariables vs none definitions) = [o.inline vs] := by
  induction definitions with
  | nil => simp [operationsOf] at h
  | cons d rest ih =>
    cases d with
    | operation o' =>
      simp only [operationsOf_cons_operation, List.cons.injEq] at h
      obtain ⟨rfl, hrest⟩ := h
      simp [inlineVariables, Operation.answers, operationsOf_map_bind, hrest]
    | fragment f => simpa [inlineVariables] using ih (by simpa using h)

/-- The bound document runs the operation the document runs, inlined. -/
theorem pickOperation_inlineVariables {definitions : List Definition}
    {operationName : Option String} {o : Operation}
    (h : pickOperation (operationsOf definitions) operationName = .ok o) :
    pickOperation (operationsOf (inlineVariables vs operationName definitions)) operationName =
      .ok (o.inline vs) := by
  cases operationName with
  | none =>
    -- the document's only operation
    have hsingle : operationsOf definitions = [o] := by
      rcases hops : operationsOf definitions with _ | ⟨o', _ | ⟨o'', rest⟩⟩ <;>
        simp_all [pickOperation]
    rw [operationsOf_inlineVariables_of_single definitions hsingle]
    rfl
  | some n =>
    have hfind : (operationsOf definitions).find? (·.name == some n) = some o := by
      cases hf : (operationsOf definitions).find? (·.name == some n) <;> simp_all [pickOperation]
    simp [pickOperation, find?_operationsOf_inlineVariables definitions hfind]

end Documents

/-- Variables behave as literals: when a parsed document gives a selection, its variables are
coerced, and the document with those values written in place of the variables, run with no
variables, gives the same selection. -/
theorem variables_are_inlined_literals {definitions : List Definition}
    {operationName : Option String} {provided : Json} {fields : List Field}
    (h : selectionOf definitions operationName provided = .ok fields) :
    ∃ operation vs, pickOperation (operationsOf definitions) operationName = .ok operation ∧
      Variables.coerce provided operation.variableDefinitions ⟨[], []⟩ = .ok vs ∧
      selectionOf (inlineVariables vs operationName definitions) operationName (.obj []) =
        .ok fields := by
  obtain ⟨operation, vs, hpick, hkind, hcoerce, hrun⟩ := selectionOf_eq_ok h
  have hvs : vs.Canonical :=
    Variables.Canonical.coerce (fun _ he ↦ absurd he List.not_mem_nil) hcoerce
  -- the bound selection set flattens, with no variables, to the same fields
  have hbound : Flattens (fragmentsOf (inlineVariables vs operationName definitions)) ⟨[], []⟩
      (Selection.bindAll vs operation.selection) none [] fields := by
    rw [fragmentsOf_inlineVariables]
    exact hrun.bind hvs ⟨[], []⟩
  refine ⟨operation, vs, hpick, hcoerce, ?_⟩
  simp [selectionOf, pickOperation_inlineVariables hpick, Operation.inline, Operation.bind,
    hkind, Variables.coerce, flatten_of_flattens hbound, bind, Except.bind]

/-- `query Q($id: ID!, $first: Int) { user(id: $id, first: $first) { name } }`: one variable
that a request gives a value and one that it leaves without. -/
def boundVariables : List Definition :=
  [.operation ⟨.query, some "Q",
    [⟨"id", .nonNull (.named "ID"), none⟩, ⟨"first", .named "Int", none⟩], [],
    [.field none "user" [("id", .variable "id"), ("first", .variable "first")] []
      [.field none "name" [] [] []]]⟩]

theorem boundVariables_inlined :
    selectionOf boundVariables (some "Q") (.obj [("id", .str "u1")]) =
        .ok [⟨none, "user", [("id", .string "u1")], none, [⟨none, "name", [], none, []⟩]⟩] ∧
      ∃ operation vs, pickOperation (operationsOf boundVariables) (some "Q") = .ok operation ∧
        Variables.coerce (.obj [("id", .str "u1")]) operation.variableDefinitions ⟨[], []⟩ =
          .ok vs ∧
        selectionOf (inlineVariables vs (some "Q") boundVariables) (some "Q") (.obj []) =
          .ok [⟨none, "user", [("id", .string "u1")], none, [⟨none, "name", [], none, []⟩]⟩] := by
  have h : selectionOf boundVariables (some "Q") (.obj [("id", .str "u1")]) =
      .ok [⟨none, "user", [("id", .string "u1")], none, [⟨none, "name", [], none, []⟩]⟩] := by
    simp [selectionOf, boundVariables, pickOperation, operationsOf, fragmentsOf,
      Variables.coerce, flatten, included, argumentsOf, Variables.lookup, Json.get?,
      TypeRef.isNonNull, InputValue.ofJson, NameMap.insert, List.lookup_cons, List.lookup_nil,
      bind, Except.bind, pure, Except.pure]
  exact ⟨h, variables_are_inlined_literals h⟩

end SocialGraph
