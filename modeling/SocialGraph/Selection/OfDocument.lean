import SocialGraph.Document.Grammar
import SocialGraph.Selection.Basic
import SocialGraph.Selection.Error

/-!
# The selection of a document

A request's document becomes a selection in four steps.

* The operation is chosen: by its name when one is given (the first with that name), or else
  the only operation of the document. Only queries run.
* The operation's variables are given values: the request's value, or else the default of the
  declaration. A non-null variable whose value is missing or null refuses the request. A
  declared variable may stay without a value; an argument that is only that variable is then
  left out.
* Selections under `@skip(if: true)` or `@include(if: false)` are dropped. The first such
  directive that holds decides, and the directives after it are not looked at.
* Fragments are flattened: the fields of a spread or inline fragment take the place of the
  fragment, marked with its type condition. A fragment inside a fragment of another type can
  never apply and is dropped; a fragment spread inside its own expansion refuses the request.
  When a name is defined by several fragments, the last one counts.
-/

namespace SocialGraph

open Document

/-- The variables of the chosen operation: the names it declares, and the values they have. -/
structure Variables where
  declared : List String
  values : List (String × InputValue)

namespace Variables

/-- The value of a variable; none for a declared variable without a value. -/
def lookup (vs : Variables) (name : String) : Except SelectionError (Option InputValue) :=
  if vs.declared.contains name then .ok (vs.values.lookup name)
  else .error (.undefinedVariable name)

end Variables

mutual

/-- An input value of a document value, with variables replaced by their values (null when
they have none). -/
def inputOf (vs : Variables) : Value → Except SelectionError InputValue
  | .variable n => do return (← vs.lookup n).getD .null
  | .int n => .ok (.int n)
  | .float x => .ok (.float x)
  | .string s => .ok (.string s)
  | .boolean b => .ok (.boolean b)
  | .null => .ok .null
  | .enum n => .ok (.enum n)
  | .list items => .list <$> inputsOf vs items
  | .object members => (.object ∘ NameMap.ofList) <$> membersOf vs members

/-- The input values of document values, in order. -/
def inputsOf (vs : Variables) : List Value → Except SelectionError (List InputValue)
  | [] => .ok []
  | v :: rest => do
    let x ← inputOf vs v
    return x :: (← inputsOf vs rest)

/-- The input values of object members, in order. -/
def membersOf (vs : Variables) :
    List (String × Value) → Except SelectionError (List (String × InputValue))
  | [] => .ok []
  | (k, v) :: rest => do
    let x ← inputOf vs v
    return (k, x) :: (← membersOf vs rest)

end

namespace Variables

/-- Gives the declared variables their values, declaration by declaration, starting from the
variables given so far. -/
def coerce (provided : Json) : List VariableDefinition → Variables → Except SelectionError Variables
  | [], vs => .ok vs
  | d :: rest, vs => do
    let value ← match provided.get? d.name with
      | some j => pure (some (InputValue.ofJson j))
      | none => d.default.mapM (inputOf ⟨[], []⟩)
    let missing := match value with
      | none | some .null => true
      | some _ => false
    if missing && d.type.isNonNull then throw (.missingVariable d.name d.type.render)
    let values := match value with
      | some v => NameMap.insert d.name v vs.values
      | none => vs.values
    coerce provided rest ⟨d.name :: vs.declared, values⟩

end Variables

/-- Whether `@skip` and `@include` keep a selection. -/
def included (vs : Variables) : List Directive → Except SelectionError Bool
  | [] => .ok true
  | d :: rest =>
    if d.name == "skip" || d.name == "include" then do
      let expected := d.name == "include"
      let condition ← ((d.arguments.find? (·.1 == "if")).map (·.2)).mapM (inputOf vs)
      match condition with
      | some (.boolean flag) => if flag != expected then return false else included vs rest
      | _ => throw (.invalidDirective d.name)
    else included vs rest

/-- Combines the type condition in force with a fragment's; none when no object can meet
both. -/
def narrow (outer inner : Option String) : Option (Option String) :=
  match outer, inner with
  | some o, some i => if o != i then none else some (some i)
  | o, i => some (i.orElse fun _ => o)

/-- The arguments of a field, sorted by name. An argument that is a variable without a value
is left out; when a name is written twice, the later value counts. -/
def argumentsOf (vs : Variables) :
    List (String × Value) → List (String × InputValue) →
      Except SelectionError (List (String × InputValue))
  | [], acc => .ok acc
  | (n, .variable v) :: rest, acc => do
    match ← vs.lookup v with
    | some x => argumentsOf vs rest (NameMap.insert n x acc)
    | none => argumentsOf vs rest acc
  | (n, v) :: rest, acc => do argumentsOf vs rest (NameMap.insert n (← inputOf vs v) acc)

/-- The first fragment with a name, with the evidence that it is one of the fragments and has
that name. -/
def findFragment : (fragments : List Fragment) → (name : String) →
    Option {fragment : Fragment // fragment ∈ fragments ∧ fragment.name = name}
  | [], _ => none
  | f :: fs, name =>
    if h : f.name = name then some ⟨f, List.mem_cons_self, h⟩
    else (findFragment fs name).map fun g => ⟨g.1, List.mem_cons_of_mem f g.2.1, g.2.2⟩

/-- The number of fragment names that are not on a spreading stack: how many more fragments a
spread can still expand. -/
def unspread (fragments : List Fragment) (spreading : List String) : Nat :=
  ((fragments.map (·.name)).eraseDups.filter fun n => !spreading.contains n).length

/-- Expanding a fragment that is not on the stack leaves fewer names to expand. -/
theorem unspread_cons_lt {fragments : List Fragment} {spreading : List String} {name : String}
    {fragment : Fragment} (hmem : fragment ∈ fragments) (hname : fragment.name = name)
    (hfresh : ¬ spreading.contains name = true) :
    unspread fragments (name :: spreading) < unspread fragments spreading := by
  have hnames : name ∈ (fragments.map (·.name)).eraseDups := by
    rw [List.mem_eraseDups]
    exact List.mem_map.mpr ⟨fragment, hmem, hname⟩
  -- the names left after the push are those left before, less `name`
  have hfilter : ((fragments.map (·.name)).eraseDups.filter fun n => !(name :: spreading).contains n) =
      (((fragments.map (·.name)).eraseDups.filter fun n => !spreading.contains n).filter
        fun n => n != name) := by
    rw [List.filter_filter]
    congr 1
    funext n
    by_cases h : n = name <;> simp [h]
  unfold unspread
  rw [hfilter]
  apply List.length_filter_lt_length_iff_exists.mpr
  exact ⟨name, List.mem_filter.mpr ⟨hnames, by simpa using hfresh⟩, by simp⟩

/-- The fields of selections under a type condition, with fragments flattened. `spreading`
holds the fragments being expanded. Each spread either puts a fragment name on the stack that
was not there or is refused, and every other step goes into a smaller selection, so the
recursion ends. -/
def flatten (fragments : List Fragment) (vs : Variables) :
    List Selection → Option String → List String → Except SelectionError (List Field)
  | [], _, _ => .ok []
  | .field aliasName name args dirs sub :: rest, cond, spreading => do
    let here ← if ← included vs dirs then do
        let arguments ← argumentsOf vs args []
        let selection ← flatten fragments vs sub none spreading
        pure [⟨aliasName, name, arguments, cond, selection⟩]
      else pure []
    return here ++ (← flatten fragments vs rest cond spreading)
  | .spread name dirs :: rest, cond, spreading => do
    let here ← if ← included vs dirs then do
        match findFragment fragments name with
        | none => throw (.unknownFragment name)
        | some ⟨fragment, _hfound⟩ =>
          if _hcycle : spreading.contains name then throw (.fragmentCycle name)
          else
            match narrow cond (some fragment.typeCondition) with
            | some c => flatten fragments vs fragment.selection c (name :: spreading)
            | none => pure []
      else pure []
    return here ++ (← flatten fragments vs rest cond spreading)
  | .inline typeCondition dirs sub :: rest, cond, spreading => do
    let here ← if ← included vs dirs then do
        match narrow cond typeCondition with
        | some c => flatten fragments vs sub c spreading
        | none => pure []
      else pure []
    return here ++ (← flatten fragments vs rest cond spreading)
termination_by sels _ spreading => (unspread fragments spreading, sizeOf sels)
decreasing_by
  all_goals first
    | exact Prod.Lex.left _ _ (unspread_cons_lt _hfound.1 _hfound.2 _hcycle)
    | (apply Prod.Lex.right; simp; try omega)

/-- The operation a request asks for. -/
def pickOperation (operations : List Operation) :
    Option String → Except SelectionError Operation
  | some n =>
    match operations.find? (·.name == some n) with
    | some o => .ok o
    | none => .error (.unknownOperation n)
  | none =>
    match operations with
    | [o] => .ok o
    | [] => .error .noOperation
    | _ => .error .ambiguousOperation

/-- The operations of a document, in order. -/
def operationsOf (definitions : List Definition) : List Operation :=
  definitions.filterMap fun
    | .operation o => some o
    | .fragment _ => none

/-- The fragments of a document, latest first, so that looking a name up finds the last
fragment defined with it. -/
def fragmentsOf (definitions : List Definition) : List Fragment :=
  (definitions.filterMap fun
    | .fragment f => some f
    | .operation _ => none).reverse

/-- The selection of a parsed document: the name of the operation to run, and the variables (a
JSON object). -/
def selectionOf (definitions : List Definition) (operationName : Option String)
    (provided : Json) : Except SelectionError (List Field) := do
  let operation ← pickOperation (operationsOf definitions) operationName
  if operation.kind != .query then throw (.unsupportedOperation operation.kind)
  let vs ← Variables.coerce provided operation.variableDefinitions ⟨[], []⟩
  flatten (fragmentsOf definitions) vs operation.selection none []

/-- The selection of a request: its document, the name of the operation to run, and the
variables (a JSON object). -/
def buildSelection (query : String) (operationName : Option String) (provided : Json) :
    Except SelectionError (List Field) := do
  let definitions ← (parseDocument query).mapError .parse
  selectionOf definitions operationName provided

end SocialGraph
