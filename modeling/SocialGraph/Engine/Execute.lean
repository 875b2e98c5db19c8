import SocialGraph.Engine.Resolve

/-!
# Executing a selection

A selection is executed level by level. A level is a list of groups; a group is a list of
objects of one type (their records and their paths in the response) and the fields selected
on them. For each level:

1. Each group's selection is planned: fields that do not apply to the group's type are
   dropped, fields are merged by response key (the first field with a key stands for all of
   them, and the sub-selections of all of them are joined), and each planned field is checked
   against the schema. An invalid field is reported once per group, at the path of the group's
   first object.
2. Every valid planned field is resolved on every object of its group, group by group, field
   by field, object by object. Then the pending keys are fetched in one flush, and the
   resolutions are settled in the same order.
3. A field that failed is reported at its path. The objects a field gives become the next
   level's group for that field: one group per planned field with an object type, holding the
   objects it gave on every object of the group.
4. After the next level is done, each object is put together from its fields. A field that
   failed, or whose object could not be put together, is null; so is a list with a member that
   could not be put together. When a non-null field is null, the object itself cannot be put
   together, and unless the field's null was already reported, it is reported as a nullability
   error.

The root is one object of type `Query` with no record. Every level goes one step down the
selection, so a selection of height `h` is done after `h` levels.
-/

namespace SocialGraph

/-- An object whose fields are resolved: its record (none for the root) and its path. -/
structure Node where
  record : Option Record
  path : List PathSegment

/-- Objects of one type at one level, and the fields selected on them. -/
structure Group where
  object : ObjectType
  selection : List Field
  parents : List Node

/-- A planned field: its response key, the first field with that key, its definition (or why
it is invalid), and the sub-selections of every field with that key. -/
structure Planned where
  key : String
  field : Field
  definition : Except ResolveError FieldDef
  children : List Field

namespace Planned

/-- Whether the field may be null; an invalid field may. -/
def nullable (p : Planned) : Bool :=
  match p.definition with
  | .ok d => d.nullable
  | .error _ => true

/-- The type of the objects the field gives, if it gives objects. -/
def childType (p : Planned) : Option ObjectType :=
  match p.definition with
  | .ok ⟨_, .object t, _⟩ | .ok ⟨_, .list t, _⟩ => some t
  | _ => none

end Planned

/-- The definition of a selected field, or why it is invalid: the type has no such field, it
has an argument it does not take, or its sub-selection does not fit what it gives. -/
def fieldDef (t : ObjectType) (f : Field) : Except ResolveError FieldDef := do
  let some d := t.field f.name | throw (unknownField t f)
  checkArguments t d f
  match d.shape, f.selection.isEmpty with
  | .leaf, false => throw (.validation ("Field \"" ++ f.name ++
      "\" must not have a selection since it has no subfields."))
  | .object c, true | .list c, true => throw (.validation ("Field \"" ++ f.name ++
      "\" of type \"" ++ c.name ++ "\" must have a selection of subfields."))
  | _, _ => pure d

/-- Adds a selected field to a plan: its sub-selection joins the planned field of its response
key, or it is planned anew after the others. -/
def addField (t : ObjectType) (plan : List Planned) (f : Field) : List Planned :=
  if plan.any (·.key == f.responseKey) then
    plan.map fun p =>
      if p.key == f.responseKey then { p with children := p.children ++ f.selection } else p
  else plan ++ [⟨f.responseKey, f, fieldDef t f, f.selection⟩]

/-- The plan of a selection on a type. -/
def collectFields (t : ObjectType) (selection : List Field) : List Planned :=
  (selection.filter (·.appliesTo t.name)).foldl (addField t) []

/-- What became of a field on one object: a value, a failure, the index of the object it gave
among the next level's objects, or the range of indices of the list it gave. -/
inductive Cell where
  | ready (v : Json)
  | failed
  | object (child : Nat)
  | list (start stop : Nat)

/-- The fields of an object that could be put together, in plan order. -/
abbrev ObjectData := List (String × Json)

/-- A settled outcome of one field on one object. -/
abbrev Outcome := Except ResolveError Settled

/-! ### The cells of a level -/

/-- The cell an outcome gives, when the field has already given `start` objects on earlier
objects of its group. -/
def Cell.ofOutcome (start : Nat) : Outcome → Cell
  | .error _ => .failed
  | .ok (.leaf v) => .ready v
  | .ok (.object none) => .ready .null
  | .ok (.object (some _)) => .object start
  | .ok (.list rs) => .list start (start + rs.length)

/-- The objects an outcome gives, with their paths below the field's path. -/
def childNodes (path : List PathSegment) : Outcome → List Node
  | .ok (.object (some r)) => [⟨some r, path⟩]
  | .ok (.list rs) => rs.zipIdx.map fun (r, i) => ⟨some r, path ++ [.index i]⟩
  | _ => []

/-- The error an outcome reports at the field's path. -/
def outcomeErrors (path : List PathSegment) : Outcome → List ResponseError
  | .error e => [ResponseError.atPath path e]
  | .ok _ => []

/-- The cells of one planned field on the objects of its group so far, the objects the field
gave on them, and the errors reported. -/
structure Column where
  cells : List Cell
  children : List Node
  errors : List ResponseError

/-- Adds the outcome of the field on one more object to a column. -/
def Column.push (key : String) (col : Column) (node : Node) (outcome : Outcome) : Column :=
  let path := node.path ++ [.key key]
  ⟨col.cells ++ [Cell.ofOutcome col.children.length outcome],
    col.children ++ childNodes path outcome, col.errors ++ outcomeErrors path outcome⟩

/-- The column of one planned field, from its settled outcomes in object order. -/
def columnOf (p : Planned) (parents : List Node) (outcomes : List Outcome) : Column :=
  (parents.zip outcomes).foldl (fun col (node, outcome) => col.push p.key node outcome) ⟨[], [], []⟩

/-- What is carried from field to field while a level is laid out: the outcomes not yet
used, the groups of the next level, and the errors reported. -/
structure Layout where
  queue : List Outcome
  next : List Group
  errors : List ResponseError

/-- Lays out one planned field of a group: an invalid field fails on every object; a valid
one takes an outcome per object from the front of the queue, and the objects it gives become
a group of the next level. Gives the field's column of cells and its target among the next
level's groups. -/
def layoutField (g : Group) (lay : Layout) (p : Planned) :
    Layout × List Cell × Option Nat :=
  match p.definition with
  | .error _ => (lay, g.parents.map fun _ => .failed, none)
  | .ok _ =>
    let col := columnOf p g.parents (lay.queue.take g.parents.length)
    let lay : Layout := ⟨lay.queue.drop g.parents.length, lay.next, lay.errors ++ col.errors⟩
    match p.childType with
    | some c =>
      if col.children.isEmpty then (lay, col.cells, none)
      else ({ lay with next := lay.next ++ [⟨c, p.children, col.children⟩] }, col.cells,
        some lay.next.length)
    | none => (lay, col.cells, none)

/-- Lays out the planned fields of one group, in plan order. -/
def layoutFields (g : Group) : List Planned → Layout → Layout × List (List Cell) × List (Option Nat)
  | [], lay => (lay, [], [])
  | p :: ps, lay =>
    let (lay, column, target) := layoutField g lay p
    let (lay, columns, targets) := layoutFields g ps lay
    (lay, column :: columns, target :: targets)

/-- Lays out the groups of a level, in order: for each group, the columns and targets of its
planned fields. -/
def layoutGroups : List (Group × List Planned) → Layout →
    Layout × List (List (List Cell) × List (Option Nat))
  | [], lay => (lay, [])
  | (g, plan) :: rest, lay =>
    let (lay, columns, targets) := layoutFields g plan lay
    let (lay, groups) := layoutGroups rest lay
    (lay, (columns, targets) :: groups)

/-! ### Putting objects together -/

/-- The object put together at an index of a next-level group, if it could be. -/
def takeChild (nested : List (List (Option ObjectData))) (target : Option Nat) (child : Nat) :
    Option ObjectData :=
  target.bind fun t => (nested[t]?).bind fun objects => (objects[child]?).join

/-- Whether a value is null. -/
def isNull : Json → Bool
  | .null => true
  | _ => false

/-- The value a cell stands for once the next level is done, and whether a null in it was
reported already. -/
def Cell.value (nested : List (List (Option ObjectData))) (target : Option Nat) :
    Cell → Json × Bool
  | .ready v => (v, false)
  | .failed => (.null, true)
  | .object child =>
    match takeChild nested target child with
    | some o => (.obj o, false)
    | none => (.null, true)
  | .list start stop =>
    match (List.range' start (stop - start)).mapM (takeChild nested target) with
    | some items => (.arr (items.map Json.obj), false)
    | none => (.null, true)

/-- Puts the fields of an object together, in plan order: the entries, whether a non-null
field is null, and the nullability errors of the non-null fields whose null was not reported
already. -/
def assembleFields (t : ObjectType) (nested : List (List (Option ObjectData))) (node : Node) :
    List ((Planned × Option Nat) × Cell) → ObjectData × Bool × List ResponseError
  | [] => ([], false, [])
  | ((p, target), cell) :: rest =>
    let (value, reported) := cell.value nested target
    let violated := isNull value && !p.nullable
    let errors := if violated && !reported then
        [ResponseError.atPath (node.path ++ [.key p.key]) (.nullability t.name p.field.name)]
      else []
    let (data, bubbled, later) := assembleFields t nested node rest
    ((p.key, value) :: data, violated || bubbled, errors ++ later)

/-- Puts an object together from its row of cells; none when a non-null field is null. -/
def assemble (t : ObjectType) (plan : List Planned) (targets : List (Option Nat))
    (nested : List (List (Option ObjectData))) (node : Node) (row : List Cell) :
    Option ObjectData × List ResponseError :=
  let (data, bubbled, errors) := assembleFields t nested node ((plan.zip targets).zip row)
  (if bubbled then none else some data, errors)

/-- Puts together every object of a group, in order, from the group's columns. -/
def assembleGroup (g : Group) (plan : List Planned) (columns : List (List Cell))
    (targets : List (Option Nat)) (nested : List (List (Option ObjectData))) :
    List (Option ObjectData) × List ResponseError :=
  let assembled := g.parents.zipIdx.map fun (node, i) =>
    assemble g.object plan targets nested node (columns.map fun (column : List Cell) => column.getD i .failed)
  (assembled.map (·.1), assembled.flatMap (·.2))

/-- Puts together the objects of every group of a level. -/
def assembleLevel (groups : List (Group × List Planned))
    (layouts : List (List (List Cell) × List (Option Nat)))
    (nested : List (List (Option ObjectData))) :
    List (List (Option ObjectData)) × List ResponseError :=
  let assembled := (groups.zip layouts).map fun ((g, plan), (columns, targets)) =>
    assembleGroup g plan columns targets nested
  (assembled.map (·.1), assembled.flatMap (·.2))

/-! ### The levels -/

/-- The errors of the invalid planned fields of a level: each is reported once per group, at
the path of the group's first object. -/
def invalidErrors (groups : List (Group × List Planned)) : List ResponseError :=
  groups.flatMap fun (g, plan) =>
    match g.parents.head? with
    | some first => plan.filterMap fun p =>
        match p.definition with
        | .error e => some (ResponseError.atPath (first.path ++ [.key p.key]) e)
        | .ok _ => none
    | none => []

/-- The resolutions a level runs, in order: every valid planned field on every object of its
group, group by group, field by field, object by object. -/
def levelTasks (groups : List (Group × List Planned)) :
    List (ObjectType × FieldDef × Field × Option Record) :=
  groups.flatMap fun (g, plan) =>
    plan.flatMap fun p =>
      match p.definition with
      | .ok d => g.parents.map fun n => (g.object, d, p.field, n.record)
      | .error _ => []

/-- The first phase of one task of a level. -/
def resolveTask : ObjectType × FieldDef × Field × Option Record →
    StateM Batch (Except ResolveError Resolution)
  | (t, d, f, r) => resolveField t d f r

/-- Settles a first-phase result; a failure stays a failure. -/
def settleOutcome : Except ResolveError Resolution → StateM Batch Outcome
  | .ok r => r.settle
  | .error e => pure (.error e)

/-- Resolves a level of groups and every level below it: for each group, the objects put
together (none for an object that could not be), and the errors reported, in order. `fuel`
bounds the levels. -/
def resolveLevel : Nat → List Group →
    StateM Batch (List (List (Option ObjectData)) × List ResponseError)
  | 0, _ => return ([], [])
  | fuel + 1, groups => do
    if groups.isEmpty then return ([], [])
    let planned := groups.map fun g => (g, collectFields g.object g.selection)
    let outcomes ← (levelTasks planned).mapM resolveTask
    Batch.flush
    let settled ← outcomes.mapM settleOutcome
    let (lay, layouts) := layoutGroups planned ⟨settled, [], []⟩
    let (nested, deeper) ← resolveLevel fuel lay.next
    let (resolved, nullErrors) := assembleLevel planned layouts nested
    return (resolved, invalidErrors planned ++ lay.errors ++ deeper ++ nullErrors)

mutual

/-- The height of a field: one more than the height of its sub-selection. -/
def Field.height : Field → Nat
  | ⟨_, _, _, _, selection⟩ => heightOf selection + 1

/-- The height of a selection: the greatest height of its fields, zero when empty. -/
def heightOf : List Field → Nat
  | [] => 0
  | f :: fs => max f.height (heightOf fs)

end

/-- Executes a selection against a store with failure rules: the response, and the calls made
to the store in order. -/
def execute (store : Store) (rules : List FailureRule) (selection : List Field) :
    Response × List StoreCall :=
  let root : Group := ⟨.query, selection, [⟨none, []⟩]⟩
  let ((levels, errors), final) :=
    Id.run ((resolveLevel (heightOf selection + 1) [root]).run (Batch.fresh store rules))
  let data := match levels.getLast? >>= List.getLast? with
    | some (some o) => Json.obj o
    | _ => Json.null
  (⟨some data, errors⟩, final.session.calls)

end SocialGraph
