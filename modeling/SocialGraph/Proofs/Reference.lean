import SocialGraph.Engine.Execute

/-!
# The meaning of a selection on a dataset

A depth-first evaluator, with no cache and no batching, that gives the meaning of a selection
on a dataset (`Dataset.eval`). Each object's selection is planned as the executor plans it:
fields that do not apply to the object's type are dropped, fields are merged by response key,
and each planned field is checked against the schema. Each planned field is then resolved on
that object alone, straight from the dataset's lists (`Dataset.fieldOutcome`), and the objects
it gives are put together by the same rule before the next field is looked at.

A failed field, or one whose object could not be put together, is null; so is a list with an
object that could not be put together; and an object with a non-null field that is null cannot
be put together itself (`objectOfValues`).

The recursion goes down the selection: the merged sub-selections of a planned field are lower
than the selection it was planned from (`heightOf_children_lt`).
-/

namespace SocialGraph

/-! ### Heights of selections -/

theorem Field.height_eq (f : Field) : f.height = heightOf f.selection + 1 := by
  cases f
  rw [Field.height]

theorem heightOf_append (fs gs : List Field) :
    heightOf (fs ++ gs) = max (heightOf fs) (heightOf gs) := by
  induction fs with
  | nil => simp [heightOf]
  | cons f fs ih => rw [List.cons_append, heightOf, heightOf, ih, Nat.max_assoc]

theorem height_le_heightOf {f : Field} {fs : List Field} (h : f ∈ fs) : f.height ≤ heightOf fs := by
  induction fs with
  | nil => cases h
  | cons g gs ih =>
    rw [heightOf]
    rcases List.mem_cons.mp h with rfl | h
    · exact Nat.le_max_left _ _
    · exact Nat.le_trans (ih h) (Nat.le_max_right _ _)

/-- A field's sub-selection is lower than a selection that holds the field. -/
theorem heightOf_selection_lt {f : Field} {fs : List Field} (h : f ∈ fs) :
    heightOf f.selection < heightOf fs := by
  have hf := height_le_heightOf h
  rw [Field.height_eq] at hf
  omega

/-- A property of planned fields holds of a whole plan when adding any field of the selection
that applies to the type keeps it. -/
theorem forall_collectFields {t : ObjectType} {selection : List Field} (P : Planned → Prop)
    (step : ∀ plan, ∀ f ∈ selection, (∀ p ∈ plan, P p) → ∀ p ∈ addField t plan f, P p) :
    ∀ p ∈ collectFields t selection, P p := by
  -- the fold only adds fields of the selection, to a plan that has the property so far
  have hfold : ∀ (fs : List Field) (plan : List Planned), (∀ f ∈ fs, f ∈ selection) →
      (∀ p ∈ plan, P p) → ∀ p ∈ fs.foldl (addField t) plan, P p := by
    intro fs
    induction fs with
    | nil => exact fun _ _ h ↦ h
    | cons f fs ih =>
      intro plan hfs hplan
      refine ih _ (fun g hg ↦ hfs g (List.mem_cons_of_mem _ hg)) ?_
      exact step plan f (hfs f List.mem_cons_self) hplan
  exact hfold _ [] (fun f hf ↦ (List.mem_filter.mp hf).1) (by simp)

/-- The merged sub-selections of a planned field are lower than the selection it was planned
from. -/
theorem heightOf_children_lt {t : ObjectType} {selection : List Field} {p : Planned}
    (hp : p ∈ collectFields t selection) : heightOf p.children < heightOf selection := by
  refine forall_collectFields (fun p ↦ heightOf p.children < heightOf selection) ?_ p hp
  intro plan f hf hplan q hq
  have hlt := heightOf_selection_lt hf
  unfold addField at hq
  split at hq
  · obtain ⟨q', hq', rfl⟩ := List.mem_map.mp hq
    split
    · show heightOf (q'.children ++ f.selection) < _
      rw [heightOf_append]
      exact Nat.max_lt.mpr ⟨hplan q' hq', hlt⟩
    · exact hplan q' hq'
  · rcases List.mem_append.mp hq with hq | hq
    · exact hplan q hq
    · rw [List.mem_singleton.mp hq]
      exact hlt

/-! ### Resolving a field straight from the dataset -/

namespace Dataset

variable (d : Dataset)

/-- The records of one kind, in the dataset's order. -/
def ofKind : RecordKind → List Record
  | .memberTier => d.memberTypes.map .memberTier
  | .user => d.users.map .user
  | .profile => d.profiles.map .profile
  | .post => d.posts.map .post

/-- The record of a kind with a key: the first one in the dataset's order. -/
def lookup (kind : RecordKind) (id : RecordId) : Option Record :=
  (d.ofKind kind).find? (·.id == id)

/-- Follows a relation from an object's record. The users a user subscribes to (or that
subscribe to them) are taken row by row, leaving out a row whose user is not in the dataset. -/
def follow (t : ObjectType) (f : Field) : Relation → Option Record → Outcome
  | .profileMemberType, some (.profile p) =>
    .ok (.object (d.lookup .memberTier (.tier p.memberTypeId)))
  | .userProfile, some (.user u) =>
    .ok (.object ((d.profiles.find? (·.userId == u.id)).map .profile))
  | .userPosts, some (.user u) => .ok (.list ((d.posts.filter (·.authorId == u.id)).map .post))
  | .userSubscribedTo, some (.user u) =>
    .ok (.list ((d.subscriptions.filter (·.subscriberId == u.id)).filterMap fun s ↦
      d.lookup .user (.entity s.authorId)))
  | .userSubscribedFrom, some (.user u) =>
    .ok (.list ((d.subscriptions.filter (·.authorId == u.id)).filterMap fun s ↦
      d.lookup .user (.entity s.subscriberId)))
  | .postAuthor, some (.post p) => .ok (.object (d.lookup .user (.entity p.authorId)))
  | _, _ => .error (unknownField t f)

/-- The outcome of a field on one object of a type, with its record (none for the root). -/
def fieldOutcome (t : ObjectType) (fd : FieldDef) (f : Field) (o : Option Record) : Outcome :=
  match fd.resolver with
  | .typename => .ok (.leaf (.str t.name))
  | .scalar =>
    match o.bind (·.scalar f.name) with
    | some v => .ok (.leaf v)
    | none => .error (unknownField t f)
  | .rootList kind => .ok (.list (d.ofKind kind))
  | .rootLookup kind => (lookupId kind f).map fun id ↦ .object (d.lookup kind id)
  | .relation r => d.follow t f r o

/-- The outcome of a planned field on one object; an invalid field fails. -/
def plannedOutcome (t : ObjectType) (o : Option Record) (p : Planned) : Outcome :=
  match p.definition with
  | .ok fd => d.fieldOutcome t fd p.field o
  | .error e => .error e

end Dataset

/-! ### Putting objects together -/

/-- The value of a planned field from its outcome, given how an object of the field's type is
put together: a failure or a missing object is null, and so is a list with an object that
cannot be put together. -/
def Planned.complete (p : Planned) (object : ObjectType → Record → Option ObjectData) :
    Outcome → Json
  | .error _ => .null
  | .ok (.leaf v) => v
  | .ok (.object none) => .null
  | .ok (.object (some r)) =>
    match p.childType with
    | some c => ((object c r).map Json.obj).getD .null
    | none => .null
  | .ok (.list rs) =>
    match p.childType with
    | some c => ((rs.mapM (object c)).map fun os ↦ Json.arr (os.map Json.obj)).getD .null
    | none => .null

/-- An object from the values of its planned fields, in plan order; none when a non-null
field is null. -/
def objectOfValues (values : List (Planned × Json)) : Option ObjectData :=
  if values.any (fun (p, v) ↦ isNull v && !p.nullable) then none
  else some (values.map fun (p, v) ↦ (p.key, v))

namespace Dataset

variable (d : Dataset)

/-- The object a selection gives on an object of a type with a record, or none when it cannot
be put together. -/
def evalObject (t : ObjectType) (o : Option Record) (selection : List Field) :
    Option ObjectData :=
  objectOfValues ((collectFields t selection).attach.map fun ⟨p, _⟩ ↦
    (p, p.complete (fun c r ↦ evalObject c (some r) p.children) (d.plannedOutcome t o p)))
termination_by heightOf selection
decreasing_by exact heightOf_children_lt (by assumption)

/-- The value of a planned field on one object. -/
def evalField (t : ObjectType) (o : Option Record) (p : Planned) : Json :=
  p.complete (fun c r ↦ d.evalObject c (some r) p.children) (d.plannedOutcome t o p)

theorem evalObject_eq (t : ObjectType) (o : Option Record) (selection : List Field) :
    d.evalObject t o selection =
      objectOfValues ((collectFields t selection).map fun p ↦ (p, d.evalField t o p)) := by
  rw [evalObject]
  congr 1
  exact List.map_attach_eq_pmap.trans (List.pmap_eq_map _)

/-- The data of a selection on a dataset: the root object, or null when it cannot be put
together. -/
def eval (selection : List Field) : Json :=
  ((d.evalObject .query none selection).map Json.obj).getD .null

end Dataset

end SocialGraph
