import Mathlib.Data.List.Forall2
import SocialGraph.Proofs.Refinement

/-!
# Outcomes have the shapes their fields declare

Each field of the schema is resolved by a resolver that gives what the field's shape says: a
leaf value, one object or none, or a list of objects (`ObjectType.consistent_field`). So on any
store, with any failing calls, every outcome of a level's tasks fails or settles to a value of
the shape its field declares (`levelOutcomes_fit`).
-/

namespace SocialGraph

/-! ### Shapes of values -/

/-- The resolver of a field gives values of the field's shape. -/
def FieldDef.Consistent (fd : FieldDef) : Prop :=
  match fd.resolver, fd.shape with
  | .typename, .leaf | .scalar, .leaf | .rootList _, .list _ | .rootLookup _, .object _ => True
  | .relation .profileMemberType, .object _ | .relation .userProfile, .object _
  | .relation .postAuthor, .object _ => True
  | .relation .userPosts, .list _ | .relation .userSubscribedTo, .list _
  | .relation .userSubscribedFrom, .list _ => True
  | _, _ => False

/-- Every field of the schema is consistent. -/
theorem ObjectType.consistent_field {t : ObjectType} {name : String} {fd : FieldDef}
    (h : t.field name = some fd) : fd.Consistent := by
  unfold ObjectType.field at h
  split at h
  · cases h
    trivial
  · split at h <;> cases h <;> trivial

/-- A first-phase value of a shape: a leaf value, one object (had or waited for), or a list of
objects (had or waited for). -/
def Resolution.Fits : Resolution → Shape → Prop
  | .value _, .leaf => True
  | .record _, .object _ | .deferred _ _, .object _ => True
  | .records _, .list _ | .deferredList _ _, .list _ => True
  | _, _ => False

/-- A settled value of a shape. -/
def Settled.Fits : Settled → Shape → Prop
  | .leaf _, .leaf | .object _, .object _ | .list _, .list _ => True
  | _, _ => False

/-- A first-phase result fits a shape when it failed or its value has the shape. -/
def resultFits (shape : Shape) : Except ResolveError Resolution → Prop
  | .ok r => r.Fits shape
  | .error _ => True

/-- An outcome fits a shape when it failed or settled to a value of the shape. -/
def Outcome.Fits (shape : Shape) : Outcome → Prop
  | .ok s => s.Fits shape
  | .error _ => True

/-! ### The two phases keep shapes -/

section Phases

variable (b : Batch)

theorem resultFits_follow {shape : Shape} {r : Relation} {n : Bool}
    (hc : FieldDef.Consistent ⟨.relation r, shape, n⟩) (t : ObjectType) (f : Field)
    (o : Option Record) : resultFits shape ((follow t f r o).run b).1 := by
  cases r <;> cases shape <;> (try exact (hc : False).elim)
  all_goals rcases o with _ | ⟨_ | _ | _ | _⟩
  all_goals simp only [follow, defer, deferUsers]
  case userProfile.object.some.user u =>
    simp only [StateT.run_bind, StateT.run_pure, id_bind_eq, id_pure_eq]
    cases ((Batch.scanByForeignKey .profileUser (.entity u.id)).run b).1 <;> trivial
  case userPosts.list.some.user u =>
    simp only [StateT.run_bind, StateT.run_pure, id_bind_eq, id_pure_eq]
    cases ((Batch.scanByForeignKey .postAuthor (.entity u.id)).run b).1 <;> trivial
  case userSubscribedTo.list.some.user u =>
    simp only [StateT.run_bind, id_bind_eq]
    cases ((Batch.scanAssociation .subscriber u.id).run b).1 <;> trivial
  case userSubscribedFrom.list.some.user u =>
    simp only [StateT.run_bind, id_bind_eq]
    cases ((Batch.scanAssociation .author u.id).run b).1 <;> trivial
  all_goals simp [resultFits, Resolution.Fits]

theorem resultFits_resolveField {fd : FieldDef} (hc : fd.Consistent) (t : ObjectType) (f : Field)
    (o : Option Record) : resultFits fd.shape ((resolveField t fd f o).run b).1 := by
  obtain ⟨resolver, shape, n⟩ := fd
  cases resolver with
  | relation r => exact resultFits_follow b hc t f o
  | typename =>
    cases shape <;> (try exact (hc : False).elim)
    trivial
  | scalar =>
    cases shape <;> (try exact (hc : False).elim)
    simp only [resolveField, StateT.run_pure, id_pure_eq]
    split <;> trivial
  | rootList kind =>
    cases shape <;> (try exact (hc : False).elim)
    simp only [resolveField, StateT.run_bind, StateT.run_pure, id_bind_eq, id_pure_eq]
    cases ((Batch.scanAll kind).run b).1 <;> trivial
  | rootLookup kind =>
    cases shape <;> (try exact (hc : False).elim)
    simp only [resolveField]
    cases lookupId kind f <;> simp [defer, resultFits, Resolution.Fits]

/-- Settling keeps the shape of a first-phase result. -/
theorem fits_settleOutcome {shape : Shape} {res : Except ResolveError Resolution}
    (h : resultFits shape res) : ((settleOutcome res).run b).1.Fits shape := by
  cases res with
  | error e => trivial
  | ok r =>
    cases r <;> cases shape <;> (try exact (h : False).elim)
    case value.leaf v => trivial
    case record.object r c => trivial
    case records.list rs c => trivial
    case deferred.object kind id c =>
      simp only [settleOutcome, Resolution.settle, StateT.run_bind, id_bind_eq]
      split <;> trivial
    case deferredList.list kind ids c =>
      simp only [settleOutcome, Resolution.settle, StateT.run_bind, StateT.run_pure, id_bind_eq,
        id_pure_eq]
      cases ((settleKeys kind ids []).run b).1 <;> trivial

end Phases

/-! ### The outcomes of a level -/

/-- Running a function over a list in a state monad relates each element to its result when
each run of the function does, from any state. -/
theorem forall₂_mapM {σ α β γ : Type} {f : α → StateM σ β} {R : γ → α → Prop}
    {S : γ → β → Prop} (h : ∀ c a s, R c a → S c ((f a).run s).1) {cs : List γ} {as : List α}
    (hR : List.Forall₂ R cs as) (s : σ) : List.Forall₂ S cs ((as.mapM f).run s).1 := by
  induction hR generalizing s with
  | nil => simp
  | cons hca _ ih =>
    simp only [List.mapM_cons, StateT.run_bind, StateT.run_pure, id_bind_eq, id_pure_eq]
    exact .cons (h _ _ _ hca) (ih _)

/-- Every task of a level resolves a field of the schema. -/
theorem consistent_of_mem_levelTasks {groups : List Group}
    {task : ObjectType × FieldDef × Field × Option Record}
    (h : task ∈ levelTasks (groups.map fun g ↦ (g, collectFields g.object g.selection))) :
    task.2.1.Consistent := by
  simp only [levelTasks, List.mem_flatMap] at h
  obtain ⟨gp, hgp, p, hp, hτ⟩ := h
  obtain ⟨g, -, rfl⟩ := List.mem_map.mp hgp
  cases hdef : p.definition with
  | error e => simp [hdef] at hτ
  | ok fd =>
    simp only [hdef, List.mem_map] at hτ
    obtain ⟨n, -, rfl⟩ := hτ
    exact ObjectType.consistent_field
      (field_of_fieldDef ((definition_of_mem_collectFields hp).symm.trans hdef))

/-- On any store and from any batch, every outcome of a level's tasks fits the shape of its
task's field. -/
theorem forall₂_levelOutcomes (groups : List Group) (b b' : Batch) :
    List.Forall₂ (fun task (o : Outcome) ↦ o.Fits task.2.1.shape)
      (levelTasks (groups.map fun g ↦ (g, collectFields g.object g.selection)))
      (((((levelTasks (groups.map fun g ↦ (g, collectFields g.object g.selection))).mapM
        resolveTask).run b).1.mapM settleOutcome).run b').1 := by
  generalize htasks : levelTasks (groups.map fun g ↦ (g, collectFields g.object g.selection)) =
    tasks
  have hsame : List.Forall₂ (fun c a ↦ c = a ∧ c ∈ tasks) tasks tasks :=
    List.forall₂_same.mpr fun τ hτ ↦ ⟨rfl, hτ⟩
  -- the first phase gives results of the tasks' shapes, and settling keeps them
  have hresults := forall₂_mapM (S := fun (τ : ObjectType × FieldDef × Field × Option Record) res ↦
      resultFits τ.2.1.shape res) (f := resolveTask) (fun τ τ' s ⟨hτ, hmem⟩ ↦ by
        subst hτ
        obtain ⟨t, fd, f, o⟩ := τ
        exact resultFits_resolveField s (consistent_of_mem_levelTasks (htasks ▸ hmem)) t f o)
    hsame b
  exact forall₂_mapM (fun _ _ s h ↦ fits_settleOutcome s h) hresults b'

end SocialGraph
