import SocialGraph.Engine.Execute

/-!
# Paths in a response

An error of a response names the entry it concerns by a path of keys and list positions from
the root. Two paths are apart when neither is a prefix of the other, so that nothing lies below
both (`PathsApart`), and two errors are apart when their paths are (`ErrorsApart`). A path
reaches null in a value when it can be followed through keys and positions that are there
until a null is met, at its end or before (`ReachesNull`).

The objects of a level of an execution lie apart when any two of them, told apart by their
group and their index in it, have paths that are apart (`NodesApart`). Errors below the fields
of such objects are then apart when they are below different objects or different keys
(`errorsApart_field`).
-/

namespace SocialGraph

/-! ### Paths apart -/

/-- Neither path is a prefix of the other. -/
def PathsApart (p q : List PathSegment) : Prop := ¬ p <+: q ∧ ¬ q <+: p

namespace PathsApart

theorem symm {p q : List PathSegment} (h : PathsApart p q) : PathsApart q p := ⟨h.2, h.1⟩

theorem ne {p q : List PathSegment} (h : PathsApart p q) : p ≠ q := by
  rintro rfl
  exact h.1 (List.prefix_refl p)

/-- What lies below two paths that are apart is apart. -/
theorem append {p q : List PathSegment} (h : PathsApart p q) (x y : List PathSegment) :
    PathsApart (p ++ x) (q ++ y) := by
  -- two prefixes of one path are prefixes of each other, one way or the other
  have below : ∀ {p q : List PathSegment} (x y : List PathSegment), ¬ p <+: q → ¬ q <+: p →
      ¬ p ++ x <+: q ++ y := by
    intro p q x y hpq hqp h
    rcases List.prefix_or_prefix_of_prefix ((List.prefix_append p x).trans h)
      (List.prefix_append q y) with h' | h'
    · exact hpq h'
    · exact hqp h'
  exact ⟨below x y h.1 h.2, below y x h.2 h.1⟩

theorem append_left (r : List PathSegment) {p q : List PathSegment} (h : PathsApart p q) :
    PathsApart (r ++ p) (r ++ q) := by
  simpa only [PathsApart, List.prefix_append_right_inj] using h

theorem cons_of_ne {s s' : PathSegment} (h : s ≠ s') (p q : List PathSegment) :
    PathsApart (s :: p) (s' :: q) := by
  simp [PathsApart, h, Ne.symm h]

end PathsApart

/-- The entries below two fields are apart when the fields belong to objects whose paths are
apart, or to one object under different keys. -/
theorem pathsApart_field {p q : List PathSegment} (hpq : p = q ∨ PathsApart p q) {k k' : String}
    (hk : p = q → k ≠ k') (x y : List PathSegment) :
    PathsApart (p ++ .key k :: x) (q ++ .key k' :: y) := by
  rcases hpq with rfl | hpq
  · refine PathsApart.append_left p (PathsApart.cons_of_ne ?_ x y)
    intro h
    cases h
    exact hk rfl rfl
  · exact hpq.append _ _

/-! ### Errors apart -/

/-- Two errors are apart when their paths are. -/
def ErrorsApart (e e' : ResponseError) : Prop :=
  ∀ p p', e.path = some p → e'.path = some p' → PathsApart p p'

theorem ErrorsApart.symm {e e' : ResponseError} (h : ErrorsApart e e') : ErrorsApart e' e :=
  fun p p' hp hp' ↦ (h p' p hp' hp).symm

/-- An error lies below a path when its path extends it. -/
def ResponseError.Below (e : ResponseError) (base : List PathSegment) : Prop :=
  ∃ rest, e.path = some (base ++ rest)

theorem ResponseError.Below.of_path {e : ResponseError} {base : List PathSegment}
    (h : e.path = some base) : e.Below base :=
  ⟨[], by rw [h, List.append_nil]⟩

theorem errorsApart_of_below {e e' : ResponseError} {p q : List PathSegment} (he : e.Below p)
    (he' : e'.Below q) (h : PathsApart p q) : ErrorsApart e e' := by
  obtain ⟨x, hx⟩ := he
  obtain ⟨y, hy⟩ := he'
  intro p' q' hp hq
  rw [hx, Option.some.injEq] at hp
  rw [hy, Option.some.injEq] at hq
  subst hp hq
  exact h.append x y

/-- Errors below fields of objects whose paths are equal or apart are apart when the objects or
the keys differ. -/
theorem errorsApart_field {e e' : ResponseError} {p q : List PathSegment}
    (hpq : p = q ∨ PathsApart p q) {k k' : String} (hk : p = q → k ≠ k')
    (he : e.Below (p ++ [.key k])) (he' : e'.Below (q ++ [.key k'])) : ErrorsApart e e' := by
  obtain ⟨x, hx⟩ := he
  obtain ⟨y, hy⟩ := he'
  intro p' q' hp hq
  rw [hx, Option.some.injEq] at hp
  rw [hy, Option.some.injEq] at hq
  subst hp hq
  simpa only [List.append_assoc, List.singleton_append] using pathsApart_field hpq hk x y

/-! ### Following a path -/

/-- Following a path from a value passes only through keys and positions that are there, and
meets a null at the end of the path or before it. -/
def ReachesNull : Json → List PathSegment → Prop
  | .null, _ => True
  | .obj members, .key k :: rest => ∃ v, members.lookup k = some v ∧ ReachesNull v rest
  | .arr items, .index i :: rest => ∃ v, items[i]? = some v ∧ ReachesNull v rest
  | _, _ => False

@[simp] theorem reachesNull_null (path : List PathSegment) : ReachesNull .null path := by
  cases path <;> trivial

/-- The value of an object that may not have been put together: null when it was not. -/
def objectJson : Option ObjectData → Json
  | some o => .obj o
  | none => .null

/-! ### Objects apart -/

/-- Two members of a list of objects that lie apart are one object or lie apart. -/
theorem eq_or_apart_of_pairwise {nodes : List Node}
    (h : nodes.Pairwise fun n n' ↦ PathsApart n.path n'.path) {n n' : Node} (hn : n ∈ nodes)
    (hn' : n' ∈ nodes) : n.path = n'.path ∨ PathsApart n.path n'.path := by
  obtain ⟨i, hi, rfl⟩ := List.getElem_of_mem hn
  obtain ⟨i', hi', rfl⟩ := List.getElem_of_mem hn'
  rcases Nat.lt_trichotomy i i' with hlt | rfl | hlt
  · exact Or.inr (List.pairwise_iff_getElem.mp h i i' hi hi' hlt)
  · exact Or.inl rfl
  · exact Or.inr (List.pairwise_iff_getElem.mp h i' i hi' hi hlt).symm

/-- The objects of a level lie apart: the paths of two objects at different places, by group
and index in the group, are apart. -/
def NodesApart (groups : List Group) : Prop :=
  ∀ {a a' i i' : Nat} {g g' : Group} {n n' : Node}, groups[a]? = some g →
    g.parents[i]? = some n → groups[a']? = some g' → g'.parents[i']? = some n' →
    (a, i) ≠ (a', i') → PathsApart n.path n'.path

namespace NodesApart

variable {groups : List Group} (h : NodesApart groups)
include h

/-- The objects of one group lie apart. -/
theorem parents {a : Nat} {g : Group} (hg : groups[a]? = some g) :
    g.parents.Pairwise fun n n' ↦ PathsApart n.path n'.path := by
  refine List.pairwise_iff_getElem.mpr fun i i' hi hi' hlt ↦ ?_
  exact h hg (List.getElem?_eq_getElem hi) hg (List.getElem?_eq_getElem hi')
    (by simp [Nat.ne_of_lt hlt])


/-- The objects of different groups lie apart. -/
theorem groups_pairwise :
    groups.Pairwise fun g g' ↦ ∀ n ∈ g.parents, ∀ n' ∈ g'.parents, PathsApart n.path n'.path := by
  refine List.pairwise_iff_getElem.mpr fun a a' ha ha' hlt n hn n' hn' ↦ ?_
  obtain ⟨i, hi, rfl⟩ := List.getElem_of_mem hn
  obtain ⟨i', hi', rfl⟩ := List.getElem_of_mem hn'
  exact h (List.getElem?_eq_getElem ha) (List.getElem?_eq_getElem hi)
    (List.getElem?_eq_getElem ha') (List.getElem?_eq_getElem hi') (by simp [Nat.ne_of_lt hlt])

end NodesApart

/-- A level of one object lies apart. -/
theorem nodesApart_root (t : ObjectType) (selection : List Field) (n : Node) :
    NodesApart [⟨t, selection, [n]⟩] := by
  intro a a' i i' g g' m m' hg hm hg' hm' hne
  -- the one object stands at group 0, index 0
  have place : ∀ {a i} {g : Group} {m : Node}, [(⟨t, selection, [n]⟩ : Group)][a]? = some g →
      g.parents[i]? = some m → a = 0 ∧ i = 0 := by
    intro a i g m hg hm
    obtain ⟨ha, rfl⟩ := List.getElem?_eq_some_iff.mp hg
    obtain ⟨hi, -⟩ := List.getElem?_eq_some_iff.mp hm
    simp at ha hi
    subst ha
    simpa using hi
  obtain ⟨rfl, rfl⟩ := place hg hm
  obtain ⟨rfl, rfl⟩ := place hg' hm'
  exact absurd rfl hne

end SocialGraph
