import Mathlib.Data.List.Forall2
import SocialGraph.Proofs.ResponsePaths
import SocialGraph.Proofs.Reference

/-!
# Pruned values

A run whose store calls may fail gives less data than the run where none fails, never other
data: its value is the other's with some subtrees cut down to null (`Json.Prunes`), and every
cut is reported by an error at or below the place it was made (`PrunesAt`).

This module sets up the relation and shows how it passes through the two ways a response is
built from smaller values: an object from the values of its planned fields
(`prunesAt_objectOfValues`), which a null in a non-null field turns into null, and a list from
the objects of its records (`prunesAt_listJson`), which a missing object turns into null.
-/

namespace SocialGraph

/-! ### Members of related lists -/

section Forall₂

variable {α β : Type} {R : α → β → Prop}

theorem exists_right_of_forall₂ {l : List α} {u : List β} (h : List.Forall₂ R l u) {a : α}
    (ha : a ∈ l) : ∃ b ∈ u, R a b := by
  induction h with
  | nil => cases ha
  | cons hab _ ih =>
    rcases List.mem_cons.mp ha with rfl | ha
    · exact ⟨_, List.mem_cons_self, hab⟩
    · obtain ⟨b, hb, hr⟩ := ih ha
      exact ⟨b, List.mem_cons_of_mem _ hb, hr⟩

theorem exists_left_of_forall₂ {l : List α} {u : List β} (h : List.Forall₂ R l u) {b : β}
    (hb : b ∈ u) : ∃ a ∈ l, R a b := by
  induction h with
  | nil => cases hb
  | cons hab _ ih =>
    rcases List.mem_cons.mp hb with rfl | hb
    · exact ⟨_, List.mem_cons_self, hab⟩
    · obtain ⟨a, ha, hr⟩ := ih hb
      exact ⟨a, List.mem_cons_of_mem _ ha, hr⟩

/-- Looking a key up in two lists of entries with the same keys, whose values are related key by
key, finds related values. -/
theorem lookup_of_forall₂ {R : String → α → β → Prop} {ms : List (String × α)}
    {ns : List (String × β)} (h : List.Forall₂ (fun m n ↦ m.1 = n.1 ∧ R m.1 m.2 n.2) ms ns)
    {k : String} {a : α} (ha : ms.lookup k = some a) : ∃ b, ns.lookup k = some b ∧ R k a b := by
  induction h with
  | nil => cases ha
  | @cons m n ms ns hmn _ ih =>
    rcases m with ⟨k', a'⟩
    rcases n with ⟨k'', b'⟩
    obtain ⟨hkey, hr⟩ := hmn
    dsimp only at hkey hr
    subst hkey
    by_cases hk : k = k'
    · subst hk
      simp only [List.lookup_cons_self, Option.some.injEq] at ha
      subst ha
      exact ⟨b', List.lookup_cons_self, hr⟩
    · simp only [List.lookup_cons, beq_false_of_ne hk] at ha ⊢
      exact ih ha

end Forall₂

/-! ### Following a path -/

namespace Json

/-- The value at a path in a value, if the path leads to one. -/
def follow : Json → List PathSegment → Option Json
  | v, [] => some v
  | .obj members, .key k :: rest => (members.lookup k).bind (·.follow rest)
  | .arr items, .index i :: rest => items[i]?.bind (·.follow rest)
  | _, _ :: _ => none

@[simp] theorem follow_nil (v : Json) : v.follow [] = some v := by
  cases v <;> rfl

@[simp] theorem follow_null_cons (s : PathSegment) (p : List PathSegment) :
    Json.null.follow (s :: p) = none := by
  cases s <;> rfl

@[simp] theorem follow_obj_key (ms : List (String × Json)) (k : String) (p : List PathSegment) :
    (Json.obj ms).follow (.key k :: p) = (ms.lookup k).bind (·.follow p) := rfl

@[simp] theorem follow_obj_index (ms : List (String × Json)) (i : Nat) (p : List PathSegment) :
    (Json.obj ms).follow (.index i :: p) = none := rfl

@[simp] theorem follow_arr_index (vs : List Json) (i : Nat) (p : List PathSegment) :
    (Json.arr vs).follow (.index i :: p) = vs[i]?.bind (·.follow p) := rfl

@[simp] theorem follow_arr_key (vs : List Json) (k : String) (p : List PathSegment) :
    (Json.arr vs).follow (.key k :: p) = none := rfl

/-! ### Cutting subtrees down to null -/

/-- One value is the other with some subtrees cut down to null: null stands for any value,
scalars stand for themselves, and objects with the same keys in the same order, and arrays of
the same length, stand for each other member by member. -/
inductive Prunes : Json → Json → Prop
  | null (w : Json) : Prunes .null w
  | bool (b : Bool) : Prunes (.bool b) (.bool b)
  | num (n : Number) : Prunes (.num n) (.num n)
  | str (s : String) : Prunes (.str s) (.str s)
  | arr {vs ws : List Json} (items : List.Forall₂ Prunes vs ws) : Prunes (.arr vs) (.arr ws)
  | obj {ms ns : List (String × Json)} (keys : ms.map Prod.fst = ns.map Prod.fst)
      (values : List.Forall₂ Prunes (ms.map Prod.snd) (ns.map Prod.snd)) :
      Prunes (.obj ms) (.obj ns)

mutual

theorem Prunes.refl : ∀ v : Json, Prunes v v
  | .null => .null _
  | .bool b => .bool b
  | .num n => .num n
  | .str s => .str s
  | .arr vs => .arr (Prunes.refl_items vs)
  | .obj ms => .obj rfl (Prunes.refl_members ms)

theorem Prunes.refl_items : ∀ vs : List Json, List.Forall₂ Prunes vs vs
  | [] => .nil
  | v :: vs => .cons (Prunes.refl v) (Prunes.refl_items vs)

theorem Prunes.refl_members :
    ∀ ms : List (String × Json), List.Forall₂ Prunes (ms.map Prod.snd) (ms.map Prod.snd)
  | [] => .nil
  | (_, v) :: ms => .cons (Prunes.refl v) (Prunes.refl_members ms)

end

/-- Only null prunes null. -/
theorem Prunes.eq_null {v : Json} (h : v.Prunes .null) : v = .null := by
  cases h
  rfl

end Json

/-! ### Cuts that are reported -/

/-- Every place where the first value is null and the second is not lies at or below the path
of one of the errors, the values standing at a base path of the response. -/
def NullsReported (errors : List ResponseError) (base : List PathSegment) (v w : Json) : Prop :=
  ∀ p, v.follow p = some .null → (∃ u, w.follow p = some u ∧ u ≠ .null) →
    ∃ e ∈ errors, ∃ q, e.path = some q ∧ base ++ p <+: q

/-- A value, standing at a base path of a response with some errors, is another with subtrees
cut down to null, and each cut is reported at or below the place it was made. -/
structure PrunesAt (errors : List ResponseError) (base : List PathSegment) (v w : Json) :
    Prop where
  prunes : v.Prunes w
  reported : NullsReported errors base v w

namespace PrunesAt

variable {errors errors' : List ResponseError} {base : List PathSegment}

/-- A value prunes itself, with nothing to report. -/
theorem refl (v : Json) : PrunesAt errors base v v := by
  refine ⟨Json.Prunes.refl v, fun p hv ⟨u, hu, hne⟩ ↦ ?_⟩
  rw [hv, Option.some.injEq] at hu
  exact absurd hu.symm hne

/-- A null prunes any value once an error is reported at or below its place. -/
theorem null (he : ∃ e ∈ errors, ∃ q, e.path = some q ∧ base <+: q) (w : Json) :
    PrunesAt errors base .null w := by
  refine ⟨.null w, fun p hp _ ↦ ?_⟩
  cases p with
  | nil => simpa using he
  | cons s p => simp at hp

/-- A cut reported by some errors is reported by any errors that include them. -/
theorem mono {v w : Json} (h : PrunesAt errors base v w) (hsub : ∀ e ∈ errors, e ∈ errors') :
    PrunesAt errors' base v w := by
  refine ⟨h.prunes, fun p hv hw ↦ ?_⟩
  obtain ⟨e, he, q, hq, hpre⟩ := h.reported p hv hw
  exact ⟨e, hsub e he, q, hq, hpre⟩

/-- A null that prunes a value that is not null is reported at or below its place. -/
theorem reported_null {w : Json} (h : PrunesAt errors base .null w) (hw : w ≠ .null) :
    ∃ e ∈ errors, ∃ q, e.path = some q ∧ base <+: q := by
  simpa using h.reported [] rfl ⟨w, rfl, hw⟩

/-- Objects whose members, key by key, prune each other at their places. -/
theorem obj {ms ns : List (String × Json)}
    (h : List.Forall₂ (fun m n ↦ m.1 = n.1 ∧ PrunesAt errors (base ++ [.key m.1]) m.2 n.2)
      ms ns) :
    PrunesAt errors base (.obj ms) (.obj ns) := by
  have hkeys : ms.map Prod.fst = ns.map Prod.fst := by
    rw [← List.forall₂_eq_eq_eq, List.forall₂_map_left_iff, List.forall₂_map_right_iff]
    exact h.imp fun _ _ hmn ↦ hmn.1
  have hvalues : List.Forall₂ Json.Prunes (ms.map Prod.snd) (ns.map Prod.snd) := by
    rw [List.forall₂_map_left_iff, List.forall₂_map_right_iff]
    exact h.imp fun _ _ hmn ↦ hmn.2.prunes
  refine ⟨.obj hkeys hvalues, fun p hv hw ↦ ?_⟩
  -- a null inside the object stands below one of its keys
  match p, hv, hw with
  | [], hv, _ => simp at hv
  | .index _ :: _, hv, _ => simp at hv
  | .key k :: p, hv, ⟨u, hu, hne⟩ =>
    rw [Json.follow_obj_key, Option.bind_eq_some_iff] at hv hu
    obtain ⟨v, hk, hv⟩ := hv
    obtain ⟨w, hk', hvw⟩ := lookup_of_forall₂ (R := fun k v w ↦ PrunesAt errors
      (base ++ [.key k]) v w) h hk
    obtain ⟨w', hw', hu⟩ := hu
    rw [hk', Option.some.injEq] at hw'
    subst hw'
    obtain ⟨e, he, q, hq, hpre⟩ := hvw.reported p hv ⟨u, hu, hne⟩
    exact ⟨e, he, q, hq, by simpa using hpre⟩

/-- Arrays of one length whose items, index by index, prune each other at their places. -/
theorem arr {vs ws : List Json} (hlen : vs.length = ws.length)
    (h : ∀ k (hv : k < vs.length) (hw : k < ws.length),
      PrunesAt errors (base ++ [.index k]) vs[k] ws[k]) :
    PrunesAt errors base (.arr vs) (.arr ws) := by
  have hitems : List.Forall₂ Json.Prunes vs ws :=
    List.forall₂_iff_get.mpr ⟨hlen, fun k hv hw ↦ (h k hv hw).prunes⟩
  refine ⟨.arr hitems, fun p hv hw ↦ ?_⟩
  -- a null inside the array stands below one of its indices
  match p, hv, hw with
  | [], hv, _ => simp at hv
  | .key _ :: _, hv, _ => simp at hv
  | .index k :: p, hv, ⟨u, hu, hne⟩ =>
    rw [Json.follow_arr_index, Option.bind_eq_some_iff] at hv hu
    obtain ⟨v, hk, hv⟩ := hv
    obtain ⟨w, hk', hu⟩ := hu
    obtain ⟨hkv, rfl⟩ := List.getElem?_eq_some_iff.mp hk
    obtain ⟨hkw, rfl⟩ := List.getElem?_eq_some_iff.mp hk'
    obtain ⟨e, he, q, hq, hpre⟩ := (h k hkv hkw).reported p hv ⟨u, hu, hne⟩
    exact ⟨e, he, q, hq, by simpa using hpre⟩

end PrunesAt

/-! ### Objects and lists -/

section Assembly

variable {errors : List ResponseError} {base : List PathSegment}

theorem objectJson_eq_null {x : Option ObjectData} : objectJson x = .null ↔ x = none := by
  cases x <;> simp [objectJson]

/-- Objects put together from values that prune each other field by field prune each other: an
object the full run cannot put together has a null non-null field, which is null in the pruned
run too, and a non-null field that only the pruned run has null was reported at its place. -/
theorem prunesAt_objectOfValues {xs ys : List (Planned × Json)}
    (h : List.Forall₂ (fun x y ↦ x.1 = y.1 ∧ PrunesAt errors (base ++ [.key x.1.key]) x.2 y.2)
      xs ys) :
    PrunesAt errors base (objectJson (objectOfValues xs)) (objectJson (objectOfValues ys)) := by
  by_cases hy : (ys.any fun y ↦ isNull y.2 && !y.1.nullable) = true
  · -- the full run's object is null through a field that is null in both runs
    obtain ⟨y, hmem, hvy⟩ := List.any_eq_true.mp hy
    obtain ⟨x, hx, hxy, hpr⟩ := exists_left_of_forall₂ h hmem
    have hnull : y.2 = .null := by
      cases hw : y.2 <;> simp_all [isNull]
    have hvx : (isNull x.2 && !x.1.nullable) = true := by
      rw [hnull] at hpr
      simp_all [hpr.prunes.eq_null, isNull]
    have hx' : (xs.any fun x ↦ isNull x.2 && !x.1.nullable) = true :=
      List.any_eq_true.mpr ⟨x, hx, hvx⟩
    simp only [objectOfValues, hx', hy, if_true]
    exact PrunesAt.refl _
  · by_cases hx : (xs.any fun x ↦ isNull x.2 && !x.1.nullable) = true
    · -- only the pruned run's object is null, through a cut that was reported
      obtain ⟨x, hmem, hvx⟩ := List.any_eq_true.mp hx
      obtain ⟨y, hy', hxy, hpr⟩ := exists_right_of_forall₂ h hmem
      have hnull : x.2 = .null := by
        cases hv : x.2 <;> simp_all [isNull]
      have hne : y.2 ≠ .null := by
        intro hw
        exact hy (List.any_eq_true.mpr ⟨y, hy', by simp_all [isNull]⟩)
      rw [hnull] at hpr
      obtain ⟨e, he, q, hq, hpre⟩ := hpr.reported_null hne
      have hnone : objectOfValues xs = none := by
        simp only [objectOfValues, hx, if_true]
      rw [hnone]
      exact PrunesAt.null ⟨e, he, q, hq, (List.prefix_append _ _).trans hpre⟩ _
    · -- both objects are put together, key by key
      simp only [Bool.not_eq_true] at hx hy
      simp only [objectOfValues, hx, hy]
      refine PrunesAt.obj ?_
      rw [List.forall₂_map_left_iff, List.forall₂_map_right_iff]
      exact h.imp fun x y hxy ↦ ⟨by rw [hxy.1], hxy.2⟩

/-- The value of a list of objects that may not all have been put together: null when one was
not. -/
def listJson : Option (List ObjectData) → Json
  | some os => .arr (os.map Json.obj)
  | none => .null

theorem mapM_eq_some_iff {γ δ : Type} {f : γ → Option δ} :
    ∀ {l : List γ} {ys : List δ}, l.mapM f = some ys ↔ List.Forall₂ (fun a b ↦ f a = some b) l ys
  | [], ys => by cases ys <;> simp
  | a :: l, ys => by
    cases hf : f a with
    | none => cases ys <;> simp [hf]
    | some b =>
      cases ys with
      | nil => simp [hf, Option.bind_eq_some_iff]
      | cons y ys =>
        rw [List.forall₂_cons, ← mapM_eq_some_iff, List.mapM_cons, hf]
        simp [Option.bind_eq_some_iff, and_comm]

theorem mapM_eq_none_iff {γ δ : Type} {f : γ → Option δ} :
    ∀ {l : List γ}, l.mapM f = none ↔ ∃ k, ∃ hk : k < l.length, f l[k] = none
  | [] => by simp
  | a :: l => by
    -- the traversal stops at the first item with no object
    rw [List.mapM_cons]
    cases hf : f a with
    | none => exact ⟨fun _ ↦ ⟨0, by simp, hf⟩, fun _ ↦ rfl⟩
    | some b =>
      have ih : l.mapM f = none ↔ _ := mapM_eq_none_iff
      constructor
      · intro h
        cases hl : l.mapM f with
        | none =>
          obtain ⟨k, hk, hfk⟩ := ih.mp hl
          exact ⟨k + 1, by simpa using hk, hfk⟩
        | some bs => simp [hl] at h
      · rintro ⟨k, hk, hfk⟩
        cases k with
        | zero => simp [hf] at hfk
        | succ k => simp [ih.mpr ⟨k, by simpa using hk, hfk⟩]

/-- Lists of objects of one length that prune each other index by index prune each other: a
list the full run cannot put together has an object it cannot put together, which the pruned
run cannot either, and an object only the pruned run lacks was reported at its place. -/
theorem prunesAt_listJson {γ δ : Type} {as : List γ} {bs : List δ} {f : γ → Option ObjectData}
    {g : δ → Option ObjectData} (hlen : as.length = bs.length)
    (h : ∀ k (ha : k < as.length) (hb : k < bs.length),
      PrunesAt errors (base ++ [.index k]) (objectJson (f as[k])) (objectJson (g bs[k]))) :
    PrunesAt errors base (listJson (as.mapM f)) (listJson (bs.mapM g)) := by
  cases hg : bs.mapM g with
  | none =>
    -- the full run lacks an object, and so does the pruned run
    obtain ⟨k, hk, hgk⟩ := mapM_eq_none_iff.mp hg
    have hpr := (h k (hlen ▸ hk) hk).prunes
    rw [hgk] at hpr
    have hfk : f as[k] = none := objectJson_eq_null.mp hpr.eq_null
    rw [mapM_eq_none_iff.mpr ⟨k, hlen ▸ hk, hfk⟩]
    exact PrunesAt.refl _
  | some ys =>
    have hys := List.forall₂_iff_get.mp (mapM_eq_some_iff.mp hg)
    cases hf : as.mapM f with
    | none =>
      -- only the pruned run lacks an object, and that was reported
      obtain ⟨k, hk, hfk⟩ := mapM_eq_none_iff.mp hf
      have hkb : k < bs.length := hlen ▸ hk
      have hky : k < ys.length := hys.1 ▸ hkb
      have hgk : g bs[k] = some ys[k] := by
        simpa using hys.2 k hkb hky
      have hpr := h k hk hkb
      rw [hfk, hgk] at hpr
      obtain ⟨e, he, q, hq, hpre⟩ := hpr.reported_null (by simp [objectJson])
      exact PrunesAt.null ⟨e, he, q, hq, (List.prefix_append _ _).trans hpre⟩ _
    | some xs =>
      -- both lists are put together, index by index
      have hxs := List.forall₂_iff_get.mp (mapM_eq_some_iff.mp hf)
      refine PrunesAt.arr (by simp [← hxs.1, ← hys.1, hlen]) fun k hx hy ↦ ?_
      have hka : k < as.length := by simpa [hxs.1] using hx
      have hkb : k < bs.length := by simpa [hys.1] using hy
      have hfk : f as[k] = some xs[k] := by
        simpa using hxs.2 k hka (by simpa using hx)
      have hgk : g bs[k] = some ys[k] := by
        simpa using hys.2 k hkb (by simpa using hy)
      simpa [hfk, hgk, objectJson] using h k hka hkb

end Assembly

end SocialGraph
