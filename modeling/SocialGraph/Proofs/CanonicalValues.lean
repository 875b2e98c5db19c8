import Mathlib.Data.String.Basic
import SocialGraph.Proofs.Flattening

/-!
# Canonical input values

An object value holds its members sorted by name, one member per name (`NameMap`). Every input
value a request can give is canonical in that sense down to its innermost members
(`InputValue.Canonical`): the values read from JSON, the values of document literals, and so
the values the variables of an operation are given (`Variables.Canonical.coerce`).

A canonical value is the value of a document literal (`InputValue.literal`), which reads back
unchanged (`inputOf_literal`): reading an object literal sorts its members, and the members of
a canonical value are sorted already (`NameMap.ofList_of_sorted`).
-/

namespace SocialGraph

open Document

/-! ### Maps sorted by name -/

namespace NameMap

variable {α : Type}

/-- The entries of a map are sorted by name, each name once. -/
abbrev Sorted (entries : List (String × α)) : Prop := entries.Pairwise (·.1 < ·.1)

theorem mem_insert {key : String} {v : α} {e : String × α} {entries : List (String × α)}
    (h : e ∈ insert key v entries) : e = (key, v) ∨ e ∈ entries := by
  induction entries with
  | nil => simpa [insert] using h
  | cons kw rest ih =>
    obtain ⟨k, w⟩ := kw
    unfold insert at h
    split_ifs at h with hlt heq
    · simpa using h
    · simp only [List.mem_cons] at h ⊢
      tauto
    · simp only [List.mem_cons] at h ⊢
      rcases h with h | h
      · exact .inr (.inl h)
      · exact (ih h).imp_right .inr

/-- Putting an entry keeps a map sorted. -/
theorem Sorted.insert {entries : List (String × α)} (h : Sorted entries) (key : String) (v : α) :
    Sorted (insert key v entries) := by
  induction entries with
  | nil => simp [NameMap.insert]
  | cons kw rest ih =>
    obtain ⟨k, w⟩ := kw
    obtain ⟨hk, hrest⟩ := List.pairwise_cons.mp h
    unfold NameMap.insert
    split_ifs with hlt heq
    · -- the new entry goes first
      refine List.Pairwise.cons (fun e he ↦ ?_) h
      rcases List.mem_cons.mp he with rfl | he
      · exact hlt
      · exact lt_trans hlt (hk e he)
    · subst heq
      exact List.Pairwise.cons hk hrest
    · have hgt : k < key := lt_of_le_of_ne (not_lt.mp hlt) (Ne.symm heq)
      refine List.Pairwise.cons (fun e he ↦ ?_) (ih hrest)
      rcases mem_insert he with rfl | he
      · exact hgt
      · exact hk e he

/-- An entry whose name is past every name of a map goes last. -/
theorem insert_of_lt {key : String} {v : α} {entries : List (String × α)}
    (h : ∀ e ∈ entries, e.1 < key) : insert key v entries = entries ++ [(key, v)] := by
  induction entries with
  | nil => rfl
  | cons kw rest ih =>
    obtain ⟨k, w⟩ := kw
    have hk : k < key := h _ List.mem_cons_self
    simp only [insert, not_lt_of_gt hk, hk.ne', ↓reduceIte, List.cons_append]
    rw [ih fun e he ↦ h e (List.mem_cons_of_mem _ he)]

theorem foldl_insert_of_sorted (entries : List (String × α)) :
    ∀ acc : List (String × α), Sorted (acc ++ entries) →
      entries.foldl (fun acc (k, v) ↦ insert k v acc) acc = acc ++ entries := by
  induction entries with
  | nil => simp
  | cons kv rest ih =>
    intro acc h
    obtain ⟨k, v⟩ := kv
    have hlast : ∀ e ∈ acc, e.1 < k :=
      fun e he ↦ (List.pairwise_append.mp h).2.2 e he (k, v) List.mem_cons_self
    show rest.foldl _ (insert k v acc) = _
    rw [insert_of_lt hlast, ih _ (by simpa using h)]
    simp

/-- Sorting a sorted list leaves it as it is. -/
theorem ofList_of_sorted {entries : List (String × α)} (h : Sorted entries) :
    ofList entries = entries :=
  foldl_insert_of_sorted entries [] h

theorem sorted_foldl_insert (entries : List (String × α)) :
    ∀ {acc : List (String × α)}, Sorted acc →
      Sorted (entries.foldl (fun acc (k, v) ↦ insert k v acc) acc) := by
  induction entries with
  | nil => exact id
  | cons kv rest ih => exact fun h ↦ ih (h.insert kv.1 kv.2)

theorem sorted_ofList (entries : List (String × α)) : Sorted (ofList entries) :=
  sorted_foldl_insert entries List.Pairwise.nil

theorem mem_foldl_insert {e : String × α} (entries : List (String × α)) :
    ∀ {acc : List (String × α)},
      e ∈ entries.foldl (fun acc (k, v) ↦ insert k v acc) acc → e ∈ acc ∨ e ∈ entries := by
  induction entries with
  | nil => exact .inl
  | cons kv rest ih =>
    intro acc h
    obtain ⟨k, v⟩ := kv
    have h' : e ∈ rest.foldl (fun acc (k, v) ↦ insert k v acc) (insert k v acc) := h
    rcases ih h' with h | h
    · rcases mem_insert h with rfl | h
      · exact .inr List.mem_cons_self
      · exact .inl h
    · exact .inr (List.mem_cons_of_mem _ h)

/-- Sorting keeps entries of the list only. -/
theorem mem_ofList {e : String × α} {entries : List (String × α)} (h : e ∈ ofList entries) :
    e ∈ entries :=
  (mem_foldl_insert entries h).resolve_left List.not_mem_nil

end NameMap

/-! ### Canonical values -/

namespace InputValue

/-- A value whose objects hold their members sorted by name, one member per name, at every
depth. -/
inductive Canonical : InputValue → Prop
  | null : Canonical .null
  | int (n : Int) : Canonical (.int n)
  | float (x : Float) : Canonical (.float x)
  | string (s : String) : Canonical (.string s)
  | boolean (b : Bool) : Canonical (.boolean b)
  | enum (name : String) : Canonical (.enum name)
  | list {items : List InputValue} (hitems : ∀ x ∈ items, Canonical x) :
      Canonical (.list items)
  | object {members : List (String × InputValue)} (hsorted : NameMap.Sorted members)
      (hmembers : ∀ m ∈ members, Canonical m.2) : Canonical (.object members)

mutual

/-- The document literal that denotes a value. -/
def literal : InputValue → Value
  | .null => .null
  | .int n => .int n
  | .float x => .float x
  | .string s => .string s
  | .boolean b => .boolean b
  | .enum n => .enum n
  | .list items => .list (literals items)
  | .object members => .object (memberLiterals members)

/-- The literals of values, in order. -/
def literals : List InputValue → List Value
  | [] => []
  | x :: rest => literal x :: literals rest

/-- The literals of object members, in order. -/
def memberLiterals : List (String × InputValue) → List (String × Value)
  | [] => []
  | (k, x) :: rest => (k, literal x) :: memberLiterals rest

end

mutual

theorem canonical_ofJson : (j : Json) → (ofJson j).Canonical
  | .null => .null
  | .bool b => .boolean b
  | .num n => by
    unfold ofJson
    split
    · exact .int _
    · exact .float _
  | .str s => .string s
  | .arr items => .list (canonical_ofJsonItems items)
  | .obj members =>
    .object (NameMap.sorted_ofList _)
      fun _ hm ↦ canonical_ofJsonMembers members _ (NameMap.mem_ofList hm)

theorem canonical_ofJsonItems : (items : List Json) → ∀ x ∈ ofJsonItems items, x.Canonical
  | [] => by simp [ofJsonItems]
  | j :: rest => by
    simp only [ofJsonItems, List.mem_cons, forall_eq_or_imp]
    exact ⟨canonical_ofJson j, canonical_ofJsonItems rest⟩

theorem canonical_ofJsonMembers :
    (members : List (String × Json)) → ∀ m ∈ ofJsonMembers members, m.2.Canonical
  | [] => by simp [ofJsonMembers]
  | (_, j) :: rest => by
    simp only [ofJsonMembers, List.mem_cons, forall_eq_or_imp]
    exact ⟨canonical_ofJson j, canonical_ofJsonMembers rest⟩

end

/-- Reading the literal of a canonical value gives the value back, whatever the variables. -/
theorem inputsOf_literals (vs : Variables) :
    ∀ {items : List InputValue}, (∀ x ∈ items, inputOf vs x.literal = .ok x) →
      inputsOf vs (literals items) = .ok items
  | [], _ => rfl
  | x :: rest, h => by
    simp only [literals, inputsOf, h x List.mem_cons_self,
      inputsOf_literals vs fun y hy ↦ h y (List.mem_cons_of_mem _ hy)]
    rfl

theorem membersOf_memberLiterals (vs : Variables) :
    ∀ {members : List (String × InputValue)}, (∀ m ∈ members, inputOf vs m.2.literal = .ok m.2) →
      membersOf vs (memberLiterals members) = .ok members
  | [], _ => rfl
  | (k, x) :: rest, h => by
    simp only [memberLiterals, membersOf, h (k, x) List.mem_cons_self,
      membersOf_memberLiterals vs fun m hm ↦ h m (List.mem_cons_of_mem _ hm)]
    rfl

theorem Canonical.inputOf_literal (vs : Variables) {x : InputValue} (h : x.Canonical) :
    inputOf vs x.literal = .ok x := by
  induction h with
  | null | int | float | string | boolean | enum => rfl
  | list _ ih =>
    simp only [literal, inputOf, inputsOf_literals vs ih]
    rfl
  | object hsorted _ ih =>
    simp only [literal, inputOf, membersOf_memberLiterals vs ih]
    simp [Functor.map, Except.map, NameMap.ofList_of_sorted hsorted]

end InputValue

theorem Except.map_eq_ok {ε α β : Type} {f : α → β} {x : Except ε α} {b : β} :
    f <$> x = .ok b ↔ ∃ a, x = .ok a ∧ f a = b := by
  cases x <;> simp [Functor.map, Except.map]

namespace Variables

theorem lookup_eq_ok_iff {vs : Variables} {name : String} {o : Option InputValue} :
    vs.lookup name = .ok o ↔ name ∈ vs.declared ∧ vs.values.lookup name = o := by
  unfold lookup
  by_cases h : name ∈ vs.declared <;> simp [h]

/-- Variables whose values are canonical. -/
def Canonical (vs : Variables) : Prop := ∀ e ∈ vs.values, e.2.Canonical

theorem Canonical.lookup {vs : Variables} (hvs : vs.Canonical) {name : String} {x : InputValue}
    (h : vs.values.lookup name = some x) : x.Canonical := by
  obtain ⟨l₁, l₂, hl, -⟩ := List.lookup_eq_some_iff.mp h
  exact hvs (name, x) (hl ▸ List.mem_append_right _ List.mem_cons_self)

end Variables

mutual

theorem canonical_inputOf {vs : Variables} (hvs : vs.Canonical) :
    (v : Value) → ∀ {x : InputValue}, inputOf vs v = .ok x → x.Canonical
  | .variable n, x, h => by
    rw [inputOf] at h
    obtain ⟨o, hlookup, hx⟩ := Except.bind_eq_ok.mp h
    obtain ⟨-, ho⟩ := Variables.lookup_eq_ok_iff.mp hlookup
    cases hx
    cases o with
    | none => exact .null
    | some y => exact hvs.lookup ho
  | .int _, _, h => by cases h; exact .int _
  | .float _, _, h => by cases h; exact .float _
  | .string _, _, h => by cases h; exact .string _
  | .boolean _, _, h => by cases h; exact .boolean _
  | .null, _, h => by cases h; exact .null
  | .enum _, _, h => by cases h; exact .enum _
  | .list items, _, h => by
    rw [inputOf] at h
    obtain ⟨xs, hxs, rfl⟩ := Except.map_eq_ok.mp h
    exact .list (canonical_inputsOf hvs items hxs)
  | .object members, _, h => by
    rw [inputOf] at h
    obtain ⟨ms, hms, rfl⟩ := Except.map_eq_ok.mp h
    exact .object (NameMap.sorted_ofList ms)
      fun _ hm ↦ canonical_membersOf hvs members hms _ (NameMap.mem_ofList hm)

theorem canonical_inputsOf {vs : Variables} (hvs : vs.Canonical) :
    (items : List Value) → ∀ {xs : List InputValue}, inputsOf vs items = .ok xs →
      ∀ x ∈ xs, x.Canonical
  | [], _, h => by cases h; simp
  | v :: rest, _, h => by
    rw [inputsOf] at h
    obtain ⟨x, hx, h⟩ := Except.bind_eq_ok.mp h
    obtain ⟨xs, hxs, h⟩ := Except.bind_eq_ok.mp h
    cases h
    simp only [List.mem_cons, forall_eq_or_imp]
    exact ⟨canonical_inputOf hvs v hx, canonical_inputsOf hvs rest hxs⟩

theorem canonical_membersOf {vs : Variables} (hvs : vs.Canonical) :
    (members : List (String × Value)) → ∀ {ms : List (String × InputValue)},
      membersOf vs members = .ok ms → ∀ m ∈ ms, m.2.Canonical
  | [], _, h => by cases h; simp
  | (_, v) :: rest, _, h => by
    rw [membersOf] at h
    obtain ⟨x, hx, h⟩ := Except.bind_eq_ok.mp h
    obtain ⟨ms, hms, h⟩ := Except.bind_eq_ok.mp h
    cases h
    simp only [List.mem_cons, forall_eq_or_imp]
    exact ⟨canonical_inputOf hvs v hx, canonical_membersOf hvs rest hms⟩

end

theorem Except.ite_throw_eq_ok {ε α : Type} {c : Bool} {x : ε} {k : Except ε α} {a : α}
    (h : (if c = true then (throw x >>= fun (_ : PUnit) ↦ k) else k) = .ok a) : k = .ok a := by
  split at h
  · simp [throw, throwThe, MonadExceptOf.throw, bind, Except.bind] at h
  · exact h

namespace Variables

theorem Canonical.insert {vs : Variables} (hvs : vs.Canonical) (declared : List String)
    (name : String) {x : InputValue} (hx : x.Canonical) :
    Canonical ⟨declared, NameMap.insert name x vs.values⟩ := by
  intro e he
  rcases NameMap.mem_insert he with rfl | he
  · exact hx
  · exact hvs e he

/-- Coercion gives every declared variable a canonical value, if any. -/
theorem Canonical.coerce {provided : Json} :
    ∀ {decls : List VariableDefinition} {vs vs' : Variables}, vs.Canonical →
      Variables.coerce provided decls vs = .ok vs' → vs'.Canonical
  | [], _, _, hvs, h => by
    cases h
    exact hvs
  | d :: rest, vs, vs', hvs, h => by
    unfold Variables.coerce at h
    cases hget : provided.get? d.name with
    | some j =>
      -- the request's value
      simp only [hget, pure_bind] at h
      exact (hvs.insert _ d.name (InputValue.canonical_ofJson j)).coerce
        (Except.ite_throw_eq_ok h)
    | none =>
      -- the declaration's default, if any
      simp only [hget] at h
      obtain ⟨value, hdefault, h⟩ := Except.bind_eq_ok.mp h
      refine Canonical.coerce ?_ (Except.ite_throw_eq_ok h)
      cases value with
      | none => exact hvs
      | some x =>
        cases hd : d.default with
        | none => simp [hd, pure, Except.pure] at hdefault
        | some v =>
          rw [hd, Option.mapM_some, Except.map_eq_ok] at hdefault
          obtain ⟨y, hy, hyx⟩ := hdefault
          cases hyx
          exact hvs.insert _ d.name (canonical_inputOf (fun _ he ↦ absurd he List.not_mem_nil) v hy)

end Variables

end SocialGraph
