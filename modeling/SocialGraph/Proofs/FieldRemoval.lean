import SocialGraph.Proofs.ObjectAssembly
import SocialGraph.Proofs.Refinement

/-!
# Taking an inert field out of a selection

A field is inert on objects of a type when the engine never asks the store anything for it
there: it is invalid there (the type has no such field, the field has an argument it does not
take, or its sub-selection does not fit what it gives), or it is a root look-up whose `id` is
missing, of the wrong type, or not a well-formed key (`Field.Inert`).

`Removes f anc S S'` says that `S'` is `S` with the field `f` taken out of the selection of the
last field of the chain `anc`, and that this selection keeps another field. The fields of the
chain may be merged with fields of the same key beside them: the engine plans them as one
field whose sub-selection is theirs put end to end. `placeIn t S anc` follows the chain through
the plan of `S` on `t` and gives the type of the objects it leads to and the fields merged
there; `Field.AloneAt` says that `f` is the only field with its key among those.

This module shows what taking the field out does to the plan of each selection on the way:
where the field applies, its planned field stands alone among the planned fields of the rest,
after those of the fields before it (`collectFields_insert`); where a field of the chain
applies, the two plans agree but at the planned field of its key, whose merged sub-selections
differ only where the chain goes on (`collectFields_withSelection`); and an inert root look-up
fails without touching the batch (`run_resolveField_rootLookup`).
-/

namespace SocialGraph

/-! ### Inert fields and chains of fields -/

/-- A field is inert on objects of a type when it is invalid there, or is a root look-up with
a bad `id`. -/
def Field.Inert (t : ObjectType) (f : Field) : Prop :=
  (∃ e, fieldDef t f = .error e) ∨
    ∃ d kind e, fieldDef t f = .ok d ∧ d.resolver = .rootLookup kind ∧ lookupId kind f = .error e

/-- `Removes f anc S S'`: `S'` is `S` with the field `f` taken out of the selection of the last
field of the chain `anc` (out of `S` itself when the chain is empty), and that selection is not
left empty. -/
inductive Removes (f : Field) : List Field → List Field → List Field → Prop
  | here {pre post : List Field} : Removes f [] (pre ++ f :: post) (pre ++ post)
  | under {anc pre post sel : List Field} {p : Field} (inner : Removes f anc p.selection sel)
      (nonempty : sel ≠ []) :
      Removes f (p :: anc) (pre ++ p :: post) (pre ++ { p with selection := sel } :: post)

namespace Removes

variable {f : Field} {anc S S' : List Field}

theorem ne_nil (h : Removes f anc S S') : S ≠ [] := by
  cases h <;> simp

/-- Fields put before and after a selection change nothing of what is taken out of it. -/
theorem frame (h : Removes f anc S S') (A B : List Field) :
    Removes f anc (A ++ S ++ B) (A ++ S' ++ B) := by
  cases h with
  | @here pre post =>
    simpa only [List.append_assoc, List.cons_append] using @here f (A ++ pre) (post ++ B)
  | @under anc pre post sel p inner nonempty =>
    simpa only [List.append_assoc, List.cons_append] using
      @under f anc (A ++ pre) (post ++ B) sel p inner nonempty

/-- Taking a field out never makes a selection higher. -/
theorem heightOf_le (h : Removes f anc S S') : heightOf S' ≤ heightOf S := by
  induction h with
  | here =>
    rw [heightOf_append, heightOf_append, heightOf]
    omega
  | @under anc pre post sel p _ _ ih =>
    have hp : Field.height { p with selection := sel } ≤ p.height := by
      rw [Field.height_eq, Field.height_eq]
      exact Nat.succ_le_succ ih
    rw [heightOf_append, heightOf_append, heightOf, heightOf]
    omega

end Removes

/-- Where a chain of fields leads in the plan of a selection on objects of a type: the type of
the objects there and the fields merged there. Each field of the chain must apply to the
objects it is selected on; it is planned together with the fields of its key beside it, and the
chain goes on in their merged sub-selection, on the type of the objects the merged field
gives. -/
def placeIn : ObjectType → List Field → List Field → Option (ObjectType × List Field)
  | t, S, [] => some (t, S)
  | t, S, p :: anc =>
    if p.appliesTo t.name then
      ((collectFields t S).find? (·.key == p.responseKey)).bind fun q ↦
        q.childType.bind fun c ↦ placeIn c q.children anc
    else none

/-- The field is the only one with its response key among the fields merged where the chain
leads in the plan of a selection. -/
def Field.AloneAt (f : Field) (t : ObjectType) (S anc : List Field) : Prop :=
  ∀ c sel, placeIn t S anc = some (c, sel) → sel.countP (·.responseKey == f.responseKey) ≤ 1

/-- Where the chain ends at the field itself, no other field of the selection has its key. -/
theorem Field.AloneAt.unique {f : Field} {t : ObjectType} {pre post : List Field}
    (h : f.AloneAt t (pre ++ f :: post) []) :
    ∀ g ∈ pre ++ post, g.responseKey ≠ f.responseKey := by
  intro g hg hkey
  have hcount := h t _ rfl
  have hpos : 0 < (pre ++ post).countP (·.responseKey == f.responseKey) :=
    List.countP_pos_iff.mpr ⟨g, hg, by simpa using hkey⟩
  simp only [List.countP_append, List.countP_cons, beq_self_eq_true, if_true] at hcount hpos
  omega

/-! ### Plans -/

/-- The planned field of a field that no other field of its selection set merges into. -/
def Field.planned (f : Field) (t : ObjectType) : Planned :=
  ⟨f.responseKey, f, fieldDef t f, f.selection⟩

/-- A field's definition depends on its sub-selection only through whether it has one. -/
theorem fieldDef_withSelection (t : ObjectType) (p : Field) {sel : List Field}
    (h : sel.isEmpty = p.selection.isEmpty) :
    fieldDef t { p with selection := sel } = fieldDef t p := by
  obtain ⟨a, n, args, tc, s⟩ := p
  simp only at h ⊢
  simp only [fieldDef, checkArguments, unknownField, h]

/-- Every planned field is planned under the key of a field of its selection. -/
theorem key_of_mem_collectFields {t : ObjectType} {selection : List Field} {q : Planned}
    (hq : q ∈ collectFields t selection) : ∃ g ∈ selection, q.key = g.responseKey := by
  refine forall_collectFields (fun q ↦ ∃ g ∈ selection, q.key = g.responseKey) ?_ q hq
  intro plan f hf hplan q hq
  unfold addField at hq
  split at hq
  · obtain ⟨q', hq', rfl⟩ := List.mem_map.mp hq
    split
    · exact hplan q' hq'
    · exact hplan q' hq'
  · rcases List.mem_append.mp hq with hq | hq
    · exact hplan q hq
    · rw [List.mem_singleton.mp hq]
      exact ⟨f, hf, rfl⟩

/-- Adding a field under another key keeps a planned field where it stands. -/
theorem addField_insert (t : ObjectType) (P Q : List Planned) {e : Planned} {g : Field}
    (hkey : e.key ≠ g.responseKey) :
    ∃ P' Q', P'.length = P.length ∧ addField t (P ++ e :: Q) g = P' ++ e :: Q' ∧
      addField t (P ++ Q) g = P' ++ Q' := by
  have hne : (e.key == g.responseKey) = false := by simpa using hkey
  have hany : (P ++ e :: Q).any (·.key == g.responseKey) =
      (P ++ Q).any (·.key == g.responseKey) := by
    simp [hne]
  unfold addField
  rw [hany]
  split
  · refine ⟨_, _, List.length_map _, ?_, List.map_append⟩
    rw [List.map_append, List.map_cons, hne]
    rfl
  · exact ⟨P, Q ++ [⟨g.responseKey, g, fieldDef t g, g.selection⟩], rfl, by simp, by simp⟩

/-- Adding fields under other keys keeps a planned field where it stands; by induction on the
fields added. -/
theorem foldl_addField_insert (t : ObjectType) {e : Planned} :
    ∀ (fs : List Field) (P Q : List Planned), (∀ g ∈ fs, e.key ≠ g.responseKey) →
      fs.foldl (addField t) (P ++ e :: Q) =
        (fs.foldl (addField t) (P ++ Q)).take P.length ++
          e :: (fs.foldl (addField t) (P ++ Q)).drop P.length
  | [], P, Q, _ => by simp
  | g :: fs, P, Q, hfs => by
    obtain ⟨P', Q', hlen, hA, hB⟩ := addField_insert t P Q (hfs g List.mem_cons_self)
    rw [List.foldl_cons, List.foldl_cons, hA, hB, ← hlen]
    exact foldl_addField_insert t fs P' Q' fun g' hg' ↦ hfs g' (List.mem_cons_of_mem _ hg')

/-- The plan of a selection is the plan of its first part, with the fields of the rest that
apply added to it. -/
theorem collectFields_append (t : ObjectType) (pre post : List Field) :
    collectFields t (pre ++ post) =
      (post.filter (·.appliesTo t.name)).foldl (addField t) (collectFields t pre) := by
  unfold collectFields
  rw [List.filter_append, List.foldl_append]

/-- A field that applies is added to the plan of the fields before it. -/
theorem collectFields_middle (t : ObjectType) (pre post : List Field) {f : Field}
    (happ : f.appliesTo t.name = true) :
    collectFields t (pre ++ f :: post) =
      (post.filter (·.appliesTo t.name)).foldl (addField t)
        (addField t (collectFields t pre) f) := by
  rw [collectFields_append, List.filter_cons, if_pos happ, List.foldl_cons]

/-- Where a field applies and no other field of its selection set has its key, its planned
field stands among the planned fields of the rest, after those of the fields before it. -/
theorem collectFields_insert (t : ObjectType) {f : Field} {pre post : List Field}
    (happ : f.appliesTo t.name = true)
    (unique : ∀ g ∈ pre ++ post, g.responseKey ≠ f.responseKey) :
    collectFields t (pre ++ f :: post) =
      (collectFields t (pre ++ post)).take (collectFields t pre).length ++
        f.planned t :: (collectFields t (pre ++ post)).drop (collectFields t pre).length := by
  -- no field before it has its key, so it is planned anew after theirs
  have hnew : addField t (collectFields t pre) f = collectFields t pre ++ [f.planned t] := by
    unfold addField
    rw [if_neg]
    · rfl
    · simp only [List.any_eq_true, beq_iff_eq, not_exists, not_and]
      intro q hq hkey
      obtain ⟨g, hg, hgk⟩ := key_of_mem_collectFields hq
      exact unique g (List.mem_append_left _ hg) (hgk ▸ hkey)
  have hpost : ∀ g ∈ post.filter (·.appliesTo t.name), (f.planned t).key ≠ g.responseKey :=
    fun g hg heq ↦ unique g (List.mem_append_right _ (List.mem_filter.mp hg).1) heq.symm
  have hrest := foldl_addField_insert t _ (collectFields t pre) [] hpost
  rw [List.append_nil] at hrest
  rw [collectFields_middle t pre post happ, hnew, hrest, collectFields_append]

/-- A field that does not apply to a type leaves its plan as it is. -/
theorem collectFields_skip (t : ObjectType) {f : Field} {pre post : List Field}
    (happ : f.appliesTo t.name = false) :
    collectFields t (pre ++ f :: post) = collectFields t (pre ++ post) := by
  rw [collectFields_append, collectFields_append, List.filter_cons, if_neg (by simp [happ])]

/-! ### Resolving fields -/

/-- The first phase of a field does not read its sub-selection. -/
theorem resolveField_withSelection (t : ObjectType) (d : FieldDef) (p : Field)
    (sel : List Field) (o : Option Record) :
    resolveField t d { p with selection := sel } o = resolveField t d p o :=
  rfl

/-- A root look-up with a bad `id` fails at once and leaves the batch as it is. -/
theorem run_resolveField_rootLookup {d : FieldDef} {kind : RecordKind} {f : Field}
    {e : ResolveError} (hres : d.resolver = .rootLookup kind) (hid : lookupId kind f = .error e)
    (t : ObjectType) (o : Option Record) (b : Batch) :
    (resolveField t d f o).run b = (.error e, b) := by
  unfold resolveField
  rw [hres]
  simp only [hid]
  rfl

/-- The root look-ups may be null. -/
theorem nullable_of_rootLookup {t : ObjectType} {f : Field} {d : FieldDef} {kind : RecordKind}
    (hd : fieldDef t f = .ok d) (hres : d.resolver = .rootLookup kind) : d.nullable = true := by
  have hfield := field_of_fieldDef hd
  unfold ObjectType.field at hfield
  split at hfield
  · cases hfield
    cases hres
  · split at hfield <;> cases hfield <;> first | rfl | cases hres

/-! ### Fields of the chain merged with their key -/

/-- Adding a field of a key that the plan holds once merges its sub-selection into that key's
planned field and keeps the rest. -/
theorem addField_merge (t : ObjectType) (X Y : List Planned) {e : Planned} {g : Field}
    (hkey : e.key = g.responseKey) (hXY : ∀ q ∈ X ++ Y, q.key ≠ g.responseKey) :
    addField t (X ++ e :: Y) g = X ++ { e with children := e.children ++ g.selection } :: Y := by
  have hany : (X ++ e :: Y).any (·.key == g.responseKey) = true := by simp [hkey]
  have hkeep (l : List Planned) (hl : ∀ q ∈ l, q.key ≠ g.responseKey) :
      l.map (fun q ↦ if q.key == g.responseKey then { q with children := q.children ++ g.selection }
        else q) = l := by
    refine (List.map_congr_left fun q hq ↦ ?_).trans (List.map_id l)
    rw [if_neg (by simpa using hl q hq)]
    rfl
  unfold addField
  rw [if_pos hany, List.map_append, List.map_cons, if_pos (by simpa using hkey),
    hkeep X fun q hq ↦ hXY q (List.mem_append_left _ hq),
    hkeep Y fun q hq ↦ hXY q (List.mem_append_right _ hq)]

/-- Adding a field to two plans that agree but at the planned field of one key keeps them so:
a field of that key adds the same sub-selection to both, and a field of another key is planned
alike in both. -/
theorem addField_twin (t : ObjectType) (X Y : List Planned) {e e' : Planned}
    (he : e'.key = e.key) (hXY : ∀ q ∈ X ++ Y, q.key ≠ e.key) (g : Field) :
    ∃ X' Y' C, (∀ q ∈ X' ++ Y', q.key ≠ e.key) ∧
      addField t (X ++ e :: Y) g = X' ++ { e with children := e.children ++ C } :: Y' ∧
      addField t (X ++ e' :: Y) g = X' ++ { e' with children := e'.children ++ C } :: Y' := by
  by_cases hg : e.key = g.responseKey
  · -- the field merges into the twin planned fields
    have hXY' : ∀ q ∈ X ++ Y, q.key ≠ g.responseKey := hg ▸ hXY
    exact ⟨X, Y, g.selection, hXY, addField_merge t X Y hg hXY',
      addField_merge t X Y (he.trans hg) hXY'⟩
  · -- the field is planned beside them, or merged into a planned field of its own key
    have hne : (e.key == g.responseKey) = false := by simpa using hg
    have hg' : ¬e'.key = g.responseKey := he ▸ hg
    have hne' : (e'.key == g.responseKey) = false := by simpa using hg'
    have hany : (X ++ e' :: Y).any (·.key == g.responseKey) =
        (X ++ e :: Y).any (·.key == g.responseKey) := by
      simp [hne, hne']
    let merge : Planned → Planned := fun q ↦
      if q.key == g.responseKey then { q with children := q.children ++ g.selection } else q
    unfold addField
    rw [hany]
    split
    · refine ⟨X.map merge, Y.map merge, [], fun q hq ↦ ?_, by simp [merge, hg],
        by simp [merge, hg']⟩
      rw [← List.map_append] at hq
      obtain ⟨q₀, hq₀, rfl⟩ := List.mem_map.mp hq
      simp only [merge]
      split <;> exact hXY q₀ hq₀
    · refine ⟨X, Y ++ [⟨g.responseKey, g, fieldDef t g, g.selection⟩], [], fun q hq ↦ ?_,
        by simp, by simp⟩
      rw [← List.append_assoc] at hq
      rcases List.mem_append.mp hq with hq | hq
      · exact hXY q hq
      · rw [List.mem_singleton.mp hq]
        exact Ne.symm hg

/-- Adding fields to two plans that agree but at the planned field of one key keeps them so,
with the same sub-selections merged into both; by induction on the fields added. -/
theorem foldl_addField_twin (t : ObjectType) :
    ∀ (fs : List Field) (X Y : List Planned) {e e' : Planned}, e'.key = e.key →
      (∀ q ∈ X ++ Y, q.key ≠ e.key) →
      ∃ X' Y' C,
        fs.foldl (addField t) (X ++ e :: Y) = X' ++ { e with children := e.children ++ C } :: Y' ∧
        fs.foldl (addField t) (X ++ e' :: Y) = X' ++ { e' with children := e'.children ++ C } :: Y'
  | [], X, Y, _, _, _, _ => ⟨X, Y, [], by simp, by simp⟩
  | g :: fs, X, Y, e, e', he, hXY => by
    obtain ⟨X₁, Y₁, C₁, hXY₁, hA, hB⟩ := addField_twin t X Y he hXY g
    obtain ⟨X₂, Y₂, C₂, hA₂, hB₂⟩ := @foldl_addField_twin t fs X₁ Y₁
      { e with children := e.children ++ C₁ } { e' with children := e'.children ++ C₁ } he hXY₁
    refine ⟨X₂, Y₂, C₁ ++ C₂, ?_, ?_⟩
    · rw [List.foldl_cons, hA, hA₂, List.append_assoc]
    · rw [List.foldl_cons, hB, hB₂, List.append_assoc]

/-- In a plan whose keys differ, no other planned field has the key of one of them. -/
theorem key_ne_of_nodup {P Q : List Planned} {q : Planned}
    (hkeys : ((P ++ q :: Q).map Planned.key).Nodup) : ∀ x ∈ P ++ Q, x.key ≠ q.key := by
  rw [List.map_append, List.map_cons] at hkeys
  have hout := (List.nodup_cons.mp (List.nodup_middle.mp hkeys)).1
  intro x hx hxk
  refine hout ?_
  rw [← List.map_append, ← hxk]
  exact List.mem_map_of_mem hx

/-- Adding a field, or the same field with another sub-selection that is empty just when its
own is, to a plan whose keys differ: the two plans agree but at the planned field of its key,
whose merged sub-selections end with the field's own. -/
theorem addField_withSelection (t : ObjectType) {plan : List Planned}
    (hkeys : (plan.map Planned.key).Nodup) (p : Field) {sel : List Field}
    (hsel : sel.isEmpty = p.selection.isEmpty) :
    ∃ X Y e e' A, (∀ q ∈ X ++ Y, q.key ≠ p.responseKey) ∧ e.key = p.responseKey ∧
      e'.key = e.key ∧ e'.definition = e.definition ∧
      (∀ d o, resolveField t d e'.field o = resolveField t d e.field o) ∧
      e.children = A ++ p.selection ∧ e'.children = A ++ sel ∧
      addField t plan p = X ++ e :: Y ∧
        addField t plan { p with selection := sel } = X ++ e' :: Y := by
  by_cases hany : plan.any (·.key == p.responseKey) = true
  · -- a field before it has its key: both merge into that field's planned field
    obtain ⟨e₀, he₀, hk⟩ := List.any_eq_true.mp hany
    obtain ⟨X, Y, rfl⟩ := List.append_of_mem he₀
    have hk : e₀.key = p.responseKey := by simpa using hk
    have hXY : ∀ q ∈ X ++ Y, q.key ≠ p.responseKey := hk ▸ key_ne_of_nodup hkeys
    exact ⟨X, Y, { e₀ with children := e₀.children ++ p.selection },
      { e₀ with children := e₀.children ++ sel }, e₀.children, hXY, hk, rfl, rfl, fun _ _ ↦ rfl,
      rfl, rfl, addField_merge t X Y hk hXY, addField_merge t X Y hk hXY⟩
  · -- it is the first of its key: both are planned anew at the end, with the same definition
    have hXY : ∀ q ∈ plan ++ [], q.key ≠ p.responseKey := by
      intro q hq hqk
      exact hany (List.any_eq_true.mpr ⟨q, by simpa using hq, by simpa using hqk⟩)
    have hany' : ¬ plan.any (·.key == ({ p with selection := sel } : Field).responseKey) = true :=
      hany
    refine ⟨plan, [], ⟨p.responseKey, p, fieldDef t p, p.selection⟩,
      ⟨p.responseKey, { p with selection := sel }, fieldDef t { p with selection := sel }, sel⟩, [],
      hXY, rfl, rfl, fieldDef_withSelection t p hsel,
      fun d o ↦ resolveField_withSelection t d p sel o, rfl, rfl, ?_, ?_⟩
    · unfold addField
      rw [if_neg hany]
    · unfold addField
      rw [if_neg hany']
      rfl

/-- Where a field of the chain applies, giving it another sub-selection, empty just when its own
is, changes the plan only at the planned field of its key: both plans merge the same
sub-selections of the fields of that key beside it, with the field's own in between, and the
two planned fields resolve alike. -/
theorem collectFields_withSelection (t : ObjectType) (pre post : List Field) {p : Field}
    {sel : List Field} (happ : p.appliesTo t.name = true)
    (hsel : sel.isEmpty = p.selection.isEmpty) :
    ∃ P Q q q' A B, collectFields t (pre ++ p :: post) = P ++ q :: Q ∧
      collectFields t (pre ++ { p with selection := sel } :: post) = P ++ q' :: Q ∧
      q.key = p.responseKey ∧ q'.key = q.key ∧ q'.definition = q.definition ∧
      (∀ d o, resolveField t d q'.field o = resolveField t d q.field o) ∧
      q.children = A ++ p.selection ++ B ∧ q'.children = A ++ sel ++ B := by
  obtain ⟨X, Y, e, e', A, hXY, hkey, hkey', hdef, hres, hc, hc', hA, hB⟩ :=
    addField_withSelection t (nodup_keys_collectFields t pre) p hsel
  obtain ⟨X', Y', C, hA', hB'⟩ := foldl_addField_twin t (post.filter (·.appliesTo t.name)) X Y
    hkey' fun q hq ↦ hkey ▸ hXY q hq
  have happ' : ({ p with selection := sel } : Field).appliesTo t.name = true := happ
  refine ⟨X', Y', { e with children := e.children ++ C }, { e' with children := e'.children ++ C },
    A, C, ?_, ?_, hkey, hkey', hdef, hres, by simp [hc], by simp [hc']⟩
  · rw [collectFields_middle t pre post happ, hA, hA']
  · rw [collectFields_middle t pre post happ', hB, hB']

/-- A plan whose keys differ finds each of its planned fields by its key. -/
theorem find?_key_of_nodup {P Q : List Planned} {q : Planned}
    (hkeys : ((P ++ q :: Q).map Planned.key).Nodup) :
    (P ++ q :: Q).find? (·.key == q.key) = some q := by
  have hP : ∀ x ∈ P, ¬ (x.key == q.key) = true := fun x hx hxk ↦
    key_ne_of_nodup hkeys x (List.mem_append_left _ hx) (beq_iff_eq.mp hxk)
  rw [List.find?_append, List.find?_eq_none.mpr hP, Option.none_or]
  exact List.find?_cons_of_pos (beq_self_eq_true q.key)

/-- Where a field of the chain applies, the chain goes on in the merged sub-selection of the
planned field of its key, on the type of the objects that field gives. -/
theorem placeIn_cons {t : ObjectType} {S : List Field} {p : Field} (anc : List Field)
    (happ : p.appliesTo t.name = true) {P Q : List Planned} {q : Planned}
    (hplan : collectFields t S = P ++ q :: Q) (hkey : q.key = p.responseKey) :
    placeIn t S (p :: anc) = q.childType.bind fun c ↦ placeIn c q.children anc := by
  have hkeys := nodup_keys_collectFields t S
  rw [hplan] at hkeys
  rw [placeIn, if_pos happ, hplan, ← hkey, find?_key_of_nodup hkeys, Option.bind_some]

end SocialGraph
