import SocialGraph.Proofs.ObjectAssembly

/-!
# The shape of a response and where its errors stand

For every store, every list of failing calls and every selection, the response of an execution
has the shape the selection gives it, and its errors stand where the nulls they explain are
(`response_shape_and_errors`):

* the data is an object or null, and every object in it fits the type and the merged
  selection it was put together for (`ObjectFits`): it has exactly the response keys of the
  selection's plan, in plan order, a field that may not be null is not null, and every list
  holds objects;
* following the path of every error from the root of the data passes through keys and list
  positions that are there and meets a null, at the end of the path or before it
  (`ReachesNull`);
* no error's path is a prefix of another's (`ErrorsApart`), so each null is reported once.

The proof goes level by level, over the layout of `Proofs/LevelLayout`: an object is put
together from cells that fit their fields, so it fits its selection once the objects of the
next level do; each error of a level stands at a cell (an invalid field's, a failed one, a
null one of a non-null field, or one pointing at the next level), a cell's path is apart from
every other's, and the errors of the next level stand below the cells pointing at their
objects. The induction is on the levels left (`resolveLevel_fits`).
-/

namespace SocialGraph

/-! ### Planned levels -/

/-- The group and plan at a place of a planned level: the level's group there, with the plan of
its selection. -/
theorem getElem?_planned {groups : List Group} {planned : List (Group × List Planned)}
    (hplanned : planned = groups.map fun g ↦ (g, collectFields g.object g.selection)) {a : Nat}
    {gp : Group × List Planned} (h : planned[a]? = some gp) :
    groups[a]? = some gp.1 ∧ gp.2 = collectFields gp.1.object gp.1.selection := by
  rw [hplanned, List.getElem?_map] at h
  obtain ⟨g, hg, rfl⟩ := Option.map_eq_some_iff.mp h
  exact ⟨hg, rfl⟩

section Planned

variable {groups : List Group} (hnodes : NodesApart groups)
include hnodes

/-- The objects of different groups of a planned level lie apart. -/
theorem NodesApart.planned_pairwise :
    (groups.map fun g ↦ (g, collectFields g.object g.selection)).Pairwise fun gp gp' ↦
      ∀ n ∈ gp.1.parents, ∀ n' ∈ gp'.1.parents, PathsApart n.path n'.path :=
  List.pairwise_map.mpr hnodes.groups_pairwise

/-- The objects of each group of a planned level lie apart. -/
theorem NodesApart.planned_parents :
    ∀ gp ∈ groups.map (fun g ↦ (g, collectFields g.object g.selection)),
      gp.1.parents.Pairwise fun n n' ↦ PathsApart n.path n'.path := by
  intro gp hgp
  obtain ⟨g, hg, rfl⟩ := List.mem_map.mp hgp
  obtain ⟨a, ha⟩ := List.mem_iff_getElem?.mp hg
  exact hnodes.parents ha

end Planned

/-- The response keys of each plan of a planned level differ. -/
theorem planned_keys (groups : List Group) :
    ∀ gp ∈ groups.map (fun g ↦ (g, collectFields g.object g.selection)),
      (gp.2.map Planned.key).Nodup := by
  intro gp hgp
  obtain ⟨g, -, rfl⟩ := List.mem_map.mp hgp
  exact nodup_keys_collectFields _ _

/-! ### Places of a level -/

/-- The objects a cell points at stand below the path of the cell's field. -/
theorem ChildOf.path {base : List PathSegment} {j : Nat} {m : Node} {cell : Cell}
    (h : ChildOf base j m cell) : ∃ ext, m.path = base ++ ext := by
  cases cell with
  | object j' => exact ⟨[], by simpa using h.2⟩
  | list s e => exact ⟨_, h.2.2⟩
  | ready v => exact h.elim
  | failed => exact h.elim

/-- Two objects at different indices that one cell points at lie apart: they are items of one
list, at different positions. -/
theorem ChildOf.apart {base : List PathSegment} {j j' : Nat} {m m' : Node} {cell : Cell}
    (h : ChildOf base j m cell) (h' : ChildOf base j' m' cell) (hne : j ≠ j') :
    PathsApart m.path m'.path := by
  cases cell with
  | object k => exact absurd (h.1.symm.trans h'.1) hne
  | list s e =>
    obtain ⟨hs, -, hpath⟩ := h
    obtain ⟨hs', -, hpath'⟩ := h'
    rw [hpath, hpath']
    refine PathsApart.append_left base (PathsApart.cons_of_ne ?_ [] [])
    intro heq
    injection heq with heq
    omega
  | ready v => exact h.elim
  | failed => exact h.elim

section Places

variable {groups : List Group} {planned : List (Group × List Planned)}
  {layouts : List (List (List Cell) × List (Option Nat))} {lay lay' : Layout}
  (hnodes : NodesApart groups)
  (hplanned : planned = groups.map fun g ↦ (g, collectFields g.object g.selection))
  (hlaid : LevelLaid planned layouts lay lay')
include hnodes hplanned hlaid

/-- Two entries of the rows of a laid-out level whose objects lie apart are one entry of one
object, or the paths of their fields are apart. -/
theorem InRow.eq_or_apart {n n' : Node} {x x' : (Planned × Option Nat) × Cell}
    (hx : InRow planned layouts n x) (hx' : InRow planned layouts n' x') :
    (n.path = n'.path ∧ x = x') ∨
      PathsApart (n.path ++ [.key x.1.1.key]) (n'.path ++ [.key x'.1.1.key]) := by
  obtain ⟨a, gp, l, i, hgp, hl, hn, hxr⟩ := hx
  obtain ⟨a', gp', l', i', hgp', hl', hn', hxr'⟩ := hx'
  by_cases hplace : (a, i) = (a', i')
  · -- one object: the entries are in one row, whose keys differ
    simp only [Prod.mk.injEq] at hplace
    obtain ⟨rfl, rfl⟩ := hplace
    rw [hgp] at hgp'
    rw [hl] at hl'
    cases hgp'
    cases hl'
    rw [hn] at hn'
    cases hn'
    have hkeys : (gp.2.map Planned.key).Nodup := by
      rw [(getElem?_planned hplanned hgp).2]
      exact nodup_keys_collectFields _ _
    obtain ⟨hc, ht⟩ := hlaid.widths a gp l hgp hl
    by_cases hkey : x.1.1.key = x'.1.1.key
    · exact Or.inl
        ⟨rfl, List.inj_on_of_nodup_map (nodup_keys_rowOf hc ht hkeys i) hxr hxr' hkey⟩
    · refine Or.inr (PathsApart.append_left n.path (PathsApart.cons_of_ne ?_ [] []))
      intro heq
      injection heq with heq
      exact hkey heq
  · exact Or.inr ((hnodes (getElem?_planned hplanned hgp).1 hn (getElem?_planned hplanned hgp').1
      hn' hplace).append _ _)

/-- Errors below the fields of two different entries of the rows of a laid-out level are apart. -/
theorem errorsApart_of_inRow {n n' : Node} {x x' : (Planned × Option Nat) × Cell}
    (hx : InRow planned layouts n x) (hx' : InRow planned layouts n' x') (hne : x ≠ x')
    {e e' : ResponseError} (he : e.Below (n.path ++ [.key x.1.1.key]))
    (he' : e'.Below (n'.path ++ [.key x'.1.1.key])) : ErrorsApart e e' := by
  rcases InRow.eq_or_apart hnodes hplanned hlaid hx hx' with ⟨-, heq⟩ | hapart
  · exact absurd heq hne
  · exact errorsApart_of_below he he' hapart

/-- The objects of the next level of a laid-out level whose objects lie apart lie apart. -/
theorem nodesApart_next (hnext : lay.next = []) : NodesApart lay'.next := by
  intro t t' j j' g g' m m' hg hm hg' hm' hne
  obtain ⟨n, x, hx, htarget, hchild⟩ := hlaid.children t g j m (by simp [hnext]) hg hm
  obtain ⟨n', x', hx', htarget', hchild'⟩ := hlaid.children t' g' j' m' (by simp [hnext]) hg' hm'
  rcases InRow.eq_or_apart hnodes hplanned hlaid hx hx' with ⟨hpath, rfl⟩ | hapart
  · -- one cell points at both: they are items of one list
    have ht : t = t' := Option.some.inj (htarget.symm.trans htarget')
    subst ht
    rw [← hpath] at hchild'
    exact hchild.apart hchild' fun hj ↦ hne (by rw [hj])
  · obtain ⟨ext, hext⟩ := hchild.path
    obtain ⟨ext', hext'⟩ := hchild'.path
    rw [hext, hext']
    exact hapart.append ext ext'

omit hnodes hplanned in
/-- An error of an invalid planned field stands at an entry of the row of its group's first
object. -/
theorem inRow_of_invalid {a : Nat} {g : Group} {plan : List Planned} {n : Node} {p : Planned}
    (hgp : planned[a]? = some (g, plan)) (hn : g.parents[0]? = some n) (hp : p ∈ plan) :
    ∃ x, InRow planned layouts n x ∧ x.1.1 = p := by
  obtain ⟨l, hl⟩ : ∃ l, layouts[a]? = some l := by
    have ha : a < layouts.length := by
      rw [hlaid.length]
      exact (List.getElem?_eq_some_iff.mp hgp).1
    exact ⟨_, List.getElem?_eq_getElem ha⟩
  obtain ⟨hc, ht⟩ := hlaid.widths a (g, plan) l hgp hl
  have hp' : p ∈ (rowOf plan l.1 l.2 0).map (·.1.1) := by
    rw [map_rowOf hc ht 0]
    exact hp
  obtain ⟨x, hx, rfl⟩ := List.mem_map.mp hp'
  exact ⟨x, ⟨a, (g, plan), l, 0, hgp, hl, hn, hx⟩, rfl⟩

omit hnodes in
/-- Following a path from an object of a level put together, through the key of an entry of
its row, goes on from the value of the entry's cell. -/
theorem reachesNull_of_inRow (N : List (List (Option ObjectData))) {n : Node}
    {x : (Planned × Option Nat) × Cell} (hx : InRow planned layouts n x) {rest : List PathSegment}
    (hv : ReachesNull (x.2.value N x.1.2).1 rest) :
    ∃ a g j, groups[a]? = some g ∧ g.parents[j]? = some n ∧
      ReachesNull (objectJson (takeChild (assembleLevel planned layouts N).1 (some a) j))
        (.key x.1.1.key :: rest) := by
  obtain ⟨a, ⟨g, plan⟩, ⟨columns, targets⟩, i, hgp, hl, hn, hxr⟩ := hx
  obtain ⟨hg, hplan⟩ := getElem?_planned hplanned hgp
  dsimp only at hg hplan
  have hkeys : (plan.map Planned.key).Nodup := by
    rw [hplan]
    exact nodup_keys_collectFields _ _
  obtain ⟨hc, ht⟩ := hlaid.widths a (g, plan) (columns, targets) hgp hl
  refine ⟨a, g, i, hg, hn, ?_⟩
  rw [takeChild_assembleLevel_of_getElem? N hgp hl hn]
  have hvalues : ((rowOf plan columns targets i).map fun x ↦
      (x.1.1, (x.2.value N x.1.2).1)).map (·.1.key) =
        (rowOf plan columns targets i).map (·.1.1.key) := by
    rw [List.map_map]
    rfl
  exact reachesNull_objectOfValues (by rw [hvalues]; exact nodup_keys_rowOf hc ht hkeys i)
    (List.mem_map_of_mem hxr) hv

end Places

/-! ### One level -/

/-- A cell of an invalid field fails. -/
theorem eq_failed_of_invalid {next : List Group} {p : Planned} {target : Option Nat}
    {cell : Cell} (hcell : CellFits next p target cell) {err : ResolveError}
    (hinvalid : p.definition = .error err) : cell = .failed := by
  cases cell with
  | failed => rfl
  | ready v =>
    obtain ⟨fd, hdef, -⟩ := hcell
    simp [hinvalid] at hdef
  | object j =>
    obtain ⟨fd, c, hdef, -⟩ := hcell
    simp [hinvalid] at hdef
  | list s e =>
    obtain ⟨fd, c, hdef, -⟩ := hcell
    simp [hinvalid] at hdef

theorem eq_null_of_isNull {v : Json} (h : isNull v = true) : v = .null := by
  cases v <;> simp_all [isNull]

/-- What resolving a level of groups gives: every object put together fits its group's type and
selection; every error's path goes to an object of the level and on from it to a null; and the
errors are apart. -/
structure LevelFits (groups : List Group) (nested : List (List (Option ObjectData)))
    (errors : List ResponseError) : Prop where
  /-- Every object put together fits its group's type and selection. -/
  objects : ∀ a g, groups[a]? = some g → ∀ j o, takeChild nested (some a) j = some o →
    ObjectFits g.object g.selection o
  /-- Every error's path goes from an object of a group, on from it to a null. -/
  reach : ∀ e ∈ errors, ∃ (a : Nat) (g : Group) (j : Nat) (n : Node) (rel : List PathSegment),
    groups[a]? = some g ∧ g.parents[j]? = some n ∧ e.path = some (n.path ++ rel) ∧
      ReachesNull (objectJson (takeChild nested (some a) j)) rel
  /-- No error's path is a prefix of another's. -/
  apart : errors.Pairwise ErrorsApart

theorem levelFits_nil (groups : List Group) : LevelFits groups [] [] :=
  ⟨fun _ _ _ j o h ↦ by simp [takeChild] at h, fun _ he ↦ (List.not_mem_nil he).elim,
    List.Pairwise.nil⟩

section OneLevel

variable {groups : List Group} {planned : List (Group × List Planned)}
  {layouts : List (List (List Cell) × List (Option Nat))} {lay₀ lay : Layout}
  {nested : List (List (Option ObjectData))} {deeper : List ResponseError}
  (hplanned : planned = groups.map fun g ↦ (g, collectFields g.object g.selection))
  (hlaid : LevelLaid planned layouts lay₀ lay) (hdeeper : LevelFits lay.next nested deeper)
include hplanned hlaid hdeeper

omit hplanned hdeeper in
/-- Every error of an invalid field stands at the field's failed cell on its group's first
object. -/
theorem site_of_invalidError {e : ResponseError} (he : e ∈ invalidErrors planned) :
    ∃ n x, InRow planned layouts n x ∧ x.2 = .failed ∧ (∃ err, x.1.1.definition = .error err) ∧
      e.path = some (n.path ++ [.key x.1.1.key]) := by
  obtain ⟨a, g, plan, n, p, hgp, hn, hp, ⟨err, hinvalid⟩, hpath⟩ := mem_invalidErrors he
  obtain ⟨x, hx, rfl⟩ := inRow_of_invalid hlaid hgp hn hp
  exact ⟨n, x, hx, eq_failed_of_invalid (hlaid.fits n x hx) hinvalid, ⟨err, hinvalid⟩, hpath⟩

omit hplanned in
/-- Every error of the next level stands below a cell pointing at the next level's objects. -/
theorem site_of_deeperError (hstart : lay₀.next = []) {e : ResponseError} (he : e ∈ deeper) :
    ∃ n x t j m rel, InRow planned layouts n x ∧ x.1.2 = some t ∧
      ChildOf (n.path ++ [.key x.1.1.key]) j m x.2 ∧ e.path = some (m.path ++ rel) ∧
        ReachesNull (objectJson (takeChild nested (some t) j)) rel := by
  obtain ⟨t, g', j, m, rel, hg', hm, hpath, hreach⟩ := hdeeper.reach e he
  obtain ⟨n, x, hx, htarget, hchild⟩ := hlaid.children t g' j m (by simp [hstart]) hg' hm
  exact ⟨n, x, t, j, m, rel, hx, htarget, hchild, hpath, hreach⟩

/-- Every object of a level put together fits its group's type and selection, when the objects
of the next level fit theirs. -/
theorem objects_of_level : ∀ a g, groups[a]? = some g → ∀ j o,
    takeChild (assembleLevel planned layouts nested).1 (some a) j = some o →
      ObjectFits g.object g.selection o := by
  intro a g hg j o ho
  obtain ⟨g', plan, columns, targets, n, hgp, hl, hn, hobj⟩ :=
    exists_of_takeChild_assembleLevel ho
  obtain ⟨hg', hplan⟩ := getElem?_planned hplanned hgp
  dsimp only at hg' hplan
  obtain rfl : g' = g := Option.some.inj (hg'.symm.trans hg)
  obtain ⟨hc, ht⟩ := hlaid.widths a _ _ hgp hl
  refine objectFits_of_objectOfValues hobj ?_ fun pv hpv hok ↦ ?_
  · rw [List.map_map, hplan.symm]
    exact map_rowOf hc ht j
  · obtain ⟨x, hx, rfl⟩ := List.mem_map.mp hpv
    exact valueFits_of_cellFits hdeeper.objects
      (hlaid.fits n x ⟨a, _, _, j, hgp, hl, hn, hx⟩) hok

/-- Every error of a level goes from an object of the level to a null: an invalid field's, a
failed field's and a null field's errors through the field's key to its null, and the next
level's errors through the cell pointing at their objects. -/
theorem reach_of_level (hstart : lay₀.next = [] ∧ lay₀.errors = []) :
    ∀ e ∈ invalidErrors planned ++ lay.errors ++ deeper ++ (assembleLevel planned layouts nested).2,
      ∃ (a : Nat) (g : Group) (j : Nat) (n : Node) (rel : List PathSegment),
        groups[a]? = some g ∧ g.parents[j]? = some n ∧ e.path = some (n.path ++ rel) ∧
          ReachesNull (objectJson (takeChild (assembleLevel planned layouts nested).1 (some a) j))
            rel := by
  -- an error at a null entry of a row goes to the null through the entry's key
  have hat : ∀ (e : ResponseError) n x, InRow planned layouts n x →
      ReachesNull (x.2.value nested x.1.2).1 [] → e.path = some (n.path ++ [.key x.1.1.key]) →
      ∃ (a : Nat) (g : Group) (j : Nat) (n : Node) (rel : List PathSegment),
        groups[a]? = some g ∧ g.parents[j]? = some n ∧ e.path = some (n.path ++ rel) ∧
          ReachesNull (objectJson (takeChild (assembleLevel planned layouts nested).1 (some a) j))
            rel := by
    intro e n x hx hv hpath
    obtain ⟨a, g, j, hg, hn, hr⟩ := reachesNull_of_inRow hplanned hlaid nested hx hv
    exact ⟨a, g, j, n, _, hg, hn, hpath, hr⟩
  intro e he
  simp only [List.mem_append] at he
  rcases he with ((he | he) | he) | he
  · obtain ⟨n, x, hx, hfailed, -, hpath⟩ := site_of_invalidError hlaid he
    exact hat e n x hx (by rw [hfailed]; exact reachesNull_null []) hpath
  · obtain ⟨errs, herrs, -, hsites⟩ := hlaid.errors
    rw [herrs, hstart.2, List.nil_append] at he
    obtain ⟨n, x, hx, hfailed, -, hpath⟩ := hsites e he
    exact hat e n x hx (by rw [hfailed]; exact reachesNull_null []) hpath
  · obtain ⟨n, x, t, j, m, rel, hx, htarget, hchild, hpath, hreach⟩ :=
      site_of_deeperError hlaid hdeeper hstart.1 he
    obtain ⟨ext, hm, hv⟩ := reachesNull_value_of_childOf hchild hreach
    rw [← htarget] at hv
    obtain ⟨a, g, j', hg, hn, hr⟩ := reachesNull_of_inRow hplanned hlaid nested hx hv
    refine ⟨a, g, j', n, _, hg, hn, ?_, hr⟩
    rw [hpath, hm]
    simp
  · obtain ⟨n, x, hx, hnull, -, -, hpath⟩ := mem_assembleLevel_errors he
    exact hat e n x hx (by rw [eq_null_of_isNull hnull]; exact reachesNull_null []) hpath

/-- The errors of a level are apart: errors at different entries of the rows are apart, an
error of an invalid field stands at a failed cell of that field, of a failed field at a failed
cell of a valid field, of the next level below a cell pointing at it, and of a null field at a
cell holding null. -/
theorem apart_of_level (hnodes : NodesApart groups) (hstart : lay₀.next = [] ∧ lay₀.errors = []) :
    (invalidErrors planned ++ lay.errors ++ deeper ++
      (assembleLevel planned layouts nested).2).Pairwise ErrorsApart := by
  have hapart := hplanned ▸ hnodes.planned_pairwise
  have hparents := hplanned ▸ hnodes.planned_parents
  have hkeys := hplanned ▸ planned_keys groups
  obtain ⟨errs, herrs, hLapart, hL⟩ := hlaid.errors
  rw [hstart.2, List.nil_append] at herrs
  rw [herrs]
  have hfailed : ∀ e ∈ invalidErrors planned ++ errs, ∃ n x, InRow planned layouts n x ∧
      x.2 = .failed ∧ e.Below (n.path ++ [.key x.1.1.key]) := by
    intro e he
    rcases List.mem_append.mp he with he | he
    · obtain ⟨n, x, hx, hf, -, hpath⟩ := site_of_invalidError hlaid he
      exact ⟨n, x, hx, hf, .of_path hpath⟩
    · obtain ⟨n, x, hx, hf, -, hpath⟩ := hL e he
      exact ⟨n, x, hx, hf, .of_path hpath⟩
  have hdeep : ∀ e ∈ deeper, ∃ n x, InRow planned layouts n x ∧
      (∃ j m, ChildOf (n.path ++ [.key x.1.1.key]) j m x.2) ∧
        e.Below (n.path ++ [.key x.1.1.key]) := by
    intro e he
    obtain ⟨n, x, t, j, m, rel, hx, -, hchild, hpath, -⟩ :=
      site_of_deeperError hlaid hdeeper hstart.1 he
    obtain ⟨ext, hm⟩ := hchild.path
    exact ⟨n, x, hx, ⟨j, m, hchild⟩, ext ++ rel, by rw [hpath, hm, List.append_assoc]⟩
  have hnull : ∀ e ∈ (assembleLevel planned layouts nested).2, ∃ n x,
      InRow planned layouts n x ∧ (∃ v, x.2 = .ready v) ∧ e.Below (n.path ++ [.key x.1.1.key]) := by
    intro e he
    obtain ⟨n, x, hx, hisnull, hreported, -, hpath⟩ := mem_assembleLevel_errors he
    exact ⟨n, x, hx, eq_ready_of_value hisnull hreported, .of_path hpath⟩
  refine List.pairwise_append.mpr ⟨List.pairwise_append.mpr ⟨List.pairwise_append.mpr
    ⟨pairwise_invalidErrors hapart hkeys, hLapart, ?_⟩, hdeeper.apart, ?_⟩,
    pairwise_assembleLevel_errors nested hlaid.length hlaid.widths hapart hparents hkeys, ?_⟩
  · -- an invalid field's entry is no valid field's
    intro e he e' he'
    obtain ⟨n, x, hx, -, ⟨err, hinvalid⟩, hpath⟩ := site_of_invalidError hlaid he
    obtain ⟨n', x', hx', -, ⟨fd, hvalid⟩, hpath'⟩ := hL e' he'
    refine errorsApart_of_inRow hnodes hplanned hlaid hx hx' (fun h ↦ ?_)
      (.of_path hpath) (.of_path hpath')
    rw [h, hvalid] at hinvalid
    cases hinvalid
  · -- a failed cell points nowhere
    intro e he e' he'
    obtain ⟨n, x, hx, hf, hb⟩ := hfailed e he
    obtain ⟨n', x', hx', ⟨j, m, hchild⟩, hb'⟩ := hdeep e' he'
    refine errorsApart_of_inRow hnodes hplanned hlaid hx hx' (fun h ↦ ?_) hb hb'
    rw [← h, hf] at hchild
    exact hchild
  · -- a cell holding null neither failed nor points anywhere
    intro e he e' he'
    obtain ⟨n', x', hx', ⟨v, hv⟩, hb'⟩ := hnull e' he'
    rcases List.mem_append.mp he with he | he
    · obtain ⟨n, x, hx, hf, hb⟩ := hfailed e he
      refine errorsApart_of_inRow hnodes hplanned hlaid hx hx' (fun h ↦ ?_) hb hb'
      rw [h, hv] at hf
      cases hf
    · obtain ⟨n, x, hx, ⟨j, m, hchild⟩, hb⟩ := hdeep e he
      refine errorsApart_of_inRow hnodes hplanned hlaid hx hx' (fun h ↦ ?_) hb hb'
      rw [h, hv] at hchild
      exact hchild

end OneLevel

/-! ### Every level -/

theorem length_layoutGroups (planned : List (Group × List Planned)) (lay : Layout) :
    (layoutGroups planned lay).2.length = planned.length := by
  induction planned generalizing lay with
  | nil => rfl
  | cons gp planned ih =>
    obtain ⟨g, plan⟩ := gp
    obtain ⟨⟨lay₁, columns, targets⟩, h₁⟩ : ∃ x, layoutFields g plan lay = x := ⟨_, rfl⟩
    obtain ⟨⟨lay₂, layouts⟩, h₂⟩ : ∃ x, layoutGroups planned lay₁ = x := ⟨_, rfl⟩
    have hlen := ih lay₁
    rw [h₂] at hlen
    simp only [layoutGroups, h₁, h₂, List.length_cons, hlen]

/-- A level of one group of one object puts one object together. -/
theorem resolveLevel_single (fuel : Nat) (t : ObjectType) (selection : List Field) (n : Node)
    (b : Batch) : ∃ x, ((resolveLevel (fuel + 1) [⟨t, selection, [n]⟩]).run b).1.1 = [[x]] := by
  rw [run_resolveLevel_succ fuel (List.cons_ne_nil _ []) b]
  dsimp only
  generalize hlaid : layoutGroups _ _ = laid
  have hlen := congrArg (·.2.length) hlaid
  simp only [length_layoutGroups] at hlen
  obtain ⟨lay, layouts⟩ := laid
  obtain ⟨l, rfl⟩ := List.length_eq_one_iff.mp hlen.symm
  simp [assembleLevel, assembleGroup]

/-- From any batch, resolving groups whose objects lie apart gives objects that fit their
groups' types and selections, and errors that go from the groups' objects to nulls and are
apart; by induction on the levels left, each level resting on the levels below. -/
theorem resolveLevel_fits (fuel : Nat) (groups : List Group) (hnodes : NodesApart groups)
    (b : Batch) :
    LevelFits groups ((resolveLevel fuel groups).run b).1.1
      ((resolveLevel fuel groups).run b).1.2 := by
  induction fuel generalizing groups b with
  | zero => exact levelFits_nil groups
  | succ fuel ih =>
    cases groups with
    | nil => exact levelFits_nil []
    | cons g gs =>
      rw [run_resolveLevel_succ fuel (List.cons_ne_nil g gs) b]
      dsimp only
      -- every outcome of the level has its field's shape
      have hfit := forall₂_levelOutcomes (g :: gs) b
        (Batch.flush.run (((levelTasks ((g :: gs).map fun g ↦
          (g, collectFields g.object g.selection))).mapM resolveTask).run b).2).2
      generalize hplanned : (g :: gs).map (fun g ↦ (g, collectFields g.object g.selection)) =
        planned at hfit ⊢
      generalize ((((levelTasks planned).mapM resolveTask).run b).1.mapM settleOutcome).run _ =
        settled at hfit ⊢
      obtain ⟨queue, b'⟩ := settled
      obtain ⟨⟨lay, layouts⟩, hlay⟩ : ∃ x, layoutGroups planned ⟨queue, [], []⟩ = x := ⟨_, rfl⟩
      rw [hlay]
      dsimp only
      -- the level is laid out, and its next level's objects lie apart
      have hq : List.Forall₂ (fun task (o : Outcome) ↦ o.Fits task.2.1.shape)
          (levelTasks planned ++ []) queue := by
        rwa [List.append_nil]
      obtain ⟨-, hlaid⟩ := layoutGroups_laid planned (hplanned ▸ hnodes.planned_pairwise)
        (hplanned ▸ hnodes.planned_parents) (hplanned ▸ planned_keys _) hq hlay
      have hdeeper := ih lay.next (nodesApart_next hnodes hplanned.symm hlaid rfl) b'
      generalize (resolveLevel fuel lay.next).run b' = deeper at hdeeper ⊢
      obtain ⟨⟨nested, derrs⟩, b''⟩ := deeper
      exact ⟨objects_of_level hplanned.symm hlaid hdeeper,
        reach_of_level hplanned.symm hlaid hdeeper ⟨rfl, rfl⟩,
        apart_of_level hplanned.symm hlaid hdeeper hnodes ⟨rfl, rfl⟩⟩

/-! ### Executing a selection -/

/-- For every store, every list of failing calls and every selection, the response's data is
null or an object that fits the root type and the selection all the way down, with a value of
the field's kind in every field and null only in nullable ones; every error's path leads
through the data, by keys and indices it has, to a null; and no error's path is a prefix of
another's, so each null is explained once, where it arose. -/
theorem response_shape_and_errors (store : Store) (rules : List FailureRule)
    (selection : List Field) :
    let response := (execute store rules selection).1
    (response.data = some .null ∨
        ∃ o, response.data = some (.obj o) ∧ ObjectFits .query selection o) ∧
      (∀ e ∈ response.errors, ∃ path, e.path = some path ∧
        ReachesNull (response.data.getD .null) path) ∧
      response.errors.Pairwise ErrorsApart := by
  have hfits := resolveLevel_fits (heightOf selection + 1) [⟨.query, selection, [⟨none, []⟩]⟩]
    (nodesApart_root _ _ _) (Batch.fresh store rules)
  have hroot := resolveLevel_single (heightOf selection) .query selection ⟨none, []⟩
    (Batch.fresh store rules)
  rw [execute_eq]
  dsimp only
  generalize (resolveLevel (heightOf selection + 1) [⟨.query, selection, [⟨none, []⟩]⟩]).run
    (Batch.fresh store rules) = r at hfits hroot
  obtain ⟨⟨levels, errors⟩, final⟩ := r
  obtain ⟨x, rfl⟩ := hroot
  dsimp only at hfits ⊢
  -- the root level is the one object of the root group, which the data is
  have htake : takeChild [[x]] (some 0) 0 = x := by
    cases x <;> rfl
  refine ⟨?_, fun e he ↦ ?_, hfits.apart⟩
  · cases x with
    | none => exact Or.inl rfl
    | some o => exact Or.inr ⟨o, rfl, hfits.objects 0 _ rfl 0 o htake⟩
  · -- an error goes from the root, the one object of the root level
    obtain ⟨a, g, j, n, rel, hg, hn, hpath, hreach⟩ := hfits.reach e he
    obtain ⟨rfl, rfl⟩ : a = 0 ∧ ⟨.query, selection, [⟨none, []⟩]⟩ = g := by
      simpa [List.getElem?_singleton] using hg
    obtain ⟨rfl, rfl⟩ : j = 0 ∧ ⟨none, []⟩ = n := by
      simpa [List.getElem?_singleton] using hn
    rw [htake] at hreach
    refine ⟨rel, by simpa using hpath, ?_⟩
    cases x <;> exact hreach

end SocialGraph
