import SocialGraph.Selection.OfDocument

/-!
# What `@skip` and `@include` decide, and in which order

`included` reads a selection's directives in order and answers at the first `@skip` whose
condition is true or `@include` whose condition is false. Each directive has a verdict
(`Directive.verdict`): keep, drop, or none when it is a `@skip` or `@include` whose condition
does not read as a Boolean. A selection is kept exactly when every directive says keep
(`included_eq_ok_true_iff`), and when every directive has a verdict it is dropped exactly when
one says drop (`included_eq_ok_false_iff`).

So when every directive has a verdict, the order of the directives does not change the answer
(`included_perm`). Without that, it can: a directive without a verdict refuses the selection
when it is read, and it is not read after a directive that drops. Two orders that both answer
still give the same answer (`included_perm_of_ok`).
-/

namespace SocialGraph

open Document

/-- The value of a directive's `if` argument, read with the variables; none without one. -/
def Document.Directive.condition (vs : Variables) (d : Directive) :
    Except SelectionError (Option InputValue) :=
  ((d.arguments.find? (·.1 == "if")).map (·.2)).mapM (inputOf vs)

/-- What a directive says of its selection: `@skip` keeps it unless its condition is true,
`@include` only if its condition is true, any other directive keeps it; none when the condition
of a `@skip` or `@include` does not read as a Boolean. -/
def Document.Directive.verdict (vs : Variables) (d : Directive) : Option Bool :=
  if d.name == "skip" || d.name == "include" then
    match d.condition vs with
    | .ok (some (.boolean flag)) => some (flag == (d.name == "include"))
    | _ => none
  else some true

variable {vs : Variables}

/-- One step of `included`: a directive that says keep passes on to the rest, one that says
drop answers at once, and one without a verdict fails. -/
theorem included_cons (vs : Variables) (d : Directive) (rest : List Directive) :
    (d.verdict vs = some true → included vs (d :: rest) = included vs rest) ∧
      (d.verdict vs = some false → included vs (d :: rest) = .ok false) ∧
      (d.verdict vs = none → ∃ e, included vs (d :: rest) = .error e) := by
  unfold Directive.verdict
  rw [included]
  split
  · rw [show ((d.arguments.find? (·.1 == "if")).map (·.2)).mapM (inputOf vs) =
      d.condition vs from rfl]
    cases hc : d.condition vs with
    | error e => exact ⟨nofun, nofun, fun _ ↦ ⟨e, rfl⟩⟩
    | ok c =>
      simp only [bind, Except.bind]
      rcases c with _ | v
      · exact ⟨nofun, nofun, fun _ ↦ ⟨_, rfl⟩⟩
      · cases v
        case boolean flag =>
          cases hinc : (d.name == "include") <;> cases flag <;> simp <;> rfl
        all_goals exact ⟨nofun, nofun, fun _ ↦ ⟨_, rfl⟩⟩
  · simp

/-- A selection is kept exactly when every directive says keep. -/
theorem included_eq_ok_true_iff {ds : List Directive} :
    included vs ds = .ok true ↔ ∀ d ∈ ds, d.verdict vs = some true := by
  induction ds with
  | nil => simp [included]
  | cons d rest ih =>
    obtain ⟨hkeep, hdrop, hnone⟩ := included_cons vs d rest
    rw [List.forall_mem_cons]
    cases hv : d.verdict vs with
    | none =>
      obtain ⟨e, he⟩ := hnone hv
      simp [he]
    | some b =>
      cases b with
      | true => simp [hkeep hv, ih]
      | false => simp [hdrop hv]

/-- A selection is dropped only where a directive says drop. -/
theorem exists_verdict_false_of_included {ds : List Directive}
    (h : included vs ds = .ok false) : ∃ d ∈ ds, d.verdict vs = some false := by
  induction ds with
  | nil => simp [included] at h
  | cons d rest ih =>
    obtain ⟨hkeep, -, hnone⟩ := included_cons vs d rest
    cases hv : d.verdict vs with
    | none =>
      obtain ⟨e, he⟩ := hnone hv
      rw [he] at h
      cases h
    | some b =>
      cases b with
      | true =>
        obtain ⟨d', hd', hdrop⟩ := ih (by rwa [← hkeep hv])
        exact ⟨d', List.mem_cons_of_mem _ hd', hdrop⟩
      | false => exact ⟨d, List.mem_cons_self, hv⟩

/-- Directives that all have a verdict give an answer. -/
theorem included_ok_of_verdicts {ds : List Directive} (h : ∀ d ∈ ds, (d.verdict vs).isSome) :
    ∃ b, included vs ds = .ok b := by
  induction ds with
  | nil => exact ⟨true, rfl⟩
  | cons d rest ih =>
    obtain ⟨hkeep, hdrop, -⟩ := included_cons vs d rest
    rw [List.forall_mem_cons] at h
    obtain ⟨b, hb⟩ := Option.isSome_iff_exists.mp h.1
    cases b with
    | true => rw [hkeep hb]; exact ih h.2
    | false => exact ⟨false, hdrop hb⟩

/-- Two orders of the same directives that both answer give the same answer. -/
theorem included_perm_of_ok {ds ds' : List Directive} (hp : ds.Perm ds') {b b' : Bool}
    (h : included vs ds = .ok b) (h' : included vs ds' = .ok b') : b = b' := by
  -- one order keeping the selection means every directive says keep, so the other keeps it too
  have hkept : ∀ {l l' : List Directive}, l.Perm l' → included vs l = .ok false →
      included vs l' ≠ .ok true := by
    intro l l' hll' hl hl'
    obtain ⟨d, hd, hdrop⟩ := exists_verdict_false_of_included hl
    have hkeep := included_eq_ok_true_iff.mp hl' d (hll'.mem_iff.mp hd)
    rw [hdrop] at hkeep
    cases hkeep
  cases b <;> cases b'
  · rfl
  · exact absurd h' (hkept hp h)
  · exact absurd h (hkept hp.symm h')
  · rfl

/-- When every directive has a verdict, their order does not change what `included` says. -/
theorem included_perm {ds ds' : List Directive} (hp : ds.Perm ds')
    (h : ∀ d ∈ ds, (d.verdict vs).isSome) : included vs ds = included vs ds' := by
  obtain ⟨b, hb⟩ := included_ok_of_verdicts h
  obtain ⟨b', hb'⟩ := included_ok_of_verdicts fun d hd ↦ h d (hp.mem_iff.mpr hd)
  rw [hb, hb', included_perm_of_ok hp hb hb']

/-- Without a verdict for every directive, the order matters: an `@include` whose condition is
the string `"yes"` is not read after a `@skip` that holds, so the selection is dropped, and
written first it refuses the selection. -/
theorem included_order_matters_without_verdict :
    included ⟨[], []⟩ [⟨"skip", [("if", .boolean true)]⟩, ⟨"include", [("if", .string "yes")]⟩] =
        .ok false ∧
      included ⟨[], []⟩
          [⟨"include", [("if", .string "yes")]⟩, ⟨"skip", [("if", .boolean true)]⟩] =
        .error (.invalidDirective "include") :=
  ⟨rfl, rfl⟩

end SocialGraph
