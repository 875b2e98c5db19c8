import Mathlib.Data.List.Nodup
import SocialGraph.Proofs.LayoutFrame
import SocialGraph.Proofs.LevelDepth
import SocialGraph.Proofs.StoreLoading

/-!
# How many calls a run makes

Keyed calls are batched, at most four per level (`keyed_lookups_batched_per_level`), and scans
are remembered for the whole run, a failed one included, so no scan reaches the store twice
(`ScansOnce`, kept by every level, and `execute_scans_nodup`). But a scan is asked for once per
object it starts from: the posts, the profile and the subscriptions of a user are scanned by the
user's key. So the number of calls follows the records a run visits, not its depth.

A level whose fields wait for no key sends its scans and nothing else (`LevelRun.calls_of_waits`),
and remembers them on top of what was remembered (`LevelRun.isNone_memo_settled`). Over the store
of a dataset, the selection `{ users { posts { title } } }` runs three such levels: the users are
scanned, then the posts of each user, one scan per user, then the titles are read. It makes
`1 + n` calls for `n` users (`user_post_titles_scan_per_user`).
-/

namespace SocialGraph

/-! ### Scans are remembered -/

/-- After a first phase every scan its tasks asked for is remembered. -/
theorem memo_isSome_of_mem_scans (tasks : List (ObjectType × FieldDef × Field × Option Record))
    (b : Batch) :
    ∀ c ∈ tasks.filterMap scanRequest,
      ((((tasks.mapM resolveTask).run b).2.cache.memo c)).isSome := by
  induction tasks generalizing b with
  | nil => simp
  | cons task tasks ih =>
    have hfirst := phased_resolveTask b task
    have hrest := (phased_mapM tasks ((resolveTask task).run b).2).1
    simp only [List.mapM_cons, StateT.run_bind, id_bind_eq, StateT.run_pure, id_pure_eq]
    intro c hc
    cases hreq : scanRequest task with
    | none =>
      rw [List.filterMap_cons_none hreq] at hc
      exact ih _ c hc
    | some sc =>
      rw [List.filterMap_cons_some hreq, List.mem_cons] at hc
      rcases hc with hc | hc
      · -- the task's own scan is remembered after it, and stays remembered
        have hnone := hfirst.memo sc
        rw [hreq] at hnone
        have hsome : (((resolveTask task).run b).2.cache.memo sc).isSome :=
          Option.isSome_iff_ne_none.mpr (by simpa using hnone)
        obtain ⟨v, hv⟩ := Option.isSome_iff_exists.mp hsome
        rw [hc, hrest.memo sc v hv]
        rfl
      · exact ih _ c hc

/-- A flush remembers the scans it found. -/
theorem memo_flush (b : Batch) : (Batch.flush.run b).2.cache.memo = b.cache.memo := by
  rw [Batch.run_flush]
  exact Cache.memo_congr rfl rfl rfl

/-! ### Each scan once -/

theorem nodup_eraseDups {α : Type} [BEq α] [LawfulBEq α] : ∀ l : List α, l.eraseDups.Nodup
  | [] => List.nodup_nil
  | a :: as => by
    have hlt : (as.filter fun b ↦ !b == a).length < as.length + 1 :=
      Nat.lt_succ_of_le (List.length_filter_le _ as)
    rw [List.eraseDups_cons, List.nodup_cons]
    refine ⟨fun h ↦ ?_, nodup_eraseDups _⟩
    simpa using List.mem_eraseDups.mp h
termination_by l => l.length

/-- A batch whose scans so far each reached the store once and are remembered, with no key
waiting. -/
structure ScansOnce (b : Batch) : Prop where
  drained : b.cache.pending = []
  nodup : (b.session.calls.filter (·.isScan)).Nodup
  remembered : ∀ c ∈ b.session.calls, c.isScan → (b.cache.memo c).isSome

theorem scansOnce_fresh (store : Store) (rules : List FailureRule) :
    ScansOnce (Batch.fresh store rules) :=
  ⟨rfl, by simp [Batch.fresh, Session.calls], by simp [Batch.fresh, Session.calls]⟩

/-- A level keeps each scan to one call: it scans only what is not remembered, each scan once,
and remembers what it scanned. -/
theorem ScansOnce.settled_levelRun {groups : List Group} {b : Batch} (h : ScansOnce b) :
    ScansOnce (levelRun groups b).settled := by
  have hl := levelRun_batched groups h.drained
  have hext : Batch.Extends b (levelRun groups b).phased :=
    (phased_mapM (levelRun groups b).tasks b).1
  have hmemo : (levelRun groups b).settled.cache.memo = (levelRun groups b).phased.cache.memo := by
    rw [hl.settle]
    exact memo_flush _
  have hcalls : (levelRun groups b).settled.session.calls = b.session.calls ++
      (b.levelScans (levelRun groups b).tasks ++
        Batch.flushCalls (levelRun groups b).phased.cache) := by
    rw [hl.settle, hl.flush, hl.scans, levelRun_start, List.append_assoc]
  -- the level's new scans are scans the batch did not remember, asked for by its tasks
  have hnew : ∀ c ∈ b.levelScans (levelRun groups b).tasks,
      c ∈ (levelRun groups b).tasks.filterMap scanRequest ∧ (b.cache.memo c).isNone := by
    intro c hc
    simpa [Batch.levelScans, List.mem_eraseDups, List.mem_filter] using hc
  have hscans : (b.levelScans (levelRun groups b).tasks).filter (·.isScan) =
      b.levelScans (levelRun groups b).tasks := by
    refine List.filter_eq_self.mpr fun c hc ↦ ?_
    obtain ⟨task, -, hreq⟩ := List.mem_filterMap.mp (hnew c hc).1
    exact isScan_of_scanRequest hreq
  have hkeyed : (Batch.flushCalls (levelRun groups b).phased.cache).filter (·.isScan) = [] := by
    refine List.filter_eq_nil_iff.mpr fun c hc ↦ ?_
    obtain ⟨kind, rfl⟩ := keys_of_mem_flushCalls hc
    simp [StoreCall.isScan_keyedCall]
  refine ⟨?_, ?_, ?_⟩
  · rw [hl.settle]
    exact levelRun_flushed_pending groups b
  · rw [hcalls, List.filter_append, List.filter_append, hscans, hkeyed, List.append_nil]
    refine List.nodup_append.mpr ⟨h.nodup, nodup_eraseDups _, fun c hc c' hc' hcc ↦ ?_⟩
    -- a scan sent before is remembered, so the level does not send it again
    subst hcc
    have hold := h.remembered c (List.mem_filter.mp hc).1 (by simpa using (List.mem_filter.mp hc).2)
    have := (hnew c hc').2
    simp_all
  · intro c hc hscan
    rw [hmemo]
    rw [hcalls] at hc
    rcases List.mem_append.mp hc with hc | hc
    · obtain ⟨v, hv⟩ := Option.isSome_iff_exists.mp (h.remembered c hc hscan)
      rw [hext.memo c v hv]
      rfl
    · rcases List.mem_append.mp hc with hc | hc
      · exact memo_isSome_of_mem_scans _ b c (hnew c hc).1
      · obtain ⟨kind, rfl⟩ := keys_of_mem_flushCalls hc
        simp [StoreCall.isScan_keyedCall] at hscan

/-- A whole run keeps each scan to one call; by induction on the levels left. -/
theorem ScansOnce.run_resolveLevel (fuel : Nat) (groups : List Group) {b : Batch}
    (h : ScansOnce b) : ScansOnce ((resolveLevel fuel groups).run b).2 := by
  induction fuel generalizing groups b with
  | zero => exact h
  | succ fuel ih =>
    cases groups with
    | nil => exact h
    | cons g gs =>
      rw [run_resolveLevel_levelRun fuel (List.cons_ne_nil g gs) b]
      exact ih _ h.settled_levelRun

/-! ### What a level remembers -/

/-- A first phase remembers the scans its tasks ask for, on top of what was remembered. -/
theorem isNone_memo_mapM (tasks : List (ObjectType × FieldDef × Field × Option Record))
    (b : Batch) (c : StoreCall) :
    ((((tasks.mapM resolveTask).run b).2.cache.memo c)).isNone ↔
      (b.cache.memo c).isNone ∧ c ∉ tasks.filterMap scanRequest := by
  induction tasks generalizing b with
  | nil => simp
  | cons task tasks ih =>
    simp only [List.mapM_cons, StateT.run_bind, id_bind_eq, StateT.run_pure, id_pure_eq]
    rw [ih, (phased_resolveTask b task).memo c]
    cases hreq : scanRequest task with
    | none => simp [List.filterMap_cons_none hreq]
    | some sc =>
      rw [List.filterMap_cons_some hreq, List.mem_cons]
      constructor
      · rintro ⟨⟨hc, hne⟩, hrest⟩
        exact ⟨hc, fun h ↦ h.elim (fun h ↦ hne (by rw [h])) hrest⟩
      · rintro ⟨hc, hnot⟩
        exact ⟨⟨hc, fun h ↦ hnot (.inl (Option.some.inj h).symm)⟩, fun h ↦ hnot (.inr h)⟩

theorem levelRun_phased (groups : List Group) (b : Batch) :
    (levelRun groups b).phased = (((levelRun groups b).tasks.mapM resolveTask).run b).2 :=
  rfl

theorem levelRun_flushed (groups : List Group) (b : Batch) :
    (levelRun groups b).flushed = (Batch.flush.run (levelRun groups b).phased).2 :=
  rfl

/-- A level that starts with no key pending ends remembering the scans its tasks asked for, on
top of what it started remembering, and with no key pending. -/
theorem isNone_memo_levelRun (groups : List Group) {b : Batch} (hb : b.cache.pending = [])
    (c : StoreCall) :
    ((levelRun groups b).settled.cache.memo c).isNone ↔
      (b.cache.memo c).isNone ∧ c ∉ (levelRun groups b).tasks.filterMap scanRequest := by
  rw [(levelRun_batched groups hb).settle, levelRun_flushed, memo_flush, levelRun_phased,
    isNone_memo_mapM]

theorem pending_levelRun_settled (groups : List Group) {b : Batch} (hb : b.cache.pending = []) :
    (levelRun groups b).settled.cache.pending = [] := by
  rw [(levelRun_batched groups hb).settle]
  exact levelRun_flushed_pending groups b

/-! ### Levels that wait for no key -/

/-- Whether a resolver waits for keys: a root look-up, and the relations read by key (a
profile's member type, a post's author, and the users at the other end of subscriptions). -/
def FieldResolver.waits : FieldResolver → Bool
  | .rootLookup _ => true
  | .relation .profileMemberType | .relation .postAuthor => true
  | .relation .userSubscribedTo | .relation .userSubscribedFrom => true
  | _ => false

/-- A task whose resolver waits for no key gives a result that waits for none. -/
theorem resultKeys_resolveTask {task : ObjectType × FieldDef × Field × Option Record}
    (h : task.2.1.resolver.waits = false) (b : Batch) :
    resultKeys ((resolveTask task).run b).1 = [] := by
  obtain ⟨t, fd, f, o⟩ := task
  show resultKeys ((resolveField t fd f o).run b).1 = []
  cases hr : fd.resolver with
  | typename =>
    simp only [resolveField, hr]
    rfl
  | scalar =>
    simp only [resolveField, hr]
    split <;> rfl
  | rootList kind =>
    simp only [resolveField, hr, StateT.run_bind, id_bind_eq, StateT.run_pure, id_pure_eq]
    cases ((Batch.scanAll kind).run b).1 <;> rfl
  | rootLookup kind =>
    simp [hr, FieldResolver.waits] at h
  | relation r =>
    simp only [resolveField, hr]
    -- only the scans of a user's profile and posts are left; every other pair fails at once
    cases r <;> simp [hr, FieldResolver.waits] at h
    all_goals rcases o with _ | record
    all_goals try rfl
    all_goals cases record <;> try rfl
    all_goals simp only [follow, StateT.run_bind, id_bind_eq, StateT.run_pure, id_pure_eq]
    · cases ((Batch.scanByForeignKey .profileUser _).run b).1 <;> rfl
    · cases ((Batch.scanByForeignKey .postAuthor _).run b).1 <;> rfl

/-- Tasks whose resolvers wait for no key give results that wait for none. -/
theorem waitingKeys_mapM (tasks : List (ObjectType × FieldDef × Field × Option Record))
    (h : ∀ task ∈ tasks, task.2.1.resolver.waits = false) (b : Batch) :
    waitingKeys ((tasks.mapM resolveTask).run b).1 = [] := by
  induction tasks generalizing b with
  | nil => rfl
  | cons task tasks ih =>
    simp only [List.mapM_cons, StateT.run_bind, id_bind_eq, StateT.run_pure, id_pure_eq]
    rw [waitingKeys_cons, resultKeys_resolveTask (h task List.mem_cons_self),
      ih (fun t ht ↦ h t (List.mem_cons_of_mem _ ht)), List.nil_append]

/-- A level whose results wait for no key flushes no window: it sends its scans and nothing
else. -/
theorem LevelRun.Batched.calls_of_waits {l : LevelRun} (hl : l.Batched)
    (hw : waitingKeys l.results = []) : l.calls = l.start.levelScans l.tasks := by
  have hwindow : ∀ kind, l.phased.cache.window kind = [] := by
    intro kind
    refine List.eq_nil_iff_forall_not_mem.mpr fun id hid ↦ ?_
    have hwait := ((hl.window kind id).mp hid).1
    rw [hw] at hwait
    cases hwait
  have hnone : Batch.windows l.phased.cache = [] := by
    simp [Batch.windows, hwindow]
  rw [LevelRun.calls, Batch.flushCalls, hnone, List.map_nil, List.append_nil]

/-- A level whose fields wait for no key, started with no key pending, sends its scans and
nothing else. -/
theorem levelRun_calls_of_waits (groups : List Group) {b : Batch} (hb : b.cache.pending = [])
    (h : ∀ task ∈ (levelRun groups b).tasks, task.2.1.resolver.waits = false) :
    (levelRun groups b).calls = b.levelScans (levelRun groups b).tasks :=
  (levelRun_batched groups hb).calls_of_waits (waitingKeys_mapM _ h b)

/-- Every task of a level runs a valid planned field of one of its groups on one of the group's
objects. -/
theorem exists_of_mem_levelTasks {groups : List Group}
    {task : ObjectType × FieldDef × Field × Option Record}
    (h : task ∈ levelTasks (groups.map fun g ↦ (g, collectFields g.object g.selection))) :
    ∃ g ∈ groups, ∃ p ∈ collectFields g.object g.selection, ∃ n ∈ g.parents,
      p.definition = .ok task.2.1 ∧ task = (g.object, task.2.1, p.field, n.record) := by
  simp only [levelTasks, List.mem_flatMap] at h
  obtain ⟨gp, hgp, p, hp, htask⟩ := h
  obtain ⟨g, hg, rfl⟩ := List.mem_map.mp hgp
  cases hdef : p.definition with
  | error e => simp [hdef] at htask
  | ok fd =>
    simp only [hdef, List.mem_map] at htask
    obtain ⟨n, hn, rfl⟩ := htask
    exact ⟨g, hg, p, hp, n, hn, hdef, rfl⟩

theorem levelRuns_nil (fuel : Nat) (b : Batch) : levelRuns fuel [] b = [] := by
  cases fuel <;> rfl

/-- Scans of keys that do not repeat are sent as they are. -/
theorem eraseDups_of_nodup {α : Type} [BEq α] [LawfulBEq α] :
    ∀ {l : List α}, l.Nodup → l.eraseDups = l
  | [], _ => rfl
  | a :: as, h => by
    obtain ⟨ha, has⟩ := List.nodup_cons.mp h
    have hkeep : as.filter (fun b ↦ !b == a) = as :=
      List.filter_eq_self.mpr fun b hb ↦ by
        have hne : b ≠ a := fun e ↦ ha (e ▸ hb)
        simpa using hne
    rw [List.eraseDups_cons, hkeep, eraseDups_of_nodup has]

/-- Over any store and failure rules, the scans an execution sends do not repeat. -/
theorem execute_scans_nodup (store : Store) (rules : List FailureRule) (selection : List Field) :
    ((execute store rules selection).2.filter (·.isScan)).Nodup := by
  rw [execute_calls]
  exact ((scansOnce_fresh store rules).run_resolveLevel _ _).nodup

/-! ### The posts of every user -/

/-- `title`, on a post. -/
def titleField : Field := ⟨none, "title", [], none, []⟩

/-- `posts { title }`, on a user. -/
def postsField : Field := ⟨none, "posts", [], none, [titleField]⟩

/-- The selection `{ users { posts { title } } }`. -/
def userPostTitles : List Field := [⟨none, "users", [], none, [postsField]⟩]

theorem collectFields_userPostTitles :
    collectFields .query userPostTitles =
      [⟨"users", ⟨none, "users", [], none, [postsField]⟩, .ok (.rootList .user .user),
        [postsField]⟩] :=
  rfl

theorem collectFields_postsField :
    collectFields .user [postsField] =
      [⟨"posts", postsField, .ok ⟨.relation .userPosts, .list .post, true⟩, [titleField]⟩] :=
  rfl

theorem collectFields_titleField :
    collectFields .post [titleField] = [⟨"title", titleField, .ok .scalar, []⟩] :=
  rfl

/-- The objects the users' list gives: the users of a dataset, at their places in the list. -/
def userNodes (d : Dataset) : List Node := childNodes [.key "users"] (.ok (.list (d.ofKind .user)))

theorem userNodes_eq_nil_iff (d : Dataset) : userNodes d = [] ↔ d.users = [] := by
  rw [← List.length_eq_zero_iff, userNodes, length_childNodes, ← List.length_eq_zero_iff]
  simp [Outcome.records, Dataset.ofKind]

/-- The scan of a user's posts. -/
def postScan (u : User) : StoreCall := .scanByForeignKey .postAuthor (.entity u.id)

/-- The first level scans the users, and gives the group of their objects when there are
any. -/
theorem levelRun_users {d : Dataset} (hu : d.KeysUnique) :
    let l := levelRun [⟨.query, userPostTitles, [⟨none, []⟩]⟩] (Batch.fresh d.store [])
    l.calls = [.scanAll .user] ∧
      l.next = (if userNodes d = [] then [] else [⟨.user, [postsField], userNodes d⟩]) ∧
      l.settled.cache.pending = [] ∧
      ∀ c, (l.settled.cache.memo c).isNone ↔ c ≠ .scanAll .user := by
  intro l
  have hfresh : (Batch.fresh d.store []).cache.pending = [] := rfl
  have htasks : l.tasks = [(.query, .rootList .user .user, ⟨none, "users", [], none, [postsField]⟩,
      none)] := rfl
  -- the users' scan answers with the dataset's users, so the list gives one object per user
  have houtcomes : l.outcomes = [.ok (.list (d.ofKind .user))] :=
    congrArg Prod.fst (level_outcomes hu (faithful_fresh d) l.tasks).1
  refine ⟨?_, ?_, pending_levelRun_settled _ hfresh, fun c ↦ ?_⟩
  · rw [levelRun_calls_of_waits _ hfresh (by rw [htasks]; decide), htasks]
    rfl
  · have hplanned : l.planned =
        [(⟨.query, userPostTitles, [⟨none, []⟩]⟩, collectFields .query userPostTitles)] := rfl
    rw [LevelRun.next, houtcomes, hplanned, collectFields_userPostTitles, layoutGroups_cons,
      layoutFields_cons, layoutField_eq]
    simp only [fieldColumn, fieldTasks, List.length_map, List.length_singleton, List.take_one,
      List.head?_cons, Option.toList_some]
    rw [columnOf_eq _ rfl, userNodes]
    by_cases h : childNodes [.key "users"] (.ok (.list (d.ofKind .user))) = [] <;>
      simp [fieldGroup, Planned.childType, FieldDef.rootList, layoutGroups, h]
  · have hreq : l.tasks.filterMap scanRequest = [.scanAll .user] := by
      rw [htasks]
      rfl
    have hempty : ((Batch.fresh d.store []).cache.memo c).isNone = true := by
      cases c <;> rfl
    rw [isNone_memo_levelRun _ hfresh, hreq, hempty, List.mem_singleton]
    simp only [true_and, ne_eq]

/-- The second level scans the posts of each user by the user's key, one scan per user, and gives
groups of posts whose titles are read. -/
theorem levelRun_posts {d : Dataset} (hu : d.KeysUnique) {b : Batch} (hb : b.cache.pending = [])
    (hmemo : ∀ u ∈ d.users, (b.cache.memo (postScan u)).isNone) :
    let l := levelRun [⟨.user, [postsField], userNodes d⟩] b
    l.calls = d.users.map postScan ∧ l.settled.cache.pending = [] ∧
      ∀ g ∈ l.next, g.object = .post ∧ g.selection = [titleField] := by
  intro l
  have htasks : l.tasks = (userNodes d).map fun n ↦
      (.user, ⟨.relation .userPosts, .list .post, true⟩, postsField, n.record) := by
    show levelTasks [(⟨.user, [postsField], userNodes d⟩, collectFields .user [postsField])] = _
    rw [collectFields_postsField]
    simp [levelTasks]
  -- the object of each user asks for the scan of the user's posts
  have hreqs : l.tasks.filterMap scanRequest = d.users.map postScan := by
    calc l.tasks.filterMap scanRequest
        _ = ((userNodes d).map (·.record)).filterMap fun o ↦
            scanRequest (.user, ⟨.relation .userPosts, .list .post, true⟩, postsField, o) := by
          rw [htasks, List.filterMap_map, List.filterMap_map]
          rfl
        _ = ((d.ofKind .user).map some).filterMap fun o ↦
            scanRequest (.user, ⟨.relation .userPosts, .list .post, true⟩, postsField, o) := by
          rw [userNodes, childNodes_records]
          rfl
        _ = d.users.map postScan := by
          simp [Dataset.ofKind, List.filterMap_map, Function.comp_def, scanRequest, postScan]
  -- users have distinct keys, so their scans are distinct
  have hnodup : (d.users.map postScan).Nodup := by
    have hids : (d.users.map fun u ↦ RecordId.entity u.id).Nodup := by
      simpa [Dataset.ofKind, Function.comp_def, Record.id] using
        Dataset.keysUnique_iff.mp hu .user
    have hinj : Function.Injective (StoreCall.scanByForeignKey .postAuthor) :=
      fun _ _ h ↦ (StoreCall.scanByForeignKey.inj h).2
    have hmapped := List.Nodup.map hinj hids
    rw [List.map_map] at hmapped
    exact hmapped
  refine ⟨?_, pending_levelRun_settled _ hb, fun g' hg' ↦ ?_⟩
  · have hwaits : ∀ task ∈ l.tasks, task.2.1.resolver.waits = false := by
      rw [htasks]
      intro task htask
      obtain ⟨n, -, rfl⟩ := List.mem_map.mp htask
      rfl
    have hfresh : (d.users.map postScan).filter (fun c ↦ (b.cache.memo c).isNone) =
        d.users.map postScan :=
      List.filter_eq_self.mpr fun c hc ↦ by
        obtain ⟨u, hu', rfl⟩ := List.mem_map.mp hc
        exact hmemo u hu'
    rw [levelRun_calls_of_waits _ hb hwaits, Batch.levelScans, hreqs, hfresh,
      eraseDups_of_nodup hnodup]
  · -- the next level holds what the posts' field gives: posts, with the titles to read
    obtain ⟨g, hg, p, hp, hgiven⟩ := mem_levelRun_next hg'
    rw [List.mem_singleton] at hg
    subst hg
    rw [collectFields_postsField, List.mem_singleton] at hp
    subst hp
    have hobject : some ObjectType.post = some g'.object := hgiven.object
    exact ⟨(Option.some.inj hobject).symm, hgiven.selection⟩

/-- The third level reads titles: it sends no call and gives no group. -/
theorem levelRun_titles {groups : List Group}
    (hg : ∀ g ∈ groups, g.object = .post ∧ g.selection = [titleField]) {b : Batch}
    (hb : b.cache.pending = []) :
    (levelRun groups b).calls = [] ∧ (levelRun groups b).next = [] := by
  -- every task reads a post's title, a column of the post
  have hscalar : ∀ task ∈ (levelRun groups b).tasks, task.2.1 = .scalar := by
    intro task htask
    obtain ⟨g, hgm, p, hp, n, -, hdef, -⟩ := exists_of_mem_levelTasks htask
    obtain ⟨hobj, hsel⟩ := hg g hgm
    rw [hobj, hsel, collectFields_titleField, List.mem_singleton] at hp
    subst hp
    have hok : Except.ok FieldDef.scalar = Except.ok task.2.1 := hdef
    exact (Except.ok.inj hok).symm
  refine ⟨?_, List.eq_nil_iff_forall_not_mem.mpr fun g' hg' ↦ ?_⟩
  · have hnone : (levelRun groups b).tasks.filterMap scanRequest = [] :=
      List.filterMap_eq_nil_iff.mpr fun task htask ↦ by
        obtain ⟨t, fd, f, o⟩ := task
        obtain rfl : fd = .scalar := hscalar _ htask
        rfl
    rw [levelRun_calls_of_waits _ hb (fun task htask ↦ by rw [hscalar task htask]; rfl),
      Batch.levelScans, hnone]
    rfl
  · obtain ⟨g, hgm, p, hp, hgiven⟩ := mem_levelRun_next hg'
    obtain ⟨hobj, hsel⟩ := hg g hgm
    rw [hobj, hsel, collectFields_titleField, List.mem_singleton] at hp
    subst hp
    cases hgiven.object

/-- Levels of groups of posts whose titles are read send no call. -/
theorem levelRuns_titles (fuel : Nat) {groups : List Group}
    (hg : ∀ g ∈ groups, g.object = .post ∧ g.selection = [titleField]) {b : Batch}
    (hb : b.cache.pending = []) : (levelRuns fuel groups b).flatMap LevelRun.calls = [] := by
  cases fuel with
  | zero => rfl
  | succ fuel =>
    by_cases hempty : groups = []
    · rw [hempty, levelRuns_nil]
      rfl
    · obtain ⟨hcalls, hnext⟩ := levelRun_titles hg hb
      have hruns : levelRuns (fuel + 1) groups b =
          levelRun groups b :: levelRuns fuel (levelRun groups b).next (levelRun groups b).settled := by
        simp [levelRuns, hempty]
      rw [hruns, List.flatMap_cons, hcalls, hnext, levelRuns_nil]
      rfl

/-- Over the store of any dataset, with no failing call, `{ users { posts { title } } }` scans the
users, then scans the posts of every user by the user's key, one call per user, in the users'
order: `1 + n` calls for `n` users, however shallow the selection. -/
theorem user_post_titles_scan_per_user {d : Dataset} {store : Store}
    (h : Store.ofDataset d = .ok store) :
    (execute store [] userPostTitles).2 = .scanAll .user :: d.users.map postScan ∧
      (execute store [] userPostTitles).2.length = d.users.length + 1 := by
  obtain ⟨rfl, hu⟩ := Store.ofDataset_eq_ok h
  have hcalls : (execute d.store [] userPostTitles).2 = .scanAll .user :: d.users.map postScan := by
    obtain ⟨hrun, -⟩ := run_resolveLevel_calls 4 [⟨.query, userPostTitles, [⟨none, []⟩]⟩]
      (Batch.fresh d.store []) rfl
    obtain ⟨h₁, hnext, hpending, hmemo⟩ := levelRun_users hu
    have hstart : (Batch.fresh d.store []).session.calls = [] := rfl
    rw [execute_calls, show heightOf userPostTitles + 1 = 4 from rfl, hrun, hstart, List.nil_append]
    -- the users' level, then the levels of the groups it gives
    have hruns : levelRuns 4 [⟨.query, userPostTitles, [⟨none, []⟩]⟩] (Batch.fresh d.store []) =
        levelRun [⟨.query, userPostTitles, [⟨none, []⟩]⟩] (Batch.fresh d.store []) ::
          levelRuns 3 (levelRun [⟨.query, userPostTitles, [⟨none, []⟩]⟩] (Batch.fresh d.store [])).next
            (levelRun [⟨.query, userPostTitles, [⟨none, []⟩]⟩] (Batch.fresh d.store [])).settled :=
      rfl
    rw [hruns, List.flatMap_cons, h₁, hnext]
    split
    · next hnil =>
      rw [levelRuns_nil, (userNodes_eq_nil_iff d).mp hnil]
      rfl
    · obtain ⟨h₂, hpending₂, hgroups⟩ := levelRun_posts hu hpending fun u _ ↦
        (hmemo (postScan u)).mpr (by simp [postScan])
      have hruns₂ : ∀ b, levelRuns 3 [⟨.user, [postsField], userNodes d⟩] b =
          levelRun [⟨.user, [postsField], userNodes d⟩] b ::
            levelRuns 2 (levelRun [⟨.user, [postsField], userNodes d⟩] b).next
              (levelRun [⟨.user, [postsField], userNodes d⟩] b).settled :=
        fun _ ↦ rfl
      rw [hruns₂, List.flatMap_cons, h₂, levelRuns_titles 2 hgroups hpending₂]
      simp
  exact ⟨hcalls, by rw [hcalls, List.length_cons, List.length_map]⟩

/-- Two users, one of whom has written a post. -/
def twoUsers : Dataset :=
  ⟨[], [⟨.repeating 1, "Ada", 0⟩, ⟨.repeating 3, "Grace", 0⟩], [],
    [⟨.repeating 2, "Notes", "On the engine.", .repeating 1⟩], []⟩

/-- Over two users, the posts of each are scanned: three calls. -/
theorem twoUsers_posts_scanned_per_user :
    Store.ofDataset twoUsers = .ok twoUsers.store ∧
      (execute twoUsers.store [] userPostTitles).2 =
        [.scanAll .user, .scanByForeignKey .postAuthor (.entity (.repeating 1)),
          .scanByForeignKey .postAuthor (.entity (.repeating 3))] ∧
      (execute twoUsers.store [] userPostTitles).2.length = 3 :=
  ⟨rfl, user_post_titles_scan_per_user (show Store.ofDataset twoUsers = .ok twoUsers.store from rfl)⟩

end SocialGraph
