/-
What a poll whose reads fail does to the members.

# A failed read that looks like an answer

If the list of pods cannot be read, the iteration ends before it has
changed anything. If the StatefulSet cannot be read, `podOwner` says that
the pod is somebody else's: the poll comes back shorter, or empty, and
the iteration goes on with it. The members that were not found are
reported as unready and marked as gone, flags and all
(`unread_sts_erases`).

# When nothing is lost

`failed_read_keeps_iff` says for every poll when the iteration leaves the
members and the lists of the status as they are, whatever the commands
answer: the list failed, or the cluster is paused, or the poll had nothing
to change. The last needs the lists in the status to be the ones this poll
gives, and no pod that runs: the first one to be asked for its status can
fail (`running_changes`).
-/
import RssOperator.Polling
import RssOperator.Proofs.Checked
import RssOperator.Proofs.Conditions

namespace RssOperator

variable {env : Env} {s s' : Sys} {k : String} {m : Member}
  {running : PodList} {pending : List Pod}

-- ======================================================= what is kept

/-- The members and the lists of the status are the same. -/
structure KeepsMembers (s s' : Sys) : Prop where
  peers : ∀ k, s'.members.lookup k = s.members.lookup k
  status : s'.c.status.members = s.c.status.members

/-- The lists of the status are the ones the running pods give, in
whatever order they are collected. -/
def Sys.Listed (running : List String) (s : Sys) : Prop :=
  ∀ o, (s.c.status.listing running o s.members).members
    = s.c.status.members

/-- There is nothing left to be marked as gone. -/
def Sys.AllGone (s : Sys) : Prop :=
  if s.spec.getNumReplicas = 0 then ∀ k, s.members.lookup k = none
  else ∀ k m, s.members.lookup k = some m → m.copy.offline = m

/-- The poll has nothing to change. -/
def Sys.Settled (running : PodList) (pending : List Pod) (s : Sys) : Prop :=
  s.Listed running.names
    ∧ (pending ≠ [] ∨ running.pods = [] ∧ s.AllGone)

-- ====================================================== the status lists

/-- The lists of the status are the same. -/
def SameLists (s s' : Sys) : Prop :=
  s'.c.status.members = s.c.status.members

theorem SameLists.frame (env : Env) : Frame env SameLists where
  refl _ := rfl
  trans h h' := Eq.trans h' h
  start _ _ _ _ := rfl
  stop _ _ _ := rfl
  sequence _ _ _ := rfl
  status _ _ _ := rfl
  update _ _ _ := rfl
  setPeers _ _ := rfl
  ranged _ _ := rfl
  tagged _ _ _ _ := rfl
  deleted _ _ _ _ := rfl
  setCondition t reason message s := by
    obtain ⟨cs, hcs⟩ := Cluster.setClusterCondition_status
      (env.grow s.calls) (newClusterCondition t .isTrue reason message
        (env.now s.calls)) s.c
    show (Cluster.setClusterCondition _ _ s.c).status.members = _
    rw [hcs]
  clearCondition t s := by
    obtain ⟨cs, hcs⟩ := Cluster.clearCondition_status t s.c
    show (Cluster.clearCondition t s.c).status.members = _
    rw [hcs]
  resized _ _ := rfl
  updateCRStatus caller s :=
    congrArg ClusterStatus.members (updateCRStatus_status caller s)

-- =========================================================== one poll

/-- The state a poll is reported in. -/
def Sys.polled (env : Env) (running : PodList) (s : Sys) : Sys :=
  updateMemberStatus env running.names
    (s.mapStatus fun st => { st with controlPaused := false })

theorem polled_members (s : Sys) :
    (s.polled env running).members = s.members :=
  (updateMemberStatus_peers running.names _).1

theorem polled_spec (s : Sys) : (s.polled env running).spec = s.spec :=
  (Steady.updateMemberStatus env running.names _).spec

theorem polled_lists (s : Sys) :
    (s.polled env running).c.status.members
      = (s.c.status.listing running.names (env.order s.orders)
          s.members).members := by
  unfold Sys.polled
  rw [updateMemberStatus_status]
  rfl

theorem tick_pods (fuel : Nat) (hactive : s.spec.paused = false) :
    tick env fuel (.pods running pending) s
      = if pending ≠ [] then .ret [] (s.polled env running)
        else if running.pods = [] then
          noPodsBranch env (s.polled env running)
        else reconcileBranch env fuel running
          (noteRestoreReplicas env running (s.polled env running)) := by
  unfold tick
  rw [hactive, if_neg (by simp)]
  rfl

/-- The lists of the status after an iteration are those of its poll. -/
theorem tick_lists (fuel : Nat) (hactive : s.spec.paused = false) :
    (tick env fuel (.pods running pending) s).state.c.status.members
      = (s.c.status.listing running.names (env.order s.orders)
          s.members).members := by
  rw [tick_pods fuel hactive, ← polled_lists]
  split
  · rfl
  · split
    · exact (SameLists.frame env).noPodsBranch _
    · refine ((SameLists.frame env).reconcileBranch fuel running _).trans ?_
      unfold noteRestoreReplicas
      split
      · rw [updateCRStatus_status]
        rfl
      · rfl

-- ========================================================== no pods run

theorem noPodsBranch_members (hs : s.members.WellKeyed) (k : String) :
    (noPodsBranch env s).state.members.lookup k
      = if s.spec.getNumReplicas = 0 then none
        else (s.members.lookup k).map fun m => m.copy.offline := by
  unfold noPodsBranch
  split
  · rfl
  · obtain ⟨ms, hmerge, hms⟩ := @mergeMembers_some env s hs []
    have hempty : podsToMemberSet s.c.rss [] = ∅ := rfl
    rw [hempty] at hmerge hms
    unfold podsDead
    rw [hmerge]
    show ms.lookup k = _
    rw [hms, MemberSet.merged]
    cases s.members.lookup k with
    | none => rfl
    | some m => rfl

theorem noPodsBranch_keeps_iff (hs : s.members.WellKeyed) :
    (∀ k, (noPodsBranch env s).state.members.lookup k
        = s.members.lookup k) ↔ s.AllGone := by
  unfold Sys.AllGone
  have hentry := @noPodsBranch_members env s hs
  split
  · next hzero =>
    simp only [hzero, if_pos] at hentry
    constructor
    · intro h k
      rw [← h k, hentry k]
    · intro h k
      rw [h k, hentry k]
  · next hsome =>
    simp only [hsome, if_false] at hentry
    constructor
    · intro h k m hm
      have hk := h k
      rw [hentry k, hm] at hk
      exact Option.some.inj hk
    · intro h k
      rw [hentry k]
      cases hm : s.members.lookup k with
      | none => rfl
      | some m => exact congrArg some (h k m hm)

-- ============================================================ a pod runs

/-- An iteration whose first `reconcile` reports something ends there. -/
theorem reconcileBranch_stops {errors : List Err} (fuel : Nat)
    (h : reconcile env running s = .ret errors s')
    (hloud : appendAllNonNil [] errors ≠ []) :
    (reconcileBranch env fuel running s).state = s' := by
  unfold reconcileBranch
  rw [h, Outcome.ret_andThen]
  dsimp only
  rw [if_neg hloud]
  rfl

/-- No command succeeds, and `deletes` says whether deletions do. -/
def Env.hostile (deletes : Bool) : Env :=
  { Env.answering fun _ _ _ => .exits 1 with
    delete := fun _ _ => if deletes then none else some "timeout" }

theorem statusCode_hostile (spec : ClusterSpec) :
    statusCode spec (ExecAnswer.exits 1) = 1 := by
  have hrc : (ExecAnswer.exits 1).rc = 1 := by decide +kernel
  unfold statusCode
  rw [hrc]
  simp

theorem exits_one_fails : (ExecAnswer.exits 1).succeeds = false := by
  decide +kernel

/-- A healthy member that is asked for its status comes out failed, if its
pod cannot be deleted. -/
theorem Member.hostile_healthy (c r : Sys) (hon : m.online = true)
    (hfine : m.appFailed = false) :
    ((m.checkedIn (.hostile false) c).recoveredIn (.hostile false)
      r).appFailed = true := by
  have hchecked : m.checkedIn (.hostile false) c
      = { m with appRunning := true, appFailed := true } := by
    unfold checkedIn
    rw [if_neg (by simp [hfine, hon])]
    show m.noteStatus (statusCode c.spec (.exits 1)) = _
    rw [statusCode_hostile]
    rfl
  rw [hchecked]
  unfold recoveredIn
  simp only [hon, Bool.true_and, Bool.not_true, Bool.false_eq_true,
    if_false, if_true]
  split
  · rfl
  · show Member.appFailed (if (ExecAnswer.exits 1).succeeds then _ else _)
      = true
    rw [exits_one_fails]
    rfl

/-- A failed one comes out with one more failure. -/
theorem Member.hostile_failed (c r : Sys) (hon : m.online = true)
    (hfailed : m.appFailed = true) (hfew : m.failures ≤ 1) :
    (m.checkedIn (.hostile false) c).recoveredIn (.hostile false) r
      = m.noteFailure := by
  have hskip : m.checkedIn (.hostile false) c = m := by
    unfold checkedIn
    simp [hfailed]
  have hnot : ¬ 1 < m.failures := by omega
  rw [hskip]
  unfold recoveredIn
  simp only [hon, hfailed, hnot, decide_false, Bool.and_false,
    Bool.not_true, Bool.false_eq_true, if_false, if_true]
  show (if (ExecAnswer.exits 1).succeeds then _ else _) = _
  rw [exits_one_fails]
  rfl

/-- One over the limit comes out offline, if its pod can be deleted. -/
theorem Member.hostile_over (c r : Sys) (hfailed : m.appFailed = true)
    (hmany : 1 < m.failures) :
    (m.checkedIn (.hostile true) c).recoveredIn (.hostile true) r
      = m.offline := by
  have hskip : m.checkedIn (.hostile true) c = m := by
    unfold checkedIn
    simp [hfailed]
  rw [hskip]
  unfold recoveredIn
  simp only [hfailed, hmany, decide_true, Bool.and_true, if_true]
  rfl

/-- The pass reports something, and the entry under `k` is another one. -/
def Changes (env : Env) (running : PodList) (k : String) (s : Sys) : Prop :=
  ∃ errors s', reconcile env running s = .ret errors s'
    ∧ appendAllNonNil [] errors ≠ []
    ∧ s'.members.lookup k ≠ s.members.lookup k

/-- A pass that ends with the member failed reports something. -/
theorem loud_of_failed {s₀ : Sys} (hs : s.members.WellKeyed)
    (hmerge : MergedFrom running s s₀)
    (hm : (reconcileMerged env s₀).2.members.lookup k = some m)
    (hfailed : m.appFailed = true) :
    appendAllNonNil [] (reconcileMerged env s₀).1 ≠ [] := by
  intro hnone
  have hfine := (cleanPass_of_silent hs hmerge hnone).failed k m hm
  rw [hfailed] at hfine
  cases hfine

/-- A pod whose copy has not failed is asked, and fails. -/
theorem changes_healthy (hs : s.members.WellKeyed)
    (hk : k ∈ running.names)
    (hfine : ∀ m, s.members.lookup k = some m → m.appFailed = false) :
    Changes (.hostile false) running k s := by
  obtain ⟨s₀, hmerge, heq⟩ := reconcile_keyed (.hostile false) running hs
  obtain ⟨m₀, hm₀, hon⟩ := hmerge.on_list hk
  have hentry := @lookup_reconcileMerged (.hostile false) s₀ k
  rw [hm₀, Option.map_some] at hentry
  have hbad := Member.hostile_healthy
    (s₀.checkTurn (.hostile false) k)
    ((checkMembers (.hostile false) s₀).2.recoverTurn (.hostile false) k)
    hon (by
      rw [← Bool.not_eq_true]
      intro hfailed
      obtain ⟨-, m, hm, hmf⟩ := hmerge.failed hm₀ hfailed
      rw [hfine m hm] at hmf
      cases hmf)
  refine ⟨_, _, heq, loud_of_failed hs hmerge hentry hbad, ?_⟩
  intro hsame
  rw [hentry] at hsame
  have hflag := hfine _ hsame.symm
  rw [hbad] at hflag
  cases hflag

/-- A failed copy that cannot be stopped has failed once more. -/
theorem changes_failed (hs : s.members.WellKeyed)
    (hk : k ∈ running.names) (hm : s.members.lookup k = some m)
    (hfailed : m.appFailed = true) (hfew : m.failures ≤ 1) :
    Changes (.hostile false) running k s := by
  obtain ⟨s₀, hmerge, heq⟩ := reconcile_keyed (.hostile false) running hs
  have hentry := @lookup_reconcileMerged (.hostile false) s₀ k
  rw [hmerge.found hk hm, Option.map_some] at hentry
  have hend := @Member.hostile_failed m.found
    (s₀.checkTurn (.hostile false) k)
    ((checkMembers (.hostile false) s₀).2.recoverTurn (.hostile false) k)
    rfl hfailed hfew
  refine ⟨_, _, heq, loud_of_failed hs hmerge hentry ?_, ?_⟩
  · rw [hend]
    rfl
  · intro hsame
    rw [hentry, hm] at hsame
    have hcount := congrArg Member.failures
      (hend.symm.trans (Option.some.inj hsame))
    change (m.failures + 1) % 2 ^ 64 = m.failures at hcount
    omega

/-- A pod over the limit of failures is deleted. -/
theorem changes_over (hs : s.members.WellKeyed)
    (hk : k ∈ running.names) (hm : s.members.lookup k = some m)
    (hfailed : m.appFailed = true) (hmany : 1 < m.failures) :
    Changes (.hostile true) running k s := by
  obtain ⟨s₀, hmerge, heq⟩ := reconcile_keyed (.hostile true) running hs
  have hm₀ := hmerge.found hk hm
  have hentry := @lookup_reconcileMerged (.hostile true) s₀ k
  rw [hm₀, Option.map_some] at hentry
  have hend := @Member.hostile_over m.found (s₀.checkTurn (.hostile true) k)
    ((checkMembers (.hostile true) s₀).2.recoverTurn (.hostile true) k)
    hfailed hmany
  refine ⟨_, _, heq, ?_, ?_⟩
  · intro hnone
    -- the turn of the member reports the deletion
    obtain ⟨-, hrecover⟩ := silent_reconcileMerged hnone
    have hskip : m.found.checkedIn (.hostile true)
        (s₀.checkTurn (.hostile true) k) = m.found := by
      unfold Member.checkedIn
      rw [if_pos]
      show (m.appFailed || _) = true
      rw [hfailed]
      rfl
    have hlimit := silent_recover_limit hrecover (lookup_checkMembers hm₀)
    rw [hskip] at hlimit
    change (m.appFailed && decide (1 < m.failures)) = false at hlimit
    rw [hfailed, decide_eq_true hmany] at hlimit
    cases hlimit
  · intro hsame
    rw [hentry, hm] at hsame
    have hflag := congrArg Member.appFailed
      (hend.symm.trans (Option.some.inj hsame))
    rw [hfailed] at hflag
    cases hflag

/-- The entry under `k` is over the limit of failures. -/
def MemberSet.overLimit (ms : MemberSet) (k : String) : Bool :=
  (ms.lookup k).any fun m => m.appFailed && decide (1 < m.failures)

/-- A pass over a pod that runs can change its entry. -/
theorem running_changes (hs : s.members.WellKeyed)
    (hk : k ∈ running.names) :
    Changes (.hostile (s.members.overLimit k)) running k s := by
  unfold MemberSet.overLimit
  cases hm : s.members.lookup k with
  | none =>
      apply changes_healthy hs hk
      intro m hm'
      rw [hm] at hm'
      cases hm'
  | some m =>
      cases hfailed : m.appFailed with
      | false =>
          rw [Option.any_some, hfailed, Bool.false_and]
          apply changes_healthy hs hk
          intro m' hm'
          rw [hm] at hm'
          cases hm'
          exact hfailed
      | true =>
          rw [Option.any_some, hfailed, Bool.true_and]
          by_cases hmany : 1 < m.failures
          · rw [decide_eq_true hmany]
            exact changes_over hs hk hm hfailed hmany
          · rw [decide_eq_false hmany]
            exact changes_failed hs hk hm hfailed (Nat.not_lt.mp hmany)

-- =================================================== the whole iteration

theorem noteRestoreReplicas_members (s : Sys) :
    (noteRestoreReplicas env running s).members = s.members := by
  unfold noteRestoreReplicas
  split
  · exact congrArg (fun p => Option.getD p ∅)
      (updateCRStatus_peers "mainloop" _).1
  · rfl

theorem reconcileBranch_changes (fuel : Nat) (hs : s.members.WellKeyed)
    (hk : k ∈ running.names) :
    (reconcileBranch (.hostile (s.members.overLimit k)) fuel running
      s).state.members.lookup k ≠ s.members.lookup k := by
  obtain ⟨errors, s', heq, hloud, hdiffer⟩ := running_changes hs hk
  rw [reconcileBranch_stops fuel heq hloud]
  exact hdiffer

/-- A poll that finds a pod running may change the members: the first pod
may fail when it is asked. -/
theorem running_poll_changes {p : Pod} {pods : List Pod}
    (hs : s.members.WellKeyed) (hactive : s.spec.paused = false)
    (hpods : running.pods = p :: pods) :
    ∃ env, (tick env 0 (.pods running []) s).state.members.lookup p.name
      ≠ s.members.lookup p.name := by
  have hk : p.name ∈ running.names := by
    unfold PodList.names
    rw [hpods]
    exact List.mem_cons_self
  have hstate : (noteRestoreReplicas
      (.hostile (s.members.overLimit p.name)) running
      (s.polled (.hostile (s.members.overLimit p.name)) running)).members
        = s.members := by
    rw [noteRestoreReplicas_members, polled_members]
  refine ⟨.hostile (s.members.overLimit p.name), ?_⟩
  rw [tick_pods 0 hactive, if_neg (by simp), if_neg (by simp [hpods])]
  generalize noteRestoreReplicas _ running _ = s₀ at hstate ⊢
  rw [← hstate]
  apply reconcileBranch_changes
  · rw [hstate]
    exact hs
  · exact hk

/-- A poll of a cluster that is not paused keeps the members, whatever the
commands answer, exactly if it had nothing to change. -/
theorem tick_keeps_iff (hs : s.members.WellKeyed)
    (hactive : s.spec.paused = false) :
    (∀ env fuel, KeepsMembers s
        (tick env fuel (.pods running pending) s).state)
      ↔ s.Settled running pending := by
  -- the states on the way have the members of the first
  have hpolled : ∀ env, (s.polled env running).members.WellKeyed := by
    intro env
    rw [polled_members]
    exact hs
  have hgone : ∀ env, (s.polled env running).AllGone ↔ s.AllGone := by
    intro env
    unfold Sys.AllGone
    rw [polled_members, polled_spec]
  constructor
  · intro h
    constructor
    · intro o
      have hlists := (h { Env.deciding fun _ => true with
        order := fun _ => o } 0).status
      rw [tick_lists 0 hactive] at hlists
      exact hlists
    · by_cases hpending : pending = []
      · subst hpending
        right
        cases hpods : running.pods with
        | nil =>
            refine ⟨rfl, (hgone (.hostile false)).mp ?_⟩
            apply (noPodsBranch_keeps_iff (hpolled _)).mp
            intro k
            have hk := (h (.hostile false) 0).peers k
            rw [tick_pods 0 hactive, if_neg (by simp), if_pos hpods] at hk
            rw [hk, polled_members]
        | cons p pods =>
            obtain ⟨env, hchanges⟩ := running_poll_changes hs hactive hpods
            exact absurd ((h env 0).peers p.name) hchanges
      · exact Or.inl hpending
  · intro h env fuel
    refine ⟨?_, (tick_lists fuel hactive).trans (h.1 _)⟩
    intro k
    rw [tick_pods fuel hactive]
    split
    · rw [Outcome.state_ret, polled_members]
    · next hpending =>
      obtain ⟨hnone, hall⟩ := h.2.resolve_left hpending
      rw [if_pos hnone]
      rw [(noPodsBranch_keeps_iff (hpolled env)).mpr ((hgone env).mpr hall),
        polled_members]

/-- A poll keeps the members, whatever the commands answer, exactly if no
read failed, the cluster is paused, the list could not be read, or there
was nothing to change. -/
theorem failed_read_keeps_iff (uid : String) (reads : Reads) (s : Sys)
    (hs : s.members.WellKeyed) :
    (reads.fails uid → ∀ env fuel, KeepsMembers s
        (tick env fuel (reads.poll uid) s).state)
      ↔ (reads.fails uid → s.spec.paused = true
          ∨ (∃ err, reads.list = .error err)
          ∨ ∃ l, reads.list = .ok l
            ∧ s.Settled (l.running uid reads.sts)
                (l.pending uid reads.sts)) := by
  refine imp_congr_right fun _ => ?_
  cases hpaused : s.spec.paused with
  | true =>
      refine iff_of_true ?_ (Or.inl rfl)
      intro env fuel
      unfold tick
      rw [if_pos hpaused]
      exact ⟨fun _ => rfl, rfl⟩
  | false =>
      unfold Reads.poll
      cases reads.list with
      | error err =>
          refine iff_of_true ?_ (Or.inr (Or.inl ⟨err, rfl⟩))
          intro env fuel
          unfold tick
          rw [if_neg (by simp [hpaused])]
          exact ⟨fun _ => rfl, rfl⟩
      | ok l =>
          rw [tick_keeps_iff hs hpaused]
          constructor
          · intro h
            exact Or.inr (Or.inr ⟨l, rfl, h⟩)
          · intro h
            obtain ⟨l', hl', h⟩ :=
              (h.resolve_left (by simp)).resolve_left (by simp)
            cases hl'
            exact h

/-- Three running pods of the StatefulSet, whose lookup is answered by
`sts`. -/
def Reads.three (sts : Except String String) : Reads where
  list := .ok
    { items := PodList.three.pods.map fun p => ⟨p, ["sts"], .running⟩
      nodup := by decide }
  sts := fun _ => sts

/-- A list that cannot be read, after a poll that found three pods. -/
theorem failed_read_keeps_iff_unlisted :
    let s := (tick (.deciding fun _ => true) 9
      ((Reads.three (.ok "sts")).poll "db") (Sys.start (.sized 3 1))).state
    let reads : Reads := ⟨.error "timeout", fun _ => .ok "sts"⟩
    reads.fails "db"
      ∧ ∀ env fuel,
          KeepsMembers s (tick env fuel (reads.poll "db") s).state := by
  intro s reads
  have hs : s.members.WellKeyed :=
    ((tick_moves 9 _ _).sound (Sys.sound_of_nil rfl)).keyed
  refine ⟨trivial, ?_⟩
  exact (failed_read_keeps_iff "db" reads s hs).mpr
    (fun _ => Or.inr (Or.inl ⟨"timeout", rfl⟩)) trivial

/-- Three members run. Then their pods are listed and the StatefulSet
cannot be read: they are unready, offline and stopped, and nobody asked
them. -/
theorem unread_sts_erases :
    let poll := fun sts s => (tick (.deciding fun _ => true) 9
      ((Reads.three sts).poll "db") s).state
    let s := poll (.ok "sts") (poll (.ok "sts") (Sys.start (.sized 3 1)))
    let s' := poll (.error "timeout") s
    (Reads.three (.error "timeout")).fails "db"
      ∧ (∀ k ∈ PodList.three.names, (s.members.lookup k).map
          (fun m => (m.online, m.appRunning)) = some (true, true))
      ∧ s.c.status.members.unready = []
      ∧ (∀ k ∈ PodList.three.names, (s'.members.lookup k).map
          (fun m => (m.online, m.appRunning)) = some (false, false))
      ∧ s'.c.status.members.unready = PodList.three.names
      ∧ s'.execs = s.execs ∧ ¬ KeepsMembers s s' := by
  intro poll s s'
  have hbefore : s.c.status.members.unready = [] := by decide +kernel
  have hafter : s'.c.status.members.unready = PodList.three.names := by
    decide +kernel
  refine ⟨⟨0, by decide +kernel, "timeout", rfl⟩, by decide +kernel,
    hbefore, by decide +kernel, hafter, by decide +kernel, ?_⟩
  intro h
  have hlists := congrArg MembersStatus.unready h.status
  rw [hbefore, hafter] at hlists
  cases hlists

end RssOperator
