/-
The two counts of `status.Replicas`.

# Who writes it

At the beginning of an iteration `updateMemberStatus` writes the number of
pods that run. At the end of every `reconcile` the number of members is
written over it, and a member whose pod is gone stays a member. So the two
agree as long as nobody is missing.

# In an iteration

A merge adds the pods that run to the members and takes nobody out
(`reconcile_counts`), and no command adds or removes a member. The members
after a `reconcile` are therefore those from before the iteration and the
pods, and there are as many of them as pods exactly if the former are
among the latter (`counts_agree_iff`), also if the iteration reconciles a
second time.
-/
import RssOperator.Proofs.Deletion
import RssOperator.Proofs.Iteration
import RssOperator.Proofs.Membership
import RssOperator.Proofs.Reads
import RssOperator.Proofs.Worlds

namespace RssOperator

variable {env : Env} {kube : Kube} {s s' : Sys} {running : PodList}
  {k : String} {errors : List Err} {fuel : Nat}

-- ======================================================== one reconcile

theorem mem_keys_podsToMemberSet {rss : ReplicatedStatefulSet}
    {pods : List Pod} :
    k ∈ (podsToMemberSet rss pods).keys ↔ k ∈ pods.map Pod.name := by
  rw [GoMap.mem_keys_iff]
  constructor
  · intro hex
    obtain ⟨m, hm⟩ := hex
    obtain ⟨pod, hpod, hname, -⟩ := podsToMemberSet_some hm
    exact List.mem_map.mpr ⟨pod, hpod, hname⟩
  · exact podsToMemberSet_isSome

/-- A `reconcile` returns. The members after it are those from before it
and the pods, and their number is what it writes. -/
theorem reconcile_counts (hs : s.members.Sound) (running : PodList) :
    ∃ errors s', reconcile env running s = .ret errors s'
      ∧ (∀ k, k ∈ s'.members.keys
        ↔ k ∈ s.members.keys ∨ k ∈ running.names)
      ∧ s'.c.status.replicas = s'.members.size := by
  obtain ⟨ms, hmerge, hms⟩ := @mergeMembers_some env s hs.keyed running.pods
  have hrun := podsToMemberSet_running s.c.rss running.pods
  have hnames : ∀ k, k ∈ ms.keys
      ↔ k ∈ s.members.keys ∨ k ∈ running.names := by
    intro k
    rw [(MemberSet.reconcile_keyed hs.keyed hrun.keyed fun k =>
      (hms k).trans (MemberSet.mergedWith_of_running hrun k).symm).2,
      mem_keys_podsToMemberSet]
    rfl
  have hkeys := (@reconcileMerged_acts env ((s.setPeers ms).ranged 3)).keys
  refine ⟨_, _, by rw [reconcile_eq, hmerge], ?_, ?_⟩
  · intro k
    rw [hkeys]
    exact hnames k
  · show (reportReconciled env _ _).c.status.replicas
      = (reportReconciled env _ _).members.size
    rw [(Quiet.reportReconciled _ _).members]
    unfold reportReconciled
    dsimp only
    rw [updateCRStatus_status]
    show ((reportCondition env _ _).members.size : Int) = _
    rw [(Quiet.reportCondition _ _).members]

-- ======================================================= one iteration

/-- The iteration that starts to reconcile in `s` has a call of
`reconcile`, the first one or a second one, that returns in `s'`. -/
def ReconciledTo (env : Env) (fuel : Nat) (running : PodList)
    (s s' : Sys) : Prop :=
  ∃ s₁ errors, (s₁ = s ∨ ReconciledAgain env fuel running s s₁)
    ∧ reconcile env running s₁ = .ret errors s'

/-- In an iteration that polls these pods in `s`, the replicas in the
status after each `reconcile` are those the poll was reported with. -/
def CountsAgree (env : Env) (fuel : Nat) (running : PodList) (s : Sys) :
    Prop :=
  ∀ s', ReconciledTo env fuel running
      (noteRestoreReplicas env running (s.polled env running)) s' →
    s'.c.status.replicas = (s.polled env running).c.status.replicas

/-- Every member has a pod that runs. -/
def NobodyMissing (running : PodList) (s : Sys) : Prop :=
  ∀ k m, s.members.lookup k = some m → k ∈ running.names

/-- The poll is reported with the number of its pods. -/
theorem polled_replicas (s : Sys) :
    (s.polled env running).c.status.replicas = running.pods.length := by
  unfold Sys.polled
  rw [updateMemberStatus_status]
  show ((running.names.length : Nat) : Int) = _
  rw [PodList.names, List.length_map]

theorem reconciled_names (hs : s.members.Sound)
    (h : ReconciledTo env fuel running s s') :
    (∀ k, k ∈ s'.members.keys ↔ k ∈ s.members.keys ∨ k ∈ running.names)
      ∧ s'.c.status.replicas = s'.members.size := by
  obtain ⟨s₂, errors, hfrom, hret⟩ := h
  rcases hfrom with hfirst | hagain
  · subst hfirst
    obtain ⟨_, _, hret', hcounts⟩ := @reconcile_counts env s₂ hs running
    rw [hret] at hret'
    cases hret'
    exact hcounts
  · -- the first `reconcile` has added the pods already
    obtain ⟨_, s₁, replicated, hfirst, -, hrep, -⟩ := hagain
    obtain ⟨_, _, hfirst', hnames₁, -⟩ := @reconcile_counts env s hs running
    rw [hfirst] at hfirst'
    cases hfirst'
    have hacts := @replicate_acts env fuel s₁
    rw [hrep] at hacts
    have hsound : s₂.members.Sound :=
      ((reconcile_pass hs hfirst).trans_acts hacts).sound
    obtain ⟨_, _, hret', hnames, hsize⟩ :=
      @reconcile_counts env s₂ hsound running
    rw [hret] at hret'
    cases hret'
    refine ⟨fun k => ?_, hsize⟩
    have hkeys : s₂.members.keys = s₁.members.keys := hacts.keys
    rw [hnames, hkeys, hnames₁, or_assoc, or_self]

/-- As many members as pods, once the pods are members. -/
theorem size_eq_iff {ms : MemberSet} {names : List String}
    (hnames : ∀ k, k ∈ ms.keys ↔ k ∈ names ∨ k ∈ running.names) :
    ms.size = running.pods.length ↔ ∀ k ∈ names, k ∈ running.names := by
  have hsub : running.names.Subperm ms.keys :=
    List.subperm_of_subset running.nodup fun k hk =>
      (hnames k).mpr (Or.inr hk)
  have hlength : running.names.length = running.pods.length :=
    List.length_map _
  rw [GoMap.size_eq_keys, ← hlength]
  constructor
  · intro heq k hk
    have hperm := hsub.perm_of_length_le heq.le
    exact hperm.mem_iff.mpr ((hnames k).mpr (Or.inl hk))
  · intro hall
    have hback : ms.keys.Subperm running.names := by
      refine List.subperm_of_subset ms.nodupKeys fun k hk => ?_
      rcases (hnames k).mp hk with hk | hk
      · exact hall k hk
      · exact hk
    exact (hback.antisymm hsub).length_eq

/-- The two counts of an iteration agree exactly if nobody is missing. -/
theorem countsAgree_iff (hs : s.members.Sound) (fuel : Nat) :
    CountsAgree env fuel running s ↔ NobodyMissing running s := by
  have hsame : (noteRestoreReplicas env running
      (s.polled env running)).members = s.members := by
    rw [noteRestoreReplicas_members, polled_members]
  have hsound : (noteRestoreReplicas env running
      (s.polled env running)).members.Sound := by
    rw [hsame]
    exact hs
  have hiff : ∀ s', ReconciledTo env fuel running
      (noteRestoreReplicas env running (s.polled env running)) s' →
      (s'.c.status.replicas = (s.polled env running).c.status.replicas
        ↔ NobodyMissing running s) := by
    intro s' h
    obtain ⟨hnames, hsize⟩ := reconciled_names hsound h
    rw [hsame] at hnames
    rw [hsize, polled_replicas, Int.natCast_inj, size_eq_iff hnames]
    unfold NobodyMissing
    simp only [GoMap.mem_keys_iff, forall_exists_index]
  constructor
  · intro h
    obtain ⟨errors, s', hret, -⟩ := @reconcile_counts env _ hsound running
    have hto : ReconciledTo env fuel running _ s' :=
      ⟨_, errors, Or.inl rfl, hret⟩
    exact (hiff s' hto).mp (h s' hto)
  · intro h s' hto
    exact (hiff s' hto).mpr h

-- ================================================================ runs

/-- A step of the loop that polls these pods and reconciles them, and
deletes no pod. -/
structure World.Reconciles (env : Env) (kube : Kube) (w : World)
    (i : WorldStep) (fuel : Nat) (running : PodList) : Prop where
  timer : i = .timer fuel (.pods running [])
  alive : w.alive = true
  active : w.sys.spec.paused = false
  pods : running.pods ≠ []
  spared : ∀ k, ¬ Deleted k (w.sys.since (i.step env kube w).sys)

/-- In every run, in every iteration that reconciles the pods it has polled
and deletes none, the two counts of the replicas agree, exactly if in each
of them every member known at its beginning has a pod that runs. -/
theorem counts_agree_iff (env : Env) (kube : Kube)
    (rss : ReplicatedStatefulSet) (steps : List WorldStep) :
    EveryStep env kube (fun w i => ∀ fuel running,
        w.Reconciles env kube i fuel running →
          CountsAgree env fuel running w.sys) (World.fresh rss) steps
      ↔ EveryStep env kube (fun w i => ∀ fuel running,
        w.Reconciles env kube i fuel running →
          NobodyMissing running w.sys) (World.fresh rss) steps := by
  refine EveryStep.congr (I := fun w => w.sys.members.Sound)
    (fun _ i hw => WorldStep.step_sound hw i) ?_ steps _
    MemberSet.sound_empty
  intro w i hw
  refine forall_congr' fun fuel => forall_congr' fun running =>
    forall_congr' fun _ => ?_
  exact countsAgree_iff hw fuel

/-- Where no deletion is tried, nobody is deleted. -/
theorem not_deleted_of_all {es : List Event}
    (h : es.all (fun e => !e.isDelete) = true) (k : String) :
    ¬ Deleted k es := by
  intro hdel
  obtain ⟨peers, hmem⟩ := hdel
  have hnot := List.all_eq_true.mp h _ hmem
  cases hnot

/-- Three of four pods are left, and nothing is deleted. The poll is
reported with three replicas, and the `reconcile` that follows makes them
four. -/
theorem counts_differ :
    let env := Env.deciding fun _ => true
    let w := (World.fresh (.sized 4 1)).run env .obliging
      [.restart (.sized 4 1), .timer 9 (.pods .four [])]
    let s := w.sys.polled env .three
    let o := reconcile env .three (noteRestoreReplicas env .three s)
    w.Reconciles env .obliging (.timer 9 (.pods .three [])) 9 .three
      ∧ s.c.status.replicas = 3 ∧ o.returned = true
      ∧ o.state.c.status.replicas = 4 := by
  intro env w s o
  refine ⟨⟨rfl, ?_, ?_, ?_, ?_⟩, ?_, ?_, ?_⟩
  case refine_4 => exact not_deleted_of_all (by decide +kernel)
  all_goals decide +kernel

end RssOperator
