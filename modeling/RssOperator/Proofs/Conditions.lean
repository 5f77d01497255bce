/-
The conditions of the status along a history of passes.

# What a pass does to them

A pass ends by setting one condition: `Scaling` if the number of members
online is not the one asked for, `Recovering` if it is and there were
errors, `Available` if there were none. Setting `Recovering` clears
`Available`; nothing else is ever cleared. So `Scaling` and `Recovering`
stay from the first pass that sets them, and what a status shows is a
fact about the whole history (`ReconcilePass.shows_scaling_iff`,
`shows_recovering_iff`).

# What the conditions then say

They describe the last pass exactly if the history never takes back what
it has set: once a pass has ended with the wrong number of members online
every later one does, and after a pass that set `Recovering` every later
one has errors (`conditions_describe_iff`).

# The conditions belong to `reconcile`

Between two passes the loop replicates, reports members and handles
events. None of that touches the conditions, so a history only has to
link each pass to the one before it.
-/
import RssOperator.Proofs.Listing
import RssOperator.Proofs.Refinement
import RssOperator.Proofs.Scaling

namespace RssOperator

variable {env : Env} {s s' : Sys}

-- ==================================================== types of conditions

/-- The types of the conditions of a status, in their order. -/
def ClusterStatus.types (st : ClusterStatus) : List ClusterConditionType :=
  st.conditions.map ClusterCondition.type

/-- The status has a condition of the type. -/
def ClusterStatus.shows (st : ClusterStatus) (t : ClusterConditionType) :
    Prop :=
  t ∈ st.types

instance (st : ClusterStatus) (t : ClusterConditionType) :
    Decidable (st.shows t) := inferInstanceAs (Decidable (t ∈ st.types))

theorem getClusterCondition_eq_none {cs : List ClusterCondition}
    {t : ClusterConditionType} :
    getClusterCondition cs t = none ↔ t ∉ cs.map ClusterCondition.type := by
  unfold getClusterCondition
  rw [List.findIdx?_eq_none_iff]
  simp only [decide_eq_false_iff_not, List.mem_map, not_exists, not_and]
  constructor
  · intro h c hc hct
    exact h c hc hct.symm
  · intro h c hc hct
    exact h c hc hct.symm

/-- The position that is found holds a condition of the type, and it is
the first one that does. -/
theorem getClusterCondition_eq_some {cs : List ClusterCondition}
    {t : ClusterConditionType} {pos : Nat}
    (h : getClusterCondition cs t = some pos) :
    (∃ c, cs[pos]? = some c ∧ c.type = t)
      ∧ (cs.map ClusterCondition.type).idxOf t = pos := by
  unfold getClusterCondition at h
  induction cs generalizing pos with
  | nil => cases h
  | cons c cs ih =>
      rw [List.findIdx?_cons] at h
      split at h
      · next ht =>
        cases h
        have ht' : c.type = t := (of_decide_eq_true ht).symm
        exact ⟨⟨c, rfl, ht'⟩, by simp [ht']⟩
      · next ht =>
        obtain ⟨pos', hpos, heq⟩ := Option.map_eq_some_iff.mp h
        obtain ⟨hc, hidx⟩ := ih hpos
        subst heq
        have ht' : c.type ≠ t := fun heq => ht (decide_eq_true heq.symm)
        refine ⟨hc, ?_⟩
        rw [List.map_cons, List.idxOf_cons_ne _ ht', hidx]

/-- Setting a condition adds its type if it is not there. -/
theorem Cluster.setClusterCondition_types (moved : Bool)
    (new : ClusterCondition) (c : Cluster) :
    (c.setClusterCondition moved new).status.types
      = if new.type ∈ c.status.types then c.status.types
        else c.status.types ++ [new.type] := by
  unfold setClusterCondition
  dsimp only
  split
  · next hnone =>
    have hmem : new.type ∉ c.status.types :=
      getClusterCondition_eq_none.mp hnone
    rw [if_neg hmem]
    split
    · show (c.status.conditions ++ [new]).map _ = _
      rw [List.map_append]
      rfl
    · show (c.status.conditions ++ [new]).map _ = _
      rw [List.map_append]
      rfl
  · next pos hpos =>
    obtain ⟨⟨cp, hcp, htype⟩, -⟩ := getClusterCondition_eq_some hpos
    have hmem : new.type ∈ c.status.types :=
      List.mem_map.mpr ⟨cp, List.mem_of_getElem? hcp, htype⟩
    rw [if_pos hmem, hcp]
    dsimp only
    split
    · rfl
    · show (c.status.conditions.set pos new).map _ = _
      obtain ⟨hlt, hget⟩ := List.getElem?_eq_some_iff.mp hcp
      rw [List.map_set, ← htype, ← hget]
      have hself := @List.set_getElem_self _ c.status.types pos
        (by rw [ClusterStatus.types, List.length_map]; exact hlt)
      simpa [ClusterStatus.types] using hself

/-- Clearing a condition removes the first of its type. -/
theorem Cluster.clearCondition_types (t : ClusterConditionType)
    (c : Cluster) :
    (c.clearCondition t).status.types = c.status.types.erase t := by
  unfold clearCondition
  dsimp only
  split
  · next hnone =>
    exact (List.erase_of_not_mem (getClusterCondition_eq_none.mp hnone)).symm
  · next pos hpos =>
    obtain ⟨-, hidx⟩ := getClusterCondition_eq_some hpos
    show (c.status.conditions.eraseIdx pos).map _ = _
    rw [← hidx, List.erase_eq_eraseIdx_of_idxOf rfl]
    exact (List.eraseIdx_map _ _ _).symm

-- ========================================================== one pass

/-- No condition is there twice. -/
def ClusterStatus.Distinct (st : ClusterStatus) : Prop := st.types.Nodup

theorem Cluster.setClusterCondition_distinct {moved : Bool}
    {new : ClusterCondition} {c : Cluster} (hd : c.status.Distinct) :
    (c.setClusterCondition moved new).status.Distinct := by
  unfold ClusterStatus.Distinct
  rw [setClusterCondition_types]
  split
  · exact hd
  · next hmem =>
    rw [List.nodup_append]
    refine ⟨hd, List.nodup_singleton _, ?_⟩
    intro a ha b hb hab
    rw [List.mem_singleton] at hb
    subst hab hb
    exact hmem ha

/-- What setting a condition leaves. -/
theorem setCondition_shows (t : ClusterConditionType)
    (reason message : String) (s : Sys) (hd : s.c.status.Distinct) :
    (s.setCondition env t reason message).c.status.Distinct
      ∧ ∀ t', (s.setCondition env t reason message).c.status.shows t'
        ↔ t' = t ∨ s.c.status.shows t' := by
  have htypes : (s.setCondition env t reason message).c.status.types
      = if t ∈ s.c.status.types then s.c.status.types
        else s.c.status.types ++ [t] :=
    Cluster.setClusterCondition_types _ _ s.c
  refine ⟨Cluster.setClusterCondition_distinct hd, fun t' => ?_⟩
  unfold ClusterStatus.shows
  rw [htypes]
  split
  · next hmem =>
    constructor
    · exact Or.inr
    · intro h
      rcases h with rfl | h
      · exact hmem
      · exact h
  · rw [List.mem_append, List.mem_singleton]
    exact or_comm

theorem clearCondition_shows (t : ClusterConditionType) (s : Sys)
    (hd : s.c.status.Distinct) :
    (s.mapCluster (Cluster.clearCondition t)).c.status.Distinct
      ∧ ∀ t', (s.mapCluster (Cluster.clearCondition t)).c.status.shows t'
        ↔ t' ≠ t ∧ s.c.status.shows t' := by
  have htypes : (s.mapCluster (Cluster.clearCondition t)).c.status.types
      = s.c.status.types.erase t := Cluster.clearCondition_types t s.c
  unfold ClusterStatus.Distinct ClusterStatus.shows
  rw [htypes]
  exact ⟨hd.erase t, fun t' => hd.mem_erase_iff⟩

/-- The number of members online is not the one asked for. -/
def Sys.OffSize (s : Sys) : Prop :=
  s.members.activeMembers ≠ s.spec.getNumReplicas

instance (s : Sys) : Decidable s.OffSize :=
  inferInstanceAs (Decidable (_ ≠ _))

/-- What a pass, or its report, with these errors leaves of the
conditions. -/
structure Reports (errors : List Err) (s s' : Sys) : Prop where
  distinct : s'.c.status.Distinct
  offSize : s'.OffSize → ∀ t,
    s'.c.status.shows t ↔ t = .scaling ∨ s.c.status.shows t
  recovering : ¬ s'.OffSize → errors ≠ [] → ∀ t, s'.c.status.shows t
    ↔ t ≠ .available ∧ (t = .recovering ∨ s.c.status.shows t)
  ready : ¬ s'.OffSize → errors = [] → ∀ t,
    s'.c.status.shows t ↔ t = .available ∨ s.c.status.shows t

/-- The conditions decide, and the number of members online does not
change with the report. -/
theorem Reports.of_types {errors : List Err} {s₁ s₁' : Sys}
    (h : Reports errors s₁ s₁') (hbefore : s.c.status.types = s₁.c.status.types)
    (hafter : s'.c.status.types = s₁'.c.status.types)
    (hoff : s'.OffSize ↔ s₁'.OffSize) : Reports errors s s' := by
  have hshows : ∀ t, (s.c.status.shows t ↔ s₁.c.status.shows t)
      ∧ (s'.c.status.shows t ↔ s₁'.c.status.shows t) := by
    intro t
    unfold ClusterStatus.shows
    rw [hbefore, hafter]
    exact ⟨Iff.rfl, Iff.rfl⟩
  refine ⟨?_, ?_, ?_, ?_⟩
  · unfold ClusterStatus.Distinct
    rw [hafter]
    exact h.distinct
  · intro hsize t
    rw [(hshows t).1, (hshows t).2]
    exact h.offSize (hoff.mp hsize) t
  · intro hsize hne t
    rw [(hshows t).1, (hshows t).2]
    exact h.recovering (fun h' => hsize (hoff.mpr h')) hne t
  · intro hsize hnil t
    rw [(hshows t).1, (hshows t).2]
    exact h.ready (fun h' => hsize (hoff.mpr h')) hnil t

theorem Quiet.offSize (h : Quiet s s') : s'.OffSize ↔ s.OffSize := by
  unfold Sys.OffSize
  rw [h.members, h.spec]

theorem reportCondition_reports (errors : List Err)
    (hd : s.c.status.Distinct) :
    Reports errors s (reportCondition env errors s) := by
  have hsame := (@Quiet.reportCondition env errors s).offSize
  have hactive : s.OffSize ↔ s.spec.getNumReplicas < s.members.activeMembers
      ∨ s.members.activeMembers < s.spec.getNumReplicas := by
    unfold Sys.OffSize
    omega
  rw [hactive] at hsame
  unfold reportCondition at hsame ⊢
  dsimp only at hsame ⊢
  split at hsame
  · next hdown =>
    have hoff := hsame.mpr (Or.inl hdown)
    rw [if_pos hdown]
    obtain ⟨hdist, hshows⟩ := @setCondition_shows env .scaling
      "Scaling down" (scalingMsg s.members.activeMembers
        s.spec.getNumReplicas) s hd
    exact ⟨hdist, fun _ => hshows, fun h => absurd hoff h,
      fun h => absurd hoff h⟩
  · next hdown =>
    rw [if_neg hdown]
    split at hsame
    · next hup =>
      have hoff := hsame.mpr (Or.inr hup)
      rw [if_pos hup]
      obtain ⟨hdist, hshows⟩ := @setCondition_shows env .scaling
        "Scaling up" (scalingMsg s.members.activeMembers
          s.spec.getNumReplicas) s hd
      exact ⟨hdist, fun _ => hshows, fun h => absurd hoff h,
        fun h => absurd hoff h⟩
    · next hup =>
      rw [if_neg hup]
      have hon := mt hsame.mp (not_or.mpr ⟨hdown, hup⟩)
      split at hon
      · next herr =>
        have hne : errors ≠ [] := List.ne_nil_of_length_pos herr
        rw [if_pos herr]
        obtain ⟨hset, hshows⟩ := @setCondition_shows env .recovering
          "Disaster recovery" "Majority is down. Recovering from backup" s hd
        obtain ⟨hdist, hcleared⟩ := clearCondition_shows .available _ hset
        refine ⟨hdist, fun h => absurd h hon, ?_, fun _ h => absurd h hne⟩
        intro _ _ t
        rw [← hshows t]
        exact hcleared t
      · next herr =>
        have hnil : errors = [] :=
          List.eq_nil_of_length_eq_zero (by omega)
        rw [if_neg herr]
        obtain ⟨hdist, hshows⟩ := @setCondition_shows env .available
          "Cluster available" "" s hd
        exact ⟨hdist, fun h => absurd h hon, fun _ h => absurd hnil h,
          fun _ _ => hshows⟩

-- ============================================================= frames

/-- The status is the same. -/
def SameStatus (s s' : Sys) : Prop := s'.c.status = s.c.status

/-- No write of a replication touches the status in memory. -/
theorem SameStatus.frame (env : Env) : ReplicateFrame env SameStatus where
  refl _ := rfl
  trans h h' := Eq.trans h' h
  start _ _ _ _ := rfl
  stop _ _ _ := rfl
  sequence _ _ _ := rfl
  update _ _ _ := rfl
  ranged _ _ := rfl
  tagged _ _ _ _ := rfl
  deleted _ _ _ _ := rfl
  updateCRStatus caller s := updateCRStatus_status caller s

theorem checkMember_status (acc : List Err × Sys) (k : String) :
    SameStatus acc.2 (checkMember env acc k).2 := by
  obtain ⟨errors, s⟩ := acc
  unfold checkMember
  dsimp only
  split
  · rfl
  · split
    · rfl
    · rw [execute_state]
      split <;> rfl

/-- Up to its report, a pass leaves the status as it was. -/
theorem reconcile_reports {pods : PodList} {errors : List Err}
    (h : reconcile env pods s = .ret errors s')
    (hd : s.c.status.Distinct) : Reports errors s s' := by
  rw [reconcile_eq] at h
  split at h
  · cases h
  · next s₀ hmerge =>
    injection h with herrors hs'
    unfold reconcileMerged at herrors hs'
    dsimp only at herrors hs'
    rw [herrors] at hs'
    have hmerged : s₀.c.status = s.c.status := by
      obtain ⟨ms, -, heq⟩ := Option.map_eq_some_iff.mp hmerge
      rw [← heq]
      rfl
    have hchecked : SameStatus s₀ (checkMembers env s₀).2 :=
      (SameStatus.frame env).foldl Prod.snd checkMember_status
        (s₀.members.range (s₀.order env)) ([], s₀.ranged 1)
    have hrecovered := (SameStatus.frame env).recover
      (checkMembers env s₀).2
    have hstatus : (recover env (checkMembers env s₀).2).2.c.status
        = s.c.status := (hrecovered.trans hchecked).trans hmerged
    -- what follows the condition leaves the conditions alone
    have hend : s'.c.status.types = (reportCondition env errors
        (recover env (checkMembers env s₀).2).2).c.status.types := by
      rw [← hs']
      unfold reportReconciled
      dsimp only
      rw [updateCRStatus_status]
      rfl
    have hoff : s'.OffSize ↔ (reportCondition env errors
        (recover env (checkMembers env s₀).2).2).OffSize := by
      rw [← hs', (Quiet.reportReconciled _ _).offSize,
        (Quiet.reportCondition _ _).offSize]
    refine (reportCondition_reports errors ?_).of_types ?_ hend hoff
    · rw [hstatus]
      exact hd
    · rw [hstatus]

-- ================================================= between two passes

theorem refuseReplicas_conditions (rss : ReplicatedStatefulSet) (s : Sys) :
    (refuseReplicas env rss s).c.status.conditions
      = s.c.status.conditions := by
  unfold refuseReplicas
  rw [updateCRStatus_status]
  rfl

theorem acceptReplicas_conditions (s : Sys) :
    (acceptReplicas env s).c.status.conditions = s.c.status.conditions := by
  unfold acceptReplicas
  split
  · rw [updateCRStatus_status]
    rfl
  · rfl

theorem handleUpdateEvent_conditions (kube : Kube)
    (rss : ReplicatedStatefulSet) (w : World) :
    (handleUpdateEvent env kube rss w).2.sys.c.status.conditions
      = w.sys.c.status.conditions := by
  have hpatch : ∀ answer name old new (w : World),
      (patchSts answer name old new w).2.sys = w.sys := by
    intro answer name old new w
    rcases patchSts_cases answer name old new w with
      ⟨⟨n, h⟩, -⟩ | ⟨-, -, n, h⟩
    · rw [h]
    · rw [h]
  unfold handleUpdateEvent
  dsimp only
  split
  · rfl
  · split
    · rfl
    · rfl
    · split
      · rw [hpatch]
        rfl
      · split
        · exact refuseReplicas_conditions rss _
        · rw [hpatch]
          exact acceptReplicas_conditions _

/-- What the loop does between two passes leaves the conditions alone. -/
theorem conditions_between_passes (env : Env) (kube : Kube) (fuel : Nat)
    (names : List String) (running : PodList)
    (rss : ReplicatedStatefulSet) (w : World) :
    (replicate env fuel w.sys).state.c.status.conditions
        = w.sys.c.status.conditions
      ∧ (updateMemberStatus env names w.sys).c.status.conditions
        = w.sys.c.status.conditions
      ∧ (noteRestoreReplicas env running w.sys).c.status.conditions
        = w.sys.c.status.conditions
      ∧ (handleUpdateEvent env kube rss w).2.sys.c.status.conditions
        = w.sys.c.status.conditions := by
  refine ⟨?_, ?_, ?_, handleUpdateEvent_conditions kube rss w⟩
  · exact congrArg ClusterStatus.conditions
      ((SameStatus.frame env).replicate fuel w.sys)
  · rw [updateMemberStatus_status]
    rfl
  · unfold noteRestoreReplicas
    split
    · rw [updateCRStatus_status]
      rfl
    · rfl

-- ================================================= histories of passes

/-- A pass that came back. -/
structure ReconcilePass (env : Env) where
  pods : PodList
  before : Sys
  errors : List Err
  after : Sys
  returned : reconcile env pods before = .ret errors after

/-- Each pass of the list, newest first, finds the conditions the one
before it has left, and the first one finds none. -/
def Linked : List (ReconcilePass env) → Prop
  | [] => True
  | [p] => p.before.c.status.conditions = []
  | p :: q :: ps =>
      p.before.c.status.conditions = q.after.c.status.conditions
        ∧ Linked (q :: ps)

/-- A run of passes from a status with no conditions. -/
structure ReconcileRun (env : Env) where
  passes : List (ReconcilePass env)
  linked : Linked passes

namespace ReconcilePass

variable {p q : ReconcilePass env} {ps : List (ReconcilePass env)}

/-- It ended with the right number of members online, but with errors. -/
def Recovers (p : ReconcilePass env) : Prop :=
  ¬ p.after.OffSize ∧ p.errors ≠ []

/-- The conditions it leaves describe it. -/
structure Describes (p : ReconcilePass env) : Prop where
  scaling : p.after.c.status.shows .scaling ↔ p.after.OffSize
  recovering : p.after.c.status.shows .recovering → p.errors ≠ []
  notBoth : ¬ (p.after.c.status.shows .available
    ∧ p.after.c.status.shows .recovering)

/-- It does not take back what the earlier pass `q` has set. -/
def KeepsUp (p q : ReconcilePass env) : Prop :=
  (q.after.OffSize → p.after.OffSize) ∧ (q.Recovers → p.errors ≠ [])

/-- What a pass makes of the two conditions that are never cleared. -/
theorem shows_step (hd : p.before.c.status.Distinct) :
    (p.after.c.status.shows .scaling
        ↔ p.after.OffSize ∨ p.before.c.status.shows .scaling)
      ∧ (p.after.c.status.shows .recovering
        ↔ p.Recovers ∨ p.before.c.status.shows .recovering) := by
  have hrep := reconcile_reports p.returned hd
  unfold Recovers
  by_cases h : p.after.OffSize
  · simp [hrep.offSize h, h]
  · by_cases he : p.errors = []
    · simp [hrep.ready h he, h, he]
    · simp [hrep.recovering h he, h, he]

/-- What it makes of the third. -/
theorem shows_available_step (hd : p.before.c.status.Distinct)
    (h : p.after.c.status.shows .available) :
    ¬ p.Recovers
      ∧ (p.errors = [] ∨ p.before.c.status.shows .available) := by
  have hrep := reconcile_reports p.returned hd
  by_cases hoff : p.after.OffSize
  · have hbefore : p.before.c.status.shows .available := by
      simpa [hrep.offSize hoff] using h
    exact ⟨fun hr => hr.1 hoff, Or.inr hbefore⟩
  · by_cases he : p.errors = []
    · exact ⟨fun hr => hr.2 he, Or.inl he⟩
    · rw [hrep.recovering hoff he] at h
      exact absurd rfl h.1

theorem linked_tail (hl : Linked (p :: ps)) : Linked ps := by
  cases ps with
  | nil => trivial
  | cons q ps => exact hl.2

/-- What the status showed before the newest pass of a history. -/
theorem before_shows (hl : Linked (p :: ps)) (t : ClusterConditionType) :
    p.before.c.status.shows t
      ↔ ∃ q ∈ ps.head?, q.after.c.status.shows t := by
  cases ps with
  | nil =>
      have hnone : p.before.c.status.conditions = [] := hl
      simp [ClusterStatus.shows, ClusterStatus.types, hnone]
  | cons q ps =>
      have hsame : p.before.c.status.conditions
          = q.after.c.status.conditions := hl.1
      simp [ClusterStatus.shows, ClusterStatus.types, hsame]

theorem before_distinct :
    ∀ {ps : List (ReconcilePass env)} {p : ReconcilePass env},
      Linked (p :: ps) → p.before.c.status.Distinct := by
  intro ps
  induction ps with
  | nil =>
      intro p hl
      have hnone : p.before.c.status.conditions = [] := hl
      simp [ClusterStatus.Distinct, ClusterStatus.types, hnone]
  | cons q ps ih =>
      intro p hl
      have hsame : p.before.c.status.conditions
          = q.after.c.status.conditions := hl.1
      unfold ClusterStatus.Distinct ClusterStatus.types
      rw [hsame]
      exact (reconcile_reports q.returned (ih hl.2)).distinct

/-- A condition that is set by the passes with `P` and never cleared is
shown once there was one. -/
theorem shows_iff_of_step {t : ClusterConditionType}
    {P : ReconcilePass env → Prop}
    (hstep : ∀ p : ReconcilePass env, p.before.c.status.Distinct →
      (p.after.c.status.shows t ↔ P p ∨ p.before.c.status.shows t)) :
    ∀ {ps : List (ReconcilePass env)} {p : ReconcilePass env},
      Linked (p :: ps) →
        (p.after.c.status.shows t ↔ ∃ q ∈ p :: ps, P q) := by
  intro ps
  induction ps with
  | nil =>
      intro p hl
      rw [hstep p (before_distinct hl), before_shows hl t]
      simp
  | cons q ps ih =>
      intro p hl
      rw [hstep p (before_distinct hl), before_shows hl t,
        List.exists_mem_cons_iff]
      have htail := ih (linked_tail hl)
      simp only [List.head?_cons, Option.mem_def, Option.some.injEq,
        exists_eq_left', htail]

theorem shows_scaling_iff (hl : Linked (p :: ps)) :
    p.after.c.status.shows .scaling ↔ ∃ q ∈ p :: ps, q.after.OffSize :=
  shows_iff_of_step (P := fun q => q.after.OffSize)
    (fun _ hd => (shows_step hd).1) hl

theorem shows_recovering_iff (hl : Linked (p :: ps)) :
    p.after.c.status.shows .recovering ↔ ∃ q ∈ p :: ps, q.Recovers :=
  shows_iff_of_step (fun _ hd => (shows_step hd).2) hl

-- ========================================================== both ways

/-- If the newest pass is described, it keeps up with the older ones. -/
theorem Describes.keepsUp (hl : Linked (p :: ps)) (hp : p.Describes)
    (hq : q ∈ ps) : p.KeepsUp q := by
  refine ⟨?_, ?_⟩
  · intro hoff
    apply hp.scaling.mp
    rw [shows_scaling_iff hl]
    exact ⟨q, List.mem_cons_of_mem p hq, hoff⟩
  · intro hrec
    apply hp.recovering
    rw [shows_recovering_iff hl]
    exact ⟨q, List.mem_cons_of_mem p hq, hrec⟩

/-- A pass that keeps up with the older ones is described if the pass
before it is. -/
theorem describes_of_keepsUp (hl : Linked (p :: ps))
    (hkeep : ∀ q ∈ ps, p.KeepsUp q) (hprev : ∀ q ∈ ps, q.Describes) :
    p.Describes := by
  have hshown : p.after.c.status.shows .recovering → p.errors ≠ [] := by
    rw [shows_recovering_iff hl]
    intro h
    obtain ⟨q, hq, hrec⟩ := h
    rcases List.mem_cons.mp hq with rfl | hq
    · exact hrec.2
    · exact (hkeep q hq).2 hrec
  refine ⟨?_, hshown, ?_⟩
  · rw [shows_scaling_iff hl]
    constructor
    · intro h
      obtain ⟨q, hq, hoff⟩ := h
      rcases List.mem_cons.mp hq with rfl | hq
      · exact hoff
      · exact (hkeep q hq).1 hoff
    · intro hoff
      exact ⟨p, List.mem_cons_self, hoff⟩
  · intro hboth
    obtain ⟨havail, hrecov⟩ := hboth
    have hd := before_distinct hl
    obtain ⟨hnot, hcause⟩ := shows_available_step hd havail
    -- both were there before, where the pass before rules them out
    have hbefore : p.before.c.status.shows .available :=
      hcause.resolve_left (hshown hrecov)
    have hrbefore : p.before.c.status.shows .recovering :=
      ((shows_step hd).2.mp hrecov).resolve_left hnot
    obtain ⟨q, hq, hqa⟩ := (before_shows hl .available).mp hbefore
    obtain ⟨q', hq', hqr⟩ := (before_shows hl .recovering).mp hrbefore
    have hsame : q = q' := Option.some.inj (hq.symm.trans hq')
    subst hsame
    exact (hprev q (List.mem_of_mem_head? hq)).notBoth ⟨hqa, hqr⟩

theorem describes_iff_pairwise :
    ∀ {ps : List (ReconcilePass env)}, Linked ps →
      ((∀ p ∈ ps, p.Describes) ↔ ps.Pairwise KeepsUp) := by
  intro ps
  induction ps with
  | nil => intro _; simp
  | cons p ps ih =>
      intro hl
      have htail := ih (linked_tail hl)
      rw [List.pairwise_cons, List.forall_mem_cons, htail]
      constructor
      · intro h
        exact ⟨fun q hq => h.1.keepsUp hl hq, h.2⟩
      · intro h
        exact ⟨describes_of_keepsUp hl h.1 (htail.mpr h.2), h.2⟩

end ReconcilePass

/-- In every run of passes from a status with no conditions, the
conditions describe the pass they are left by, for each of the passes,
exactly if no pass takes back what an earlier one has set: one that ends
with the wrong number of members online is followed by such passes only,
and one that ends with errors and the right number by passes with errors
only. -/
theorem conditions_describe_iff (run : ReconcileRun env) :
    (∀ p ∈ run.passes, p.Describes)
      ↔ run.passes.Pairwise ReconcilePass.KeepsUp :=
  ReconcilePass.describes_iff_pairwise run.linked

/-- Two pods. -/
def PodList.firstTwo : PodList where
  pods := [⟨"db-0", "default"⟩, ⟨"db-1", "default"⟩]
  nodup := by decide

/-- Two of three pods are there for the first pass, all three for the
second. The second one sets `Available` and leaves `Scaling` in place. -/
theorem scaling_outlives_scaling :
    ∃ run : ReconcileRun (.deciding fun _ => true),
      (∃ p ∈ run.passes, ¬ p.after.OffSize ∧ p.errors = []
        ∧ p.after.c.status.types = [.scaling, .available])
      ∧ ¬ ∀ p ∈ run.passes, p.Describes := by
  have hret₁ : (reconcile (.deciding fun _ => true) .firstTwo
      (Sys.start (.sized 3 1))).returned = true := by decide +kernel
  obtain ⟨errors₁, heq₁⟩ := Outcome.eq_ret_of_returned hret₁
  have hsecond : (match reconcile (.deciding fun _ => true) .three
      (reconcile (.deciding fun _ => true) .firstTwo
        (Sys.start (.sized 3 1))).state with
      | .ret errors s => errors.isEmpty && !decide s.OffSize
          && decide (s.c.status.types = [.scaling, .available])
      | _ => false) = true := by decide +kernel
  generalize (reconcile (.deciding fun _ => true) .firstTwo
    (Sys.start (.sized 3 1))).state = s₁ at heq₁ hsecond
  cases heq₂ : reconcile (.deciding fun _ => true) .three s₁ with
  | panicked s₂ => rw [heq₂] at hsecond; cases hsecond
  | looping s₂ => rw [heq₂] at hsecond; cases hsecond
  | ret errors₂ s₂ =>
      rw [heq₂] at hsecond
      simp only [Bool.and_eq_true, List.isEmpty_iff, Bool.not_eq_true',
        decide_eq_false_iff_not, decide_eq_true_eq] at hsecond
      obtain ⟨⟨hnil, hsize⟩, htypes⟩ := hsecond
      refine ⟨⟨[⟨_, _, _, _, heq₂⟩, ⟨_, _, _, _, heq₁⟩], rfl, rfl⟩, ?_, ?_⟩
      · exact ⟨_, List.mem_cons_self, hsize, hnil, htypes⟩
      · intro h
        have hscaling := (h _ List.mem_cons_self).scaling
        refine hsize (hscaling.mp ?_)
        show .scaling ∈ s₂.c.status.types
        rw [htypes]
        exact List.mem_cons_self

end RssOperator
