/-
What a pass of the main loop cannot touch.

# Frames

Reconciliation and replication change the state through few kinds of
writes: a command that goes on record, a write through a member's
pointer, a new member set, a call, a condition of the status, the size in
the status, and the status update itself. A relation that each of those
keeps is kept by everything built from them. `ReplicateFrame` lists the
writes of a replication and `Frame` those of both, and one lemma a
function says that the function stays inside every frame, however it
ends.

# The steady part

`Steady` is the frame the runs of the StatefulSet rest on: the spec, the
phase and `RestoreReplicas` stay as they are. The one write of a pass
that is outside it is `noteRestoreReplicas`, and `tick_steady`
says when that happens.
-/
import RssOperator.Proofs.Calls

namespace RssOperator

-- ============================================================== frames

/-- A relation that every write of `replicate` keeps. -/
structure ReplicateFrame (env : Env) (R : Sys → Sys → Prop) : Prop where
  refl : ∀ s, R s s
  trans : ∀ {s₁ s₂ s₃}, R s₁ s₂ → R s₂ s₃ → R s₁ s₃
  start : ∀ asPrimary k pod s,
    R s (s.ran env (s.startCall asPrimary) k pod)
  stop : ∀ k pod s, R s (s.ran env .stop k pod)
  sequence : ∀ k pod s, R s (s.ran env .sequence k pod)
  update : ∀ k f s, R s (s.update k f)
  ranged : ∀ n s, R s (s.ranged n)
  tagged : ∀ k online ok s, R s (s.called (.tag k online ok))
  deleted : ∀ k peers ok s, R s (s.called (.delete k peers ok))
  updateCRStatus : ∀ caller s, R s (updateCRStatus env caller s).2

/-- A relation that every write of a pass keeps: those of `reconcile` are
a few more. -/
structure Frame (env : Env) (R : Sys → Sys → Prop) : Prop
    extends ReplicateFrame env R where
  status : ∀ k pod s, R s (s.ran env .status k pod)
  setPeers : ∀ ms s, R s (s.setPeers ms)
  setCondition : ∀ t reason message s,
    R s (s.setCondition env t reason message)
  clearCondition : ∀ t s, R s (s.mapCluster (Cluster.clearCondition t))
  resized : ∀ n s, R s (s.mapStatus fun st => { st with replicas := n })

namespace ReplicateFrame

variable {env : Env} {R : Sys → Sys → Prop}

/-- A fold whose every step is inside the frame is. -/
theorem foldl {α β : Type} (F : ReplicateFrame env R) {f : α → β → α}
    (state : α → Sys) (hf : ∀ a b, R (state a) (state (f a b))) :
    ∀ (bs : List β) (a : α), R (state a) (state (bs.foldl f a)) := by
  intro bs
  induction bs with
  | nil => intro a; exact F.refl _
  | cons b bs ih => intro a; exact F.trans (hf a b) (ih (f a b))

/-- One call after the other. -/
theorem andThen {α β : Type} (F : ReplicateFrame env R) {s : Sys}
    {o : Outcome Sys α} {f : α → Sys → Outcome Sys β} (ho : R s o.state)
    (hf : ∀ a s', R s' (f a s').state) : R s (o.andThen f).state := by
  cases o with
  | ret a s' => exact F.trans ho (hf a s')
  | panicked s' => exact ho
  | looping s' => exact ho

-- ============================================= calls about one member

theorem tagAppMember (F : ReplicateFrame env R) (k : String) (online : Bool)
    (s : Sys) : R s (tagAppMember env k online s).2 := F.tagged _ _ _ s

/-- A start is a command, a note on the member and, if it succeeded, a tag. -/
theorem startAppMember (F : ReplicateFrame env R) (k : String) (asPrimary : Bool)
    (s : Sys) : R s (startAppMember env k asPrimary s).2 := by
  cases hm : s.members.lookup k with
  | none =>
      unfold RssOperator.startAppMember
      rw [hm]
      exact F.refl s
  | some m =>
      rw [startAppMember_eq asPrimary hm]
      split
      · exact F.trans (F.trans (F.start _ _ _ s) (F.update _ _ _))
          (F.tagAppMember _ _ _)
      · exact F.trans (F.start _ _ _ s) (F.update _ _ _)

/-- A stop tags first and notes its outcome on the member. -/
theorem stopAppMember (F : ReplicateFrame env R) (k : String) (s : Sys) :
    R s (stopAppMember env k s).2 := by
  cases hm : s.members.lookup k with
  | none =>
      unfold RssOperator.stopAppMember
      rw [hm]
      exact F.refl s
  | some m =>
      have hstopped : ∀ f, R s (s.stopped env k m f) := fun f =>
        F.trans (F.trans (F.tagAppMember _ _ s) (F.stop _ _ _))
          (F.update _ _ _)
      rw [stopAppMember_eq hm]
      split
      · exact hstopped _
      · exact hstopped _

/-- A deletion marks the member only if it succeeds. -/
theorem deleteMember (F : ReplicateFrame env R) (k : String) (s : Sys) :
    R s (deleteMember env k s).2 := by
  cases hm : s.members.lookup k with
  | none =>
      unfold RssOperator.deleteMember
      rw [hm]
      exact F.refl s
  | some m =>
      rw [deleteMember_state hm]
      split
      · exact F.trans (F.deleted _ _ _ s) (F.update _ _ _)
      · exact F.deleted _ _ _ s

-- =========================================================== replicate

/-- The turn of a failed member: deleted, or stopped and then deleted if
that fails. -/
theorem recoverMember (F : ReplicateFrame env R) (acc : List Err × Sys)
    (k : String) : R acc.2 (recoverMember env acc k).2 := by
  obtain ⟨errors, s⟩ := acc
  unfold RssOperator.recoverMember
  dsimp only
  split
  · exact F.refl s
  · next m hm =>
    split
    · exact F.trans (F.deleteMember k s) (F.tagAppMember k false _)
    · split
      · exact F.refl s
      · split
        · have hstop := F.stopAppMember k s
          split
          · next s₁ heq =>
            rw [heq] at hstop
            exact hstop
          · next err s₁ heq =>
            rw [heq] at hstop
            exact F.trans hstop (F.deleteMember k s₁)
        · exact F.refl s

theorem recover (F : ReplicateFrame env R) (s : Sys) : R s (recover env s).2 :=
  F.trans (F.ranged 1 s)
    (F.foldl Prod.snd F.recoverMember (s.members.range (s.order env))
      ([], s.ranged 1))

/-- The turn of a member whose sequence number is asked for. The number is
written to the entry under its name. -/
theorem detectMember (F : ReplicateFrame env R) (o : Outcome Sys Unit)
    (k : String) : R o.state (detectMember env o k).state := by
  refine F.andThen (F.refl _) ?_
  intro _ s
  dsimp only
  split
  · exact F.refl s
  · next m hm =>
    split
    · exact F.refl s
    · have hran : R s (execute env .sequence k m.name s).2 := by
        rw [execute_state]
        exact F.sequence _ _ s
      split
      · exact hran
      · split
        · exact hran
        · split
          · exact hran
          · exact F.trans hran (F.update _ _ _)

theorem detectStage (F : ReplicateFrame env R) (s : Sys) :
    R s (detectStage env s).state := by
  unfold RssOperator.detectStage
  split
  · exact F.trans (F.ranged 1 s)
      (F.foldl Outcome.state F.detectMember (s.members.range (s.order env))
        (.ret () (s.ranged 1)))
  · exact F.refl s

/-- The seeds are tried until one starts; those that failed have been noted.
-/
theorem seedLoop (F : ReplicateFrame env R) (seeds : List (String × Member)) :
    ∀ (errors : List Err) (s : Sys), R s (seedLoop env seeds errors s).2 := by
  induction seeds with
  | nil => intro errors s; exact F.refl s
  | cons seed seeds ih =>
      intro errors s
      have hstart := F.startAppMember seed.1 true s
      rw [RssOperator.seedLoop]
      dsimp only
      split
      · exact hstart
      · exact F.trans hstart (ih _ _)

theorem seedStage (F : ReplicateFrame env R) (s : Sys) :
    R s (seedStage env s).2 := by
  unfold RssOperator.seedStage
  split
  · split
    · exact F.ranged 1 s
    · next seeds _ =>
      have hloop := F.trans (F.ranged 1 s) (F.seedLoop seeds [] _)
      dsimp only
      split
      · exact hloop
      · exact hloop
  · exact F.refl s

/-- A loop whose every turn is inside the frame is, whether or not it
ends. -/
theorem loopStage (F : ReplicateFrame env R)
    {turn : Sys × List Err → (Sys × List Err) ⊕ (Sys × List Err)}
    (hturn : ∀ st, Sum.elim (fun st' => R st.1 st'.1)
      (fun st' => R st.1 st'.1) (turn st))
    (fuel : Nat) (errors : List Err) (s : Sys) :
    R s (loopStage turn fuel errors s).state := by
  refine loopStage_leads (I := fun _ => True) F.refl F.trans ?_ fuel errors
    trivial
  intro st _
  have hone := hturn st
  cases h : turn st with
  | inl st' =>
      rw [h] at hone
      exact ⟨hone, trivial⟩
  | inr st' =>
      rw [h] at hone
      exact hone

/-- A turn that makes a primary, or ends the loop. -/
theorem promoteTurn (F : ReplicateFrame env R) (primaries : Int)
    (st : Sys × List Err) :
    Sum.elim (fun st' => R st.1 st'.1) (fun st' => R st.1 st'.1)
      (promoteTurn env primaries st) := by
  obtain ⟨s, errors⟩ := st
  unfold RssOperator.promoteTurn
  dsimp only
  split
  · split
    · exact F.ranged 1 s
    · next seed _ =>
      have hstart := F.trans (F.ranged 1 s)
        (F.startAppMember seed.1 true (s.ranged 1))
      split
      · exact hstart
      · exact hstart
  · exact F.refl s

/-- A turn that stops a primary, or ends the loop. -/
theorem demoteTurn (F : ReplicateFrame env R) (primaries : Int)
    (st : Sys × List Err) :
    Sum.elim (fun st' => R st.1 st'.1) (fun st' => R st.1 st'.1)
      (demoteTurn env primaries st) := by
  obtain ⟨s, errors⟩ := st
  unfold RssOperator.demoteTurn
  dsimp only
  split
  · split
    · exact F.ranged 1 s
    · exact F.trans (F.ranged 1 s) (F.stopAppMember _ (s.ranged 1))
  · exact F.refl s

/-- A turn that starts a secondary, or ends the loop. -/
theorem secondaryTurn (F : ReplicateFrame env R) (replicas : Int)
    (st : Sys × List Err) :
    Sum.elim (fun st' => R st.1 st'.1) (fun st' => R st.1 st'.1)
      (secondaryTurn env replicas st) := by
  obtain ⟨s, errors⟩ := st
  unfold RssOperator.secondaryTurn
  dsimp only
  split
  · split
    · exact F.ranged 1 s
    · exact F.trans (F.ranged 1 s) (F.startAppMember _ false (s.ranged 1))
  · exact F.refl s

theorem finishStage (F : ReplicateFrame env R) (errors : List Err) (s : Sys) :
    R s (finishStage env errors s).state := by
  unfold RssOperator.finishStage
  split
  · exact F.refl s
  · exact F.recover s

/-- The three loops and what follows them; each starts where the one before
ended. -/
theorem sizeStages (F : ReplicateFrame env R) (fuel : Nat)
    (replicas primaries : Int) (s : Sys) :
    R s (sizeStages env fuel replicas primaries s).state := by
  unfold RssOperator.sizeStages
  refine F.andThen (F.loopStage (F.promoteTurn primaries) _ _ _) ?_
  intro errors s
  refine F.andThen (F.loopStage (F.demoteTurn primaries) _ _ _) ?_
  intro errors s
  exact F.andThen (F.loopStage (F.secondaryTurn replicas) _ _ _)
    F.finishStage

/-- However a replication ends, also inside a loop that does not. -/
theorem replicate (F : ReplicateFrame env R) (fuel : Nat) (s : Sys) :
    R s (replicate env fuel s).state := by
  refine F.andThen ?_ (fun _ s => F.updateCRStatus _ s)
  unfold replicateBody
  dsimp only
  split
  · exact F.refl s
  · split
    · exact F.refl s
    · refine F.andThen (F.detectStage s) ?_
      intro _ s
      have hseed := F.seedStage s
      split
      · next errors s₁ h =>
        rw [h] at hseed
        exact hseed
      · next s₁ h =>
        rw [h] at hseed
        exact F.trans hseed (F.sizeStages _ _ _ s₁)

end ReplicateFrame

namespace Frame

variable {env : Env} {R : Sys → Sys → Prop}

-- =========================================================== reconcile

/-- The turn of a member that is asked for its status. -/
theorem checkMember (F : Frame env R) (acc : List Err × Sys)
    (k : String) : R acc.2 (checkMember env acc k).2 := by
  obtain ⟨errors, s⟩ := acc
  unfold RssOperator.checkMember
  dsimp only
  split
  · exact F.refl s
  · next m hm =>
    split
    · exact F.refl s
    · have hnoted : ∀ f, R s
          ((execute env .status k m.name s).2.update k f) := by
        intro f
        rw [execute_state]
        exact F.trans (F.status _ _ s) (F.update _ _ _)
      split
      · exact F.trans (hnoted _) (F.tagAppMember k false _)
      · exact hnoted _

theorem checkMembers (F : Frame env R) (s : Sys) :
    R s (checkMembers env s).2 :=
  F.trans (F.ranged 1 s)
    (F.foldl Prod.snd F.checkMember (s.members.range (s.order env))
      ([], s.ranged 1))

/-- A merge replaces the member set as a whole. -/
theorem mergeMembers (F : Frame env R) {running : MemberSet} {s s' : Sys}
    (h : mergeMembers env running s = some s') : R s s' := by
  obtain ⟨ms, -, heq⟩ := Option.map_eq_some_iff.mp h
  subst heq
  exact F.trans (F.setPeers ms s) (F.ranged 3 _)

/-- One of the four conditions is set, and another may be cleared. -/
theorem reportCondition (F : Frame env R) (errors : List Err) (s : Sys) :
    R s (reportCondition env errors s) := by
  unfold RssOperator.reportCondition
  dsimp only
  split
  · exact F.setCondition _ _ _ s
  · split
    · exact F.setCondition _ _ _ s
    · split
      · exact F.trans (F.setCondition _ _ _ s) (F.clearCondition _ _)
      · exact F.setCondition _ _ _ s

theorem reportReconciled (F : Frame env R) (errors : List Err) (s : Sys) :
    R s (reportReconciled env errors s) :=
  F.trans (F.trans (F.reportCondition errors s) (F.resized _ _))
    (F.updateCRStatus _ _)

/-- A reconciliation, also one that panics in its merge. -/
theorem reconcile (F : Frame env R) (pods : PodList) (s : Sys) :
    R s (reconcile env pods s).state := by
  unfold RssOperator.reconcile
  dsimp only
  split
  · exact F.refl s
  · next s₁ hmerge =>
    exact F.trans (F.trans (F.trans (F.mergeMembers hmerge)
      (F.checkMembers s₁)) (F.recover _)) (F.reportReconciled _ _)

/-- An iteration: reconcile, replicate, and reconcile again on errors. -/
theorem reconcileBranch (F : Frame env R) (fuel : Nat) (running : PodList)
    (s : Sys) : R s (reconcileBranch env fuel running s).state := by
  refine F.andThen (F.reconcile running s) ?_
  intro _ s
  dsimp only
  split
  · refine F.andThen (F.replicate fuel s) ?_
    intro _ s
    split
    · exact F.refl s
    · exact F.andThen (F.reconcile running s) (fun _ s => F.refl s)
  · exact F.refl s

/-- A poll without pods forgets the members or marks them as gone. -/
theorem noPodsBranch (F : Frame env R) (s : Sys) :
    R s (noPodsBranch env s).state := by
  unfold RssOperator.noPodsBranch
  split
  · exact F.setPeers ∅ s
  · unfold podsDead
    split
    · exact F.refl s
    · next s₁ hmerge => exact F.mergeMembers hmerge

/-- A relation that also lets the status be assigned, in fields other than
the phase, is kept by a whole pass. -/
theorem tick (F : Frame env R)
    (hassign : ∀ (f : ClusterStatus → ClusterStatus) s,
      (∀ st, (f st).phase = st.phase) → R s (s.mapStatus f))
    (fuel : Nat) (poll : Poll) (s : Sys) :
    R s (tick env fuel poll s).state := by
  have hmembers : ∀ names s, R s (updateMemberStatus env names s) := by
    intro names s
    refine F.trans (F.ranged 1 s) (F.trans ?_ (F.updateCRStatus _ _))
    apply hassign
    intro st
    rfl
  have hnote : ∀ running s, R s (noteRestoreReplicas env running s) := by
    intro running s
    unfold RssOperator.noteRestoreReplicas
    split
    · refine F.trans ?_ (F.updateCRStatus _ _)
      apply hassign
      intro st
      rfl
    · exact F.refl s
  unfold RssOperator.tick
  split
  · show R s (s.mapStatus fun st => { st with controlPaused := true })
    apply hassign
    intro st
    rfl
  · have hcontrol : R s (s.mapStatus fun st =>
        { st with controlPaused := false }) := by
      apply hassign
      intro st
      rfl
    dsimp only
    refine F.trans hcontrol ?_
    split
    · exact F.refl _
    · next running pending =>
      refine F.trans (hmembers running.names _) ?_
      split
      · exact F.refl _
      · split
        · exact F.noPodsBranch _
        · exact F.trans (hnote running _) (F.reconcileBranch fuel running _)

end Frame

-- ==================================================== the steady part

/-- The spec, the phase and `RestoreReplicas` are the same. -/
structure Steady (s s' : Sys) : Prop where
  spec : s'.spec = s.spec
  phase : s'.c.status.phase = s.c.status.phase
  restore : s'.c.status.restoreReplicas = s.c.status.restoreReplicas

/-- The shared array is written through the record, not through the status. -/
theorem Cluster.writeShared_status (pos : Nat)
    (vals : List ClusterCondition) (c : Cluster) :
    (c.writeShared pos vals).status = c.status := by
  unfold writeShared
  split <;> rfl

/-- Setting a condition changes nothing but the conditions. -/
theorem Cluster.setClusterCondition_status (moved : Bool)
    (new : ClusterCondition) (c : Cluster) :
    ∃ cs, (c.setClusterCondition moved new).status
      = { c.status with conditions := cs } := by
  unfold setClusterCondition
  dsimp only
  split
  · split
    · exact ⟨_, rfl⟩
    · exact ⟨_, by rw [setConditions, setStatus, writeShared_status]⟩
  · split
    · exact ⟨c.status.conditions, rfl⟩
    · split
      · exact ⟨c.status.conditions, rfl⟩
      · exact ⟨_, by rw [setConditions, setStatus, writeShared_status]⟩

/-- So does clearing one. -/
theorem Cluster.clearCondition_status (t : ClusterConditionType)
    (c : Cluster) :
    ∃ cs, (c.clearCondition t).status
      = { c.status with conditions := cs } := by
  unfold clearCondition
  dsimp only
  split
  · exact ⟨c.status.conditions, rfl⟩
  · exact ⟨_, by rw [setConditions, setStatus, writeShared_status]⟩

namespace Steady

variable (env : Env)

theorem trans {s₁ s₂ s₃ : Sys} (h : Steady s₁ s₂) (h' : Steady s₂ s₃) :
    Steady s₁ s₃ :=
  ⟨h'.spec.trans h.spec, h'.phase.trans h.phase, h'.restore.trans h.restore⟩

/-- A write to the conditions of the status. -/
theorem of_conditions {f : Cluster → Cluster} (s : Sys)
    (hs : (f s.c).rss.spec = s.c.rss.spec)
    (hst : ∃ cs, (f s.c).status = { s.c.status with conditions := cs }) :
    Steady s (s.mapCluster f) := by
  obtain ⟨cs, hcs⟩ := hst
  refine ⟨hs, ?_, ?_⟩
  · show (f s.c).status.phase = _
    rw [hcs]
  · show (f s.c).status.restoreReplicas = _
    rw [hcs]

theorem updateCRStatus (caller : String) (s : Sys) :
    Steady s (updateCRStatus env caller s).2 := by
  unfold RssOperator.updateCRStatus
  split
  · exact ⟨rfl, rfl, rfl⟩
  · dsimp only
    split
    · exact ⟨rfl, rfl, rfl⟩
    · exact ⟨rfl, rfl, rfl⟩

theorem setCondition (t : ClusterConditionType) (reason message : String)
    (s : Sys) : Steady s (s.setCondition env t reason message) := by
  have h := of_conditions s
    (Cluster.setClusterCondition_frame (env.grow s.calls) _ s.c).2
    (Cluster.setClusterCondition_status (env.grow s.calls)
      (newClusterCondition t .isTrue reason message (env.now s.calls)) s.c)
  exact ⟨h.spec, h.phase, h.restore⟩

/-- No write of a pass but `noteRestoreReplicas` touches the steady
part. -/
theorem frame : Frame env Steady where
  refl _ := ⟨rfl, rfl, rfl⟩
  trans := trans
  start _ _ _ _ := ⟨rfl, rfl, rfl⟩
  stop _ _ _ := ⟨rfl, rfl, rfl⟩
  sequence _ _ _ := ⟨rfl, rfl, rfl⟩
  status _ _ _ := ⟨rfl, rfl, rfl⟩
  update _ _ _ := ⟨rfl, rfl, rfl⟩
  setPeers _ _ := ⟨rfl, rfl, rfl⟩
  ranged _ _ := ⟨rfl, rfl, rfl⟩
  tagged _ _ _ _ := ⟨rfl, rfl, rfl⟩
  deleted _ _ _ _ := ⟨rfl, rfl, rfl⟩
  setCondition := setCondition env
  clearCondition t s := of_conditions s (Cluster.clearCondition_frame t _).2
    (Cluster.clearCondition_status t _)
  resized _ _ := ⟨rfl, rfl, rfl⟩
  updateCRStatus := updateCRStatus env

theorem updateMemberStatus (running : List String) (s : Sys) :
    Steady s (updateMemberStatus env running s) := by
  refine trans ?_ (updateCRStatus env "updateMemberStatus" _)
  exact ⟨rfl, rfl, rfl⟩

end Steady

-- ============================================================ a pass

/-- `RestoreReplicas` after a poll that found `running`. -/
theorem noteRestoreReplicas_status (env : Env) (running : PodList)
    (s : Sys) :
    (noteRestoreReplicas env running s).spec = s.spec
      ∧ (noteRestoreReplicas env running s).c.status.phase
          = s.c.status.phase
      ∧ (noteRestoreReplicas env running s).c.status.restoreReplicas
          = if (running.pods.length : Int) = s.spec.getNumReplicas then
              (running.pods.length : Int)
            else s.c.status.restoreReplicas := by
  unfold noteRestoreReplicas
  split
  · have h := Steady.updateCRStatus env "mainloop"
      (s.mapStatus fun st => { st with
        restoreReplicas := running.pods.length })
    exact ⟨h.spec, h.phase, h.restore⟩
  · exact ⟨rfl, rfl, rfl⟩

/-- A pass over this poll notes the number of pods: the operator is not
paused, no pod is pending, and as many run as the spec asks for. -/
def Poll.noted (spec : ClusterSpec) : Poll → Bool
  | .failed => false
  | .pods running pending =>
      !spec.paused && pending.isEmpty && !running.pods.isEmpty
        && (running.pods.length : Int) == spec.getNumReplicas

/-- A pass changes neither the spec nor the phase, and changes
`RestoreReplicas` only to the number of replicas the spec asks for, when
the poll found that many pods. -/
theorem tick_steady (env : Env) (fuel : Nat) (poll : Poll) (s : Sys) :
    (tick env fuel poll s).state.spec = s.spec
      ∧ (tick env fuel poll s).state.c.status.phase = s.c.status.phase
      ∧ ((tick env fuel poll s).state.c.status.restoreReplicas
            = s.c.status.restoreReplicas
          ∨ poll.noted s.spec = true
            ∧ (tick env fuel poll s).state.c.status.restoreReplicas
              = s.spec.getNumReplicas) := by
  unfold tick
  split
  · exact ⟨rfl, rfl, Or.inl rfl⟩
  · next hactive =>
    dsimp only
    split
    · exact ⟨rfl, rfl, Or.inl rfl⟩
    · next running pending =>
      have hmem : Steady s (updateMemberStatus env running.names
          (s.mapStatus fun st => { st with controlPaused := false })) := by
        refine Steady.trans ?_ (Steady.updateMemberStatus env _ _)
        exact ⟨rfl, rfl, rfl⟩
      split
      · exact ⟨hmem.spec, hmem.phase, Or.inl hmem.restore⟩
      · next hpending =>
        split
        · have h := hmem.trans ((Steady.frame env).noPodsBranch _)
          exact ⟨h.spec, h.phase, Or.inl h.restore⟩
        · next hsome =>
          have h := (Steady.frame env).reconcileBranch fuel running
            (noteRestoreReplicas env running
              (updateMemberStatus env running.names
                (s.mapStatus fun st => { st with controlPaused := false })))
          obtain ⟨hspec, hphase, hrestore⟩ := noteRestoreReplicas_status env
            running (updateMemberStatus env running.names
              (s.mapStatus fun st => { st with controlPaused := false }))
          refine ⟨h.spec.trans (hspec.trans hmem.spec),
            h.phase.trans (hphase.trans hmem.phase), ?_⟩
          rw [h.restore, hrestore, hmem.spec, hmem.restore]
          split
          · next hall =>
            refine Or.inr ⟨?_, hall⟩
            unfold Poll.noted
            simp [hactive, not_not.mp hpending, hsome, hall]
          · exact Or.inl rfl

end RssOperator
