/-
The StatefulSet's replica count along a run.

# Scaling up from zero

An event may not scale the StatefulSet up from zero to fewer pods than
there were before. The loop keeps their number in
`c.status.RestoreReplicas`; the guard compares with the number in the
event instead, and the loop's own number is overwritten by every poll
that finds as many pods as the spec in memory asks for, even when that
spec was refused and the pods are still being stopped
(`scaled_up_below_restore`). `restore_guards_scale_up` is what holds: the
new count is large enough in every run in which, while the StatefulSet is
at zero, no poll lowers the loop's number and no event or new process
brings a lower one.

# Following the spec

An event that changes the replica count is handed on to the StatefulSet,
or it is refused and the loop pauses (`handleUpdateEvent_spec`), so the
count follows the spec for as long as one process handles the events.
`setup` compares nothing: a process that is handed a resource in phase
`Running` takes its spec as given (`restarted_out_of_step`).
`sts_follows_spec` is the invariant, for runs in which each such process
finds the StatefulSet in step.
-/
import RssOperator.Proofs.Frames
import RssOperator.Update

namespace RssOperator

variable (env : Env) (kube : Kube)

-- ================================================================ runs

/-- The invariant rule for runs: what every step that meets `C` keeps, a
run of such steps keeps. -/
theorem EveryStep.invariant {C : World → WorldStep → Prop}
    {I : World → Prop}
    (hstep : ∀ w i, C w i → I w → I (i.step env kube w)) :
    ∀ (steps : List WorldStep) (w : World), EveryStep env kube C w steps →
      I w → I (w.run env kube steps) := by
  intro steps
  induction steps with
  | nil => intro w _ hw; exact hw
  | cons i is ih =>
      intro w hsteps hw
      exact ih (i.step env kube w) hsteps.2 (hstep w i hsteps.1 hw)

/-- The steps so far, then an event for the spec a user wrote. -/
def thenEdited (w : World) (steps : List WorldStep) (spec : ClusterSpec) :
    List WorldStep :=
  steps ++ [.event ((w.run env kube steps).edited spec)]

/-- The steps so far, then a new process, after a user wrote the spec. -/
def thenRestarted (w : World) (steps : List WorldStep)
    (spec : ClusterSpec) : List WorldStep :=
  steps ++ [.restart ((w.run env kube steps).edited spec)]

-- ======================================================= failed loops

/-- An attempt to report a failure sets the phase and nothing else of the
loop's status. -/
theorem reportFailed_status (s : Sys) :
    (reportFailed env s).2.c.status
      = { s.c.status with phase := .failed } := by
  have hwrite : (updateCRStatus env "failed"
      (s.mapStatus fun st => { st with phase := .failed })).2.c.status
      = { s.c.status with phase := .failed } := by
    unfold updateCRStatus
    split
    · rfl
    · dsimp only
      split <;> rfl
  unfold reportFailed
  dsimp only
  split
  · next s₁ h => rw [h] at hwrite; exact hwrite
  · next err s₁ h =>
    rw [h] at hwrite
    split
    · exact hwrite
    · split
      · exact hwrite
      · split
        · exact hwrite
        · exact hwrite

theorem retry_status : ∀ (n : Nat) (s : Sys),
    (retry (reportFailed env) n s).2.c.status
      = { s.c.status with phase := .failed } := by
  intro n
  induction n with
  | zero => intro s; exact reportFailed_status env s
  | succ n ih =>
      intro s
      have hone := reportFailed_status env s
      rw [retry]
      split
      · next s₁ h => rw [h] at hone; exact hone
      · next s₁ h =>
        rw [h] at hone
        rw [ih s₁, hone]

theorem reportFailedStatus_status (s : Sys) :
    (reportFailedStatus env s).2.c.status
      = { s.c.status with phase := .failed } := retry_status env _ s

-- ============================================================== events

/-- The status of the loop after the parts of an event's handler that
change it. -/
theorem refuseReplicas_status (rss : ReplicatedStatefulSet) (s : Sys) :
    (refuseReplicas env rss s).spec = s.spec
      ∧ (refuseReplicas env rss s).c.status.phase = .paused
      ∧ (refuseReplicas env rss s).c.status.restoreReplicas
          = s.c.status.restoreReplicas := by
  have h := Steady.updateCRStatus env "modify"
    ((s.setPhase .paused).setReason (tooLowMsg rss))
  exact ⟨h.spec, h.phase, h.restore⟩

theorem acceptReplicas_status (s : Sys) :
    (acceptReplicas env s).spec = s.spec
      ∧ (acceptReplicas env s).c.status.restoreReplicas
          = s.c.status.restoreReplicas := by
  unfold acceptReplicas
  split
  · have h := Steady.updateCRStatus env "modify"
      ((s.setPhase .running).setReason "Replica count is consistent")
    exact ⟨h.spec, h.restore⟩
  · exact ⟨rfl, rfl⟩

/-- What a handled event leaves behind. The loop holds the resource of
the event, and either the replica count of the StatefulSet was changed to
the one of the new spec, or it was left alone, and then the loop runs on
only if there was nothing to change. -/
structure Handled (rss : ReplicatedStatefulSet) (w : World)
    (err : Option LoopErr) (w' : World) : Prop where
  spec : w'.sys.spec = rss.spec
  restore : w'.sys.c.status.restoreReplicas
    = w.sys.c.status.restoreReplicas
  sts : (w'.sts = w.sts ∧ w'.resizes = w.resizes
      ∧ (err = none → w'.sys.c.status.phase = .running →
          w.sts = some rss.spec.getNumReplicas
            ∨ w.sys.c.status.phase = .running
              ∧ w.sys.spec.getNumReplicas = rss.spec.getNumReplicas))
    ∨ err = none ∧ ∃ old, w.sts = some old
      ∧ w'.sts = some rss.spec.getNumReplicas
      ∧ w'.resizes = ⟨old, rss.spec.getNumReplicas,
          w.sys.c.status.restoreReplicas⟩ :: w.resizes
      ∧ (old = 0 →
          int32 rss.status.restoreReplicas ≤ rss.spec.getNumReplicas)

/-- What a patch leaves behind: the world as it was but for the number of
requests, or the new count on record. -/
theorem patchSts_cases (answer : UpdateAnswer) (name : String)
    (old new : Int) (w : World) :
    ((∃ n, (patchSts answer name old new w).2 = { w with patches := n })
        ∧ ((patchSts answer name old new w).1 = none → old = new))
      ∨ old ≠ new ∧ (patchSts answer name old new w).1 = none
        ∧ ∃ n, (patchSts answer name old new w).2 = { w with
            sts := some new
            resizes :=
              ⟨old, new, w.sys.c.status.restoreReplicas⟩ :: w.resizes
            patches := n } := by
  unfold patchSts
  split
  · exact Or.inl ⟨⟨w.patches, rfl⟩, fun h => by cases h⟩
  · dsimp only
    split
    · exact Or.inl ⟨⟨_, rfl⟩, fun h => by cases h⟩
    · split
      · next heq => exact Or.inl ⟨⟨_, rfl⟩, fun _ => heq⟩
      · next hne => exact Or.inr ⟨hne, rfl, _, rfl⟩

theorem isSpecEqual_replicas {s₁ s₂ : ClusterSpec}
    (h : isSpecEqual s₁ s₂ = true) :
    s₁.getNumReplicas = s₂.getNumReplicas := by
  unfold isSpecEqual at h
  simp only [Bool.and_eq_true, beq_iff_eq] at h
  exact h.1.1

theorem handleUpdateEvent_spec (rss : ReplicatedStatefulSet) (w : World) :
    Handled rss w (handleUpdateEvent env kube rss w).1
      (handleUpdateEvent env kube rss w).2 := by
  unfold handleUpdateEvent
  dsimp only
  split
  · next heq =>
    refine ⟨rfl, rfl, Or.inl ⟨rfl, rfl, ?_⟩⟩
    intro _ hrun
    exact Or.inr ⟨hrun, (isSpecEqual_replicas heq).symm⟩
  · split
    · exact ⟨rfl, rfl, Or.inl ⟨rfl, rfl, fun h => by cases h⟩⟩
    · exact ⟨rfl, rfl, Or.inl ⟨rfl, rfl, fun h => by cases h⟩⟩
    · next replicas _ hsts =>
      split
      · next hsame =>
        -- a patch that changes nothing
        rcases patchSts_cases (kube.update w.requests) rss.name replicas
          replicas _ with ⟨⟨n, hkeep⟩, _⟩ | ⟨hne, _⟩
        · rw [hkeep]
          refine ⟨rfl, rfl, Or.inl ⟨rfl, rfl, ?_⟩⟩
          intro _ _
          exact Or.inl (hsts.trans (congrArg some hsame))
        · exact absurd rfl hne
      · next hdiff =>
        split
        · next hlow =>
          obtain ⟨hspec, hphase, hrestore⟩ := refuseReplicas_status
            env rss (w.sys.mapCluster fun c =>
              { c with rss := rss, shared := false })
          refine ⟨hspec, hrestore, Or.inl ⟨rfl, rfl, ?_⟩⟩
          intro _ hrun
          cases hphase.symm.trans hrun
        · next hhigh =>
          obtain ⟨hspec, hrestore⟩ := acceptReplicas_status env
            (w.sys.mapCluster fun c => { c with rss := rss, shared := false })
          rcases patchSts_cases (kube.update w.requests) rss.name replicas
            rss.spec.getNumReplicas _ with
              ⟨⟨n, hkeep⟩, hpatched⟩ | ⟨_, hok, n, hnew⟩
          · rw [hkeep]
            refine ⟨hspec, hrestore, Or.inl ⟨rfl, rfl, ?_⟩⟩
            intro hok
            exact absurd (hpatched hok) hdiff
          · rw [hnew]
            refine ⟨hspec, hrestore,
              Or.inr ⟨hok, replicas, hsts, rfl, ?_, ?_⟩⟩
            · exact congrArg (fun r => (⟨replicas, _, r⟩ : Resize) :: w.resizes)
                hrestore
            · intro hzero
              by_contra hlt
              exact hhigh ⟨hzero, by omega⟩

/-- The event branch: as the handler leaves it, or the loop has failed
and the StatefulSet is as it was. -/
theorem eventBranch_spec (rss : ReplicatedStatefulSet) (w : World) :
    Handled rss w none (eventBranch env kube rss w)
      ∨ (eventBranch env kube rss w).sys.c.status.phase = .failed
        ∧ (eventBranch env kube rss w).sys.c.status.restoreReplicas
            = w.sys.c.status.restoreReplicas
        ∧ (eventBranch env kube rss w).sts = w.sts
        ∧ (eventBranch env kube rss w).resizes = w.resizes := by
  have hspec := handleUpdateEvent_spec env kube rss w
  unfold eventBranch
  split
  · next w₁ h =>
    rw [h] at hspec
    exact Or.inl hspec
  · next err w₁ h =>
    rw [h] at hspec
    have hst := reportFailedStatus_status env
      (w₁.sys.setReason err.text)
    rcases hspec.sts with ⟨hsts, hres, _⟩ | ⟨hok, _⟩
    · refine Or.inr ⟨?_, ?_, hsts, hres⟩
      · exact congrArg ClusterStatus.phase hst
      · exact (congrArg ClusterStatus.restoreReplicas hst).trans
          hspec.restore
    · cases hok

-- ============================================================== starts

/-- What `create` and `setup` leave behind: they succeed without making a
StatefulSet only in phase `Running`, and then they do not look for one. -/
structure SetUp (w : World) (err : Option LoopErr) (w' : World) :
    Prop where
  spec : w'.sys.spec = w.sys.spec
  restore : w'.sys.c.status.restoreReplicas
    = w.sys.c.status.restoreReplicas
  resizes : w'.resizes = w.resizes
  sts : (w'.sts = w.sts
      ∧ (err = none → w.sys.c.status.phase = .running))
    ∨ w.sts = none ∧ w'.sts = some w.sys.spec.getNumReplicas

theorem create_spec (w : World) :
    SetUp w (create env kube w).1 (create env kube w).2 := by
  have hst := Steady.updateCRStatus env "create" (w.sys.setPhase .creating)
  unfold create
  dsimp only
  split
  · next err s h =>
    rw [h] at hst
    exact ⟨hst.spec, hst.restore, rfl, Or.inl ⟨rfl, fun h => by cases h⟩⟩
  · next s h =>
    rw [h] at hst
    split
    all_goals refine ⟨hst.spec, hst.restore, rfl, ?_⟩
    -- the five requests that fail, the StatefulSet that exists, success
    · exact Or.inl ⟨rfl, fun h => by cases h⟩
    · exact Or.inl ⟨rfl, fun h => by cases h⟩
    · exact Or.inl ⟨rfl, fun h => by cases h⟩
    · exact Or.inl ⟨rfl, fun h => by cases h⟩
    · exact Or.inl ⟨rfl, fun h => by cases h⟩
    · exact Or.inl ⟨rfl, fun h => by cases h⟩
    · next hnone =>
      exact Or.inr ⟨hnone, congrArg (fun c : ClusterSpec =>
        some c.getNumReplicas) hst.spec⟩

theorem setup_spec (w : World) :
    SetUp w (setup env kube w).1 (setup env kube w).2 := by
  have hkept : ∀ err, (err = none → w.sys.c.status.phase = .running) →
      SetUp w err w :=
    fun err h => ⟨rfl, rfl, rfl, Or.inl ⟨rfl, h⟩⟩
  -- the secret is asked for, or not, before whatever comes next
  have hsecured : ∀ next x : Option LoopErr × World,
      x = next ∨ (∃ cause, x = (some (.tls cause), w)) →
      SetUp w next.1 next.2 → SetUp w x.1 x.2 := by
    intro next x hx hnext
    rcases hx with rfl | ⟨cause, rfl⟩
    · exact hnext
    · exact hkept _ (fun h => by cases h)
  unfold setup
  dsimp only
  split
  · refine hsecured _ _ ?_ (create_spec env kube w)
    split
    · split
      · exact Or.inr ⟨_, rfl⟩
      · exact Or.inl rfl
    · exact Or.inl rfl
  · exact hkept _ (fun h => by cases h)
  · next hrun =>
    refine hsecured (none, w) _ ?_ (hkept none fun _ => hrun)
    split
    · split
      · exact Or.inr ⟨_, rfl⟩
      · exact Or.inl rfl
    · exact Or.inl rfl
  · exact hkept _ (fun h => by cases h)

/-- What a new process leaves behind: the number it was handed, and a loop
that runs on the spec it was handed only if this process made the
StatefulSet, or found the resource in phase `Running`. -/
structure Launched (rss : ReplicatedStatefulSet) (w w' : World) :
    Prop where
  restore : w'.sys.c.status.restoreReplicas = rss.status.restoreReplicas
  resizes : w'.resizes = w.resizes
  sts : w'.sts = w.sts ∨ w.sts = none
  running : w'.sys.c.status.phase = .running →
    w'.sys.spec = rss.spec
      ∧ (w'.sts = some rss.spec.getNumReplicas
        ∨ rss.status.phase = .running ∧ w'.sts = w.sts)

theorem launch_spec (rss : ReplicatedStatefulSet) (w : World) :
    Launched rss w (launch env kube rss w) := by
  have hsetup := setup_spec env kube (w.handed rss)
  unfold launch
  split
  · next err w₁ h =>
    rw [h] at hsetup
    have hfailed := Steady.updateCRStatus env "setup"
      ((w₁.sys.setReason err.text).setPhase .failed)
    have hsts : w₁.sts = w.sts ∨ w.sts = none := by
      rcases hsetup.sts with ⟨hsts, _⟩ | ⟨hnone, _⟩
      · exact Or.inl hsts
      · exact Or.inr hnone
    by_cases hphase : w₁.sys.c.status.phase = .failed
    · refine ⟨?_, hsetup.resizes, hsts, ?_⟩
      · dsimp only
        rw [if_pos hphase]
        exact hsetup.restore
      · dsimp only
        rw [if_pos hphase, hphase]
        intro hrun
        cases hrun
    · refine ⟨?_, hsetup.resizes, hsts, ?_⟩
      · dsimp only
        rw [if_neg hphase]
        exact hfailed.restore.trans hsetup.restore
      · dsimp only
        rw [if_neg hphase]
        intro hrun
        cases hfailed.phase.symm.trans hrun
  · next w₁ h =>
    rw [h] at hsetup
    have hinit := Steady.updateCRStatus env "initial"
      (w₁.sys.setPhase .running)
    refine ⟨hinit.restore.trans hsetup.restore, hsetup.resizes, ?_, ?_⟩
    · rcases hsetup.sts with ⟨hsts, _⟩ | ⟨hnone, _⟩
      · exact Or.inl hsts
      · exact Or.inr hnone
    · intro _
      refine ⟨hinit.spec.trans hsetup.spec, ?_⟩
      rcases hsetup.sts with ⟨hsts, hrun⟩ | ⟨_, hmade⟩
      · exact Or.inr ⟨hrun rfl, hsts⟩
      · exact Or.inl hmade

-- ================================================== following the spec

/-- In phase `Running` the StatefulSet has as many replicas as the spec in
memory asks for. -/
def World.InStep (w : World) : Prop :=
  w.sys.c.status.phase = .running → w.sts = some w.sys.spec.getNumReplicas

/-- A process that is handed a resource in phase `Running` finds the
StatefulSet in step with it. -/
def World.startsInStep (w : World) : WorldStep → Prop
  | .timer .. | .event _ => True
  | .restart rss =>
      rss.status.phase = .running → w.sts = some rss.spec.getNumReplicas

theorem WorldStep.step_inStep {w : World} {i : WorldStep}
    (hstart : w.startsInStep i) (hw : w.InStep) :
    (i.step env kube w).InStep := by
  cases i with
  | timer fuel poll =>
      unfold WorldStep.step
      dsimp only
      split
      · obtain ⟨hspec, hphase, _⟩ := tick_steady env fuel poll w.sys
        intro hrun
        show w.sts = _
        rw [hw (hphase.symm.trans hrun), timerBranch]
        exact congrArg (fun c : ClusterSpec => some c.getNumReplicas)
          hspec.symm
      · exact hw
  | event rss =>
      unfold WorldStep.step
      dsimp only
      split
      · intro hrun
        rcases eventBranch_spec env kube rss w with h | ⟨hfailed, _⟩
        · rw [h.spec]
          rcases h.sts with ⟨hsts, _, hkept⟩ | ⟨_, old, _, hnew, _⟩
          · rw [hsts]
            rcases hkept rfl hrun with hthere | ⟨hbefore, hsame⟩
            · exact hthere
            · rw [hw hbefore, hsame]
          · exact hnew
        · cases hfailed.symm.trans hrun
      · exact hw
  | restart rss =>
      intro hrun
      have h := launch_spec env kube rss w
      obtain ⟨hspec, hsts⟩ := h.running hrun
      show (launch env kube rss w).sts
        = some (launch env kube rss w).sys.spec.getNumReplicas
      rw [hspec]
      rcases hsts with hmade | ⟨hphase, hsame⟩
      · exact hmade
      · rw [hsame]
        exact hstart hphase

/-- The StatefulSet follows the spec in every run in which each process
that is handed a resource in phase `Running` finds it in step. -/
theorem sts_follows_spec (rss : ReplicatedStatefulSet)
    (hnew : rss.status.phase = .none) (steps : List WorldStep)
    (hsteps : EveryStep env kube World.startsInStep (World.fresh rss)
      steps) :
    ((World.fresh rss).run env kube steps).InStep := by
  refine EveryStep.invariant env kube ?_ steps _ hsteps ?_
  · intro w i hstart hw
    exact WorldStep.step_inStep env kube hstart hw
  · intro hrun
    cases hnew.symm.trans hrun

/-- A restart after a resize: the edit was handed on before the first
process went away. -/
theorem sts_follows_spec_restarted :
    ((World.fresh (.sized 3 1)).run (.deciding fun _ => true) .obliging
      [.restart (.sized 3 1), .event (.sized 5 1),
        .restart { ReplicatedStatefulSet.sized 5 1 with
          status := { ClusterStatus.empty with phase := .running } }]
      ).InStep := by
  refine sts_follows_spec _ _ _ rfl _ ⟨?_, trivial, ?_, trivial⟩
  · intro h
    cases h
  · intro _
    decide +kernel

/-- The spec is edited while no operator runs. The next process finds the
resource in phase `Running`, takes the new spec as its own and never
resizes the StatefulSet. -/
theorem restarted_out_of_step :
    ¬ ((World.fresh (.sized 3 1)).run (.deciding fun _ => true) .obliging
      (thenRestarted (.deciding fun _ => true) .obliging
        (World.fresh (.sized 3 1)) [.restart (.sized 3 1)]
        (ReplicatedStatefulSet.sized 5 1).spec)).InStep := by
  intro h
  have hsts := h (by decide +kernel)
  revert hsts
  decide +kernel

-- ================================================ scaling up from zero

/-- The last change of the replica count to zero. -/
def lastToZero (resizes : List Resize) : Option Resize :=
  resizes.find? fun r => r.new == 0

/-- Every change from zero is to at least the `RestoreReplicas` the loop
had at the last change to zero before it. -/
def World.ScaledUpSafely (w : World) : Prop :=
  ∀ newer r older, w.resizes = newer ++ r :: older → r.old = 0 →
    0 < r.new → ∀ z, lastToZero older = some z →
      z.restoreReplicas ≤ r.new

/-- While the StatefulSet is at zero, no poll lowers the loop's
`RestoreReplicas` and no event or new process brings a lower one. The number
an event brings is looked at in 32 bits. -/
def World.keepsRestore (w : World) : WorldStep → Prop
  | .timer _ poll => w.sts = some 0 → poll.noted w.sys.spec = true →
      w.sys.c.status.restoreReplicas ≤ w.sys.spec.getNumReplicas
  | .event rss => w.sts = some 0 →
      w.sys.c.status.restoreReplicas ≤ int32 rss.status.restoreReplicas
  | .restart rss => w.sts = some 0 →
      w.sys.c.status.restoreReplicas ≤ rss.status.restoreReplicas

/-- What steps that meet this keep: while the StatefulSet is at zero, the loop's
`RestoreReplicas` is at least what it was when it came there. -/
structure World.RestoreKept (w : World) : Prop where
  safe : w.ScaledUpSafely
  kept : w.sts = some 0 → ∀ z, lastToZero w.resizes = some z →
    z.restoreReplicas ≤ w.sys.c.status.restoreReplicas
  fresh : w.sts = none → w.resizes = []

namespace World.RestoreKept

variable {w w' : World}

/-- A step that leaves the StatefulSet alone and does not lower
`RestoreReplicas` while it is at zero. -/
theorem of_kept (hw : w.RestoreKept) (hsts : w'.sts = w.sts)
    (hres : w'.resizes = w.resizes)
    (hle : w.sts = some 0 → w.sys.c.status.restoreReplicas
      ≤ w'.sys.c.status.restoreReplicas) : w'.RestoreKept := by
  refine ⟨?_, ?_, ?_⟩
  · unfold ScaledUpSafely
    rw [hres]
    exact hw.safe
  · rw [hsts, hres]
    intro hzero z hz
    exact Int.le_trans (hw.kept hzero z hz) (hle hzero)
  · rw [hsts, hres]
    exact hw.fresh

/-- A change of the replica count that, if it is from zero, is to at least
the loop's `RestoreReplicas`. -/
theorem of_resize (hw : w.RestoreKept) {old new : Int}
    (hold : w.sts = some old) (hnew : w'.sts = some new)
    (hres : w'.resizes
      = ⟨old, new, w.sys.c.status.restoreReplicas⟩ :: w.resizes)
    (hrestore : w'.sys.c.status.restoreReplicas
      = w.sys.c.status.restoreReplicas)
    (hle : old = 0 → w.sys.c.status.restoreReplicas ≤ new) :
    w'.RestoreKept := by
  refine ⟨?_, ?_, ?_⟩
  · unfold ScaledUpSafely
    rw [hres]
    intro newer r older hsplit hzero hpos z hz
    cases newer with
    | nil =>
        obtain ⟨hr, hrest⟩ := List.cons.inj hsplit
        subst hr hrest
        have hbefore := hw.kept (hold.trans (congrArg some hzero)) z hz
        exact Int.le_trans hbefore (hle hzero)
    | cons r₀ newer =>
        exact hw.safe newer r older (List.cons.inj hsplit).2 hzero hpos z hz
  · rw [hnew, hres, hrestore]
    intro hzero z hz
    have hnew0 : new = 0 := Option.some.inj hzero
    unfold lastToZero at hz
    rw [List.find?_cons_of_pos (by simp [hnew0])] at hz
    cases hz
    exact Int.le_refl _
  · rw [hnew]
    intro h
    cases h

end World.RestoreKept

theorem WorldStep.step_restoreKept {w : World} {i : WorldStep}
    (hi : w.keepsRestore i) (hw : w.RestoreKept) :
    (i.step env kube w).RestoreKept := by
  cases i with
  | timer fuel poll =>
      unfold WorldStep.step
      dsimp only
      split
      · obtain ⟨_, _, hrestore⟩ := tick_steady env fuel poll w.sys
        refine hw.of_kept rfl rfl ?_
        intro hzero
        show _ ≤ (tick env fuel poll w.sys).state.c.status.restoreReplicas
        rcases hrestore with hsame | ⟨hnoted, hcount⟩
        · exact Int.le_of_eq hsame.symm
        · rw [hcount]
          exact hi hzero hnoted
      · exact hw
  | event rss =>
      unfold WorldStep.step
      dsimp only
      split
      · rcases eventBranch_spec env kube rss w with
          h | ⟨_, hrestore, hsts, hres⟩
        · rcases h.sts with ⟨hsts, hres, _⟩
            | ⟨_, old, hold, hnew, hres, hguard⟩
          · exact hw.of_kept hsts hres (fun _ => Int.le_of_eq h.restore.symm)
          · refine hw.of_resize hold hnew hres h.restore ?_
            intro hzero
            exact Int.le_trans (hi (hold.trans (congrArg some hzero)))
              (hguard hzero)
        · exact hw.of_kept hsts hres (fun _ => Int.le_of_eq hrestore.symm)
      · exact hw
  | restart rss =>
      have h := launch_spec env kube rss w
      rcases h.sts with hsts | hnone
      · refine hw.of_kept hsts h.resizes ?_
        intro hzero
        show _ ≤ (launch env kube rss w).sys.c.status.restoreReplicas
        rw [h.restore]
        exact hi hzero
      · have hempty : (launch env kube rss w).resizes = [] :=
          h.resizes.trans (hw.fresh hnone)
        refine ⟨?_, ?_, fun _ => hempty⟩
        · intro newer r older hsplit
          rw [WorldStep.step, hempty] at hsplit
          cases newer <;> cases hsplit
        · intro _ z hz
          rw [WorldStep.step, hempty] at hz
          cases hz

/-- Scaling up from zero goes to at least the number of replicas noted
before, in every run in which nothing lowers that number while the
StatefulSet is at zero. -/
theorem restore_guards_scale_up (rss : ReplicatedStatefulSet)
    (steps : List WorldStep)
    (hsteps : EveryStep env kube World.keepsRestore (World.fresh rss)
      steps) :
    ((World.fresh rss).run env kube steps).ScaledUpSafely := by
  have hinit : (World.fresh rss).RestoreKept := by
    refine ⟨?_, (fun h => by cases h), fun _ => rfl⟩
    intro newer r older hsplit
    cases newer <;> cases hsplit
  refine (EveryStep.invariant env kube ?_ steps _ hsteps hinit).safe
  intro w i hi hw
  exact WorldStep.step_restoreKept env kube hi hw

/-- Four pods. -/
def PodList.four : PodList where
  pods := [⟨"db-0", "default"⟩, ⟨"db-1", "default"⟩, ⟨"db-2", "default"⟩,
    ⟨"db-3", "default"⟩]
  nodup := by decide

/-- Four pods, down to zero, and up to five. -/
theorem restore_guards_scale_up_five :
    ((World.fresh (.sized 4 1)).run (.deciding fun _ => true) .obliging
      [.restart (.sized 4 1), .timer 20 (.pods .four []),
        .event (.sized 0 1),
        .event { ReplicatedStatefulSet.sized 5 1 with
          status := { ClusterStatus.empty with restoreReplicas := 4 } }]
      ).ScaledUpSafely := by
  refine restore_guards_scale_up _ _ _ _ ⟨?_, ?_, ?_, ?_, trivial⟩
  · intro h
    cases h
  · intro h
    revert h
    decide +kernel
  · intro h
    revert h
    decide +kernel
  · intro _
    decide +kernel

/-- Scale down from four to zero, ask for three, poll while three pods are
still there, and ask for two primaries among the three. -/
def lateStopSteps : List WorldStep :=
  let edit := thenEdited (.deciding fun _ => true) .obliging
    (World.fresh (.sized 4 1))
  let steps : List WorldStep :=
    [.restart (.sized 4 1), .timer 20 (.pods .four [])]
  let steps := edit steps (ReplicatedStatefulSet.sized 0 1).spec
  let steps := edit steps (ReplicatedStatefulSet.sized 3 1).spec
  let steps := steps ++ [.timer 20 (.pods .three [])]
  edit steps (ReplicatedStatefulSet.sized 3 2).spec

/-- A cluster of four is scaled down to zero. A resize to three is refused
while three pods are still being stopped; the next poll takes them for
all the pods there were, and a resize to three with another number of
primaries goes through. -/
theorem scaled_up_below_restore :
    ¬ ((World.fresh (.sized 4 1)).run (.deciding fun _ => true) .obliging
      lateStopSteps).ScaledUpSafely := by
  intro h
  have hle := h [] ⟨0, 3, 3⟩ [⟨4, 0, 4⟩] (by decide +kernel) rfl (by decide)
    ⟨4, 0, 4⟩ rfl
  revert hle
  decide

end RssOperator
