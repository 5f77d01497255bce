/-
Hands off a paused cluster.

# Where `Paused` is read

The timer branch looks at `Spec.Paused` before anything else and leaves a
paused cluster alone. The event branch does not look at it: an event that
changes the number of replicas or primaries is handed on to the
StatefulSet, paused or not (`TODO: Handle "Paused"` in the source). A
`Patch` request is sent even when the StatefulSet already has the number
of replicas, so a change of the primaries alone is enough.

`reachesPatch` says, from the event and the state it is handled in,
whether the handler gets that far. Every run keeps its hands off a paused
cluster exactly if no event that is handled while it is paused, and leaves
it paused, does (`paused_hands_off_iff`).
-/
import RssOperator.Proofs.Phases

namespace RssOperator

variable {env : Env} {kube : Kube} {w w' : World}

-- ========================================================= hands off

/-- A command, a deletion or a patch of a label. -/
def Event.acts : Event → Bool
  | .exec .. | .delete .. | .tag .. => true
  | .update .. | .get .. => false

/-- Nothing is done to a pod and the StatefulSet is not patched. -/
structure HandsOff (w w' : World) : Prop where
  pods : ∀ e ∈ w.sys.since w'.sys, e.acts = false
  sts : w'.patches = w.patches

theorem HandsOff.of_logs {P : Event → Prop}
    (hlogs : Logs P w.sys w'.sys) (hP : ∀ e, P e → e.acts = false)
    (hsts : w'.patches = w.patches) : HandsOff w w' :=
  ⟨fun e he => hP e (hlogs.mem_since e he), hsts⟩

/-- A step of the loop that is taken on a paused cluster and leaves it
paused. -/
def World.paused (w : World) : WorldStep → Bool
  | .timer .. => w.alive && w.sys.spec.paused
  | .event rss => w.alive && w.sys.spec.paused && rss.spec.paused
  | .restart _ => false

-- ============================================================ the patch

/-- The handler of the event sends a `Patch` request: a count of the spec
differs from the one in memory, the StatefulSet can be read, the new count
is not refused, and the patch can be made. -/
def reachesPatch (kube : Kube) (rss : ReplicatedStatefulSet) (w : World) :
    Bool :=
  !isSpecEqual rss.spec w.sys.spec
    && (kube.update w.requests).get.isNone
    && (kube.update w.requests).patchdata.isNone
    && match w.sts with
      | none => false
      | some replicas => replicas == rss.spec.getNumReplicas
          || !(replicas == 0
            && decide (rss.spec.getNumReplicas
              < int32 rss.status.restoreReplicas))

theorem patchSts_patches (answer : UpdateAnswer) (name : String)
    (old new : Int) (w : World) :
    (patchSts answer name old new w).2.patches
      = w.patches + if answer.patchdata.isNone then 1 else 0 := by
  unfold patchSts
  split
  · next cause h => rw [h]; rfl
  · next h =>
    rw [h]
    dsimp only
    split
    · rfl
    · split <;> rfl

theorem handleUpdateEvent_patches (rss : ReplicatedStatefulSet)
    (w : World) :
    (handleUpdateEvent env kube rss w).2.patches
      = w.patches + if reachesPatch kube rss w then 1 else 0 := by
  unfold handleUpdateEvent reachesPatch
  dsimp only
  cases hspec : isSpecEqual rss.spec w.sys.spec with
  | true => simp
  | false =>
      rw [if_neg (by simp)]
      cases hget : (kube.update w.requests).get with
      | some err => simp
      | none =>
          cases hsts : w.sts with
          | none => simp
          | some replicas =>
              dsimp only
              by_cases hsame : replicas = rss.spec.getNumReplicas
              · rw [if_pos hsame, patchSts_patches]
                simp [hsame]
              · rw [if_neg hsame]
                by_cases hlow : replicas = 0
                    ∧ rss.spec.getNumReplicas
                      < int32 rss.status.restoreReplicas
                · rw [if_pos hlow]
                  have hzero : ¬ 0 = rss.spec.getNumReplicas :=
                    hlow.1 ▸ hsame
                  show w.patches = _
                  simp [hlow, hzero]
                · rw [if_neg hlow, patchSts_patches]
                  have hkept : (replicas == 0 && decide
                      (rss.spec.getNumReplicas
                        < int32 rss.status.restoreReplicas)) = false := by
                    rw [Bool.eq_false_iff]
                    simpa using hlow
                  show w.patches + _ = _
                  simp [hkept]

-- =============================================================== steps

/-- A pass over a paused cluster. -/
theorem tick_paused (fuel : Nat) (poll : Poll) (s : Sys)
    (hpaused : s.spec.paused = true) :
    (tick env fuel poll s).state.trace = s.trace := by
  unfold tick
  rw [if_pos hpaused]
  rfl

theorem timer_handsOff (fuel : Nat) (poll : Poll)
    (hpaused : w.sys.spec.paused = true) :
    HandsOff w (timerBranch env fuel poll w) := by
  have htrace : Logs (fun _ => False) w.sys
      (timerBranch env fuel poll w).sys :=
    .same (tick_paused fuel poll w.sys hpaused)
  exact .of_logs htrace (fun _ h => h.elim) rfl

/-- An event never touches a pod, and it patches the StatefulSet if it
gets that far. -/
theorem event_handsOff_iff (rss : ReplicatedStatefulSet) (w : World) :
    HandsOff w (eventBranch env kube rss w)
      ↔ reachesPatch kube rss w = false := by
  have hpatches := @handleUpdateEvent_patches env kube
    rss w
  have hlogs := (@handleUpdateEvent_phase env kube
    rss w).2
  have hset : ∀ e : Event, e.setsPhase → e.acts = false := by
    intro e he
    obtain ⟨st, err, heq, -⟩ := he
    rw [heq]
    rfl
  have hreports : ∀ e : Event, e.reportsFailure → e.acts = false := by
    intro e he
    rcases he with ⟨st, err, heq, -⟩ | ⟨err, heq⟩
    · rw [heq]
      rfl
    · rw [heq]
      rfl
  -- the pods are left alone either way
  have hbranch : Logs (fun e => e.acts = false) w.sys
        (eventBranch env kube rss w).sys
      ∧ (eventBranch env kube rss w).patches
        = (handleUpdateEvent env kube rss w).2.patches := by
    unfold eventBranch
    split
    · next w₁ h =>
      rw [h] at hlogs ⊢
      exact ⟨hlogs.mono hset, rfl⟩
    · next err w₁ h =>
      rw [h] at hlogs ⊢
      have hreport := @reportFailedStatus_logs env
        (w₁.sys.setReason err.text)
      refine ⟨(hlogs.mono hset).trans ?_, rfl⟩
      exact (hreport.mono hreports : Logs _ w₁.sys _)
  constructor
  · intro h
    have hsame := h.sts
    rw [hbranch.2, hpatches] at hsame
    cases hreach : reachesPatch kube rss w with
    | false => rfl
    | true =>
        rw [hreach] at hsame
        simp at hsame
  · intro hreach
    refine .of_logs hbranch.1 (fun _ h => h) ?_
    rw [hbranch.2, hpatches, hreach]
    rfl

-- ================================================================ runs

/-- The event does not get as far as the patch. -/
def World.leavesSts (kube : Kube) (w : World) : WorldStep → Prop
  | .timer .. | .restart _ => True
  | .event rss => reachesPatch kube rss w = false

theorem step_handsOff_iff (w : World) (i : WorldStep)
    (hpaused : w.paused i = true) :
    HandsOff w (i.step env kube w) ↔ w.leavesSts kube i := by
  cases i with
  | timer fuel poll =>
      obtain ⟨halive, hspec⟩ := Bool.and_eq_true_iff.mp hpaused
      unfold WorldStep.step
      dsimp only
      rw [if_pos halive]
      exact iff_of_true (timer_handsOff fuel poll hspec) trivial
  | event rss =>
      obtain ⟨hpaused, -⟩ := Bool.and_eq_true_iff.mp hpaused
      obtain ⟨halive, -⟩ := Bool.and_eq_true_iff.mp hpaused
      unfold WorldStep.step
      dsimp only
      rw [if_pos halive]
      exact event_handsOff_iff rss w
  | restart rss => cases hpaused

/-- In every run, every step of the loop on a paused cluster that leaves
it paused keeps its hands off, exactly if no event handled in such a step
gets as far as the patch of the StatefulSet. -/
theorem paused_hands_off_iff (env : Env) (kube : Kube)
    (rss : ReplicatedStatefulSet) (steps : List WorldStep) :
    EveryStep env kube (fun w i => w.paused i = true →
        HandsOff w (i.step env kube w)) (World.fresh rss) steps
      ↔ EveryStep env kube (fun w i => w.paused i = true →
        w.leavesSts kube i) (World.fresh rss) steps := by
  refine EveryStep.congr (I := fun _ => True) (fun _ _ _ => trivial) ?_
    steps _ trivial
  intro w i _
  exact forall_congr' fun hpaused => step_handsOff_iff w i hpaused

/-- A resource that asks for `replicas` pods and is paused. -/
def ReplicatedStatefulSet.sizedPaused (replicas primaries : Int) :
    ReplicatedStatefulSet :=
  { ReplicatedStatefulSet.sized replicas primaries with
    spec := { (ReplicatedStatefulSet.sized replicas primaries).spec with
      paused := true } }

/-- A cluster of three is paused, and resized to five while it is. The
StatefulSet is patched. -/
theorem paused_resized :
    let w := (World.fresh (.sized 3 1)).run (.deciding fun _ => true)
      .obliging [.restart (.sized 3 1), .event (.sizedPaused 3 1)]
    let w' := eventBranch (.deciding fun _ => true) .obliging
      (.sizedPaused 5 1) w
    w.paused (.event (.sizedPaused 5 1)) = true ∧ w.sts = some 3
      ∧ w'.sts = some 5 ∧ ¬ HandsOff w w' := by
  intro w w'
  refine ⟨by decide +kernel, by decide +kernel, by decide +kernel, ?_⟩
  intro h
  have hreach := (event_handsOff_iff _ _).mp h
  revert hreach
  decide +kernel

end RssOperator
