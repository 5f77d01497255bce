/-
The steps of a process outside the timer: what each part of them keeps.

# Frames

`Frame` does this for a pass of the timer. A `Modify` event and the start
of a process are made of less: the status is assigned to and written, and
while a failure is reported the resource may be fetched. A relation that
respects those (`WorldFrame`) is respected by the whole step, from the
state in which the resource that comes with it has been taken.

# Members

Neither of the two touches the members: an event leaves them alone, and a
new process knows of none. So what every move of a pass keeps of the
members holds in every run (`WorldStep.step_members`).
-/
import RssOperator.Proofs.Listing
import RssOperator.Proofs.Refinement
import RssOperator.Proofs.Scaling

namespace RssOperator

variable {env : Env} {kube : Kube} {R : Sys → Sys → Prop}

/-- The state in which an event is handled: its resource has been
taken. -/
def Sys.took (rss : ReplicatedStatefulSet) (s : Sys) : Sys :=
  s.mapCluster fun c => { c with rss := rss, shared := false }

/-- `R` is respected by whatever a process does outside the timer. -/
structure WorldFrame (env : Env) (R : Sys → Sys → Prop) : Prop where
  refl : ∀ s, R s s
  trans : ∀ {s₁ s₂ s₃}, R s₁ s₂ → R s₂ s₃ → R s₁ s₃
  mapStatus : ∀ f s, R s (s.mapStatus f)
  updateCRStatus : ∀ caller s, R s (updateCRStatus env caller s).2
  missed : ∀ e s, env.get s.calls = .error e →
    R s (s.called (.get (some e)))
  fetched : ∀ rss s, env.get s.calls = .ok rss →
    R s ((s.took rss).called (.get none))

theorem patchSts_sys (answer : UpdateAnswer) (name : String)
    (old new : Int) (w : World) :
    (patchSts answer name old new w).2.sys = w.sys := by
  rcases patchSts_cases answer name old new w with
    ⟨⟨n, h⟩, -⟩ | ⟨-, -, n, h⟩
  · rw [h]
  · rw [h]

namespace WorldFrame

/-- The status is assigned to, and written. -/
theorem write (F : WorldFrame env R) (f : ClusterStatus → ClusterStatus)
    (caller : String) (s : Sys) :
    R s (RssOperator.updateCRStatus env caller (s.mapStatus f)).2 :=
  F.trans (F.mapStatus f s) (F.updateCRStatus caller _)

theorem reportFailed (F : WorldFrame env R) (s : Sys) :
    R s (reportFailed env s).2 := by
  have hwrite := F.write (fun st => { st with phase := .failed }) "failed" s
  unfold RssOperator.reportFailed
  dsimp only
  split
  · next s₁ h => rw [h] at hwrite; exact hwrite
  · next err s₁ h =>
    rw [h] at hwrite
    split
    · exact hwrite
    · split
      · exact hwrite
      · split
        · next e hget => exact F.trans hwrite (F.missed e s₁ hget)
        · next rss hget => exact F.trans hwrite (F.fetched rss s₁ hget)

theorem reportFailedStatus (F : WorldFrame env R) (s : Sys) :
    R s (reportFailedStatus env s).2 := by
  have hretry : ∀ (n : Nat) (s : Sys),
      R s (retry (RssOperator.reportFailed env) n s).2 := by
    intro n
    induction n with
    | zero => intro s; exact F.reportFailed s
    | succ n ih =>
        intro s
        have hone := F.reportFailed s
        rw [retry]
        split
        · next s₁ h => rw [h] at hone; exact hone
        · next s₁ h =>
          rw [h] at hone
          exact F.trans hone (ih s₁)
  exact hretry _ s

theorem acceptReplicas (F : WorldFrame env R) (s : Sys) :
    R s (acceptReplicas env s) := by
  unfold RssOperator.acceptReplicas
  split
  · exact F.trans (F.mapStatus (fun st => { st with phase := .running }) s)
      (F.write _ "modify" _)
  · exact F.refl s

theorem handleUpdateEvent (F : WorldFrame env R)
    (rss : ReplicatedStatefulSet) (w : World) :
    R (w.sys.took rss) (handleUpdateEvent env kube rss w).2.sys := by
  unfold RssOperator.handleUpdateEvent
  dsimp only
  split
  · exact F.refl _
  · split
    · exact F.refl _
    · exact F.refl _
    · split
      · rw [patchSts_sys]
        exact F.refl _
      · split
        · exact F.trans (F.mapStatus (fun st => { st with phase := .paused })
            _) (F.write _ "modify" _)
        · rw [patchSts_sys]
          exact F.acceptReplicas _

theorem eventBranch (F : WorldFrame env R) (rss : ReplicatedStatefulSet)
    (w : World) :
    R (w.sys.took rss) (eventBranch env kube rss w).sys := by
  have hevent := @handleUpdateEvent env kube R F rss w
  unfold RssOperator.eventBranch
  split
  · next w₁ h => rw [h] at hevent; exact hevent
  · next err w₁ h =>
    rw [h] at hevent
    have hreason : R w₁.sys (w₁.sys.setReason err.text) :=
      F.mapStatus (fun st => { st with reason := err.text }) _
    exact F.trans hevent (F.trans hreason (F.reportFailedStatus _))

theorem create (F : WorldFrame env R) (w : World) :
    R w.sys (create env kube w).2.sys := by
  have hwrite := F.write (fun st => { st with phase := .creating }) "create"
    w.sys
  unfold RssOperator.create
  dsimp only
  split
  · next err s h => exact (congrArg (R w.sys ·.2) h).mp hwrite
  · next s h =>
    have hwrite : R w.sys s := (congrArg (R w.sys ·.2) h).mp hwrite
    split <;> exact hwrite

theorem setup (F : WorldFrame env R) (w : World) :
    R w.sys (setup env kube w).2.sys := by
  unfold RssOperator.setup
  dsimp only
  split
  · split
    · split
      · exact F.refl _
      · exact F.create w
    · exact F.create w
  · exact F.refl _
  · split
    · split <;> exact F.refl _
    · exact F.refl _
  · exact F.refl _

theorem launch (F : WorldFrame env R) (rss : ReplicatedStatefulSet)
    (w : World) : R (w.handed rss).sys (launch env kube rss w).sys := by
  have hsetup := @setup env kube R F (w.handed rss)
  unfold RssOperator.launch
  split
  · next err w₁ h =>
    rw [h] at hsetup
    dsimp only
    split
    · exact hsetup
    · have hreason : R w₁.sys (w₁.sys.setReason err.text) :=
        F.mapStatus (fun st => { st with reason := err.text }) _
      exact F.trans hsetup (F.trans hreason
        (F.write (fun st => { st with phase := .failed }) "setup" _))
  · next w₁ h =>
    rw [h] at hsetup
    exact F.trans hsetup
      (F.write (fun st => { st with phase := .running }) "initial" _)

end WorldFrame

-- ============================================================== members

/-- The members are left alone. -/
def SamePeers (s s' : Sys) : Prop := s'.c.peers = s.c.peers

theorem SamePeers.frame (env : Env) : WorldFrame env SamePeers where
  refl _ := rfl
  trans h h' := h'.trans h
  mapStatus _ _ := rfl
  updateCRStatus caller s := (updateCRStatus_peers caller s).1
  missed _ _ _ := rfl
  fetched _ _ _ := rfl

/-- What holds of no members and is kept by every move of a pass, every
step of a process keeps. -/
theorem WorldStep.step_members {I : MemberSet → Prop} (hempty : I ∅)
    (hmove : ∀ s s', I s.members → Move env s s' → I s'.members)
    {w : World} (hw : I w.sys.members) (i : WorldStep) :
    I (i.step env kube w).sys.members := by
  have hpeers : ∀ {s s' : Sys}, SamePeers s s' → I s.members →
      I s'.members := by
    intro s s' h hs
    unfold Sys.members
    rw [h]
    exact hs
  cases i with
  | timer fuel poll =>
      unfold WorldStep.step
      dsimp only
      split
      · exact Moves.keep hmove (tick_moves fuel poll w.sys) hw
      · exact hw
  | event rss =>
      unfold WorldStep.step
      dsimp only
      split
      · exact hpeers ((SamePeers.frame env).eventBranch rss w) hw
      · exact hw
  | restart rss =>
      exact hpeers ((SamePeers.frame env).launch rss w) hempty

/-- The members are sound in every run. -/
theorem WorldStep.step_sound {w : World} (hw : w.sys.members.Sound)
    (i : WorldStep) : (i.step env kube w).sys.members.Sound :=
  step_members MemberSet.sound_empty (fun _ _ hs hmove => hmove.sound hs) hw
    i

/-- What every step keeps holds after every run. -/
theorem World.run_keeps {I : World → Prop}
    (hstep : ∀ w i, I w → I (WorldStep.step env kube w i))
    (steps : List WorldStep) :
    ∀ {w : World}, I w → I (w.run env kube steps) := by
  induction steps with
  | nil => intro w hw; exact hw
  | cons i steps ih => intro w hw; exact ih (hstep w i hw)

/-- The rule for conditions that agree on every step of a run, by what
every step keeps. -/
theorem EveryStep.congr {I : World → Prop} {C D : World → WorldStep → Prop}
    (hstep : ∀ w i, I w → I (WorldStep.step env kube w i))
    (hCD : ∀ w i, I w → (C w i ↔ D w i)) :
    ∀ (steps : List WorldStep) (w : World), I w →
      (EveryStep env kube C w steps ↔ EveryStep env kube D w steps) := by
  intro steps
  induction steps with
  | nil => intro w _; exact Iff.rfl
  | cons i is ih =>
      intro w hw
      exact and_congr (hCD w i hw) (ih _ (hstep w i hw))

end RssOperator
