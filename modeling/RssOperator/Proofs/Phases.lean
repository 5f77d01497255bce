/-
The phases that reach the API server, and the phases a new process takes.

# What is written

A pass of the timer branch writes the phase it finds (`Phased.tick`). The
other phases come from the few places that set one: `create` writes
`Creating`, `run` writes `Running`, a replica count that is refused writes
`Paused` and one that is accepted after that `Running`, and whatever ends
the loop writes `Failed`. No process ever writes the empty phase
(`World.Phased`).

# What is read

`setup` takes a resource in the empty phase, which it creates, and one in
phase `Running`. Of the phases the loop writes while it is alive that
leaves out `Paused`: a process that is started while the replica count is
refused reports an unexpected phase and marks the cluster as failed
(`paused_not_resumed`). `resumes_iff` says that this is the only case.
-/
import RssOperator.Proofs.Conditions
import RssOperator.Proofs.Worlds

namespace RssOperator

variable {env : Env} {kube : Kube} {s s' : Sys} {w : World}

-- ================================================= what is put on record

/-- Only entries with `P` have been added to the trace. -/
def Logs (P : Event → Prop) (s s' : Sys) : Prop :=
  ∃ es, s'.trace = es ++ s.trace ∧ ∀ e ∈ es, P e

namespace Logs

variable {P Q : Event → Prop} {s₁ s₂ s₃ : Sys}

theorem same (h : s'.trace = s.trace) : Logs P s s' :=
  ⟨[], h, by simp⟩

theorem trans (h : Logs P s₁ s₂) (h' : Logs P s₂ s₃) : Logs P s₁ s₃ := by
  obtain ⟨es, htrace, hall⟩ := h
  obtain ⟨es', htrace', hall'⟩ := h'
  refine ⟨es' ++ es, ?_, ?_⟩
  · rw [htrace', htrace, List.append_assoc]
  · intro e he
    rcases List.mem_append.mp he with he | he
    · exact hall' e he
    · exact hall e he

theorem mono (h : Logs P s s') (hPQ : ∀ e, P e → Q e) : Logs Q s s' := by
  obtain ⟨es, htrace, hall⟩ := h
  exact ⟨es, htrace, fun e he => hPQ e (hall e he)⟩

theorem mem_since (h : Logs P s s') : ∀ e ∈ s.since s', P e := by
  obtain ⟨es, htrace, hall⟩ := h
  rw [Sys.since_eq htrace]
  exact hall

theorem mem_trace (h : Logs P s s') :
    ∀ e ∈ s'.trace, e ∈ s.trace ∨ P e := by
  obtain ⟨es, htrace, hall⟩ := h
  intro e he
  rw [htrace] at he
  rcases List.mem_append.mp he with he | he
  · exact Or.inr (hall e he)
  · exact Or.inl he

end Logs

/-- An update of the resource, with a status that has `P`. -/
def Event.updates (P : ClusterStatus → Prop) (e : Event) : Prop :=
  ∃ st err, e = .update st err ∧ P st

theorem Event.updates.mono {P Q : ClusterStatus → Prop}
    (hPQ : ∀ st, P st → Q st) {e : Event} (h : e.updates P) :
    e.updates Q := by
  obtain ⟨st, err, heq, hst⟩ := h
  exact ⟨st, err, heq, hPQ st hst⟩

theorem Event.updates_iff {P : ClusterStatus → Prop} {st : ClusterStatus}
    {err : Option ApiErr} : (Event.update st err).updates P ↔ P st := by
  constructor
  · intro h
    obtain ⟨st', err', heq, hst⟩ := h
    injection heq with hst' _
    rw [hst']
    exact hst
  · intro h
    exact ⟨st, err, rfl, h⟩

theorem updateCRStatus_logs (caller : String) (s : Sys) :
    Logs (Event.updates (· = s.c.status)) s
      (updateCRStatus env caller s).2 := by
  by_cases heq : s.c.rss.status = s.c.status
  · rw [updateCRStatus_equal caller heq]
    exact .same rfl
  · rw [updateCRStatus_differ caller heq]
    refine ⟨[_], rfl, ?_⟩
    intro e he
    rw [List.mem_singleton] at he
    exact ⟨_, _, he, rfl⟩

/-- The same for a property of the status. -/
theorem updateCRStatus_logs_of {P : ClusterStatus → Prop} (caller : String)
    {s : Sys} (hs : P s.c.status) :
    Logs (Event.updates P) s (updateCRStatus env caller s).2 := by
  refine (updateCRStatus_logs caller s).mono ?_
  intro e he
  exact he.mono fun st hst => hst ▸ hs

/-- What a report of the failure puts on record: updates in phase
`Failed`, and reads of the resource. -/
def Event.reportsFailure (e : Event) : Prop :=
  e.updates (·.phase = .failed) ∨ ∃ err, e = .get err

theorem reportFailed_logs (s : Sys) :
    Logs Event.reportsFailure s (reportFailed env s).2 := by
  have hwrite : Logs Event.reportsFailure s (updateCRStatus env "failed"
      (s.mapStatus fun st => { st with phase := .failed })).2 := by
    have h : Logs (Event.updates (·.phase = .failed)) (s.mapStatus
        fun st => { st with phase := .failed }) (updateCRStatus env "failed"
          (s.mapStatus fun st => { st with phase := .failed })).2 :=
      updateCRStatus_logs_of "failed" rfl
    exact (h.mono fun _ => Or.inl : Logs _ s _)
  have hget : ∀ (s₁ : Sys) err,
      Logs Event.reportsFailure s₁ (s₁.called (.get err)) := by
    intro s₁ err
    refine ⟨[_], rfl, ?_⟩
    intro e he
    rw [List.mem_singleton] at he
    exact Or.inr ⟨err, he⟩
  unfold reportFailed
  dsimp only
  split
  · next s₁ h => rw [h] at hwrite; exact hwrite
  · next err s₁ h =>
    rw [h] at hwrite
    split
    · exact hwrite
    · split
      · exact hwrite
      · split
        · exact hwrite.trans (hget _ _)
        · exact hwrite.trans (hget (s₁.mapCluster _) none)

theorem reportFailedStatus_logs (s : Sys) :
    Logs Event.reportsFailure s (reportFailedStatus env s).2 := by
  have hretry : ∀ (n : Nat) (s : Sys),
      Logs Event.reportsFailure s (retry (reportFailed env) n s).2 := by
    intro n
    induction n with
    | zero => intro s; exact reportFailed_logs s
    | succ n ih =>
        intro s
        have hone := @reportFailed_logs env s
        rw [retry]
        split
        · next s₁ h => rw [h] at hone; exact hone
        · next s₁ h =>
          rw [h] at hone
          exact hone.trans (ih s₁)
  exact hretry _ s

-- ============================================================= a pass

/-- The phase is kept, and it is the phase of every update. -/
structure Phased (s s' : Sys) : Prop where
  phase : s'.c.status.phase = s.c.status.phase
  logs : Logs (fun e => ∀ st err, e = .update st err →
    st.phase = s.c.status.phase) s s'

namespace Phased

theorem of_trace (hphase : s'.c.status.phase = s.c.status.phase)
    (htrace : s'.trace = s.trace) : Phased s s' :=
  ⟨hphase, .same htrace⟩

/-- An entry that is no update. -/
theorem of_entry {e : Event} (hphase : s'.c.status.phase = s.c.status.phase)
    (htrace : s'.trace = e :: s.trace)
    (he : ∀ st err, e ≠ .update st err) : Phased s s' := by
  refine ⟨hphase, [e], htrace, ?_⟩
  intro e' he' st err heq
  rw [List.mem_singleton.mp he'] at heq
  exact absurd heq (he st err)

theorem trans {s₁ s₂ s₃ : Sys} (h : Phased s₁ s₂) (h' : Phased s₂ s₃) :
    Phased s₁ s₃ := by
  refine ⟨h'.phase.trans h.phase, h.logs.trans (h'.logs.mono ?_)⟩
  intro e he st err heq
  exact (he st err heq).trans h.phase

theorem updateCRStatus (caller : String) (s : Sys) :
    Phased s (updateCRStatus env caller s).2 := by
  refine ⟨by rw [updateCRStatus_status],
    (updateCRStatus_logs caller s).mono ?_⟩
  intro e he st err heq
  rw [heq] at he
  rw [Event.updates_iff.mp he]

theorem of_conditions {f : Cluster → Cluster} (s : Sys)
    (hst : ∃ cs, (f s.c).status = { s.c.status with conditions := cs }) :
    Phased s (s.mapCluster f) := by
  obtain ⟨cs, hcs⟩ := hst
  refine of_trace ?_ rfl
  show (f s.c).status.phase = _
  rw [hcs]

theorem frame (env : Env) : Frame env Phased where
  refl _ := of_trace rfl rfl
  trans := trans
  start _ _ _ _ := of_entry rfl rfl fun _ _ h => by cases h
  stop _ _ _ := of_entry rfl rfl fun _ _ h => by cases h
  sequence _ _ _ := of_entry rfl rfl fun _ _ h => by cases h
  status _ _ _ := of_entry rfl rfl fun _ _ h => by cases h
  update _ _ _ := of_trace rfl rfl
  setPeers _ _ := of_trace rfl rfl
  ranged _ _ := of_trace rfl rfl
  tagged _ _ _ _ := of_entry rfl rfl fun _ _ h => by cases h
  deleted _ _ _ _ := of_entry rfl rfl fun _ _ h => by cases h
  setCondition t reason message s := by
    have h := of_conditions s (Cluster.setClusterCondition_status
      (env.grow s.calls) (newClusterCondition t .isTrue reason message
        (env.now s.calls)) s.c)
    exact ⟨h.phase, h.logs⟩
  clearCondition t s := of_conditions s (Cluster.clearCondition_status t _)
  resized _ _ := of_trace rfl rfl
  updateCRStatus := updateCRStatus

/-- A pass writes the phase it finds. -/
theorem tick (env : Env) (fuel : Nat) (poll : Poll) (s : Sys) :
    Phased s (tick env fuel poll s).state :=
  (frame env).tick (fun _ s hf => of_trace (hf s.c.status) rfl) fuel poll s

end Phased

-- ============================================================== events

/-- An update whose phase is one of those a handled event sets. -/
def Event.setsPhase (e : Event) : Prop :=
  e.updates fun st => st.phase = .paused ∨ st.phase = .running

theorem acceptReplicas_phase (s : Sys) :
    ((acceptReplicas env s).c.status.phase = s.c.status.phase
        ∨ (acceptReplicas env s).c.status.phase = .running)
      ∧ Logs Event.setsPhase s (acceptReplicas env s) := by
  unfold acceptReplicas
  split
  · refine ⟨Or.inr ?_, ?_⟩
    · rw [updateCRStatus_status]
      rfl
    · have hset : ((s.setPhase .running).setReason
          "Replica count is consistent").c.status.phase = .running := rfl
      exact updateCRStatus_logs_of "modify" (Or.inr hset)
  · exact ⟨Or.inl rfl, .same rfl⟩

theorem refuseReplicas_phase (rss : ReplicatedStatefulSet) (s : Sys) :
    (refuseReplicas env rss s).c.status.phase = .paused
      ∧ Logs Event.setsPhase s (refuseReplicas env rss s) := by
  refine ⟨(refuseReplicas_status env rss s).2.1, ?_⟩
  have hset : ((s.setPhase .paused).setReason
      (tooLowMsg rss)).c.status.phase = .paused := rfl
  exact updateCRStatus_logs_of "modify" (Or.inl hset)

/-- The phase a handled event leaves, and what it puts on record. -/
theorem handleUpdateEvent_phase (rss : ReplicatedStatefulSet) (w : World) :
    ((handleUpdateEvent env kube rss w).2.sys.c.status.phase
          = w.sys.c.status.phase
        ∨ (handleUpdateEvent env kube rss w).2.sys.c.status.phase = .paused
        ∨ (handleUpdateEvent env kube rss w).2.sys.c.status.phase
          = .running)
      ∧ Logs Event.setsPhase w.sys
          (handleUpdateEvent env kube rss w).2.sys := by
  unfold handleUpdateEvent
  dsimp only
  split
  · exact ⟨Or.inl rfl, .same rfl⟩
  · split
    · exact ⟨Or.inl rfl, .same rfl⟩
    · exact ⟨Or.inl rfl, .same rfl⟩
    · split
      · rw [patchSts_sys]
        exact ⟨Or.inl rfl, .same rfl⟩
      · split
        · obtain ⟨hphase, hlogs⟩ := @refuseReplicas_phase env rss
            (w.sys.mapCluster fun c => { c with rss := rss, shared := false })
          exact ⟨Or.inr (Or.inl hphase), hlogs⟩
        · rw [patchSts_sys]
          obtain ⟨hphase, hlogs⟩ := @acceptReplicas_phase env
            (w.sys.mapCluster fun c => { c with rss := rss, shared := false })
          exact ⟨hphase.imp_right Or.inr, hlogs⟩

-- ============================================================== starts

/-- `create` and `setup` write no phase but `Creating`. -/
theorem create_logs (w : World) :
    Logs (Event.updates (·.phase = .creating)) w.sys
      (create env kube w).2.sys := by
  have hwrite : Logs (Event.updates (·.phase = .creating))
      (w.sys.setPhase .creating)
      (updateCRStatus env "create" (w.sys.setPhase .creating)).2 :=
    updateCRStatus_logs_of "create" rfl
  unfold create
  dsimp only
  split
  · next err s h => rw [h] at hwrite; exact hwrite
  · next s h =>
    rw [h] at hwrite
    split <;> exact hwrite

theorem setup_logs (w : World) :
    Logs (Event.updates (·.phase = .creating)) w.sys
      (setup env kube w).2.sys := by
  unfold setup
  dsimp only
  split
  · split
    · split
      · exact .same rfl
      · exact create_logs w
    · exact create_logs w
  · exact .same rfl
  · split
    · split <;> exact .same rfl
    · exact .same rfl
  · exact .same rfl

/-- The operator sets this phase. -/
def ClusterPhase.isSet : ClusterPhase → Bool
  | creating | running | paused | failed => true
  | none | other _ => false

/-- What a new process puts on record. A failure to start is reported in
phase `Failed`, a start in phase `Running`. -/
theorem launch_logs (rss : ReplicatedStatefulSet) (w : World) :
    Logs (Event.updates (·.phase.isSet = true)) w.sys
        (launch env kube rss w).sys
      ∧ ((launch env kube rss w).alive = true →
          (launch env kube rss w).sys.c.status.phase = .running) := by
  have hsetup : Logs (Event.updates (·.phase.isSet = true)) w.sys
      (setup env kube (w.handed rss)).2.sys := by
    have h := @setup_logs env kube (w.handed rss)
    refine (h.mono ?_ : Logs _ (w.handed rss).sys _)
    intro e he
    exact he.mono fun st hst => by rw [hst]; rfl
  unfold launch
  split
  · next err w₁ h =>
    rw [h] at hsetup
    refine ⟨?_, fun h => by cases h⟩
    dsimp only
    split
    · exact hsetup
    · refine hsetup.trans ?_
      have hset : ((w₁.sys.setReason err.text).setPhase
          .failed).c.status.phase.isSet = true := rfl
      exact updateCRStatus_logs_of "setup" hset
  · next w₁ h =>
    rw [h] at hsetup
    refine ⟨hsetup.trans ?_, ?_⟩
    · have hset : (w₁.sys.setPhase .running).c.status.phase.isSet = true :=
        rfl
      exact updateCRStatus_logs_of "initial" hset
    · intro _
      show (updateCRStatus env "initial" _).2.c.status.phase = _
      rw [updateCRStatus_status]
      rfl

-- ================================================================ runs

/-- Every update has carried a phase that the operator sets, and a loop that
takes inputs is in one. -/
structure World.Phased (w : World) : Prop where
  alive : w.alive = true → w.sys.c.status.phase.isSet = true
  updates : ∀ st err, .update st err ∈ w.sys.trace → st.phase.isSet = true

/-- The rule: a step that only writes phases the operator sets. -/
theorem World.Phased.of_logs {P : Event → Prop} {w' : World}
    (hw : w.Phased)
    (halive : w'.alive = true → w'.sys.c.status.phase.isSet = true)
    (hlogs : Logs P w.sys w'.sys)
    (hP : ∀ st err, P (.update st err) → st.phase.isSet = true) : w'.Phased := by
  refine ⟨halive, ?_⟩
  intro st err hmem
  rcases hlogs.mem_trace _ hmem with hold | hnew
  · exact hw.updates st err hold
  · exact hP st err hnew

/-- What the event branch writes is a phase of the loop. -/
theorem eventBranch_phased (hw : w.Phased) (halive : w.alive = true)
    (rss : ReplicatedStatefulSet) : (eventBranch env kube rss w).Phased := by
  have h := @handleUpdateEvent_phase env kube rss w
  have hpast := hw.alive halive
  have hset : ∀ st err, (Event.update st err).setsPhase →
      st.phase.isSet = true := by
    intro st err hP
    rcases Event.updates_iff.mp hP with hst | hst
    · rw [hst]
      rfl
    · rw [hst]
      rfl
  unfold eventBranch
  split
  · next w₁ heq =>
    rw [heq] at h
    obtain ⟨hphase, hlogs⟩ := h
    refine hw.of_logs ?_ hlogs hset
    intro _
    change w₁.sys.c.status.phase = _ ∨ w₁.sys.c.status.phase = _
      ∨ w₁.sys.c.status.phase = _ at hphase
    rcases hphase with hsame | hpaused | hrunning
    · rw [hsame]
      exact hpast
    · rw [hpaused]
      rfl
    · rw [hrunning]
      rfl
  · next err w₁ heq =>
    rw [heq] at h
    have hreport := @reportFailedStatus_logs env
      (w₁.sys.setReason err.text)
    have hall : Logs (fun e => e.setsPhase ∨ e.reportsFailure) w.sys
        (reportFailedStatus env (w₁.sys.setReason err.text)).2 :=
      (h.2.mono fun _ => Or.inl).trans
        (hreport.mono (fun _ => Or.inr) : Logs _ w₁.sys _)
    refine hw.of_logs (fun h => by cases h) hall ?_
    intro st err hP
    rcases hP with hP | hP | ⟨err', heq'⟩
    · exact hset st err hP
    · rw [Event.updates_iff.mp hP]
      rfl
    · cases heq'

theorem WorldStep.step_phased {i : WorldStep} (hw : w.Phased) :
    (i.step env kube w).Phased := by
  cases i with
  | timer fuel poll =>
      unfold WorldStep.step
      dsimp only
      split
      · next halive =>
        have h := RssOperator.Phased.tick env fuel poll w.sys
        have hpast := hw.alive halive
        refine hw.of_logs ?_ h.logs ?_
        · intro _
          show (tick env fuel poll w.sys).state.c.status.phase.isSet = true
          rw [h.phase]
          exact hpast
        · intro st err hP
          rw [hP st err rfl]
          exact hpast
      · exact hw
  | event rss =>
      unfold WorldStep.step
      dsimp only
      split
      · next halive => exact eventBranch_phased hw halive rss
      · exact hw
  | restart rss =>
      obtain ⟨hlogs, halive⟩ := @launch_logs env kube rss w
      refine hw.of_logs ?_ hlogs ?_
      · intro h
        show (launch env kube rss w).sys.c.status.phase.isSet = true
        rw [halive h]
        rfl
      · intro st err hP
        exact Event.updates_iff.mp hP

theorem run_phased (rss : ReplicatedStatefulSet) (steps : List WorldStep) :
    ((World.fresh rss).run env kube steps).Phased := by
  refine World.run_keeps (fun _ _ hw => WorldStep.step_phased hw) steps ?_
  refine ⟨?_, ?_⟩
  · intro h
    cases h
  · intro st err h
    cases h

-- ============================================================ restarts

/-- The status of the latest update that was accepted. -/
def lastPersisted : List Event → Option ClusterStatus
  | [] => none
  | .update st none :: _ => some st
  | _ :: trace => lastPersisted trace

theorem mem_of_lastPersisted {st : ClusterStatus} {trace : List Event}
    (h : lastPersisted trace = some st) : .update st none ∈ trace := by
  induction trace with
  | nil => cases h
  | cons e trace ih =>
      unfold lastPersisted at h
      split at h
      · next heq => cases heq
      · next st' rest heq =>
        cases heq
        cases h
        exact List.mem_cons_self
      · next heq =>
        cases heq
        exact List.mem_cons_of_mem _ (ih h)

/-- A new process that is handed `rss` goes on to the loop: `setup`
succeeds and does nothing, so it does not create the cluster, and nothing
is reported as failed. -/
structure Resumes (env : Env) (kube : Kube) (rss : ReplicatedStatefulSet)
    (w : World) : Prop where
  setup : setup env kube (w.handed rss) = (none, w.handed rss)
  alive : (launch env kube rss w).alive = true
  notFailed : (launch env kube rss w).sys.c.status.phase ≠ .failed

/-- `setup` in phase `Running`. -/
theorem setup_running {rss : ReplicatedStatefulSet}
    (hphase : rss.status.phase = .running)
    (htls : isSecureClient rss.spec.tls = true →
      kube.tls w.requests = none) :
    setup env kube (w.handed rss) = (none, w.handed rss) := by
  have hrun : (w.handed rss).sys.c.status.phase = .running := hphase
  unfold setup
  rw [hrun]
  dsimp only
  split
  · next hsecure =>
    have hread : kube.tls (w.handed rss).requests = none := htls hsecure
    rw [hread]
  · rfl

theorem resumes_of_running {rss : ReplicatedStatefulSet}
    (hphase : rss.status.phase = .running)
    (htls : isSecureClient rss.spec.tls = true →
      kube.tls w.requests = none) : Resumes env kube rss w := by
  have hsetup : setup env kube (w.handed rss) = (none, w.handed rss) :=
    setup_running hphase htls
  have halive : (launch env kube rss w).alive = true := by
    unfold launch
    rw [hsetup]
  refine ⟨hsetup, halive, ?_⟩
  rw [(launch_logs rss w).2 halive]
  simp

theorem not_resumes_of_paused {rss : ReplicatedStatefulSet}
    (hphase : rss.status.phase = .paused) : ¬ Resumes env kube rss w := by
  intro h
  have hpaused : (w.handed rss).sys.c.status.phase = .paused := hphase
  have hsetup := h.setup
  unfold RssOperator.setup at hsetup
  rw [hpaused] at hsetup
  cases hsetup

/-- Wherever an operator is stopped, if the status it persisted last is in
a phase other than `Creating` and `Failed`, a new one that finds the
resource with that status resumes, provided it can read its TLS secret,
exactly if the phase is not `Paused`. -/
theorem resumes_iff (env env' : Env) (kube kube' : Kube)
    (rss₀ rss : ReplicatedStatefulSet) (steps : List WorldStep)
    (trace : List Event) (w : World)
    (hstop : trace <:+ ((World.fresh rss₀).run env kube steps).sys.trace)
    (hlast : lastPersisted trace = some rss.status)
    (hcreating : rss.status.phase ≠ .creating)
    (hfailed : rss.status.phase ≠ .failed)
    (htls : isSecureClient rss.spec.tls = true →
      kube'.tls w.requests = none) :
    Resumes env' kube' rss w ↔ rss.status.phase ≠ .paused := by
  have hmem : .update rss.status none
      ∈ ((World.fresh rss₀).run env kube steps).sys.trace :=
    hstop.subset (mem_of_lastPersisted hlast)
  have hset := (run_phased rss₀ steps).updates rss.status none hmem
  constructor
  · intro h hpaused
    exact not_resumes_of_paused hpaused h
  · intro hpaused
    have hrunning : rss.status.phase = .running := by
      cases hphase : rss.status.phase with
      | none | other =>
          rw [hphase] at hset
          cases hset
      | creating => exact absurd hphase hcreating
      | running => rfl
      | paused => exact absurd hphase hpaused
      | failed => exact absurd hphase hfailed
    exact resumes_of_running hrunning htls

/-- A process that has started the loop, and the next one. -/
theorem resumes_iff_started :
    let w := (World.fresh (.sized 3 1)).run (.deciding fun _ => true)
      .obliging [.restart (.sized 3 1)]
    lastPersisted w.sys.trace = some w.sys.stored.status
      ∧ Resumes (.deciding fun _ => true) .obliging w.sys.stored w := by
  intro w
  have hlast : lastPersisted w.sys.trace = some w.sys.stored.status := by
    decide +kernel
  refine ⟨hlast, ?_⟩
  refine (resumes_iff (.deciding fun _ => true) _ .obliging _ (.sized 3 1)
    w.sys.stored [.restart (.sized 3 1)] w.sys.trace w (List.suffix_refl _)
    hlast ?_ ?_ ?_).mpr ?_
  · decide +kernel
  · decide +kernel
  · intro _
    rfl
  · decide +kernel

/-- Four pods, down to zero, and a resize to three that is refused. -/
def refusedSteps : List WorldStep :=
  let edit := thenEdited (.deciding fun _ => true) .obliging
    (World.fresh (.sized 4 1))
  let steps : List WorldStep :=
    [.restart (.sized 4 1), .timer 20 (.pods .four [])]
  let steps := edit steps (ReplicatedStatefulSet.sized 0 1).spec
  edit steps (ReplicatedStatefulSet.sized 3 1).spec

/-- The refusal is persisted in phase `Paused`. The operator is restarted,
takes the phase for an error and reports the cluster as failed. -/
theorem paused_not_resumed :
    let w := (World.fresh (.sized 4 1)).run (.deciding fun _ => true)
      .obliging refusedSteps
    let w' := launch (.deciding fun _ => true) .obliging w.sys.stored w
    (lastPersisted w.sys.trace).map (·.phase) = some .paused
      ∧ w.alive = true ∧ w.sys.stored.status.phase = .paused
      ∧ w'.alive = false ∧ w'.sys.stored.status.phase = .failed
      ∧ w'.sys.stored.status.reason = "unexpected cluster phase: Paused"
      ∧ ¬ Resumes (.deciding fun _ => true) .obliging w.sys.stored w := by
  intro w w'
  have hpaused : w.sys.stored.status.phase = .paused := by decide +kernel
  refine ⟨by decide +kernel, by decide +kernel, hpaused, by decide +kernel,
    by decide +kernel, by decide +kernel, not_resumes_of_paused hpaused⟩

end RssOperator
