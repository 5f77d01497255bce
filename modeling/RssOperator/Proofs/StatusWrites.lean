/-
The status on its way to the API server.

# The record that is written too early

`updateCRStatus` compares `c.status` with `c.rss.Status`, its record of
what the server has, and skips the write if they are equal. It puts the
new status into the record before it sends it. When the server refuses,
the record is already the new status, so the next call finds nothing to
do and returns nil, while the server still has the old one.

The two statuses also share the array of their conditions from then on:
setting a condition changes both, and the comparison cannot see it.
Both are over with the next write that succeeds.

# What is true

While no write has failed since the last one that succeeded, the record
is what the server has and nothing is shared (`Synced`). After a failed
write a call is honest if it finds a difference (`Visible`), because then
it writes again. Runs in which every call finds one are
`updates_honest`. `reportFailedStatus` retries for as long as it takes,
and for the same reason never does: `reportFailedStatus_iff`.
-/
import RssOperator.Proofs.Moves

namespace RssOperator

variable {env : Env} {s s' : Sys}

-- ============================================================ one call

theorem updateCRStatus_equal (caller : String)
    (h : s.c.rss.status = s.c.status) :
    updateCRStatus env caller s = (none, s) := by
  unfold updateCRStatus
  rw [if_pos h]

/-- The state after a write was tried with answer `err`. -/
def Sys.wrote (err : Option ApiErr) (s : Sys) : Sys :=
  { s.mapCluster fun c =>
      { c with
        rss := { s.c.rss with status := s.c.status }
        shared := err.isSome } with
    stored := if err.isSome then s.stored
      else { s.c.rss with status := s.c.status }
    calls := s.calls + 1
    trace := .update s.c.status err :: s.trace }

theorem updateCRStatus_differ (caller : String)
    (h : s.c.rss.status ≠ s.c.status) :
    updateCRStatus env caller s
      = ((env.update s.calls).map fun err =>
          .statusUpdate caller err.text, s.wrote (env.update s.calls)) := by
  unfold updateCRStatus
  rw [if_neg h]
  dsimp only
  cases env.update s.calls with
  | none => rfl
  | some err => rfl

-- ================================================ sequences of changes

/-- What the operator does with its status. -/
inductive StatusOp where
  /-- Fields are assigned; the conditions have operations of their own. -/
  | assign (f : ClusterStatus → ClusterStatus)
  | setCondition (t : ClusterConditionType) (reason message : String)
  | clearCondition (t : ClusterConditionType)
  | updateCRStatus (caller : String)

def StatusOp.step (env : Env) (s : Sys) : StatusOp → Sys
  | .assign f =>
      s.mapStatus fun st => { f st with conditions := st.conditions }
  | .setCondition t reason message => s.setCondition env t reason message
  | .clearCondition t => s.mapCluster (Cluster.clearCondition t)
  | .updateCRStatus caller => (RssOperator.updateCRStatus env caller s).2

/-- Every call of `updateCRStatus` in the sequence is made in a state
with the property. -/
def EveryUpdate (env : Env) (P : String → Sys → Prop) :
    List StatusOp → Sys → Prop
  | [], _ => True
  | op :: ops, s =>
      (∀ caller, op = .updateCRStatus caller → P caller s)
        ∧ EveryUpdate env P ops (op.step env s)

/-- The latest write was refused. -/
def lastUpdateFailed : List Event → Bool
  | [] => false
  | .update _ err :: _ => err.isSome
  | _ :: trace => lastUpdateFailed trace

/-- The call has something to write if the latest write was refused. -/
def Visible (s : Sys) : Prop :=
  lastUpdateFailed s.trace = true → s.c.rss.status ≠ s.c.status

/-- If the call returns nil, the server has the status. -/
def Honest (env : Env) (caller : String) (s : Sys) : Prop :=
  (updateCRStatus env caller s).1 = none →
    (updateCRStatus env caller s).2.stored.status
      = (updateCRStatus env caller s).2.c.status

/-- Unless the latest write was refused, the record is what the server
has, and no array is shared. -/
def Synced (s : Sys) : Prop :=
  lastUpdateFailed s.trace = false →
    s.c.rss.status = s.stored.status ∧ s.c.shared = false

-- ======================================================= the invariant

theorem Cluster.writeShared_of_not_shared {c : Cluster} (pos : Nat)
    (vals : List ClusterCondition) (h : c.shared = false) :
    c.writeShared pos vals = c := by
  unfold writeShared
  rw [h]
  rfl

/-- Without sharing, a change of the conditions leaves the record
alone. -/
theorem Cluster.setClusterCondition_record {c : Cluster} (moved : Bool)
    (new : ClusterCondition) (h : c.shared = false) :
    (c.setClusterCondition moved new).rss = c.rss
      ∧ (c.setClusterCondition moved new).shared = false := by
  unfold setClusterCondition
  dsimp only
  split
  · split
    · exact ⟨rfl, rfl⟩
    · rw [writeShared_of_not_shared _ _ h]
      exact ⟨rfl, h⟩
  · split
    · exact ⟨rfl, h⟩
    · split
      · exact ⟨rfl, h⟩
      · rw [writeShared_of_not_shared _ _ h]
        exact ⟨rfl, h⟩

theorem Cluster.clearCondition_record {c : Cluster}
    (t : ClusterConditionType) (h : c.shared = false) :
    (c.clearCondition t).rss = c.rss
      ∧ (c.clearCondition t).shared = false := by
  unfold clearCondition
  dsimp only
  split
  · exact ⟨rfl, h⟩
  · rw [writeShared_of_not_shared _ _ h]
    exact ⟨rfl, h⟩

/-- No operation breaks the invariant. -/
theorem StatusOp.step_synced (op : StatusOp) (hs : Synced s) :
    Synced (op.step env s) := by
  cases op with
  | assign f => exact hs
  | setCondition t reason message =>
      intro hlast
      obtain ⟨hrecord, hshared⟩ := hs hlast
      obtain ⟨hrss, hsh⟩ := Cluster.setClusterCondition_record
        (env.grow s.calls) (newClusterCondition t .isTrue reason message
          (env.now s.calls)) hshared
      refine ⟨?_, hsh⟩
      show (Cluster.setClusterCondition _ _ s.c).rss.status = _
      rw [hrss]
      exact hrecord
  | clearCondition t =>
      intro hlast
      obtain ⟨hrecord, hshared⟩ := hs hlast
      obtain ⟨hrss, hsh⟩ := Cluster.clearCondition_record t hshared
      refine ⟨?_, hsh⟩
      show (Cluster.clearCondition t s.c).rss.status = _
      rw [hrss]
      exact hrecord
  | updateCRStatus caller =>
      show Synced (RssOperator.updateCRStatus env caller s).2
      by_cases heq : s.c.rss.status = s.c.status
      · rw [updateCRStatus_equal caller heq]
        exact hs
      · rw [updateCRStatus_differ caller heq]
        cases env.update s.calls with
        | none => exact fun _ => ⟨rfl, rfl⟩
        | some err => exact fun hlast => by cases hlast

/-- A call that has something to write after a refusal is honest. -/
theorem honest_of_visible (caller : String) (hs : Synced s)
    (hv : Visible s) : Honest env caller s := by
  unfold Honest
  by_cases heq : s.c.rss.status = s.c.status
  · rw [updateCRStatus_equal caller heq]
    intro _
    have hlast : lastUpdateFailed s.trace = false := by
      cases h : lastUpdateFailed s.trace with
      | false => rfl
      | true => exact absurd heq (hv h)
    exact (hs hlast).1.symm.trans heq
  · rw [updateCRStatus_differ caller heq]
    cases env.update s.calls with
    | none => exact fun _ => rfl
    | some err => exact fun hnil => by cases hnil

theorem everyUpdate_honest (ops : List StatusOp) :
    ∀ {s : Sys}, Synced s → EveryUpdate env (fun _ => Visible) ops s →
      EveryUpdate env (Honest env) ops s := by
  induction ops with
  | nil => intro s _ _; trivial
  | cons op ops ih =>
      intro s hs h
      refine ⟨fun caller hop => ?_, ih (op.step_synced hs) h.2⟩
      exact honest_of_visible caller hs (h.1 caller hop)

/-- No lost status write: in every sequence of changes and calls in which
each call made after a refused write finds a difference between the
status and the record, a call that returns nil leaves the server with the
status. -/
theorem updates_honest (env : Env) (rss : ReplicatedStatefulSet)
    (ops : List StatusOp)
    (hvisible : EveryUpdate env (fun _ => Visible) ops (Sys.start rss)) :
    EveryUpdate env (Honest env) ops (Sys.start rss) :=
  everyUpdate_honest ops (fun _ => ⟨rfl, rfl⟩) hvisible

/-- The first write is refused, all others are accepted. -/
def Env.firstWriteRefused : Env :=
  { Env.deciding fun _ => true with
    update := fun n => if n = 0 then some (.other "timeout") else none }

/-- The refused write is followed by another change, so the next call
writes both. -/
theorem updates_honest_after_change :
    EveryUpdate .firstWriteRefused (Honest .firstWriteRefused)
      [.assign fun st => { st with phase := .running },
        .updateCRStatus "a",
        .assign fun st => { st with replicas := 3 },
        .updateCRStatus "b"]
      (Sys.start (.sized 3 1)) := by
  refine updates_honest _ _ _ ⟨?_, ?_, ?_, ?_, trivial⟩
  · intro caller h
    cases h
  · intro caller _ hlast
    cases hlast
  · intro caller h
    cases h
  · intro caller _ _
    decide +kernel

/-- The refused write is followed by a second call, which returns nil; the
server never gets the phase. -/
theorem updates_lost_write :
    let s := (Sys.start (.sized 3 1)).mapStatus fun st =>
      { st with phase := .running }
    let s₁ := (updateCRStatus .firstWriteRefused "a" s).2
    let s₂ := (updateCRStatus .firstWriteRefused "b" s₁).2
    (updateCRStatus .firstWriteRefused "b" s₁).1 = none
      ∧ s₂.c.status.phase = .running ∧ s₂.stored.status.phase = .none := by
  decide +kernel

-- ================================================== reportFailedStatus

/-- The status that is to be reported. -/
def Sys.failedStatus (s : Sys) : ClusterStatus :=
  { s.c.status with phase := .failed }

/-- The phase is set in memory. -/
def Sys.markFailed (s : Sys) : Sys :=
  s.mapStatus fun st => { st with phase := .failed }

theorem reportFailed_equal (h : s.c.rss.status = s.failedStatus) :
    reportFailed env s = (true, s.markFailed) := by
  have hcall : updateCRStatus env "failed"
      (s.mapStatus fun st => { st with phase := .failed })
      = (none, s.markFailed) := updateCRStatus_equal "failed" h
  unfold reportFailed
  dsimp only
  rw [hcall]

/-- An attempt that writes. A refusal is neither a conflict nor a missing
object any more, because it comes wrapped. -/
theorem reportFailed_differ (h : s.c.rss.status ≠ s.failedStatus) :
    reportFailed env s
      = ((env.update s.calls).isNone,
          s.markFailed.wrote (env.update s.calls)) := by
  have hcall : updateCRStatus env "failed"
      (s.mapStatus fun st => { st with phase := .failed })
      = ((env.update s.calls).map fun err => .statusUpdate "failed" err.text,
          s.markFailed.wrote (env.update s.calls)) :=
    updateCRStatus_differ "failed" h
  unfold reportFailed
  dsimp only
  rw [hcall]
  cases env.update s.calls with
  | none => rfl
  | some err => rfl

/-- At most one write is tried, and the report counts as done after it,
whatever the answer. -/
theorem reportFailedStatus_since (s : Sys) :
    (reportFailedStatus env s).1 = true
      ∧ s.since (reportFailedStatus env s).2
        = if s.c.rss.status = s.failedStatus then []
          else [.update s.failedStatus (env.update s.calls)] := by
  obtain ⟨n, hn⟩ : ∃ n, 2 ^ 63 - 1 = n + 1 := ⟨2 ^ 63 - 2, rfl⟩
  unfold reportFailedStatus
  rw [hn]
  unfold retry
  by_cases heq : s.c.rss.status = s.failedStatus
  · rw [reportFailed_equal heq, if_pos heq]
    exact ⟨rfl, Sys.since_eq rfl⟩
  · rw [reportFailed_differ heq, if_neg heq]
    cases hupdate : env.update s.calls with
    | none => exact ⟨rfl, Sys.since_eq rfl⟩
    | some err =>
        -- the record is already the failed status
        have hagain : (s.markFailed.wrote (some err)).c.rss.status
            = (s.markFailed.wrote (some err)).failedStatus := rfl
        have hretry : retry (reportFailed env) n
            (s.markFailed.wrote (some err))
            = (true, (s.markFailed.wrote (some err)).markFailed) := by
          cases n with
          | zero => exact reportFailed_equal hagain
          | succ n =>
              unfold retry
              rw [reportFailed_equal hagain]
        show (retry (reportFailed env) n
            (s.markFailed.wrote (some err))).1 = true
          ∧ s.since (retry (reportFailed env) n
            (s.markFailed.wrote (some err))).2 = _
        rw [hretry]
        exact ⟨rfl, Sys.since_eq rfl⟩

/-- A write of the phase has succeeded, or the server has reported that
the object is gone. -/
def Reported (es : List Event) : Prop :=
  (∃ st, .update st none ∈ es ∧ st.phase = .failed)
    ∨ (∃ st, .update st (some .notFound) ∈ es)
    ∨ .get (some .notFound) ∈ es

/-- Between a write that met a conflict and any later write the object is
read. -/
def Rereads (es : List Event) : Prop :=
  ∀ later st err between st' older,
    es = later ++ .update st err :: between
      ++ .update st' (some .conflict) :: older →
    ∃ e, .get e ∈ between

theorem not_reported_nil : ¬ Reported [] := by
  intro h
  rcases h with ⟨st, hmem, -⟩ | ⟨st, hmem⟩ | hmem
  · cases hmem
  · cases hmem
  · cases hmem

theorem reported_singleton {st : ClusterStatus} {err : Option ApiErr}
    (hst : st.phase = .failed) :
    Reported [.update st err] ↔ err = none ∨ err = some .notFound := by
  unfold Reported
  constructor
  · intro h
    rcases h with ⟨st', hmem, -⟩ | ⟨st', hmem⟩ | hmem
    · injection List.mem_singleton.mp hmem with _ herr
      exact Or.inl herr.symm
    · injection List.mem_singleton.mp hmem with _ herr
      exact Or.inr herr.symm
    · cases List.mem_singleton.mp hmem
  · intro h
    rcases h with rfl | rfl
    · exact Or.inl ⟨st, List.mem_singleton.mpr rfl, hst⟩
    · exact Or.inr (Or.inl ⟨st, List.mem_singleton.mpr rfl⟩)

/-- A single call has no later one. -/
theorem rereads_singleton (e : Event) : Rereads [e] := by
  intro later st err between st' older h
  have hlen := congrArg List.length h
  simp only [List.length_append, List.length_cons, List.length_nil] at hlen
  omega

/-- `reportFailedStatus` always returns, and it has persisted the failure
and re-read after conflicts exactly if the resource in memory did not
carry the failed status yet and the first write succeeded or was answered
by "not found". -/
theorem reportFailedStatus_iff (env : Env) (s : Sys) :
    (reportFailedStatus env s).1 = true
      ∧ (Reported (s.since (reportFailedStatus env s).2)
          ∧ Rereads (s.since (reportFailedStatus env s).2)
        ↔ s.c.rss.status ≠ { s.c.status with phase := .failed }
          ∧ (env.update s.calls = none
            ∨ env.update s.calls = some .notFound)) := by
  obtain ⟨hdone, hsince⟩ := @reportFailedStatus_since env s
  refine ⟨hdone, ?_⟩
  rw [hsince]
  by_cases heq : s.c.rss.status = s.failedStatus
  · rw [if_pos heq]
    constructor
    · intro h
      exact absurd h.1 not_reported_nil
    · intro h
      exact absurd heq h.1
  · rw [if_neg heq, reported_singleton rfl]
    constructor
    · intro h
      exact ⟨heq, h.1⟩
    · intro h
      exact ⟨h.2, rereads_singleton _⟩

/-- The first write is refused. The report ends after it, and the server
still has the old phase. -/
theorem reportFailedStatus_gives_up :
    (reportFailedStatus .firstWriteRefused (Sys.start (.sized 3 1))).1 = true
      ∧ (reportFailedStatus .firstWriteRefused
        (Sys.start (.sized 3 1))).2.stored.status.phase = .none
      ∧ ¬ Reported ((Sys.start (.sized 3 1)).since (reportFailedStatus
        .firstWriteRefused (Sys.start (.sized 3 1))).2) := by
  obtain ⟨hdone, hsince⟩ := @reportFailedStatus_since .firstWriteRefused
    (Sys.start (.sized 3 1))
  refine ⟨hdone, by decide +kernel, ?_⟩
  rw [hsince, if_neg (by decide +kernel), reported_singleton rfl]
  decide +kernel

end RssOperator
