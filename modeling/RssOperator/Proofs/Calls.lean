/-
What each call to the world does to the state, one lemma a call.

The later files never unfold `execute`, `startAppMember`,
`stopAppMember` or `deleteMember`: they rewrite with the equations here,
which name the answer that decides the call (`startAppMember_eq`,
`stopAppMember_eq`, and so on), and with the field lemmas for the small
state updates.

The status operations touch neither the members nor the commands. That
is `Quiet`: same members, same spec, same number of commands, and
nothing but quiet entries added to the trace.
-/
import RssOperator.Run

namespace RssOperator

variable {env : Env} {s s' : Sys} {k : String} {m : Member}

-- ======================================================= state updates

namespace Sys

@[simp] theorem members_ranged (n : Nat) (s : Sys) :
    (s.ranged n).members = s.members := rfl

/-- A write through a member's pointer is a change of its entry. -/
@[simp] theorem members_update (k : String) (f : Member → Member)
    (s : Sys) : (s.update k f).members = s.members.modify k f := by
  unfold members update
  cases s.c.peers <;> rfl

@[simp] theorem peers_update (k : String) (f : Member → Member) (s : Sys) :
    (s.update k f).c.peers = s.c.peers.map (GoMap.modify k f) := rfl

/-- The member set of a state that has one. -/
theorem members_of_peers {ms : MemberSet} (h : s.c.peers = some ms) :
    s.members = ms := by
  unfold members
  rw [h]
  rfl

/-- A state in which a member is found has a map. -/
theorem peers_of_lookup (h : s.members.lookup k = some m) :
    s.c.peers = some s.members := by
  unfold members at h ⊢
  cases hp : s.c.peers with
  | none =>
      rw [hp] at h
      cases h
  | some ms => rfl

end Sys

-- ============================================================ commands

/-- The trace entry of a command that is about to be run. -/
def Sys.entry (env : Env) (call : Call) (k pod : String) (s : Sys) : Event :=
  .exec call k pod
    (appendPrimaries s.c.rss s.members (s.order env)
      (((s.spec.commands call.action).map (·.command)).getD []))
    s.members (env.exec s.execs call pod)

/-- The state after a command has been run: what is remembered of it is
its number and the trace entry. -/
def Sys.ran (env : Env) (call : Call) (k pod : String) (s : Sys) : Sys :=
  { s with
    execs := s.execs + 1
    orders := s.orders + 1
    trace := s.entry env call k pod :: s.trace }

namespace Sys

@[simp] theorem members_ran (call : Call) (k pod : String) (s : Sys) :
    (s.ran env call k pod).members = s.members := rfl

@[simp] theorem spec_ran (call : Call) (k pod : String) (s : Sys) :
    (s.ran env call k pod).spec = s.spec := rfl

@[simp] theorem peers_ran (call : Call) (k pod : String) (s : Sys) :
    (s.ran env call k pod).c.peers = s.c.peers := rfl

end Sys

/-- Nothing is remembered of a command but that it was run. -/
theorem execute_state (call : Call) (pod : String) :
    (execute env call k pod s).2 = s.ran env call k pod := by
  unfold execute
  dsimp only
  split <;> rfl

/-- The error of a command is the error of the call, with the command's
name around it. -/
theorem execute_err (call : Call) (pod : String) :
    (execute env call k pod s).1.err
      = (env.exec s.execs call pod).err.map
          (Err.application call.action pod) := by
  unfold execute ExecAnswer.err
  dsimp only
  split
  next err h => rw [h]; rfl
  next h => rw [h]; rfl

/-- The exit code of a command is that of the call. -/
theorem execute_rc (call : Call) (pod : String) :
    (execute env call k pod s).1.rc = (env.exec s.execs call pod).rc := by
  unfold execute ExecAnswer.rc ExecAnswer.err
  dsimp only
  split
  next err h => rw [h]
  next h => rw [h]; rfl

/-- The error a failed command is reported with. -/
def ExecAnswer.report (a : ExecAnswer) (call : Call) (pod : String) : Err :=
  .application call.action pod (a.err.getD "")

/-- A command that fails is reported by name and pod. -/
theorem execute_err_of_fail {call : Call} {pod : String}
    (h : (env.exec s.execs call pod).succeeds = false) :
    (execute env call k pod s).1.err
      = some ((env.exec s.execs call pod).report call pod) := by
  rw [execute_err]
  unfold ExecAnswer.succeeds at h
  unfold ExecAnswer.report
  cases he : (env.exec s.execs call pod).err with
  | none =>
      rw [he] at h
      cases h
  | some err => rfl

theorem execute_err_of_ok {call : Call} {pod : String}
    (h : (env.exec s.execs call pod).succeeds = true) :
    (execute env call k pod s).1.err = none := by
  rw [execute_err, Option.isNone_iff_eq_none.mp h]
  rfl

-- ======================================================== start, stop

/-- The start command that is about to be issued. -/
def Sys.startCall (asPrimary : Bool) (s : Sys) : Call :=
  .start (startCommand s.spec asPrimary s.members.appPrimaries) asPrimary

/-- Its answer. -/
def Sys.startAnswer (env : Env) (asPrimary : Bool) (m : Member) (s : Sys) :
    ExecAnswer :=
  env.exec s.execs (s.startCall asPrimary) m.name

/-- The state a failed start leaves. -/
def Sys.startFailed (env : Env) (k : String) (asPrimary : Bool) (m : Member)
    (s : Sys) : Sys :=
  (s.ran env (s.startCall asPrimary) k m.name).update k Member.noteFailure

/-- The state a successful start leaves, before its pod is tagged. -/
def Sys.started (env : Env) (k : String) (asPrimary : Bool) (m : Member)
    (s : Sys) : Sys :=
  (s.ran env (s.startCall asPrimary) k m.name).update k
    (Member.noteStarted asPrimary)

@[simp] theorem Sys.members_startFailed (asPrimary : Bool) :
    (s.startFailed env k asPrimary m).members
      = s.members.modify k Member.noteFailure := Sys.members_update _ _ _

@[simp] theorem Sys.members_started (asPrimary : Bool) :
    (s.started env k asPrimary m).members
      = s.members.modify k (Member.noteStarted asPrimary) :=
  Sys.members_update _ _ _

/-- A start ends in one of two ways, by its answer. -/
theorem startAppMember_eq (asPrimary : Bool)
    (hm : s.members.lookup k = some m) :
    startAppMember env k asPrimary s
      = if (s.startAnswer env asPrimary m).succeeds then
          (none, (tagAppMember env k true (s.started env k asPrimary m)).2)
        else
          (some ((s.startAnswer env asPrimary m).report
              (s.startCall asPrimary) m.name),
            s.startFailed env k asPrimary m) := by
  unfold startAppMember
  rw [hm]
  dsimp only
  rw [← Sys.startCall]
  cases ha : (s.startAnswer env asPrimary m).succeeds with
  | false =>
      rw [execute_err_of_fail ha, execute_state]
      rfl
  | true =>
      rw [execute_err_of_ok ha, execute_state]
      rfl

/-- The answer to the stop command that is about to be issued. -/
def Sys.stopAnswer (env : Env) (m : Member) (s : Sys) : ExecAnswer :=
  env.exec s.execs .stop m.name

/-- The state a stop leaves, with what it does to the member. -/
def Sys.stopped (env : Env) (k : String) (m : Member)
    (f : Member → Member) (s : Sys) : Sys :=
  ((tagAppMember env k false s).2.ran env .stop k m.name).update k f

@[simp] theorem Sys.members_stopped (f : Member → Member) :
    (s.stopped env k m f).members = s.members.modify k f :=
  Sys.members_update _ _ _

/-- So does a stop, and it takes the tag off the pod in both. -/
theorem stopAppMember_eq (hm : s.members.lookup k = some m) :
    stopAppMember env k s
      = if (s.stopAnswer env m).succeeds then
          (none, s.stopped env k m Member.noteStopped)
        else
          (some ((s.stopAnswer env m).report .stop m.name),
            s.stopped env k m Member.noteFailure) := by
  unfold stopAppMember
  rw [hm]
  dsimp only
  cases ha : (s.stopAnswer env m).succeeds with
  | false =>
      have ha' : (env.exec (tagAppMember env k false s).2.execs .stop
          m.name).succeeds = false := ha
      rw [execute_err_of_fail ha', execute_state]
      rfl
  | true =>
      have ha' : (env.exec (tagAppMember env k false s).2.execs .stop
          m.name).succeeds = true := ha
      rw [execute_err_of_ok ha', execute_state]
      rfl

/-- A deletion goes on record whether or not it succeeds; only a
successful one marks the member. -/
theorem deleteMember_state (hm : s.members.lookup k = some m) :
    (deleteMember env k s).2
      = if (env.delete s.calls m.name).isNone then
          (s.called (.delete k s.members true)).update k Member.offline
        else s.called (.delete k s.members false) := by
  unfold deleteMember
  rw [hm]
  dsimp only
  cases env.delete s.calls m.name <;> rfl

-- =============================================================== quiet

/-- Trace entries that are neither a command nor a deletion. -/
def Event.quiet : Event → Bool
  | .exec .. | .delete .. => false
  | .tag .. | .update .. | .get .. => true

/-- A step that neither runs a command nor touches a member. -/
structure Quiet (s s' : Sys) : Prop where
  peers : s'.c.peers = s.c.peers
  spec : s'.spec = s.spec
  execs : s'.execs = s.execs
  trace : ∃ es, s'.trace = es ++ s.trace ∧ ∀ e ∈ es, e.quiet = true

namespace Quiet

theorem refl (s : Sys) : Quiet s s :=
  ⟨rfl, rfl, rfl, [], rfl, by simp⟩

/-- Two quiet steps in a row. -/
theorem trans {s₁ s₂ s₃ : Sys} (h : Quiet s₁ s₂) (h' : Quiet s₂ s₃) :
    Quiet s₁ s₃ := by
  obtain ⟨es, hes, hq⟩ := h.trace
  obtain ⟨es', hes', hq'⟩ := h'.trace
  refine ⟨h'.peers.trans h.peers, h'.spec.trans h.spec,
    h'.execs.trans h.execs, es' ++ es, ?_, ?_⟩
  · rw [hes', hes, List.append_assoc]
  · intro e he
    rcases List.mem_append.mp he with he | he
    · exact hq' e he
    · exact hq e he

/-- A quiet step leaves the members alone, with or without a map. -/
theorem members (h : Quiet s s') : s'.members = s.members := by
  unfold Sys.members
  rw [h.peers]

/-- Nothing but the call counters and quiet entries. -/
theorem called {e : Event} (he : e.quiet = true) (s : Sys) :
    Quiet s (s.called e) :=
  ⟨rfl, rfl, rfl, [e], rfl, by simpa using he⟩

theorem ranged (n : Nat) (s : Sys) : Quiet s (s.ranged n) :=
  ⟨rfl, rfl, rfl, [], rfl, by simp⟩

/-- A tag is a request, whatever comes of it. -/
theorem tagAppMember (k : String) (online : Bool) (s : Sys) :
    Quiet s (tagAppMember env k online s).2 := called rfl s

theorem mapStatus (f : ClusterStatus → ClusterStatus) (s : Sys) :
    Quiet s (s.mapStatus f) :=
  ⟨rfl, rfl, rfl, [], rfl, by simp⟩

/-- A change of the cluster struct that leaves `peers` and the spec
alone. -/
theorem mapCluster {f : Cluster → Cluster} (s : Sys)
    (hp : (f s.c).peers = s.c.peers)
    (hs : (f s.c).rss.spec = s.c.rss.spec) : Quiet s (s.mapCluster f) :=
  ⟨hp, hs, rfl, [], rfl, by simp⟩

end Quiet

/-- A write to the shared array changes the conditions of the record only. -/
theorem Cluster.writeShared_frame (pos : Nat)
    (vals : List ClusterCondition) (c : Cluster) :
    (c.writeShared pos vals).peers = c.peers
      ∧ (c.writeShared pos vals).rss.spec = c.rss.spec := by
  unfold writeShared
  split <;> exact ⟨rfl, rfl⟩

/-- Conditions are neither members nor spec. -/
theorem Cluster.setClusterCondition_frame (moved : Bool)
    (new : ClusterCondition) (c : Cluster) :
    (c.setClusterCondition moved new).peers = c.peers
      ∧ (c.setClusterCondition moved new).rss.spec = c.rss.spec := by
  unfold setClusterCondition
  dsimp only
  split
  · split
    · exact ⟨rfl, rfl⟩
    · exact c.writeShared_frame _ _
  · split
    · exact ⟨rfl, rfl⟩
    · split
      · exact ⟨rfl, rfl⟩
      · exact c.writeShared_frame _ _

theorem Cluster.clearCondition_frame (t : ClusterConditionType)
    (c : Cluster) :
    (c.clearCondition t).peers = c.peers
      ∧ (c.clearCondition t).rss.spec = c.rss.spec := by
  unfold clearCondition
  dsimp only
  split
  · exact ⟨rfl, rfl⟩
  · exact c.writeShared_frame _ _

namespace Quiet

theorem setCondition (t : ClusterConditionType) (reason message : String)
    (s : Sys) : Quiet s (s.setCondition env t reason message) := by
  obtain ⟨hp, hs⟩ := Cluster.setClusterCondition_frame (env.grow s.calls)
    (newClusterCondition t .isTrue reason message (env.now s.calls)) s.c
  exact ⟨hp, hs, rfl, [], rfl, by simp⟩

/-- A condition is set, and another may be cleared. -/
theorem reportCondition (errors : List Err) (s : Sys) :
    Quiet s (reportCondition env errors s) := by
  unfold RssOperator.reportCondition
  dsimp only
  split
  · exact setCondition _ _ _ s
  · split
    · exact setCondition _ _ _ s
    · split
      · refine (setCondition _ _ _ s).trans (mapCluster _ ?_ ?_)
        · exact (Cluster.clearCondition_frame _ _).1
        · exact (Cluster.clearCondition_frame _ _).2
      · exact setCondition _ _ _ s

/-- An update goes on record if it is sent; a refused one changes the record
of the status all the same. -/
theorem updateCRStatus (caller : String) (s : Sys) :
    Quiet s (updateCRStatus env caller s).2 := by
  unfold RssOperator.updateCRStatus
  split
  · exact refl s
  · dsimp only
    split
    · exact ⟨rfl, rfl, rfl, [_], rfl, by simp [Event.quiet]⟩
    · exact ⟨rfl, rfl, rfl, [_], rfl, by simp [Event.quiet]⟩

theorem updateMemberStatus (running : List String) (s : Sys) :
    Quiet s (updateMemberStatus env running s) :=
  ((ranged 1 s).trans (mapStatus _ _)).trans (updateCRStatus _ _)

/-- What a poll notes, if it finds all pods. -/
theorem noteRestoreReplicas (running : PodList) (s : Sys) :
    Quiet s (noteRestoreReplicas env running s) := by
  unfold RssOperator.noteRestoreReplicas
  split
  · exact (mapStatus _ s).trans (updateCRStatus _ _)
  · exact refl s

end Quiet

-- =============================================================== loops

/-- The state of a loop stage that begins without errors. -/
theorem state_loopStage
    (turn : Sys × List Err → (Sys × List Err) ⊕ (Sys × List Err))
    (fuel : Nat) (s : Sys) :
    (loopStage turn fuel [] s).state
      = Sum.elim Prod.fst Prod.fst (loop turn fuel (s, [])) := by
  unfold loopStage
  rw [if_pos rfl]
  cases loop turn fuel (s, []) with
  | inl st => rfl
  | inr st => rfl

/-- What leads from turn to turn leads through a loop stage, whether or not
it ends. -/
theorem loopStage_leads {R : Sys → Sys → Prop} {I : Sys → Prop}
    {turn : Sys × List Err → (Sys × List Err) ⊕ (Sys × List Err)}
    (hrefl : ∀ s, R s s)
    (htrans : ∀ {s₁ s₂ s₃}, R s₁ s₂ → R s₂ s₃ → R s₁ s₃)
    (hturn : ∀ st, I st.1 → Sum.elim
      (fun st' => R st.1 st'.1 ∧ I st'.1) (fun st' => R st.1 st'.1)
      (turn st)) (fuel : Nat) (errors : List Err) (hs : I s) :
    R s (loopStage turn fuel errors s).state := by
  by_cases herr : errors = []
  · subst herr
    rw [state_loopStage]
    exact loop_leads (I := fun st => I st.1) hrefl htrans hturn fuel (s, [])
      hs
  · unfold loopStage
    rw [if_neg herr]
    exact hrefl s

end RssOperator
