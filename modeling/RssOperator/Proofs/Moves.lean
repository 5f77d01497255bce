/-
The cluster loop as a transition system.

# The abstract machine

Seen from outside, the loop does one thing at a time to one member: run
a command on it and note the result, delete its pod, or merge a list of
pods into the set. `Effect` says what a command may do to the member it
runs on, and on which members it is run at all. `Act` is one step of a
pass, with the trace entry it leaves; `Move` adds what happens around
the passes. The guards are those of the code at the place the command is
issued: a start only on a candidate, a stop only on a primary or a failed
member, a deletion only of a failed member, and then either because of
its failure count or because its stop has just failed.

# What a stage may do

`Acts env G` is any number of steps whose commands and deletions satisfy
`G`. Each stage of the code has a `G` of its own (`Event.check` for the
status loop, `Event.cleanup` for `recover`), so that a statement about
the trace of a pass is assembled from its stages and never goes back to
their code. `Sys.since` is what a pass has added to the trace.

# The refinement

`recover` and the status loop are such sequences here; the other passes
follow in `Refinement`, whatever the answers, the orders and the number
of loop turns. An invariant is then proved once per step.
-/
import Mathlib.Logic.Relation
import RssOperator.Proofs.Merge

namespace RssOperator

variable {env : Env} {G H : Event → Prop} {s s' : Sys} {k : String}
  {m m' : Member}

-- ============================================================== effects

/-- The exit code a status check is read as. -/
def statusCode (spec : ClusterSpec) (a : ExecAnswer) : Int :=
  if a.rc = 0 ∧ (spec.commands .secondary).isNone then 8 else a.rc

/-- A stop is issued on primaries and on failed members that are
there. -/
def Member.stopGuard (m : Member) : Prop :=
  m.stoppable = true ∨ m.online = true ∧ m.appFailed = true

/-- What a command answered with `a` makes of the member `m`. -/
inductive Effect (spec : ClusterSpec) (a : ExecAnswer) (m : Member) :
    Call → Member → Prop
  | startFailed {key : CommandKey} {asPrimary : Bool} :
      m.eligible = true → a.succeeds = false →
      Effect spec a m (.start key asPrimary) m.noteFailure
  | started {key : CommandKey} {asPrimary : Bool} :
      m.eligible = true → a.succeeds = true →
      Effect spec a m (.start key asPrimary) (m.noteStarted asPrimary)
  | stopFailed :
      m.stopGuard → a.succeeds = false → Effect spec a m .stop m.noteFailure
  | stopped :
      m.stopGuard → a.succeeds = true → Effect spec a m .stop m.noteStopped
  | checked :
      m.online = true → m.appFailed = false →
      Effect spec a m .status (m.noteStatus (statusCode spec a))

/-- No status is read as "the pod is gone". -/
theorem Member.online_noteStatus (rc : Int) (m : Member) :
    (m.noteStatus rc).online = m.online := by
  unfold noteStatus
  split
  · rfl
  · split
    · rfl
    · split <;> rfl

/-- No command changes whether its pod is there. -/
theorem Effect.online {spec : ClusterSpec} {a : ExecAnswer} {call : Call}
    (heff : Effect spec a m call m') : m'.online = m.online := by
  cases heff with
  | startFailed => rfl
  | started => rfl
  | stopFailed => rfl
  | stopped => rfl
  | checked => exact Member.online_noteStatus _ m

-- ================================================================= acts

/-- The last entry is a stop that failed on a member that had failed
before. -/
def StopJustFailed (k : String) (trace : List Event) : Prop :=
  ∃ pod args peers a m rest,
    trace = .exec .stop k pod args peers a :: rest
      ∧ peers.lookup k = some m ∧ m.appFailed = true
      ∧ a.succeeds = false

/-- One step of a pass. -/
inductive Act (env : Env) (G : Event → Prop) (s : Sys) : Sys → Prop
  /-- Nothing happens to a member. -/
  | quiet {s' : Sys} (h : Quiet s s') : Act env G s s'
  /-- A command runs and its result is noted. -/
  | command {s' : Sys} {call : Call} {k : String} {m m' : Member}
      {args : List String} (hm : s.members.lookup k = some m)
      (heff : Effect s.spec (env.exec s.execs call m.name) m call m')
      (hpeers : s'.c.peers = some (s.members.modify k fun _ => m'))
      (htrace : s'.trace = .exec call k m.name args s.members
        (env.exec s.execs call m.name) :: s.trace)
      (hG : G (.exec call k m.name args s.members
        (env.exec s.execs call m.name))) : Act env G s s'
  /-- A sequence number is asked for. What is written goes to the entry
  under the member's name. -/
  | detect {s' : Sys} {k : String} {m : Member} {args : List String}
      (f : Member → Member) (hm : s.members.lookup k = some m)
      (hon : m.online = true) (hf : ∀ m, ∃ n, f m = { m with seq := n })
      (hpeers : s'.c.peers = some (s.members.modify m.name f))
      (htrace : s'.trace = .exec .sequence k m.name args s.members
        (env.exec s.execs .sequence m.name) :: s.trace)
      (hG : G (.exec .sequence k m.name args s.members
        (env.exec s.execs .sequence m.name))) : Act env G s s'
  /-- A pod is deleted, or the attempt fails. -/
  | delete {s' : Sys} {k : String} {m : Member} (ok : Bool)
      (hm : s.members.lookup k = some m) (hfailed : m.appFailed = true)
      (hcause : 1 < m.failures ∨ StopJustFailed k s.trace)
      (hpeers : s'.c.peers = some (s.members.modify k fun _ =>
        if ok then m.offline else m))
      (htrace : s'.trace = .delete k s.members ok :: s.trace)
      (hG : G (.delete k s.members ok)) : Act env G s s'

/-- Any number of steps of a pass. -/
abbrev Acts (env : Env) (G : Event → Prop) : Sys → Sys → Prop :=
  Relation.ReflTransGen (Act env G)

namespace Acts

theorem quiet (h : Quiet s s') : Acts env G s s' :=
  Relation.ReflTransGen.single (.quiet h)

/-- A stage that may do less is a stage that may do more. -/
theorem mono (hGH : ∀ e, G e → H e) (h : Acts env G s s') :
    Acts env H s s' := by
  refine Relation.ReflTransGen.mono ?_ _ _ h
  intro a b hab
  cases hab with
  | quiet h => exact .quiet h
  | command hm heff hpeers htrace hG =>
      exact .command hm heff hpeers htrace (hGH _ hG)
  | detect f hm hon hf hpeers htrace hG =>
      exact .detect f hm hon hf hpeers htrace (hGH _ hG)
  | delete ok hm hfailed hcause hpeers htrace hG =>
      exact .delete ok hm hfailed hcause hpeers htrace (hGH _ hG)

/-- What one step keeps, every number of steps keeps. -/
theorem keep {I : Sys → Prop} (hstep : ∀ s s', I s → Act env G s s' → I s')
    (h : Acts env G s s') (hs : I s) : I s' := by
  induction h with
  | refl => exact hs
  | tail _ hact ih => exact hstep _ _ ih hact

/-- A `range` loop over members is a sequence of steps if each turn
is. -/
theorem foldl {α : Type} {f : α × Sys → String → α × Sys}
    (hf : ∀ acc k, Acts env G acc.2 (f acc k).2) (ks : List String) :
    ∀ acc, Acts env G acc.2 (ks.foldl f acc).2 := by
  induction ks with
  | nil => intro acc; exact .refl
  | cons k ks ih =>
      intro acc
      rw [List.foldl_cons]
      exact (hf acc k).trans (ih _)

/-- Two calls in a row. -/
theorem andThen {α β : Type} {o : Outcome Sys α}
    {f : α → Sys → Outcome Sys β} (ho : Acts env G s o.state)
    (hf : ∀ a s', o = .ret a s' → Acts env G s' (f a s').state) :
    Acts env G s (o.andThen f).state := by
  cases o with
  | ret a s' => exact ho.trans (hf a s' rfl)
  | panicked s' => exact ho
  | looping s' => exact ho

end Acts

-- =========================================================== new events

/-- What the trace of `s'` has in front of that of `s`. -/
def Sys.since (s s' : Sys) : List Event :=
  s'.trace.take (s'.trace.length - s.trace.length)

theorem Sys.since_eq {es : List Event} (h : s'.trace = es ++ s.trace) :
    s.since s' = es := by
  unfold since
  rw [h, List.length_append, Nat.add_sub_cancel]
  exact List.take_left

/-- The trace grows by what the stage may do. -/
theorem Acts.grows (h : Acts env G s s') :
    ∃ es, s'.trace = es ++ s.trace ∧ ∀ e ∈ es, e.quiet = true ∨ G e := by
  induction h with
  | refl => exact ⟨[], rfl, by simp⟩
  | tail _ hact ih =>
      obtain ⟨es, hes, hall⟩ := ih
      have hone : ∀ {e : Event} {t : List Event}, G e →
          t = e :: es ++ s.trace →
          ∃ es', t = es' ++ s.trace ∧ ∀ e ∈ es', e.quiet = true ∨ G e := by
        intro e t he ht
        refine ⟨e :: es, ht, ?_⟩
        intro e' he'
        rcases List.mem_cons.mp he' with rfl | he'
        · exact Or.inr he
        · exact hall e' he'
      cases hact with
      | quiet h =>
          obtain ⟨es', hes', hq⟩ := h.trace
          refine ⟨es' ++ es, by rw [hes', hes, List.append_assoc], ?_⟩
          intro e he
          rcases List.mem_append.mp he with he | he
          · exact Or.inl (hq e he)
          · exact hall e he
      | command _ _ _ htrace hG => exact hone hG (by rw [htrace, hes]; rfl)
      | detect _ _ _ _ _ htrace hG => exact hone hG (by rw [htrace, hes]; rfl)
      | delete _ _ _ _ _ htrace hG => exact hone hG (by rw [htrace, hes]; rfl)

theorem Acts.trace_eq (h : Acts env G s s') :
    s'.trace = s.since s' ++ s.trace := by
  obtain ⟨es, hes, -⟩ := h.grows
  rw [Sys.since_eq hes, hes]

theorem Acts.mem_since (h : Acts env G s s') :
    ∀ e ∈ s.since s', e.quiet = true ∨ G e := by
  obtain ⟨es, hes, hall⟩ := h.grows
  rw [Sys.since_eq hes]
  exact hall

/-- What two stages in a row have added. -/
theorem Acts.since_trans {s₁ s₂ s₃ : Sys} (h₁ : Acts env G s₁ s₂)
    (h₂ : Acts env H s₂ s₃) :
    s₁.since s₃ = s₂.since s₃ ++ s₁.since s₂ := by
  refine Sys.since_eq ?_
  rw [List.append_assoc, ← h₁.trace_eq, ← h₂.trace_eq]

/-- A stage may have done what it has done. -/
theorem Acts.restrict (h : Acts env G s s')
    (hall : ∀ e ∈ s.since s', H e) : Acts env H s s' := by
  induction h with
  | refl => exact .refl
  | @tail s₁ s₂ h₁ hact ih =>
      have hsplit := Acts.since_trans h₁
        (Relation.ReflTransGen.single hact)
      rw [hsplit] at hall
      refine (ih fun e he => hall e (List.mem_append_right _ he)).tail ?_
      have hone : ∀ {e : Event}, s₂.trace = e :: s₁.trace → H e := by
        intro e htrace
        refine hall e (List.mem_append_left _ ?_)
        rw [@Sys.since_eq s₁ s₂ [e] htrace]
        exact List.mem_cons_self
      cases hact with
      | quiet h => exact .quiet h
      | command hm heff hpeers htrace _ =>
          exact .command hm heff hpeers htrace (hone htrace)
      | detect f hm hon hf hpeers htrace _ =>
          exact .detect f hm hon hf hpeers htrace (hone htrace)
      | delete ok hm hfailed hcause hpeers htrace _ =>
          exact .delete ok hm hfailed hcause hpeers htrace (hone htrace)

-- ================================================================ moves

/-- One step of the cluster loop. -/
inductive Move (env : Env) (s : Sys) : Sys → Prop
  /-- A step of a pass. -/
  | act {s' : Sys} (h : Act env (fun _ => True) s s') : Move env s s'
  /-- The pods that run are merged in. -/
  | merge {s' : Sys} {pods : List Pod}
      (h : mergeMembers env (podsToMemberSet s.c.rss pods) s = some s') :
      Move env s s'
  /-- All members are forgotten. -/
  | clear : Move env s (s.setPeers ∅)
  /-- A `Modify` event comes in. -/
  | modify {s' : Sys} (hpeers : s'.c.peers = s.c.peers)
      (htrace : s'.trace = s.trace) : Move env s s'

/-- Any number of steps. -/
abbrev Moves (env : Env) : Sys → Sys → Prop :=
  Relation.ReflTransGen (Move env)

theorem Acts.moves (h : Acts env G s s') : Moves env s s' :=
  Relation.ReflTransGen.mono (fun _ _ hact => Move.act hact) _ _
    (h.mono fun _ _ => trivial)

/-- What one step keeps, every run keeps. -/
theorem Moves.keep {I : Sys → Prop}
    (hstep : ∀ s s', I s → Move env s s' → I s')
    (h : Moves env s s') (hs : I s) : I s' := by
  induction h with
  | refl => exact hs
  | tail _ hmove ih => exact hstep _ _ ih hmove

theorem Moves.andThen {α β : Type} {o : Outcome Sys α}
    {f : α → Sys → Outcome Sys β} (ho : Moves env s o.state)
    (hf : ∀ a s', o = .ret a s' → Moves env s' (f a s').state) :
    Moves env s (o.andThen f).state := by
  cases o with
  | ret a s' => exact ho.trans (hf a s' rfl)
  | panicked s' => exact ho
  | looping s' => exact ho

-- ============================================= commands on one member

theorem Sys.peers_update_of_lookup {f : Member → Member}
    (hm : s.members.lookup k = some m) :
    (s.update k f).c.peers = some (s.members.modify k fun _ => f m) := by
  rw [Sys.peers_update, Sys.peers_of_lookup hm]
  exact congrArg some (GoMap.modify_congr hm rfl)

/-- A command that runs on a member and then has its effect. -/
theorem Acts.ran {call : Call} {f : Member → Member}
    (hm : s.members.lookup k = some m)
    (heff : Effect s.spec (env.exec s.execs call m.name) m call (f m))
    (hG : ∀ args a, G (.exec call k m.name args s.members a)) :
    Acts env G s ((s.ran env call k m.name).update k f) :=
  Relation.ReflTransGen.single
    (.command hm heff (Sys.peers_update_of_lookup hm) rfl (hG _ _))

theorem startAppMember_acts (asPrimary : Bool)
    (hm : s.members.lookup k = some m) (hel : m.eligible = true)
    (hG : ∀ args a,
      G (.exec (s.startCall asPrimary) k m.name args s.members a)) :
    Acts env G s (startAppMember env k asPrimary s).2 := by
  rw [startAppMember_eq asPrimary hm]
  by_cases ha : (s.startAnswer env asPrimary m).succeeds = true
  · rw [if_pos ha]
    refine (Acts.ran hm ?_ hG).trans (Acts.quiet (Quiet.tagAppMember k true _))
    exact .started hel ha
  · rw [if_neg ha]
    refine Acts.ran hm ?_ hG
    exact .startFailed hel (Bool.not_eq_true _ ▸ ha)

theorem stopAppMember_acts (hm : s.members.lookup k = some m)
    (hst : m.stopGuard)
    (hG : ∀ args a, G (.exec .stop k m.name args s.members a)) :
    Acts env G s (stopAppMember env k s).2 := by
  rw [stopAppMember_eq hm]
  by_cases ha : (s.stopAnswer env m).succeeds = true
  · rw [if_pos ha]
    refine (Acts.quiet (Quiet.tagAppMember k false s)).trans
      (Acts.ran hm ?_ hG)
    exact .stopped hst ha
  · rw [if_neg ha]
    refine (Acts.quiet (Quiet.tagAppMember k false s)).trans
      (Acts.ran hm ?_ hG)
    exact .stopFailed hst (Bool.not_eq_true _ ▸ ha)

/-- What `recover` does: stops and deletions. -/
def Event.cleanup : Event → Prop
  | .exec call _ _ _ _ _ => call = .stop
  | .delete .. => True
  | _ => False

/-- The same, with the state of the member it is done to. -/
def Event.onFailed : Event → Prop
  | .exec call k _ _ peers _ =>
      call = .stop ∧ ∃ m, peers.lookup k = some m ∧ m.appFailed = true
  | .delete .. => True
  | _ => False

theorem Event.cleanup_of_onFailed : ∀ e, Event.onFailed e → e.cleanup := by
  intro e he
  cases e with
  | exec => exact he.1
  | delete => trivial
  | tag => cases he
  | update => cases he
  | get => cases he

theorem deleteMember_acts (hm : s.members.lookup k = some m)
    (hfailed : m.appFailed = true)
    (hcause : 1 < m.failures ∨ StopJustFailed k s.trace) :
    Acts env Event.onFailed s (deleteMember env k s).2 := by
  rw [deleteMember_state hm]
  by_cases hd : (env.delete s.calls m.name).isNone = true
  · rw [if_pos hd]
    exact Relation.ReflTransGen.single (.delete true hm hfailed hcause
      (Sys.peers_update_of_lookup hm) rfl trivial)
  · rw [if_neg hd]
    refine Relation.ReflTransGen.single (.delete false hm hfailed hcause
      ?_ rfl trivial)
    show s.c.peers = some (s.members.modify k fun _ => m)
    rw [GoMap.modify_eq_self hm rfl, Sys.peers_of_lookup hm]

-- ============================================================= recover

theorem recoverMember_acts (acc : List Err × Sys) (k : String) :
    Acts env Event.onFailed acc.2 (recoverMember env acc k).2 := by
  obtain ⟨errors, s⟩ := acc
  unfold recoverMember
  dsimp only
  cases hm : s.members.lookup k with
  | none => exact .refl
  | some m =>
      dsimp only
      split
      · next hdel =>
        simp only [Bool.and_eq_true, decide_eq_true_eq] at hdel
        exact (deleteMember_acts hm hdel.1 (Or.inl hdel.2)).trans
          (Acts.quiet (Quiet.tagAppMember k false _))
      · split
        · exact .refl
        · next hon =>
          simp only [Bool.not_eq_true', Bool.not_eq_false] at hon
          split
          · next hfailed =>
            have hstop : Acts env Event.onFailed s
                (stopAppMember env k s).2 :=
              stopAppMember_acts hm (Or.inr ⟨hon, hfailed⟩) fun _ _ =>
                ⟨rfl, m, hm, hfailed⟩
            rw [stopAppMember_eq hm] at hstop ⊢
            by_cases ha : (s.stopAnswer env m).succeeds = true
            · rw [if_pos ha] at hstop ⊢
              exact hstop
            · rw [if_neg ha] at hstop ⊢
              -- the stop has failed, and the deletion follows at once
              refine hstop.trans
                (deleteMember_acts (m := m.noteFailure) ?_ rfl ?_)
              · rw [Sys.members_stopped]
                exact GoMap.lookup_modify_of_some hm
              · right
                exact ⟨m.name, _, s.members, s.stopAnswer env m, m, _, rfl, hm,
                  hfailed, Bool.not_eq_true _ ▸ ha⟩
          · exact .refl

theorem recover_onFailed (s : Sys) :
    Acts env Event.onFailed s (recover env s).2 :=
  (Acts.quiet (Quiet.ranged 1 s)).trans
    (Acts.foldl recoverMember_acts _ ([], s.ranged 1))

theorem recover_acts (s : Sys) :
    Acts env Event.cleanup s (recover env s).2 :=
  (recover_onFailed s).mono Event.cleanup_of_onFailed

-- ============================================================== status

/-- What the status loop does. -/
def Event.check : Event → Prop
  | .exec call _ _ _ _ _ => call = .status
  | _ => False

theorem remapStatus_fst (spec : ClusterSpec) (call : Call) (pod : String) :
    (remapStatus spec (execute env call k pod s).1).1
      = statusCode spec (env.exec s.execs call pod) := by
  unfold remapStatus statusCode
  rw [execute_rc]
  split <;> rfl

theorem checkMember_acts (acc : List Err × Sys) (k : String) :
    Acts env Event.check acc.2 (checkMember env acc k).2 := by
  obtain ⟨errors, s⟩ := acc
  unfold checkMember
  dsimp only
  cases hm : s.members.lookup k with
  | none => exact .refl
  | some m =>
      dsimp only
      split
      · exact .refl
      · next hguard =>
        simp only [Bool.or_eq_true, Bool.not_eq_true', not_or,
          Bool.not_eq_true, Bool.not_eq_false] at hguard
        have hspec : (execute env .status k m.name s).2.spec = s.spec := by
          rw [execute_state]
          rfl
        have hran : Acts env Event.check s
            ((execute env .status k m.name s).2.update k
              (Member.noteStatus (remapStatus
                (execute env .status k m.name s).2.spec
                (execute env .status k m.name s).1).1)) := by
          rw [hspec, remapStatus_fst, execute_state]
          exact Acts.ran hm (.checked hguard.2 hguard.1) fun _ _ => rfl
        split
        · exact hran.trans (Acts.quiet (Quiet.tagAppMember k false _))
        · exact hran

theorem checkMembers_acts (s : Sys) :
    Acts env Event.check s (checkMembers env s).2 :=
  (Acts.quiet (Quiet.ranged 1 s)).trans
    (Acts.foldl checkMember_acts _ ([], s.ranged 1))

end RssOperator
