/-
What a reported success says about the command.

# One call

`ExecWithOptions` looks the pod up to find a container. When the pod
cannot be read, or has no container, it returns with the error of an
earlier step, which is nil at that point. The caller sees a nil error and
exit code 0 for a command that was never sent. `execute_success_iff`
says that this is the only way.

# A pass

`AppRunning` and `AppPrimary` are set by status checks and by starts. A
start counts if it returns without an error. A status check sets
`AppRunning` for every exit code but 7, also when the check itself could
not be run. So a flag that comes up in a pass is backed by a command that
ran (`AppFlag.shownBy`) if the pass's status checks reach their
containers and its starts find theirs (`Event.sure`).
-/
import RssOperator.Proofs.Refinement

namespace RssOperator

variable {env : Env} {G : Event → Prop} {s s' : Sys} {k : String}
  {m m' : Member}

-- ============================================================ one call

namespace ExecAnswer

variable {a : ExecAnswer}

/-- The error of a call, by what the lookup of the pod gives. -/
theorem err_eq (a : ExecAnswer) :
    a.err = match a.setup with
      | some err => some err
      | none => if a.findsContainer then (streamCommand a).err else none := by
  unfold err execWithOptions findsContainer
  cases a.setup with
  | some err => rfl
  | none =>
      cases a.pod with
      | error e => rfl
      | ok containers => cases containers <;> rfl

/-- A success whose pod was found was streamed and ended with 0. -/
theorem executed_of_succeeds (h : a.succeeds = true)
    (hpod : a.setup.isSome = true ∨ a.findsContainer = true) :
    a.streamed = true ∧ a.stream = .exitedZero := by
  have herr : a.err = none := Option.isNone_iff_eq_none.mp h
  rw [err_eq] at herr
  cases hsetup : a.setup with
  | some err =>
      rw [hsetup] at herr
      cases herr
  | none =>
      rw [hsetup] at herr hpod
      have hfound : a.findsContainer = true := by simpa using hpod
      dsimp only at herr
      rw [if_pos hfound] at herr
      unfold streamCommand at herr
      cases hexec : a.executor with
      | some err =>
          rw [hexec] at herr
          cases herr
      | none =>
          rw [hexec] at herr
          refine ⟨by simp [streamed, hsetup, hfound, hexec], ?_⟩
          cases hstream : a.stream with
          | exitedZero => rfl
          | failed text =>
              dsimp only at herr
              rw [hstream] at herr
              cases herr

/-- A pod that is not found makes the call a success. -/
theorem succeeds_of_no_container (hsetup : a.setup.isSome = false)
    (hpod : a.findsContainer = false) :
    a.succeeds = true ∧ a.streamed = false := by
  have hnone : a.setup = none := by simpa using hsetup
  constructor
  · unfold succeeds
    rw [err_eq, hnone]
    dsimp only
    rw [hpod]
    rfl
  · simp [streamed, hpod]

end ExecAnswer

/-- `execute` reports a nil error and exit code 0 only for commands that
were streamed and ended with exit code 0, exactly if the call could not be
set up or the lookup of the pod finds a container. -/
theorem execute_success_iff (call : Call) (pod : String) :
    ((execute env call k pod s).1.err = none
          ∧ (execute env call k pod s).1.rc = 0 →
        (env.exec s.execs call pod).streamed = true
          ∧ (env.exec s.execs call pod).stream = .exitedZero)
      ↔ (env.exec s.execs call pod).setup.isSome = true
        ∨ (env.exec s.execs call pod).findsContainer = true := by
  rw [execute_err, execute_rc, Option.map_eq_none_iff]
  constructor
  · intro h
    cases hsetup : (env.exec s.execs call pod).setup.isSome with
    | true => exact Or.inl rfl
    | false =>
        cases hpod : (env.exec s.execs call pod).findsContainer with
        | true => exact Or.inr rfl
        | false =>
            obtain ⟨hok, hnot⟩ :=
              ExecAnswer.succeeds_of_no_container hsetup hpod
            have hran := (h ⟨Option.isNone_iff_eq_none.mp hok,
              ExecAnswer.rc_of_succeeds hok⟩).1
            rw [hnot] at hran
            cases hran
  · intro hpod h
    exact ExecAnswer.executed_of_succeeds
      (Option.isNone_iff_eq_none.mpr h.1) hpod

-- ============================================================== a pass

/-- The two flags that say the application is up. -/
inductive AppFlag where
  | running
  | primary

def AppFlag.get : AppFlag → Member → Bool
  | running => Member.appRunning
  | primary => Member.appPrimary

/-- The entry is a command on the member under `k` that was executed and
speaks for the flag: a start that ended with exit code 0, or a status
check; for a primary, a start as such or a check that ended with 0 or
8. -/
def AppFlag.shownBy (k : String) : AppFlag → Event → Prop
  | flag, .exec (.start _ asPrimary) k' _ _ _ a =>
      k' = k ∧ a.streamed = true ∧ a.stream = .exitedZero
        ∧ (flag = primary → asPrimary = true)
  | flag, .exec .status k' _ _ _ a =>
      k' = k ∧ a.streamed = true ∧ (flag = primary → a.rc = 0 ∨ a.rc = 8)
  | _, _ => False

/-- A status check reached its container; a start could not be set up or
found one. -/
def Event.sure : Event → Bool
  | .exec .status _ _ _ _ a => a.streamed
  | .exec (.start _ _) _ _ _ _ a => a.setup.isSome || a.findsContainer
  | _ => true

/-- The entry is a command that reached a container. -/
def Event.streamed : Event → Bool
  | .exec _ _ _ _ _ a => a.streamed
  | _ => false

/-- A flag that is up in `ms'` was up in `ms`, or one of the entries
speaks for it. -/
def Evident (ms : MemberSet) (es : List Event) (ms' : MemberSet) : Prop :=
  ∀ flag k m', ms'.lookup k = some m' → AppFlag.get flag m' = true →
    (∃ m, ms.lookup k = some m ∧ flag.get m = true)
      ∨ ∃ e ∈ es, flag.shownBy k e

/-- The member a command runs on. -/
theorem Effect.evident {spec : ClusterSpec} {a : ExecAnswer} {call : Call}
    {args : List String} {peers : MemberSet} {flag : AppFlag}
    (heff : Effect spec a m call m')
    (hsure : Event.sure (.exec call k m.name args peers a) = true)
    (hflag : flag.get m' = true) :
    flag.get m = true
      ∨ flag.shownBy k (.exec call k m.name args peers a) := by
  cases heff with
  | startFailed =>
      left
      cases flag with
      | running => exact hflag
      | primary => exact hflag
  | @started key asPrimary _ ha =>
      right
      obtain ⟨hran, hzero⟩ := ExecAnswer.executed_of_succeeds ha
        (by simpa [Event.sure] using hsure)
      refine ⟨rfl, hran, hzero, fun hp => ?_⟩
      subst hp
      exact hflag
  | stopFailed =>
      left
      cases flag with
      | running => exact hflag
      | primary => exact hflag
  | stopped =>
      cases flag with
      | running => cases hflag
      | primary => cases hflag
  | checked =>
      cases flag with
      | running => exact Or.inr ⟨rfl, hsure, fun hp => by cases hp⟩
      | primary =>
          -- only code 8 sets the flag, and it is 8 or a remapped 0
          change (m.noteStatus (statusCode spec a)).appPrimary = true at hflag
          unfold Member.noteStatus at hflag
          split at hflag
          · cases hflag
          · split at hflag
            · cases hflag
            · split at hflag
              · next hcode =>
                refine Or.inr ⟨rfl, hsure, fun _ => ?_⟩
                unfold statusCode at hcode
                split at hcode
                · next hzero => exact Or.inl hzero.1
                · exact Or.inr hcode
              · exact Or.inl hflag

theorem Evident.mono {ms ms' : MemberSet} {es es' : List Event}
    (h : Evident ms es ms') (hsub : ∀ e ∈ es, e ∈ es') :
    Evident ms es' ms' := by
  intro flag k m' hm' hflag
  rcases h flag k m' hm' hflag with hold | ⟨e, he, hshow⟩
  · exact Or.inl hold
  · exact Or.inr ⟨e, hsub e he, hshow⟩

/-- One step of a pass. -/
theorem Act.evident {ms : MemberSet} {es : List Event}
    (hact : Act env G s s') (h : Evident ms es s.members)
    (hsure : ∀ e ∈ s.since s', e.sure = true) :
    Evident ms (s.since s' ++ es) s'.members := by
  have hold : Evident ms (s.since s' ++ es) s.members :=
    h.mono fun e he => List.mem_append_right _ he
  cases hact with
  | quiet hq =>
      rw [hq.members]
      exact hold
  | @command call k m m' args hm heff hpeers htrace _ =>
      have hsince : s.since s' = [_] := Sys.since_eq htrace
      rw [Sys.members_of_peers hpeers]
      intro flag k₁ m₁ hm₁ hflag
      rcases GoMap.lookup_modify_some hm₁ with ⟨rfl, m₀, -, rfl⟩ | hm₁
      · rw [hsince] at hsure
        rcases heff.evident (hsure _ List.mem_cons_self) hflag with
          hbefore | hshow
        · exact hold flag k₁ m hm hbefore
        · refine Or.inr ⟨_, List.mem_append_left _ ?_, hshow⟩
          rw [hsince]
          exact List.mem_cons_self
      · exact hold flag k₁ m₁ hm₁ hflag
  | @detect k m args f hm hon hf hpeers htrace _ =>
      rw [Sys.members_of_peers hpeers]
      intro flag k₁ m₁ hm₁ hflag
      rcases GoMap.lookup_modify_some hm₁ with ⟨rfl, m₀, hm₀, rfl⟩ | hm₁
      · obtain ⟨n, hn⟩ := hf m₀
        rw [hn] at hflag
        refine hold flag _ m₀ hm₀ ?_
        cases flag with
        | running => exact hflag
        | primary => exact hflag
      · exact hold flag k₁ m₁ hm₁ hflag
  | @delete k m ok hm _ _ hpeers htrace _ =>
      rw [Sys.members_of_peers hpeers]
      intro flag k₁ m₁ hm₁ hflag
      rcases GoMap.lookup_modify_some hm₁ with ⟨rfl, m₀, -, rfl⟩ | hm₁
      · cases ok with
        | true =>
            cases flag with
            | running => cases hflag
            | primary => cases hflag
        | false => exact hold flag _ m hm hflag
      · exact hold flag k₁ m₁ hm₁ hflag

theorem Acts.evident {ms : MemberSet} (h : Acts env G s s')
    (hs : Evident ms [] s.members)
    (hsure : ∀ e ∈ s.since s', e.sure = true) :
    Evident ms (s.since s') s'.members := by
  induction h with
  | refl =>
      have hnil : s.since s = [] := Sys.since_eq rfl
      rw [hnil]
      exact hs
  | @tail s₁ s₂ h₁ hact ih =>
      have hsplit : s.since s₂ = s₁.since s₂ ++ s.since s₁ :=
        Acts.since_trans h₁ (Relation.ReflTransGen.single hact)
      rw [hsplit] at hsure ⊢
      refine hact.evident (ih fun e he => ?_) fun e he => ?_
      · exact hsure e (List.mem_append_right _ he)
      · exact hsure e (List.mem_append_left _ he)

theorem evident_refl (ms : MemberSet) : Evident ms [] ms :=
  fun _ _ m' hm' hflag => Or.inl ⟨m', hm', hflag⟩

/-- The merge sets neither flag. -/
theorem evident_merged {ms ms' : MemberSet} {rss : ReplicatedStatefulSet}
    {pods : List Pod} (h : ∀ k, ms'.lookup k
      = MemberSet.merged ms (podsToMemberSet rss pods) k) :
    Evident ms [] ms' := by
  intro flag k m' hm' hflag
  left
  rw [h] at hm'
  unfold MemberSet.merged at hm'
  split at hm'
  · next m r hm _ =>
    injection hm' with hm'
    subst hm'
    refine ⟨m, hm, ?_⟩
    cases flag with
    | running => exact hflag
    | primary => exact hflag
  · injection hm' with hm'
    subst hm'
    cases flag with
    | running => cases hflag
    | primary => cases hflag
  · obtain ⟨r, hr, rfl⟩ := Option.map_eq_some_iff.mp hm'
    obtain ⟨pod, -, -, rfl⟩ := podsToMemberSet_some hr
    cases flag with
    | running => cases hflag
    | primary => cases hflag

theorem reconcile_evident (hs : s.members.Sound) (pods : PodList)
    (hsure : ∀ e ∈ s.since (reconcile env pods s).state, e.sure = true) :
    Evident s.members (s.since (reconcile env pods s).state)
      (reconcile env pods s).state.members := by
  obtain ⟨ms, heq, hms⟩ := @mergeMembers_some env s hs.keyed pods.pods
  -- the merge leaves the trace alone
  have hsince : ∀ s', s.since s' = ((s.setPeers ms).ranged 3).since s' :=
    fun _ => rfl
  rw [reconcile_eq, heq] at hsure ⊢
  rw [hsince] at hsure ⊢
  exact Acts.evident (reconcileMerged_acts _) (evident_merged hms) hsure

/-- Success is reported only for commands that ran. For every call of
`execute` this is so exactly if the call could not be set up or the lookup
of its pod finds a container. In every pass of `reconcile` or `replicate`
whose status checks are streamed and whose starts find their containers,
a member that is `AppRunning` or `AppPrimary` at the end was so before, or
a command on it that was executed in the pass says so. -/
theorem success_means_executed (env : Env) (s : Sys)
    (hs : s.members.Sound) :
    (∀ call k pod,
        ((execute env call k pod s).1.err = none
            ∧ (execute env call k pod s).1.rc = 0 →
          (env.exec s.execs call pod).streamed = true
            ∧ (env.exec s.execs call pod).stream = .exitedZero)
        ↔ (env.exec s.execs call pod).setup.isSome = true
          ∨ (env.exec s.execs call pod).findsContainer = true)
      ∧ (∀ pods,
        (∀ e ∈ s.since (reconcile env pods s).state, e.sure = true) →
        Evident s.members (s.since (reconcile env pods s).state)
          (reconcile env pods s).state.members)
      ∧ ∀ fuel,
        (∀ e ∈ s.since (replicate env fuel s).state, e.sure = true) →
        Evident s.members (s.since (replicate env fuel s).state)
          (replicate env fuel s).state.members := by
  refine ⟨?_, ?_, ?_⟩
  · intro call k pod
    exact execute_success_iff call pod
  · intro pods
    exact reconcile_evident hs pods
  · intro fuel
    exact (replicate_acts fuel s).evident (evident_refl _)

/-- A reconciliation of three pods whose status checks are streamed. -/
theorem success_means_executed_three :
    Evident (Sys.start (.sized 3 1)).members
      ((Sys.start (.sized 3 1)).since (reconcile (.deciding fun _ => true)
        .three (Sys.start (.sized 3 1))).state)
      (reconcile (.deciding fun _ => true) .three
        (Sys.start (.sized 3 1))).state.members :=
  (success_means_executed (.deciding fun _ => true) (Sys.start (.sized 3 1))
    MemberSet.sound_empty).2.1 .three (by decide +kernel)

/-- No pod can be read. -/
def Env.podsMissing : Env :=
  .answering fun _ _ _ => { ExecAnswer.exits 1 with pod := .error "missing" }

/-- A call on such a pod returns nil and 0, and a reconciliation takes all
three pods for running; not one command was executed. -/
theorem success_without_execution :
    (execute .podsMissing .status "db-0" "db-0"
        (Sys.start (.sized 3 1))).1.err = none
      ∧ (execute .podsMissing .status "db-0" "db-0"
        (Sys.start (.sized 3 1))).1.rc = 0
      ∧ (Env.podsMissing.exec 0 .status "db-0").streamed = false
      ∧ (reconcile .podsMissing .three
        (Sys.start (.sized 3 1))).state.members.appMembers = 3
      ∧ ∀ e ∈ (reconcile .podsMissing .three
        (Sys.start (.sized 3 1))).state.trace, e.streamed = false := by
  decide +kernel

end RssOperator
