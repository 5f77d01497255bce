/-
The number of primaries over whole runs.

# The bound

A start that is counted right at the moment it is issued does not take the
application above the number of primaries that is asked for
(`tick_counts`). This module adds that nothing else does, so that the bound
holds at every moment of every run: at every entry of the record, in every
iteration (`primaries_bounded`). One primary is always allowed: it is made
when there is none, whatever the spec says.

# What the application has to do for it

It must not become a primary by itself, not while a `stop` fails and not
when its pod comes back from a deletion. It may lose the role at any time.
There has to be a command for secondaries, because the operator starts them
by the command for primaries else. And every pod of the application has to
be on every list of pods: a primary that is not on the list is not counted.
-/
import RssOperator.Proofs.Primaries

namespace RssOperator

variable {env : Env} {s s' : Sys} {k : String} {e : Event} {fuel : Nat}
  {spec : ClusterSpec} {roles roles' roles₁ : String → Role}
  {names : List String}

-- ==================================================== who makes primaries

/-- A start command for the pod. -/
def Event.startsOn (k : String) : Event → Prop
  | .exec (.start ..) _ pod _ _ _ => pod = k
  | _ => False

/-- The application becomes a primary by a start command only. -/
def Event.yields (e : Event) (roles roles' : String → Role) : Prop :=
  e.turns roles roles'
    ∧ ∀ k, roles' k = .primary → roles k = .primary ∨ e.startsOn k

/-- The roles can have gone from `roles` to `roles'` along the record, with
no primary that is not started. -/
abbrev Submits (es : List Event) (roles roles' : String → Role) : Prop :=
  Follows Event.yields (Drift.losing Role.primary).pointwise es roles roles'

theorem Submits.behaves {es : List Event} (h : Submits es roles roles') :
    Behaves (.losing .primary) es roles roles' :=
  h.mono fun _ _ _ hyields => hyields.1

/-- A start on record has the command that `startCommand` picks. -/
def Event.picked (spec : ClusterSpec) : Event → Prop
  | .exec (.start key asPrimary) _ _ _ peers _ =>
      key = startCommand spec asPrimary peers.appPrimaries
  | _ => True

theorem Event.picked_of_quiet (spec : ClusterSpec) (h : e.quiet = true) :
    e.picked spec := by
  cases e with
  | exec => cases h
  | delete => cases h
  | tag | update | get => trivial

theorem Responds.secondary {a : ExecAnswer} {asPrimary : Bool} {r r' : Role}
    (h : Responds a (.start .secondary asPrimary) r r')
    (hr' : r' = .primary) : r = .primary := by
  cases h with
  | unreached => exact hr'
  | started => cases hr'
  | startFailed _ hkeep => exact hkeep hr'

/-- A start that is not that of a primary makes none, if there is a command
for secondaries. -/
theorem Event.yields_secondary
    (hsec : (spec.commands .secondary).isSome = true)
    (hpicked : e.picked spec) (hno : e.promotes = none)
    (h : e.yields roles roles') (hk : roles' k = .primary) :
    roles k = .primary := by
  rcases h.2 k hk with hbefore | hstarts
  · exact hbefore
  · cases e with
    | exec call key pod args peers a =>
        cases call with
        | start command asPrimary =>
            cases asPrimary with
            | true => cases hno
            | false =>
                obtain rfl : pod = k := hstarts
                have hkey : command = .secondary := by
                  have hpick : command = startCommand spec false
                    peers.appPrimaries := hpicked
                  rw [hpick]
                  simp [startCommand, hsec]
                subst hkey
                exact Responds.secondary h.1.1 hk
        | status | sequence | stop => exact hstarts.elim
    | delete | tag | update | get => exact hstarts.elim

theorem Event.promotes_iff : e.promotes = some k ↔
    ∃ key pod args peers a,
      e = .exec (.start key true) k pod args peers a := by
  constructor
  · intro h
    unfold promotes at h
    split at h
    · cases h
      exact ⟨_, _, _, _, _, rfl⟩
    · cases h
  · rintro ⟨key, pod, args, peers, a, rfl⟩
    rfl

-- ============================================================= counting

/-- Those of the pods that are primaries. -/
def primariesOf (names : List String) (roles : String → Role) : Nat :=
  names.countP fun k => roles k = .primary

theorem primariesOf_le
    (h : ∀ k, roles' k = .primary → roles k = .primary) :
    primariesOf names roles' ≤ primariesOf names roles :=
  List.countP_mono_left fun k _ hk =>
    decide_eq_true (h k (of_decide_eq_true hk))

/-- One more, if one pod has changed. -/
theorem primariesOf_le_succ {pod : String} (hnd : names.Nodup)
    (h : ∀ k, roles' k = .primary → roles k = .primary ∨ k = pod) :
    primariesOf names roles' ≤ primariesOf names roles + 1 := by
  unfold primariesOf
  rw [List.countP_eq_length_filter, List.countP_eq_length_filter,
    ← List.length_cons]
  refine (List.subperm_of_subset (hnd.filter _) fun k hk => ?_).length_le
  obtain ⟨hmem, hrole⟩ := List.mem_filter.mp hk
  rcases h k (of_decide_eq_true hrole) with hbefore | rfl
  · exact List.mem_cons_of_mem pod
      (List.mem_filter.mpr ⟨hmem, decide_eq_true hbefore⟩)
  · exact List.mem_cons_self

-- ======================================================== what is on record

/-- The spec stays, and every start on record is one it picks. -/
def Picks (s s' : Sys) : Prop :=
  s'.spec = s.spec ∧ ∃ es, s'.trace = es ++ s.trace
    ∧ ∀ e ∈ es, e.picked s.spec

theorem Picks.silent (hspec : s'.spec = s.spec)
    (htrace : s'.trace = s.trace) : Picks s s' :=
  ⟨hspec, [], htrace, by simp⟩

theorem Picks.one (hspec : s'.spec = s.spec)
    (htrace : s'.trace = e :: s.trace) (he : e.picked s.spec) :
    Picks s s' := by
  refine ⟨hspec, [e], htrace, ?_⟩
  exact List.forall_mem_singleton.mpr he

theorem Picks.quiet (h : Quiet s s') : Picks s s' := by
  obtain ⟨es, htrace, hall⟩ := h.trace
  exact ⟨h.spec, es, htrace, fun e he => Event.picked_of_quiet _ (hall e he)⟩

theorem Picks.frame (env : Env) : Frame env Picks where
  refl _ := .silent rfl rfl
  trans := by
    intro s₁ s₂ s₃ h₁ h₂
    obtain ⟨hspec₁, es₁, htrace₁, hall₁⟩ := h₁
    obtain ⟨hspec₂, es₂, htrace₂, hall₂⟩ := h₂
    refine ⟨hspec₂.trans hspec₁, es₂ ++ es₁, ?_, ?_⟩
    · rw [htrace₂, htrace₁, List.append_assoc]
    · intro e he
      rcases List.mem_append.mp he with he | he
      · rw [← hspec₁]
        exact hall₂ e he
      · exact hall₁ e he
  start _ _ _ _ := .one rfl rfl rfl
  stop _ _ _ := .one rfl rfl trivial
  sequence _ _ _ := .one rfl rfl trivial
  status _ _ _ := .one rfl rfl trivial
  update _ _ _ := .silent rfl rfl
  ranged _ _ := .silent rfl rfl
  tagged _ _ _ _ := .one rfl rfl trivial
  deleted _ _ _ _ := .one rfl rfl trivial
  updateCRStatus caller s := .quiet (Quiet.updateCRStatus caller s)
  setPeers _ _ := .silent rfl rfl
  setCondition t reason message s :=
    .quiet (Quiet.setCondition t reason message s)
  clearCondition t s := .silent (Cluster.clearCondition_frame t s.c).2 rfl
  resized _ _ := .silent rfl rfl

theorem tick_failed_trace (fuel : Nat) (s : Sys) :
    (tick env fuel .failed s).state.trace = s.trace := by
  unfold tick
  split <;> rfl

theorem tick_picks (fuel : Nat) (poll : Poll) (s : Sys) :
    Picks s (tick env fuel poll s).state :=
  (Picks.frame env).tick (fun _ _ _ => .silent rfl rfl) fuel poll s

-- ====================================================== along a record

/-- At no moment along the record there are more primaries than `bound`, if
there were not before. -/
def Bounded (names : List String) (bound : Int) (es : List Event) : Prop :=
  ∀ newer older roles roles₁, es = newer ++ older →
    (∀ e ∈ older, e.answered) → Submits older roles roles₁ →
    (primariesOf names roles : Int) ≤ bound →
    (primariesOf names roles₁ : Int) ≤ bound

theorem Bounded.nil (names : List String) (bound : Int) :
    Bounded names bound [] := by
  intro newer older roles roles₁ hsplit _ hrun hinit
  rw [(List.nil_eq_append_iff.mp hsplit).2] at hrun
  replace hrun := follows_nil.mp hrun
  have hle := @primariesOf_le roles roles₁ names hrun
  omega

theorem Bounded.append {bound : Int} {es es' : List Event}
    (h : Bounded names bound es) (h' : Bounded names bound es') :
    Bounded names bound (es ++ es') := by
  intro newer older roles roles₁ hsplit hans hrun hinit
  rcases List.append_eq_append_iff.mp hsplit with
    ⟨mid, -, hback⟩ | ⟨mid, hfront, rfl⟩
  · exact h' mid older roles roles₁ hback hans hrun hinit
  · obtain ⟨roles₂, hrun', hrun⟩ := follows_append.mp hrun
    refine h newer mid roles₂ roles₁ hfront
      (fun e he => hans e (List.mem_append_left _ he)) hrun ?_
    exact h' [] es' roles roles₂ rfl
      (fun e he => hans e (List.mem_append_right _ he)) hrun' hinit

/-- An iteration that lists all pods. -/
theorem tick_bounded {running : PodList} {pending : List Pod}
    (hs : s.members.WellKeyed)
    (hsec : (s.spec.commands .secondary).isSome = true)
    (hnames : running.names.Perm names) :
    Bounded names (max 1 s.spec.getNumPrimaries)
      (s.since (tick env fuel (.pods running pending) s).state) := by
  intro newer older roles roles₁ hsplit hans hrun hinit
  have hnd : names.Nodup := hnames.nodup_iff.mp running.nodup
  obtain ⟨-, es, htrace, hpicked⟩ :=
    @tick_picks env fuel (.pods running pending) s
  rw [Sys.since_eq htrace] at hsplit
  refine hrun.keeps (I := fun roles => (primariesOf names roles : Int)
    ≤ max 1 s.spec.getNumPrimaries) ?_ ?_ hinit
  · intro r r' hr hdrift
    have hle := @primariesOf_le r r' names hdrift
    omega
  · intro newer' e older' r r' heq hbefore hr hyields
    have hmem : e ∈ es := by
      rw [hsplit, heq]
      exact List.mem_append_right _
        (List.mem_append_right _ List.mem_cons_self)
    cases hpromotes : e.promotes with
    | none =>
        have hle := @primariesOf_le r r' names fun k hk =>
          Event.yields_secondary hsec (hpicked e hmem) hpromotes hyields hk
        omega
    | some k =>
        -- all primaries there are have been counted, so one more is fine
        obtain ⟨key, pod, args, peers, a, rfl⟩ :=
          Event.promotes_iff.mp hpromotes
        have hwhole : s.since (tick env fuel (.pods running pending) s).state
            = (newer ++ newer')
              ++ .exec (.start key true) k pod args peers a :: older' := by
          rw [Sys.since_eq htrace, hsplit, heq, List.append_assoc]
        have hans' : ∀ e ∈ older', e.answered := by
          intro e he
          refine hans e ?_
          rw [heq]
          exact List.mem_append_right _ (List.mem_cons_of_mem _ he)
        have hcount :=
          (tick_counts hs hwhole hans' (Submits.behaves hbefore)).2
        rw [hnames.countP_eq] at hcount
        have hle := @primariesOf_le_succ r r' names pod hnd fun k hk =>
          (hyields.2 k hk).imp_right Eq.symm
        unfold primariesOf at hle ⊢
        omega

-- =============================================================== all runs

/-- A pass of the timer branch that lists the pods, if it lists any. -/
def Input.lists (names : List String) : Input → Prop
  | .timer _ (.pods running _) => running.names.Perm names
  | .timer _ .failed => True
  | .modify .. => False

theorem run_timer (fuel : Nat) (poll : Poll) (is : List Input) (s : Sys) :
    (run env (.timer fuel poll :: is) s).state
      = if (tick env fuel poll s).returned then
          (run env is (tick env fuel poll s).state).state
        else (tick env fuel poll s).state := by
  rw [run, Input.step]
  cases tick env fuel poll s with
  | ret | panicked | looping => rfl

theorem run_bounded (is : List Input) (hlists : ∀ i ∈ is, i.lists names)
    (hs : s.members.Sound)
    (hsec : (s.spec.commands .secondary).isSome = true) :
    Bounded names (max 1 s.spec.getNumPrimaries)
      (s.since (run env is s).state) := by
  induction is generalizing s with
  | nil =>
      rw [@Sys.since_eq s (run env [] s).state [] rfl]
      exact .nil _ _
  | cons i is ih =>
      obtain ⟨hi, hrest⟩ := List.forall_mem_cons.mp hlists
      cases i with
      | modify => exact hi.elim
      | timer fuel poll =>
          have hfirst : Bounded names (max 1 s.spec.getNumPrimaries)
              (s.since (tick env fuel poll s).state) := by
            cases poll with
            | failed =>
                rw [@Sys.since_eq s _ [] (tick_failed_trace fuel s)]
                exact .nil _ _
            | pods running pending => exact tick_bounded hs.keyed hsec hi
          have hmoves := @tick_moves env fuel poll s
          rw [run_timer]
          split
          · have hspec := (@tick_picks env fuel poll s).1
            generalize (tick env fuel poll s).state = s₁ at *
            have hlater := ih hrest (hmoves.sound hs)
              (by rw [hspec]; exact hsec)
            rw [hspec] at hlater
            rw [hmoves.since_append (run_moves is s₁)]
            exact hlater.append hfirst
          · exact hfirst

/-- At no moment of a run are there more primaries among the pods than the
spec asks for, one apart that is always allowed, if there were not before
and the application becomes a primary by a start command only. -/
theorem primaries_bounded (env : Env) (rss : ReplicatedStatefulSet)
    (is₀ is : List Input) (names : List String)
    (newer older : List Event) (roles roles₁ : String → Role)
    (hsec : let s := (run env is₀ (Sys.start rss)).state
      (s.spec.commands .secondary).isSome = true)
    (hlists : ∀ i ∈ is, i.lists names)
    (hsplit : let s := (run env is₀ (Sys.start rss)).state
      s.since (run env is s).state = newer ++ older)
    (hans : ∀ e ∈ older, e.answered) (hrun : Submits older roles roles₁)
    (hinit : let s := (run env is₀ (Sys.start rss)).state
      (primariesOf names roles : Int) ≤ max 1 s.spec.getNumPrimaries) :
    let s := (run env is₀ (Sys.start rss)).state
    (primariesOf names roles₁ : Int) ≤ max 1 s.spec.getNumPrimaries :=
  run_bounded is hlists (run_sound rss is₀) hsec newer older roles
    roles₁ hsplit hans hrun hinit

theorem Event.yields_setRole (h : e.played roles = true) :
    e.yields roles (e.setRole roles) := by
  refine ⟨Event.turns_setRole h, fun k hk => ?_⟩
  cases e with
  | exec call key pod args peers a =>
      cases call with
      | status | sequence => exact Or.inl hk
      | start command asPrimary =>
          by_cases hpod : pod = k
          · exact Or.inr hpod
          · refine Or.inl ?_
            rw [Event.setRole] at hk
            split at hk
            · rwa [Function.update_of_ne (Ne.symm hpod)] at hk
            · exact hk
      | stop =>
          refine Or.inl ?_
          rw [Event.setRole] at hk
          split at hk
          · by_cases hpod : k = pod
            · rw [hpod, Function.update_self] at hk
              cases hk
            · rwa [Function.update_of_ne hpod] at hk
          · exact hk
  | delete | tag | update | get => exact Or.inl hk

theorem submits_rolesAfter {es : List Event}
    (h : playedBy roles es = true) : Submits es roles (rolesAfter roles es) := by
  induction es with
  | nil => exact .nil (Drift.refl _ roles)
  | cons e es ih =>
      rw [playedBy, Bool.and_eq_true] at h
      exact .cons (ih h.1) (Event.yields_setRole h.2) (Drift.refl _ _)

/-- Two primaries of three members, made from nothing. -/
theorem primaries_bounded_two :
    let env : Env := .answering fun _ call _ =>
      if call = .status then .exits 7 else .exitsZero ""
    let is : List Input := [.timer 9 (.pods .three [])]
    let s := (run env [] (Sys.start (.sized 3 2))).state
    let roles := rolesAfter (fun _ => .stopped)
      (s.since (run env is s).state)
    primariesOf PodList.three.names roles = 2
      ∧ (primariesOf PodList.three.names roles : Int)
        ≤ max 1 s.spec.getNumPrimaries := by
  intro env is s roles
  have hans : ∀ e ∈ s.since (run env is s).state, e.answered := by
    decide +kernel
  have hplayed : playedBy (fun _ => .stopped)
      (s.since (run env is s).state) = true := by decide +kernel
  refine ⟨by decide +kernel, ?_⟩
  exact primaries_bounded env (.sized 3 2) [] is PodList.three.names []
    (s.since (run env is s).state) (fun _ => .stopped) roles
    (by decide +kernel) (List.forall_mem_singleton.mpr (.refl _))
    (List.nil_append _).symm hans
    (submits_rolesAfter hplayed) (by decide +kernel)

end RssOperator
