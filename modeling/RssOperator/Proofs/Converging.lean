/-
The operator and the application, from any state to the one that is asked
for.

# Behind the last fault

From some moment on the world obliges (`Env.Obliging`), all pods are
listed by every poll, and the application changes by commands only
(`Recovers`). Nothing is known of the flags or of the roles at that moment.
Then two iterations are enough: from there on the application runs on every
pod, with exactly the primaries the spec asks for, and the operator issues
no start, no stop and no deletion any more (`converges`).

# The stair

One `reconcile` brings the operator in step with the application
(`reconcile_inStep`): every failed member is stopped or its pod deleted, and
all others show their role. If it found something to report, the iteration
ends here. The next `reconcile` starts in step and reports nothing
(`reconcile_calm`), so `replicate` runs, and it meets the spec
(`replicate_obliging`). From there on there is nothing to do.

# What is published

The lists of the status are those of the last poll, in memory. They are
also what the API server has, if it grants the updates and the operator was
not mistaken about what the server had before (`Sys.InSync`): a write that
was refused once is not repeated.
-/
import RssOperator.Lib.Stabilize
import RssOperator.Proofs.Obliging

namespace RssOperator

variable {env : Env} {G : Event → Prop} {s s' s₀ : Sys} {ms : MemberSet}
  {k : String} {m : Member} {pods : PodList} {fuel : Nat}
  {spec : ClusterSpec} {roles roles' : String → Role} {r : Role}

-- =========================================================== the record

/-- An answer on record is one the world has given. -/
def Event.givenBy (env : Env) : Event → Prop
  | .exec call _ pod _ _ a => ∃ i, a = env.exec i call pod
  | _ => True

theorem Acts.given (h : Acts env G s s') :
    ∀ e ∈ s.since s', e.givenBy env := by
  have hacts : Acts env (Event.givenBy env) s s' := by
    refine Relation.ReflTransGen.mono ?_ _ _ h
    intro t t' hact
    cases hact with
    | quiet hquiet => exact .quiet hquiet
    | command hm heff hpeers htrace _ =>
        exact .command hm heff hpeers htrace ⟨_, rfl⟩
    | detect f hm hon hf hpeers htrace _ =>
        exact .detect f hm hon hf hpeers htrace ⟨_, rfl⟩
    | delete ok hm hfailed hcause hpeers htrace _ =>
        exact .delete ok hm hfailed hcause hpeers htrace trivial
  intro e he
  rcases hacts.mem_since e he with hquiet | hgiven
  · cases e with
    | exec => cases hquiet
    | delete => cases hquiet
    | tag | update | get => trivial
  · exact hgiven

theorem Env.Obliging.answered (henv : env.Obliging) {e : Event}
    (h : e.givenBy env) : e.answered := by
  cases e with
  | exec call k pod args peers a =>
      obtain ⟨i, rfl⟩ := h
      exact Or.inl (henv.reached i call pod)
  | delete | tag | update | get => trivial

theorem Env.Obliging.commandFailed (henv : env.Obliging) {e : Event}
    (h : e.givenBy env) : e.commandFailed = false := by
  cases e with
  | exec call k pod args peers a =>
      obtain ⟨i, rfl⟩ := h
      cases call with
      | start key asPrimary => simp [Event.commandFailed, henv.started]
      | stop => simp [Event.commandFailed, henv.stopped]
      | status => rfl
      | sequence => rfl
  | delete | tag | update | get => rfl

theorem reconcile_given (env : Env) (pods : PodList)
    (hs : s.members.WellKeyed) :
    ∀ e ∈ s.since (reconcile env pods s).state, e.givenBy env := by
  obtain ⟨s₀, hmerge, heq⟩ := reconcile_keyed env pods hs
  rw [heq, Outcome.state_ret]
  unfold Sys.since
  rw [← hmerge.trace]
  exact (reconcileMerged_acts s₀).given

-- ============================================================= in step

/-- A member shows the role of its application, and has no flag if its pod
is gone. -/
structure Member.InStep (spec : ClusterSpec) (r : Role) (m : Member) :
    Prop where
  fine : m.appFailed = false
  shows : m.online = true → m.ShowsCode (r.readAs spec).code
  gone : m.online = false → m.appRunning = false ∧ m.appPrimary = false

def InStep (spec : ClusterSpec) (roles : String → Role) (ms : MemberSet) :
    Prop :=
  ∀ k m, ms.lookup k = some m → m.InStep spec (roles k)

theorem Member.ShowsCode.running {code : Int} (h : m.ShowsCode code)
    (hpr : m.appPrimary = true) : m.appRunning = true := by
  rcases h with ⟨-, -, hno⟩ | ⟨-, -, hno⟩ | ⟨-, hrun, -⟩
  · rw [hno] at hpr
    cases hpr
  · rw [hno] at hpr
    cases hpr
  · exact hrun

theorem Member.InStep.whole (h : m.InStep spec r) : m.Whole where
  fine := h.fine
  running hpr := by
    cases hon : m.online with
    | true => exact (h.shows hon).running hpr
    | false =>
        rw [(h.gone hon).2] at hpr
        cases hpr
  online hrun := by
    cases hon : m.online with
    | true => rfl
    | false =>
        rw [(h.gone hon).1] at hrun
        cases hrun

/-- A status loop in an obliging world finds nobody failed. -/
theorem Env.Obliging.fine_noteStatus (henv : env.Obliging) (c : Sys)
    (hfine : m.appFailed = false) :
    (m.checkedIn env c).appFailed = false := by
  unfold Member.checkedIn
  split
  · exact hfine
  · have hcode : statusCode c.spec (env.exec c.execs .status m.name)
        ∈ [(0 : Int), 7, 8] := by
      unfold statusCode
      split
      · simp
      · exact henv.told _ _
    exact (m.showsCode_noteStatus hcode).2.trans hfine

/-- What the two loops of a `reconcile` leave of a failed member in an
obliging world. -/
theorem Env.Obliging.recoveredIn (henv : env.Obliging) (c : Sys)
    (hfailed : m.appFailed = true) (hon : m.online = true) :
    m.recoveredIn env c = m.offline ∨ m.recoveredIn env c = m.noteStopped := by
  unfold Member.recoveredIn
  rw [hfailed, hon, henv.deleted, henv.stopped]
  by_cases hover : 1 < m.failures
  · exact Or.inl (by simp [hover])
  · exact Or.inr (by simp [hover])

/-- One `reconcile` brings the operator in step with the application. -/
theorem reconcile_inStep (henv : env.Obliging) (hs : s.members.WellKeyed)
    (hrun : Behaves .none (s.since (reconcile env pods s).state) roles
      roles') :
    InStep s.spec roles' (reconcile env pods s).state.members := by
  have htracks := reconcile_tracks hs
    (fun e he => henv.answered (reconcile_given env pods hs e he)) hrun
  obtain ⟨s₀, hmerge, heq⟩ := reconcile_keyed env pods hs
  rw [heq, Outcome.state_ret] at htracks ⊢
  intro k m hm
  have hshows : m.appFailed = false → m.online = true →
      m.ShowsCode ((roles' k).readAs s.spec).code := by
    intro hfine hon
    obtain ⟨r, rfl, hshows⟩ := htracks k m hm hon hfine
    exact hshows
  rw [lookup_reconcileMerged] at hm
  obtain ⟨m₀, hm₀, rfl⟩ := Option.map_eq_some_iff.mp hm
  cases hon : m₀.online with
  | false =>
      have hk : k ∉ pods.names := by
        intro hk
        obtain ⟨m₁, hm₁, hon₁⟩ := hmerge.on_list hk
        rw [hm₀] at hm₁
        cases hm₁
        rw [hon] at hon₁
        cases hon₁
      obtain ⟨-, hrun, hpr, hfine⟩ := hmerge.unlisted hk hm₀
      rw [Member.turns_of_offline _ _ hon hfine] at hshows ⊢
      exact ⟨hfine, hshows hfine, fun _ => ⟨hrun, hpr⟩⟩
  | true =>
      have hon' : (m₀.checkedIn env (s₀.checkTurn env k)).online = true := by
        rw [Member.online_checkedIn, hon]
      generalize m₀.checkedIn env (s₀.checkTurn env k) = m₁ at hshows hon' ⊢
      cases hf : m₁.appFailed with
      | false =>
          rw [Member.recoveredIn_of_healthy _ hf] at hshows ⊢
          refine ⟨hf, hshows hf, fun hoff => ?_⟩
          rw [hon'] at hoff
          cases hoff
      | true =>
          rcases henv.recoveredIn ((checkMembers env s₀).2.recoverTurn env k)
            hf hon' with heq | heq
          · rw [heq]
            exact ⟨rfl, nofun, fun _ => ⟨rfl, rfl⟩⟩
          · rw [heq] at hshows ⊢
            exact ⟨rfl, hshows rfl, fun _ => ⟨rfl, rfl⟩⟩

-- ========================================================= a calm pass

/-- A record on which nothing but questions stands: the roles are the same
at its end, and the answers are true. -/
theorem behaves_asked (henv : env.Obliging) {es : List Event}
    (hgiven : ∀ e ∈ es, e.givenBy env)
    (hasked : ∀ e ∈ es, e.quiet = true ∨ e.check)
    (hrun : Behaves .none es roles roles') :
    roles' = roles
      ∧ ∀ k pod args peers a, .exec .status k pod args peers a ∈ es →
        a.rc = (roles pod).code := by
  induction hrun with
  | nil h =>
      refine ⟨(funext h).symm, ?_⟩
      intro k pod args peers a hmem
      cases hmem
  | @cons e es r r₁ r₂ r' _ hturn hdrift ih =>
      obtain ⟨rfl, htrue⟩ := ih
        (fun e' he' => hgiven e' (List.mem_cons_of_mem _ he'))
        (fun e' he' => hasked e' (List.mem_cons_of_mem _ he'))
      obtain rfl : r₂ = r' := funext hdrift
      rcases hasked e List.mem_cons_self with hquiet | hcheck
      · refine ⟨Event.turns_quiet hquiet hturn, ?_⟩
        intro k pod args peers a hmem
        rcases List.mem_cons.mp hmem with rfl | hmem
        · cases hquiet
        · exact htrue k pod args peers a hmem
      · cases e with
        | exec call key pod args peers a =>
            obtain rfl : call = .status := hcheck
            obtain ⟨i, rfl⟩ := hgiven _ List.mem_cons_self
            obtain ⟨hresp, hother⟩ := hturn
            refine ⟨?_, ?_⟩
            · funext k
              by_cases hk : k = pod
              · rw [hk]
                exact hresp.asked (Or.inl rfl)
              · exact hother k hk
            · intro k' pod' args' peers' a' hmem
              rcases List.mem_cons.mp hmem with heq | hmem
              · cases heq
                exact hresp.told (henv.reached _ _ _) (henv.told _ _)
              · exact htrue k' pod' args' peers' a' hmem
        | delete | tag | update | get => cases hcheck

/-- A status that finds the application up where it was not known to run is
not reported. -/
theorem statusErrors_stopped {rc : Int} (hrun : m.appRunning = false)
    (hcode : rc ∈ [(0 : Int), 7, 8]) (err : Option Err)
    (errors : List Err) : statusErrors m rc err errors = errors := by
  simp only [List.mem_cons, List.not_mem_nil, or_false] at hcode
  rcases hcode with rfl | rfl | rfl
  · rfl
  · simp [statusErrors, hrun]
  · simp [statusErrors, hrun]

/-- A member in step, found by the poll, is not reported for an answer
that shows its role. -/
theorem Member.InStep.silent {m' : Member} (h : m.InStep spec r)
    (hrun : m'.appRunning = m.appRunning)
    (hpr : m'.appPrimary = m.appPrimary) (err : Option Err)
    (errors : List Err) :
    statusErrors m' (r.readAs spec).code err errors = errors := by
  cases hon : m.online with
  | true =>
      refine statusErrors_shows ?_ err errors
      unfold Member.ShowsCode
      rw [hrun, hpr]
      exact h.shows hon
  | false =>
      exact statusErrors_stopped (hrun.trans (h.gone hon).1) (Role.code_mem _)
        err errors

/-- A member nobody knew about has no flag. -/
theorem MergedFrom.appeared (h : MergedFrom pods s s₀)
    (hm : s₀.members.lookup k = some m)
    (hnone : s.members.lookup k = none) : m.appRunning = false := by
  rw [h.entry, MemberSet.merged, hnone] at hm
  obtain ⟨r, hr, rfl⟩ := Option.map_eq_some_iff.mp hm
  obtain ⟨pod, -, -, rfl⟩ := podsToMemberSet_some hr
  rfl

/-- A `reconcile` that starts in step: it only asks, and reports
nothing. -/
theorem reconcile_calm (henv : env.Obliging) (hs : s.members.WellKeyed)
    (hstep : InStep s.spec roles s.members)
    (hrun : Behaves .none (s.since (reconcile env pods s).state) roles
      roles') :
    reconcile env pods s = .ret [] (reconcile env pods s).state
      ∧ roles' = roles
      ∧ (∀ k, (reconcile env pods s).state.OnlineAt k ↔ k ∈ pods.names)
      ∧ ∀ e ∈ s.since (reconcile env pods s).state,
        e.quiet = true ∨ e.check := by
  have hgiven := reconcile_given env pods hs
  have hfine : ∀ k m, s.members.lookup k = some m → m.appFailed = false :=
    fun k m hm => (hstep k m hm).fine
  have hshows := fun hans => @reconcile_shows env s pods
    (fun k => (roles k).code) hs hfine (fun k _ => Role.code_mem _) hans
  obtain ⟨s₀, hmerge, heq⟩ := reconcile_keyed env pods hs
  rw [heq, Outcome.state_ret] at hgiven hrun hshows ⊢
  have hhealthy := hmerge.healthy hfine
  have hstill : ∀ k m, (checkMembers env s₀).2.members.lookup k = some m →
      m.appFailed = false := by
    intro k m hm
    cases hm₀ : s₀.members.lookup k with
    | none =>
        have hnone : (checkMembers env s₀).2.members.lookup k = none :=
          lookup_range_none members_checkMember _ hm₀
        rw [hnone] at hm
        cases hm
    | some m₀ =>
        rw [lookup_checkMembers hm₀] at hm
        cases hm
        exact henv.fine_noteStatus _ (hhealthy k m₀ hm₀)
  have hrecover := @recover_healthy env _ hstill
  have hacts : Acts env Event.check s₀ (reconcileMerged env s₀).2 := by
    refine (checkMembers_acts s₀).trans (Acts.quiet ?_)
    show Quiet _ (reportReconciled env _ (recover env
      (checkMembers env s₀).2).2)
    rw [hrecover]
    exact (Quiet.ranged 1 _).trans (Quiet.reportReconciled _ _)
  have hsince : s.since (reconcileMerged env s₀).2
      = s₀.since (reconcileMerged env s₀).2 := by
    unfold Sys.since
    rw [hmerge.trace]
  have hasked : ∀ e ∈ s.since (reconcileMerged env s₀).2,
      e.quiet = true ∨ e.check := by
    rw [hsince]
    exact hacts.mem_since
  obtain ⟨hroles, htrue⟩ := behaves_asked henv hgiven hasked hrun
  have hcode : ∀ k m, s₀.members.lookup k = some m → m.online = true →
      s₀.checkedCode env k = ((roles k).readAs s.spec).code := by
    intro k m hm hon
    obtain ⟨args, peers, a, hrecord, ha⟩ := @check_on_record env s₀ k m hm
      (hmerge.name hs hm) (hhealthy k m hm) hon
    rw [← hsince] at hrecord
    rw [← ha, hmerge.spec, statusCode_readAs (htrue _ _ _ _ _ hrecord)]
  have hsilent : (checkMembers env s₀).1 = [] := by
    refine checkMembers_silent fun k m hm hf hon => ?_
    refine ⟨hmerge.name hs hm, fun err errors => ?_⟩
    rw [hcode k m hm hon]
    cases hknown : s.members.lookup k with
    | none =>
        exact statusErrors_stopped (hmerge.appeared hm hknown)
          (Role.code_mem _) err errors
    | some m' =>
        rw [hmerge.found (hmerge.listed hm hon) hknown] at hm
        cases hm
        exact (hstep k m' hknown).silent rfl rfl err errors
  have hnone : (reconcileMerged env s₀).1 = [] := by
    show appendAllNonNil (checkMembers env s₀).1
      (recover env (checkMembers env s₀).2).1 = []
    rw [hsilent, hrecover]
    rfl
  obtain ⟨-, hlisted, hgone⟩ := hshows
    fun k args peers a hmem => htrue k k args peers a hmem
  refine ⟨by rw [hnone], hroles, fun k => ⟨?_, ?_⟩, hasked⟩
  · rintro ⟨m, hm, hon⟩
    by_contra hk
    rw [(hgone k hk m hm).1] at hon
    cases hon
  · intro hk
    obtain ⟨m, hm, hon, -⟩ := hlisted k hk
    exact ⟨m, hm, hon⟩

-- ============================================================ counting

theorem Member.ShowsCode.flags (h : m.ShowsCode r.code) :
    m.appRunning = decide (r ≠ .stopped)
      ∧ m.appPrimary = decide (r = .primary) := by
  rcases h with ⟨hc, hrun, hpr⟩ | ⟨hc, hrun, hpr⟩ | ⟨hc, hrun, hpr⟩
  all_goals
    rw [hrun, hpr]
    cases r with
    | stopped => simp [Role.code] at hc ⊢
    | secondary => simp [Role.code] at hc ⊢
    | primary => simp [Role.code] at hc ⊢

theorem Role.readAs_stopped : r.readAs spec = .stopped ↔ r = .stopped := by
  unfold readAs
  split
  · next h => simp [h.1]
  · exact Iff.rfl

/-- Who is on the list, and nobody else, is there. -/
def Sys.Complete (names : List String) (s : Sys) : Prop :=
  ∀ k, s.OnlineAt k ↔ k ∈ names

theorem Sys.Complete.count {names : List String} (h : s.Complete names)
    (hnd : names.Nodup) {q : Member → Bool} {g : String → Bool}
    (hq : ∀ m, q m = true → m.online = true)
    (hg : ∀ k m, s.members.lookup k = some m → m.online = true →
      q m = g k) :
    GoMap.count q s.members = names.countP g := by
  rw [GoMap.count_eq_countP hnd fun k m hm hp => (h k).mp ⟨m, hm, hq m hp⟩]
  refine List.countP_congr fun k hk => ?_
  obtain ⟨m, hm, hon⟩ := (h k).mpr hk
  rw [hm, Option.any_some, hg k m hm hon]

section Counts

variable {names : List String} (hcomplete : s.Complete names)
  (hnd : names.Nodup) (hstep : InStep spec roles s.members)
include hcomplete hnd

theorem Sys.Complete.active : s.members.activeMembers = names.length := by
  have hcount := hcomplete.count hnd (q := Member.online)
    (g := fun _ => true) (fun _ h => h) (fun _ _ _ hon => hon)
  unfold MemberSet.activeMembers
  rw [hcount, List.countP_true]

include hstep

/-- The primaries that are counted are those of the application. -/
theorem appPrimaries_inStep :
    s.members.appPrimaries
      = names.countP fun k => (roles k).readAs spec = .primary := by
  unfold MemberSet.appPrimaries
  rw [hcomplete.count hnd (g := fun k => (roles k).readAs spec = .primary)
    (fun m h => (Member.isPrimary_iff.mp h).1) fun k m hm hon => ?_]
  obtain ⟨hrun, hpr⟩ := ((hstep k m hm).shows hon).flags
  rw [Member.isPrimary, hon, hrun, hpr]
  cases (roles k).readAs spec with
  | stopped | secondary | primary => rfl

theorem appMembers_inStep :
    s.members.appMembers = names.countP fun k => roles k ≠ .stopped := by
  unfold MemberSet.appMembers
  rw [hcomplete.count hnd (g := fun k => roles k ≠ .stopped)
    (fun m h => (Member.isRunning_iff.mp h).1) fun k m hm hon => ?_]
  obtain ⟨hrun, -⟩ := ((hstep k m hm).shows hon).flags
  rw [Member.isRunning, hon, hrun]
  simp [Role.readAs_stopped]

end Counts

-- =========================================================== replicate

theorem startedBy_primary (spec : ClusterSpec) (primaries : Int) :
    Role.startedBy (startCommand spec true primaries) = .primary := by
  unfold startCommand
  split
  · split <;> rfl
  · rfl

/-- What `replicate` issues does not deceive, unless it starts a secondary
and has no command for that. -/
theorem Event.fits_of_issued {e : Event} (hissued : e.issued spec)
    (hans : e.answered)
    (hkind : (spec.commands .secondary).isSome = true
      ∨ e.quiet = true ∨ e.raising) : e.fits spec := by
  cases e with
  | exec call k pod args peers a =>
      refine ⟨?_, hans⟩
      cases call with
      | start key asPrimary =>
          obtain rfl : key = startCommand spec asPrimary
            peers.appPrimaries := hissued
          show (Role.startedBy _).readAs spec = _
          cases asPrimary with
          | true =>
              rw [startedBy_primary, Role.readAs, if_neg (by simp)]
              rfl
          | false =>
              have hsome : (spec.commands .secondary).isSome = true := by
                rcases hkind with h | h | h
                · exact h
                · cases h
                · cases h
              have hkey : startCommand spec false peers.appPrimaries
                  = .secondary := by
                simp [startCommand, hsome]
              rw [hkey]
              have hnone : (spec.commands .secondary).isNone = false := by
                rw [← Option.not_isSome, hsome]
                rfl
              simp [Role.startedBy, Role.readAs, hnone]
      | status => trivial
      | sequence => trivial
      | stop => trivial
  | delete | tag | update | get => trivial

/-- A `replicate` that starts in step and with all pods there ends in step,
and has met the spec. -/
theorem replicate_inStep {names : List String} (henv : env.Obliging)
    (hspec : s.spec.Attainable) (hs : s.members.WellKeyed)
    (hstep : InStep s.spec roles s.members) (hcomplete : s.Complete names)
    (hnd : names.Nodup) (hlen : (names.length : Int) = s.spec.getNumReplicas)
    (hfuel : names.length < fuel)
    (hrun : Behaves .none (s.since (replicate env fuel s).state) roles
      roles') :
    replicate env fuel s = .ret [] (replicate env fuel s).state
      ∧ (replicate env fuel s).state.members.WellKeyed
      ∧ InStep s.spec roles' (replicate env fuel s).state.members
      ∧ (replicate env fuel s).state.Complete names
      ∧ (replicate env fuel s).state.members.appPrimaries
        = s.spec.getNumPrimaries
      ∧ (replicate env fuel s).state.members.appMembers
        = s.spec.getNumReplicas := by
  have hfull : s.Full s.spec.getNumReplicas :=
    ⟨fun k m hm => (hstep k m hm).whole,
      (hcomplete.active hnd).trans hlen⟩
  have hissues := @replicate_issues env fuel s
  have hgiven := hissues.given
  obtain ⟨s', hret, hfull', hprimaries, hmembers, hraising⟩ :=
    @replicate_obliging env s fuel henv hspec hfull hs (by omega)
  have honline := @replicate_onlineAt env s fuel
    (fun k m hm _ => (hstep k m hm).fine)
  rw [hret, Outcome.state_ret] at hissues hgiven hrun honline ⊢
  have hissued : ∀ e ∈ s.since s', e.issued s.spec := by
    intro e he
    rcases hissues.mem_since e he with hquiet | hissued
    · exact Event.issued_of_quiet _ hquiet
    · exact hissued
  have hacts : Acts env (fun e => e.issued s.spec ∧ e.fits s.spec) s s' := by
    refine hissues.restrict fun e he => ⟨hissued e he, ?_⟩
    refine Event.fits_of_issued (hissued e he)
      (henv.answered (hgiven e he)) ?_
    rcases hspec.secondary with hall | hsome
    · exact Or.inr ((hraising hall).mem_since e he)
    · exact Or.inl hsome
  have htracks := hacts.tracks (fun _ he => he.2)
    (fun _ _ _ _ _ he => he.1) hs hrun fun k m hm hon _ =>
      ⟨roles k, rfl, (hstep k m hm).shows hon⟩
  refine ⟨rfl, ?_, ?_, ?_, hprimaries, hmembers⟩
  · exact Acts.keep (fun _ _ hs hact => hact.keyed hs) hacts hs
  · intro k m hm
    have hwhole := hfull'.1 k m hm
    refine ⟨hwhole.fine, fun hon => ?_, fun hoff => ?_⟩
    · obtain ⟨r, rfl, hshows⟩ := htracks k m hm hon hwhole.fine
      exact hshows
    · have hrun : m.appRunning = false := by
        rw [← Bool.not_eq_true]
        intro hbad
        rw [hwhole.online hbad] at hoff
        cases hoff
      refine ⟨hrun, ?_⟩
      rw [← Bool.not_eq_true]
      intro hbad
      rw [hwhole.running hbad] at hrun
      cases hrun
  · intro k
    rw [honline (fun e he => henv.commandFailed (hgiven e he)) k]
    exact hcomplete k

-- ======================================================= one iteration

/-- Nobody comes online in a `reconcile` who is not on its list. -/
theorem reconcile_listed (hs : s.members.WellKeyed)
    (h : (reconcile env pods s).state.OnlineAt k) : k ∈ pods.names := by
  obtain ⟨s₀, hmerge, heq⟩ := reconcile_keyed env pods hs
  rw [heq, Outcome.state_ret] at h
  obtain ⟨m, hm, hon⟩ := h
  rw [lookup_reconcileMerged] at hm
  obtain ⟨m₀, hm₀, rfl⟩ := Option.map_eq_some_iff.mp hm
  by_contra hk
  obtain ⟨hoff, -, -, hfine⟩ := hmerge.unlisted hk hm₀
  rw [Member.turns_of_offline _ _ hoff hfine, hoff] at hon
  cases hon

/-- The operator and the application. -/
abbrev Plant : Type := Sys × (String → Role)

/-- Nothing is known but the spec. -/
structure Plant.Any (spec : ClusterSpec) (x : Plant) : Prop where
  same : x.1.spec = spec
  keyed : x.1.members.WellKeyed

/-- The flags show the roles. -/
structure Plant.Known (spec : ClusterSpec) (x : Plant) : Prop
    extends x.Any spec where
  inStep : InStep spec x.2 x.1.members

/-- The application is what the spec asks for, and the operator knows. -/
structure Plant.Converged (spec : ClusterSpec) (names : List String)
    (x : Plant) : Prop extends x.Known spec where
  complete : x.1.Complete names
  primaries : (names.countP fun k => (x.2 k).readAs spec = .primary)
    = spec.getNumPrimaries
  running : ∀ k ∈ names, x.2 k ≠ .stopped

theorem Event.intervenes_of_asked {e : Event}
    (h : e.quiet = true ∨ e.check) : e.intervenes = false := by
  cases e with
  | exec call k pod args peers a =>
      rcases h with h | h
      · cases h
      · obtain rfl : call = .status := h
        rfl
  | delete =>
      rcases h with h | h
      · cases h
      · exact h.elim
  | tag | update | get => rfl

section Iteration

variable {names : List String} (henv : env.Obliging)
  (hspec : s.spec.Attainable) (hs : s.members.WellKeyed)
  (hpods : pods.names.Perm names)
  (hlen : (names.length : Int) = s.spec.getNumReplicas)
  (hfuel : names.length < fuel)
  (hrun : Behaves .none
    (s.since (reconcileBranch env fuel pods s).state) roles roles')
include henv hspec hs hpods hlen hfuel hrun

/-- An iteration comes back in step with the application. If it began so,
it has met the spec. -/
theorem reconcileBranch_inStep :
    (reconcileBranch env fuel pods s).returned = true
      ∧ (reconcileBranch env fuel pods s).state.members.WellKeyed
      ∧ InStep s.spec roles' (reconcileBranch env fuel pods s).state.members
      ∧ (InStep s.spec roles s.members → Plant.Converged s.spec names
          ((reconcileBranch env fuel pods s).state, roles')) := by
  have hnd : names.Nodup := hpods.nodup_iff.mp pods.nodup
  obtain ⟨htrace, -, hs₁⟩ := reconcile_record env pods hs
  have hsteady := (Steady.frame env).reconcile pods s
  have hin := fun roles₁ => @reconcile_inStep env s pods roles roles₁ henv hs
  have hcalm := fun roles₁ hstep => @reconcile_calm env s pods roles roles₁
    henv hs hstep
  have hlisted : ∀ k, (reconcile env pods s).state.OnlineAt k → k ∈ names :=
    fun k hon => hpods.mem_iff.mp (reconcile_listed hs hon)
  obtain ⟨s₀, -, hrec⟩ := reconcile_keyed env pods hs
  generalize (reconcileMerged env s₀).1 = errors at hrec
  generalize (reconcileMerged env s₀).2 = s₁ at hrec
  rw [hrec, Outcome.state_ret] at htrace hs₁ hsteady hin hcalm hlisted
  by_cases hclean : appendAllNonNil [] errors = []
  · -- behind a clean pass all pods are there, and `replicate` runs
    have hcomplete : s₁.Complete names := fun k =>
      ⟨hlisted k, fun hk => reconcile_online hs hrec hclean k
        (hpods.mem_iff.mpr hk)⟩
    obtain ⟨es, hsince, -⟩ :=
      @reconcileBranch_since env s pods fuel errors s₁ hs hrec hclean
    rw [hsince] at hrun
    obtain ⟨roles₂, hrun, hlast⟩ := follows_append.mp hrun
    obtain ⟨roles₁, hrun₁, hrun₂⟩ := follows_append.mp hrun
    have hstep₁ := hin _ hrun₁
    rw [← hsteady.spec] at hspec hlen hstep₁
    obtain ⟨hrep, hs₂, hstep₂, hcomplete₂, hprimaries, hmembers⟩ :=
      replicate_inStep henv hspec hs₁ hstep₁ hcomplete hnd hlen hfuel hrun₂
    have hend := reconcileBranch_replicated hrec hclean hrep
    rw [hend, Outcome.state_ret] at hsince ⊢
    -- no second `reconcile`, so nothing is on record behind `replicate`
    have hnone : es = [] := by
      have hboth := (@replicate_acts env fuel s₁).trace_eq
      rw [htrace, ← List.append_assoc] at hboth
      rw [Sys.since_eq hboth] at hsince
      exact List.self_eq_append_left.mp hsince
    rw [hnone, follows_nil] at hlast
    obtain rfl : roles₂ = roles' := funext hlast
    have hsame := ((Steady.frame env).replicate fuel s₁).spec.trans
      hsteady.spec
    rw [hsteady.spec] at hstep₂ hprimaries hmembers hlen
    refine ⟨rfl, hs₂, hstep₂, fun _ =>
      ⟨⟨⟨hsame, hs₂⟩, hstep₂⟩, hcomplete₂, ?_, ?_⟩⟩
    · rw [← hprimaries, appPrimaries_inStep hcomplete₂ hnd hstep₂]
    · rw [← hlen, appMembers_inStep hcomplete₂ hnd hstep₂] at hmembers
      intro k hk
      exact of_decide_eq_true
        (List.countP_eq_length.mp (Int.ofNat_inj.mp hmembers) k hk)
  · have hend := @reconcileBranch_failed env s pods fuel errors s₁ hrec
      hclean
    rw [hend, Outcome.state_ret] at hrun ⊢
    refine ⟨rfl, hs₁, hin _ hrun, fun hstep => ?_⟩
    obtain ⟨hnone, -⟩ := hcalm _ hstep hrun
    injection hnone with hnone
    rw [hnone] at hclean
    exact absurd rfl hclean

/-- When the spec is met there is nothing left to do. -/
theorem reconcileBranch_converged
    (hmet : Plant.Converged s.spec names (s, roles)) :
    roles' = roles ∧
      ∀ e ∈ s.since (reconcileBranch env fuel pods s).state,
        e.intervenes = false := by
  have hnd : names.Nodup := hpods.nodup_iff.mp pods.nodup
  obtain ⟨htrace, -, -⟩ := reconcile_record env pods hs
  have hsteady := (Steady.frame env).reconcile pods s
  have hin := fun roles₁ => @reconcile_inStep env s pods roles roles₁ henv hs
  have hcalm := fun roles₁ => @reconcile_calm env s pods roles roles₁
    henv hs hmet.inStep
  have hfirst : ∃ roles₁, Behaves .none
      (s.since (reconcile env pods s).state) roles roles₁ := by
    obtain ⟨es, hes⟩ := reconcileBranch_reconciles env fuel pods hs
    rw [hes] at hrun
    obtain ⟨roles₁, hrun₁, -⟩ := follows_append.mp hrun
    exact ⟨roles₁, hrun₁⟩
  obtain ⟨roles₁, hrun₁⟩ := hfirst
  obtain ⟨hrec, rfl, honline, hasked⟩ := hcalm _ hrun₁
  have hstep := hin _ hrun₁
  generalize (reconcile env pods s).state = s₁ at *
  have hcomplete : s₁.Complete names :=
    fun k => (honline k).trans hpods.mem_iff
  have hrep : replicate env fuel s₁
      = .ret [] (updateCRStatus env "replicate" s₁).2 := by
    refine replicate_converged env (by omega) ?_ ?_ ?_ ?_
    all_goals rw [hsteady.spec]
    · exact hspec.replicas
    · rw [appMembers_inStep hcomplete hnd hstep, ← hlen]
      exact congrArg Int.ofNat (List.countP_eq_length.mpr fun k hk =>
        decide_eq_true (hmet.running k hk))
    · rw [appPrimaries_inStep hcomplete hnd hstep]
      exact hmet.primaries
    · have := hspec.primaries
      omega
  rw [reconcileBranch_replicated hrec rfl hrep, Outcome.state_ret] at hrun ⊢
  obtain ⟨es, hes, hquiet⟩ := (@Quiet.updateCRStatus env "replicate" s₁).trace
  rw [htrace, ← List.append_assoc] at hes
  rw [Sys.since_eq hes] at hrun ⊢
  obtain ⟨roles₂, hrun₂, hlast⟩ := follows_append.mp hrun
  obtain ⟨-, rfl, -⟩ := hcalm _ hrun₂
  refine ⟨funext fun k => (behaves_quiet hquiet hlast k).symm, ?_⟩
  intro e he
  rcases List.mem_append.mp he with hmem | hmem
  · exact Event.intervenes_of_asked (Or.inl (hquiet e hmem))
  · exact Event.intervenes_of_asked (hasked e hmem)

end Iteration

-- ============================================================== rounds

/-- An iteration of the main loop, and what the application does along
it. -/
structure Round (env : Env) (fuel : Nat) (pods : PodList) (x y : Plant) :
    Prop where
  ticked : (tick env fuel (.pods pods []) x.1).state = y.1
  behaves : Behaves .none (x.1.since y.1) x.2 y.2

def Plant.stair (spec : ClusterSpec) (names : List String) :
    Nat → Plant → Prop
  | 0, x => x.Any spec
  | 1, x => x.Known spec
  | _, x => x.Converged spec names

/-- What a poll notes is no concern of the application. -/
theorem Round.branch {x y : Plant} (hround : Round env fuel pods x y)
    (hactive : x.1.spec.paused = false) (hpods : pods.pods ≠ []) :
    ∃ s₀, Quiet x.1 s₀
      ∧ tick env fuel (.pods pods []) x.1 = reconcileBranch env fuel pods s₀
      ∧ x.1.since y.1
        = s₀.since (reconcileBranch env fuel pods s₀).state ++ x.1.since s₀
      ∧ Behaves .none (s₀.since (reconcileBranch env fuel pods s₀).state)
        x.2 y.2 := by
  have hquiet : Quiet x.1
      (noteRestoreReplicas env pods (x.1.polled env pods)) :=
    ((Quiet.mapStatus _ _).trans (Quiet.updateMemberStatus _ _)).trans
      (Quiet.noteRestoreReplicas _ _)
  have htick := @tick_pods env x.1 pods [] fuel hactive
  rw [if_neg (by simp), if_neg hpods] at htick
  generalize noteRestoreReplicas env pods (x.1.polled env pods) = s₀
    at hquiet htick
  have hsince := (Moves.quiet hquiet).since_append
    (@reconcileBranch_moves env fuel pods s₀)
  have hrun := hround.behaves
  rw [← hround.ticked, htick, hsince] at hrun
  obtain ⟨roles, hfirst, hrun⟩ := follows_append.mp hrun
  obtain ⟨es, hes, hall⟩ := hquiet.trace
  rw [Sys.since_eq hes] at hfirst
  obtain rfl : x.2 = roles := funext (behaves_quiet hall hfirst)
  refine ⟨s₀, hquiet, htick, ?_, hrun⟩
  rw [← hsince, ← htick, hround.ticked]

theorem Plant.Converged.of_quiet {names : List String} {x : Plant}
    (hmet : x.Converged s₀.spec names) (hquiet : Quiet x.1 s₀) :
    Plant.Converged s₀.spec names (s₀, x.2) := by
  have hmembers := hquiet.members
  refine ⟨⟨⟨rfl, ?_⟩, ?_⟩, fun k => ?_, hmet.primaries, hmet.running⟩
  · rw [hmembers]
    exact hmet.keyed
  · rw [hmembers]
    exact hmet.inStep
  · show (∃ m, s₀.members.lookup k = some m ∧ _) ↔ _
    rw [hmembers]
    exact hmet.complete k

section Rounds

variable {names : List String} (henv : env.Obliging)
  (hspec : spec.Attainable)
  (hlen : (names.length : Int) = spec.getNumReplicas)
  (hfuel : names.length < fuel)
include henv hspec hlen hfuel

/-- One round, from anywhere: it returns and leads down the stair, and at
the foot of it nothing happens. -/
theorem Round.leads {x y : Plant} (hround : Round env fuel pods x y)
    (hpods : pods.names.Perm names) (hx : x.Any spec) :
    (tick env fuel (.pods pods []) x.1).returned = true
      ∧ y.Known spec
      ∧ (x.Known spec → y.Converged spec names)
      ∧ (x.Converged spec names → y.2 = x.2 ∧
          ∀ e ∈ x.1.since y.1, e.intervenes = false) := by
  obtain rfl := hx.same
  have hne : pods.pods ≠ [] := by
    intro hnil
    have hlen' := hpods.length_eq
    rw [PodList.names, hnil] at hlen'
    have := hspec.replicas
    simp only [List.map_nil, List.length_nil] at hlen'
    omega
  obtain ⟨s₀, hquiet, htick, hsince, hrun⟩ := hround.branch hspec.active hne
  have hstate := hround.ticked
  rw [htick] at hstate ⊢
  rw [← hquiet.spec] at hspec hlen ⊢
  have hs₀ : s₀.members.WellKeyed := by
    rw [hquiet.members]
    exact hx.keyed
  obtain ⟨hret, hkeyed, hstep, hmeets⟩ :=
    reconcileBranch_inStep henv hspec hs₀ hpods hlen hfuel hrun
  have hidle :=
    reconcileBranch_converged henv hspec hs₀ hpods hlen hfuel hrun
  have hsteady : y.1.spec = s₀.spec := by
    rw [← hstate]
    exact ((Steady.frame env).reconcileBranch fuel pods s₀).spec
  rw [hstate] at hkeyed hstep hmeets hidle hsince
  refine ⟨hret, ⟨⟨hsteady, hkeyed⟩, hstep⟩, fun hknown => ?_, fun hmet => ?_⟩
  · refine hmeets ?_
    rw [hquiet.members]
    exact hknown.inStep
  · obtain ⟨hroles, hnone⟩ := hidle (hmet.of_quiet hquiet)
    refine ⟨hroles, fun e he => ?_⟩
    rw [hsince] at he
    rcases List.mem_append.mp he with hmem | hmem
    · exact hnone e hmem
    · obtain ⟨es, hes, hall⟩ := hquiet.trace
      rw [Sys.since_eq hes] at hmem
      exact Event.intervenes_of_asked (Or.inl (hall e hmem))

end Rounds

/-- The list a running member that has not failed is to be found in. -/
def MemberList.ofRole : MemberList → Role → Bool
  | primary, r => r = .primary
  | secondary, r => r = .secondary
  | _, _ => false

theorem Member.InStep.takes {running : List String} {l : MemberList}
    (h : m.InStep spec r) (hon : m.online = true)
    (hmem : running.contains m.name = true) (hl : l ≠ .unready) :
    l.takes running m = l.ofRole (r.readAs spec) := by
  obtain ⟨hrun, hpr⟩ := (h.shows hon).flags
  cases l with
  | unready => exact absurd rfl hl
  | failed =>
      rw [MemberList.takes, hmem, h.fine]
      rfl
  | primary | secondary =>
      rw [MemberList.takes, hmem, h.fine, hrun, hpr]
      cases r.readAs spec with
      | stopped | secondary | primary => rfl

theorem MemberList.takes_running {running : List String} {l : MemberList}
    (h : l.takes running m = true) (hl : l ≠ .unready) :
    m.name ∈ running := by
  cases l with
  | unready => exact absurd rfl hl
  | failed | primary | secondary =>
      simp only [takes, Bool.and_eq_true, List.contains_iff_mem] at h
      tauto

/-- When the spec is met the lists of the next poll are the roles. -/
theorem Plant.Converged.lists {names running : List String} {x : Plant}
    {o : Order String} {l : MemberList} (hmet : x.Converged spec names)
    (hperm : running.Perm names) (hnd : names.Nodup) (hl : l ≠ .unready) :
    (l.names running o x.1.members).Perm
      (names.filter fun k => l.ofRole ((x.2 k).readAs spec)) := by
  refine GoMap.collect_perm_filter o hnd hmet.keyed ?_ fun k hk => ?_
  · intro k m hm htakes
    rw [← hmet.keyed k m hm]
    exact hperm.mem_iff.mp (MemberList.takes_running htakes hl)
  · obtain ⟨m, hm, hon⟩ := (hmet.complete k).mpr hk
    rw [hm, Option.any_some]
    refine (hmet.inStep k m hm).takes hon ?_ hl
    rw [hmet.keyed k m hm]
    exact List.contains_iff_mem.mpr (hperm.mem_iff.mpr hk)

/-- What an iteration lists when the spec is met. -/
theorem Round.lists {names : List String} {x y : Plant}
    (hround : Round env fuel pods x y) (henv : env.Obliging)
    (hspec : spec.Attainable)
    (hlen : (names.length : Int) = spec.getNumReplicas)
    (hfuel : names.length < fuel) (hpods : pods.names.Perm names)
    (hmet : x.Converged spec names) :
    let st := y.1.c.status.members
    let plays := fun r k => decide ((y.2 k).readAs spec = r)
    st.ready = pods.names ∧ st.failed = []
      ∧ st.primary.Perm (names.filter (plays .primary))
      ∧ st.secondary.Perm (names.filter (plays .secondary)) := by
  intro st plays
  obtain ⟨-, -, -, hidle⟩ := hround.leads henv hspec hlen hfuel hpods
    hmet.toAny
  have hactive : x.1.spec.paused = false := by
    rw [hmet.same]
    exact hspec.active
  have hst : st = (x.1.c.status.listing pods.names
      (env.order x.1.orders) x.1.members).members := by
    rw [← tick_lists fuel hactive, hround.ticked]
  have hplays : plays = fun r k => decide ((x.2 k).readAs spec = r) := by
    simp only [plays, (hidle hmet).1]
  clear_value st plays
  subst hst hplays
  have hnd : names.Nodup := hpods.nodup_iff.mp pods.nodup
  have hlists := fun l => @Plant.Converged.lists spec names pods.names x
    (env.order x.1.orders) l hmet hpods hnd
  refine ⟨rfl, ?_, hlists .primary nofun, hlists .secondary nofun⟩
  refine List.eq_nil_iff_forall_not_mem.mpr fun k hk => ?_
  obtain ⟨-, hno⟩ :=
    List.mem_filter.mp ((hlists .failed nofun).mem_iff.mp hk)
  cases hno

-- ====================================================== what is published

/-- The operator's record of the status is what the server has. -/
structure Sys.InSync (s : Sys) : Prop where
  record : s.c.rss.status = s.stored.status
  own : s.c.shared = false

/-- Every update is granted. -/
def Env.Grants (env : Env) : Prop := ∀ n, env.update n = none

theorem Env.Grants.frame (henv : env.Grants) :
    Frame env fun s s' => s.InSync → s'.InSync where
  refl _ := id
  trans h h' := h' ∘ h
  start _ _ _ _ h := ⟨h.record, h.own⟩
  stop _ _ _ h := ⟨h.record, h.own⟩
  sequence _ _ _ h := ⟨h.record, h.own⟩
  status _ _ _ h := ⟨h.record, h.own⟩
  update _ _ _ h := ⟨h.record, h.own⟩
  setPeers _ _ h := ⟨h.record, h.own⟩
  ranged _ _ h := ⟨h.record, h.own⟩
  tagged _ _ _ _ h := ⟨h.record, h.own⟩
  deleted _ _ _ _ h := ⟨h.record, h.own⟩
  resized _ _ h := ⟨h.record, h.own⟩
  setCondition t reason message s h := by
    obtain ⟨hrss, hown⟩ := Cluster.setClusterCondition_record
      (env.grow s.calls) (newClusterCondition t .isTrue reason message
        (env.now s.calls)) h.own
    exact ⟨(congrArg ReplicatedStatefulSet.status hrss).trans h.record, hown⟩
  clearCondition t s h := by
    obtain ⟨hrss, hown⟩ := Cluster.clearCondition_record t h.own
    exact ⟨(congrArg ReplicatedStatefulSet.status hrss).trans h.record, hown⟩
  updateCRStatus caller s h := by
    by_cases heq : s.c.rss.status = s.c.status
    · rw [updateCRStatus_equal caller heq]
      exact h
    · rw [updateCRStatus_differ caller heq, henv]
      exact ⟨rfl, rfl⟩

/-- The last thing an iteration does is to write its status. -/
theorem reconcileBranch_record
    (h : (reconcileBranch env fuel pods s).returned = true) :
    (reconcileBranch env fuel pods s).state.c.rss.status
      = (reconcileBranch env fuel pods s).state.c.status := by
  have hwrites : ∀ (caller : String) (s : Sys),
      (updateCRStatus env caller s).2.c.rss.status
        = (updateCRStatus env caller s).2.c.status := by
    intro caller s
    rw [updateCRStatus_record, updateCRStatus_status]
  have hreconcile : ∀ {s s' : Sys} {errors : List Err},
      reconcile env pods s = .ret errors s' →
        s'.c.rss.status = s'.c.status := by
    intro s s' errors h
    rw [reconcile_eq] at h
    split at h
    · cases h
    · cases h
      exact hwrites _ _
  obtain ⟨errors, hret⟩ := Outcome.eq_ret_of_returned h
  generalize (reconcileBranch env fuel pods s).state = s' at hret ⊢
  obtain ⟨reconciled, s₁, hrec, hret⟩ := Outcome.andThen_eq_ret hret
  dsimp only at hret
  split at hret
  · obtain ⟨replicated, s₂, hrep, hret⟩ := Outcome.andThen_eq_ret hret
    split at hret
    · cases hret
      obtain ⟨_, s₃, -, hrep⟩ := Outcome.andThen_eq_ret hrep
      cases hrep
      exact hwrites _ _
    · obtain ⟨again, s₃, hagain, hret⟩ := Outcome.andThen_eq_ret hret
      cases hret
      exact hreconcile hagain
  · cases hret
    exact hreconcile hrec

/-- A round that returns leaves the record right and publishes the
status. -/
theorem Round.publishes {x y : Plant} (hround : Round env fuel pods x y)
    (hactive : x.1.spec.paused = false) (hpods : pods.pods ≠ [])
    (hret : (tick env fuel (.pods pods []) x.1).returned = true)
    (henv : env.Grants) (hx : x.1.InSync) :
    y.1.InSync ∧ y.1.stored.status = y.1.c.status := by
  have hsync : y.1.InSync := by
    rw [← hround.ticked]
    exact henv.frame.tick (fun _ _ _ h => ⟨h.record, h.own⟩) fuel _ _ hx
  obtain ⟨s₀, -, htick, -⟩ := hround.branch hactive hpods
  have hrecord := reconcileBranch_record (htick ▸ hret)
  rw [← htick, hround.ticked] at hrecord
  exact ⟨hsync, hsync.record.symm.trans hrecord⟩

-- ============================================================== recovery

/-- Rounds in a world that obliges and lists these pods in every poll. -/
structure Fair (env : Env) (fuel t : Nat) (names : List String)
    (polls : Nat → PodList) (ρ : Nat → Plant) : Prop where
  obliging : env.Obliging
  enough : names.length < fuel
  listed : ∀ i, i < t → (polls i).names.Perm names
  rounds : ∀ i, i < t → Round env fuel (polls i) (ρ i) (ρ (i + 1))

/-- They are all the pods of a spec that can be met. -/
structure Recovers (env : Env) (fuel t : Nat) (names : List String)
    (polls : Nat → PodList) (ρ : Nat → Plant) : Prop
    extends Fair env fuel t names polls ρ where
  attainable : (ρ 0).1.spec.Attainable
  length : (names.length : Int) = (ρ 0).1.spec.getNumReplicas

namespace Recovers

variable {t : Nat} {names : List String} {polls : Nat → PodList}
  {ρ : Nat → Plant} (h : Recovers env fuel t names polls ρ)
  (hkeyed : (ρ 0).1.members.WellKeyed)
include h

theorem polled {i : Nat} (hi : i < t) : (polls i).pods ≠ [] := by
  intro hnil
  have hlen := (h.listed i hi).length_eq
  have hpos := h.attainable.replicas
  have hcount := h.length
  rw [PodList.names, hnil] at hlen
  simp only [List.map_nil, List.length_nil] at hlen
  omega

include hkeyed

/-- From the second round on the spec is met. -/
theorem converged :
    (∀ i, i < t → (ρ i).Any (ρ 0).1.spec)
      ∧ ∀ i, 2 ≤ i → i ≤ t → (ρ i).Converged (ρ 0).1.spec names := by
  obtain ⟨⟨henv, hfuel, hpolls, hrounds⟩, hspec, hlen⟩ := h
  have hany : (ρ 0).Any (ρ 0).1.spec := ⟨rfl, hkeyed⟩
  generalize (ρ 0).1.spec = spec at *
  have hrun : Rounds (fun x y => ∃ pods : PodList, pods.names.Perm names
      ∧ Round env fuel pods x y) t ρ :=
    fun i hi => ⟨polls i, hpolls i hi, hrounds i hi⟩
  constructor
  · refine fun i hi => stabilizes_of_kept ?_ t ρ hrun hany i (Nat.zero_le i)
      (Nat.le_of_lt hi)
    rintro x y hx ⟨pods, hpods, hround⟩
    exact (hround.leads henv hspec hlen hfuel hpods hx).2.1.toAny
  · refine stabilizes_of_stair (Plant.stair spec names) ?_ ?_ t ρ hrun hany
    · rintro i hi x y hx ⟨pods, hpods, hround⟩
      obtain rfl | rfl : i = 0 ∨ i = 1 := by omega
      · exact (hround.leads henv hspec hlen hfuel hpods hx).2.1
      · have hknown : x.Known spec := hx
        exact (hround.leads henv hspec hlen hfuel hpods
          hknown.toAny).2.2.1 hknown
    · rintro x y hx ⟨pods, hpods, hround⟩
      have hmet : x.Converged spec names := hx
      exact (hround.leads henv hspec hlen hfuel hpods
        hmet.toAny).2.2.1 hmet.toKnown

/-- Each round returns, and does nothing where the spec is met. -/
theorem leads (i : Nat) (hi : i < t) :
    (tick env fuel (.pods (polls i) []) (ρ i).1).returned = true
      ∧ ((ρ i).Converged (ρ 0).1.spec names →
          (ρ (i + 1)).2 = (ρ i).2 ∧ ∀ e ∈ (ρ i).1.since (ρ (i + 1)).1,
            e.intervenes = false) := by
  obtain ⟨hret, -, -, hidle⟩ := (h.rounds i hi).leads h.obliging
    h.attainable h.length h.enough (h.listed i hi)
    ((h.converged hkeyed).1 i hi)
  exact ⟨hret, hidle⟩

/-- From the third round on the lists are the roles. -/
theorem lists (i : Nat) (hfrom : 2 ≤ i) (hi : i < t) :
    let st : MembersStatus := (ρ (i + 1)).1.c.status.members
    let plays := fun r k =>
      decide (Role.readAs (ρ 0).1.spec ((ρ (i + 1)).2 k) = r)
    st.ready = (polls i).names ∧ st.failed = []
      ∧ st.primary.Perm (names.filter (plays .primary))
      ∧ st.secondary.Perm (names.filter (plays .secondary)) :=
  (h.rounds i hi).lists h.obliging h.attainable h.length h.enough
    (h.listed i hi) ((h.converged hkeyed).2 i hfrom (Nat.le_of_lt hi))

/-- The status of each round is published, if the server grants it. -/
theorem publishes (henv : env.Grants) (hsync : (ρ 0).1.InSync) (i : Nat)
    (hi : i < t) :
    (ρ (i + 1)).1.stored.status = (ρ (i + 1)).1.c.status := by
  have hround : ∀ j, j < t → (ρ j).1.InSync → (ρ (j + 1)).1.InSync
      ∧ (ρ (j + 1)).1.stored.status = (ρ (j + 1)).1.c.status := by
    intro j hj hx
    refine (h.rounds j hj).publishes ?_ (h.polled hj)
      (h.leads hkeyed j hj).1 henv hx
    rw [((h.converged hkeyed).1 j hj).same]
    exact h.attainable.active
  have hkept : ∀ j, j < t → (ρ j).1.InSync := by
    intro j
    induction j with
    | zero => exact fun _ => hsync
    | succ j ih =>
        intro hj
        exact (hround j (by omega) (ih (by omega))).1
  exact (hround i hi (hkept i hi)).2

end Recovers

section Recovery

variable {t : Nat} {names : List String} {polls : Nat → PodList}
  {ρ : Nat → Plant} {env₀ : Env} {rss : ReplicatedStatefulSet}
  {is : List Input} (h : Recovers env fuel t names polls ρ)
  -- what comes before is any run in any world
  (hstart : (ρ 0).1 = (run env₀ is (Sys.start rss)).state)
include h hstart

/-- The spec is met two iterations behind the last fault, and nothing is
done from there on. Before that, flags may be wrong, members may have
failed, and the application may be in any roles. -/
theorem converges :
    (∀ i, i < t →
        (tick env fuel (.pods (polls i) []) (ρ i).1).returned = true)
      ∧ ∀ i, 2 ≤ i → i ≤ t →
        (names.countP fun k => ((ρ i).2 k).readAs (ρ 0).1.spec = .primary)
            = (ρ 0).1.spec.getNumPrimaries
          ∧ (∀ k ∈ names, (ρ i).2 k ≠ .stopped)
          ∧ (i < t → (ρ (i + 1)).2 = (ρ i).2 ∧
              ∀ e ∈ (ρ i).1.since (ρ (i + 1)).1,
                e.intervenes = false) := by
  have hkeyed : (ρ 0).1.members.WellKeyed :=
    hstart ▸ (run_sound rss is).keyed
  have hleads := h.leads hkeyed
  refine ⟨fun i hi => (hleads i hi).1, fun i hfrom hi => ?_⟩
  have hmet := (h.converged hkeyed).2 i hfrom hi
  exact ⟨hmet.primaries, hmet.running, fun hlt => (hleads i hlt).2 hmet⟩

/-- From the third iteration on the lists of the status are the roles of
the application; and that is the status the API server has, if it grants
the updates and the operator's record of it was right at the beginning. -/
theorem converged_listing (i : Nat) (hfrom : 2 ≤ i) (hi : i < t) :
    let st : MembersStatus := (ρ (i + 1)).1.c.status.members
    let plays := fun r k =>
      decide (Role.readAs (ρ 0).1.spec ((ρ (i + 1)).2 k) = r)
    st.ready = (polls i).names ∧ st.failed = []
      ∧ st.primary.Perm (names.filter (plays .primary))
      ∧ st.secondary.Perm (names.filter (plays .secondary))
      ∧ (env.Grants → (ρ 0).1.InSync →
          (ρ (i + 1)).1.stored.status = (ρ (i + 1)).1.c.status) := by
  have hkeyed : (ρ 0).1.members.WellKeyed :=
    hstart ▸ (run_sound rss is).keyed
  obtain ⟨hready, hfailed, hprimary, hsecondary⟩ :=
    h.lists hkeyed i hfrom hi
  exact ⟨hready, hfailed, hprimary, hsecondary, fun hgrants hsync =>
    h.publishes hkeyed hgrants hsync i hi⟩

end Recovery

/-- The round in which each command that succeeds has its effect. -/
def Plant.next (env : Env) (fuel : Nat) (pods : PodList) (x : Plant) :
    Plant :=
  let s := (tick env fuel (.pods pods []) x.1).state
  (s, rolesAfter x.2 (x.1.since s))

def Plant.after (env : Env) (fuel : Nat) (pods : PodList) (x : Plant) :
    Nat → Plant
  | 0 => x
  | i + 1 => (x.after env fuel pods i).next env fuel pods

theorem Plant.after_zero (s : Sys) (roles : String → Role) :
    (Plant.after env fuel pods (s, roles) 0).1 = s := rfl

theorem Plant.rounds_after {x : Plant} {t : Nat}
    (h : ∀ i, i < t → playedBy (x.after env fuel pods i).2
      ((x.after env fuel pods i).1.since (x.after env fuel pods (i + 1)).1)
        = true) :
    ∀ i, i < t → Round env fuel pods (x.after env fuel pods i)
      (x.after env fuel pods (i + 1)) :=
  fun i hi => ⟨rfl, behaves_rolesAfter (h i hi)⟩

/-- Every command but `status` succeeds, and that one tells a role. -/
theorem Env.answering_obliging {f : Nat → String → ExecAnswer}
    (hf : ∀ n pod, (f n pod).streamed = true
      ∧ (f n pod).rc ∈ [(0 : Int), 7, 8]) :
    (Env.answering fun n call pod =>
      if call ≠ .status then .exitsZero "" else f n pod).Obliging where
  reached n call pod := by
    show ExecAnswer.streamed (ite _ _ _) = true
    split
    · rfl
    · exact (hf n pod).1
  started _ _ _ _ := rfl
  stopped _ _ := rfl
  told n pod := (hf n pod).2
  deleted _ _ := rfl

/-- Two primaries and a stopped member. An iteration in which every third
command fails has deleted the pod of one primary and takes the other for a
secondary. -/
def Plant.misread : Plant :=
  ((run (.deciding fun n => n % 3 != 0) [.timer 9 (.pods .three [])]
      (Sys.start (.sized 3 2))).state,
    fun k => if k = "db-1" then .stopped else .primary)

/-- The world from there on. -/
def Env.mended : Env :=
  .answering fun n call pod =>
    if call ≠ .status then .exitsZero ""
    else if pod ≠ "db-1" then .exits 8
    else if n < 10 then .exits 7 else .exitsZero ""

theorem Env.mended_obliging : Env.mended.Obliging := by
  refine Env.answering_obliging fun n pod => ?_
  split
  · decide
  · split <;> decide

theorem Plant.misread_start :
    (Plant.misread.after .mended 9 .three 0).1
      = (run (.deciding fun n => n % 3 != 0) [.timer 9 (.pods .three [])]
        (Sys.start (.sized 3 2))).state :=
  Plant.after_zero _ _

theorem Plant.misread_recovers : Recovers .mended 9 3 PodList.three.names
    (fun _ => .three) (Plant.misread.after .mended 9 .three) where
  obliging := Env.mended_obliging
  enough := by decide
  listed _ _ := .refl _
  rounds := Plant.rounds_after (by decide +kernel)
  attainable := ⟨by decide +kernel, by decide +kernel, by decide +kernel,
    by decide +kernel, by decide +kernel⟩
  length := by decide +kernel

/-- Two iterations later both are primaries still, and the third member is
a secondary. -/
theorem converges_misread :
    let ρ := Plant.misread.after .mended 9 .three
    (PodList.three.names.countP fun k =>
        ((ρ 2).2 k).readAs (ρ 0).1.spec = .primary)
          = (ρ 0).1.spec.getNumPrimaries
      ∧ (∀ k ∈ PodList.three.names, (ρ 2).2 k ≠ .stopped)
      ∧ (2 < 3 → (ρ 3).2 = (ρ 2).2 ∧
          ∀ e ∈ (ρ 2).1.since (ρ 3).1, e.intervenes = false) :=
  (converges Plant.misread_recovers Plant.misread_start).2 2 (by decide)
    (by decide)

theorem Plant.misread_inSync :
    (Plant.misread.after .mended 9 .three 0).1.InSync :=
  ⟨by decide +kernel, by decide +kernel⟩

/-- In the third iteration they are listed as such, and the server has the
list. -/
theorem converged_listing_misread :
    let ρ := Plant.misread.after .mended 9 .three
    (ρ 3).1.c.status.members.primary.Perm (PodList.three.names.filter
        fun k => decide (((ρ 3).2 k).readAs (ρ 0).1.spec = .primary))
      ∧ (ρ 3).1.stored.status = (ρ 3).1.c.status := by
  intro ρ
  have hlists := converged_listing (ρ := ρ) Plant.misread_recovers
    Plant.misread_start 2 (by decide) (by decide)
  have hsync : (ρ 0).1.InSync := Plant.misread_inSync
  have hgrants : Env.mended.Grants := fun _ => rfl
  clear_value ρ
  exact ⟨hlists.2.2.1, hlists.2.2.2.2 hgrants hsync⟩

end RssOperator
