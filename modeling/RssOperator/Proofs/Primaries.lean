/-
What runs as a primary while the operator makes another one.

# The danger

Two copies of the application that have both been started as the first
primary hold two histories of the data. The operator has to be sure of the
others when it seeds, and all it looks at are its flags. This module says
that the flags are good enough: whenever it starts a member as a primary,
nobody on its list of pods is one beyond those it counts
(`promotion_counts`), so there is none at all while it seeds
(`seeding_alone`).

# The argument

The flags are as good as the last `reconcile` (`reconcile_tracks`), and
`replicate` runs only behind one without errors, when nobody has failed.
From there on `Covers` is kept up to the last promotion: who is a primary
is marked as one. A start that fails is the case to look at, as it leaves
a member marked as before; but it was not marked as a primary, so it was
none, and a failed start makes none. The application may lose the role of a
primary at any time; it must not take it by itself.
-/
import RssOperator.Proofs.Application
import RssOperator.Proofs.Attempts
import RssOperator.Proofs.Deletion
import RssOperator.Proofs.Pausing
import RssOperator.Proofs.Reads

namespace RssOperator

variable {env : Env} {G : Event → Prop} {s s' t t' : Sys} {ms : MemberSet}
  {k : String} {m m' : Member} {pods : PodList} {fuel : Nat}
  {D : Drift Role} {roles roles' roles₁ : String → Role} {e : Event}

-- ===================================================== raising stages

/-- A member is started as a primary while there are less than
`primaries`, or none. -/
def Event.raises (primaries : Int) : Event → Prop
  | .exec (.start _ asPrimary) _ _ _ peers _ =>
      asPrimary = true
        ∧ (peers.appPrimaries = 0 ∨ peers.appPrimaries < primaries)
  | _ => False

theorem Event.raises_of_seedStart (primaries : Int) :
    ∀ e, Event.seedStart e = true → e.raises primaries := by
  intro e he
  obtain ⟨key, k, pod, args, peers, a, rfl, hzero⟩ :=
    Event.seedStart_iff.mp he
  exact ⟨rfl, Or.inl hzero⟩

theorem promoteTurn_raises (primaries : Int) :
    TurnActs env (Event.raises primaries) (fun _ => True)
      (promoteTurn env primaries) := by
  intro st _
  obtain ⟨s, errors⟩ := st
  unfold promoteTurn
  dsimp only
  split
  · next hlt =>
    split
    · exact Acts.quiet (Quiet.ranged 1 s)
    · next e he =>
      obtain ⟨hm, hel⟩ := lookup_of_chooseMember he
      have hstart : Acts env (Event.raises primaries) s
          (startAppMember env e.1 true (s.ranged 1)).2 :=
        (Acts.quiet (Quiet.ranged 1 s)).trans
          (startAppMember_acts true hm hel fun _ _ => ⟨rfl, Or.inr hlt⟩)
      split
      · exact hstart
      · exact ⟨hstart, trivial⟩
  · exact .refl

theorem seedAndPromote_raises (primaries : Int) (fuel : Nat) (s : Sys) :
    Acts env (Event.raises primaries) s
      (seedAndPromote env primaries fuel s).state := by
  have hseed := (@seedStage_acts env s).mono
    (Event.raises_of_seedStart primaries)
  cases h : seedStage env s with
  | mk returned s₁ =>
      rw [h] at hseed
      cases returned with
      | some errors =>
          rw [seedAndPromote_returned h]
          exact hseed
      | none =>
          rw [seedAndPromote_seeded h]
          exact hseed.trans (loopStage_acts (promoteTurn_raises primaries)
            fuel [] trivial)

/-- A call of `replicate`: detection, starts of primaries, and the
rest. -/
theorem replicate_raises (fuel : Nat) (s : Sys) :
    ∃ s₁ s₂, Acts env (Event.detection s.members.appPrimaries) s s₁
      ∧ Acts env (Event.raises s.spec.getNumPrimaries) s₁ s₂
      ∧ Acts env Event.afterPromotion s₂ (replicate env fuel s).state := by
  obtain ⟨s₁, s₂, hdetect, hstage, hrest⟩ := @replicate_stages env fuel s
  refine ⟨s₁, s₂, hdetect, ?_, hrest⟩
  rcases hstage with rfl | rfl
  · exact .refl
  · exact seedAndPromote_raises _ fuel s₁

-- ============================================================ covering

/-- Whoever is there and runs as a primary is marked as one. -/
def Covers (roles : String → Role) (ms : MemberSet) : Prop :=
  ∀ k m, ms.lookup k = some m → m.online = true → roles k = .primary →
    m.isPrimary = true

/-- What an application that may only lose the role does not have, it has
not taken. -/
theorem Covers.drift (h : Covers roles ms)
    (hdrift : ∀ k, roles' k = .primary → roles k = .primary) :
    Covers roles' ms :=
  fun k m hm hon hrole => h k m hm hon (hdrift k hrole)

/-- Where nobody has failed, tracking covers. -/
theorem covers_of_tracks {spec : ClusterSpec}
    (htracks : ∀ k, TracksAt (.losing .primary) spec roles ms k)
    (hfine : ∀ k m, ms.lookup k = some m → m.appFailed = false) :
    Covers roles ms := by
  intro k m hm hon hrole
  obtain ⟨r, hr, hshows⟩ := htracks k m hm hon (hfine k m hm)
  have hprimary : r = .primary := hr hrole
  rw [hprimary, Role.readAs, if_neg (by simp)] at hshows
  rcases hshows with ⟨hcode, -⟩ | ⟨hcode, -⟩ | ⟨-, hrun, hpr⟩
  · cases hcode
  · cases hcode
  · simp [Member.isPrimary, hon, hrun, hpr]

/-- What is issued up to the last promotion. -/
def Event.raising (e : Event) : Prop :=
  match e with
  | .exec (.start _ asPrimary) _ _ _ _ _ => asPrimary = true
  | .exec .sequence _ _ _ _ _ => True
  | _ => False

/-- The state of the pods on a list, and what is known of them. -/
def Guarded (pods : PodList) (roles : String → Role) (s : Sys) : Prop :=
  s.members.WellKeyed ∧ (∀ k ∈ pods.names, s.OnlineAt k)
    ∧ Covers roles s.members

theorem Act.guarded (hact : Act env G s s')
    (hraising : ∀ e, G e → e.raising) (h : Guarded pods roles s)
    (hrun : Behaves (.losing .primary) (s.since s') roles roles') :
    Guarded pods roles' s' := by
  obtain ⟨hs, honline, hcovers⟩ := h
  refine ⟨hact.keyed hs, ?_⟩
  cases hact with
  | quiet hquiet =>
      obtain ⟨es, htrace, hall⟩ := hquiet.trace
      rw [Sys.since_eq htrace] at hrun
      unfold Sys.OnlineAt
      rw [hquiet.members]
      exact ⟨honline, hcovers.drift (behaves_quiet hall hrun)⟩
  | @command call k m m' args hm heff hpeers htrace hG =>
      rw [@Sys.since_eq s s' [_] htrace] at hrun
      obtain ⟨r₁, r₂, hbefore, ⟨hresp, hother⟩, hafter⟩ := follows_one.mp hrun
      refine ⟨fun k' hk' => (Sys.onlineAt_kept hm hpeers heff.online).mpr
        (honline k' hk'), ?_⟩
      rw [Sys.members_of_peers hpeers]
      intro k' m₁ hm₁ hon hrole
      have hname := hs k m hm
      rcases GoMap.lookup_modify_known hm hm₁ with ⟨rfl, rfl⟩ | ⟨hk, hm₁⟩
      · cases heff with
        | startFailed hel ha =>
            -- it is not marked as a primary, so it was none
            obtain ⟨hon₀, -, hnot⟩ := Member.eligible_iff.mp hel
            rw [hname] at hresp ha
            have hwas := hresp.made ha (hafter k' hrole)
            have hmarked := hcovers k' m hm hon₀ (hbefore k' hwas)
            simp [Member.isPrimary, hnot] at hmarked
        | @started key asPrimary hel ha =>
            obtain rfl : asPrimary = true := hraising _ hG
            simp [Member.isPrimary, Member.noteStarted,
              (Member.eligible_iff.mp hel).1]
        | stopFailed => cases hraising _ hG
        | stopped => cases hraising _ hG
        | checked => cases hraising _ hG
      · have hsame : r₂ k' = r₁ k' :=
          hother k' (by rw [hname]; exact hk)
        exact hcovers k' m₁ hm₁ hon
          (hbefore k' (hsame ▸ hafter k' hrole))
  | @detect k m args f hm hon hf hpeers htrace hG =>
      rw [@Sys.since_eq s s' [_] htrace] at hrun
      obtain ⟨r₁, r₂, hbefore, ⟨hresp, hother⟩, hafter⟩ := follows_one.mp hrun
      rw [hs k m hm] at hpeers hresp hother
      obtain ⟨n, hn⟩ := hf m
      refine ⟨fun k' hk' => (Sys.onlineAt_kept hm hpeers (by rw [hn])).mpr
        (honline k' hk'), ?_⟩
      rw [Sys.members_of_peers hpeers]
      intro k' m₁ hm₁ hon₁ hrole
      have hsame : r₂ k' = r₁ k' := by
        by_cases hk : k' = k
        · rw [hk]
          exact hresp.asked (Or.inr rfl)
        · exact hother k' hk
      have hwas := hbefore k' (hsame ▸ hafter k' hrole)
      rcases GoMap.lookup_modify_known hm hm₁ with ⟨rfl, rfl⟩ | ⟨hk, hm₁⟩
      · rw [hn]
        exact hcovers k' m hm hon hwas
      · exact hcovers k' m₁ hm₁ hon₁ hwas
  | delete ok hm hfailed hcause hpeers htrace hG => cases hraising _ hG

-- =========================================================== one call

theorem Event.raising_of_detection {n : Int} :
    ∀ e, Event.detection n e → e.raising := by
  intro e he
  cases e with
  | exec call =>
      cases he.1
      trivial
  | delete => cases he
  | tag => cases he
  | update => cases he
  | get => cases he

theorem Event.raising_of_raises {primaries : Int} :
    ∀ e, Event.raises primaries e → e.raising := by
  intro e he
  cases e with
  | exec call =>
      cases call with
      | start key asPrimary => exact he.1
      | status => cases he
      | sequence => cases he
      | stop => cases he
  | delete => cases he
  | tag => cases he
  | update => cases he
  | get => cases he

/-- Within a call of `replicate` that begins guarded, whoever is a primary
when another one is started is counted. -/
theorem replicate_guards {key : CommandKey} {pod : String}
    {args : List String} {peers : MemberSet} {a : ExecAnswer}
    {newer older : List Event} (hs : Guarded pods roles s)
    (hsplit : s.since (replicate env fuel s).state
      = newer ++ .exec (.start key true) k pod args peers a :: older)
    (hrun : Behaves (.losing .primary) older roles roles₁) :
    (peers.appPrimaries = 0
        ∨ peers.appPrimaries < s.spec.getNumPrimaries)
      ∧ ∀ k ∈ pods.names, roles₁ k = .primary →
        ∃ m, peers.lookup k = some m ∧ m.isPrimary = true := by
  obtain ⟨s₁, s₂, hdetect, hraise, hrest⟩ := @replicate_raises env fuel s
  have hpromotes : (Event.exec (.start key true) k pod args peers
      a).promotes = some k := rfl
  have hnone : ∀ {G : Event → Prop} {t t' : Sys}, Acts env G t t' →
      (∀ e, G e → e.promotes = none) →
      .exec (.start key true) k pod args peers a ∉ t.since t' := by
    intro G t t' hacts hG hmem
    rcases hacts.mem_since _ hmem with hquiet | hg
    · cases hquiet
    · rw [hG _ hg] at hpromotes
      cases hpromotes
  have hmem : ∀ (l l' : List Event) (e : Event), e ∈ l ++ e :: l' :=
    fun l l' e => List.mem_append_right _ List.mem_cons_self
  rw [hdetect.since_trans₃ hraise hrest] at hsplit
  -- the start is neither in the last part nor in the first
  rcases split_of_append hsplit with ⟨mid, hfront, -⟩ | ⟨mid, hback, -⟩
  · refine absurd ?_ (hnone hrest Event.promotes_of_afterPromotion)
    rw [hfront]
    exact hmem _ _ _
  · rcases split_of_append hback with ⟨mid, hfront, rfl⟩ | ⟨mid, hback, -⟩
    · obtain ⟨roles₂, hbefore, hafter⟩ := follows_append.mp hrun
      have hs₁ := Acts.coupled (fun _ _ _ _ h hact hrun =>
        hact.guarded Event.raising_of_detection h hrun) hdetect hs hbefore
      obtain ⟨t, t', ht, hact, htrace⟩ := Acts.coupled_at
        (fun _ _ _ _ h hact hrun =>
          hact.guarded Event.raising_of_raises h hrun)
        hraise hs₁ hfront rfl hafter
      obtain ⟨⟨-, hcount⟩, rfl⟩ := hact.entry htrace
      refine ⟨hcount, fun k' hk' hrole => ?_⟩
      obtain ⟨-, honline, hcovers⟩ := ht
      obtain ⟨m, hm, hon⟩ := honline k' hk'
      exact ⟨m, hm, hcovers k' m hm hon hrole⟩
    · refine absurd ?_ (hnone hdetect Event.promotes_of_detection)
      rw [hback]
      exact hmem _ _ _

-- ======================================================= one iteration

/-- A `recover` that reports nothing has deleted no pod. -/
theorem silent_recover_online (hsilent : Silent (recover env s).1)
    (hm : s.members.lookup k = some m) (hon : m.online = true) :
    (m.recoveredIn env (s.recoverTurn env k)).online = true := by
  cases hfailed : m.appFailed with
  | false =>
      rw [Member.recoveredIn_of_healthy _ hfailed]
      exact hon
  | true =>
      have hlimit := silent_recover_limit hsilent hm
      rw [hfailed, Bool.true_and, decide_eq_false_iff_not] at hlimit
      rw [← Bool.not_eq_false, Member.offline_recoveredIn _ hon hfailed,
        if_neg hlimit]
      rintro ⟨hstop, -⟩
      -- a stop that fails is reported before the pod is deleted
      refine not_silent_recover hm (fun errors => ?_) hsilent
      have hm' := @lookup_recoverTurn env _ _ _ hm
      unfold recoverMember
      dsimp only
      rw [hm']
      dsimp only
      rw [if_neg (by simp [hlimit]), hon, if_neg (by simp), if_pos hfailed,
        stopAppMember_eq hm']
      rw [if_neg (show ¬ ((s.recoverTurn env k).stopAnswer env m).succeeds
        = true by rw [Bool.not_eq_true]; exact hstop)]
      exact ⟨_, mem_appendNonNil.mpr (Or.inl (List.mem_append_right _
        List.mem_cons_self)), Err.text_deletionAfterStop _ _⟩

/-- A `reconcile` without errors leaves the pods of its list online. -/
theorem reconcile_online {errors : List Err} (hs : s.members.WellKeyed)
    (hret : reconcile env pods s = .ret errors s')
    (hclean : appendAllNonNil [] errors = []) :
    ∀ k ∈ pods.names, s'.OnlineAt k := by
  obtain ⟨s₀, hmerge, heq⟩ := reconcile_keyed env pods hs
  rw [hret] at heq
  injection heq with herrors hs'
  subst herrors hs'
  obtain ⟨-, hrecover⟩ := silent_reconcileMerged hclean
  intro k hk
  obtain ⟨m, hm, hon⟩ := hmerge.on_list hk
  refine ⟨_, by rw [lookup_reconcileMerged, hm]; rfl, ?_⟩
  refine silent_recover_online hrecover (lookup_checkMembers hm) ?_
  rw [Member.online_checkedIn, hon]

/-- A `reconcile` without errors leaves the list guarded. -/
theorem reconcile_guards {errors : List Err} (hs : s.members.WellKeyed)
    (hret : reconcile env pods s = .ret errors s')
    (hclean : appendAllNonNil [] errors = [])
    (hans : ∀ e ∈ s.since s', e.answered)
    (hrun : Behaves (.losing .primary) (s.since s') roles roles') :
    Guarded pods roles' s' := by
  have hstate : (reconcile env pods s).state = s' := by rw [hret]; rfl
  have htracks := @reconcile_tracks env s pods (.losing .primary) roles roles'
    hs (hstate ▸ hans) (hstate ▸ hrun)
  have hkeyed := (reconcile_record env pods hs).2.2
  rw [hstate] at htracks hkeyed
  have honline := reconcile_online hs hret hclean
  obtain ⟨s₀, hmerge, heq⟩ := reconcile_keyed env pods hs
  rw [hret] at heq
  injection heq with herrors hs'
  subst herrors hs'
  have hfine := (cleanPass_of_silent hs hmerge hclean).failed
  exact ⟨hkeyed, honline, covers_of_tracks htracks hfine⟩

/-- A `reconcile` starts nobody. -/
theorem reconcile_promotes (env : Env) (pods : PodList)
    (hs : s.members.WellKeyed) :
    ∀ e ∈ s.since (reconcile env pods s).state, e.promotes = none := by
  intro e he
  rcases (reconcile_record env pods hs).2.1 e he with
    hquiet | hcheck | hcleanup
  · exact Event.promotes_of_quiet e hquiet
  · cases e with
    | exec call =>
        cases hcheck
        rfl
    | delete | tag | update | get => rfl
  · exact Event.promotes_of_afterPromotion e
      (Event.afterPromotion_of_cleanup e hcleanup)

/-- What is on record behind the call of `replicate` in an iteration. -/
theorem reconcileBranch_ends {errors : List Err}
    (hs : s'.members.WellKeyed)
    (hret : reconcile env pods s = .ret errors s')
    (hclean : appendAllNonNil [] errors = []) :
    ∃ es, (reconcileBranch env fuel pods s).state.trace
        = es ++ (replicate env fuel s').state.trace
      ∧ ∀ e ∈ es, e.promotes = none := by
  unfold reconcileBranch
  rw [hret, Outcome.ret_andThen]
  dsimp only
  rw [if_pos hclean, hclean]
  have hkeyed : (replicate env fuel s').state.members.WellKeyed :=
    Acts.keep (fun _ _ hs hact => hact.keyed hs) (replicate_acts fuel s') hs
  cases hrep : replicate env fuel s' with
  | panicked s₂ => exact ⟨[], rfl, by simp⟩
  | looping s₂ => exact ⟨[], rfl, by simp⟩
  | ret replicated s₂ =>
      rw [hrep] at hkeyed
      rw [Outcome.ret_andThen]
      split
      · exact ⟨[], rfl, by simp⟩
      · have hagain : (((reconcile env pods s₂).andThen fun again s =>
            .ret (appendAllNonNil (appendAllNonNil [] replicated) again)
              s : Outcome Sys (List Err))).state
            = (reconcile env pods s₂).state := by
          cases reconcile env pods s₂ with
          | ret => rfl
          | panicked => rfl
          | looping => rfl
        rw [hagain]
        exact ⟨_, (reconcile_record env pods hkeyed).1,
          reconcile_promotes env pods hkeyed⟩

/-- The record of an iteration whose `reconcile` reports nothing. -/
theorem reconcileBranch_since {errors : List Err} {s₁ : Sys}
    (hs : s.members.WellKeyed)
    (hrec : reconcile env pods s = .ret errors s₁)
    (hclean : appendAllNonNil [] errors = []) :
    ∃ es, s.since (reconcileBranch env fuel pods s).state
        = es ++ (s₁.since (replicate env fuel s₁).state ++ s.since s₁)
      ∧ ∀ e ∈ es, e.promotes = none := by
  obtain ⟨htrace, -, hkeyed⟩ := reconcile_record env pods hs
  rw [hrec, Outcome.state_ret] at htrace hkeyed
  obtain ⟨es, hends, hlast⟩ :=
    @reconcileBranch_ends env s s₁ pods fuel errors hkeyed hrec hclean
  have hrep := (@replicate_acts env fuel s₁).trace_eq
  refine ⟨es, Sys.since_eq ?_, hlast⟩
  rw [hends, hrep, List.append_assoc, List.append_assoc, ← htrace]

/-- An iteration ends when its `replicate` reports nothing. -/
theorem reconcileBranch_replicated {errors : List Err} {s₁ s₂ : Sys}
    (hrec : reconcile env pods s = .ret errors s₁)
    (hclean : appendAllNonNil [] errors = [])
    (hrep : replicate env fuel s₁ = .ret [] s₂) :
    reconcileBranch env fuel pods s = .ret [] s₂ := by
  unfold reconcileBranch
  rw [hrec, Outcome.ret_andThen]
  dsimp only
  rw [if_pos hclean, hclean, hrep]
  rfl

/-- With errors the iteration ends behind the `reconcile`. -/
theorem reconcileBranch_failed {errors : List Err} {s₁ : Sys}
    (hrec : reconcile env pods s = .ret errors s₁)
    (hclean : appendAllNonNil [] errors ≠ []) :
    reconcileBranch env fuel pods s
      = .ret (appendAllNonNil [] errors) s₁ := by
  unfold reconcileBranch
  rw [hrec, Outcome.ret_andThen]
  exact if_neg hclean

/-- The record of an iteration begins with that of its `reconcile`. -/
theorem reconcileBranch_reconciles (env : Env) (fuel : Nat) (pods : PodList)
    (hs : s.members.WellKeyed) :
    ∃ es, s.since (reconcileBranch env fuel pods s).state
      = es ++ s.since (reconcile env pods s).state := by
  obtain ⟨s₀, -, hrec⟩ := reconcile_keyed env pods hs
  generalize (reconcileMerged env s₀).1 = errors at hrec
  generalize (reconcileMerged env s₀).2 = s₁ at hrec
  rw [hrec, Outcome.state_ret]
  by_cases hclean : appendAllNonNil [] errors = []
  · obtain ⟨es, hsince, -⟩ :=
      @reconcileBranch_since env s pods fuel errors s₁ hs hrec hclean
    exact ⟨_, by rw [hsince, ← List.append_assoc]⟩
  · rw [reconcileBranch_failed hrec hclean]
    exact ⟨[], rfl⟩

/-- A start of a primary is within a `replicate` that comes behind a
`reconcile` without errors. -/
theorem reconcileBranch_promotes {newer older : List Event}
    (hs : s.members.WellKeyed)
    (hsplit : s.since (reconcileBranch env fuel pods s).state
      = newer ++ e :: older) (he : e.promotes = some k) :
    ∃ errors s₁ front mid, reconcile env pods s = .ret errors s₁
      ∧ appendAllNonNil [] errors = []
      ∧ s₁.since (replicate env fuel s₁).state = front ++ e :: mid
      ∧ older = mid ++ s.since s₁ := by
  obtain ⟨s₀, -, hrec⟩ := reconcile_keyed env pods hs
  generalize (reconcileMerged env s₀).1 = errors at hrec
  generalize (reconcileMerged env s₀).2 = s₁ at hrec
  have hfirst := reconcile_promotes env pods hs
  rw [hrec, Outcome.state_ret] at hfirst
  have hnone : ∀ {es : List Event}, (∀ e ∈ es, e.promotes = none) →
      e ∉ es := by
    intro es hall hmem
    rw [hall e hmem] at he
    cases he
  by_cases hclean : appendAllNonNil [] errors = []
  · obtain ⟨es, hsince, hlast⟩ :=
      @reconcileBranch_since env s pods fuel errors s₁ hs hrec hclean
    rw [hsince] at hsplit
    rcases split_of_append hsplit with ⟨mid, hfront, -⟩ | ⟨mid, hback, -⟩
    · refine absurd ?_ (hnone hlast)
      rw [hfront]
      exact List.mem_append_right _ List.mem_cons_self
    · rcases split_of_append hback with
        ⟨mid', hfront, holder⟩ | ⟨mid', hback, -⟩
      · exact ⟨errors, s₁, mid, mid', hrec, hclean, hfront, holder⟩
      · refine absurd ?_ (hnone hfirst)
        rw [hback]
        exact List.mem_append_right _ List.mem_cons_self
  · rw [reconcileBranch_failed hrec hclean, Outcome.state_ret] at hsplit
    refine absurd ?_ (hnone hfirst)
    rw [hsplit]
    exact List.mem_append_right _ List.mem_cons_self

theorem Moves.trace_eq (h : Moves env s s') :
    s'.trace = s.since s' ++ s.trace := by
  have hsuffix : s.trace <:+ s'.trace := by
    induction h with
    | refl => exact List.suffix_rfl
    | tail _ hmove ih => exact ih.trans hmove.trace_suffix
  obtain ⟨es, hes⟩ := hsuffix
  rw [Sys.since_eq hes.symm, hes]

theorem Moves.since_append {s₀ : Sys} (h : Moves env s s₀)
    (h' : Moves env s₀ s') : s.since s' = s₀.since s' ++ s.since s₀ := by
  refine Sys.since_eq ?_
  rw [List.append_assoc, ← h.trace_eq, ← h'.trace_eq]

theorem noPodsBranch_trace (s : Sys) :
    (noPodsBranch env s).state.trace = s.trace := by
  unfold noPodsBranch
  split
  · rfl
  · unfold podsDead mergeMembers
    cases s.members.reconcile ∅ s.spec.getNumReplicas (env.order s.orders)
        (env.order (s.orders + 1)) (env.order (s.orders + 2)) with
    | none => rfl
    | some ms => rfl

/-- An iteration that starts a primary: it is not paused, no pod is
pending, and what comes before its `reconcile` is quiet. -/
theorem tick_promotes {running : PodList} {pending : List Pod}
    {newer older : List Event}
    (hsplit : s.since (tick env fuel (.pods running pending) s).state
      = newer ++ e :: older) (he : e.promotes = some k) :
    ∃ s₀ mid, Quiet s s₀
      ∧ s₀.since (reconcileBranch env fuel running s₀).state
        = newer ++ e :: mid
      ∧ older = mid ++ s.since s₀ := by
  have hloud : e.quiet = false := by
    cases e with
    | exec => rfl
    | delete => rfl
    | tag => cases he
    | update => cases he
    | get => cases he
  have hmem : e ∈ newer ++ e :: older :=
    List.mem_append_right _ List.mem_cons_self
  have hquiet : ∀ {s' : Sys}, Quiet s s' →
      s.since s' ≠ newer ++ e :: older := by
    intro s' hq heq
    obtain ⟨es, htrace, hall⟩ := hq.trace
    rw [Sys.since_eq htrace] at heq
    rw [← heq] at hmem
    rw [hall e hmem] at hloud
    cases hloud
  cases hpaused : s.spec.paused with
  | true =>
      have htrace := @tick_paused env fuel (.pods running pending) s
        hpaused
      rw [@Sys.since_eq s _ [] htrace] at hsplit
      simp at hsplit
  | false =>
      rw [tick_pods fuel hpaused] at hsplit
      have hpolled : Quiet s (s.polled env running) :=
        (Quiet.mapStatus _ s).trans (Quiet.updateMemberStatus _ _)
      split at hsplit
      · exact absurd hsplit (hquiet hpolled)
      · split at hsplit
        · refine absurd ?_ (hquiet hpolled)
          rw [← hsplit]
          unfold Sys.since
          rw [noPodsBranch_trace]
        · have hnoted := hpolled.trans
            (@Quiet.noteRestoreReplicas env running _)
          generalize noteRestoreReplicas env running
            (s.polled env running) = s₀ at hsplit hnoted
          obtain ⟨es, htrace, hall⟩ := hnoted.trace
          have hsince := (Moves.quiet hnoted).since_append
            (@reconcileBranch_moves env fuel running s₀)
          rw [hsince] at hsplit
          rcases split_of_append hsplit with
            ⟨mid, hfront, holder⟩ | ⟨mid, hback, -⟩
          · exact ⟨s₀, mid, hnoted, hfront, holder⟩
          · -- the entries in front of the branch are quiet
            have hin : e ∈ s.since s₀ := by
              rw [hback]
              exact List.mem_append_right _ List.mem_cons_self
            rw [Sys.since_eq htrace] at hin
            rw [hall e hin] at hloud
            cases hloud

-- ========================================================== the result

/-- At a start of a primary in an iteration, each pod on its list whose
application is a primary is counted. -/
theorem tick_counts {running : PodList} {pending : List Pod}
    {newer older : List Event} {key : CommandKey} {pod : String}
    {args : List String} {peers : MemberSet} {a : ExecAnswer}
    {roles roles₁ : String → Role} (hs : s.members.WellKeyed)
    (hsplit : s.since (tick env fuel (.pods running pending) s).state
      = newer ++ .exec (.start key true) k pod args peers a :: older)
    (hans : ∀ e ∈ older, e.answered)
    (hrun : Behaves (.losing .primary) older roles roles₁) :
    (∀ k ∈ running.names, roles₁ k = .primary →
        ∃ m, peers.lookup k = some m ∧ m.isPrimary = true)
      ∧ (running.names.countP fun k => roles₁ k = .primary)
        < max 1 s.spec.getNumPrimaries := by
  obtain ⟨s₀, mid, hquiet, hsplit₀, rfl⟩ := tick_promotes hsplit rfl
  have hs₀ : s₀.members.WellKeyed := by
    rw [hquiet.members]
    exact hs
  obtain ⟨errors, s₁, front, mid', hrec, hclean, hsplit₁, rfl⟩ :=
    reconcileBranch_promotes hs₀ hsplit₀ rfl
  obtain ⟨roles₂, -, hbranch⟩ := follows_append.mp hrun
  obtain ⟨roles₃, hbefore, hafter⟩ := follows_append.mp hbranch
  have hguarded := reconcile_guards hs₀ hrec hclean
    (fun e he => hans e (List.mem_append_left _
      (List.mem_append_right _ he))) hbefore
  obtain ⟨hcount, hcovered⟩ := replicate_guards hguarded hsplit₁ hafter
  have hspec : s₁.spec = s.spec := by
    have hsteady := (Steady.frame env).reconcile running s₀
    rw [hrec] at hsteady
    exact hsteady.spec.trans hquiet.spec
  have hle : running.names.countP (fun k => roles₁ k = .primary)
      ≤ peers.count Member.isPrimary := by
    refine GoMap.countP_le_count running.nodup fun k hk hrole => ?_
    exact hcovered k hk (of_decide_eq_true hrole)
  refine ⟨hcovered, ?_⟩
  rw [hspec] at hcount
  unfold MemberSet.appPrimaries at hcount
  omega

/-- Whenever an iteration of a run starts a member as a primary, each pod
on its list whose application is a primary at that moment is counted as
one. So there are less of them than the spec asks for, and none at all
when the first primary is made. The application may have changed in any
way before the iteration began, and may lose the role of a primary at any
time in it. -/
theorem promotion_counts (env : Env) (rss : ReplicatedStatefulSet)
    (is : List Input) (fuel : Nat) (running : PodList) (pending : List Pod)
    (newer older : List Event) (key : CommandKey) (k pod : String)
    (args : List String) (peers : MemberSet) (a : ExecAnswer)
    (roles roles₁ : String → Role)
    (hsplit : let s := (run env is (Sys.start rss)).state
      s.since (tick env fuel (.pods running pending) s).state
        = newer ++ .exec (.start key true) k pod args peers a :: older)
    (hans : ∀ e ∈ older, e.answered)
    (hrun : Behaves (.losing .primary) older roles roles₁) :
    (∀ k ∈ running.names, roles₁ k = .primary →
        ∃ m, peers.lookup k = some m ∧ m.isPrimary = true)
      ∧ (running.names.countP fun k => roles₁ k = .primary)
        < max 1 (run env is (Sys.start rss)).state.spec.getNumPrimaries
      ∧ (peers.appPrimaries = 0 →
          ∀ k ∈ running.names, roles₁ k ≠ .primary) := by
  obtain ⟨hcovered, hcount⟩ :=
    tick_counts (run_sound rss is).keyed hsplit hans hrun
  refine ⟨hcovered, hcount, ?_⟩
  intro hzero k hk hrole
  obtain ⟨m, hm, hprimary⟩ := hcovered k hk hrole
  rw [MemberSet.appPrimaries_eq_zero hzero hm] at hprimary
  cases hprimary

/-- The last start of a primary on a record. -/
theorem exists_last_promotion {es : List Event}
    (hne : es.dropWhile (fun e => e.promotes.isNone) ≠ []) :
    ∃ newer key k pod args peers a,
      es = newer ++ .exec (.start key true) k pod args peers a
        :: (es.dropWhile fun e => e.promotes.isNone).tail := by
  have hlast := List.head_dropWhile_not
    (fun e : Event => e.promotes.isNone) hne
  have hsplit := List.takeWhile_append_dropWhile
    (p := fun e : Event => e.promotes.isNone) (l := es)
  rw [← List.cons_head_tail hne] at hsplit
  generalize (es.dropWhile fun e => e.promotes.isNone).head hne = e
    at hlast hsplit
  unfold Event.promotes at hlast
  split at hlast
  · exact ⟨_, _, _, _, _, _, _, hsplit.symm⟩
  · cases hlast

/-- The second of two primaries is started while the first one runs. -/
theorem promotion_counts_second :
    let env : Env := .answering fun _ call _ =>
      if call = .status then .exits 7 else .exitsZero ""
    let s := Sys.start (.sized 3 2)
    let es := s.since (tick env 9 (.pods .three []) s).state
    let older := (es.dropWhile fun e => e.promotes.isNone).tail
    let roles := rolesAfter (fun _ => .stopped) older
    (PodList.three.names.countP fun k => roles k = .primary) = 1
      ∧ (PodList.three.names.countP fun k => roles k = .primary)
        < max 1 s.spec.getNumPrimaries := by
  intro env s es older roles
  have hne : es.dropWhile (fun e => e.promotes.isNone) ≠ [] := by
    decide +kernel
  have hans : ∀ e ∈ older, e.answered := by decide +kernel
  have hplayed : playedBy (fun _ => .stopped) older = true := by
    decide +kernel
  obtain ⟨newer, key, k, pod, args, peers, a, hsplit⟩ :=
    exists_last_promotion hne
  refine ⟨by decide +kernel, ?_⟩
  exact (promotion_counts env (.sized 3 2) [] 9 .three [] newer older key k
    pod args peers a (fun _ => .stopped) roles hsplit hans
    (behaves_rolesAfter hplayed)).2.1

end RssOperator
