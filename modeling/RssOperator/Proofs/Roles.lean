/-
The roles of the application, and what both passes make of them.

# Two directions

`replicate` writes down which role it has told the application to take,
and `reconcile` reads back which role the application says it has. A
drift between the two would make the operator change a cluster that is
fine. This module says that there is none, if a `secondary` command is
configured.

# The application

The application has a role on every pod, and changes it by the commands
that succeed there: it is known by the key of the command, not by what
the operator takes the command for. `rolesAfter` reads the roles off the
record of a call.

# The argument

That the two agree (`Agrees`) is kept by every step of `replicate`. The
one thing to be known beyond what the steps say is which key goes with
which role, and that is a property of everything `replicate` issues
(`replicate_issues`), a frame. A status check that answers with the code
of the role then changes nothing (`checkMembers_shows`).
-/
import RssOperator.Proofs.Checked
import RssOperator.Proofs.Detection
import RssOperator.Proofs.Sizing

namespace RssOperator

variable {env : Env} {s s' s₀ : Sys} {ms : MemberSet} {k : String}
  {m : Member} {fuel : Nat} {pods : PodList}

-- =============================================================== roles

/-- What the application is on a pod. -/
inductive Role where
  | stopped | secondary | primary
deriving DecidableEq, Repr

/-- The exit code of its status command. -/
def Role.code : Role → Int
  | stopped => 7
  | secondary => 0
  | primary => 8

theorem Role.code_mem (r : Role) : r.code ∈ [(0 : Int), 7, 8] := by
  cases r with
  | stopped => decide
  | secondary => decide
  | primary => decide

/-- The role a start command gives it. -/
def Role.startedBy (key : CommandKey) : Role :=
  if key = .secondary then .secondary else .primary

/-- What a call on record has done to the roles. -/
def Event.setRole : Event → (String → Role) → String → Role
  | .exec (.start key _) _ pod _ _ a, roles =>
      if a.succeeds then Function.update roles pod (.startedBy key)
      else roles
  | .exec .stop _ pod _ _ a, roles =>
      if a.succeeds then Function.update roles pod .stopped else roles
  | _, roles => roles

/-- The roles after the calls on record, newest first. -/
def rolesAfter (roles : String → Role) (es : List Event) : String → Role :=
  es.foldr Event.setRole roles

theorem rolesAfter_append (roles : String → Role) (es es' : List Event) :
    rolesAfter roles (es ++ es') = rolesAfter (rolesAfter roles es') es :=
  List.foldr_append

theorem Event.setRole_quiet {e : Event} (h : e.quiet = true)
    (roles : String → Role) : e.setRole roles = roles := by
  cases e with
  | exec => cases h
  | delete => cases h
  | tag => rfl
  | update => rfl
  | get => rfl

theorem rolesAfter_quiet {es : List Event}
    (h : ∀ e ∈ es, e.quiet = true) (roles : String → Role) :
    rolesAfter roles es = roles := by
  induction es with
  | nil => rfl
  | cons e es ih =>
      show e.setRole (rolesAfter roles es) = roles
      rw [ih fun e' he' => h e' (List.mem_cons_of_mem _ he'),
        Event.setRole_quiet (h e List.mem_cons_self)]

-- ====================================================== what is issued

/-- What `replicate` issues: starts with the key that `startCommand`
picks, and no status checks. -/
def Event.issued (spec : ClusterSpec) : Event → Prop
  | .exec (.start key asPrimary) _ _ _ peers _ =>
      key = startCommand spec asPrimary peers.appPrimaries
  | .exec .status _ _ _ _ _ => False
  | _ => True

theorem Event.issued_of_quiet (spec : ClusterSpec) {e : Event}
    (h : e.quiet = true) : e.issued spec := by
  cases e with
  | exec => cases h
  | delete => cases h
  | tag => trivial
  | update => trivial
  | get => trivial

/-- Nothing else is put on record, and the spec stays. -/
def Issues (s s' : Sys) : Prop :=
  s'.spec = s.spec ∧ ∃ es, s'.trace = es ++ s.trace
    ∧ ∀ e ∈ es, e.issued s.spec

theorem Issues.silent (hspec : s'.spec = s.spec)
    (htrace : s'.trace = s.trace) : Issues s s' :=
  ⟨hspec, [], htrace, by simp⟩

theorem Issues.one {e : Event} (hspec : s'.spec = s.spec)
    (htrace : s'.trace = e :: s.trace) (he : e.issued s.spec) :
    Issues s s' := by
  refine ⟨hspec, [e], htrace, ?_⟩
  intro e' he'
  rw [List.mem_singleton.mp he']
  exact he

theorem Issues.frame (env : Env) : ReplicateFrame env Issues where
  refl _ := .silent rfl rfl
  trans := by
    intro s₁ s₂ s₃ h₁ h₂
    obtain ⟨hspec₁, es₁, htrace₁, hall₁⟩ := h₁
    obtain ⟨hspec₂, es₂, htrace₂, hall₂⟩ := h₂
    refine ⟨hspec₂.trans hspec₁, es₂ ++ es₁, ?_, ?_⟩
    · rw [htrace₂, htrace₁, List.append_assoc]
    · intro e he
      rcases List.mem_append.mp he with he | he
      · rw [← hspec₁]
        exact hall₂ e he
      · exact hall₁ e he
  start _ _ _ _ := .one rfl rfl rfl
  stop _ _ _ := .one rfl rfl trivial
  sequence _ _ _ := .one rfl rfl trivial
  update _ _ _ := .silent rfl rfl
  ranged _ _ := .silent rfl rfl
  tagged _ _ _ _ := .one rfl rfl trivial
  deleted _ _ _ _ := .one rfl rfl trivial
  updateCRStatus caller s := by
    have hquiet := @Quiet.updateCRStatus env caller s
    obtain ⟨es, htrace, hall⟩ := hquiet.trace
    exact ⟨hquiet.spec, es, htrace, fun e he =>
      Event.issued_of_quiet _ (hall e he)⟩

/-- What a call of `replicate` does, with the keys of its starts. -/
theorem replicate_issues (fuel : Nat) (s : Sys) :
    Acts env (Event.issued s.spec) s (replicate env fuel s).state := by
  refine Acts.restrict (replicate_acts fuel s) ?_
  obtain ⟨-, es, htrace, hall⟩ := (Issues.frame env).replicate fuel s
  rw [Sys.since_eq htrace]
  exact hall

-- =========================================================== agreement

/-- The flags of whoever is there are those of its role. -/
def Agrees (roles : String → Role) (ms : MemberSet) : Prop :=
  ∀ k m, ms.lookup k = some m → m.online = true →
    m.ShowsCode (roles k).code

/-- A start is recorded as the role its command gives the application. -/
theorem showsCode_started {spec : ClusterSpec}
    (hsecondary : (spec.commands .secondary).isSome = true)
    (asPrimary : Bool) (primaries : Int) :
    (m.noteStarted asPrimary).ShowsCode
      (Role.startedBy (startCommand spec asPrimary primaries)).code := by
  cases asPrimary with
  | true =>
      have hkey : startCommand spec true primaries ≠ .secondary := by
        unfold startCommand
        split
        · split <;> simp
        · simp
      rw [Role.startedBy, if_neg hkey]
      exact Or.inr (Or.inr ⟨rfl, rfl, rfl⟩)
  | false =>
      have hkey : startCommand spec false primaries = .secondary := by
        simp [startCommand, hsecondary]
      rw [hkey]
      exact Or.inl ⟨rfl, rfl, rfl⟩

/-- A write to one entry, and what it does to the roles. -/
theorem Agrees.write {roles roles' : String → Role} {m' : Member}
    (h : Agrees roles ms) (hm : ms.lookup k = some m)
    (hother : ∀ k', k' ≠ k → roles' k' = roles k')
    (hself : m'.online = true → m'.ShowsCode (roles' k).code) :
    Agrees roles' (ms.modify k fun _ => m') := by
  intro k' m₁ hm₁ hon
  rcases GoMap.lookup_modify_known hm hm₁ with ⟨rfl, rfl⟩ | ⟨hk, hm₁⟩
  · exact hself hon
  · rw [hother k' hk]
    exact h k' m₁ hm₁ hon

/-- A command of `replicate`: a failed one changes neither the flags nor
the role. -/
theorem Agrees.command {spec spec' : ClusterSpec} {roles : String → Role}
    {call : Call} {m' : Member} {args : List String} {peers : MemberSet}
    {a : ExecAnswer}
    (hsecondary : (spec.commands .secondary).isSome = true)
    (h : Agrees roles ms) (hm : ms.lookup k = some m) (hname : m.name = k)
    (heff : Effect spec' a m call m')
    (hissued : (Event.exec call k m.name args peers a).issued spec) :
    Agrees ((Event.exec call k m.name args peers a).setRole roles)
      (ms.modify k fun _ => m') := by
  have hsame : ∀ {m₁ : Member}, m₁.online = m.online →
      m₁.appRunning = m.appRunning → m₁.appPrimary = m.appPrimary →
      m₁.online = true → m₁.ShowsCode (roles k).code := by
    intro m₁ hon hrun hpr hthere
    unfold Member.ShowsCode
    rw [hrun, hpr]
    exact h k m hm (hon.symm.trans hthere)
  have hupdate : ∀ (r : Role) k', k' ≠ k →
      Function.update roles m.name r k' = roles k' := by
    intro r k' hk
    rw [hname]
    exact Function.update_of_ne hk _ _
  have hset : ∀ r : Role, Function.update roles m.name r k = r := by
    intro r
    rw [hname]
    exact Function.update_self _ _ _
  cases heff with
  | startFailed hel ha =>
      simp only [Event.setRole, ha, Bool.false_eq_true, if_false]
      exact h.write hm (fun _ _ => rfl) (hsame rfl rfl rfl)
  | @started key asPrimary hel ha =>
      have hkey : key = startCommand spec asPrimary peers.appPrimaries :=
        hissued
      simp only [Event.setRole, ha, if_true]
      refine h.write hm (hupdate _) fun _ => ?_
      rw [hset, hkey]
      exact showsCode_started hsecondary asPrimary _
  | stopFailed hst ha =>
      simp only [Event.setRole, ha, Bool.false_eq_true, if_false]
      exact h.write hm (fun _ _ => rfl) (hsame rfl rfl rfl)
  | stopped hst ha =>
      simp only [Event.setRole, ha, if_true]
      refine h.write hm (hupdate _) fun _ => ?_
      rw [hset]
      exact Or.inr (Or.inl ⟨rfl, rfl, rfl⟩)
  | checked => exact False.elim hissued

theorem Effect.name {spec : ClusterSpec} {a : ExecAnswer} {call : Call}
    {m' : Member} (heff : Effect spec a m call m') : m'.name = m.name := by
  cases heff with
  | startFailed => rfl
  | started => rfl
  | stopFailed => rfl
  | stopped => rfl
  | checked =>
      unfold Member.noteStatus
      split
      · rfl
      · split
        · rfl
        · split <;> rfl

/-- One step of `replicate`. -/
theorem Act.agrees {spec : ClusterSpec} {roles : String → Role}
    (hsecondary : (spec.commands .secondary).isSome = true)
    (hact : Act env (Event.issued spec) s s')
    (hs : s.members.WellKeyed) (h : Agrees roles s.members) :
    s'.members.WellKeyed
      ∧ Agrees (rolesAfter roles (s.since s')) s'.members := by
  cases hact with
  | quiet hquiet =>
      obtain ⟨es, htrace, hall⟩ := hquiet.trace
      rw [hquiet.members, Sys.since_eq htrace, rolesAfter_quiet hall]
      exact ⟨hs, h⟩
  | @command call k m m' args hm heff hpeers htrace hissued =>
      rw [Sys.members_of_peers hpeers, @Sys.since_eq s s' [_] htrace]
      refine ⟨?_, h.command hsecondary hm (hs k m hm) heff hissued⟩
      intro k₁ m₁ hm₁
      rcases GoMap.lookup_modify_some hm₁ with ⟨rfl, m₀, hm₀, rfl⟩ | hm₁
      · exact heff.name.trans (hs k₁ m hm)
      · exact hs k₁ m₁ hm₁
  | @detect k m args f hm hon hf hpeers htrace _ =>
      rw [Sys.members_of_peers hpeers, @Sys.since_eq s s' [_] htrace]
      have hkeep : ∀ m, (f m).name = m.name ∧ (f m).online = m.online
          ∧ (f m).appRunning = m.appRunning
          ∧ (f m).appPrimary = m.appPrimary := by
        intro m
        obtain ⟨n, hn⟩ := hf m
        rw [hn]
        exact ⟨rfl, rfl, rfl, rfl⟩
      refine ⟨hs.modify (fun m => (hkeep m).1) m.name, ?_⟩
      intro k₁ m₁ hm₁ hon₁
      rcases GoMap.lookup_modify_some hm₁ with ⟨rfl, m₀, hm₀, rfl⟩ | hm₁
      · obtain ⟨-, hon₀, hrun₀, hpr₀⟩ := hkeep m₀
        unfold Member.ShowsCode
        rw [hrun₀, hpr₀]
        exact h _ m₀ hm₀ (hon₀.symm.trans hon₁)
      · exact h k₁ m₁ hm₁ hon₁
  | @delete k m ok hm hfailed hcause hpeers htrace _ =>
      rw [Sys.members_of_peers hpeers, @Sys.since_eq s s' [_] htrace]
      refine ⟨?_, h.write hm (fun _ _ => rfl) ?_⟩
      · intro k₁ m₁ hm₁
        rcases GoMap.lookup_modify_some hm₁ with ⟨rfl, m₀, hm₀, rfl⟩ | hm₁
        · cases ok with
          | true => exact hs k₁ m hm
          | false => exact hs k₁ m hm
        · exact hs k₁ m₁ hm₁
      · cases ok with
        | true => intro hon; cases hon
        | false => exact h k m hm

/-- A call of `replicate`. -/
theorem replicate_agrees {roles : String → Role}
    (hsecondary : (s.spec.commands .secondary).isSome = true)
    (hs : s.members.WellKeyed) (h : Agrees roles s.members) :
    (replicate env fuel s).state.members.WellKeyed
      ∧ Agrees (rolesAfter roles (s.since (replicate env fuel s).state))
          (replicate env fuel s).state.members := by
  have hacts := @replicate_issues env fuel s
  generalize (replicate env fuel s).state = s' at hacts
  induction hacts with
  | refl =>
      rw [@Sys.since_eq s s [] rfl]
      exact ⟨hs, h⟩
  | @tail s₁ s₂ h₁ hact ih =>
      obtain ⟨hs₁, hagrees⟩ := ih
      rw [Acts.since_trans h₁ (Relation.ReflTransGen.single hact),
        rolesAfter_append]
      exact hact.agrees hsecondary hs₁ hagrees

-- ======================================================== reading back

/-- With a `secondary` command no code is remapped. -/
theorem no_remap {spec : ClusterSpec}
    (h : (spec.commands .secondary).isSome = true) (rc : Int) :
    (if rc = 0 ∧ (spec.commands .secondary).isNone then 8 else rc)
      = rc := by
  obtain ⟨command, hcommand⟩ := Option.isSome_iff_exists.mp h
  simp [hcommand]

/-- A status check that finds the flags right reports nothing. -/
theorem statusErrors_shows {rc : Int} (h : m.ShowsCode rc)
    (err : Option Err) (errors : List Err) :
    statusErrors m rc err errors = errors := by
  rcases h with ⟨rfl, hrun, hpr⟩ | ⟨rfl, hrun, hpr⟩ | ⟨rfl, hrun, hpr⟩
  · rfl
  · simp [statusErrors, hrun]
  · simp [statusErrors, hrun, hpr]

theorem checkMember_silent {errors : List Err}
    (h : ∀ m, s.members.lookup k = some m → m.appFailed = false →
      m.online = true → ∀ err errors, statusErrors m
        (statusCode s.spec (env.exec s.execs .status m.name)) err errors
          = errors) :
    (checkMember env (errors, s) k).1 = errors := by
  unfold checkMember
  dsimp only
  split
  · rfl
  · next m hm =>
    split
    · rfl
    · next hthere =>
      simp only [Bool.or_eq_true, Bool.not_eq_true', not_or,
        Bool.not_eq_true, Bool.not_eq_false] at hthere
      have hsilent := h m hm hthere.1 hthere.2
      rw [execute_state, Sys.spec_ran, remapStatus_fst]
      split
      · exact hsilent _ _
      · exact hsilent _ _

/-- A status loop none of whose answers is worth an error reports nothing.
The induction is on the part of the loop that is done. -/
theorem checkMembers_silent
    (h : ∀ k m, s₀.members.lookup k = some m → m.appFailed = false →
      m.online = true → m.name = k ∧ ∀ err errors,
        statusErrors m (s₀.checkedCode env k) err errors = errors) :
    (checkMembers env s₀).1 = [] := by
  have hfold : ∀ l₁ l₂, s₀.members.range (s₀.order env) = l₁ ++ l₂ →
      (l₁.foldl (checkMember env) ([], s₀.ranged 1)).1 = [] := by
    intro l₁
    induction l₁ using List.reverseRecOn with
    | nil => intro _ _; rfl
    | append_singleton l₁ k ih =>
        intro l₂ hsplit
        have hnodup := GoMap.nodup_range (s₀.order env) s₀.members
        rw [hsplit, List.append_assoc] at hnodup
        have hbefore : ∀ k' ∈ l₁, k' ≠ k := fun k' hk' =>
          (List.nodup_append.mp hnodup).2.2 k' hk' k (by simp)
        -- the loop comes to `k` in the state that is left here
        have hturn : s₀.checkTurn env k
            = (l₁.foldl (checkMember env) ([], s₀.ranged 1)).2 := by
          unfold Sys.checkTurn turnState
          rw [hsplit, List.append_assoc,
            List.takeWhile_append_of_pos (by simpa using hbefore)]
          simp
        have hpair : l₁.foldl (checkMember env) ([], s₀.ranged 1)
            = ([], s₀.checkTurn env k) :=
          Prod.ext (ih (k :: l₂) (by rw [hsplit]; simp)) hturn.symm
        rw [List.foldl_append, List.foldl_cons, List.foldl_nil, hpair]
        refine checkMember_silent ?_
        intro m hm hfailed hon
        have hm₀ : s₀.members.lookup k = some m := by
          rw [← hm]
          exact (lookup_turnState members_checkMember _ _
            (s₀.ranged 1)).symm
        obtain ⟨hname, hsilent⟩ := h k m hm₀ hfailed hon
        rw [spec_checkTurn, hname]
        exact hsilent
  exact hfold _ [] (List.append_nil _).symm

/-- A status loop that finds all flags right reports nothing. -/
theorem checkMembers_shows
    (h : ∀ k m, s₀.members.lookup k = some m → m.appFailed = false →
      m.online = true →
      m.name = k ∧ m.ShowsCode (s₀.checkedCode env k)) :
    (checkMembers env s₀).1 = [] := by
  refine checkMembers_silent fun k m hm hfailed hon => ?_
  obtain ⟨hname, hshows⟩ := h k m hm hfailed hon
  exact ⟨hname, statusErrors_shows hshows⟩

/-- With nobody failed `recover` has nothing to do. -/
theorem recover_healthy
    (h : ∀ k m, s.members.lookup k = some m → m.appFailed = false) :
    recover env s = ([], s.ranged 1) := by
  have hturn : ∀ k, recoverMember env ([], s.ranged 1) k
      = ([], s.ranged 1) := by
    intro k
    unfold recoverMember
    dsimp only
    split
    · rfl
    · next m hm =>
      have hfine : m.appFailed = false := h k m hm
      simp [hfine]
  unfold recover
  generalize s.members.range (s.order env) = ks
  induction ks with
  | nil => rfl
  | cons k ks ih => rw [List.foldl_cons, hturn k, ih]

/-- Merging in the pods that are there anyway changes no flag. -/
theorem MergedFrom.agrees {roles : String → Role}
    (h : MergedFrom pods s s₀)
    (hpods : ∀ k, k ∈ pods.names ↔ s.OnlineAt k)
    (hagrees : Agrees roles s.members)
    (hm : s₀.members.lookup k = some m) (hon : m.online = true) :
    m.ShowsCode (roles k).code := by
  obtain ⟨m₀, hm₀, hon₀⟩ := (hpods k).mp (h.listed hm hon)
  rw [h.entry, MemberSet.merged, hm₀] at hm
  split at hm
  · next m₁ r heq _ =>
    injection heq with heq
    injection hm with hm
    subst heq hm
    exact hagrees k m₀ hm₀ hon₀
  · injection hm with hm
    subst hm
    cases hon
  · next heq =>
    cases heq

/-- A pass over members whose flags are right reports nothing. -/
theorem reconcile_silent {roles : String → Role}
    (hs : s.members.WellKeyed)
    (hfine : ∀ k m, s.members.lookup k = some m → m.appFailed = false)
    (hsecondary : (s.spec.commands .secondary).isSome = true)
    (hagrees : Agrees roles s.members)
    (hpods : ∀ k, k ∈ pods.names ↔ s.OnlineAt k)
    (htrue : StatusAnswers (fun k => (roles k).code) s
      (reconcile env pods s).state) :
    reconcile env pods s = .ret [] (reconcile env pods s).state := by
  obtain ⟨s₀, hmerge, heq⟩ := reconcile_keyed env pods hs
  rw [heq] at htrue ⊢
  have hhealthy := hmerge.healthy hfine
  have hcode : ∀ k m, s₀.members.lookup k = some m → m.online = true →
      s₀.checkedCode env k = (roles k).code := by
    intro k m hm hon
    rw [hmerge.checkedCode hs htrue hm (hhealthy k m hm) hon]
    exact no_remap hsecondary _
  have hcheck : (checkMembers env s₀).1 = [] := by
    refine checkMembers_shows ?_
    intro k m hm hf hon
    refine ⟨hmerge.name hs hm, ?_⟩
    rw [hcode k m hm hon]
    exact hmerge.agrees hpods hagrees hm hon
  have hstill : ∀ k m, (checkMembers env s₀).2.members.lookup k = some m →
      m.appFailed = false := by
    intro k m hm
    cases hm₀ : s₀.members.lookup k with
    | none =>
        have hnone : (checkMembers env s₀).2.members.lookup k = none :=
          lookup_range_none members_checkMember _ hm₀
        rw [hnone] at hm
        cases hm
    | some m₀ =>
        rw [lookup_checkMembers hm₀] at hm
        injection hm with hm
        subst hm
        have hf := hhealthy k m₀ hm₀
        by_cases hon : m₀.online = true
        · rw [checkedIn_eq (hmerge.name hs hm₀) hf hon, hcode k m₀ hm₀ hon]
          exact (m₀.showsCode_noteStatus (roles k).code_mem).2.trans hf
        · unfold Member.checkedIn
          rw [if_pos (by simp [hon])]
          exact hf
  have hnone : (reconcileMerged env s₀).1 = [] := by
    show appendAllNonNil (checkMembers env s₀).1
      (recover env (checkMembers env s₀).2).1 = []
    rw [hcheck, recover_healthy hstill]
    rfl
  rw [hnone]
  rfl

-- ======================================================== both passes

/-- A start or stop command that has failed. -/
def Event.commandFailed : Event → Bool
  | .exec (.start ..) _ _ _ _ a | .exec .stop _ _ _ _ a => !a.succeeds
  | _ => false

/-- Nobody who is there has failed. -/
def Healthy (ms : MemberSet) : Prop :=
  ∀ k m, ms.lookup k = some m → m.online = true → m.appFailed = false

/-- A write to one entry that takes nobody away. -/
theorem Healthy.write {f : Member → Member} (h : Healthy s.members)
    (hm : s.members.lookup k = some m) (hon : (f m).online = m.online)
    (hfine : (f m).online = true → (f m).appFailed = false)
    (hpeers : s'.c.peers = some (s.members.modify k f)) :
    Healthy s'.members ∧ ∀ k', s'.OnlineAt k' ↔ s.OnlineAt k' := by
  refine ⟨?_, fun k' => Sys.onlineAt_kept hm hpeers hon⟩
  rw [Sys.members_of_peers hpeers]
  intro k₁ m₁ hm₁ hon₁
  rcases GoMap.lookup_modify_some hm₁ with ⟨rfl, m₀, hm₀, rfl⟩ | hm₁
  · obtain rfl : m = m₀ := Option.some.inj (hm.symm.trans hm₀)
    exact hfine hon₁
  · exact h k₁ m₁ hm₁ hon₁

/-- A step without failed commands: nobody comes or goes, as only who has
failed is deleted. -/
theorem Act.healthy {spec : ClusterSpec}
    (hact : Act env (fun e => e.issued spec ∧ e.commandFailed = false) s s')
    (h : Healthy s.members) :
    Healthy s'.members ∧ ∀ k, s'.OnlineAt k ↔ s.OnlineAt k := by
  have hsame : s'.members = s.members →
      Healthy s'.members ∧ ∀ k, s'.OnlineAt k ↔ s.OnlineAt k := by
    intro hmem
    unfold Sys.OnlineAt
    rw [hmem]
    exact ⟨h, fun _ => Iff.rfl⟩
  cases hact with
  | quiet hquiet => exact hsame hquiet.members
  | @command call k m m' args hm heff hpeers _ hG =>
      refine h.write hm heff.online ?_ hpeers
      intro hon
      obtain ⟨hissued, hok⟩ := hG
      cases heff with
      | startFailed _ ha => simp [Event.commandFailed, ha] at hok
      | started => rfl
      | stopFailed _ ha => simp [Event.commandFailed, ha] at hok
      | stopped => rfl
      | checked => exact False.elim hissued
  | @detect k m args f hm hon hf hpeers _ _ =>
      cases hnamed : s.members.lookup m.name with
      | none =>
          rw [GoMap.modify_of_absent hnamed] at hpeers
          exact hsame (Sys.members_of_peers hpeers)
      | some m₀ =>
          obtain ⟨n₀, hn₀⟩ := hf m₀
          refine h.write hnamed (by rw [hn₀]) ?_ hpeers
          rw [hn₀]
          exact h _ m₀ hnamed
  | @delete k m ok hm hfailed _ hpeers _ _ =>
      have hoff : m.online = false := by
        rw [← Bool.not_eq_true]
        intro hon
        rw [h k m hm hon] at hfailed
        cases hfailed
      refine h.write hm ?_ ?_ hpeers
      · cases ok with
        | true => exact hoff.symm
        | false => rfl
      · cases ok with
        | true => intro hon; cases hon
        | false => exact h k m hm

/-- A call without failed commands leaves online who was. -/
theorem replicate_onlineAt (h : Healthy s.members)
    (hclean : ∀ e ∈ s.since (replicate env fuel s).state,
      e.commandFailed = false) (k : String) :
    (replicate env fuel s).state.OnlineAt k ↔ s.OnlineAt k := by
  have hissued := @replicate_issues env fuel s
  have hacts : Acts env
      (fun e => e.issued s.spec ∧ e.commandFailed = false) s
      (replicate env fuel s).state := by
    refine hissued.restrict fun e he => ⟨?_, hclean e he⟩
    rcases hissued.mem_since e he with hquiet | hG
    · exact Event.issued_of_quiet _ hquiet
    · exact hG
  refine (Acts.keep (I := fun t => Healthy t.members
    ∧ (t.OnlineAt k ↔ s.OnlineAt k)) ?_ hacts ⟨h, Iff.rfl⟩).2
  intro t t' ht hact
  obtain ⟨hhealthy, hsame⟩ := hact.healthy ht.1
  exact ⟨hhealthy, (hsame k).trans ht.2⟩

/-- The two passes agree on the roles. Where a `secondary` command is
configured and the flags of whoever is there are those of its role, a
call of `replicate` that leaves nobody failed is followed by a
`reconcile` that reports nothing and changes no flag, if the application
answers truthfully. An offline member that has a flag all the same is the
exception: `reconcile` clears it. The pods are those that are online at
the end of `replicate`; without failed commands these are those that were
online before. -/
theorem roles_agree (env : Env) (fuel : Nat) (pods : PodList)
    (s s' : Sys) (errors : List Err) (roles : String → Role)
    (hsecondary : (s.spec.commands .secondary).isSome = true)
    (hs : s.members.WellKeyed) (hagrees : Agrees roles s.members)
    (hret : replicate env fuel s = .ret errors s')
    (hfine : ∀ k m, s'.members.lookup k = some m → m.appFailed = false)
    (hpods : ∀ k, k ∈ pods.names ↔ s'.OnlineAt k)
    (htrue : StatusAnswers
      (fun k => (rolesAfter roles (s.since s') k).code) s'
      (reconcile env pods s').state) :
    (∃ s'', reconcile env pods s' = .ret [] s''
      ∧ ∀ k m, s'.members.lookup k = some m →
        (m.online = true ∨ m.appRunning = false ∧ m.appPrimary = false) →
        ∃ m', s''.members.lookup k = some m'
          ∧ m'.appRunning = m.appRunning ∧ m'.appPrimary = m.appPrimary
          ∧ m'.appFailed = m.appFailed)
      ∧ (Healthy s.members →
          (∀ e ∈ s.since s', e.commandFailed = false) →
          ∀ k, s'.OnlineAt k ↔ s.OnlineAt k) := by
  have hspec : s'.spec = s.spec := by
    have hsteady := (Steady.frame env).replicate fuel s
    rw [hret] at hsteady
    exact hsteady.spec
  have hkept := @replicate_agrees env s fuel roles hsecondary hs hagrees
  have honline := @replicate_onlineAt env s fuel
  rw [hret, Outcome.state_ret] at hkept honline
  refine ⟨?_, honline⟩
  obtain ⟨hs', hagrees'⟩ := hkept
  rw [← hspec] at hsecondary
  obtain ⟨-, hlisted, hgone⟩ := reconcile_shows hs' hfine
    (fun k _ => Role.code_mem _) htrue
  refine ⟨_, reconcile_silent hs' hfine hsecondary hagrees' hpods htrue,
    fun k m hm hclear => ?_⟩
  rw [hfine k m hm]
  by_cases hon : m.online = true
  · have hk : k ∈ pods.names := (hpods k).mpr ⟨m, hm, hon⟩
    obtain ⟨m', hm', -, hfine', hshows⟩ := hlisted k hk
    rw [no_remap hsecondary] at hshows
    obtain ⟨hrun, hpr⟩ := hshows.unique (hagrees' k m hm hon)
    exact ⟨m', hm', hrun, hpr, hfine'⟩
  · have hk : k ∉ pods.names := by
      intro hk
      obtain ⟨m₀, hm₀, hon₀⟩ := (hpods k).mp hk
      rw [Option.some.inj (hm.symm.trans hm₀)] at hon
      exact hon hon₀
    obtain ⟨hrun, hpr⟩ := hclear.resolve_left hon
    obtain ⟨s₀, hmerge, heq⟩ := reconcile_keyed env pods hs'
    obtain ⟨m₀, hm₀⟩ := hmerge.kept hm
    have hlook : ∃ m', (reconcile env pods s').state.members.lookup k
        = some m' := by
      rw [heq, Outcome.state_ret, lookup_reconcileMerged, hm₀]
      exact ⟨_, rfl⟩
    obtain ⟨m', hm'⟩ := hlook
    obtain ⟨-, hrun', hpr', hfine'⟩ := hgone k hk m' hm'
    rw [hrun, hpr]
    exact ⟨m', hm', hrun', hpr', hfine'⟩

/-- One of three secondaries becomes the primary, and is found as one. -/
theorem roles_agree_promoted :
    let env : Env := .answering fun _ call pod =>
      if call = .status ∧ pod = "db-0" then .exits 8 else .exitsZero ""
    let s := (Sys.start (.sized 3 1)).setPeers .threeSecondaries
    let s' := (replicate env 9 s).state
    s.members.appPrimaries = 0 ∧ s'.members.appPrimaries = 1
      ∧ ∃ s'', reconcile env .three s' = .ret [] s''
        ∧ ∀ k m, s'.members.lookup k = some m →
          (m.online = true ∨ m.appRunning = false ∧ m.appPrimary = false) →
          ∃ m', s''.members.lookup k = some m'
            ∧ m'.appRunning = m.appRunning ∧ m'.appPrimary = m.appPrimary
            ∧ m'.appFailed = m.appFailed := by
  intro env s s'
  refine ⟨by decide +kernel, by decide +kernel, ?_⟩
  have hsound : MemberSet.Sound .threeSecondaries := by decide +kernel
  have hret : (replicate env 9 s).returned = true := by decide +kernel
  obtain ⟨errors, heq⟩ := Outcome.eq_ret_of_returned hret
  refine (roles_agree env 9 .three s s' errors (fun _ => .secondary) rfl
    hsound.keyed ?_ heq ?_ ?_ ?_).1
  · refine GoMap.forall_lookup_iff.mpr ?_
    decide +kernel
  · refine GoMap.forall_lookup_iff.mpr ?_
    decide +kernel
  · have hthere : ∀ k m, s'.members.lookup k = some m →
        m.online = true → k ∈ PodList.three.names :=
      GoMap.forall_lookup_iff.mpr (by decide +kernel)
    have hlisted : ∀ k ∈ PodList.three.names, s'.OnlineAt k := by
      decide +kernel
    intro k
    refine ⟨hlisted k, fun hon => ?_⟩
    obtain ⟨m, hm, honline⟩ := hon
    exact hthere k m hm honline
  · decide +kernel

end RssOperator
