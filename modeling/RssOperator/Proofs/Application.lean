/-
The application behind the commands, and what a pass knows of it.

# The application

The operator holds flags; what runs on the pods is the application. It
has a role on every pod, and all the operator does to it goes through
commands whose answers are on record. `Responds` says what a command that was
answered so may have done: a success has been carried out, a failed start
has made no primary, a status check is answered truthfully or not at all.
A command that never reached a container did nothing, and that is where
the record may deceive: `ExecWithOptions` reports success for a pod it
could not read. `Event.answered` rules it out.

Between the commands the application may change by itself, within a drift
(`Behaves`): not at all, or by losing the role of a primary.

# The coupling

`TracksAt` says of one member that, if it is there and has not failed, its
flags are those of a role the application had when they were last
written. Every command on a member establishes that (`Act.tracks_self`),
and nothing else takes it away (`Act.tracks`), so it holds for everybody
after every `reconcile` (`reconcile_tracks`), whatever the flags were
before and however many errors it reports.
-/
import RssOperator.Lib.Follows
import RssOperator.Proofs.Roles

namespace RssOperator

variable {env : Env} {G : Event → Prop} {s s' s₀ : Sys} {ms : MemberSet}
  {k : String} {m m' : Member} {pods : PodList} {spec : ClusterSpec}
  {D : Drift Role} {roles roles' : String → Role}

-- ===================================================== the application

/-- What the application on a pod makes of a command that was answered by
`a`. -/
inductive Responds (a : ExecAnswer) : Call → Role → Role → Prop
  /-- The command did not get to the application. -/
  | unreached {call : Call} {r : Role} :
      a.streamed = false → Responds a call r r
  /-- It says what it is, or nothing that could be taken for that. -/
  | status {r : Role} :
      a.rc = r.code ∨ a.rc ∉ [(0 : Int), 7, 8] → Responds a .status r r
  | sequence {r : Role} : Responds a .sequence r r
  | started {key : CommandKey} {asPrimary : Bool} {r : Role} :
      a.streamed = true → a.succeeds = true →
      Responds a (.start key asPrimary) r (.startedBy key)
  | startFailed {key : CommandKey} {asPrimary : Bool} {r r' : Role} :
      a.succeeds = false → (r' = .primary → r = .primary) →
      Responds a (.start key asPrimary) r r'
  | stopped {r : Role} :
      a.streamed = true → a.succeeds = true → Responds a .stop r .stopped
  | stopFailed {r r' : Role} :
      a.succeeds = false → Responds a .stop r r'

/-- Asking changes nothing. -/
theorem Responds.asked {a : ExecAnswer} {call : Call} {r r' : Role}
    (h : Responds a call r r')
    (hcall : call = .status ∨ call = .sequence) : r' = r := by
  cases h with
  | unreached => rfl
  | status => rfl
  | sequence => rfl
  | started | startFailed | stopped | stopFailed =>
      rcases hcall with hcall | hcall
      · cases hcall
      · cases hcall

/-- An answer that is taken for a role is the role. -/
theorem Responds.told {a : ExecAnswer} {r r' : Role}
    (h : Responds a .status r r') (hreached : a.streamed = true)
    (hcode : a.rc ∈ [(0 : Int), 7, 8]) : a.rc = r.code := by
  cases h with
  | unreached hno =>
      rw [hreached] at hno
      cases hno
  | status htrue => exact htrue.resolve_right (not_not_intro hcode)

/-- A start that fails makes no primary. -/
theorem Responds.made {a : ExecAnswer} {key : CommandKey} {asPrimary : Bool}
    {r r' : Role} (h : Responds a (.start key asPrimary) r r')
    (ha : a.succeeds = false) (hr' : r' = .primary) : r = .primary := by
  cases h with
  | unreached => exact hr'
  | started _ hok =>
      rw [ha] at hok
      cases hok
  | startFailed _ hkeep => exact hkeep hr'

/-- What an entry of the record may have done to the roles. A pod that has
been deleted comes back with any role. -/
def Event.turns : Event → (String → Role) → (String → Role) → Prop
  | .exec call _ pod _ _ a, roles, roles' =>
      Responds a call (roles pod) (roles' pod)
        ∧ ∀ k, k ≠ pod → roles' k = roles k
  | .delete key _ true, roles, roles' => ∀ k, k ≠ key → roles' k = roles k
  | _, roles, roles' => roles' = roles

/-- The roles can have gone from `roles` to `roles'` along the record. -/
abbrev Behaves (D : Drift Role) (es : List Event)
    (roles roles' : String → Role) : Prop :=
  Follows Event.turns D.pointwise es roles roles'

/-- An answer that does not come from a container is not taken for one. -/
def Event.answered : Event → Prop
  | .exec _ _ _ _ _ a => a.streamed = true ∨ a.rc ∉ [(0 : Int), 7, 8]
  | _ => True

instance (e : Event) : Decidable e.answered :=
  match e with
  | .exec _ _ _ _ _ _ => inferInstanceAs (Decidable (_ ∨ _))
  | .delete .. | .tag .. | .update .. | .get .. =>
      inferInstanceAs (Decidable True)

theorem ExecAnswer.streamed_of_succeeds {a : ExecAnswer}
    (h : a.streamed = true ∨ a.rc ∉ [(0 : Int), 7, 8])
    (hok : a.succeeds = true) : a.streamed = true := by
  rcases h with h | h
  · exact h
  · rw [rc_of_succeeds hok] at h
    exact absurd (by simp) h

theorem Event.turns_quiet {e : Event} (h : e.quiet = true)
    (hturn : e.turns roles roles') : roles' = roles := by
  cases e with
  | exec => cases h
  | delete => cases h
  | tag => exact hturn
  | update => exact hturn
  | get => exact hturn

theorem behaves_quiet {es : List Event} (h : ∀ e ∈ es, e.quiet = true)
    (hrun : Behaves D es roles roles') (k : String) :
    D.may (roles k) (roles' k) := by
  refine Follows.leads (R := D.pointwise.may) D.pointwise.trans
    (fun _ _ hdrift => hdrift) ?_ hrun k
  intro e he r r' hturn
  rw [Event.turns_quiet (h e he) hturn]
  exact D.pointwise.refl r

/-- An entry about another pod. -/
theorem Event.turns_other {e : Event} (hturn : e.turns roles roles')
    (hexec : ∀ call key pod args peers a,
      e = .exec call key pod args peers a → k ≠ pod)
    (hdelete : ∀ key peers ok, e = .delete key peers ok → k ≠ key) :
    roles' k = roles k := by
  cases e with
  | exec call key pod args peers a =>
      exact hturn.2 k (hexec _ _ _ _ _ _ rfl)
  | delete key peers ok =>
      cases ok with
      | true => exact hturn k (hdelete _ _ _ rfl)
      | false => exact congrFun hturn k
  | tag => exact congrFun hturn k
  | update => exact congrFun hturn k
  | get => exact congrFun hturn k

/-- The answer fits an application that is in its role and does as it is
told. -/
def Event.played (roles : String → Role) : Event → Bool
  | .exec .status _ pod _ _ a =>
      a.rc = (roles pod).code || !decide (a.rc ∈ [(0 : Int), 7, 8])
  | .exec .sequence _ _ _ _ _ => true
  | .exec (.start ..) _ _ _ _ a | .exec .stop _ _ _ _ a =>
      a.streamed || !a.succeeds
  | _ => true

/-- The same, all along a record. -/
def playedBy (roles : String → Role) : List Event → Bool
  | [] => true
  | e :: es => playedBy roles es && e.played (rolesAfter roles es)

theorem Event.turns_setRole {e : Event} (h : e.played roles = true) :
    e.turns roles (e.setRole roles) := by
  cases e with
  | exec call key pod args peers a =>
      cases call with
      | status =>
          refine ⟨.status ?_, fun _ _ => rfl⟩
          simpa [Event.played] using h
      | sequence => exact ⟨.sequence, fun _ _ => rfl⟩
      | stop =>
          cases ha : a.succeeds with
          | false =>
              simp only [Event.setRole, ha, Bool.false_eq_true, if_false]
              exact ⟨.stopFailed ha, fun _ _ => rfl⟩
          | true =>
              have hs : a.streamed = true := by
                simpa [Event.played, ha] using h
              simp only [Event.setRole, ha, if_true]
              refine ⟨?_, fun k hk => Function.update_of_ne hk _ _⟩
              rw [Function.update_self]
              exact .stopped hs ha
      | start key asPrimary =>
          cases ha : a.succeeds with
          | false =>
              simp only [Event.setRole, ha, Bool.false_eq_true, if_false]
              exact ⟨.startFailed ha id, fun _ _ => rfl⟩
          | true =>
              have hs : a.streamed = true := by
                simpa [Event.played, ha] using h
              simp only [Event.setRole, ha, if_true]
              refine ⟨?_, fun k hk => Function.update_of_ne hk _ _⟩
              rw [Function.update_self]
              exact .started hs ha
  | delete key peers ok =>
      cases ok with
      | true => exact fun _ _ => rfl
      | false => rfl
  | tag => rfl
  | update => rfl
  | get => rfl

/-- An application that changes by its commands alone behaves. -/
theorem behaves_rolesAfter {es : List Event}
    (h : playedBy roles es = true) :
    Behaves D es roles (rolesAfter roles es) := by
  induction es with
  | nil => exact .nil (D.pointwise.refl roles)
  | cons e es ih =>
      rw [playedBy, Bool.and_eq_true] at h
      exact .cons (ih h.1) (Event.turns_setRole h.2) (D.pointwise.refl _)

-- ======================================================== the coupling

/-- The role an answer is read as: without a `secondary` command everybody
who runs is a primary. -/
def Role.readAs (spec : ClusterSpec) (r : Role) : Role :=
  if r = .secondary ∧ (spec.commands .secondary).isNone then .primary else r

theorem statusCode_readAs {a : ExecAnswer} {r : Role}
    (h : a.rc = r.code) : statusCode spec a = (r.readAs spec).code := by
  unfold statusCode Role.readAs
  rw [h]
  cases r with
  | stopped => simp [Role.code]
  | secondary =>
      by_cases hnone : (spec.commands .secondary).isNone = true
      · simp [Role.code, hnone]
      · simp [Role.code, hnone]
  | primary => simp [Role.code]

/-- A member that is there and has not failed shows a role that the
application had. -/
def TracksAt (D : Drift Role) (spec : ClusterSpec) (roles : String → Role)
    (ms : MemberSet) (k : String) : Prop :=
  ∀ m, ms.lookup k = some m → m.online = true → m.appFailed = false →
    ∃ r, D.may r (roles k) ∧ m.ShowsCode (r.readAs spec).code

theorem TracksAt.drift (h : TracksAt D spec roles ms k)
    (hdrift : D.may (roles k) (roles' k)) :
    TracksAt D spec roles' ms k := by
  intro m hm hon hfine
  obtain ⟨r, hr, hshows⟩ := h m hm hon hfine
  exact ⟨r, D.trans hr hdrift, hshows⟩

/-- What is noted of a start is the role its command gives. -/
def Call.fits (spec : ClusterSpec) : Call → Prop
  | .start key asPrimary =>
      (Role.startedBy key).readAs spec
        = if asPrimary then .primary else .secondary
  | _ => True

/-- An entry that does not deceive. -/
def Event.fits (spec : ClusterSpec) : Event → Prop
  | .exec call k pod args peers a =>
      call.fits spec ∧ (Event.exec call k pod args peers a).answered
  | _ => True

/-- A status that is not read as a failure is the truth. -/
theorem noteStatus_tracks {a : ExecAnswer} {r r' : Role}
    (hans : a.streamed = true ∨ a.rc ∉ [(0 : Int), 7, 8])
    (hresp : Responds a .status r r')
    (hfine : (m.noteStatus (statusCode spec a)).appFailed = false) :
    r' = r
      ∧ (m.noteStatus (statusCode spec a)).ShowsCode
          (r.readAs spec).code := by
  have hgood : a.rc ∈ [(0 : Int), 7, 8] := by
    by_contra hbad
    have hcode : statusCode spec a = a.rc := by
      unfold statusCode
      rw [if_neg]
      rintro ⟨hzero, -⟩
      rw [hzero] at hbad
      exact hbad (by simp)
    rw [hcode] at hfine
    simp only [List.mem_cons, List.not_mem_nil, or_false, not_or] at hbad
    rw [Member.noteStatus, if_neg hbad.1, if_neg hbad.2.1,
      if_neg hbad.2.2] at hfine
    cases hfine
  have hcode : a.rc = r.code :=
    hresp.told (hans.resolve_right (not_not_intro hgood)) hgood
  refine ⟨hresp.asked (Or.inl rfl), ?_⟩
  rw [statusCode_readAs hcode]
  exact (m.showsCode_noteStatus (Role.code_mem _)).1

/-- What a command leaves of a member shows what it leaves of the
application. -/
theorem Effect.tracks {spec' : ClusterSpec} {a : ExecAnswer} {call : Call}
    {r r' : Role} (heff : Effect spec' a m call m')
    (hspec : call = .status → spec' = spec) (hcall : call.fits spec)
    (hans : a.streamed = true ∨ a.rc ∉ [(0 : Int), 7, 8])
    (hresp : Responds a call r r') (hfine : m'.appFailed = false) :
    m'.ShowsCode (r'.readAs spec).code := by
  cases heff with
  | startFailed _ ha => cases hfine
  | @started key asPrimary _ ha =>
      have hstreamed := ExecAnswer.streamed_of_succeeds hans ha
      cases hresp with
      | unreached hun =>
          rw [hun] at hstreamed
          cases hstreamed
      | started =>
          have hrole : (Role.startedBy key).readAs spec
              = if asPrimary then .primary else .secondary := hcall
          rw [hrole]
          cases asPrimary with
          | true => exact Or.inr (Or.inr ⟨rfl, rfl, rfl⟩)
          | false => exact Or.inl ⟨rfl, rfl, rfl⟩
      | startFailed hno =>
          rw [ha] at hno
          cases hno
  | stopFailed _ ha => cases hfine
  | stopped _ ha =>
      have hstreamed := ExecAnswer.streamed_of_succeeds hans ha
      cases hresp with
      | unreached hun =>
          rw [hun] at hstreamed
          cases hstreamed
      | stopped => exact Or.inr (Or.inl ⟨rfl, rfl, rfl⟩)
      | stopFailed hno =>
          rw [ha] at hno
          cases hno
  | checked =>
      obtain rfl : spec' = spec := hspec rfl
      obtain ⟨rfl, hshows⟩ := noteStatus_tracks hans hresp hfine
      exact hshows

-- ================================================================ acts

/-- Every step of a pass keeps the keys. -/
theorem Act.keyed (hact : Act env G s s') (hs : s.members.WellKeyed) :
    s'.members.WellKeyed := by
  have hwrite : ∀ {f : Member → Member} {k : String} {m : Member},
      s.members.lookup k = some m → (f m).name = m.name →
      MemberSet.WellKeyed (s.members.modify k f) := by
    intro f k m hm hname k₁ m₁ hm₁
    rcases GoMap.lookup_modify_known hm hm₁ with ⟨rfl, rfl⟩ | ⟨-, hm₁⟩
    · exact hname.trans (hs _ m hm)
    · exact hs k₁ m₁ hm₁
  cases hact with
  | quiet hquiet =>
      rw [hquiet.members]
      exact hs
  | command hm heff hpeers =>
      rw [Sys.members_of_peers hpeers]
      exact hwrite hm heff.name
  | @detect k m args f hm hon hf hpeers =>
      rw [Sys.members_of_peers hpeers]
      refine hs.modify (fun m => ?_) m.name
      obtain ⟨n, hn⟩ := hf m
      rw [hn]
  | @delete k m ok hm hfailed hcause hpeers =>
      rw [Sys.members_of_peers hpeers]
      refine hwrite hm ?_
      cases ok with
      | true => rfl
      | false => rfl

/-- A command on a member, whatever was known of it before. -/
theorem command_tracks {call : Call} {args : List String}
    (hm : s.members.lookup k = some m) (hname : m.name = k)
    (heff : Effect s.spec (env.exec s.execs call m.name) m call m')
    (hpeers : s'.c.peers = some (s.members.modify k fun _ => m'))
    (htrace : s'.trace = .exec call k m.name args s.members
      (env.exec s.execs call m.name) :: s.trace)
    (hfits : (Event.exec call k m.name args s.members
      (env.exec s.execs call m.name)).fits spec)
    (hspec : call = .status → s.spec = spec)
    (hrun : Behaves D (s.since s') roles roles') :
    TracksAt D spec roles' s'.members k := by
  intro m₁ hm₁ hon hfine
  rw [Sys.members_of_peers hpeers, GoMap.lookup_modify_of_some hm] at hm₁
  cases hm₁
  rw [@Sys.since_eq s s' [_] htrace] at hrun
  obtain ⟨r₁, r₂, -, ⟨hresp, -⟩, hdrift⟩ := follows_one.mp hrun
  have hshows := heff.tracks hspec hfits.1 hfits.2 hresp hfine
  rw [hname] at hshows
  exact ⟨r₂ k, hdrift k, hshows⟩

/-- No step takes the knowledge of a member away. -/
theorem Act.tracks (hact : Act env G s s') (hG : ∀ e, G e → e.fits spec)
    (hspec : (∀ k pod args peers a, ¬ G (.exec .status k pod args peers a))
      ∨ s.spec = spec)
    (hs : s.members.WellKeyed)
    (hrun : Behaves D (s.since s') roles roles')
    (h : TracksAt D spec roles s.members k) :
    TracksAt D spec roles' s'.members k := by
  cases hact with
  | quiet hquiet =>
      obtain ⟨es, htrace, hall⟩ := hquiet.trace
      rw [Sys.since_eq htrace] at hrun
      rw [hquiet.members]
      exact h.drift (behaves_quiet hall hrun k)
  | @command call k₁ m m' args hm heff hpeers htrace hg =>
      by_cases hk : k = k₁
      · subst hk
        refine command_tracks hm (hs k m hm) heff hpeers htrace (hG _ hg) ?_
          hrun
        rintro rfl
        exact hspec.resolve_left fun hno => hno _ _ _ _ _ hg
      · rw [@Sys.since_eq s s' [_] htrace] at hrun
        obtain ⟨r₁, r₂, hbefore, hturn, hdrift⟩ := follows_one.mp hrun
        intro m₁ hm₁ hon hfine
        rw [Sys.members_of_peers hpeers, GoMap.lookup_modify_ne hk] at hm₁
        have hsame : r₂ k = r₁ k :=
          hturn.2 k (by rw [hs k₁ m hm]; exact hk)
        refine (h.drift ?_) m₁ hm₁ hon hfine
        exact D.trans (hbefore k) (hsame ▸ hdrift k)
  | @detect k₁ m args f hm hon hf hpeers htrace hg =>
      rw [@Sys.since_eq s s' [_] htrace] at hrun
      obtain ⟨r₁, r₂, hbefore, ⟨hresp, hother⟩, hdrift⟩ := follows_one.mp hrun
      have hsame : r₂ k = r₁ k := by
        by_cases hk : k = m.name
        · rw [hk]
          exact hresp.asked (Or.inr rfl)
        · exact hother k hk
      have hkept : TracksAt D spec roles' s.members k :=
        h.drift (D.trans (hbefore k) (hsame ▸ hdrift k))
      intro m₁ hm₁ hon₁ hfine
      rw [Sys.members_of_peers hpeers] at hm₁
      rcases GoMap.lookup_modify_some hm₁ with ⟨rfl, m₀, hm₀, rfl⟩ | hm₁
      · obtain ⟨n, hn⟩ := hf m₀
        rw [hn] at hon₁ hfine ⊢
        exact hkept m₀ hm₀ hon₁ hfine
      · exact hkept m₁ hm₁ hon₁ hfine
  | @delete k₁ m ok hm hfailed hcause hpeers htrace hg =>
      rw [@Sys.since_eq s s' [_] htrace] at hrun
      obtain ⟨r₁, r₂, hbefore, hturn, hdrift⟩ := follows_one.mp hrun
      intro m₁ hm₁ hon₁ hfine
      rw [Sys.members_of_peers hpeers] at hm₁
      rcases GoMap.lookup_modify_known hm hm₁ with ⟨rfl, rfl⟩ | ⟨hk, hm₁⟩
      · -- a pod that is gone, or a member that is still failed
        cases ok with
        | true => cases hon₁
        | false =>
            rw [if_neg (by simp), hfailed] at hfine
            cases hfine
      · have hsame : r₂ k = r₁ k :=
          Event.turns_other hturn (fun _ _ _ _ _ _ h => by cases h)
            fun _ _ _ h => by cases h; exact hk
        refine (h.drift ?_) m₁ hm₁ hon₁ hfine
        exact D.trans (hbefore k) (hsame ▸ hdrift k)

/-- The rule for whole stages: what every step keeps of the state and the
roles. -/
theorem Acts.coupled {J : (String → Role) → Sys → Prop}
    (hstep : ∀ s s' roles roles', J roles s → Act env G s s' →
      Behaves D (s.since s') roles roles' → J roles' s')
    (h : Acts env G s s') (hs : J roles s)
    (hrun : Behaves D (s.since s') roles roles') : J roles' s' := by
  induction h generalizing roles' with
  | refl =>
      exact hstep s s roles roles' hs (.quiet (Quiet.refl s)) hrun
  | @tail s₁ s₂ h₁ hact ih =>
      rw [Acts.since_trans h₁ (Relation.ReflTransGen.single hact)] at hrun
      obtain ⟨roles₁, hbefore, hafter⟩ := follows_append.mp hrun
      exact hstep s₁ s₂ roles₁ roles' (ih hbefore) hact hafter

/-- A step is quiet or one entry of the record. -/
theorem Act.quiet_or_entry (hact : Act env G s s') :
    Quiet s s' ∨ ∃ e, s'.trace = e :: s.trace ∧ e.quiet = false := by
  cases hact with
  | quiet hquiet => exact Or.inl hquiet
  | command _ _ _ htrace => exact Or.inr ⟨_, htrace, rfl⟩
  | detect _ _ _ _ _ htrace => exact Or.inr ⟨_, htrace, rfl⟩
  | delete _ _ _ _ _ htrace => exact Or.inr ⟨_, htrace, rfl⟩

/-- The same rule at an entry: the step that made it was taken from a
state that goes with the roles of that moment. -/
theorem Acts.coupled_at {J : (String → Role) → Sys → Prop}
    (hstep : ∀ s s' roles roles', J roles s → Act env G s s' →
      Behaves D (s.since s') roles roles' → J roles' s')
    (h : Acts env G s s') (hs : J roles s) {newer older : List Event}
    {e : Event} (hsplit : s.since s' = newer ++ e :: older)
    (hloud : e.quiet = false) (hrun : Behaves D older roles roles') :
    ∃ t t', J roles' t ∧ Act env G t t' ∧ t'.trace = e :: t.trace := by
  induction h generalizing newer older with
  | refl =>
      rw [@Sys.since_eq s s [] rfl] at hsplit
      simp at hsplit
  | @tail s₁ s₂ h₁ hact ih =>
      rw [Acts.since_trans h₁ (Relation.ReflTransGen.single hact)] at hsplit
      rcases split_of_append hsplit with
        ⟨mid, hfront, rfl⟩ | ⟨mid, hback, -⟩
      · have hmem : e ∈ s₁.since s₂ := by
          rw [hfront]
          exact List.mem_append_right _ List.mem_cons_self
        rcases hact.quiet_or_entry with hquiet | ⟨e', htrace, -⟩
        · obtain ⟨es, htrace, hall⟩ := hquiet.trace
          rw [Sys.since_eq htrace] at hmem
          rw [hall e hmem] at hloud
          cases hloud
        · rw [@Sys.since_eq s₁ s₂ [e'] htrace] at hfront
          obtain ⟨rfl, rfl, rfl⟩ : newer = [] ∧ e = e' ∧ mid = [] := by
            cases newer with
            | nil =>
                injection hfront with he hmid
                exact ⟨rfl, he.symm, hmid.symm⟩
            | cons _ newer =>
                injection hfront with _ htail
                simp at htail
          exact ⟨s₁, s₂, Acts.coupled hstep h₁ hs hrun, hact, htrace⟩
      · exact ih hback hrun

/-- What is on record of a command is what the step did. -/
theorem Act.entry {call : Call} {k pod : String} {args : List String}
    {peers : MemberSet} {a : ExecAnswer} (hact : Act env G s s')
    (htrace : s'.trace = .exec call k pod args peers a :: s.trace) :
    G (.exec call k pod args peers a) ∧ peers = s.members := by
  have hone : ∀ {e : Event}, s'.trace = e :: s.trace →
      e = .exec call k pod args peers a := by
    intro e he
    rw [htrace] at he
    injection he with he
    exact he.symm
  cases hact with
  | quiet hquiet =>
      obtain ⟨es, hes, hall⟩ := hquiet.trace
      have hsince : s.since s' = es := Sys.since_eq hes
      rw [@Sys.since_eq s s' [_] htrace] at hsince
      have hquiet' := hall _ (hsince ▸ List.mem_cons_self)
      cases hquiet'
  | command _ _ _ htrace' hG =>
      have heq := hone htrace'
      rw [heq] at hG
      injection heq with _ _ _ _ hpeers
      exact ⟨hG, hpeers.symm⟩
  | detect _ _ _ _ _ htrace' hG =>
      have heq := hone htrace'
      rw [heq] at hG
      injection heq with _ _ _ _ hpeers
      exact ⟨hG, hpeers.symm⟩
  | delete _ _ _ _ _ htrace' _ => cases hone htrace'

-- =========================================================== reconcile

/-- The state in which a member has been asked for its status. -/
def Sys.asked (env : Env) (k : String) (m : Member) (s : Sys) : Sys :=
  (s.ran env .status k m.name).update k (Member.noteStatus
    (statusCode s.spec (env.exec s.execs .status m.name)))

/-- A turn of the status loop that asks is quiet from there on. -/
theorem checkMember_asks {errors : List Err}
    (hm : s.members.lookup k = some m) (hfailed : m.appFailed = false)
    (hon : m.online = true) :
    Quiet (s.asked env k m) (checkMember env (errors, s) k).2 := by
  unfold checkMember
  dsimp only
  rw [hm]
  dsimp only
  rw [hfailed, hon, if_neg (by simp), execute_state, Sys.spec_ran,
    remapStatus_fst]
  split
  · exact Quiet.tagAppMember k false _
  · exact Quiet.refl _

/-- A turn that does not ask does nothing. -/
theorem checkMember_skips {errors : List Err}
    (h : ∀ m, s.members.lookup k = some m → m.online = true →
      m.appFailed = true) :
    (checkMember env (errors, s) k).2 = s := by
  unfold checkMember
  dsimp only
  cases hm : s.members.lookup k with
  | none => rfl
  | some m =>
      dsimp only
      rw [if_pos]
      cases hon : m.online with
      | false => simp
      | true => simp [h m hm hon]

/-- After its turn a member is tracked, and nobody else is lost. -/
theorem checkMember_tracks {errors : List Err} {k₁ : String}
    (hs : s.members.WellKeyed) (hspec : s.spec = spec)
    (hans : ∀ e ∈ s.since (checkMember env (errors, s) k₁).2, e.answered)
    (hrun : Behaves D (s.since (checkMember env (errors, s) k₁).2) roles
      roles')
    (h : k = k₁ ∨ TracksAt D spec roles s.members k) :
    TracksAt D spec roles' (checkMember env (errors, s) k₁).2.members k := by
  by_cases hskip : ∀ m, s.members.lookup k₁ = some m → m.online = true →
      m.appFailed = true
  · rw [checkMember_skips hskip] at hrun ⊢
    rw [@Sys.since_eq s s [] rfl] at hrun
    rcases h with rfl | h
    · intro m hm hon hfine
      rw [hskip m hm hon] at hfine
      cases hfine
    · exact h.drift (follows_nil.mp hrun k)
  · simp only [not_forall, Bool.not_eq_true] at hskip
    obtain ⟨m, hm, hon, hfailed⟩ := hskip
    have hrest := @checkMember_asks env s k₁ m errors hm hfailed hon
    obtain ⟨es, htrace, hall⟩ := hrest.trace
    have hsince : s.since (checkMember env (errors, s) k₁).2
        = es ++ s.since (s.asked env k₁ m) := by
      rw [@Sys.since_eq s (s.asked env k₁ m) [_] rfl]
      exact Sys.since_eq (by rw [htrace, List.append_assoc]; rfl)
    rw [hsince] at hans hrun
    obtain ⟨roles₁, hbefore, hafter⟩ := follows_append.mp hrun
    have hfits : (s.entry env .status k₁ m.name).fits spec := by
      refine ⟨trivial, hans _ (List.mem_append_right _ ?_)⟩
      rw [@Sys.since_eq s (s.asked env k₁ m) [_] rfl]
      exact List.mem_cons_self
    have hpeers := @Sys.peers_update_of_lookup s k₁ m (Member.noteStatus
      (statusCode s.spec (env.exec s.execs .status m.name))) hm
    have hasked : TracksAt D spec roles₁ (s.asked env k₁ m).members k := by
      rcases h with rfl | h
      · exact command_tracks hm (hs k m hm) (.checked hon hfailed) hpeers rfl
          hfits (fun _ => hspec) hbefore
      · have hact : Act env (fun e => e.fits spec) s (s.asked env k₁ m) :=
          .command hm (.checked hon hfailed) hpeers rfl hfits
        exact hact.tracks (fun _ he => he) (Or.inr hspec) hs hbefore h
    rw [hrest.members]
    exact hasked.drift (behaves_quiet hall hafter k)

/-- A status loop: whoever has had a turn is tracked. -/
theorem foldl_check_tracks (ks : List String) :
    ∀ (acc : List Err × Sys) (roles : String → Role),
      acc.2.members.WellKeyed → acc.2.spec = spec →
      (∀ e ∈ acc.2.since (ks.foldl (checkMember env) acc).2, e.answered) →
      Behaves D (acc.2.since (ks.foldl (checkMember env) acc).2) roles
        roles' →
      k ∈ ks ∨ TracksAt D spec roles acc.2.members k →
      TracksAt D spec roles' (ks.foldl (checkMember env) acc).2.members k := by
  induction ks with
  | nil =>
      intro acc roles hs hspec hans hrun h
      rw [List.foldl_nil, @Sys.since_eq acc.2 acc.2 [] rfl] at hrun
      exact (h.resolve_left List.not_mem_nil).drift
        (follows_nil.mp hrun k)
  | cons k₁ ks ih =>
      intro acc roles hs hspec hans hrun h
      obtain ⟨errors, s⟩ := acc
      have hturn : Acts env Event.check s
          (checkMember env (errors, s) k₁).2 :=
        checkMember_acts (errors, s) k₁
      have hrest : Acts env Event.check (checkMember env (errors, s) k₁).2
          (ks.foldl (checkMember env) (checkMember env (errors, s) k₁)).2 :=
        Acts.foldl checkMember_acts ks _
      rw [List.foldl_cons, Acts.since_trans hturn hrest] at hans hrun
      obtain ⟨roles₁, hbefore, hafter⟩ := follows_append.mp hrun
      refine ih _ roles₁ ?_ ?_ ?_ hafter ?_
      · exact Acts.keep (fun _ _ hs hact => hact.keyed hs) hturn hs
      · exact ((Steady.frame env).checkMember (errors, s) k₁).spec.trans hspec
      · exact fun e he => hans e (List.mem_append_left _ he)
      · by_cases hk : k ∈ ks
        · exact Or.inl hk
        · refine Or.inr (checkMember_tracks hs hspec (fun e he => hans e
            (List.mem_append_right _ he)) hbefore ?_)
          rcases h with h | h
          · exact Or.inl ((List.mem_cons.mp h).resolve_right hk)
          · exact Or.inr h

theorem checkMembers_tracks (hs : s.members.WellKeyed)
    (hans : ∀ e ∈ s.since (checkMembers env s).2, e.answered)
    (hrun : Behaves D (s.since (checkMembers env s).2) roles roles')
    (k : String) :
    TracksAt D s.spec roles' (checkMembers env s).2.members k := by
  cases hm : s.members.lookup k with
  | none =>
      have hnone : (checkMembers env s).2.members.lookup k = none :=
        lookup_range_none members_checkMember _ hm
      intro m hm'
      rw [hnone] at hm'
      cases hm'
  | some m =>
      exact foldl_check_tracks _ ([], s.ranged 1) roles hs rfl hans hrun
        (Or.inl (GoMap.mem_range.mpr ⟨m, hm⟩))

/-- A stage that issues no status check. -/
theorem Acts.tracks (h : Acts env G s s') (hG : ∀ e, G e → e.fits spec)
    (hno : ∀ k pod args peers a, ¬ G (.exec .status k pod args peers a))
    (hs : s.members.WellKeyed)
    (hrun : Behaves D (s.since s') roles roles')
    (htracks : ∀ k, TracksAt D spec roles s.members k) (k : String) :
    TracksAt D spec roles' s'.members k := by
  refine (Acts.coupled (J := fun roles s => s.members.WellKeyed
    ∧ ∀ k, TracksAt D spec roles s.members k) ?_ h ⟨hs, htracks⟩ hrun).2 k
  rintro s s' roles roles' ⟨hs, htracks⟩ hact hrun
  exact ⟨hact.keyed hs, fun k =>
    hact.tracks hG (Or.inl hno) hs hrun (htracks k)⟩

theorem recover_tracks (hs : s.members.WellKeyed)
    (hans : ∀ e ∈ s.since (recover env s).2, e.answered)
    (hrun : Behaves D (s.since (recover env s).2) roles roles')
    (htracks : ∀ k, TracksAt D spec roles s.members k) (k : String) :
    TracksAt D spec roles' (recover env s).2.members k := by
  have hacts : Acts env (fun e => (e.quiet = true ∨ e.cleanup) ∧ e.answered)
      s (recover env s).2 := by
    refine Acts.restrict (recover_acts s) fun e he => ⟨?_, hans e he⟩
    exact (recover_acts s).mem_since e he
  refine hacts.tracks ?_ ?_ hs hrun htracks k
  · rintro e ⟨hkind, hans⟩
    cases e with
    | exec call =>
        obtain rfl : call = .stop := hkind.resolve_left (by simp [Event.quiet])
        exact ⟨trivial, hans⟩
    | delete | tag | update | get => trivial
  · rintro k pod args peers a ⟨hkind, -⟩
    have hstop : Call.status = .stop :=
      hkind.resolve_left (by simp [Event.quiet])
    cases hstop

/-- After a `reconcile` every member that is there and has not failed
shows its application, whatever was on record of it before and whether or
not the pass reports errors. -/
theorem reconcile_tracks (hs : s.members.WellKeyed)
    (hans : ∀ e ∈ s.since (reconcile env pods s).state, e.answered)
    (hrun : Behaves D (s.since (reconcile env pods s).state) roles roles')
    (k : String) :
    TracksAt D s.spec roles' (reconcile env pods s).state.members k := by
  obtain ⟨s₀, hmerge, heq⟩ := reconcile_keyed env pods hs
  rw [heq, Outcome.state_ret] at hans hrun ⊢
  have hcheck := @checkMembers_acts env s₀
  have hrecover := @recover_acts env (checkMembers env s₀).2
  have hreport : Quiet (recover env (checkMembers env s₀).2).2
      (reconcileMerged env s₀).2 := Quiet.reportReconciled _ _
  have hsince : s.since (reconcileMerged env s₀).2
      = (recover env (checkMembers env s₀).2).2.since
          (reconcileMerged env s₀).2
        ++ ((checkMembers env s₀).2.since
            (recover env (checkMembers env s₀).2).2
          ++ s₀.since (checkMembers env s₀).2) := by
    rw [← hcheck.since_trans₃ hrecover (Acts.quiet (G := Event.check) hreport)]
    unfold Sys.since
    rw [hmerge.trace]
  rw [hsince] at hans hrun
  obtain ⟨roles₂, hrun, hlast⟩ := follows_append.mp hrun
  obtain ⟨roles₁, hfirst, hmiddle⟩ := follows_append.mp hrun
  have hs₀ : s₀.members.WellKeyed := fun k m hm => hmerge.name hs hm
  have hs₁ : (checkMembers env s₀).2.members.WellKeyed :=
    Acts.keep (fun _ _ hs hact => hact.keyed hs) hcheck hs₀
  have htracks := recover_tracks hs₁
    (fun e he => hans e (List.mem_append_right _
      (List.mem_append_left _ he))) hmiddle
    (checkMembers_tracks hs₀ (fun e he => hans e (List.mem_append_right _
      (List.mem_append_right _ he))) hfirst) k
  obtain ⟨es, htrace, hall⟩ := hreport.trace
  rw [Sys.since_eq htrace] at hlast
  rw [hreport.members, ← hmerge.spec]
  exact htracks.drift (behaves_quiet hall hlast k)

/-- What a `reconcile` puts on record, and that it leaves the keys. -/
theorem reconcile_record (env : Env) (pods : PodList)
    (hs : s.members.WellKeyed) :
    (reconcile env pods s).state.trace
        = s.since (reconcile env pods s).state ++ s.trace
      ∧ (∀ e ∈ s.since (reconcile env pods s).state,
          e.quiet = true ∨ e.check ∨ e.cleanup)
      ∧ (reconcile env pods s).state.members.WellKeyed := by
  obtain ⟨s₀, hmerge, heq⟩ := reconcile_keyed env pods hs
  rw [heq, Outcome.state_ret]
  have hacts : Acts env (fun e => e.check ∨ e.cleanup) s₀
      (reconcileMerged env s₀).2 :=
    (((checkMembers_acts s₀).mono fun _ => Or.inl).trans
      ((recover_acts _).mono fun _ => Or.inr)).trans
        (Acts.quiet (Quiet.reportReconciled _ _))
  have hsince : s.since (reconcileMerged env s₀).2
      = s₀.since (reconcileMerged env s₀).2 := by
    unfold Sys.since
    rw [hmerge.trace]
  rw [hsince, ← hmerge.trace]
  refine ⟨hacts.trace_eq, hacts.mem_since, ?_⟩
  exact Acts.keep (fun _ _ hs hact => hact.keyed hs) hacts
    fun k m hm => hmerge.name hs hm

end RssOperator
