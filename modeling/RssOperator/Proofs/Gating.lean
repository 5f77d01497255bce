/-
When `replicate` acts at all.

# What the guards cover

The two guards in front of `replicate` compare the members that run, and
only if there is no primary the pods that are online, with the replicas
that are wanted. With a primary there, nothing looks at the number of
pods: the loops go to work on a cluster that is being scaled just as on a
complete one.

# The exact condition

`Gated` is what a gate on the number of online pods would give: off the
wanted number nothing is started, no primary is stopped, whoever has not
failed is left as it is, and the call returns an error; and never more
members run afterwards than are wanted if they were not too many before.
`Held` describes the states in which the code gives it all the same: the
number is right, a guard applies, or the one loop that has work to do
finds nobody to do it to. `gated_iff` says there are no others, whatever
the answers and orders.

The first turn of the first loop that has work to do is all the argument
looks at: what a loop has done stays on record (`mem_since_loop`), and so
does what a stage has done (`mem_since_sizing`).
-/
import RssOperator.Proofs.Detection
import RssOperator.Proofs.Sizing

namespace RssOperator

variable {env : Env} {G : Event → Prop} {s s' t : Sys} {k : String}
  {m : Member} {fuel : Nat} {e : Event}

-- ========================================================== on record

/-- A command that one of two stages has run is on record after both. -/
theorem mem_since_left {H : Event → Prop} {s₁ s₂ s₃ : Sys}
    (h₁ : Acts env G s₁ s₂) (h₂ : Acts env H s₂ s₃)
    (he : e ∈ s₁.since s₂) : e ∈ s₁.since s₃ := by
  rw [h₁.since_trans h₂]
  exact List.mem_append_right _ he

theorem mem_since_right {H : Event → Prop} {s₁ s₂ s₃ : Sys}
    (h₁ : Acts env G s₁ s₂) (h₂ : Acts env H s₂ s₃)
    (he : e ∈ s₂.since s₃) : e ∈ s₁.since s₃ := by
  rw [h₁.since_trans h₂]
  exact List.mem_append_left _ he

/-- A start is on record. -/
theorem startAppMember_entry (asPrimary : Bool)
    (hm : s.members.lookup k = some m) :
    s.entry env (s.startCall asPrimary) k m.name
      ∈ s.since (startAppMember env k asPrimary s).2 := by
  rw [startAppMember_eq asPrimary hm]
  by_cases ha : (s.startAnswer env asPrimary m).succeeds = true
  · rw [if_pos ha]
    show _ ∈ s.since (tagAppMember env k true _).2
    rw [@Sys.since_eq s _ [_, _] rfl]
    simp
  · rw [if_neg ha]
    show _ ∈ s.since (s.startFailed env k asPrimary m)
    rw [@Sys.since_eq s _ [_] rfl]
    simp

/-- So is a stop, with the members it was issued on. -/
theorem stopAppMember_entry (hm : s.members.lookup k = some m) :
    ∃ args a, .exec .stop k m.name args s.members a
      ∈ s.since (stopAppMember env k s).2 := by
  rw [stopAppMember_eq hm]
  by_cases ha : (s.stopAnswer env m).succeeds = true
  · rw [if_pos ha]
    have htrace := @Sys.since_eq s (s.stopped env k m Member.noteStopped)
      [_, _] rfl
    exact ⟨_, _, htrace.symm ▸ List.mem_cons_self⟩
  · rw [if_neg ha]
    have htrace := @Sys.since_eq s (s.stopped env k m Member.noteFailure)
      [_, _] rfl
    exact ⟨_, _, htrace.symm ▸ List.mem_cons_self⟩

/-- What the first turn of a loop has done. -/
theorem mem_since_loop {I : Sys → Prop}
    {turn : Sys × List Err → (Sys × List Err) ⊕ (Sys × List Err)}
    (hturn : TurnActs env G I turn) (hfuel : 0 < fuel) (ht : I t)
    (he : e ∈ t.since (Sum.elim Prod.fst Prod.fst (turn (t, [])))) :
    e ∈ t.since (loopStage turn fuel [] t).state := by
  obtain ⟨n, rfl⟩ : ∃ n, fuel = n + 1 := ⟨fuel - 1, by omega⟩
  have hone := hturn (t, []) ht
  rw [state_loopStage]
  cases hb : turn (t, []) with
  | inl st =>
      rw [hb] at hone he
      rw [loop_of_next hb]
      exact mem_since_left hone.1 (loop_acts hturn n st.2 hone.2) he
  | inr st =>
      rw [hb] at he
      rw [loop_of_end hb]
      exact he

/-- What the first of two stages has done. -/
theorem mem_since_andThen {α β : Type} {H : Event → Prop}
    {o : Outcome Sys α} {f : α → Sys → Outcome Sys β}
    (ho : Acts env G t o.state)
    (hf : ∀ a s', Acts env H s' (f a s').state)
    (he : e ∈ t.since o.state) : e ∈ t.since (o.andThen f).state := by
  cases o with
  | ret a s' => exact mem_since_left ho (hf a s') he
  | panicked s' => exact he
  | looping s' => exact he

theorem ReachesSizing.acts (h : ReachesSizing env s t) :
    Acts env (fun _ => True) s t := by
  obtain ⟨-, -, s₁, hdetect, hseed⟩ := h
  have h₁ := (@detectStage_acts env s).1
  have h₂ := @seedStage_acts env s₁
  rw [hdetect] at h₁
  rw [hseed] at h₂
  exact (h₁.mono fun _ _ => trivial).trans (h₂.mono fun _ _ => trivial)

theorem ReachesSizing.replicateBody_eq (h : ReachesSizing env s t)
    (fuel : Nat) :
    replicateBody env fuel s
      = sizeStages env fuel s.spec.getNumReplicas s.spec.getNumPrimaries
          t := by
  obtain ⟨hfits, hgate, s₁, hdetect, hseed⟩ := h
  unfold replicateBody replicateStages
  dsimp only
  rw [if_neg (by omega), if_neg (fun hand => hand.2 (hgate hand.1)),
    hdetect, Outcome.ret_andThen, hseed]

/-- What the loops have done. -/
theorem mem_since_sizing (h : ReachesSizing env s t)
    (he : e ∈ t.since (sizeStages env fuel s.spec.getNumReplicas
      s.spec.getNumPrimaries t).state) :
    e ∈ s.since (replicate env fuel s).state := by
  have hsome : t.members.appPrimaries ≠ 0 := by
    obtain ⟨-, -, s₁, -, hseed⟩ := h
    exact seedStage_none hseed
  have hacts := @sizeStages_acts env t fuel s.spec.getNumReplicas
    s.spec.getNumPrimaries hsome
  have hend : ∀ errors s', Acts env (fun _ => True) s'
      (Outcome.ret errors (updateCRStatus env "replicate" s').2 :
        Outcome Sys (List Err)).state :=
    fun errors s' => Acts.quiet (Quiet.updateCRStatus _ _)
  unfold replicate
  rw [h.replicateBody_eq]
  exact mem_since_right h.acts
    (Acts.andThen (hacts.mono fun _ _ => trivial) fun a s' _ => hend a s')
    (mem_since_andThen hacts hend he)

-- ======================================================== first turns

/-- A start, as a primary or not. -/
def Event.startsAs (asPrimary : Bool) : Event → Bool
  | .exec (.start _ b) .. => b == asPrimary
  | _ => false

theorem Event.startsAs_iff {b : Bool} :
    e.startsAs b = true ↔ ∃ key k pod args peers a,
      e = .exec (.start key b) k pod args peers a := by
  constructor
  · intro h
    unfold startsAs at h
    split at h
    · rw [← beq_iff_eq.mp h]
      exact ⟨_, _, _, _, _, _, rfl⟩
    · cases h
  · intro hex
    obtain ⟨key, k, pod, args, peers, a, rfl⟩ := hex
    exact beq_self_eq_true b

theorem seedStage_skipped (hsome : s.members.appPrimaries ≠ 0) :
    seedStage env s = (none, s) := by
  unfold seedStage
  rw [if_neg hsome]

section FirstTurns

variable {replicas primaries : Int}

/-- A promotion loop with work to do and a candidate starts one. -/
theorem promotion_starts (hfuel : 0 < fuel)
    (hsome : t.members.appPrimaries ≠ 0)
    (hlt : t.members.appPrimaries < primaries)
    (hm : t.members.lookup k = some m) (hel : m.eligible = true) :
    ∃ e ∈ t.since (sizeStages env fuel replicas primaries t).state,
      e.startsAs true = true := by
  have hpeers := Sys.peers_of_lookup hm
  obtain ⟨x, hx⟩ := chooseMember_of_eligible (t.order env) hm hel
  rw [← hpeers] at hx
  obtain ⟨hxm, -⟩ := lookup_of_chooseMember hx
  have hxm' : (t.ranged 1).members.lookup x.1 = some x.2 := hxm
  have hmem := @startAppMember_entry env (t.ranged 1) x.1 x.2 true hxm'
  have hturn : Sum.elim Prod.fst Prod.fst (promoteTurn env primaries (t, []))
      = (startAppMember env x.1 true (t.ranged 1)).2 := by
    unfold promoteTurn
    dsimp only
    rw [if_pos hlt, hx]
    dsimp only
    split
    · rfl
    · rfl
  refine ⟨(t.ranged 1).entry env ((t.ranged 1).startCall true) x.1 x.2.name,
    mem_since_andThen
      (loopStage_acts (promoteTurn_acts primaries) fuel [] hsome)
      (fun errors s' => demoteStage_acts fuel replicas primaries errors s')
      (mem_since_loop (promoteTurn_acts primaries) hfuel hsome ?_), rfl⟩
  rw [hturn]
  exact hmem

/-- A demotion loop with work to do stops somebody who has not failed. -/
theorem demotion_stops (hfuel : 0 < fuel)
    (hlt : primaries < t.members.appPrimaries)
    (hm : t.members.lookup k = some m) (hst : m.stoppable = true) :
    ∃ k' m' args peers a, .exec .stop k' m'.name args peers a
        ∈ t.since ((loopStage (demoteTurn env primaries) fuel [] t).andThen
          fun errors s =>
            (loopStage (secondaryTurn env replicas) fuel errors s).andThen
              (finishStage env)).state
      ∧ peers.lookup k' = some m' ∧ m'.stoppable = true := by
  have hpeers := Sys.peers_of_lookup hm
  cases hx : chooseCurrentPrimary t.c.peers (t.order env) with
  | error err =>
      rw [hpeers] at hx
      have hno := chooseCurrentPrimary_error hx hm
      rw [hst] at hno
      cases hno
  | ok x =>
      obtain ⟨hxm, hxst⟩ := lookup_of_chooseCurrentPrimary hx
      have hxm' : (t.ranged 1).members.lookup x.1 = some x.2 := hxm
      obtain ⟨args, a, hmem⟩ :=
        @stopAppMember_entry env (t.ranged 1) x.1 x.2 hxm'
      refine ⟨x.1, x.2, args, _, a, mem_since_andThen
        (loopStage_acts (demoteTurn_acts primaries) fuel [] trivial)
        (fun errors s' => addStage_acts fuel replicas errors s')
        (mem_since_loop (demoteTurn_acts primaries) hfuel trivial ?_),
        hxm, hxst⟩
      have hturn : Sum.elim Prod.fst Prod.fst
          (demoteTurn env primaries (t, []))
          = (stopAppMember env x.1 (t.ranged 1)).2 := by
        unfold demoteTurn
        dsimp only
        rw [if_pos hlt, hx]
        rfl
      rw [hturn]
      exact hmem

/-- A last loop with work to do and a candidate starts one. -/
theorem addition_starts (hfuel : 0 < fuel)
    (hlt : t.members.appMembers < replicas)
    (hm : t.members.lookup k = some m) (hel : m.eligible = true) :
    ∃ e ∈ t.since ((loopStage (secondaryTurn env replicas) fuel [] t).andThen
      (finishStage env)).state, e.startsAs false = true := by
  have hpeers := Sys.peers_of_lookup hm
  obtain ⟨x, hx⟩ := chooseMember_of_eligible (t.order env) hm hel
  rw [← hpeers] at hx
  obtain ⟨hxm, -⟩ := lookup_of_chooseMember hx
  have hxm' : (t.ranged 1).members.lookup x.1 = some x.2 := hxm
  have hmem := @startAppMember_entry env (t.ranged 1) x.1 x.2 false hxm'
  have hturn : Sum.elim Prod.fst Prod.fst
      (secondaryTurn env replicas (t, []))
      = (startAppMember env x.1 false (t.ranged 1)).2 := by
    unfold secondaryTurn
    dsimp only
    rw [if_pos hlt, hx]
    rfl
  refine ⟨(t.ranged 1).entry env ((t.ranged 1).startCall false) x.1 x.2.name,
    mem_since_andThen
      (loopStage_acts (secondaryTurn_acts replicas) fuel [] trivial)
      (fun errors s' => finishStage_acts errors s')
      (mem_since_loop (secondaryTurn_acts replicas) hfuel trivial ?_), rfl⟩
  rw [hturn]
  exact hmem

end FirstTurns

-- ============================================================= counts

/-- What no step of a stage gives to a member is not more common after
it. -/
theorem Acts.count_le {p : Member → Bool}
    (hcmd : ∀ spec call k pod args peers a m m',
      G (.exec call k pod args peers a) → Effect spec a m call m' →
      p m' = true → p m = true)
    (hseq : ∀ (m : Member) n, p { m with seq := n } = p m)
    (hoff : ∀ m : Member, p m.offline = true → p m = true)
    (h : Acts env G s s') :
    GoMap.count p s'.members ≤ GoMap.count p s.members := by
  have hwrite : ∀ {ms : MemberSet} {k : String} {m : Member}
      {f : Member → Member}, ms.lookup k = some m →
      (p (f m) = true → p m = true) →
      GoMap.count p (ms.modify k f) ≤ GoMap.count p ms := by
    intro ms k m f hm hp
    have hcount := GoMap.count_modify (p := p) f hm
    cases hnew : p (f m) with
    | false => rw [hnew] at hcount; simp at hcount; omega
    | true => rw [hnew, hp hnew] at hcount; omega
  refine h.keep (I := fun s' => GoMap.count p s'.members
    ≤ GoMap.count p s.members) ?_ le_rfl
  intro s₁ s₂ hle hact
  refine le_trans ?_ hle
  cases hact with
  | quiet hq => rw [hq.members]
  | command hm heff hpeers _ hG =>
      rw [Sys.members_of_peers hpeers]
      exact hwrite hm (hcmd _ _ _ _ _ _ _ _ _ hG heff)
  | detect f _ _ hf hpeers _ _ =>
      rw [Sys.members_of_peers hpeers]
      refine le_of_eq (GoMap.count_modify_eq _ ?_ _)
      intro m
      obtain ⟨n, hn⟩ := hf m
      rw [hn, hseq]
  | delete ok hm _ _ hpeers _ _ =>
      rw [Sys.members_of_peers hpeers]
      refine hwrite hm ?_
      cases ok with
      | true => exact hoff _
      | false => exact id

/-- Nobody comes online. -/
theorem Acts.active_le (h : Acts env G s s') :
    s'.members.activeMembers ≤ s.members.activeMembers := by
  refine Int.ofNat_le.mpr (h.count_le ?_ (fun _ _ => rfl) ?_)
  · intro spec call k pod args peers a m m' _ heff hon
    rw [← heff.online]
    exact hon
  · intro m hon
    cases hon

/-- Cleaning up starts nobody. -/
theorem Acts.running_le (h : Acts env Event.onFailed s s') :
    s'.members.appMembers ≤ s.members.appMembers := by
  refine Int.ofNat_le.mpr (h.count_le ?_ (fun _ _ => rfl) ?_)
  · intro spec call k pod args peers a m m' hG heff hrun
    obtain ⟨rfl, -⟩ := hG
    cases heff with
    | stopFailed => exact hrun
    | stopped => simp [Member.isRunning, Member.noteStopped] at hrun
  · intro m hrun
    cases hrun

/-- What detection leaves alone. -/
theorem detected_count {p : Member → Bool}
    (hp : ∀ (m : Member) n, p { m with seq := n } = p m)
    (h : detectStage env s = .ret () t) :
    GoMap.count p t.members = GoMap.count p s.members := by
  have hreread := @detectStage_rereads env s
  rw [h] at hreread
  exact steps_eq (fun _ _ hr => hr.count hp) hreread

-- ======================================================== nobody there

theorem loopStage_skipped
    {turn : Sys × List Err → (Sys × List Err) ⊕ (Sys × List Err)}
    {errors : List Err} (hne : errors ≠ []) :
    loopStage turn fuel errors t = .ret errors t := by
  unfold loopStage
  rw [if_neg hne]

/-- Without a candidate there is nobody to choose. -/
theorem chooseMember_none
    (h : ∀ k m, t.members.lookup k = some m → m.eligible = false)
    (o : Order String) : ∃ err, chooseMember t.c.peers o = .error err := by
  cases hx : chooseMember t.c.peers o with
  | error err => exact ⟨err, rfl⟩
  | ok x =>
      obtain ⟨hm, hel⟩ := lookup_of_chooseMember hx
      rw [h _ _ hm] at hel
      cases hel

theorem chooseCurrentPrimary_none
    (h : ∀ k m, t.members.lookup k = some m → m.stoppable = false)
    (o : Order String) :
    ∃ err, chooseCurrentPrimary t.c.peers o = .error err := by
  cases hx : chooseCurrentPrimary t.c.peers o with
  | error err => exact ⟨err, rfl⟩
  | ok x =>
      obtain ⟨hm, hst⟩ := lookup_of_chooseCurrentPrimary hx
      rw [h _ _ hm] at hst
      cases hst

/-- The loop that has work to do finds nobody to do it to. -/
def Idle (replicas primaries : Int) (ms : MemberSet) : Prop :=
  (ms.appPrimaries < primaries
      ∨ ms.appPrimaries = primaries ∧ ms.appMembers < replicas)
    ∧ (∀ k m, ms.lookup k = some m → m.eligible = false)
  ∨ primaries < ms.appPrimaries
    ∧ ∀ k m, ms.lookup k = some m → m.stoppable = false

section Idle

variable {replicas primaries : Int}

theorem secondaryTurn_none {err : Err}
    (hlt : t.members.appMembers < replicas)
    (herr : chooseMember t.c.peers (t.order env) = .error err) :
    secondaryTurn env replicas (t, [])
      = .inr (t.ranged 1, appendNonNil [] (some err)) := by
  unfold secondaryTurn
  dsimp only
  rw [if_pos hlt, herr]

/-- With enough primaries there is nothing to promote. -/
theorem sizeStages_enough (hfuel : 0 < fuel)
    (h : primaries ≤ t.members.appPrimaries) :
    sizeStages env fuel replicas primaries t
      = (loopStage (demoteTurn env primaries) fuel [] t).andThen
          fun errors s =>
            (loopStage (secondaryTurn env replicas) fuel errors s).andThen
              (finishStage env) := by
  unfold sizeStages
  rw [loopStage_done hfuel (promoteTurn_done h), Outcome.ret_andThen]

/-- With as many as are wanted there is nothing to demote either. -/
theorem sizeStages_exact (hfuel : 0 < fuel)
    (h : t.members.appPrimaries = primaries) :
    sizeStages env fuel replicas primaries t
      = (loopStage (secondaryTurn env replicas) fuel [] t).andThen
          (finishStage env) := by
  rw [sizeStages_enough hfuel (by omega),
    loopStage_done hfuel (demoteTurn_done (by omega) []),
    Outcome.ret_andThen]

/-- Such a call goes from its first error straight to the end. -/
theorem sizeStages_idle (hfuel : 0 < fuel)
    (h : Idle replicas primaries t.members) :
    ∃ errors, errors ≠ []
      ∧ sizeStages env fuel replicas primaries t
        = finishStage env errors (t.ranged 1) := by
  rcases h with ⟨hwork, hnone⟩ | ⟨hlt, hnone⟩
  · obtain ⟨err, herr⟩ := chooseMember_none hnone (t.order env)
    have hne : appendNonNil [] (some err) ≠ [] :=
      appendNonNil_ne_nil (chooseMember_text herr)
    refine ⟨_, hne, ?_⟩
    rcases hwork with hlt | ⟨heq, hlt⟩
    · have hturn : promoteTurn env primaries (t, [])
          = .inr (t.ranged 1, appendNonNil [] (some err)) := by
        unfold promoteTurn
        dsimp only
        rw [if_pos hlt, herr]
      unfold sizeStages
      rw [loopStage_done hfuel hturn, Outcome.ret_andThen,
        loopStage_skipped hne, Outcome.ret_andThen, loopStage_skipped hne,
        Outcome.ret_andThen]
    · rw [sizeStages_exact hfuel heq,
        loopStage_done hfuel (secondaryTurn_none hlt herr),
        Outcome.ret_andThen]
  · obtain ⟨err, herr⟩ := chooseCurrentPrimary_none hnone (t.order env)
    have hne : appendNonNil [] (some err) ≠ [] :=
      appendNonNil_ne_nil (chooseCurrentPrimary_text herr)
    have hturn : demoteTurn env primaries (t, [])
        = .inr (t.ranged 1, appendNonNil [] (some err)) := by
      unfold demoteTurn
      dsimp only
      rw [if_pos hlt, herr]
    refine ⟨_, hne, ?_⟩
    rw [sizeStages_enough hfuel (by omega), loopStage_done hfuel hturn,
      Outcome.ret_andThen, loopStage_skipped hne, Outcome.ret_andThen]

end Idle

-- ============================================================ the gate

/-- A start, or a stop of a member that has not failed. -/
def Event.resizes : Event → Bool
  | .exec (.start ..) .. => true
  | .exec .stop k _ _ peers _ => (peers.lookup k).any fun m => !m.appFailed
  | _ => false

theorem Event.resizes_of_startsAs {b : Bool} (h : e.startsAs b = true) :
    e.resizes = true := by
  obtain ⟨key, k, pod, args, peers, a, rfl⟩ := startsAs_iff.mp h
  rfl

theorem Event.not_resizes_of_quiet (h : e.quiet = true) :
    e.resizes = false := by
  cases e with
  | exec => cases h
  | delete => cases h
  | tag => rfl
  | update => rfl
  | get => rfl

theorem Event.not_resizes_of_onFailed (h : e.onFailed) :
    e.resizes = false := by
  cases e with
  | exec call k pod args peers a =>
      obtain ⟨rfl, m, hm, hfailed⟩ := h
      simp [resizes, hm, hfailed]
  | delete => rfl
  | tag => rfl
  | update => rfl
  | get => rfl

theorem Event.not_resizes_of_detection {n : Int} (h : e.detection n) :
    e.resizes = false := by
  cases e with
  | exec call k pod args peers a =>
      obtain ⟨rfl, -⟩ := h
      rfl
  | delete => rfl
  | tag => rfl
  | update => rfl
  | get => rfl

/-- `replicate` behaves as if it were gated by the number of online pods.
A sequence number is a reading, and is taken anew at any time. -/
structure Gated (env : Env) (fuel : Nat) (s : Sys) : Prop where
  waits : s.members.activeMembers ≠ s.spec.getNumReplicas →
    ∀ e ∈ s.since (replicate env fuel s).state, e.resizes = false
  refuses : s.members.activeMembers ≠ s.spec.getNumReplicas →
    ∃ errors s', replicate env fuel s = .ret errors s' ∧ errors ≠ []
      ∧ ∀ k m, s.members.lookup k = some m → m.appFailed = false →
        ∃ n, s'.members.lookup k = some { m with seq := n }
  bounded : s.members.appMembers ≤ s.spec.getNumReplicas →
    (replicate env fuel s).state.members.appMembers ≤ s.spec.getNumReplicas

/-- The number of pods is right, or one of the guards applies, or the
loop that has work to do finds nobody. -/
def Held (s : Sys) : Prop :=
  s.members.activeMembers = s.spec.getNumReplicas
    ∨ s.spec.getNumReplicas < s.members.appMembers
    ∨ s.members.appPrimaries = 0
    ∨ Idle s.spec.getNumReplicas s.spec.getNumPrimaries s.members

/-- As many pods as are wanted: never more members than pods. -/
theorem gated_of_active (env : Env) (fuel : Nat)
    (h : s.members.activeMembers = s.spec.getNumReplicas) :
    Gated env fuel s := by
  refine ⟨fun hne => absurd h hne, fun hne => absurd h hne, fun _ => ?_⟩
  have hmembers :=
    (replicate env fuel s).state.members.appMembers_le_active
  have hactive := (@replicate_acts env fuel s).active_le
  omega

/-- A guard applies: nothing happens but the status update. -/
theorem gated_of_guard (env : Env) {err : Err}
    (h : replicateBody env fuel s = .ret [err] s) : Gated env fuel s := by
  have hret : replicate env fuel s
      = .ret [err] (updateCRStatus env "replicate" s).2 := by
    unfold replicate
    rw [h, Outcome.ret_andThen]
  have hquiet := @Quiet.updateCRStatus env "replicate" s
  refine ⟨fun _ e he => ?_, fun _ => ?_, fun hle => ?_⟩
  · obtain ⟨es, hes, hq⟩ := hquiet.trace
    rw [hret, Outcome.state_ret, Sys.since_eq hes] at he
    exact Event.not_resizes_of_quiet (hq e he)
  · refine ⟨_, _, hret, by simp, fun k m hm _ => ⟨m.seq, ?_⟩⟩
    rw [hquiet.members]
    exact hm
  · rw [hret, Outcome.state_ret, hquiet.members]
    exact hle

theorem idle_iff {replicas primaries : Int} {ms : MemberSet} :
    Idle replicas primaries ms
      ↔ (ms.appPrimaries < primaries
            ∨ ms.appPrimaries = primaries ∧ ms.appMembers < replicas)
          ∧ GoMap.count Member.eligible ms = 0
        ∨ primaries < ms.appPrimaries
          ∧ GoMap.count Member.stoppable ms = 0 := by
  unfold Idle
  rw [GoMap.count_eq_zero_iff, GoMap.count_eq_zero_iff]

theorem idle_detected {replicas primaries : Int}
    (hdetect : detectStage env s = .ret () t) :
    Idle replicas primaries t.members
      ↔ Idle replicas primaries s.members := by
  have hcount : ∀ p : Member → Bool,
      (∀ (m : Member) n, p { m with seq := n } = p m) →
      GoMap.count p t.members = GoMap.count p s.members :=
    fun p hp => detected_count hp hdetect
  rw [idle_iff, idle_iff]
  unfold MemberSet.appPrimaries MemberSet.appMembers
  rw [hcount _ fun _ _ => rfl, hcount _ fun _ _ => rfl,
    hcount _ fun _ _ => rfl, hcount _ fun _ _ => rfl]

/-- Detection changes a sequence number at most. -/
theorem lookup_detectStage (hdetect : detectStage env s = .ret () t)
    (hm : s.members.lookup k = some m) :
    ∃ n, t.members.lookup k = some { m with seq := n } := by
  have hreread := @detectStage_rereads env s
  rw [hdetect] at hreread
  refine steps_keep (I := fun ms => ∃ n, ms.lookup k
    = some { m with seq := n }) ?_ hreread ⟨m.seq, hm⟩
  intro ms ms' hstep hms
  obtain ⟨k', n', rfl⟩ := hstep
  obtain ⟨n, hn⟩ := hms
  rw [GoMap.lookup_modify, hn]
  by_cases hk : k = k'
  · rw [if_pos hk]
    exact ⟨n', rfl⟩
  · rw [if_neg hk]
    exact ⟨n, rfl⟩

/-- Nobody to start or to stop: the call cleans up and returns its
error. -/
theorem gated_of_idle (env : Env) (hfuel : 0 < fuel)
    (hs : s.members.WellKeyed)
    (hfits : s.members.appMembers ≤ s.spec.getNumReplicas)
    (hsome : s.members.appPrimaries ≠ 0)
    (hidle : Idle s.spec.getNumReplicas s.spec.getNumPrimaries s.members) :
    Gated env fuel s := by
  obtain ⟨t, hdetect⟩ := detectStage_returns env hs
  have hcount : t.members.appPrimaries = s.members.appPrimaries :=
    congrArg Nat.cast (detected_count (fun _ _ => rfl) hdetect)
  have hreach : ReachesSizing env s t :=
    ⟨hfits, fun hzero => absurd hzero hsome, t, hdetect,
      seedStage_skipped (by rw [hcount]; exact hsome)⟩
  obtain ⟨errors, hne, hsize⟩ :=
    @sizeStages_idle env t fuel _ _ hfuel ((idle_detected hdetect).mpr hidle)
  obtain ⟨errors', hne', hfinish⟩ := @finishStage_failed env (t.ranged 1) _ hne
  have hret : replicate env fuel s = .ret errors' (updateCRStatus env
      "replicate" (recover env (t.ranged 1)).2).2 := by
    unfold replicate
    rw [hreach.replicateBody_eq, hsize, hfinish, Outcome.ret_andThen]
  have hupdate := @Quiet.updateCRStatus env "replicate"
    (recover env (t.ranged 1)).2
  have hdacts := (@detectStage_acts env s).1
  rw [hdetect] at hdacts
  have hrecover := @recover_onFailed env (t.ranged 1)
  refine ⟨fun _ e he => ?_, fun _ => ?_, fun _ => ?_⟩
  · have hacts : Acts env (fun e => e.resizes = false) s
        (updateCRStatus env "replicate" (recover env (t.ranged 1)).2).2 :=
      ((hdacts.mono fun _ h => Event.not_resizes_of_detection h).trans
        (Acts.quiet (Quiet.ranged 1 t))).trans
        ((hrecover.mono fun _ h => Event.not_resizes_of_onFailed h).trans
          (Acts.quiet hupdate))
    rw [hret] at he
    rcases hacts.mem_since e he with hquiet | hG
    · exact Event.not_resizes_of_quiet hquiet
    · exact hG
  · refine ⟨_, _, hret, hne', fun k m hm hfine => ?_⟩
    obtain ⟨n, hn⟩ := lookup_detectStage hdetect hm
    have hn' : (t.ranged 1).members.lookup k = some { m with seq := n } := hn
    refine ⟨n, ?_⟩
    rw [hupdate.members, lookup_recover hn']
    exact congrArg some (Member.recoveredIn_of_healthy _ hfine)
  · have hle := hrecover.running_le
    have hmembers : t.members.appMembers = s.members.appMembers :=
      congrArg Nat.cast (detected_count (fun _ _ => rfl) hdetect)
    have hmembers' : (t.ranged 1).members.appMembers
        = s.members.appMembers := hmembers
    rw [hret, Outcome.state_ret, hupdate.members]
    omega

/-- The guards and the rest: every state that is held is gated. -/
theorem gated_of_held (env : Env) (hfuel : 0 < fuel)
    (hs : s.members.WellKeyed) (h : Held s) : Gated env fuel s := by
  by_cases hactive : s.members.activeMembers = s.spec.getNumReplicas
  · exact gated_of_active env fuel hactive
  by_cases hfits : s.spec.getNumReplicas < s.members.appMembers
  · apply gated_of_guard env
    unfold replicateBody
    dsimp only
    rw [if_pos hfits]
  by_cases hsome : s.members.appPrimaries = 0
  · apply gated_of_guard env
    unfold replicateBody
    dsimp only
    rw [if_neg hfits, if_pos ⟨hsome, hactive⟩]
  rcases h with h | h | h | h
  · exact absurd h hactive
  · exact absurd h hfits
  · exact absurd h hsome
  · exact gated_of_idle env hfuel hs (by omega) hsome h

/-- A primary runs. -/
theorem MemberSet.appPrimaries_le_appMembers (ms : MemberSet) :
    ms.appPrimaries ≤ ms.appMembers := by
  unfold appPrimaries appMembers
  refine Int.ofNat_le.mpr (List.countP_mono_left ?_)
  intro e _ h
  obtain ⟨hon, -, hrun⟩ := Member.isPrimary_iff.mp h
  exact Member.isRunning_iff.mpr ⟨hon, hrun⟩

/-- A call with work to do, and somebody to do it to, does some. -/
theorem sizing_resizes {replicas primaries : Int} (hfuel : 0 < fuel)
    (hsome : t.members.appPrimaries ≠ 0)
    (hidle : ¬ Idle replicas primaries t.members)
    (hwork : t.members.appPrimaries = primaries →
      t.members.appMembers < replicas) :
    ∃ e ∈ t.since (sizeStages env fuel replicas primaries t).state,
      e.resizes = true := by
  simp only [idle_iff, not_or, not_and] at hidle
  rcases Int.lt_trichotomy t.members.appPrimaries primaries with
    hlt | heq | hgt
  · obtain ⟨k, m, hm, hel⟩ := GoMap.count_pos_iff.mp
      (Nat.pos_of_ne_zero (hidle.1 (Or.inl hlt)))
    obtain ⟨e, he, hstart⟩ := promotion_starts hfuel hsome hlt hm hel
    exact ⟨e, he, Event.resizes_of_startsAs hstart⟩
  · obtain ⟨k, m, hm, hel⟩ := GoMap.count_pos_iff.mp
      (Nat.pos_of_ne_zero (hidle.1 (Or.inr ⟨heq, hwork heq⟩)))
    obtain ⟨e, he, hstart⟩ := @addition_starts env t k m fuel replicas hfuel
      (hwork heq) hm hel
    rw [sizeStages_exact hfuel heq]
    exact ⟨e, he, Event.resizes_of_startsAs hstart⟩
  · obtain ⟨k, m, hm, hst⟩ := GoMap.count_pos_iff.mp
      (Nat.pos_of_ne_zero (hidle.2 hgt))
    obtain ⟨k', m', args, peers, a, he, hm', hst'⟩ :=
      @demotion_stops env t k m fuel replicas primaries hfuel hgt hm hst
    rw [sizeStages_enough hfuel (by omega)]
    refine ⟨_, he, ?_⟩
    simp [Event.resizes, hm', (Member.stoppable_iff.mp hst').2]

/-- With a primary and somebody to start or to stop, or with nothing to
do at all, the number of pods makes no difference. -/
theorem not_gated (env : Env) (hfuel : 0 < fuel) (hs : s.members.WellKeyed)
    (h : ¬ Held s) : ¬ Gated env fuel s := by
  simp only [Held, not_or] at h
  obtain ⟨hactive, hfits, hsome, hidle⟩ := h
  intro hgated
  by_cases hdone : s.members.appPrimaries = s.spec.getNumPrimaries
      ∧ s.members.appMembers = s.spec.getNumReplicas
  · -- everything is as it should be but for the pods, and there is no error
    have hrun := s.members.appPrimaries_le_appMembers
    have hnat : 0 ≤ s.members.appPrimaries := Int.natCast_nonneg _
    obtain ⟨errors, s', hret, hne, -⟩ := hgated.refuses hactive
    rw [replicate_converged env hfuel (by omega) hdone.2 hdone.1
      (by omega)] at hret
    injection hret with hnil _
    exact hne hnil.symm
  · obtain ⟨t, hdetect⟩ := detectStage_returns env hs
    have hprimaries : t.members.appPrimaries = s.members.appPrimaries :=
      congrArg Nat.cast (detected_count (fun _ _ => rfl) hdetect)
    have hmembers : t.members.appMembers = s.members.appMembers :=
      congrArg Nat.cast (detected_count (fun _ _ => rfl) hdetect)
    have hsome' : t.members.appPrimaries ≠ 0 := by omega
    have hreach : ReachesSizing env s t :=
      ⟨by omega, fun hzero => absurd hzero hsome, t, hdetect,
        seedStage_skipped hsome'⟩
    obtain ⟨e, he, hresizes⟩ := @sizing_resizes env t fuel
      s.spec.getNumReplicas s.spec.getNumPrimaries hfuel hsome'
      (fun h => hidle ((idle_detected hdetect).mp h))
      (fun heq => by omega)
    have hno := hgated.waits hactive e (mem_since_sizing hreach he)
    rw [hresizes] at hno
    cases hno

/-- `replicate` is gated by the number of online pods in exactly the held
states, whatever the answers. -/
theorem gated_iff (env : Env) (fuel : Nat) (s : Sys) (hfuel : 0 < fuel)
    (hs : s.members.WellKeyed) : Gated env fuel s ↔ Held s := by
  constructor
  · intro hgated
    by_contra hheld
    exact not_gated env hfuel hs hheld hgated
  · exact gated_of_held env hfuel hs

/-- Three pods of five and no primary: the call waits. -/
theorem gated_waiting :
    Held ((Sys.start (.sized 5 1)).setPeers .threeSecondaries)
      ∧ Gated (.deciding fun _ => true) 9
        ((Sys.start (.sized 5 1)).setPeers .threeSecondaries) := by
  have hheld : Held ((Sys.start (.sized 5 1)).setPeers
      .threeSecondaries) := by
    refine Or.inr (Or.inr (Or.inl ?_))
    decide +kernel
  have hsound : MemberSet.Sound .threeSecondaries := by decide +kernel
  exact ⟨hheld, (gated_iff (.deciding fun _ => true) 9
    ((Sys.start (.sized 5 1)).setPeers .threeSecondaries) (by decide)
    hsound.keyed).mpr hheld⟩

/-- A primary, two secondaries, and a pod that is on its way out. -/
def MemberSet.oneTooMany : MemberSet :=
  MemberSet.add
    { name := "db-0", online := true, appPrimary := true, appRunning := true }
    (MemberSet.add { name := "db-1", online := true, appRunning := true }
      (MemberSet.add { name := "db-2", online := true, appRunning := true }
        (MemberSet.add { name := "db-3", online := true } ∅)))

/-- Everything works, and the fourth pod has the highest sequence
number. -/
def Env.fourthNewest : Env :=
  .answering fun _ call pod =>
    match call with
    | .sequence => .exitsZero (if pod = "db-3" then "1" else "0")
    | _ => .exitsZero ""

/-- Four pods where three are wanted: the pod to go is made a primary,
and four members run where three ran before. -/
theorem scaled_past_the_gate :
    let s := (Sys.start (.sized 3 3)).setPeers .oneTooMany
    let s' := (replicate .fourthNewest 9 s).state
    s.spec.getNumReplicas = 3 ∧ s.members.activeMembers = 4
      ∧ s.members.appMembers = 3
      ∧ (s.since s').any Event.resizes = true
      ∧ s'.members.appMembers = 4 := by
  refine ⟨by decide, by decide +kernel, by decide +kernel,
    by decide +kernel, by decide +kernel⟩

end RssOperator
