/-
Who survives a replication that fails.

# What could spill over

A start that fails marks its member, and the clean-up at the end of the
call stops or deletes whoever is marked. Nothing else in `replicate` takes
an application away, except the demotion loop, and that loop runs only
while there are more primaries than wanted. The stages before it start one
member at a time and look at the count each time, so they do not overshoot
(`seedStage_bounded`, `promoteTurn_bounded`), and the demotion loop of a
call that began with at most the wanted number finds nothing to do.

# The invariant

`Unharmed` says of two states of a call that nobody is marked, or has lost
a flag, but those whose start has failed in between. Each step keeps it,
and what a stop or a deletion finds is then a member whose start has
failed before (`HealthySurvive`).
-/
import RssOperator.Proofs.Demotion
import RssOperator.Proofs.Seeding

namespace RssOperator

variable {env : Env} {s s' t : Sys} {k : String} {m m' : Member}
  {e : Event} {es : List Event} {primaries : Int}

-- ====================================================== failed starts

/-- A start of the member under `k`, answered by an error. -/
def Event.failsStart (k : String) : Event → Bool
  | .exec (.start _ _) k' _ _ _ a => decide (k' = k) && !a.succeeds
  | _ => false

/-- A start of the member under `k` has failed. -/
def StartFailed (k : String) (es : List Event) : Prop :=
  ∃ e ∈ es, e.failsStart k = true

/-- A stop of the member under `k`, or a deletion of its pod. -/
def Event.removes (k : String) : Event → Bool
  | .exec .stop k' _ _ _ _ => decide (k' = k)
  | .delete k' _ _ => decide (k' = k)
  | _ => false

/-- The members at the time of a command or a deletion. -/
def Event.found : Event → Option MemberSet
  | .exec _ _ _ _ peers _ | .delete _ peers _ => some peers
  | _ => none

theorem startFailed_cons :
    StartFailed k (e :: es) ↔ e.failsStart k = true ∨ StartFailed k es := by
  unfold StartFailed
  simp only [List.mem_cons, exists_eq_or_imp]

theorem startFailed_quiet {q : List Event} (hq : ∀ e ∈ q, e.quiet = true) :
    StartFailed k (q ++ es) ↔ StartFailed k es := by
  constructor
  · rintro ⟨e, he, hfail⟩
    rcases List.mem_append.mp he with he | he
    · have hquiet := hq e he
      cases e with
      | exec => cases hquiet
      | delete => cases hfail
      | tag => cases hfail
      | update => cases hfail
      | get => cases hfail
    · exact ⟨e, he, hfail⟩
  · rintro ⟨e, he, hfail⟩
    exact ⟨e, List.mem_append_right _ he, hfail⟩

-- ===================================================== what is promised

/-- What a member that was there keeps. -/
structure Member.Kept (m m' : Member) : Prop where
  online : m.online = true → m'.online = true
  running : m.appRunning = true → m'.appRunning = true
  primary : m.appPrimary = true → m'.appPrimary = true

/-- Everybody but those whose start has failed is still there and keeps
the flags it had. -/
def Spared (es : List Event) (ms ms' : MemberSet) : Prop :=
  ∀ k m, ms.lookup k = some m → ¬ StartFailed k es →
    ∃ m', ms'.lookup k = some m' ∧ m.Kept m'

/-- A command or deletion, with the entries older than it: it takes the
application from nobody but those whose start has failed, and the others
are spared up to it. -/
structure Harmless (ms : MemberSet) (older : List Event) (e : Event) :
    Prop where
  removes : ∀ k, e.removes k = true → StartFailed k older
  found : ∀ ms', e.found = some ms' → Spared older ms ms'

theorem Harmless.of_quiet {ms : MemberSet} (h : e.quiet = true) :
    Harmless ms es e := by
  cases e with
  | exec => cases h
  | delete => cases h
  | tag => exact ⟨nofun, nofun⟩
  | update => exact ⟨nofun, nofun⟩
  | get => exact ⟨nofun, nofun⟩

/-- A call has harmed nobody but those whose start has failed in it, at no
point: neither where it issued a command or a deletion, nor where it has
got to. -/
structure HealthySurvive (s s' : Sys) : Prop where
  atEvents : ∀ newer e older, s.since s' = newer ++ e :: older →
    Harmless s.members older e
  atEnd : Spared (s.since s') s.members s'.members

-- ======================================================== the invariant

/-- Whoever has no failed start in `es` is not marked, and has kept its
flags. -/
structure Unharmed (es : List Event) (ms ms' : MemberSet) : Prop where
  stays : ∀ k m, ms.lookup k = some m → ∃ m', ms'.lookup k = some m'
  healthy : ∀ k m', ms'.lookup k = some m' → ¬ StartFailed k es →
    m'.appFailed = false ∧ ∃ m, ms.lookup k = some m ∧ m.Kept m'

namespace Unharmed

variable {ms ms' : MemberSet}

theorem spared (h : Unharmed es ms ms') : Spared es ms ms' := by
  intro k m hm hfine
  obtain ⟨m', hm'⟩ := h.stays k m hm
  obtain ⟨-, m₀, hm₀, hkept⟩ := h.healthy k m' hm' hfine
  obtain rfl : m = m₀ := Option.some.inj (hm.symm.trans hm₀)
  exact ⟨m', hm', hkept⟩

/-- A marked member is one whose start has failed. -/
theorem startFailed (h : Unharmed es ms ms') (hm : ms'.lookup k = some m)
    (hfailed : m.appFailed = true) : StartFailed k es := by
  by_contra hfine
  rw [(h.healthy k m hm hfine).1] at hfailed
  cases hfailed

/-- One write. What it does to the member under `k` has to be right only
if no start of `k` has failed by now. -/
theorem modify {f : Member → Member} (h : Unharmed es ms ms')
    (hk : ∀ m, ms'.lookup k = some m → ¬ StartFailed k (e :: es) →
      m.appFailed = false → (f m).appFailed = false ∧ m.Kept (f m)) :
    Unharmed (e :: es) ms (ms'.modify k f) := by
  have hmore : ∀ k, StartFailed k es → StartFailed k (e :: es) :=
    fun _ hf => startFailed_cons.mpr (Or.inr hf)
  refine ⟨?_, ?_⟩
  · intro k' m hm
    obtain ⟨m', hm'⟩ := h.stays k' m hm
    rw [GoMap.lookup_modify, hm']
    split
    · exact ⟨_, rfl⟩
    · exact ⟨_, rfl⟩
  · intro k' m' hm' hfine
    rcases GoMap.lookup_modify_some hm' with ⟨rfl, m, hm, rfl⟩ | hm
    · obtain ⟨hfailed, m₀, hm₀, hkept⟩ :=
        h.healthy k' m hm fun hf => hfine (hmore k' hf)
      obtain ⟨hfailed', hstep⟩ := hk m hm hfine hfailed
      exact ⟨hfailed', m₀, hm₀, fun ho => hstep.online (hkept.online ho),
        fun hr => hstep.running (hkept.running hr),
        fun hp => hstep.primary (hkept.primary hp)⟩
    · exact h.healthy k' m' hm fun hf => hfine (hmore k' hf)

end Unharmed

/-- What a call that does not demote issues: starts, questions, and stops
of marked members. -/
def Event.sparing : Event → Prop
  | .exec (.start _ _) _ _ _ _ _ | .exec .sequence _ _ _ _ _ => True
  | .exec .stop k _ _ peers _ =>
      ∃ m, peers.lookup k = some m ∧ m.appFailed = true
  | .delete .. => True
  | _ => False

/-- The state of the induction: the entries since `s`, with what is
promised of each, and the invariant for the members. -/
structure Sparing (s t : Sys) (es : List Event) : Prop where
  trace : t.trace = es ++ s.trace
  atEvents : ∀ newer e older, es = newer ++ e :: older →
    Harmless s.members older e
  unharmed : Unharmed es s.members t.members

namespace Sparing

theorem survive (h : Sparing s t es) : HealthySurvive s t := by
  have hsince : s.since t = es := Sys.since_eq h.trace
  refine ⟨?_, ?_⟩
  · rw [hsince]
    exact h.atEvents
  · rw [hsince]
    exact h.unharmed.spared

theorem quiet (h : Sparing s t es) {q : List Event}
    (hq : ∀ e ∈ q, e.quiet = true) (htrace : s'.trace = q ++ t.trace)
    (hmembers : s'.members = t.members) : Sparing s s' (q ++ es) := by
  refine ⟨by rw [htrace, h.trace, List.append_assoc], ?_, ?_⟩
  · intro newer e older hsplit
    rcases List.append_eq_append_iff.mp hsplit with
      ⟨mid, -, hes⟩ | ⟨mid, hqs, hrest⟩
    · exact h.atEvents mid e older hes
    · cases mid with
      | nil => exact h.atEvents [] e older hrest.symm
      | cons x mid =>
          injection hrest with hx
          subst hx
          exact .of_quiet (hq e (by rw [hqs]; simp))
  · rw [hmembers]
    refine ⟨h.unharmed.stays, fun k m' hm' hfine => ?_⟩
    exact h.unharmed.healthy k m' hm' fun hf =>
      hfine ((startFailed_quiet hq).mpr hf)

/-- One entry about a member, and the write that follows it. -/
theorem cons (h : Sparing s t es) (htrace : s'.trace = e :: t.trace)
    (hrem : ∀ k, e.removes k = true → StartFailed k es)
    (hfound : e.found = some t.members)
    (hunharmed : Unharmed (e :: es) s.members s'.members) :
    Sparing s s' (e :: es) := by
  refine ⟨by rw [htrace, h.trace]; rfl, ?_, hunharmed⟩
  intro newer x older hsplit
  cases newer with
  | nil =>
      injection hsplit with hhead htail
      subst hhead htail
      refine ⟨hrem, fun ms hms => ?_⟩
      obtain rfl := Option.some.inj (hfound.symm.trans hms)
      exact h.unharmed.spared
  | cons y newer =>
      injection hsplit with _ htail
      exact h.atEvents newer x older htail

end Sparing

/-- A command of such a call does no harm to a member that is not marked,
unless it is a start that fails. -/
theorem Effect.spares {spec : ClusterSpec} {call : Call} {pod : String}
    {args : List String} {peers : MemberSet} {a : ExecAnswer}
    (heff : Effect spec a m call m') (hm : peers.lookup k = some m)
    (hG : Event.sparing (.exec call k pod args peers a))
    (hfine : ¬ StartFailed k (.exec call k pod args peers a :: es))
    (hhealthy : m.appFailed = false) :
    m'.appFailed = false ∧ m.Kept m' := by
  have hstop : call ≠ .stop := by
    rintro rfl
    obtain ⟨m₀, hm₀, hfailed⟩ := hG
    obtain rfl : m = m₀ := Option.some.inj (hm.symm.trans hm₀)
    rw [hhealthy] at hfailed
    cases hfailed
  cases heff with
  | startFailed hel ha =>
      refine absurd (startFailed_cons.mpr (Or.inl ?_)) hfine
      simp [Event.failsStart, ha]
  | started hel ha =>
      -- a candidate is no primary, so nothing is taken from it
      obtain ⟨hon, -, hprimary⟩ := Member.eligible_iff.mp hel
      refine ⟨rfl, fun _ => hon, fun _ => rfl, fun hp => ?_⟩
      rw [hprimary] at hp
      cases hp
  | stopFailed => exact absurd rfl hstop
  | stopped => exact absurd rfl hstop
  | checked => exact absurd hG id

/-- Whom it removes is marked. -/
theorem Event.sparing.removes {call : Call} {k' pod : String}
    {args : List String} {peers : MemberSet} {a : ExecAnswer}
    (hG : Event.sparing (.exec call k pod args peers a))
    (hrem : Event.removes k' (.exec call k pod args peers a) = true) :
    ∃ m, peers.lookup k' = some m ∧ m.appFailed = true := by
  cases call with
  | stop =>
      obtain rfl : k = k' := of_decide_eq_true hrem
      exact hG
  | start => cases hrem
  | status => cases hrem
  | sequence => cases hrem

/-- No step within `Event.sparing` harms anybody whose start has not
failed. -/
theorem Act.sparing (hact : Act env Event.sparing t s')
    (h : Sparing s t es) : ∃ es', Sparing s s' es' := by
  cases hact with
  | quiet hq =>
      obtain ⟨q, htrace, hall⟩ := hq.trace
      exact ⟨q ++ es, h.quiet hall htrace hq.members⟩
  | @command call k m m' args hm heff hpeers htrace hG =>
      refine ⟨_, h.cons htrace ?_ rfl ?_⟩
      · intro k' hrem
        obtain ⟨m₀, hm₀, hfailed⟩ := hG.removes hrem
        exact h.unharmed.startFailed hm₀ hfailed
      · rw [Sys.members_of_peers hpeers]
        refine h.unharmed.modify ?_
        intro m₁ hm₁ hfine hhealthy
        obtain rfl : m = m₁ := Option.some.inj (hm.symm.trans hm₁)
        exact heff.spares hm hG hfine hhealthy
  | @detect k m args f hm hon hf hpeers htrace hG =>
      refine ⟨_, h.cons htrace nofun rfl ?_⟩
      rw [Sys.members_of_peers hpeers]
      refine h.unharmed.modify ?_
      intro m₁ _ _ hhealthy
      obtain ⟨n, hn⟩ := hf m₁
      rw [hn]
      exact ⟨hhealthy, id, id, id⟩
  | @delete k m ok hm hfailed hcause hpeers htrace hG =>
      have hstart := h.unharmed.startFailed hm hfailed
      refine ⟨_, h.cons htrace ?_ rfl ?_⟩
      · intro k' hrem
        obtain rfl : k = k' := of_decide_eq_true hrem
        exact hstart
      · rw [Sys.members_of_peers hpeers]
        refine h.unharmed.modify ?_
        intro _ _ hfine _
        exact absurd (startFailed_cons.mpr (Or.inr hstart)) hfine

/-- A sequence of such steps, from a state in which nobody is marked. -/
theorem Acts.survive (h : Acts env Event.sparing s s')
    (hs : ∀ k m, s.members.lookup k = some m → m.appFailed = false) :
    HealthySurvive s s' := by
  have hstart : Sparing s s [] := by
    refine ⟨rfl, fun newer e older hsplit => ?_, ?_⟩
    · cases newer with
      | nil => cases hsplit
      | cons x newer => cases hsplit
    · exact ⟨fun k m hm => ⟨m, hm⟩,
        fun k m hm _ => ⟨hs k m hm, m, hm, id, id, id⟩⟩
  obtain ⟨es, hes⟩ := Acts.keep (I := fun t => ∃ es, Sparing s t es)
    (fun _ _ ⟨_, hi⟩ hact => hact.sparing hi) h ⟨[], hstart⟩
  exact hes.survive

-- ============================================ the number of primaries

/-- A start adds at most one primary. -/
theorem startAppMember_primaries_le (k : String) (asPrimary : Bool)
    (s : Sys) :
    (startAppMember env k asPrimary s).2.members.appPrimaries
      ≤ s.members.appPrimaries + 1 := by
  cases hm : s.members.lookup k with
  | none =>
      unfold startAppMember
      rw [hm]
      dsimp only
      omega
  | some m =>
      have hwrite : ∀ f : Member → Member,
          MemberSet.appPrimaries (s.members.modify k f)
            ≤ s.members.appPrimaries + 1 := by
        intro f
        have hcount := GoMap.count_modify (p := Member.isPrimary) f hm
        have hle := Bool.toNat_le (f m).isPrimary
        unfold MemberSet.appPrimaries
        omega
      rw [startAppMember_eq asPrimary hm]
      split
      · show (s.started env k asPrimary m).members.appPrimaries ≤ _
        rw [Sys.members_started]
        exact hwrite _
      · rw [Sys.members_startFailed]
        exact hwrite _

theorem seedLoop_primaries_le (seeds : List (String × Member)) :
    ∀ (errors : List Err) (s : Sys), s.members.appPrimaries = 0 →
      (seedLoop env seeds errors s).2.members.appPrimaries ≤ 1 := by
  induction seeds with
  | nil =>
      intro errors s hs
      show s.members.appPrimaries ≤ 1
      omega
  | cons seed seeds ih =>
      intro errors s hs
      have hle := @startAppMember_primaries_le env seed.1 true s
      unfold seedLoop
      dsimp only
      split
      · show (startAppMember env seed.1 true s).2.members.appPrimaries ≤ 1
        omega
      · next hzero => exact ih _ _ (not_not.mp hzero)

/-- Seeding makes one primary, and only if there is none. -/
theorem seedStage_bounded (hone : 1 ≤ primaries)
    (hs : s.members.appPrimaries ≤ primaries) :
    (seedStage env s).2.members.appPrimaries ≤ primaries := by
  unfold seedStage
  split
  · next hzero =>
    split
    · exact hs
    · next seeds _ =>
      have hle := @seedLoop_primaries_le env seeds [] (s.ranged 1) hzero
      dsimp only
      split
      · exact Int.le_trans hle hone
      · exact Int.le_trans hle hone
  · exact hs

/-- The promotion loop does not overshoot. -/
theorem promoteTurn_bounded (st : Sys × List Err)
    (hs : st.1.members.appPrimaries ≤ primaries) :
    Sum.elim (fun st' => st'.1.members.appPrimaries ≤ primaries)
      (fun st' => st'.1.members.appPrimaries ≤ primaries)
      (promoteTurn env primaries st) := by
  obtain ⟨s, errors⟩ := st
  unfold promoteTurn
  dsimp only
  split
  · next hlt =>
    split
    · exact hs
    · next seed _ =>
      have hle := @startAppMember_primaries_le env seed.1 true (s.ranged 1)
      have hle' : (startAppMember env seed.1 true
          (s.ranged 1)).2.members.appPrimaries ≤ primaries := by
        rw [Sys.members_ranged] at hle
        omega
      split
      · exact hle'
      · exact hle'
  · exact hs

theorem promoteStage_bounded {fuel : Nat} {errors errors' : List Err}
    (hs : s.members.appPrimaries ≤ primaries)
    (h : loopStage (promoteTurn env primaries) fuel errors s
      = .ret errors' s') : s'.members.appPrimaries ≤ primaries := by
  unfold loopStage at h
  split at h
  · have hrule := loop_rule (fun st => @promoteTurn_bounded env _ st)
      fuel (s, errors) hs
    split at h
    · cases h
    · next heq =>
      rw [heq] at hrule
      cases h
      exact hrule
  · cases h
    exact hs

-- ========================================================== the stages

/-- Starts and the clean-up are within `G`. -/
structure Allows (G : Event → Prop) : Prop where
  start : ∀ key asPrimary k pod args peers a,
    G (.exec (.start key asPrimary) k pod args peers a)
  cleanup : ∀ e, Event.onFailed e → G e

section Within

variable {G : Event → Prop}

theorem promoteTurn_within (hG : Allows G) (primaries : Int) :
    TurnActs env G (fun _ => True) (promoteTurn env primaries) := by
  intro st _
  obtain ⟨s, errors⟩ := st
  unfold promoteTurn
  dsimp only
  split
  · split
    · exact Acts.quiet (Quiet.ranged 1 s)
    · next seed hseed =>
      obtain ⟨hm, hel⟩ := lookup_of_chooseMember hseed
      have hstart : Acts env G s
          (startAppMember env seed.1 true (s.ranged 1)).2 :=
        (Acts.quiet (Quiet.ranged 1 s)).trans
          (startAppMember_acts true hm hel fun _ _ => hG.start ..)
      split
      · exact hstart
      · exact ⟨hstart, trivial⟩
  · exact .refl

theorem demoteTurn_within
    (hG : ∀ k pod args peers a, G (.exec .stop k pod args peers a))
    (primaries : Int) :
    TurnActs env G (fun _ => True) (demoteTurn env primaries) := by
  intro st _
  obtain ⟨s, errors⟩ := st
  unfold demoteTurn
  dsimp only
  split
  · split
    · exact Acts.quiet (Quiet.ranged 1 s)
    · next e he =>
      obtain ⟨hm, hst⟩ := lookup_of_chooseCurrentPrimary he
      have hm' : (s.ranged 1).members.lookup e.1 = some e.2 := hm
      exact ⟨(Acts.quiet (Quiet.ranged 1 s)).trans (stopAppMember_acts hm'
        (Or.inl hst) fun _ _ => hG ..), trivial⟩
  · exact .refl

theorem secondaryTurn_within (hG : Allows G) (replicas : Int) :
    TurnActs env G (fun _ => True) (secondaryTurn env replicas) := by
  intro st _
  obtain ⟨s, errors⟩ := st
  unfold secondaryTurn
  dsimp only
  split
  · split
    · exact Acts.quiet (Quiet.ranged 1 s)
    · next seed hseed =>
      obtain ⟨hm, hel⟩ := lookup_of_chooseMember hseed
      exact ⟨(Acts.quiet (Quiet.ranged 1 s)).trans
        (startAppMember_acts false hm hel fun _ _ => hG.start ..), trivial⟩
  · exact .refl

theorem finishStage_within (hG : Allows G) (errors : List Err) (s : Sys) :
    Acts env G s (finishStage env errors s).state := by
  unfold finishStage
  split
  · exact .refl
  · exact (recover_onFailed s).mono hG.cleanup

/-- The stages behind the seeding, given what the demotion loop may do in
the states the promotion loop leaves. -/
theorem sizeStages_within (hG : Allows G) {I : Sys → Prop} (fuel : Nat)
    (replicas : Int)
    (hdemote : TurnActs env G I (demoteTurn env primaries))
    (hI : ∀ errors s', loopStage (promoteTurn env primaries) fuel [] s
      = .ret errors s' → I s') :
    Acts env G s (sizeStages env fuel replicas primaries s).state := by
  unfold sizeStages
  refine Acts.andThen
    (loopStage_acts (promoteTurn_within hG _) fuel _ trivial) ?_
  intro errors₁ s₁ h₁
  refine Acts.andThen (loopStage_acts hdemote fuel _ (hI _ _ h₁)) ?_
  intro errors₂ s₂ _
  refine Acts.andThen
    (loopStage_acts (secondaryTurn_within hG _) fuel _ trivial) ?_
  intro errors₃ s₃ _
  exact finishStage_within hG errors₃ s₃

end Within

theorem Event.allows_sparing : Allows Event.sparing where
  start _ _ _ _ _ _ _ := trivial
  cleanup e he := by
    cases e with
    | exec call =>
        obtain ⟨rfl, hmarked⟩ := he
        exact hmarked
    | delete => trivial
    | tag => cases he
    | update => cases he
    | get => cases he

/-- With at most the wanted number of primaries there is nothing to
demote. -/
theorem demoteTurn_sparing (primaries : Int) :
    TurnActs env Event.sparing
      (fun s => s.members.appPrimaries ≤ primaries)
      (demoteTurn env primaries) := by
  intro st hst
  obtain ⟨s, errors⟩ := st
  rw [demoteTurn_done hst]
  exact .refl

theorem sizeStages_sparing (fuel : Nat) (replicas : Int)
    (hs : s.members.appPrimaries ≤ primaries) :
    Acts env Event.sparing s
      (sizeStages env fuel replicas primaries s).state :=
  sizeStages_within Event.allows_sparing fuel replicas
    (demoteTurn_sparing primaries) fun _ _ h => promoteStage_bounded hs h

theorem replicateStages_sparing (fuel : Nat)
    (hone : 1 ≤ s.spec.getNumPrimaries)
    (hs : s.members.appPrimaries ≤ s.spec.getNumPrimaries) :
    Acts env Event.sparing s (replicateStages env fuel s).state := by
  obtain ⟨hdetect, hcount⟩ := @detectStage_acts env s
  unfold replicateStages
  refine Acts.andThen (hdetect.mono fun e he => ?_) fun _ s₁ h₁ => ?_
  · cases e with
    | exec call =>
        obtain ⟨rfl, -⟩ := he
        trivial
    | delete => cases he
    | tag => cases he
    | update => cases he
    | get => cases he
  · rw [h₁, Outcome.state_ret] at hcount
    have hbound := @seedStage_bounded env s₁ _ hone (hcount ▸ hs)
    have hseed : Acts env Event.sparing s₁ (seedStage env s₁).2 :=
      (seedStage_acts s₁).mono fun e he => by
        obtain ⟨key, k, pod, args, peers, a, rfl, -⟩ :=
          Event.seedStart_iff.mp he
        trivial
    cases hstage : seedStage env s₁ with
    | mk early s₂ =>
        rw [hstage] at hbound hseed
        cases early with
        | some errors => exact hseed
        | none => exact hseed.trans (sizeStages_sparing fuel _ hbound)

theorem replicate_sparing (fuel : Nat) (hone : 1 ≤ s.spec.getNumPrimaries)
    (hs : s.members.appPrimaries ≤ s.spec.getNumPrimaries) :
    Acts env Event.sparing s (replicate env fuel s).state := by
  have hbody : Acts env Event.sparing s
      (replicateBody env fuel s).state := by
    unfold replicateBody
    dsimp only
    split
    · exact .refl
    · split
      · exact .refl
      · exact replicateStages_sparing fuel hone hs
  unfold replicate
  refine Acts.andThen hbody fun errors s₁ _ => ?_
  exact Acts.quiet (Quiet.updateCRStatus _ _)

/-- A replication that fails harms nobody but those who failed. If nobody
is marked when the call begins, a primary is wanted, and there are not
more primaries than wanted, then whatever the answers, every stop and every
deletion is on a member whose start has failed before in this call, and at
every point of the call all others are online, running and primary as they
were. -/
theorem healthy_survive (env : Env) (fuel : Nat) (s : Sys)
    (hfailed : ∀ k m, s.members.lookup k = some m → m.appFailed = false)
    (hone : 1 ≤ s.spec.getNumPrimaries)
    (hcount : s.members.appPrimaries ≤ s.spec.getNumPrimaries) :
    HealthySurvive s (replicate env fuel s).state :=
  (replicate_sparing fuel hone hcount).survive hfailed

/-- The first start fails, and so does the stop that follows. -/
def Env.firstFalls : Env :=
  .answering fun _ call pod => match call with
    | .status => .exits 7
    | .start _ _ | .stop => if pod = "db-0" then .exits 1 else .exitsZero ""
    | .sequence => .exitsZero "5"

/-- `db-0` is deleted and the others run. -/
theorem healthy_survive_firstFalls :
    let s := (reconcile .firstFalls .three (Sys.start (.sized 3 3))).state
    ((s.since (replicate .firstFalls 9 s).state).any
        (Event.removes "db-0") = true)
      ∧ HealthySurvive s (replicate .firstFalls 9 s).state := by
  intro s
  refine ⟨by decide +kernel, healthy_survive _ 9 s ?_ (by decide +kernel)
    (by decide +kernel)⟩
  exact GoMap.forall_lookup_iff.mpr (by decide +kernel)

end RssOperator
