/-
Secondaries without a `secondary` command.

# What the code does

The loop that adds secondaries looks at two numbers, the members that run
and those that are wanted. Whether the application knows secondaries at
all is looked at elsewhere: `startCommand` falls back to the `primary`
command, and `remapStatus` takes what then runs for a primary. So a
member is started as a secondary whenever the call comes to that loop
with members missing and a candidate left.

# When it comes to that

`AddsSecondary` says so of the state at the call. The counts at the end
of the first two loops depend on whom they pick, and there is one rule
about that: a promotion takes one candidate, and one of the missing
members if the candidate did not run. With running candidates first the
most members are still missing at the end, and `Spare` is what is left
then. Backwards, `Spare` follows from any other choice
(`Spare.of_promoted`), which gives the one direction. Forwards, a world
that reports larger sequence numbers for those who run makes exactly that
choice (`spare_reaches`), which gives the other.
-/
import RssOperator.Proofs.Steering

namespace RssOperator

variable {env : Env} {s t : Sys} {ms ms' : MemberSet} {k : String}
  {m : Member} {fuel : Nat} {replicas primaries : Int}

-- ========================================================= what is spare

/-- Once the missing primaries are made, of those who run first, a
candidate is left and a member is missing. -/
def Spare (replicas primaries : Int) (ms : MemberSet) : Prop :=
  primaries - ms.appPrimaries < GoMap.count Member.eligible ms
    ∧ ms.appMembers + max 0 (primaries - ms.appPrimaries
        - GoMap.count Member.standby ms) < replicas

/-- Whoever is promoted: what is spare afterwards was spare before. -/
theorem Spare.of_promoted
    (h : Writes Member.eligible (Member.noteStarted true) ms ms')
    (hspare : Spare replicas primaries ms') :
    Spare replicas primaries ms := by
  obtain ⟨k, m, hm, hel, rfl⟩ := h
  obtain ⟨hprimaries, heligible, hstandby, hmembers⟩ :=
    promoted_counts hm hel
  unfold Spare at hspare ⊢
  rw [hprimaries] at hspare
  cases hrun : m.appRunning with
  | true => simp only [hrun, Bool.toNat_true] at hstandby hmembers; omega
  | false => simp only [hrun, Bool.toNat_false] at hstandby hmembers; omega

theorem Spare.of_failed
    (h : Writes Member.eligible Member.noteFailure ms ms')
    (hspare : Spare replicas primaries ms') :
    Spare replicas primaries ms := by
  obtain ⟨k, m, hm, hel, rfl⟩ := h
  obtain ⟨hprimaries, heligible, hstandby, hmembers⟩ := failed_counts hm hel
  unfold Spare at hspare ⊢
  rw [hprimaries, hmembers] at hspare
  omega

/-- Running candidates first: what is spare stays spare. -/
theorem Spare.promoted (hspare : Spare replicas primaries ms)
    (hlt : ms.appPrimaries < primaries) (hm : ms.lookup k = some m)
    (hel : m.eligible = true)
    (hfirst : 0 < GoMap.count Member.standby ms → m.appRunning = true) :
    Spare replicas primaries (ms.modify k (Member.noteStarted true)) := by
  obtain ⟨hprimaries, heligible, hstandby, hmembers⟩ :=
    promoted_counts hm hel
  unfold Spare at hspare ⊢
  rw [hprimaries]
  cases hrun : m.appRunning with
  | true => simp only [hrun, Bool.toNat_true] at hstandby hmembers; omega
  | false =>
      rw [hrun] at hfirst
      simp only [hrun, Bool.toNat_false] at hstandby hmembers
      have hnone : GoMap.count Member.standby ms = 0 := by
        by_contra hne
        cases hfirst (Nat.pos_of_ne_zero hne)
      omega

-- ========================================================== backwards

/-- Some answers and orders lead a call from `s` to the start of a
secondary. -/
structure AddsSecondary (s : Sys) : Prop where
  fits : s.members.appMembers ≤ s.spec.getNumReplicas
  gate : s.members.appPrimaries = 0 →
    s.members.activeMembers = s.spec.getNumReplicas
  /-- Enough candidates behind the missing primaries, or no primary wanted
  and a candidate to seed, or primaries to stop. -/
  room : s.members.appPrimaries ≤ s.spec.getNumPrimaries
      ∧ s.spec.getNumPrimaries ≠ 0
      ∧ Spare s.spec.getNumReplicas s.spec.getNumPrimaries s.members
    ∨ s.members.appPrimaries = 0 ∧ s.spec.getNumPrimaries = 0
      ∧ 0 < GoMap.count Member.eligible s.members
    ∨ s.spec.getNumPrimaries < s.members.appPrimaries
      ∧ s.members.appPrimaries - s.spec.getNumPrimaries
        ≤ s.members.healthyPrimaries

theorem Reread.spare_iff (h : Reread ms ms') :
    Spare replicas primaries ms' ↔ Spare replicas primaries ms := by
  have hprimaries : ms'.appPrimaries = ms.appPrimaries :=
    congrArg Nat.cast (h.count fun _ _ => rfl)
  have hmembers : ms'.appMembers = ms.appMembers :=
    congrArg Nat.cast (h.count fun _ _ => rfl)
  have heligible := h.count (p := Member.eligible) fun _ _ => rfl
  have hstandby := h.count (p := Member.standby) fun _ _ => rfl
  unfold Spare
  rw [hprimaries, hmembers, heligible, hstandby]

/-- What every step of a kind takes back, all of them together take
back. -/
theorem steps_back {Step : MemberSet → MemberSet → Prop}
    {I : MemberSet → Prop} (hstep : ∀ ms ms', Step ms ms' → I ms' → I ms)
    (h : Relation.ReflTransGen Step ms ms') (hms : I ms') : I ms := by
  induction h with
  | refl => exact hms
  | tail _ hone ih => exact ih (hstep _ _ hone hms)

/-- A stop takes a primary from both counts or from none. -/
theorem Demotes.spoiled (h : Demotes primaries ms ms') :
    ms'.appPrimaries - ms'.healthyPrimaries
      = ms.appPrimaries - ms.healthyPrimaries := by
  obtain ⟨-, k, m, hm, hst, rfl⟩ := h
  have hhealthy := healthyPrimaries_afterStop true hm hst
  have hprimaries := appPrimaries_afterStop true hm
  show MemberSet.appPrimaries (ms.modify k (Member.afterStop true))
    - MemberSet.healthyPrimaries (ms.modify k (Member.afterStop true)) = _
  rw [hhealthy, hprimaries, Bool.true_and]
  omega

/-- Promotions do not go past their target. -/
theorem promoted_le (h : Relation.ReflTransGen (Promotes primaries) ms ms')
    (hle : ms.appPrimaries ≤ primaries) : ms'.appPrimaries ≤ primaries := by
  refine steps_keep (I := fun ms => ms.appPrimaries ≤ primaries) ?_ h hle
  intro ms₁ ms₂ hstep _
  obtain ⟨hlt, k, m, hm, hel, rfl⟩ := hstep
  have hone := (promoted_counts hm hel).1
  omega

/-- With enough primaries none is promoted. -/
theorem promoted_none (h : Relation.ReflTransGen (Promotes primaries) ms ms')
    (hge : primaries ≤ ms.appPrimaries) : ms' = ms := by
  induction h with
  | refl => rfl
  | tail _ hstep ih =>
      subst ih
      obtain ⟨hlt, -⟩ := hstep
      omega

theorem demoted_none (h : Relation.ReflTransGen (Demotes primaries) ms ms')
    (hle : ms.appPrimaries ≤ primaries) : ms' = ms := by
  induction h with
  | refl => rfl
  | tail _ hstep ih =>
      subst ih
      obtain ⟨hlt, -⟩ := hstep
      omega

theorem rereads_count {p : Member → Bool}
    (hp : ∀ (m : Member) n, p { m with seq := n } = p m)
    (h : Relation.ReflTransGen Reread ms ms') :
    GoMap.count p ms' = GoMap.count p ms :=
  steps_eq (fun _ _ hr => hr.count hp) h

/-- The first primary: candidates that fail, and one that is started. -/
theorem Seeded.spare (h : Seeded ms ms')
    (hspare : Spare replicas primaries ms') :
    Spare replicas primaries ms := by
  rcases h with ⟨-, rfl⟩ | ⟨-, ms₁, hfails, hstart⟩
  · exact hspare
  · exact steps_back (fun _ _ hone => Spare.of_failed hone) hfails
      (Spare.of_promoted hstart hspare)

theorem Seeded.skipped (h : Seeded ms ms') (hsome : ms.appPrimaries ≠ 0) :
    ms' = ms := by
  rcases h with ⟨-, hsame⟩ | ⟨hzero, -⟩
  · exact hsame
  · exact absurd hzero hsome

/-- With no primary before, there is one after, and there was a
candidate. -/
theorem Seeded.first (h : Seeded ms ms') (hzero : ms.appPrimaries = 0) :
    ms'.appPrimaries = 1 ∧ 0 < GoMap.count Member.eligible ms := by
  rcases h with ⟨hsome, -⟩ | ⟨-, ms₁, hfails, k, m, hm, hel, rfl⟩
  · exact absurd hzero hsome
  · have hnone : ms₁.appPrimaries = ms.appPrimaries := by
      refine steps_eq ?_ hfails
      intro ms₂ ms₃ hone
      obtain ⟨k, m, hm, hel, rfl⟩ := hone
      exact (failed_counts hm hel).1
    refine ⟨?_, ?_⟩
    · rw [(promoted_counts hm hel).1]
      omega
    · refine steps_back (I := fun ms => 0 < GoMap.count Member.eligible ms)
        ?_ hfails (GoMap.count_pos_iff.mpr ⟨k, m, hm, hel⟩)
      intro ms₂ ms₃ hone _
      obtain ⟨k, m, hm, hel, rfl⟩ := hone
      exact GoMap.count_pos_iff.mpr ⟨k, m, hm, hel⟩

theorem ClusterSpec.getNumReplicas_nonneg (c : ClusterSpec) :
    0 ≤ c.getNumReplicas := by
  unfold getNumReplicas
  split
  · decide
  · split
    · decide
    · split
      · decide
      · omega

theorem ClusterSpec.minClusterSize_le_getNumReplicas (c : ClusterSpec)
    (h : 0 < c.getNumReplicas) : minClusterSize ≤ c.getNumReplicas := by
  unfold getNumReplicas at h ⊢
  split at h
  · exact Int.le_refl _
  · next r _ =>
    by_cases hneg : r < 0
    · rw [if_pos hneg] at h
      omega
    · rw [if_neg hneg] at h ⊢
      by_cases hsmall : 0 < r ∧ r < minClusterSize
      · simp [hsmall]
      · rw [if_neg hsmall] at h ⊢
        omega

theorem ClusterSpec.getNumPrimaries_nonneg (c : ClusterSpec) :
    0 ≤ c.getNumPrimaries := by
  have hreplicas := c.getNumReplicas_nonneg
  unfold getNumPrimaries
  dsimp only
  split
  · exact hreplicas
  · split
    · decide
    · split
      · exact hreplicas
      · omega

/-- A call that comes to its last loop with work to do and a candidate
was in a state that leads there. -/
theorem ReachesSecondaries.addsSecondary
    (h : ReachesSecondaries env fuel s t)
    (hlt : t.members.appMembers < s.spec.getNumReplicas)
    (hel : 0 < GoMap.count Member.eligible t.members) :
    AddsSecondary s := by
  obtain ⟨ms₁, ms₂, ms₃, hsteps, -⟩ := h.steps
  have ha₁ : ms₁.appPrimaries = s.members.appPrimaries :=
    congrArg Nat.cast (rereads_count (fun _ _ => rfl) hsteps.reread)
  have hh₁ : ms₁.healthyPrimaries = s.members.healthyPrimaries :=
    congrArg Nat.cast (rereads_count (fun _ _ => rfl) hsteps.reread)
  have hnat : 0 ≤ s.members.appPrimaries := Int.natCast_nonneg _
  refine ⟨hsteps.fits, hsteps.gate, ?_⟩
  have hpos := s.spec.getNumPrimaries_nonneg
  by_cases hmany : s.spec.getNumPrimaries < ms₂.appPrimaries
  · -- nothing is promoted, so primaries are stopped
    obtain rfl := promoted_none hsteps.promoted (by omega)
    by_cases hzero : s.members.appPrimaries = 0
    · obtain ⟨hone, hcand⟩ := hsteps.seeded.first (by omega)
      rw [rereads_count (fun _ _ => rfl) hsteps.reread] at hcand
      exact Or.inr (Or.inl ⟨hzero, by omega, hcand⟩)
    · obtain rfl := hsteps.seeded.skipped (by omega)
      refine Or.inr (Or.inr ⟨by omega, ?_⟩)
      have hspoiled : t.members.appPrimaries - t.members.healthyPrimaries
          = ms₃.appPrimaries - ms₃.healthyPrimaries :=
        steps_eq (c := fun ms => ms.appPrimaries - ms.healthyPrimaries)
          (fun _ _ hd => hd.spoiled) hsteps.demoted
      have hnonneg : 0 ≤ t.members.healthyPrimaries := Int.natCast_nonneg _
      have hfew := hsteps.notTooMany
      omega
  · -- as many as are wanted are promoted, and none is stopped
    have hle := promoted_le hsteps.promoted (by omega)
    have hsame := demoted_none hsteps.demoted hle
    have henough := hsteps.enough
    rw [hsame] at hlt hel
    have hspare₃ : Spare s.spec.getNumReplicas s.spec.getNumPrimaries
        ms₃ := by
      unfold Spare
      omega
    have hspare₂ : Spare s.spec.getNumReplicas s.spec.getNumPrimaries ms₂ :=
      steps_back (fun _ _ hp => Spare.of_promoted hp.2) hsteps.promoted
        hspare₃
    have hspare : Spare s.spec.getNumReplicas s.spec.getNumPrimaries
        s.members :=
      steps_back (fun _ _ hr => hr.spare_iff.mp) hsteps.reread
        (hsteps.seeded.spare hspare₂)
    refine Or.inl ⟨?_, ?_, hspare⟩
    · by_cases hzero : s.members.appPrimaries = 0
      · omega
      · obtain rfl := hsteps.seeded.skipped (by omega)
        omega
    · by_cases hzero : s.members.appPrimaries = 0
      · obtain ⟨hone, -⟩ := hsteps.seeded.first (by omega)
        omega
      · obtain rfl := hsteps.seeded.skipped (by omega)
        omega

-- ===================================================== only the last loop

/-- The last loop with nothing to do, or nobody to do it to. -/
theorem secondaryTurn_idle
    (h : replicas ≤ t.members.appMembers
      ∨ GoMap.count Member.eligible t.members = 0) :
    ∃ t' errors, secondaryTurn env replicas (t, []) = .inr (t', errors)
      ∧ Quiet t t' := by
  by_cases hlt : t.members.appMembers < replicas
  · have hnone : ∀ k m, t.members.lookup k = some m → m.eligible = false :=
      GoMap.count_eq_zero_iff.mp (by omega)
    obtain ⟨err, herr⟩ := chooseMember_none hnone (t.order env)
    exact ⟨_, _, secondaryTurn_none hlt herr, Quiet.ranged 1 t⟩
  · exact ⟨t, [], secondaryTurn_done (by omega), Quiet.refl t⟩

/-- Promotion starts primaries. -/
theorem promoteTurn_adds_none (primaries : Int) :
    TurnActs env (fun e => e.startsAs false = false) (fun _ => True)
      (promoteTurn env primaries) := by
  intro st _
  obtain ⟨s, errors⟩ := st
  unfold promoteTurn
  dsimp only
  split
  · split
    · exact Acts.quiet (Quiet.ranged 1 s)
    · next x hx =>
      obtain ⟨hm, hel⟩ := lookup_of_chooseMember hx
      have hm' : (s.ranged 1).members.lookup x.1 = some x.2 := hm
      have hacts : Acts env (fun e => e.startsAs false = false) s
          (startAppMember env x.1 true (s.ranged 1)).2 :=
        (Acts.quiet (Quiet.ranged 1 s)).trans
          (startAppMember_acts true hm' hel fun _ _ => rfl)
      split
      · exact hacts
      · exact ⟨hacts, trivial⟩
  · exact .refl

/-- Demotion starts nobody. -/
theorem demoteTurn_adds_none (primaries : Int) :
    TurnActs env (fun e => e.startsAs false = false) (fun _ => True)
      (demoteTurn env primaries) := by
  intro st _
  obtain ⟨s, errors⟩ := st
  unfold demoteTurn
  dsimp only
  split
  · split
    · exact Acts.quiet (Quiet.ranged 1 s)
    · next x hx =>
      obtain ⟨hm, hst⟩ := lookup_of_chooseCurrentPrimary hx
      have hm' : (s.ranged 1).members.lookup x.1 = some x.2 := hm
      exact ⟨(Acts.quiet (Quiet.ranged 1 s)).trans (stopAppMember_acts hm'
        (Or.inl hst) fun _ _ => rfl), trivial⟩
  · exact .refl

namespace Event

theorem adds_none_of_cleanup :
    ∀ e, Event.cleanup e → e.startsAs false = false := by
  intro e he
  rw [← Bool.not_eq_true, startsAs_iff]
  intro hex
  obtain ⟨key, k, pod, args, peers, a, rfl⟩ := hex
  cases he

theorem adds_none_of_detection {n : Int} :
    ∀ e, Event.detection n e → e.startsAs false = false := by
  intro e he
  rw [← Bool.not_eq_true, startsAs_iff]
  intro hex
  obtain ⟨key, k, pod, args, peers, a, rfl⟩ := hex
  cases he.1

theorem adds_none_of_seedStart :
    ∀ e : Event, e.seedStart = true → e.startsAs false = false := by
  intro e he
  obtain ⟨key, k, pod, args, peers, a, rfl, -⟩ := seedStart_iff.mp he
  rfl

end Event

/-- Nobody is started as a secondary anywhere else. -/
theorem sizeStages_adds_none
    (h : ∀ s₁, loopStage (promoteTurn env primaries) fuel [] s = .ret [] s₁ →
      ∀ t, loopStage (demoteTurn env primaries) fuel [] s₁ = .ret [] t →
        replicas ≤ t.members.appMembers
          ∨ GoMap.count Member.eligible t.members = 0) :
    Acts env (fun e => e.startsAs false = false) s
      (sizeStages env fuel replicas primaries s).state := by
  unfold sizeStages
  refine Acts.andThen
    (loopStage_acts (promoteTurn_adds_none _) fuel _ trivial) ?_
  intro errors₁ s₁ h₁
  refine Acts.andThen
    (loopStage_acts (demoteTurn_adds_none _) fuel _ trivial) ?_
  intro errors₂ s₂ h₂
  refine Acts.andThen ?_ ?_
  · by_cases hnil : errors₂ = []
    · subst hnil
      obtain ⟨rfl, -⟩ := loopStage_clean (demoteTurn_clean _) h₂
      obtain ⟨t, errors, hend, hquiet⟩ :=
        @secondaryTurn_idle env s₂ replicas (h s₁ h₁ s₂ h₂)
      cases fuel with
      | zero => exact .refl
      | succ n =>
          rw [loopStage_done (Nat.succ_pos n) hend]
          exact Acts.quiet hquiet
    · rw [loopStage_skipped hnil]
      exact .refl
  · intro errors₃ s₃ _
    unfold finishStage
    split
    · exact .refl
    · exact (recover_acts s₃).mono Event.adds_none_of_cleanup

/-- A start as a secondary comes from the last loop, with members missing
and a candidate. -/
theorem reaches_of_startsAs {e : Event}
    (he : e ∈ s.since (replicate env fuel s).state)
    (hadds : e.startsAs false = true) :
    ∃ t, ReachesSecondaries env fuel s t
      ∧ t.members.appMembers < s.spec.getNumReplicas
      ∧ 0 < GoMap.count Member.eligible t.members := by
  by_contra hno
  have hacts : Acts env (fun e => e.startsAs false = false) s
      (replicate env fuel s).state := by
    unfold replicate
    refine Acts.andThen ?_ fun _ _ _ => Acts.quiet (Quiet.updateCRStatus _ _)
    unfold replicateBody
    dsimp only
    split
    · exact .refl
    split
    · exact .refl
    next hfits hgate =>
    unfold replicateStages
    refine Acts.andThen
      ((detectStage_acts s).1.mono Event.adds_none_of_detection) ?_
    intro _ s₁ hd
    have hseed := (@seedStage_acts env s₁).mono Event.adds_none_of_seedStart
    cases hs : seedStage env s₁ with
    | mk early t =>
        rw [hs] at hseed
        cases early with
        | some errors => exact hseed
        | none =>
            refine hseed.trans (sizeStages_adds_none ?_)
            intro s₂ h₁ s₃ h₂
            by_contra hwork
            simp only [not_or] at hwork
            refine hno ⟨s₃, ⟨t, s₂, ⟨by omega, ?_, s₁, hd, hs⟩, h₁, h₂⟩,
              by omega, Nat.pos_of_ne_zero hwork.2⟩
            intro hzero
            by_contra hne
            exact hgate ⟨hzero, hne⟩
  rcases hacts.mem_since e he with hquiet | hnone
  · obtain ⟨key, k, pod, args, peers, a, rfl⟩ :=
      Event.startsAs_iff.mp hadds
    cases hquiet
  · rw [hadds] at hnone
    cases hnone

-- ============================================================ forwards

/-- A call that gets to its last loop with members missing and a candidate
starts a secondary. -/
theorem ReachesSecondaries.starts (h : ReachesSecondaries env fuel s t)
    (hfuel : 0 < fuel)
    (hlt : t.members.appMembers < s.spec.getNumReplicas)
    (hel : 0 < GoMap.count Member.eligible t.members) :
    ∃ e ∈ s.since (replicate env fuel s).state, e.startsAs false = true := by
  obtain ⟨s₁, s₂, hreach, hprom, hdem⟩ := h
  obtain ⟨k, m, hm, hel⟩ := GoMap.count_pos_iff.mp hel
  obtain ⟨e, he, hadds⟩ := @addition_starts env t k m fuel
    s.spec.getNumReplicas hfuel hlt hm hel
  refine ⟨e, mem_since_sizing hreach ?_, hadds⟩
  have h₁ := @loopStage_acts env _ s₁ _ _
    (promoteTurn_adds_none s.spec.getNumPrimaries) fuel [] trivial
  have h₂ := @loopStage_acts env _ s₂ _ _
    (demoteTurn_adds_none s.spec.getNumPrimaries) fuel [] trivial
  rw [hprom] at h₁
  rw [hdem] at h₂
  unfold sizeStages
  rw [hprom, Outcome.ret_andThen, hdem, Outcome.ret_andThen]
  exact mem_since_right (h₁.trans h₂) (addStage_acts fuel _ [] t) he

/-- What the demotion loop keeps, from `primaries₀` primaries and
`members₀` members on: enough of the primaries can be stopped, each stop
takes a member, and leaves a candidate. -/
structure Demotable (primaries primaries₀ members₀ : Int)
    (ms : MemberSet) : Prop where
  enough : primaries ≤ ms.appPrimaries
  healthy : ms.appPrimaries - primaries ≤ ms.healthyPrimaries
  members : ms.appMembers + primaries₀ ≤ members₀ + ms.appPrimaries
  left : ms.appPrimaries < primaries₀ →
    0 < GoMap.count Member.eligible ms

theorem Demotable.stopped {primaries₀ members₀ : Int}
    (h : Demotable primaries primaries₀ members₀ ms)
    (hlt : primaries < ms.appPrimaries) (hm : ms.lookup k = some m)
    (hst : m.stoppable = true) :
    Demotable primaries primaries₀ members₀
      (ms.modify k Member.noteStopped) := by
  have hhealthy : MemberSet.healthyPrimaries (ms.modify k Member.noteStopped)
      = ms.healthyPrimaries - m.isPrimary.toNat :=
    healthyPrimaries_afterStop true hm hst
  have hprimaries : MemberSet.appPrimaries (ms.modify k Member.noteStopped)
      = ms.appPrimaries - (true && m.isPrimary).toNat :=
    appPrimaries_afterStop true hm
  obtain ⟨heligible, hmembers⟩ := stopped_counts hm hst
  rw [Bool.true_and] at hprimaries
  have henough := h.enough
  have hbefore := h.healthy
  have hsum := h.members
  cases hp : m.isPrimary with
  | false =>
      rw [hp, Bool.toNat_false] at hhealthy hprimaries
      refine ⟨by omega, by omega, by omega, fun hless => ?_⟩
      have hleft := h.left (by omega)
      omega
  | true =>
      obtain ⟨hon, -, hrun⟩ := Member.isPrimary_iff.mp hp
      rw [hp, Bool.toNat_true] at hhealthy hprimaries
      rw [hon, Bool.toNat_true] at heligible
      rw [Member.isRunning_iff.mpr ⟨hon, hrun⟩, Bool.toNat_true] at hmembers
      exact ⟨by omega, by omega, by omega, fun _ => by omega⟩

/-- With all stops succeeding, the demotion loop comes to its end. -/
theorem demotions_end {fails : String → Bool} (henv : Obeys env fails)
    (hlt : primaries < t.members.appPrimaries)
    (hhealthy : t.members.appPrimaries - primaries
      ≤ t.members.healthyPrimaries)
    (hfuel : GoMap.count Member.stoppable t.members < fuel) :
    ∃ t', loopStage (demoteTurn env primaries) fuel [] t = .ret [] t'
      ∧ t'.members.appMembers < t.members.appMembers
      ∧ 0 < GoMap.count Member.eligible t'.members := by
  have hturn : ∀ t', Demotable primaries t.members.appPrimaries
        t.members.appMembers t'.members →
      (∃ t'', demoteTurn env primaries (t', []) = .inl (t'', [])
        ∧ Demotable primaries t.members.appPrimaries t.members.appMembers
            t''.members
        ∧ GoMap.count Member.stoppable t''.members
          < GoMap.count Member.stoppable t'.members)
      ∨ demoteTurn env primaries (t', []) = .inr (t', [])
        ∧ t'.members.appPrimaries ≤ primaries := by
    intro t' ht'
    by_cases hmore : primaries < t'.members.appPrimaries
    · cases hx : chooseCurrentPrimary t'.c.peers (t'.order env) with
      | error err =>
          have hzero := healthyPrimaries_of_error hx
          have hle := ht'.healthy
          omega
      | ok x =>
          obtain ⟨hm, hst⟩ := lookup_of_chooseCurrentPrimary hx
          obtain ⟨t'', hnext, hmem, -⟩ := demoteTurn_ok henv hmore hx
          refine Or.inl ⟨t'', hnext, ?_, ?_⟩
          · rw [hmem]
            exact ht'.stopped hmore hm hst
          · have hcount := count_stoppable_afterStop true hm hst
            rw [hmem]
            exact Nat.lt_of_succ_le (le_of_eq hcount)
    · exact Or.inr ⟨demoteTurn_done (by omega) [], by omega⟩
  have hstart : Demotable primaries t.members.appPrimaries
      t.members.appMembers t.members :=
    ⟨by omega, hhealthy, by omega, fun h => absurd h (by omega)⟩
  obtain ⟨t', hend, ht', hdone⟩ := loopStage_ends
    (fun t' => GoMap.count Member.stoppable t'.members) hturn fuel t hstart
    hfuel
  have hsum := ht'.members
  exact ⟨t', hend, by omega, ht'.left (by omega)⟩

-- ======================================================= running first

/-- The candidates that run are those with `high`, and have the larger
sequence number. -/
def Ready (high : String → Bool) (ms : MemberSet) : Prop :=
  ∀ k m, ms.lookup k = some m → m.eligible = true →
    m.seq = (high k).toNat ∧ m.appRunning = high k

namespace Ready

variable {high : String → Bool}

/-- A candidate that runs is picked if there is one. -/
theorem pick (h : Ready high ms)
    (hel : 0 < GoMap.count Member.eligible ms) (o : Order String) :
    ∃ x, chooseMember (some ms) (o.deferring high) = .ok x
      ∧ (0 < GoMap.count Member.standby ms → x.2.appRunning = true) := by
  by_cases hstandby : 0 < GoMap.count Member.standby ms
  · obtain ⟨k, m, hm, hsb⟩ := GoMap.count_pos_iff.mp hstandby
    simp only [Member.standby, Bool.and_eq_true] at hsb
    have hhigh : high k = true := by
      rw [← (h k m hm hsb.1).2]
      exact hsb.2
    obtain ⟨x, hx, hxhigh⟩ := chooseMember_high
      (fun k m hm hel => (h k m hm hel).1) hm hsb.1 hhigh o
    obtain ⟨hxm, hxel⟩ := chooseMember_ok hx
    refine ⟨x, hx, fun _ => ?_⟩
    rw [(h _ _ hxm hxel).2]
    exact hxhigh
  · obtain ⟨k, m, hm, hel⟩ := GoMap.count_pos_iff.mp hel
    obtain ⟨x, hx⟩ := chooseMember_of_eligible (o.deferring high) hm hel
    exact ⟨x, hx, fun h => absurd h hstandby⟩

/-- A promotion leaves the other candidates alone. -/
theorem promoted (h : Ready high ms) (k : String) :
    Ready high (ms.modify k (Member.noteStarted true)) := by
  intro k' m' hm' hel'
  rcases GoMap.lookup_modify_some hm' with ⟨-, m, -, rfl⟩ | hm
  · simp [Member.eligible, Member.noteStarted] at hel'
  · exact h k' m' hm hel'

/-- The first seed is one that runs if there is one. -/
theorem seed (h : Ready high t.members)
    (hel : 0 < GoMap.count Member.eligible t.members) :
    ∃ x rest, seedList env t = x :: rest
      ∧ t.members.lookup x.1 = some x.2 ∧ x.2.eligible = true
      ∧ (0 < GoMap.count Member.standby t.members →
        x.2.appRunning = true) := by
  obtain ⟨x, rest, hlist, hxm, hxel, htop⟩ := seedList_cons env hel
  refine ⟨x, rest, hlist, hxm, hxel, fun hstandby => ?_⟩
  obtain ⟨k, m, hm, hsb⟩ := GoMap.count_pos_iff.mp hstandby
  simp only [Member.standby, Bool.and_eq_true] at hsb
  have hone : m.seq = 1 := by
    rw [(h k m hm hsb.1).1, ← (h k m hm hsb.1).2, hsb.2]
    rfl
  have hle := htop k m hm hsb.1
  obtain ⟨hseq, hrun⟩ := h x.1 x.2 hxm hxel
  rw [hrun]
  cases hhigh : high x.1 with
  | true => rfl
  | false =>
      rw [hhigh, Bool.toNat_false] at hseq
      omega

end Ready

/-- What the promotion loop keeps in such a world. -/
structure Promotable (high : String → Bool) (replicas primaries : Int)
    (ms : MemberSet) : Prop where
  ready : Ready high ms
  spare : Spare replicas primaries ms
  few : ms.appPrimaries ≤ primaries

theorem Promotable.promoted {high : String → Bool}
    (h : Promotable high replicas primaries ms)
    (hlt : ms.appPrimaries < primaries) (hm : ms.lookup k = some m)
    (hel : m.eligible = true)
    (hfirst : 0 < GoMap.count Member.standby ms → m.appRunning = true) :
    Promotable high replicas primaries
      (ms.modify k (Member.noteStarted true)) := by
  refine ⟨h.ready.promoted k, h.spare.promoted hlt hm hel hfirst, ?_⟩
  rw [(promoted_counts hm hel).1]
  omega

/-- With all starts succeeding, the promotion loop comes to its end. -/
theorem promotions_end {high : String → Bool}
    (henv : Obeys env fun _ => false)
    (horder : ∀ i, ∃ o : Order String, env.order i = o.deferring high)
    (ht : Promotable high replicas primaries t.members)
    (hfuel : (primaries - t.members.appPrimaries).toNat < fuel) :
    ∃ t', loopStage (promoteTurn env primaries) fuel [] t = .ret [] t'
      ∧ Promotable high replicas primaries t'.members
      ∧ primaries ≤ t'.members.appPrimaries := by
  refine loopStage_ends
    (fun t => (primaries - t.members.appPrimaries).toNat) ?_ fuel t ht hfuel
  intro t ht
  by_cases hlt : t.members.appPrimaries < primaries
  · obtain ⟨o, ho⟩ := horder t.orders
    have hel : 0 < GoMap.count Member.eligible t.members := by
      have hspare := ht.spare.1
      omega
    obtain ⟨x, hx, hfirst⟩ := ht.ready.pick hel o
    obtain ⟨hm, hxel⟩ := chooseMember_ok hx
    have hx' : chooseMember t.c.peers (t.order env) = .ok x := by
      rw [Sys.peers_of_lookup hm]
      unfold Sys.order
      rw [ho]
      exact hx
    obtain ⟨t', hnext, hmem, -⟩ := promoteTurn_ok henv hlt hx' rfl
    refine Or.inl ⟨t', hnext, ?_, ?_⟩
    · rw [hmem]
      exact ht.promoted hlt hm hxel hfirst
    · have hone := (promoted_counts hm hxel).1
      rw [hmem, hone]
      omega
  · exact Or.inr ⟨promoteTurn_done (by omega), by omega⟩

-- =========================================================== the world

/-- The application runs on the member under `k`. -/
def Sys.runsAt (s : Sys) (k : String) : Bool :=
  (s.members.lookup k).any Member.appRunning

/-- Everything works, and those who run have the larger sequence number
and are visited last. -/
def Sys.runningFirst (s : Sys) : Env :=
  .steered (fun pod => bit (s.runsAt pod)) (fun _ => false)
    fun _ => (Order.stored String).deferring s.runsAt

theorem Sys.runningFirst_obeys (s : Sys) :
    Obeys s.runningFirst fun _ => false := Env.steered_obeys _ _ _

/-- Detection makes the set ready. -/
theorem detectStage_ready (hs : s.members.WellKeyed)
    (hwork : s.members.appPrimaries ≠ s.spec.getNumPrimaries
      ∨ s.members.appMembers ≠ s.spec.getNumReplicas) :
    ∃ s₁, detectStage s.runningFirst s = .ret () s₁
      ∧ Ready s.runsAt s₁.members := by
  obtain ⟨s₁, hdetect, hread, -⟩ := @detectStage_bits s.runningFirst s
    s.runsAt (fun _ _ => rfl) hs hwork
  refine ⟨s₁, hdetect, fun k m hm hel => ?_⟩
  obtain ⟨m₀, n, hm₀, rfl, hn⟩ := hread k m hm
  refine ⟨hn (Member.eligible_iff.mp hel).1, ?_⟩
  simp [Sys.runsAt, hm₀]

/-- The missing primaries are made of those who run first. -/
theorem spare_reaches (hs : s.members.WellKeyed)
    (hfits : s.members.appMembers ≤ s.spec.getNumReplicas)
    (hgate : s.members.appPrimaries = 0 →
      s.members.activeMembers = s.spec.getNumReplicas)
    (hfew : s.members.appPrimaries ≤ s.spec.getNumPrimaries)
    (hsome : s.spec.getNumPrimaries ≠ 0)
    (hspare : Spare s.spec.getNumReplicas s.spec.getNumPrimaries
      s.members) :
    ∃ fuel t, 0 < fuel ∧ ReachesSecondaries s.runningFirst fuel s t
      ∧ t.members.appMembers < s.spec.getNumReplicas
      ∧ 0 < GoMap.count Member.eligible t.members := by
  have hwork : s.members.appPrimaries ≠ s.spec.getNumPrimaries
      ∨ s.members.appMembers ≠ s.spec.getNumReplicas := by
    have hroom := hspare.2
    omega
  obtain ⟨s₁, hdetect, hready⟩ := detectStage_ready hs hwork
  have ha₁ : s₁.members.appPrimaries = s.members.appPrimaries :=
    congrArg Nat.cast (detected_count (fun _ _ => rfl) hdetect)
  have hspare₁ : Spare s.spec.getNumReplicas s.spec.getNumPrimaries
      s₁.members := by
    have hreread := @detectStage_rereads s.runningFirst s
    rw [hdetect] at hreread
    exact steps_keep (fun _ _ hr => hr.spare_iff.mpr) hreread hspare
  have hready₁ : Promotable s.runsAt s.spec.getNumReplicas
      s.spec.getNumPrimaries s₁.members := ⟨hready, hspare₁, by omega⟩
  -- seeding is a promotion like the others
  have hseed : ∃ t, seedStage s.runningFirst s₁ = (none, t)
      ∧ Promotable s.runsAt s.spec.getNumReplicas s.spec.getNumPrimaries
          t.members := by
    by_cases hzero : s₁.members.appPrimaries = 0
    · have hel : 0 < GoMap.count Member.eligible s₁.members := by
        have hcand := hspare₁.1
        have hpos := s.spec.getNumPrimaries_nonneg
        omega
      obtain ⟨x, rest, hlist, hm, hxel, hfirst⟩ :=
        @Ready.seed s.runningFirst s₁ _ hready hel
      obtain ⟨t, hret, hmem⟩ :=
        seedStage_first s.runningFirst_obeys hzero hlist rfl
      refine ⟨t, hret, ?_⟩
      rw [hmem]
      have hpos := s.spec.getNumPrimaries_nonneg
      exact hready₁.promoted (by omega) hm hxel hfirst
    · exact ⟨s₁, seedStage_skipped hzero, hready₁⟩
  obtain ⟨t, hseed, ht⟩ := hseed
  obtain ⟨t', hprom, ht', henough⟩ := promotions_end s.runningFirst_obeys
    (fun _ => ⟨_, rfl⟩) ht (Nat.lt_succ_self _)
  have hexact := ht'.few
  have hdone := ht'.spare
  unfold Spare at hdone
  refine ⟨_, t', Nat.succ_pos _, ⟨t, t', ⟨hfits, hgate, s₁, hdetect, hseed⟩,
    hprom, ?_⟩, by omega, by omega⟩
  exact loopStage_done (Nat.succ_pos _) (demoteTurn_done (by omega) [])

/-- Primaries that are too many are stopped, and one of them is a
candidate again. -/
theorem demoted_reaches (hs : s.members.WellKeyed)
    (hfits : s.members.appMembers ≤ s.spec.getNumReplicas)
    (hmany : s.spec.getNumPrimaries < s.members.appPrimaries)
    (hhealthy : s.members.appPrimaries - s.spec.getNumPrimaries
      ≤ s.members.healthyPrimaries) :
    ∃ fuel t, 0 < fuel ∧ ReachesSecondaries s.runningFirst fuel s t
      ∧ t.members.appMembers < s.spec.getNumReplicas
      ∧ 0 < GoMap.count Member.eligible t.members := by
  obtain ⟨s₁, hdetect⟩ := detectStage_returns s.runningFirst hs
  have ha₁ : s₁.members.appPrimaries = s.members.appPrimaries :=
    congrArg Nat.cast (detected_count (fun _ _ => rfl) hdetect)
  have hr₁ : s₁.members.appMembers = s.members.appMembers :=
    congrArg Nat.cast (detected_count (fun _ _ => rfl) hdetect)
  have hh₁ : s₁.members.healthyPrimaries = s.members.healthyPrimaries :=
    congrArg Nat.cast (detected_count (fun _ _ => rfl) hdetect)
  have hpos := s.spec.getNumPrimaries_nonneg
  obtain ⟨t, hdem, hless, hel⟩ := @demotions_end s.runningFirst s₁ _
    s.spec.getNumPrimaries _ s.runningFirst_obeys (by omega) (by omega)
    (Nat.lt_succ_self _)
  refine ⟨_, t, Nat.succ_pos _, ⟨s₁, s₁, ⟨hfits, fun hzero => by omega, s₁,
    hdetect, seedStage_skipped (by omega)⟩, ?_, hdem⟩, by omega, hel⟩
  exact loopStage_done (Nat.succ_pos _) (promoteTurn_done (by omega))

/-- No primary is wanted and there is none: one is made, stopped again,
and is a candidate. -/
theorem seeded_reaches (hs : s.members.WellKeyed)
    (hfits : s.members.appMembers ≤ s.spec.getNumReplicas)
    (hactive : s.members.activeMembers = s.spec.getNumReplicas)
    (hzero : s.members.appPrimaries = 0)
    (hnone : s.spec.getNumPrimaries = 0)
    (hel : 0 < GoMap.count Member.eligible s.members) :
    ∃ fuel t, 0 < fuel ∧ ReachesSecondaries s.runningFirst fuel s t
      ∧ t.members.appMembers < s.spec.getNumReplicas
      ∧ 0 < GoMap.count Member.eligible t.members := by
  obtain ⟨s₁, hdetect⟩ := detectStage_returns s.runningFirst hs
  have ha₁ : s₁.members.appPrimaries = s.members.appPrimaries :=
    congrArg Nat.cast (detected_count (fun _ _ => rfl) hdetect)
  have hn₁ : s₁.members.activeMembers = s.members.activeMembers :=
    congrArg Nat.cast (detected_count (fun _ _ => rfl) hdetect)
  rw [← detected_count (fun _ _ => rfl) hdetect] at hel
  obtain ⟨x, rest, hlist, hm, hxel, -⟩ := seedList_cons s.runningFirst hel
  obtain ⟨t₁, hseed, hmem⟩ :=
    seedStage_first s.runningFirst_obeys (ha₁.trans hzero) hlist rfl
  have hone : t₁.members.appPrimaries = 1 := by
    rw [hmem, (promoted_counts hm hxel).1, ha₁, hzero]
    rfl
  have hhealthy : 0 < GoMap.count Member.healthy t₁.members := by
    rw [hmem]
    refine GoMap.count_pos_iff.mpr
      ⟨x.1, _, GoMap.lookup_modify_of_some hm, ?_⟩
    · have hon := (Member.eligible_iff.mp hxel).1
      simp [Member.healthy, Member.isPrimary, Member.noteStarted, hon]
  have hactive₁ : t₁.members.activeMembers = s.spec.getNumReplicas := by
    rw [← hactive, ← hn₁, hmem]
    exact congrArg Nat.cast (GoMap.count_modify_eq (p := Member.online)
      (f := Member.noteStarted true) x.1 (fun _ => rfl) _)
  have hrunning := t₁.members.appMembers_le_active
  obtain ⟨t, hdem, hless, hleft⟩ := @demotions_end s.runningFirst t₁ _
    s.spec.getNumPrimaries _ s.runningFirst_obeys (by omega)
    (by unfold MemberSet.healthyPrimaries; omega) (Nat.lt_succ_self _)
  refine ⟨_, t, Nat.succ_pos _, ⟨t₁, t₁, ⟨hfits, fun _ => hactive, s₁,
    hdetect, hseed⟩, ?_, hdem⟩, by omega, hleft⟩
  exact loopStage_done (Nat.succ_pos _) (promoteTurn_done (by omega))

/-- `replicate` starts no secondary, whatever the answers and orders,
exactly in the states that do not lead there. The commands of the spec
make no difference. -/
theorem secondaries_unsupported_iff (s : Sys)
    (hs : s.members.WellKeyed) :
    (∀ env fuel, ∀ e ∈ s.since (replicate env fuel s).state,
        e.startsAs false = false)
      ↔ ¬ AddsSecondary s := by
  constructor
  · intro hnone hadds
    have hreach : ∃ fuel t, 0 < fuel
        ∧ ReachesSecondaries s.runningFirst fuel s t
        ∧ t.members.appMembers < s.spec.getNumReplicas
        ∧ 0 < GoMap.count Member.eligible t.members := by
      rcases hadds.room with ⟨hfew, hsome, hspare⟩ | ⟨hzero, hzero', hel⟩
        | ⟨hmany, hhealthy⟩
      · exact spare_reaches hs hadds.fits hadds.gate hfew hsome hspare
      · exact seeded_reaches hs hadds.fits (hadds.gate hzero) hzero hzero'
          hel
      · exact demoted_reaches hs hadds.fits hmany hhealthy
    obtain ⟨fuel, t, hfuel, hreach, hlt, hel⟩ := hreach
    obtain ⟨e, he, hstart⟩ := hreach.starts hfuel hlt hel
    rw [hnone _ _ e he] at hstart
    cases hstart
  · intro hnot env fuel e he
    rw [← Bool.not_eq_true]
    intro hstart
    obtain ⟨t, hreach, hlt, hel⟩ := reaches_of_startsAs he hstart
    exact hnot (hreach.addsSecondary hlt hel)

/-- A resource without a `secondary` command. -/
def ReplicatedStatefulSet.primariesOnly (replicas primaries : Int) :
    ReplicatedStatefulSet :=
  { ReplicatedStatefulSet.sized replicas primaries with
    spec := { (ReplicatedStatefulSet.sized replicas primaries).spec with
      commands := fun key =>
        if key = .secondary then none else some ⟨["run"]⟩
      nil_commands := by intro h; cases h } }

/-- Three primaries of three are wanted, and one is there. -/
theorem secondaries_unsupported_three :
    let s := (Sys.start (.primariesOnly 3 3)).setPeers .onePrimary
    s.spec.commands .secondary = none
      ∧ ∀ env fuel, ∀ e ∈ s.since (replicate env fuel s).state,
        e.startsAs false = false := by
  intro s
  have hsound : MemberSet.Sound .onePrimary := by decide +kernel
  refine ⟨rfl, (secondaries_unsupported_iff s hsound.keyed).mpr ?_⟩
  intro hadds
  rcases hadds.room with ⟨-, -, hspare⟩ | ⟨-, hzero, -⟩ | ⟨hmany, -⟩
  · exact absurd hspare.1 (by decide +kernel)
  · exact absurd hzero (by decide)
  · exact absurd hmany (by decide +kernel)

/-- One primary of three: the `primary` command is run on a second pod,
and what it starts is recorded as a secondary. -/
theorem secondary_without_command :
    let s := (Sys.start (.primariesOnly 3 1)).setPeers .onePrimary
    let s' := (replicate (.deciding fun _ => true) 1 s).state
    s.spec.commands .secondary = none
      ∧ (s.since s').any (fun e =>
          match e with
          | .exec (.start .primary false) "db-1" _ _ _ a => a.succeeds
          | _ => false) = true
      ∧ (s'.members.lookup "db-1").any (fun m =>
          m.appRunning && !m.appPrimary) = true := by
  refine ⟨rfl, by decide +kernel, by decide +kernel⟩

end RssOperator
