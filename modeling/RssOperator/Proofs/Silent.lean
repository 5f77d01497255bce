/-
Calls of `replicate` that report nothing and leave a failed member.

# What the code does

`replicate` drops the errors of the seeds that failed as soon as one seed
has succeeded. A seed that failed keeps its flags. If it ran before, as a
secondary, it still counts as a member that runs, and the last loop may
find all its members without it being touched again. The call then
returns no error and leaves a member that has failed.

# Looking back

`Swallows` says of the state at the call when it may come to that. This
module reads it off the end of a silent call (`swallows_of_silent`). The
failed member was a candidate that ran, as only seeding makes anybody
fail without an error. Everybody else who is online runs in the end, and
a member that is marked as a primary and does not run can only have come
to that by being demoted first.
-/
import RssOperator.Proofs.Losing

namespace RssOperator

variable {env : Env} {s s' : Sys} {ms ms' : MemberSet} {k : String}
  {m : Member} {fuel : Nat} {replicas primaries : Int}

/-- The states in which a failure can get lost: nobody is a primary, as
many pods are there as are wanted, fewer primaries are wanted than that,
and there are two candidates of which one runs. Members that are marked
as primaries are in the way, unless no primary is wanted and their names
come after that of the other candidate. -/
structure Swallows (s : Sys) : Prop where
  unseeded : s.members.appPrimaries = 0
  complete : s.members.activeMembers = s.spec.getNumReplicas
  few : s.spec.getNumPrimaries < s.spec.getNumReplicas
  seeds : ∃ f mf w mw, s.members.lookup f = some mf
    ∧ s.members.lookup w = some mw ∧ w ≠ f
    ∧ mf.eligible = true ∧ mf.appRunning = true ∧ mw.eligible = true
    ∧ ∀ z mz, s.members.lookup z = some mz → mz.online = true →
      mz.appPrimary = true → s.spec.getNumPrimaries = 0 ∧ w < z

-- ======================================================== looking back

/-- What fails at the end has failed before a write that clears
failures, and has not been touched by it. -/
theorem Writes.failed_before {P : Member → Bool} {f : Member → Member}
    (h : Writes P f ms ms') (hf : ∀ m, (f m).appFailed = false)
    (hfail : m.appFailed = true) (hm : ms'.lookup k = some m) :
    ms.lookup k = some m := by
  obtain ⟨k', m', hm', -, rfl⟩ := h
  rcases GoMap.lookup_modify_some hm with ⟨-, m₀, -, rfl⟩ | hm
  · rw [hf] at hfail
    cases hfail
  · exact hm

/-- A write leaves entries alone that do not have its property. -/
theorem Writes.lookup_other {P : Member → Bool} {f : Member → Member}
    (h : Writes P f ms ms') (hm : ms.lookup k = some m)
    (hP : P m = false) : ms'.lookup k = some m := by
  obtain ⟨k', m', hm', hP', rfl⟩ := h
  rw [GoMap.lookup_modify_ne _ _ _]
  · exact hm
  · intro heq
    subst heq
    obtain rfl : m = m' := Option.some.inj (hm.symm.trans hm')
    rw [hP] at hP'
    cases hP'

/-- If as many run as are there, everybody who is there runs. -/
theorem MemberSet.running_of_full (hfull : ms.activeMembers ≤ ms.appMembers)
    (hm : ms.lookup k = some m) (hon : m.online = true) :
    m.appRunning = true := by
  have hrun : m.isRunning = true := by
    refine GoMap.of_count_le (p := Member.online) ?_ ?_ hm hon
    · intro m hrun
      exact (Member.isRunning_iff.mp hrun).1
    · unfold activeMembers appMembers at hfull
      omega
  exact (Member.isRunning_iff.mp hrun).2

theorem MemberSet.primary_of_full
    (hfull : ms.activeMembers ≤ ms.appPrimaries)
    (hm : ms.lookup k = some m) (hon : m.online = true) :
    m.appPrimary = true := by
  have hpr : m.isPrimary = true := by
    refine GoMap.of_count_le (p := Member.online) ?_ ?_ hm hon
    · intro m hpr
      exact (Member.isPrimary_iff.mp hpr).1
    · unfold activeMembers appPrimaries at hfull
      omega
  exact (Member.isPrimary_iff.mp hpr).2.1

/-- From `ms` to `ms'` some candidates have failed, and nothing else has
happened to the flags. -/
def OnlyFailed (ms ms' : MemberSet) : Prop :=
  ∀ k m', ms'.lookup k = some m' → ∃ m, ms.lookup k = some m
    ∧ m'.name = m.name ∧ m'.online = m.online
    ∧ m'.appPrimary = m.appPrimary ∧ m'.appRunning = m.appRunning
    ∧ (m'.appFailed = true → m.eligible = true)

theorem OnlyFailed.reread {ms₁ : MemberSet} (h : OnlyFailed ms ms₁)
    (hone : Reread ms₁ ms') : OnlyFailed ms ms' := by
  obtain ⟨k₁, n, rfl⟩ := hone
  intro k m' hm'
  rcases GoMap.lookup_modify_some hm' with ⟨rfl, m, hm, rfl⟩ | hm
  · exact h k m hm
  · exact h k m' hm

theorem OnlyFailed.failure {ms₁ : MemberSet} (h : OnlyFailed ms ms₁)
    (hfine : ∀ k m, ms.lookup k = some m → m.appFailed = false)
    (hone : Writes Member.eligible Member.noteFailure ms₁ ms') :
    OnlyFailed ms ms' := by
  obtain ⟨k₁, m₁, hm₁, hel₁, rfl⟩ := hone
  intro k m' hm'
  rcases GoMap.lookup_modify_some hm' with ⟨rfl, m, hm, rfl⟩ | hm
  · obtain rfl : m₁ = m := Option.some.inj (hm₁.symm.trans hm)
    obtain ⟨m₀, hm₀, hname, hon, hpr, hrun, -⟩ := h k m₁ hm
    refine ⟨m₀, hm₀, hname, hon, hpr, hrun, fun _ => ?_⟩
    obtain ⟨hon₁, -, hpr₁⟩ := Member.eligible_iff.mp hel₁
    exact Member.eligible_iff.mpr
      ⟨hon.symm.trans hon₁, hfine k m₀ hm₀, hpr.symm.trans hpr₁⟩
  · exact h k m' hm

/-- Detection makes nobody fail. -/
theorem rereads_healthy (h : Relation.ReflTransGen Reread ms ms')
    (hfine : ∀ k m, ms.lookup k = some m → m.appFailed = false) :
    ∀ k m, ms'.lookup k = some m → m.appFailed = false := by
  refine steps_keep (I := fun ms => ∀ k m, ms.lookup k = some m →
    m.appFailed = false) ?_ h hfine
  intro ms₁ ms₂ hone hms k m hm
  obtain ⟨k₁, n, rfl⟩ := hone
  rcases GoMap.lookup_modify_some hm with ⟨rfl, m₁, hm₁, rfl⟩ | hm
  · exact hms k m₁ hm₁
  · exact hms k m hm

theorem OnlyFailed.of_rereads
    (hfine : ∀ k m, ms.lookup k = some m → m.appFailed = false)
    (h : Relation.ReflTransGen Reread ms ms') : OnlyFailed ms ms' := by
  refine steps_keep (I := OnlyFailed ms)
    (fun _ _ hone hms => hms.reread hone) h ?_
  intro k m hm
  refine ⟨m, hm, rfl, rfl, rfl, rfl, fun hfail => ?_⟩
  rw [hfine k m hm] at hfail
  cases hfail

/-- A member that is marked as a primary and does not run. -/
def Stale (z : String) (ms : MemberSet) : Prop :=
  ∃ m, ms.lookup z = some m ∧ m.name = z ∧ m.online = true
    ∧ m.appPrimary = true ∧ m.appFailed = false ∧ m.appRunning = false

namespace Stale

variable {z : String}

/-- Nobody is a primary, so whoever is marked as one is stale. -/
theorem of_marked {mz : Member} (hs : ms.WellKeyed)
    (hzero : ms.appPrimaries = 0) (hmz : ms.lookup z = some mz)
    (hfine : mz.appFailed = false) (hon : mz.online = true)
    (hpr : mz.appPrimary = true) : Stale z ms := by
  refine ⟨mz, hmz, hs z mz hmz, hon, hpr, hfine, ?_⟩
  have hnone := MemberSet.appPrimaries_eq_zero hzero hmz
  simpa [Member.isPrimary, hon, hpr] using hnone

theorem reread (h : Stale z ms) (hone : Reread ms ms') : Stale z ms' := by
  obtain ⟨k, n, rfl⟩ := hone
  obtain ⟨m, hm, hflags⟩ := h
  by_cases hk : z = k
  · subst hk
    exact ⟨{ m with seq := n }, GoMap.lookup_modify_of_some hm, hflags⟩
  · exact ⟨m, by rw [GoMap.lookup_modify_ne hk]; exact hm, hflags⟩

/-- It is no candidate, and nothing that is done to those concerns it. -/
theorem write {f : Member → Member} (h : Stale z ms)
    (hone : Writes Member.eligible f ms ms') : Stale z ms' := by
  obtain ⟨m, hm, hflags⟩ := h
  refine ⟨m, hone.lookup_other hm ?_, hflags⟩
  simp [Member.eligible, hflags.2.2.1]

end Stale

/-- A demotion that has the choice between `w` and a stale member whose
name is not larger takes `w`. -/
theorem Stale.demotion {w z : String} (hz : Stale z ms) (hw : Sole w ms)
    (hnlt : ¬ w < z) (hone : DemotesLargest 0 ms ms') : Stale z ms' := by
  obtain ⟨hlt, k, m, hm, hst, rfl, hlargest⟩ := hone
  obtain ⟨mz, hmz, hname, hon, hpr, hfail, hrun⟩ := hz
  by_cases hk : z = k
  · subst hk
    obtain rfl : m = mz := Option.some.inj (hm.symm.trans hmz)
    have hpos : 0 < GoMap.count Member.isPrimary ms := by
      unfold MemberSet.appPrimaries at hlt
      omega
    obtain ⟨k', m', hm', hpr'⟩ := GoMap.count_pos_iff.mp hpos
    obtain ⟨rfl, hname', hfail'⟩ := hw k' m' hm' hpr'
    obtain ⟨-, hmarked, hrun'⟩ := Member.isPrimary_iff.mp hpr'
    have hst' := Member.stoppable_iff.mpr ⟨hmarked, hfail'⟩
    have hle := hlargest hon k' m' hm' hst'
    rw [hname, hname'] at hle
    -- the two have the same name, but one runs and the other does not
    have heq : k' = z :=
      String.le_antisymm (String.not_lt.mp hle) (String.not_lt.mp hnlt)
    subst heq
    obtain rfl : m = m' := Option.some.inj (hm.symm.trans hm')
    rw [hrun] at hrun'
    cases hrun'
  · exact ⟨mz, by rw [GoMap.lookup_modify_ne hk]; exact hmz, hname, hon,
      hpr, hfail, hrun⟩

/-- Unless it is demoted before `w`, the first primary, a stale member
stays what it is: promotions and additions are for candidates, and with a
primary wanted nobody is demoted. -/
theorem Stale.unless_demoted {w z : String} {mw : Member}
    {ms₀ ms₃ ms₄ : MemberSet} (hzero : ms₀.appPrimaries = 0)
    (hw : ms₀.lookup w = some mw) (hwel : mw.eligible = true)
    (hname : mw.name = w)
    (hpromoted : Relation.ReflTransGen (Promotes primaries)
      (ms₀.modify w (Member.noteStarted true)) ms₃)
    (hdemoted : Relation.ReflTransGen (DemotesLargest primaries) ms₃ ms₄)
    (hadded : Relation.ReflTransGen (Adds replicas) ms₄ ms')
    (hpos : 0 ≤ primaries) (hz : Stale z ms₀)
    (hnot : ¬ (primaries = 0 ∧ w < z)) : Stale z ms' := by
  have hz₂ : Stale z (ms₀.modify w (Member.noteStarted true)) :=
    hz.write ⟨w, mw, hw, hwel, rfl⟩
  have hone := (promoted_counts hw hwel).1
  have hz₃ : Stale z ms₃ :=
    steps_keep (fun _ _ hone hz => hz.write hone.2) hpromoted hz₂
  have hz₄ : Stale z ms₄ := by
    by_cases hp : primaries = 0
    · subst hp
      obtain rfl := promoted_none hpromoted (by omega)
      have hsole : Sole w (ms₀.modify w (Member.noteStarted true)) := by
        intro k m hm hpr
        rcases GoMap.lookup_modify_some hm with ⟨rfl, m₀, hm₀, rfl⟩ | hm
        · obtain rfl : mw = m₀ := Option.some.inj (hw.symm.trans hm₀)
          exact ⟨rfl, hname, rfl⟩
        · rw [MemberSet.appPrimaries_eq_zero hzero hm] at hpr
          cases hpr
      refine (steps_keep (I := fun ms => Sole w ms ∧ Stale z ms) ?_ hdemoted
        ⟨hsole, hz₃⟩).2
      intro ms ms' hstep hms
      refine ⟨?_, hms.2.demotion hms.1 (fun hlt => hnot ⟨rfl, hlt⟩) hstep⟩
      obtain ⟨-, k, m, -, -, rfl, -⟩ := hstep
      exact hms.1.stopped k
    · have hle := promoted_le hpromoted (by omega)
      have hdemoted' : Relation.ReflTransGen (Demotes primaries) ms₃ ms₄ :=
        Relation.ReflTransGen.mono (fun _ _ h => DemotesLargest.demotes h)
          _ _ hdemoted
      obtain rfl := demoted_none hdemoted' hle
      exact hz₃
  exact steps_keep (fun _ _ hone hz => hz.write hone.2) hadded hz₄

/-- Only a call that wants pods can return no error. -/
theorem replicas_pos_of_silent (h : replicate env fuel s = .ret [] s') :
    0 < s.spec.getNumReplicas := by
  obtain ⟨errors, t, hbody, hend⟩ := Outcome.andThen_eq_ret h
  injection hend with hnil _
  subst hnil
  rcases replicateBody_cases env fuel s with
    ⟨err, t, hret⟩ | ⟨t, ⟨hfits, hgate, s₁, hdetect, hseed⟩, -⟩ | hnever
  · rw [hret] at hbody
    cases hbody
  · by_contra hnot
    have hnonneg := s.spec.getNumReplicas_nonneg
    have hle := s.members.appPrimaries_le_appMembers
    have hnat : 0 ≤ s.members.appPrimaries := Int.natCast_nonneg _
    have hzero : s.members.appPrimaries = 0 := by omega
    have hactive := hgate hzero
    have hzero₁ : s₁.members.appPrimaries = 0 := by
      rw [← hzero]
      exact congrArg Nat.cast (detected_count (fun _ _ => rfl) hdetect)
    have hel := ((seedStage_seeds hseed).first hzero₁).2
    rw [detected_count (fun _ _ => rfl) hdetect] at hel
    have hmono : GoMap.count Member.eligible s.members
        ≤ GoMap.count Member.online s.members :=
      GoMap.count_mono fun _ _ _ hel => (Member.eligible_iff.mp hel).1
    unfold MemberSet.activeMembers at hactive
    omega
  · exact absurd hbody (hnever _ _)

section LookingBack

variable {ms₁ ms₂ ms₃ ms₄ : MemberSet}

/-- A failure at the end is one of the seeding. -/
theorem SizedBy.failed_before
    (h : SizedBy replicas primaries ms ms₁ ms₂ ms₃ ms₄ ms')
    (hm : ms'.lookup k = some m) (hfail : m.appFailed = true) :
    ms₂.lookup k = some m := by
  have hm₄ : ms₄.lookup k = some m :=
    steps_back (I := fun ms => ms.lookup k = some m)
      (fun _ _ hone => hone.2.failed_before (fun _ => rfl) hfail) h.added hm
  have hm₃ : ms₃.lookup k = some m :=
    steps_back (I := fun ms => ms.lookup k = some m)
      (fun _ _ hone => hone.2.failed_before (fun _ => rfl) hfail)
      h.demoted hm₄
  exact steps_back (I := fun ms => ms.lookup k = some m)
    (fun _ _ hone => hone.2.failed_before (fun _ => rfl) hfail)
    h.promoted hm₃

/-- Whoever is online runs in the end. -/
theorem SizedBy.all_run
    (h : SizedBy replicas primaries ms ms₁ ms₂ ms₃ ms₄ ms')
    (hcomplete : ms.activeMembers = replicas)
    (hm : ms'.lookup k = some m) (hon : m.online = true) :
    m.appRunning = true := by
  have hactive := h.active
  obtain ⟨-, hmembers⟩ := h.target (by omega)
  exact MemberSet.running_of_full (by omega) hm hon

/-- One who is there in the end and no primary is one who is not wanted
as one. -/
theorem SizedBy.few
    (h : SizedBy replicas primaries ms ms₁ ms₂ ms₃ ms₄ ms')
    (hcomplete : ms.activeMembers = replicas)
    (hm : ms'.lookup k = some m) (hon : m.online = true)
    (hpr : m.appPrimary = false) : primaries < replicas := by
  have hactive := h.active
  obtain ⟨hprimaries, -⟩ := h.target (by omega)
  by_contra hmany
  rw [MemberSet.primary_of_full (by omega) hm hon] at hpr
  cases hpr

end LookingBack

/-- A call that reports nothing and leaves a failed member started in a
state that swallows failures. -/
theorem swallows_of_silent (hs : s.members.WellKeyed)
    (hfine : ∀ k m, s.members.lookup k = some m → m.appFailed = false)
    (h : replicate env fuel s = .ret [] s')
    (hm : s'.members.lookup k = some m) (hfail : m.appFailed = true) :
    Swallows s := by
  obtain ⟨ms₁, ms₂, ms₃, ms₄, hsized, hlargest⟩ :=
    replicate_steps (replicas_pos_of_silent h) h
  have hm₂ := hsized.failed_before hm hfail
  rcases hsized.seeded with ⟨-, hsame⟩ | ⟨hzero₁, ms₀, hfails, hstart⟩
  · -- without a seeding loop there is no failure
    rw [hsame] at hm₂
    rw [rereads_healthy hsized.reread hfine k m hm₂] at hfail
    cases hfail
  · have honly : OnlyFailed s.members ms₀ :=
      steps_keep (I := OnlyFailed s.members)
        (fun _ _ hone hms => hms.failure hfine hone) hfails
        (OnlyFailed.of_rereads hfine hsized.reread)
    have hm₀ := hstart.failed_before (fun _ => rfl) hfail hm₂
    obtain ⟨mf, hmf, -, hon, hpr, hrun, hel⟩ := honly k m hm₀
    obtain ⟨honf, -, hprf⟩ := Member.eligible_iff.mp (hel hfail)
    have hzero : s.members.appPrimaries = 0 := by
      rw [← hzero₁]
      exact congrArg Nat.cast
        (rereads_count (fun _ _ => rfl) hsized.reread).symm
    have hcomplete := hsized.gate hzero
    refine ⟨hzero, hcomplete, hsized.few hcomplete hm (hon.trans honf)
      (hpr.trans hprf), ?_⟩
    obtain ⟨w, mw₀, hw₀, hwel₀, hs₂⟩ := hstart
    obtain ⟨mw, hmw, hnamew, honw, hprw, -⟩ := honly w mw₀ hw₀
    obtain ⟨honw₀, hfail₀, hprw₀⟩ := Member.eligible_iff.mp hwel₀
    refine ⟨k, mf, w, mw, hmf, hmw, ?_, hel hfail, ?_, ?_, ?_⟩
    · intro heq
      subst heq
      obtain rfl : mw₀ = m := Option.some.inj (hw₀.symm.trans hm₀)
      rw [hfail₀] at hfail
      cases hfail
    · rw [← hrun]
      exact hsized.all_run hcomplete hm (hon.trans honf)
    · exact Member.eligible_iff.mpr ⟨honw.symm.trans honw₀,
        hfine w mw hmw, hprw.symm.trans hprw₀⟩
    · intro z mz hmz honz hprz
      by_contra hnot
      have hz : Stale z s.members :=
        Stale.of_marked hs hzero hmz (hfine z mz hmz) honz hprz
      have hz₁ : Stale z ms₁ :=
        steps_keep (fun _ _ hone hz => hz.reread hone) hsized.reread hz
      have hz₀ : Stale z ms₀ :=
        steps_keep (fun _ _ hone hz => hz.write hone) hfails hz₁
      have hzero₀ : ms₀.appPrimaries = 0 := by
        rw [← hzero₁]
        exact steps_eq (fun _ _ hone => congrArg Nat.cast
          (hone.count (p := Member.isPrimary) fun _ _ => rfl)) hfails
      obtain ⟨m', hm', -, hon', -, -, hrun'⟩ := Stale.unless_demoted
        hzero₀ hw₀ hwel₀ (hnamew.trans (hs w mw hmw))
        (hs₂ ▸ hsized.promoted) hlargest hsized.added
        s.spec.getNumPrimaries_nonneg hz₀ hnot
      rw [hsized.all_run hcomplete hm' hon'] at hrun'
      cases hrun'

end RssOperator
