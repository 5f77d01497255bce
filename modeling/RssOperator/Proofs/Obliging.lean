/-
A `replicate` in a world that does what it is asked for.

# The world

`Env.Obliging` is the world after the last fault: every command reaches its
container, starts and stops succeed, a status check gives one of the three
codes that say something, and pods can be deleted. What the status checks
say, the sequence numbers, and everything about the resource stay open.

# The call

`replicate` is then a sequence of counts. `MemberSet.Whole` is kept by
everything it does: nobody has failed, and the flags of a member make
sense. With all pods there the next member to start or to stop is always
found, so seeding, promotion and demotion end with exactly the primaries
that are asked for. The loop that adds secondaries may go round for ever
if more than one is missing (`secondaries_never_end`), so it is asked that
the spec leaves room for one secondary at most (`replicate_obliging`).
-/
import RssOperator.Proofs.Gating
import RssOperator.Proofs.Primaries

namespace RssOperator

variable {env : Env} {s s' : Sys} {ms : MemberSet} {k : String}
  {m : Member} {fuel : Nat} {n p : Int}

-- =========================================================== the world

/-- What the operator asks for is done. -/
structure Env.Obliging (env : Env) : Prop where
  reached : ∀ i call pod, (env.exec i call pod).streamed = true
  started : ∀ i key asPrimary pod,
    (env.exec i (.start key asPrimary) pod).succeeds = true
  stopped : ∀ i pod, (env.exec i .stop pod).succeeds = true
  told : ∀ i pod, (env.exec i .status pod).rc ∈ [(0 : Int), 7, 8]
  deleted : ∀ i pod, env.delete i pod = none

theorem startAppMember_obliging (henv : env.Obliging) (asPrimary : Bool)
    (hm : s.members.lookup k = some m) :
    (startAppMember env k asPrimary s).1 = none
      ∧ (startAppMember env k asPrimary s).2.members
        = s.members.modify k (Member.noteStarted asPrimary) := by
  have hok : (s.startAnswer env asPrimary m).succeeds = true :=
    henv.started _ _ _ _
  rw [startAppMember_eq asPrimary hm, if_pos hok]
  exact ⟨rfl, Sys.members_started asPrimary⟩

theorem stopAppMember_obliging (henv : env.Obliging)
    (hm : s.members.lookup k = some m) :
    (stopAppMember env k s).1 = none
      ∧ (stopAppMember env k s).2.members
        = s.members.modify k Member.noteStopped := by
  have hok : (s.stopAnswer env m).succeeds = true := henv.stopped _ _
  rw [stopAppMember_eq hm, if_pos hok]
  exact ⟨rfl, Sys.members_stopped _⟩

-- ======================================================== the members

/-- The flags make sense, and nothing has failed. -/
structure Member.Whole (m : Member) : Prop where
  fine : m.appFailed = false
  running : m.appPrimary = true → m.appRunning = true
  online : m.appRunning = true → m.online = true

namespace MemberSet

def Whole (ms : MemberSet) : Prop :=
  ∀ k m, ms.lookup k = some m → m.Whole

theorem Whole.modify {f : Member → Member} (h : ms.Whole)
    (hm : ms.lookup k = some m) (hf : (f m).Whole) :
    Whole (ms.modify k f) := by
  intro k₁ m₁ hm₁
  rcases GoMap.lookup_modify_known hm hm₁ with ⟨-, rfl⟩ | ⟨-, hm₁⟩
  · exact hf
  · exact h k₁ m₁ hm₁

theorem Whole.reread (h : ms.Whole) {ms' : MemberSet}
    (hread : Reread ms ms') : ms'.Whole := by
  obtain ⟨k, seq, rfl⟩ := hread
  intro k₁ m₁ hm₁
  rcases GoMap.lookup_modify_some hm₁ with ⟨rfl, m₀, hm₀, rfl⟩ | hm₁
  · exact ⟨(h _ m₀ hm₀).fine, (h _ m₀ hm₀).running, (h _ m₀ hm₀).online⟩
  · exact h k₁ m₁ hm₁

/-- With a pod that is no primary there is a candidate. -/
theorem Whole.exists_eligible (h : ms.Whole)
    (hlt : ms.appPrimaries < ms.activeMembers) :
    ∃ k m, ms.lookup k = some m ∧ m.eligible = true := by
  by_contra hnone
  have hle : GoMap.count Member.online ms ≤ GoMap.count Member.isPrimary ms := by
    refine GoMap.count_mono fun k m hm hon => ?_
    cases hpr : m.appPrimary with
    | true => exact Member.isPrimary_iff.mpr ⟨hon, hpr, (h k m hm).running hpr⟩
    | false =>
        exact absurd ⟨k, m, hm, Member.eligible_iff.mpr
          ⟨hon, (h k m hm).fine, hpr⟩⟩ hnone
  unfold appPrimaries activeMembers at hlt
  omega

theorem appPrimaries_promoted (hm : ms.lookup k = some m)
    (hel : m.eligible = true) :
    appPrimaries (ms.modify k (Member.noteStarted true))
      = ms.appPrimaries + 1 := by
  obtain ⟨hon, -, hpr⟩ := Member.eligible_iff.mp hel
  have hcount := GoMap.count_modify (p := Member.isPrimary)
    (Member.noteStarted true) hm
  have hbefore : m.isPrimary = false := by simp [Member.isPrimary, hpr]
  have hafter : (m.noteStarted true).isPrimary = true :=
    Member.isPrimary_iff.mpr ⟨hon, rfl, rfl⟩
  rw [hbefore, hafter] at hcount
  unfold appPrimaries
  simp only [Bool.toNat_false, Bool.toNat_true] at hcount
  omega

theorem activeMembers_noteStarted (asPrimary : Bool) (ms : MemberSet)
    (k : String) :
    activeMembers (ms.modify k (Member.noteStarted asPrimary))
      = ms.activeMembers :=
  congrArg Nat.cast (GoMap.count_modify_eq (p := Member.online)
    (f := Member.noteStarted asPrimary) k (fun _ => rfl) ms)

theorem activeMembers_noteStopped (ms : MemberSet) (k : String) :
    activeMembers (ms.modify k Member.noteStopped) = ms.activeMembers :=
  congrArg Nat.cast (GoMap.count_modify_eq (p := Member.online)
    (f := Member.noteStopped) k (fun _ => rfl) ms)

end MemberSet

theorem Member.whole_noteStarted (asPrimary : Bool)
    (hel : m.eligible = true) : (m.noteStarted asPrimary).Whole :=
  ⟨rfl, fun _ => rfl, fun _ => (Member.eligible_iff.mp hel).1⟩

theorem Member.whole_noteStopped (m : Member) : m.noteStopped.Whole where
  fine := rfl
  running h := by cases h
  online h := by cases h

/-- `n` pods are there, and all is well with them. -/
def Sys.Full (n : Int) (s : Sys) : Prop :=
  s.members.Whole ∧ s.members.activeMembers = n

-- =============================================================== turns

/-- Promotion raises the number of primaries by one. -/
theorem promoteTurn_obliging (henv : env.Obliging) (hs : s.Full n)
    (hp : p ≤ n) :
    Sum.elim
      (fun st => st.2 = [] ∧ st.1.Full n ∧ s.members.appPrimaries < p
        ∧ st.1.members.appPrimaries = s.members.appPrimaries + 1)
      (fun st => st = (s, []) ∧ p ≤ s.members.appPrimaries)
      (promoteTurn env p (s, [])) := by
  obtain ⟨hwhole, hactive⟩ := hs
  by_cases hlt : s.members.appPrimaries < p
  · obtain ⟨k, m, hm, hel⟩ := hwhole.exists_eligible (by omega)
    obtain ⟨e, he⟩ := chooseMember_of_eligible (s.order env) hm hel
    rw [← Sys.peers_of_lookup hm] at he
    obtain ⟨hm', hel'⟩ := lookup_of_chooseMember he
    obtain ⟨hok, hmem⟩ := @startAppMember_obliging env (s.ranged 1) e.1 e.2
      henv true hm'
    have hcount := MemberSet.appPrimaries_promoted hm' hel'
    have hpos : (0 : Int) ≤ s.members.appPrimaries := Int.natCast_nonneg _
    unfold promoteTurn
    dsimp only
    rw [if_pos hlt, he]
    dsimp only
    rw [hok, hmem, Sys.members_ranged, if_neg (by omega)]
    refine ⟨rfl, ⟨?_, ?_⟩, hlt, ?_⟩
    · rw [hmem]
      exact hwhole.modify hm' (Member.whole_noteStarted true hel')
    · rw [hmem, Sys.members_ranged, MemberSet.activeMembers_noteStarted,
        hactive]
    · rw [hmem]
      exact hcount
  · rw [promoteTurn_done (by omega)]
    exact ⟨rfl, by omega⟩

/-- Demotion lowers it by one. -/
theorem demoteTurn_obliging (henv : env.Obliging) (hs : s.Full n)
    (hp : 0 ≤ p) :
    Sum.elim
      (fun st => st.2 = [] ∧ st.1.Full n ∧ p < s.members.appPrimaries
        ∧ st.1.members.appPrimaries = s.members.appPrimaries - 1)
      (fun st => st = (s, []) ∧ s.members.appPrimaries ≤ p)
      (demoteTurn env p (s, [])) := by
  obtain ⟨hwhole, hactive⟩ := hs
  by_cases hlt : p < s.members.appPrimaries
  · have hpos : 0 < GoMap.count Member.isPrimary s.members := by
      unfold MemberSet.appPrimaries at hlt
      omega
    obtain ⟨k, m, hm, hprimary⟩ := GoMap.count_pos_iff.mp hpos
    have hst : m.stoppable = true := Member.stoppable_iff.mpr
      ⟨(Member.isPrimary_iff.mp hprimary).2.1, (hwhole k m hm).fine⟩
    cases he : chooseCurrentPrimary s.c.peers (s.order env) with
    | error err =>
        rw [Sys.peers_of_lookup hm] at he
        rw [chooseCurrentPrimary_error he hm] at hst
        cases hst
    | ok e =>
        obtain ⟨hm', hst'⟩ := lookup_of_chooseCurrentPrimary he
        obtain ⟨hok, hmem⟩ := @stopAppMember_obliging env (s.ranged 1) e.1
          e.2 henv hm'
        have hwhole' := hwhole e.1 e.2 hm'
        have hrun := hwhole'.running (Member.stoppable_iff.mp hst').1
        have hcounted : e.2.isPrimary = true := Member.isPrimary_iff.mpr
          ⟨hwhole'.online hrun, (Member.stoppable_iff.mp hst').1, hrun⟩
        have hcount := appPrimaries_afterStop true hm'
        rw [hcounted] at hcount
        unfold demoteTurn
        dsimp only
        rw [if_pos hlt, he]
        dsimp only
        rw [hok]
        refine ⟨rfl, ⟨?_, ?_⟩, hlt, ?_⟩
        · rw [hmem]
          exact hwhole.modify hm' (Member.whole_noteStopped _)
        · rw [hmem, Sys.members_ranged, MemberSet.activeMembers_noteStopped,
            hactive]
        · rw [hmem]
          exact hcount
  · rw [demoteTurn_done (by omega)]
    exact ⟨rfl, by omega⟩

/-- The one secondary that is missing is the one that is started, as
nobody runs who is not a primary. -/
theorem secondaryTurn_obliging (henv : env.Obliging) (hs : s.Full n)
    (hroom : n ≤ p + 1) (hp : s.members.appPrimaries = p) :
    Sum.elim
      (fun st => st.2 = [] ∧ st.1.Full n ∧ s.members.appMembers < n
        ∧ st.1.members.appPrimaries = p
        ∧ st.1.members.appMembers = s.members.appMembers + 1)
      (fun st => st = (s, []) ∧ n ≤ s.members.appMembers)
      (secondaryTurn env n (s, [])) := by
  obtain ⟨hwhole, hactive⟩ := hs
  by_cases hlt : s.members.appMembers < n
  · have hfew := s.members.appPrimaries_le_appMembers
    obtain ⟨k, m, hm, hel⟩ := hwhole.exists_eligible (by omega)
    obtain ⟨e, he⟩ := chooseMember_of_eligible (s.order env) hm hel
    rw [← Sys.peers_of_lookup hm] at he
    obtain ⟨hm', hel'⟩ := lookup_of_chooseMember he
    obtain ⟨hon, -, hpr⟩ := Member.eligible_iff.mp hel'
    have hstopped : e.2.appRunning = false := by
      rw [← Bool.not_eq_true]
      intro hrun
      have hle : GoMap.count Member.isRunning s.members
          ≤ GoMap.count Member.isPrimary s.members := by
        unfold MemberSet.appMembers at hlt
        unfold MemberSet.appPrimaries at hp
        omega
      have hcounted := GoMap.of_count_le
        (fun m h => Member.isRunning_iff.mpr
          ⟨(Member.isPrimary_iff.mp h).1, (Member.isPrimary_iff.mp h).2.2⟩)
        hle hm' (Member.isRunning_iff.mpr ⟨hon, hrun⟩)
      rw [(Member.isPrimary_iff.mp hcounted).2.1] at hpr
      cases hpr
    obtain ⟨hok, hmem⟩ := @startAppMember_obliging env (s.ranged 1) e.1 e.2
      henv false hm'
    unfold secondaryTurn
    dsimp only
    rw [if_pos hlt, he]
    dsimp only
    rw [hok]
    refine ⟨rfl, ⟨?_, ?_⟩, hlt, ?_, ?_⟩
    · rw [hmem]
      exact hwhole.modify hm' (Member.whole_noteStarted false hel')
    · rw [hmem, Sys.members_ranged, MemberSet.activeMembers_noteStarted,
        hactive]
    · rw [hmem, ← hp]
      exact Adds.appPrimaries ⟨hlt, e.1, e.2, hm', hel', rfl⟩
    · rw [hmem]
      exact MemberSet.appMembers_noteStarted hm' hel' hstopped
  · rw [secondaryTurn_done (by omega)]
    exact ⟨rfl, by omega⟩

-- ============================================================== stages

/-- A loop that makes no error and whose turns count down. -/
theorem loopStage_total {I Q : Sys → Prop}
    {turn : Sys × List Err → (Sys × List Err) ⊕ (Sys × List Err)}
    (μ : Sys → Nat)
    (hturn : ∀ s, I s → Sum.elim
      (fun st => st.2 = [] ∧ I st.1 ∧ μ st.1 < μ s)
      (fun st => st.2 = [] ∧ Q st.1) (turn (s, [])))
    (hs : I s) (hfuel : μ s < fuel) :
    ∃ s', loopStage turn fuel [] s = .ret [] s' ∧ Q s' := by
  have hbody : ∀ st : Sys × List Err, st.2 = [] ∧ I st.1 →
      Sum.elim (fun st' => (st'.2 = [] ∧ I st'.1) ∧ μ st'.1 < μ st.1)
        (fun st' => st'.2 = [] ∧ Q st'.1) (turn st) := by
    rintro ⟨s, errors⟩ ⟨rfl, hs⟩
    have hone := hturn s hs
    cases hb : turn (s, []) with
    | inl st =>
        rw [hb] at hone
        exact ⟨⟨hone.1, hone.2.1⟩, hone.2.2⟩
    | inr st =>
        rw [hb] at hone
        exact hone
  obtain ⟨st, hloop, hnil, hQ⟩ := loop_total (fun st => μ st.1) hbody fuel
    (s, []) ⟨rfl, hs⟩ hfuel
  obtain ⟨s', errors⟩ := st
  obtain rfl : errors = [] := hnil
  refine ⟨s', ?_, hQ⟩
  unfold loopStage
  rw [if_pos rfl, hloop]

theorem promoteStage_obliging (henv : env.Obliging) (hs : s.Full n)
    (hp : p ≤ n) (hfuel : n.toNat < fuel) :
    ∃ s', loopStage (promoteTurn env p) fuel [] s = .ret [] s'
      ∧ s'.Full n ∧ p ≤ s'.members.appPrimaries := by
  refine loopStage_total (I := Sys.Full n)
    (fun s => (p - s.members.appPrimaries).toNat) ?_ hs ?_
  · intro s hs
    have hturn := promoteTurn_obliging henv hs hp
    cases hb : promoteTurn env p (s, []) with
    | inl st =>
        rw [hb] at hturn
        obtain ⟨hnil, hfull, hlt, hcount⟩ := hturn
        exact ⟨hnil, hfull, by omega⟩
    | inr st =>
        rw [hb] at hturn
        obtain ⟨rfl, hdone⟩ := hturn
        exact ⟨rfl, hs, hdone⟩
  · have hpos : (0 : Int) ≤ s.members.appPrimaries := Int.natCast_nonneg _
    omega

theorem demoteStage_obliging (henv : env.Obliging) (hs : s.Full n)
    (hp : 0 ≤ p) (henough : p ≤ s.members.appPrimaries)
    (hfuel : n.toNat < fuel) :
    ∃ s', loopStage (demoteTurn env p) fuel [] s = .ret [] s'
      ∧ s'.Full n ∧ s'.members.appPrimaries = p := by
  have hle : s.members.appPrimaries ≤ n := by
    have h₁ := s.members.appPrimaries_le_appMembers
    have h₂ := s.members.appMembers_le_active
    rw [← hs.2]
    omega
  refine loopStage_total
    (I := fun s => s.Full n ∧ p ≤ s.members.appPrimaries)
    (fun s => (s.members.appPrimaries - p).toNat) ?_ ⟨hs, henough⟩
    (by omega)
  rintro s ⟨hs, henough⟩
  have hturn := demoteTurn_obliging henv hs hp
  cases hb : demoteTurn env p (s, []) with
  | inl st =>
      rw [hb] at hturn
      obtain ⟨hnil, hfull, hlt, hcount⟩ := hturn
      exact ⟨hnil, ⟨hfull, by omega⟩, by omega⟩
  | inr st =>
      rw [hb] at hturn
      obtain ⟨rfl, hdone⟩ := hturn
      exact ⟨rfl, hs, Int.le_antisymm hdone henough⟩

theorem secondaryStage_obliging (henv : env.Obliging) (hs : s.Full n)
    (hroom : n ≤ p + 1) (hp : s.members.appPrimaries = p)
    (hfuel : n.toNat < fuel) :
    ∃ s', loopStage (secondaryTurn env n) fuel [] s = .ret [] s'
      ∧ s'.Full n ∧ s'.members.appPrimaries = p
      ∧ n ≤ s'.members.appMembers := by
  refine loopStage_total
    (I := fun s => s.Full n ∧ s.members.appPrimaries = p)
    (fun s => (n - s.members.appMembers).toNat) ?_ ⟨hs, hp⟩ ?_
  · rintro s ⟨hs, hp⟩
    have hturn := secondaryTurn_obliging henv hs hroom hp
    cases hb : secondaryTurn env n (s, []) with
    | inl st =>
        rw [hb] at hturn
        obtain ⟨hnil, hfull, hlt, hprimaries, hcount⟩ := hturn
        exact ⟨hnil, ⟨hfull, hprimaries⟩, by omega⟩
    | inr st =>
        rw [hb] at hturn
        obtain ⟨rfl, hdone⟩ := hturn
        exact ⟨rfl, hs, hp, hdone⟩
  · have hpos : (0 : Int) ≤ s.members.appMembers := Int.natCast_nonneg _
    omega

theorem seedStage_obliging (henv : env.Obliging) (hs : s.Full n)
    (hn : 0 < n) :
    ∃ s', seedStage env s = (none, s') ∧ s'.Full n
      ∧ s'.members.appPrimaries ≠ 0 := by
  obtain ⟨hwhole, hactive⟩ := hs
  by_cases hzero : s.members.appPrimaries = 0
  · obtain ⟨k, m, hm, hel⟩ := hwhole.exists_eligible (by omega)
    have hcand : (k, m) ∈ candidates s.members (s.order env) :=
      mem_candidates.mpr ⟨hm, hel⟩
    have hne := List.ne_nil_of_mem hcand
    obtain ⟨e, seeds, hseeds, -⟩ := fromFirstTop_head hne
    have hchosen : chooseSeeds s.c.peers (s.order env)
        = .ok (e :: seeds) := by
      rw [Sys.peers_of_lookup hm, chooseSeeds_eq, if_neg hne, hseeds]
    obtain ⟨hm', hel'⟩ := (startable_seeds hchosen).2 e List.mem_cons_self
    have hloop := @seedLoop_cons_ok env (s.ranged 1) e seeds [] hm' hel'
      (henv.started _ _ _ _)
    have hmem : (tagAppMember env e.1 true
        ((s.ranged 1).started env e.1 true e.2)).2.members
        = s.members.modify e.1 (Member.noteStarted true) :=
      Sys.members_started true
    have hcount := MemberSet.appPrimaries_noteStarted hm' hel'
    unfold seedStage
    rw [if_pos hzero, hchosen]
    dsimp only
    rw [hloop, hmem, if_neg hcount]
    refine ⟨_, rfl, ⟨?_, ?_⟩, ?_⟩
    · rw [hmem]
      exact hwhole.modify hm' (Member.whole_noteStarted true hel')
    · rw [hmem, MemberSet.activeMembers_noteStarted, hactive]
    · rw [hmem]
      exact hcount
  · unfold seedStage
    rw [if_neg hzero]
    exact ⟨s, rfl, ⟨hwhole, hactive⟩, hzero⟩

theorem detectStage_full (env : Env) (hs : s.Full n)
    (hkeyed : s.members.WellKeyed) :
    ∃ s', detectStage env s = .ret () s' ∧ s'.Full n := by
  obtain ⟨s', hret⟩ := detectStage_returns env hkeyed
  have hread := @detectStage_rereads env s
  rw [hret, Outcome.state_ret] at hread
  refine ⟨s', hret, ?_, ?_⟩
  · exact steps_keep (fun _ _ hr h => h.reread hr) hread hs.1
  · exact (steps_eq (fun _ _ hr => hr.active) hread).trans hs.2

-- ============================================================ the call

/-- The spec can be met: pods are asked for, and at most one of them as a
secondary. -/
structure ClusterSpec.Attainable (spec : ClusterSpec) : Prop where
  active : spec.paused = false
  replicas : 0 < spec.getNumReplicas
  primaries : 1 ≤ spec.getNumPrimaries
  room : spec.getNumReplicas ≤ spec.getNumPrimaries + 1
  secondary : spec.getNumReplicas = spec.getNumPrimaries
    ∨ (spec.commands .secondary).isSome = true

theorem ClusterSpec.getNumPrimaries_le (spec : ClusterSpec)
    (hpos : 0 < spec.getNumReplicas) :
    spec.getNumPrimaries ≤ spec.getNumReplicas := by
  unfold getNumPrimaries
  dsimp only
  split
  · exact Int.le_refl _
  · split
    · omega
    · split
      · exact Int.le_refl _
      · omega

/-- With all pods there `replicate` comes back without an error and has met
the spec. Where no secondary is asked for, none is started. -/
theorem replicate_obliging (henv : env.Obliging)
    (hspec : s.spec.Attainable) (hs : s.Full s.spec.getNumReplicas)
    (hkeyed : s.members.WellKeyed)
    (hfuel : s.spec.getNumReplicas.toNat < fuel) :
    ∃ s', replicate env fuel s = .ret [] s'
      ∧ s'.Full s.spec.getNumReplicas
      ∧ s'.members.appPrimaries = s.spec.getNumPrimaries
      ∧ s'.members.appMembers = s.spec.getNumReplicas
      ∧ (s.spec.getNumReplicas = s.spec.getNumPrimaries →
          Acts env Event.raising s s') := by
  have hle := s.spec.getNumPrimaries_le hspec.replicas
  have hone := hspec.primaries
  have hactive := hs.2
  have hfits := s.members.appMembers_le_active
  obtain ⟨s₁, hdetect, hs₁⟩ := detectStage_full env hs hkeyed
  obtain ⟨s₂, hseed, hs₂, -⟩ := seedStage_obliging henv hs₁ hspec.replicas
  obtain ⟨s₃, hpromote, hs₃, henough⟩ :=
    promoteStage_obliging henv hs₂ hle hfuel
  obtain ⟨s₄, hdemote, hs₄, hexact⟩ :=
    demoteStage_obliging henv hs₃ (by omega) henough hfuel
  obtain ⟨s₅, hadd, hs₅, hprimaries, hmembers⟩ :=
    secondaryStage_obliging henv hs₄ hspec.room hexact hfuel
  have F := Steady.frame env
  have hsize : ReachesSizing env s s₂ :=
    ⟨by omega, fun _ => hactive, s₁, hdetect, hseed⟩
  have hspec₅ : s₅.spec = s.spec :=
    (spec_loopStage env (F.secondaryTurn _) hadd).trans
      ((spec_loopStage env (F.demoteTurn _) hdemote).trans
        ((spec_loopStage env (F.promoteTurn _) hpromote).trans hsize.spec))
  have hret : replicate env fuel s
      = .ret [] (updateCRStatus env "replicate" s₅).2 := by
    unfold replicate replicateBody
    dsimp only
    rw [if_neg (by omega), if_neg (by omega), replicateStages, hdetect,
      Outcome.ret_andThen, hseed]
    dsimp only
    rw [sizeStages, hpromote, Outcome.ret_andThen, hdemote,
      Outcome.ret_andThen, hadd, Outcome.ret_andThen, finishStage,
      if_pos ⟨rfl, hspec₅ ▸ hspec.replicas⟩, Outcome.ret_andThen]
  have hquiet := @Quiet.updateCRStatus env "replicate" s₅
  have hmost := s₅.members.appMembers_le_active
  refine ⟨_, hret, ?_, ?_, ?_, fun hall => ?_⟩
  · unfold Sys.Full
    rw [hquiet.members]
    exact hs₅
  · rw [hquiet.members]
    exact hprimaries
  · rw [hquiet.members]
    have := hs₅.2
    omega
  · -- the last two loops have nothing to do
    have hrun := s₃.members.appPrimaries_le_appMembers
    have hmost₃ := s₃.members.appMembers_le_active
    have hactive₃ := hs₃.2
    have hpos : 0 < fuel := by omega
    rw [loopStage_done hpos (demoteTurn_done (by omega) [])] at hdemote
    injection hdemote with _ h₄
    subst h₄
    rw [loopStage_done hpos (secondaryTurn_done (by omega))] at hadd
    injection hadd with _ h₅
    subst h₅
    have hdet := (@detectStage_acts env s).1
    have hraise := (@seedStage_acts env s₁).mono
      (Event.raises_of_seedStart s.spec.getNumPrimaries)
    have hloop := @loopStage_acts env _ s₂ _ _
      (promoteTurn_raises s.spec.getNumPrimaries) fuel [] trivial
    rw [hdetect, Outcome.state_ret] at hdet
    rw [hseed] at hraise
    rw [hpromote, Outcome.state_ret] at hloop
    exact (((hdet.mono Event.raising_of_detection).trans
      (hraise.mono Event.raising_of_raises)).trans
        (hloop.mono Event.raising_of_raises)).trans (Acts.quiet hquiet)

end RssOperator
