/-
The loop that starts secondaries: when it ends.

# What a turn does

`for AppMembers() < replicas` picks a member with `chooseMember` and
starts it as a secondary. `chooseMember` does not look at `AppRunning`,
so a secondary that has been started is a candidate again; starting it
once more changes nothing, and in a fixed visiting order it is picked
once more.

# When the loop ends

A failed start takes its member out of the candidates, a successful
start of a stopped member adds one to the count. So the loop ends if the
count is reached, if there is nobody to pick, or if one more member is
enough and no candidate runs yet (`secondaries_end`). In every other
state there are answers that keep it going for ever: fail the stopped
members until a running one is picked, then let every start succeed
(`hangs_of_running`). `secondaries_end_iff` puts the two together.
-/
import RssOperator.Proofs.Refinement

namespace RssOperator

variable {env : Env} {s s' : Sys} {ms : MemberSet} {k : String} {m : Member}
  {replicas : Int} {errors errors' : List Err}

-- ============================================================ one turn

/-- There is a member to pick if there is a candidate. -/
theorem chooseMember_of_eligible (o : Order String)
    (hm : ms.lookup k = some m) (hel : m.eligible = true) :
    ∃ e, chooseMember (some ms) o = .ok e := by
  cases h : chooseMember (some ms) o with
  | ok e => exact ⟨e, rfl⟩
  | error err =>
      rw [chooseMember_error_iff.mp ⟨err, h⟩ k m hm] at hel
      cases hel

/-- A turn that goes round again has started a candidate. -/
theorem secondaryTurn_inl
    (h : secondaryTurn env replicas (s, errors) = .inl (s', errors')) :
    s.members.appMembers < replicas
      ∧ ∃ k m, s.members.lookup k = some m ∧ m.eligible = true
        ∧ (s'.members = s.members.modify k (Member.noteStarted false)
          ∨ s'.members = s.members.modify k Member.noteFailure) := by
  unfold secondaryTurn at h
  dsimp only at h
  split at h
  · next hlt =>
    split at h
    · cases h
    · next e he =>
      obtain ⟨hm, hel⟩ := lookup_of_chooseMember he
      have hm' : (s.ranged 1).members.lookup e.1 = some e.2 := hm
      refine ⟨hlt, e.1, e.2, hm, hel, ?_⟩
      rw [startAppMember_eq false hm'] at h
      injection h with h
      injection h with hs' _
      rw [← hs']
      split
      · left
        exact Sys.members_started false
      · right
        exact Sys.members_startFailed false
  · cases h

-- ============================================================= counting

theorem MemberSet.appMembers_noteFailure (ms : MemberSet) (k : String) :
    MemberSet.appMembers (ms.modify k Member.noteFailure)
      = ms.appMembers :=
  congrArg Nat.cast (GoMap.count_modify_eq (p := Member.isRunning)
    (f := Member.noteFailure) k (fun _ => rfl) ms)

/-- Starting a stopped candidate adds one to the members. -/
theorem MemberSet.appMembers_noteStarted (hm : ms.lookup k = some m)
    (hel : m.eligible = true) (hstop : m.appRunning = false) :
    MemberSet.appMembers (ms.modify k (Member.noteStarted false))
      = ms.appMembers + 1 := by
  have hcount := GoMap.count_modify (p := Member.isRunning)
    (Member.noteStarted false) hm
  have hon := (Member.eligible_iff.mp hel).1
  have hbefore : m.isRunning = false := by
    simp [Member.isRunning, hstop]
  have hafter : (m.noteStarted false).isRunning = true := by
    simp [Member.isRunning, Member.noteStarted, hon]
  rw [hbefore, hafter] at hcount
  unfold appMembers
  simp only [Bool.toNat_false, Bool.toNat_true] at hcount
  omega

/-- A failed start takes a candidate out. -/
theorem count_eligible_noteFailure (hm : ms.lookup k = some m)
    (hel : m.eligible = true) :
    GoMap.count Member.eligible (ms.modify k Member.noteFailure) + 1
      = GoMap.count Member.eligible ms := by
  have hcount := GoMap.count_modify (p := Member.eligible)
    Member.noteFailure hm
  have hafter : m.noteFailure.eligible = false := by
    simp [Member.eligible, Member.noteFailure]
  rw [hel, hafter] at hcount
  exact hcount

/-- The candidates after a failed start were candidates before. -/
theorem eligible_of_noteFailure {k₁ : String} {m₁ : Member}
    (h : (ms.modify k Member.noteFailure).lookup k₁ = some m₁)
    (hel : m₁.eligible = true) : ms.lookup k₁ = some m₁ := by
  rcases GoMap.lookup_modify_some h with ⟨-, m₀, -, rfl⟩ | h
  · simp [Member.eligible, Member.noteFailure] at hel
  · exact h

-- ========================================================= termination

/-- One more member is enough, and no candidate runs yet. -/
def LastMissing (replicas : Int) (ms : MemberSet) : Prop :=
  ms.appMembers + 1 = replicas
    ∧ ∀ k m, ms.lookup k = some m → m.eligible = true →
        m.appRunning = false

/-- The turns left: one for every candidate that may still fail, and one
for the test that ends the loop. -/
def turnsLeft (replicas : Int) (st : Sys × List Err) : Nat :=
  if st.1.members.appMembers < replicas then
    GoMap.count Member.eligible st.1.members + 1
  else 0

theorem secondaryTurn_decreases {st st' : Sys × List Err}
    (hs : replicas ≤ st.1.members.appMembers
      ∨ LastMissing replicas st.1.members)
    (h : secondaryTurn env replicas st = .inl st') :
    (replicas ≤ st'.1.members.appMembers
        ∨ LastMissing replicas st'.1.members)
      ∧ turnsLeft replicas st' < turnsLeft replicas st := by
  obtain ⟨hlt, k, m, hm, hel, hmembers⟩ := secondaryTurn_inl h
  rcases hs with hfull | ⟨hone, hstopped⟩
  · omega
  · unfold turnsLeft
    rw [if_pos hlt]
    rcases hmembers with hmembers | hmembers
    · -- the member that was missing is there
      have hcount := MemberSet.appMembers_noteStarted hm hel
        (hstopped k m hm hel)
      rw [hmembers, if_neg (by omega)]
      exact ⟨Or.inl (by omega), Nat.succ_pos _⟩
    · have hsame := MemberSet.appMembers_noteFailure st.1.members k
      have hfewer := count_eligible_noteFailure hm hel
      rw [hmembers, hsame, if_pos hlt]
      refine ⟨Or.inr ⟨by omega, fun k₁ m₁ hm₁ hel₁ => ?_⟩, by omega⟩
      exact hstopped k₁ m₁ (eligible_of_noteFailure hm₁ hel₁) hel₁

theorem secondaryTurn_error
    (h : ∀ k m, s.members.lookup k = some m → m.eligible = false)
    (errors : List Err) :
    ∃ st', secondaryTurn env replicas (s, errors) = .inr st' := by
  cases hturn : secondaryTurn env replicas (s, errors) with
  | inr st' => exact ⟨st', rfl⟩
  | inl st' =>
      obtain ⟨-, k, m, hm, hel, -⟩ := secondaryTurn_inl hturn
      rw [h k m hm] at hel
      cases hel

/-- In these states the loop ends, whatever the answers. -/
theorem secondaries_end
    (h : replicas ≤ s.members.appMembers
      ∨ (∀ k m, s.members.lookup k = some m → m.eligible = false)
      ∨ LastMissing replicas s.members)
    (env : Env) (errors : List Err) :
    Ends (secondaryTurn env replicas) (s, errors) := by
  have hmeasure : replicas ≤ s.members.appMembers
      ∨ LastMissing replicas s.members →
      Ends (secondaryTurn env replicas) (s, errors) := by
    intro hs
    obtain ⟨a, ha⟩ := ends_of_measure (turnsLeft replicas)
      (fun _ _ => secondaryTurn_decreases) (s, errors) hs
    exact ⟨_, a, ha⟩
  rcases h with hfull | hnobody | hlast
  · exact hmeasure (Or.inl hfull)
  · obtain ⟨st', hst'⟩ := @secondaryTurn_error env s replicas hnobody errors
    exact ⟨1, st', loop_of_end hst'⟩
  · exact hmeasure (Or.inr hlast)

-- ============================================================ for ever

/-- One turn in a world that decides by the number of the command. -/
theorem secondaryTurn_deciding {b : Nat → Bool} {e : String × Member}
    (hp : s.c.peers = some ms) (hlt : ms.appMembers < replicas)
    (he : chooseMember (some ms) (Order.stored String) = .ok e)
    (errors : List Err) :
    ∃ s' errors', secondaryTurn (.deciding b) replicas (s, errors)
        = .inl (s', errors')
      ∧ s'.execs = s.execs + 1
      ∧ s'.c.peers = some (ms.modify e.1
        (if b s.execs then Member.noteStarted false
          else Member.noteFailure)) := by
  have hms := Sys.members_of_peers hp
  have hm : (s.ranged 1).members.lookup e.1 = some e.2 := by
    rw [Sys.members_ranged, hms]
    exact (chooseMember_ok he).1
  have hchoose : chooseMember s.c.peers (s.order (.deciding b)) = .ok e := by
    rw [hp]
    exact he
  unfold secondaryTurn
  dsimp only
  rw [if_pos (hms ▸ hlt), hchoose]
  dsimp only
  rw [startAppMember_eq false hm]
  have hanswer : (s.ranged 1).startAnswer (.deciding b) false e.2
      = if b s.execs then .exitsZero "" else .exits 1 := rfl
  rw [hanswer]
  cases hb : b s.execs with
  | true =>
      refine ⟨_, _, rfl, rfl, ?_⟩
      show s.c.peers.map _ = _
      rw [hp]
      rfl
  | false =>
      refine ⟨_, _, rfl, rfl, ?_⟩
      show s.c.peers.map _ = _
      rw [hp]
      rfl

/-- The loop does not end from a state with these members at the `n`-th
command, whatever else the state and the errors are. -/
def Hangs (replicas : Int) (b : Nat → Bool) (ms : MemberSet) (n : Nat) :
    Prop :=
  ∀ s errors, s.c.peers = some ms → s.execs = n →
    ¬ Ends (secondaryTurn (.deciding b) replicas) (s, errors)

/-- Starting a secondary that runs changes nothing. -/
theorem Member.noteStarted_eq_self (hpr : m.appPrimary = false)
    (hrun : m.appRunning = true) (hfa : m.appFailed = false) :
    m.noteStarted false = m := by
  cases m
  simp_all [noteStarted]

/-- A running secondary is picked and every start succeeds: nothing
changes any more. -/
theorem hangs_of_pick {b : Nat → Bool} {n : Nat} {e : String × Member}
    (hlt : ms.appMembers < replicas)
    (he : chooseMember (some ms) (Order.stored String) = .ok e)
    (hrun : e.2.appRunning = true) (hb : ∀ i, n ≤ i → b i = true) :
    Hangs replicas b ms n := by
  obtain ⟨hm, hel⟩ := chooseMember_ok he
  obtain ⟨-, hfa, hpr⟩ := Member.eligible_iff.mp hel
  have hsame : e.2.noteStarted false = e.2 :=
    Member.noteStarted_eq_self hpr hrun hfa
  intro s errors hp hn
  refine never_ends (F := fun st => st.1.c.peers = some ms ∧ n ≤ st.1.execs)
    ?_ ⟨hp, Nat.le_of_eq hn.symm⟩
  intro st hst
  obtain ⟨s₁, errors₁⟩ := st
  obtain ⟨hp₁, hn₁⟩ := hst
  obtain ⟨s₂, errors₂, hturn, hexecs, hpeers⟩ :=
    @secondaryTurn_deciding s₁ ms replicas b e hp₁ hlt he errors₁
  refine ⟨(s₂, errors₂), hturn, ?_, ?_⟩
  · rw [hpeers, hb _ hn₁, if_pos rfl, GoMap.modify_eq_self hm hsame]
  · exact hexecs ▸ Nat.le_succ_of_le hn₁

/-- The next answer is `x`, and from there the loop does not end. -/
theorem hangs_of_next {b : Nat → Bool} {n : Nat} {e : String × Member}
    (hlt : ms.appMembers < replicas)
    (he : chooseMember (some ms) (Order.stored String) = .ok e) (x : Bool)
    (hx : b n = x)
    (hnext : Hangs replicas b (ms.modify e.1
      (if x then Member.noteStarted false else Member.noteFailure))
      (n + 1)) : Hangs replicas b ms n := by
  intro s errors hp hn
  obtain ⟨s₁, errors₁, hturn, hexecs, hpeers⟩ :=
    @secondaryTurn_deciding s ms replicas b e hp hlt he errors
  rw [ends_of_next hturn]
  refine hnext s₁ errors₁ ?_ (by omega)
  rw [hpeers, hn, hx]

/-- Answers that agree from the `n`-th command on. -/
def AgreeFrom (n : Nat) (b b' : Nat → Bool) : Prop := ∀ i, n ≤ i → b' i = b i

/-- A candidate runs: fail the stopped candidates until a running one is
picked, then succeed. The induction is on the number of candidates, of
which each failure takes one out. -/
theorem hangs_of_running (c : Nat) :
    ∀ (ms : MemberSet) (n : Nat), GoMap.count Member.eligible ms = c →
      ms.appMembers < replicas →
      (∃ k m, ms.lookup k = some m ∧ m.eligible = true
        ∧ m.appRunning = true) →
      ∃ b, ∀ b', AgreeFrom n b b' → Hangs replicas b' ms n := by
  induction c with
  | zero =>
      intro ms n hcount _ hex
      obtain ⟨k, m, hm, hel, -⟩ := hex
      rw [GoMap.count_eq_zero_iff.mp hcount k m hm] at hel
      cases hel
  | succ c ih =>
      intro ms n hcount hlt hex
      obtain ⟨k, m, hm, hel, hrun⟩ := hex
      obtain ⟨e, he⟩ :=
        chooseMember_of_eligible (Order.stored String) hm hel
      obtain ⟨hem, heel⟩ := chooseMember_ok he
      by_cases herun : e.2.appRunning = true
      · refine ⟨fun _ => true, fun b' hb' => ?_⟩
        exact hangs_of_pick hlt he herun hb'
      · have hfewer := count_eligible_noteFailure hem heel
        have hsame := MemberSet.appMembers_noteFailure ms e.1
        have hne : k ≠ e.1 := by
          rintro rfl
          rw [hem] at hm
          injection hm with hm
          rw [hm] at herun
          exact herun hrun
        obtain ⟨b, hb⟩ := ih (ms.modify e.1 Member.noteFailure) (n + 1)
          (by omega) (by omega)
          ⟨k, m, (GoMap.lookup_modify_ne hne _ _).trans hm, hel, hrun⟩
        refine ⟨fun i => if i = n then false else b i, fun b' hb' => ?_⟩
        refine hangs_of_next hlt he false ?_ (hb b' fun i hi => ?_)
        · rw [hb' n (Nat.le_refl n)]
          exact if_pos rfl
        · rw [hb' i (Nat.le_of_succ_le hi)]
          exact if_neg (by omega)

/-- Two or more members are missing: the first one started is picked
again. -/
theorem hangs_of_two_missing (n : Nat) (hlt : ms.appMembers + 1 < replicas)
    (hm : ms.lookup k = some m) (hel : m.eligible = true) :
    ∃ b, Hangs replicas b ms n := by
  obtain ⟨e, he⟩ := chooseMember_of_eligible (Order.stored String) hm hel
  obtain ⟨hem, heel⟩ := chooseMember_ok he
  by_cases herun : e.2.appRunning = true
  · exact ⟨fun _ => true,
      hangs_of_pick (by omega) he herun fun _ _ => rfl⟩
  · have hmore := MemberSet.appMembers_noteStarted hem heel
      (Bool.not_eq_true _ ▸ herun)
    have hstarted : (ms.modify e.1 (Member.noteStarted false)).lookup e.1
        = some (e.2.noteStarted false) := GoMap.lookup_modify_of_some hem
    obtain ⟨hon, -, -⟩ := Member.eligible_iff.mp heel
    obtain ⟨b, hb⟩ := @hangs_of_running replicas _
      (ms.modify e.1 (Member.noteStarted false)) (n + 1) rfl
      (by omega) ⟨e.1, _, hstarted,
        Member.eligible_iff.mpr ⟨hon, rfl, rfl⟩, rfl⟩
    refine ⟨fun i => if i = n then true else b i, ?_⟩
    refine hangs_of_next (by omega) he true (if_pos rfl) ?_
    exact hb _ fun i hi => if_neg (by omega)

/-- The loop that starts secondaries ends for all answers and visiting
orders exactly if enough members run, or there is nobody to start, or
only one member is missing and no member that may be picked runs. -/
theorem secondaries_end_iff (replicas : Int) (s : Sys)
    (errors : List Err) :
    (∀ env, Ends (secondaryTurn env replicas) (s, errors))
      ↔ replicas ≤ s.members.appMembers
        ∨ (∀ k m, s.members.lookup k = some m → m.eligible = false)
        ∨ s.members.appMembers + 1 = replicas
          ∧ ∀ k m, s.members.lookup k = some m → m.eligible = true →
              m.appRunning = false := by
  constructor
  · intro hends
    by_contra hnot
    simp only [not_or, not_and, not_forall, Bool.not_eq_false] at hnot
    obtain ⟨hlt, ⟨k, m, hm, hel⟩, hlast⟩ := hnot
    have hp := Sys.peers_of_lookup hm
    by_cases hone : s.members.appMembers + 1 = replicas
    · obtain ⟨k', m', hm', hel', hrun⟩ := hlast hone
      obtain ⟨b, hb⟩ := @hangs_of_running replicas _ s.members s.execs rfl
        (by omega) ⟨k', m', hm', hel', hrun⟩
      exact hb b (fun _ _ => rfl) s errors hp rfl (hends _)
    · obtain ⟨b, hb⟩ := @hangs_of_two_missing s.members k m replicas
        s.execs (by omega) hm hel
      exact hb s errors hp rfl (hends _)
  · intro h env
    exact secondaries_end h env errors

/-- Three pods, a primary on the first, nothing started on the others. -/
def MemberSet.onePrimary : MemberSet :=
  MemberSet.add
    { name := "db-0", online := true, appPrimary := true, appRunning := true }
    (MemberSet.add { name := "db-1", online := true }
      (MemberSet.add { name := "db-2", online := true } ∅))

/-- Two secondaries are missing and every start succeeds. The first turn
starts `db-1`, and so does every turn after it. -/
theorem secondaries_never_end :
    ¬ Ends (secondaryTurn (.deciding fun _ => true) 3)
      ((Sys.start (.sized 3 1)).setPeers .onePrimary, []) := by
  have hpick : Hangs 3 (fun _ => true)
      (MemberSet.onePrimary.modify "db-1" (Member.noteStarted false)) 1 :=
    hangs_of_pick (e := ("db-1",
      { name := "db-1", online := true, appRunning := true }))
      (by decide +kernel) (by decide +kernel) rfl fun _ _ => rfl
  have hstart : Hangs 3 (fun _ => true) MemberSet.onePrimary 0 :=
    hangs_of_next (e := ("db-1", { name := "db-1", online := true }))
      (by decide +kernel) (by decide +kernel) true rfl hpick
  exact hstart _ [] rfl rfl

end RssOperator
