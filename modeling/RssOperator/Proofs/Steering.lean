/-
Steering `replicate` by the answers and orders it is given.

# Why

Several of its defects need a certain member to be picked at a certain
time. Which one is picked is up to the sequence numbers, which are
answers, and to the order in which the map is visited. This module builds
the worlds that make `replicate` pick what they want.

# Picking

`chooseMember` keeps a candidate it meets later if that one has a larger
sequence number, or a smaller name whatever the numbers are. Two orders
are enough. If those with a number of one are visited after those with
zero, one of them is picked (`chooseMember_high`). And if the candidate
with the least name has zero and is visited last but one, whoever is
visited last is picked (`chooseMember_target`): the first beats all the
others by its name, and loses by its number.

# Running

`Env.steered` is such a world. With it the turns of the three loops are
known (`promoteTurn_ok` and the others), and `loopStage_ends` says what a
loop leaves whose every turn makes progress.
-/
import RssOperator.Proofs.Gating

namespace RssOperator

open RunningBest (pick)

variable {env : Env} {s t : Sys} {ms : MemberSet} {k : String} {m : Member}
  {fuel : Nat}

-- ============================================================ visiting

theorem candidates_none (o : Order String)
    (h : ∀ m, ms.lookup k = some m → m.eligible = false) :
    (candidates ms o).filter (fun e => e.1 == k) = [] := by
  refine List.filter_eq_nil_iff.mpr ?_
  intro e he hek
  obtain ⟨hm, hel⟩ := mem_candidates.mp he
  rw [beq_iff_eq.mp hek] at hm
  rw [h _ hm] at hel
  cases hel

-- ============================================================= picking

/-- If the candidates with a one are visited last, one of them is
picked. -/
theorem chooseMember_high {high : String → Bool}
    (hseq : ∀ k m, ms.lookup k = some m → m.eligible = true →
      m.seq = (high k).toNat)
    (hm : ms.lookup k = some m) (hel : m.eligible = true)
    (hhigh : high k = true) (o : Order String) :
    ∃ e, chooseMember (some ms) (o.deferring high) = .ok e
      ∧ high e.1 = true := by
  rw [chooseMember_eq, candidates_deferring, List.foldl_append]
  have hcand : ∀ {e : String × Member}, e ∈ candidates ms o →
      e.2.eligible = true ∧ e.2.seq = (high e.1).toNat := by
    intro e he
    obtain ⟨hm, hel⟩ := mem_candidates.mp he
    exact ⟨hel, hseq _ _ hm hel⟩
  have hmem : (k, m) ∈ (candidates ms o).filter fun e => high e.1 :=
    List.mem_filter.mpr ⟨mem_candidates.mpr ⟨hm, hel⟩, hhigh⟩
  cases hl : (candidates ms o).filter fun e => high e.1 with
  | nil =>
      rw [hl] at hmem
      cases hmem
  | cons x l =>
      have hall : ∀ e ∈ x :: l, high e.1 = true ∧ e ∈ candidates ms o := by
        intro e he
        rw [← hl] at he
        exact (List.mem_filter.mp he).symm
      obtain ⟨hx, hxc⟩ := hall x List.mem_cons_self
      obtain ⟨hxel, hxseq⟩ := hcand hxc
      -- whoever was best before has a zero
      have hbeats : ∀ b ∈ (candidates ms o).filter (fun e => !high e.1),
          Beats x b := by
        intro b hb
        obtain ⟨hbc, hblow⟩ := List.mem_filter.mp hb
        obtain ⟨-, hbseq⟩ := hcand hbc
        have hlow : high b.1 = false := by simpa using hblow
        refine Or.inl ?_
        rw [hbseq, hxseq, hlow, hx]
        decide
      have hfirst : pick Beats (((candidates ms o).filter
          fun e => !high e.1).foldl (pick Beats) none) x = some x := by
        rw [← RunningBest.foldl_pick_last hbeats, List.foldl_append,
          List.foldl_cons, List.foldl_nil]
      rw [List.foldl_cons, hfirst]
      cases hr : l.foldl (pick Beats) (some x) with
      | none => exact absurd hr (RunningBest.foldl_pick_ne_none (by simp))
      | some e =>
          refine ⟨e, rfl, ?_⟩
          rcases RunningBest.foldl_pick_some _ hr with heq | hel
          · injection heq with heq
            rw [← heq]
            exact hx
          · exact (hall e (List.mem_cons_of_mem _ hel)).1

/-- Visited last, a candidate is picked that beats all others. -/
theorem chooseMember_last (hm : ms.lookup k = some m)
    (hel : m.eligible = true)
    (h : ∀ k' m', ms.lookup k' = some m' → m'.eligible = true → k' ≠ k →
      Beats (k, m) (k', m')) (o : Order String) :
    chooseMember (some ms) (o.deferring (· == k)) = .ok (k, m) := by
  rw [chooseMember_eq, candidates_deferring, candidates_single o hm hel,
    RunningBest.foldl_pick_last]
  intro e he
  obtain ⟨hec, hne⟩ := List.mem_filter.mp he
  obtain ⟨hem, heel⟩ := mem_candidates.mp hec
  exact h e.1 e.2 hem heel (by simpa using hne)

section Pivot

variable {b c : String} {mb mc : Member}
  (hb : ms.lookup b = some mb) (hbel : mb.eligible = true)
  (hleast : ∀ k m, ms.lookup k = some m → m.eligible = true → k ≠ b →
    mb.name < m.name)
include hb hbel hleast

/-- Visited last but one, the candidate with the least name is beaten by
everybody with a larger number. -/
theorem chooseMember_target (hc : ms.lookup c = some mc)
    (hcel : mc.eligible = true) (hlow : c ≠ b → mb.seq < mc.seq)
    (o : Order String) :
    chooseMember (some ms) ((o.deferring (· == b)).deferring (· == c))
      = .ok (c, mc) := by
  by_cases hcb : c = b
  · subst hcb
    obtain rfl : mb = mc := Option.some.inj (hb.symm.trans hc)
    exact chooseMember_last hc hcel
      (fun k' m' hm' hel' hne => Or.inr (hleast k' m' hm' hel' hne)) _
  · rw [chooseMember_eq, candidates_deferring, candidates_single _ hc hcel,
      candidates_deferring, candidates_single o hb hbel, List.filter_append,
      List.filter_cons_of_pos (by simpa using Ne.symm hcb), List.filter_nil,
      List.foldl_append, RunningBest.foldl_pick_last, List.foldl_cons,
      List.foldl_nil, RunningBest.pick_some,
      if_pos (show Beats (c, mc) (b, mb) from Or.inl (hlow hcb))]
    · intro e he
      obtain ⟨he, -⟩ := List.mem_filter.mp he
      obtain ⟨hec, hne⟩ := List.mem_filter.mp he
      obtain ⟨hem, heel⟩ := mem_candidates.mp hec
      exact Or.inr (hleast e.1 e.2 hem heel (by simpa using hne))

/-- If whoever is visited last is no candidate, the one before is
picked. -/
theorem chooseMember_pivot
    (hc : ∀ m, ms.lookup c = some m → m.eligible = false)
    (o : Order String) :
    chooseMember (some ms) ((o.deferring (· == b)).deferring (· == c))
      = .ok (b, mb) := by
  have hcb : c ≠ b := by
    intro h
    subst h
    rw [hc mb hb] at hbel
    cases hbel
  rw [chooseMember_eq, candidates_deferring, candidates_none _ hc,
    candidates_deferring, candidates_single o hb hbel, List.filter_append,
    List.filter_cons_of_pos (by simpa using Ne.symm hcb), List.filter_nil,
    List.append_nil, RunningBest.foldl_pick_last]
  intro e he
  obtain ⟨he, -⟩ := List.mem_filter.mp he
  obtain ⟨hec, hne⟩ := List.mem_filter.mp he
  obtain ⟨hem, heel⟩ := mem_candidates.mp hec
  exact Or.inr (hleast e.1 e.2 hem heel (by simpa using hne))

end Pivot

-- ============================================================ counting

/-- A candidate that runs already. -/
def Member.standby (m : Member) : Bool := m.eligible && m.appRunning

/-- What a start as a primary does to the counts. -/
theorem promoted_counts (hm : ms.lookup k = some m)
    (hel : m.eligible = true) :
    MemberSet.appPrimaries (ms.modify k (Member.noteStarted true))
        = ms.appPrimaries + 1
      ∧ GoMap.count Member.eligible (ms.modify k (Member.noteStarted true))
          + 1 = GoMap.count Member.eligible ms
      ∧ GoMap.count Member.standby (ms.modify k (Member.noteStarted true))
          + m.appRunning.toNat = GoMap.count Member.standby ms
      ∧ MemberSet.appMembers (ms.modify k (Member.noteStarted true))
          + m.appRunning.toNat = ms.appMembers + 1 := by
  obtain ⟨hon, hfa, hpr⟩ := Member.eligible_iff.mp hel
  have hprimaries := GoMap.count_modify (p := Member.isPrimary)
    (Member.noteStarted true) hm
  have heligible := GoMap.count_modify (p := Member.eligible)
    (Member.noteStarted true) hm
  have hstandby := GoMap.count_modify (p := Member.standby)
    (Member.noteStarted true) hm
  have hmembers := GoMap.count_modify (p := Member.isRunning)
    (Member.noteStarted true) hm
  simp only [Member.isPrimary, Member.eligible, Member.standby,
    Member.isRunning, Member.noteStarted, hon, hfa, hpr, Bool.and_true,
    Bool.and_false, Bool.true_and, Bool.false_and, Bool.not_false,
    Bool.not_true, Bool.toNat_true, Bool.toNat_false]
    at hprimaries heligible hstandby hmembers
  unfold MemberSet.appPrimaries MemberSet.appMembers
  refine ⟨?_, ?_, ?_, ?_⟩
  · omega
  · omega
  · omega
  · omega

/-- What a start that fails does to the counts. -/
theorem failed_counts (hm : ms.lookup k = some m)
    (hel : m.eligible = true) :
    MemberSet.appPrimaries (ms.modify k Member.noteFailure)
        = ms.appPrimaries
      ∧ GoMap.count Member.eligible (ms.modify k Member.noteFailure) + 1
          = GoMap.count Member.eligible ms
      ∧ GoMap.count Member.standby (ms.modify k Member.noteFailure)
          + m.appRunning.toNat = GoMap.count Member.standby ms
      ∧ MemberSet.appMembers (ms.modify k Member.noteFailure)
          = ms.appMembers := by
  refine ⟨MemberSet.appPrimaries_noteFailure ms k,
    count_eligible_noteFailure hm hel, ?_,
    MemberSet.appMembers_noteFailure ms k⟩
  have hstandby := GoMap.count_modify (p := Member.standby)
    Member.noteFailure hm
  rw [Member.standby, hel, Bool.true_and] at hstandby
  simp only [Member.standby, Member.eligible, Member.noteFailure,
    Bool.not_true, Bool.and_false, Bool.false_and, Bool.toNat_false]
    at hstandby
  exact hstandby

/-- What a stop of a primary does to the counts. -/
theorem stopped_counts (hm : ms.lookup k = some m)
    (hst : m.stoppable = true) :
    GoMap.count Member.eligible (ms.modify k Member.noteStopped)
        = GoMap.count Member.eligible ms + m.online.toNat
      ∧ MemberSet.appMembers (ms.modify k Member.noteStopped)
          + m.isRunning.toNat = ms.appMembers := by
  have heligible := GoMap.count_modify (p := Member.eligible)
    Member.noteStopped hm
  have hmembers := GoMap.count_modify (p := Member.isRunning)
    Member.noteStopped hm
  simp only [Member.stoppable, Bool.and_eq_true, Bool.not_eq_true'] at hst
  simp only [Member.eligible, Member.isRunning, Member.noteStopped, hst,
    Bool.not_false, Bool.not_true, Bool.and_true, Bool.and_false,
    Bool.toNat_false] at heligible hmembers
  unfold MemberSet.appMembers
  refine ⟨?_, ?_⟩
  · omega
  · show _ + ((m.online && m.appRunning).toNat : Int) = _
    omega

-- ============================================================= running

/-- A world that answers the `sequence` command by `seq`, lets the starts
on the pods with `fails` fail and everything else succeed, and visits maps
as `ord` says. -/
def Env.steered (seq : String → String) (fails : String → Bool)
    (ord : Nat → Order String) : Env where
  exec := fun _ call pod =>
    match call with
    | .sequence => .exitsZero (seq pod)
    | .start .. => if fails pod then .exits 1 else .exitsZero ""
    | .stop | .status => .exitsZero ""
  order := ord
  delete := fun _ _ => none
  tag := fun _ _ => none
  update := fun _ => none
  get := fun _ => .error .notFound
  now := fun _ => "now"
  grow := fun _ => true

/-- A sequence number of one or zero, as it is printed. -/
def bit (b : Bool) : String := if b then "1" else "0"

theorem readSeq_bit (b : Bool) (old : Nat) :
    (ExecAnswer.exitsZero (bit b)).readSeq old = b.toNat := by
  cases b with
  | true => rfl
  | false => rfl

/-- Detection in a world that answers by `high`: the number of everybody
who is there is read. -/
theorem detectStage_bits {high : String → Bool}
    (hans : ∀ i pod, env.exec i .sequence pod
      = .exitsZero (bit (high pod)))
    (hs : s.members.WellKeyed)
    (hwork : s.members.appPrimaries ≠ s.spec.getNumPrimaries
      ∨ s.members.appMembers ≠ s.spec.getNumReplicas) :
    ∃ s₁, detectStage env s = .ret () s₁
      ∧ (∀ k m, s₁.members.lookup k = some m → ∃ m₀ n,
          s.members.lookup k = some m₀ ∧ m = { m₀ with seq := n }
            ∧ (m₀.online = true → n = (high k).toNat))
      ∧ s₁.orders
        = s.orders + 1 + GoMap.count Member.online s.members := by
  obtain ⟨s₁, hret, hlook, hord⟩ := detectMembers_fixed hans hs
  refine ⟨s₁, ?_, ?_, hord⟩
  · unfold detectStage
    rw [if_pos hwork, hret]
  · intro k m hm
    rw [hlook] at hm
    obtain ⟨m₀, hm₀, rfl⟩ := Option.map_eq_some_iff.mp hm
    rw [hs k m₀ hm₀]
    unfold Member.detected
    by_cases hon : m₀.online = true
    · rw [if_pos hon]
      exact ⟨m₀, _, hm₀, rfl, fun _ => readSeq_bit _ _⟩
    · rw [if_neg hon]
      exact ⟨m₀, m₀.seq, hm₀, rfl, fun h => absurd h hon⟩

/-- Starts and stops succeed, the former unless their pod is one of those
with `fails`. -/
structure Obeys (env : Env) (fails : String → Bool) : Prop where
  start : ∀ i key asPrimary pod,
    (env.exec i (.start key asPrimary) pod).succeeds = !fails pod
  stop : ∀ i pod, (env.exec i .stop pod).succeeds = true

theorem Env.steered_obeys (seq : String → String) (fails : String → Bool)
    (ord : Nat → Order String) : Obeys (.steered seq fails ord) fails := by
  refine ⟨fun i key asPrimary pod => ?_, fun _ _ => rfl⟩
  show (if fails pod then ExecAnswer.exits 1
    else .exitsZero "").succeeds = _
  cases fails pod with
  | true => rfl
  | false => rfl

section Turns

variable {fails : String → Bool} {x : String × Member}
  (henv : Obeys env fails)
include henv

/-- A start that succeeds. -/
theorem startAppMember_ok (asPrimary : Bool)
    (hm : s.members.lookup k = some m) (hok : fails m.name = false) :
    ∃ s', startAppMember env k asPrimary s = (none, s')
      ∧ s'.members = s.members.modify k (Member.noteStarted asPrimary)
      ∧ s'.orders = s.orders + 1 := by
  have ha : (s.startAnswer env asPrimary m).succeeds = true := by
    show (env.exec s.execs (.start _ _) m.name).succeeds = true
    rw [henv.start, hok]
    rfl
  rw [startAppMember_eq asPrimary hm, if_pos ha]
  exact ⟨_, rfl, Sys.members_started asPrimary, rfl⟩

/-- A promotion that succeeds. -/
theorem promoteTurn_ok {primaries : Int}
    (hlt : t.members.appPrimaries < primaries)
    (hx : chooseMember t.c.peers (t.order env) = .ok x)
    (hok : fails x.2.name = false) :
    ∃ t', promoteTurn env primaries (t, []) = .inl (t', [])
      ∧ t'.members = t.members.modify x.1 (Member.noteStarted true)
      ∧ t'.orders = t.orders + 2 := by
  obtain ⟨hm, hel⟩ := lookup_of_chooseMember hx
  have hm' : (t.ranged 1).members.lookup x.1 = some x.2 := hm
  obtain ⟨t', hstart, hmem, hord⟩ := startAppMember_ok henv true hm' hok
  refine ⟨t', ?_, hmem, hord⟩
  unfold promoteTurn
  dsimp only
  rw [if_pos hlt, hx]
  dsimp only
  rw [hstart]
  dsimp only
  rw [hmem, if_neg (MemberSet.appPrimaries_noteStarted hm' hel)]
  rfl

/-- A secondary that is started. -/
theorem secondaryTurn_ok {replicas : Int}
    (hlt : t.members.appMembers < replicas)
    (hx : chooseMember t.c.peers (t.order env) = .ok x)
    (hok : fails x.2.name = false) :
    ∃ t', secondaryTurn env replicas (t, []) = .inl (t', [])
      ∧ t'.members = t.members.modify x.1 (Member.noteStarted false)
      ∧ t'.orders = t.orders + 2 := by
  obtain ⟨hm, -⟩ := lookup_of_chooseMember hx
  have hm' : (t.ranged 1).members.lookup x.1 = some x.2 := hm
  obtain ⟨t', hstart, hmem, hord⟩ := startAppMember_ok henv false hm' hok
  refine ⟨t', ?_, hmem, hord⟩
  unfold secondaryTurn
  dsimp only
  rw [if_pos hlt, hx]
  dsimp only
  rw [hstart]
  rfl

/-- A demotion. -/
theorem demoteTurn_ok {primaries : Int}
    (hlt : primaries < t.members.appPrimaries)
    (hx : chooseCurrentPrimary t.c.peers (t.order env) = .ok x) :
    ∃ t', demoteTurn env primaries (t, []) = .inl (t', [])
      ∧ t'.members = t.members.modify x.1 Member.noteStopped
      ∧ t'.orders = t.orders + 2 := by
  obtain ⟨hm, -⟩ := lookup_of_chooseCurrentPrimary hx
  have hm' : (t.ranged 1).members.lookup x.1 = some x.2 := hm
  have ha : ((t.ranged 1).stopAnswer env x.2).succeeds = true :=
    henv.stop _ _
  refine ⟨(t.ranged 1).stopped env x.1 x.2 Member.noteStopped, ?_,
    Sys.members_stopped Member.noteStopped, rfl⟩
  unfold demoteTurn
  dsimp only
  rw [if_pos hlt, hx]
  dsimp only
  rw [stopAppMember_eq hm', if_pos ha]
  rfl

omit henv in
/-- With a candidate there is a first seed, of maximal sequence number. -/
theorem seedList_cons (env : Env)
    (hel : 0 < GoMap.count Member.eligible t.members) :
    ∃ x rest, seedList env t = x :: rest
      ∧ t.members.lookup x.1 = some x.2 ∧ x.2.eligible = true
      ∧ ∀ k m, t.members.lookup k = some m → m.eligible = true →
        m.seq ≤ x.2.seq := by
  obtain ⟨k, m, hm, hel⟩ := GoMap.count_pos_iff.mp hel
  have hcand : (k, m) ∈ candidates t.members (t.order env) :=
    mem_candidates.mpr ⟨hm, hel⟩
  obtain ⟨x, rest, hlist, htop⟩ :=
    fromFirstTop_head (List.ne_nil_of_mem hcand)
  have hxc : x ∈ candidates t.members (t.order env) := by
    apply (fromFirstTop_sublist _).subset
    rw [hlist]
    exact List.mem_cons_self
  obtain ⟨hxm, hxel⟩ := mem_candidates.mp hxc
  refine ⟨x, rest, hlist, hxm, hxel, fun k' m' hm' hel' => ?_⟩
  rw [htop]
  exact le_topSeq (e := (k', m')) (mem_candidates.mpr ⟨hm', hel'⟩)

omit henv in
theorem chooseSeeds_of_list {rest : List (String × Member)}
    (hlist : seedList env t = x :: rest) :
    chooseSeeds t.c.peers (t.order env) = .ok (x :: rest) := by
  rcases @chooseSeeds_seedList env t with ⟨err, -, hnil⟩ | hseeds
  · rw [hlist] at hnil
    cases hnil
  · rw [hseeds, hlist]

omit henv in
/-- A seeding loop that leaves a primary is all there is to seeding. -/
theorem seedStage_of_list {rest : List (String × Member)}
    (hnone : t.members.appPrimaries = 0)
    (hlist : seedList env t = x :: rest)
    (hsome : (seedLoop env (x :: rest) []
      (t.ranged 1)).2.members.appPrimaries ≠ 0) :
    seedStage env t
      = (none, (seedLoop env (x :: rest) [] (t.ranged 1)).2) := by
  unfold seedStage
  rw [if_pos hnone, chooseSeeds_of_list hlist]
  dsimp only
  rw [if_neg hsome]

/-- The first seed is started. -/
theorem seedStage_first {rest : List (String × Member)}
    (hnone : t.members.appPrimaries = 0)
    (hlist : seedList env t = x :: rest) (hok : fails x.2.name = false) :
    ∃ t', seedStage env t = (none, t')
      ∧ t'.members
        = t.members.modify x.1 (Member.noteStarted true) := by
  obtain ⟨hm, hel⟩ :=
    (startable_seeds (chooseSeeds_of_list hlist)).2 x List.mem_cons_self
  have hm' : (t.ranged 1).members.lookup x.1 = some x.2 := hm
  have ha : ((t.ranged 1).startAnswer env true x.2).succeeds = true := by
    show (env.exec t.execs (.start _ _) x.2.name).succeeds = true
    rw [henv.start, hok]
    rfl
  have hloop := @seedLoop_cons_ok env (t.ranged 1) x rest [] hm' hel ha
  have hmem : (seedLoop env (x :: rest) [] (t.ranged 1)).2.members
      = t.members.modify x.1 (Member.noteStarted true) := by
    rw [hloop]
    exact Sys.members_started true
  refine ⟨_, seedStage_of_list hnone hlist ?_, hmem⟩
  rw [hmem]
  exact MemberSet.appPrimaries_noteStarted hm hel

omit henv in
/-- With one of the largest number visited first, and another next, these
are the first two seeds. -/
theorem seedList_pair {f w : String} {mf mw : Member} {o : Order String}
    (horder : t.order env = (o.deferring (· != w)).deferring (· != f))
    (hf : t.members.lookup f = some mf) (hfel : mf.eligible = true)
    (htop : ∀ k m, t.members.lookup k = some m → m.eligible = true →
      m.seq ≤ mf.seq)
    (hw : t.members.lookup w = some mw) (hwel : mw.eligible = true)
    (hne : w ≠ f) :
    ∃ rest, seedList env t = (f, mf) :: (w, mw) :: rest := by
  have hvisit : candidates t.members (t.order env) = (f, mf) :: (w, mw)
      :: ((candidates t.members o).filter (fun e => e.1 != w)).filter
        fun e => e.1 != f := by
    rw [horder, candidates_deferring]
    simp only [bne, Bool.not_not]
    rw [candidates_single _ hf hfel, candidates_deferring]
    simp only [Bool.not_not]
    rw [candidates_single o hw hwel, List.filter_append,
      List.filter_cons_of_pos (by simpa using hne), List.filter_nil]
    rfl
  obtain ⟨e, he, heq⟩ := @exists_topSeq (candidates t.members (t.order env))
    (by rw [hvisit]; exact List.cons_ne_nil _ _)
  obtain ⟨hem, heel⟩ := mem_candidates.mp he
  have hle : topSeq (candidates t.members (t.order env)) ≤ mf.seq := by
    rw [← heq]
    exact htop e.1 e.2 hem heel
  unfold seedList fromFirstTop
  generalize topSeq (candidates t.members (t.order env)) = n at hle
  rw [hvisit, List.dropWhile_cons_of_neg (by simpa using hle)]
  exact ⟨_, rfl⟩

/-- The first seed fails and the second one is started. -/
theorem seedStage_next {y : String × Member}
    {rest : List (String × Member)} (hnone : t.members.appPrimaries = 0)
    (hlist : seedList env t = x :: y :: rest)
    (hfail : fails x.2.name = true) (hok : fails y.2.name = false) :
    ∃ t', seedStage env t = (none, t')
      ∧ t'.members = (t.members.modify x.1 Member.noteFailure).modify y.1
          (Member.noteStarted true)
      ∧ t'.orders = t.orders + 3 := by
  obtain ⟨hnd, hstart⟩ := startable_seeds (chooseSeeds_of_list hlist)
  obtain ⟨hx, hxel⟩ := hstart x List.mem_cons_self
  obtain ⟨hy, hyel⟩ := hstart y (List.mem_cons_of_mem _ List.mem_cons_self)
  have hyx : y.1 ≠ x.1 := by
    intro heq
    rw [List.map_cons, List.map_cons, List.nodup_cons] at hnd
    exact hnd.1 (heq ▸ List.mem_cons_self)
  have hx' : (t.ranged 1).members.lookup x.1 = some x.2 := hx
  have hax : ((t.ranged 1).startAnswer env true x.2).succeeds = false := by
    show (env.exec t.execs (.start _ _) x.2.name).succeeds = false
    rw [henv.start, hfail]
    rfl
  obtain ⟨-, errors, hgoes⟩ := @seedLoop_cons_fail env (t.ranged 1) x
    (y :: rest) [] hx' hnone hax
  have hy' : ((t.ranged 1).startFailed env x.1 true x.2).members.lookup y.1
      = some y.2 := by
    rw [Sys.members_startFailed, GoMap.lookup_modify_ne hyx]
    exact hy
  have hay : (((t.ranged 1).startFailed env x.1 true x.2).startAnswer env
      true y.2).succeeds = true := by
    show (env.exec _ (.start _ _) y.2.name).succeeds = true
    rw [henv.start, hok]
    rfl
  have hloop := @seedLoop_cons_ok env _ y rest errors hy' hyel hay
  rw [← hgoes] at hloop
  have hmem : (seedLoop env (x :: y :: rest) [] (t.ranged 1)).2.members
      = (t.members.modify x.1 Member.noteFailure).modify y.1
          (Member.noteStarted true) := by
    rw [hloop]
    show (Sys.started _ _ _ _ _).members = _
    rw [Sys.members_started, Sys.members_startFailed]
    rfl
  refine ⟨_, seedStage_of_list hnone hlist ?_, hmem, by rw [hloop]; rfl⟩
  rw [hmem]
  rw [Sys.members_startFailed] at hy'
  exact MemberSet.appPrimaries_noteStarted hy' hyel

end Turns

/-- A loop whose every turn makes progress without an error comes to its
end. -/
theorem loopStage_ends {I Q : Sys → Prop} (μ : Sys → Nat)
    {turn : Sys × List Err → (Sys × List Err) ⊕ (Sys × List Err)}
    (hturn : ∀ t, I t →
      (∃ t', turn (t, []) = .inl (t', []) ∧ I t' ∧ μ t' < μ t)
        ∨ turn (t, []) = .inr (t, []) ∧ Q t) :
    ∀ fuel t, I t → μ t < fuel →
      ∃ t', loopStage turn fuel [] t = .ret [] t' ∧ I t' ∧ Q t' := by
  have hloop : ∀ fuel t, I t → μ t < fuel →
      ∃ t', loop turn fuel (t, []) = .inr (t', []) ∧ I t' ∧ Q t' := by
    intro fuel
    induction fuel with
    | zero => intro t _ hlt; omega
    | succ n ih =>
        intro t ht hlt
        rcases hturn t ht with ⟨t₁, hnext, ht₁, hless⟩ | ⟨hend, hQ⟩
        · rw [loop_of_next hnext]
          exact ih t₁ ht₁ (by omega)
        · rw [loop_of_end hend]
          exact ⟨t, rfl, ht, hQ⟩
  intro fuel t ht hlt
  obtain ⟨t', hend, ht', hQ⟩ := hloop fuel t ht hlt
  refine ⟨t', ?_, ht', hQ⟩
  unfold loopStage
  rw [if_pos rfl, hend]

end RssOperator
