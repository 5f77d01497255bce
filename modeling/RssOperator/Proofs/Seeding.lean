/-
Seeding: which members `replicate` starts as a primary while there is
none.

# Where it happens

A start as a primary while the count of primaries is zero is a
`seedStart`. The stages around the seeding loop issue none
(`Refinement`), so the seed starts of a call are those of its seeding
loop, and there is a seeding loop only if the call got there: the
members fit, none is a primary, all pods are there, and detection came
back (`ReachesSeeding`).

# What it does

The loop goes down the list of seeds until a start succeeds (`tried`).
The list begins with a candidate of maximal sequence number, but what
follows need not be maximal: `chooseSeeds` appends every candidate it
meets after the best one so far. So whether an older copy is tried is
decided by the order of the map and by the commands that fail, and
`replicate_seeds_fresh_iff` says exactly when it is not.
-/
import RssOperator.Proofs.Refinement

namespace RssOperator

variable {env : Env} {s s' : Sys} {k : String} {m : Member}

-- ================================================== the seeds are tried

/-- The seeds that are started: all up to the first that succeeds. The
`n`-th command is the first of them. -/
def tried (env : Env) (call : Call) :
    Nat → List (String × Member) → List (String × Member)
  | _, [] => []
  | n, e :: seeds =>
      if (env.exec n call e.2.name).succeeds then [e]
      else e :: tried env call (n + 1) seeds

/-- A seed is tried if all seeds before it have failed. -/
theorem mem_tried {call : Call} {e : String × Member}
    {seeds : List (String × Member)} : ∀ {n : Nat},
      e ∈ tried env call n seeds
        ↔ ∃ i, seeds[i]? = some e ∧ ∀ j e', j < i → seeds[j]? = some e' →
            (env.exec (n + j) call e'.2.name).succeeds = false := by
  induction seeds with
  | nil =>
      intro n
      simp [tried]
  | cons a seeds ih =>
      intro n
      unfold tried
      split
      · next ha =>
        rw [List.mem_singleton]
        constructor
        · rintro rfl
          exact ⟨0, rfl, fun j _ hj => absurd hj (Nat.not_lt_zero j)⟩
        · intro hex
          obtain ⟨i, hi, hall⟩ := hex
          cases i with
          | zero => exact (Option.some.inj hi).symm
          | succ i =>
              have hfail := hall 0 a (Nat.succ_pos i) rfl
              rw [Nat.add_zero, ha] at hfail
              cases hfail
      · next ha =>
        rw [List.mem_cons, ih]
        constructor
        · rintro (rfl | ⟨i, hi, hall⟩)
          · exact ⟨0, rfl, fun j _ hj => absurd hj (Nat.not_lt_zero j)⟩
          · refine ⟨i + 1, hi, fun j e' hj he' => ?_⟩
            cases j with
            | zero =>
                obtain rfl := Option.some.inj he'
                simpa using ha
            | succ j =>
                rw [Nat.add_comm j 1, ← Nat.add_assoc]
                exact hall j e' (Nat.lt_of_succ_lt_succ hj) he'
        · intro hex
          obtain ⟨i, hi, hall⟩ := hex
          cases i with
          | zero => exact Or.inl (Option.some.inj hi).symm
          | succ i =>
              refine Or.inr ⟨i, hi, fun j e' hj he' => ?_⟩
              rw [Nat.add_assoc, Nat.add_comm 1 j]
              exact hall (j + 1) e' (Nat.succ_lt_succ hj) he'

/-- The member an entry of the trace is about. -/
def Event.target : Event → Option String
  | .exec _ k _ _ _ _ | .delete k _ _ | .tag k _ _ => some k
  | .update .. | .get .. => none

/-- The command of an entry was taken for a success. -/
def Event.succeeded : Event → Bool
  | .exec _ _ _ _ _ a => a.succeeds
  | _ => false

/-- A failed start leaves the number of primaries alone. -/
theorem MemberSet.appPrimaries_noteFailure (ms : MemberSet) (k : String) :
    MemberSet.appPrimaries (ms.modify k Member.noteFailure)
      = ms.appPrimaries :=
  congrArg Nat.cast (GoMap.count_modify_eq (p := Member.isPrimary)
    (f := Member.noteFailure) k (fun _ => rfl) ms)

/-- After a successful start as a primary there is one. -/
theorem MemberSet.appPrimaries_noteStarted {ms : MemberSet}
    (hm : ms.lookup k = some m) (hel : m.eligible = true) :
    MemberSet.appPrimaries (ms.modify k (Member.noteStarted true)) ≠ 0 := by
  have hpos : 0 < GoMap.count Member.isPrimary
      (ms.modify k (Member.noteStarted true)) := by
    refine GoMap.count_pos_iff.mpr
      ⟨k, _, GoMap.lookup_modify_of_some hm, ?_⟩
    exact Member.isPrimary_iff.mpr
      ⟨(Member.eligible_iff.mp hel).1, rfl, rfl⟩
  unfold appPrimaries
  omega

/-- A seed whose start succeeds is the last one. -/
theorem seedLoop_cons_ok {e : String × Member}
    {seeds : List (String × Member)} (errors : List Err)
    (hm : s.members.lookup e.1 = some e.2) (hel : e.2.eligible = true)
    (ha : (s.startAnswer env true e.2).succeeds = true) :
    (seedLoop env (e :: seeds) errors s).2
      = (tagAppMember env e.1 true (s.started env e.1 true e.2)).2 := by
  have hcount : (tagAppMember env e.1 true
      (s.started env e.1 true e.2)).2.members.appPrimaries ≠ 0 := by
    show (s.started env e.1 true e.2).members.appPrimaries ≠ 0
    rw [Sys.members_started]
    exact MemberSet.appPrimaries_noteStarted hm hel
  unfold seedLoop
  rw [startAppMember_eq true hm, if_pos ha]
  dsimp only
  rw [if_pos hcount]

/-- After a seed whose start fails the loop goes on with the others. -/
theorem seedLoop_cons_fail {e : String × Member}
    {seeds : List (String × Member)} (errors : List Err)
    (hm : s.members.lookup e.1 = some e.2)
    (hnone : s.members.appPrimaries = 0)
    (ha : (s.startAnswer env true e.2).succeeds = false) :
    (s.startFailed env e.1 true e.2).members.appPrimaries = 0
      ∧ ∃ errors', seedLoop env (e :: seeds) errors s
        = seedLoop env seeds errors' (s.startFailed env e.1 true e.2) := by
  have hcount : (s.startFailed env e.1 true e.2).members.appPrimaries
      = 0 := by
    rw [Sys.members_startFailed, MemberSet.appPrimaries_noteFailure, hnone]
  refine ⟨hcount, appendNonNil errors (some ((s.startAnswer env true
    e.2).report (s.startCall true) e.2.name)), ?_⟩
  conv => lhs; unfold seedLoop
  rw [startAppMember_eq true hm, if_neg (by rw [ha]; simp)]
  dsimp only
  rw [if_neg (not_not.mpr hcount)]

/-- The others can still be tried after it. -/
theorem Startable.failed {e : String × Member}
    {seeds : List (String × Member)} (h : Startable s (e :: seeds))
    (ha : (s.startAnswer env true e.2).succeeds = false) :
    Startable (s.startFailed env e.1 true e.2) seeds := by
  have hm := (h.2 e List.mem_cons_self).1
  have hall : Startable (startAppMember env e.1 true s).2 seeds :=
    h.tail true
  rw [startAppMember_eq true hm, if_neg (by rw [ha]; simp)] at hall
  exact hall

/-- What the loop records after it comes on top of its entry. -/
theorem since_seedLoop_fail {e : String × Member}
    {seeds : List (String × Member)} (errors : List Err)
    (h : Startable (s.startFailed env e.1 true e.2) seeds)
    (hcount : (s.startFailed env e.1 true e.2).members.appPrimaries = 0) :
    s.since (seedLoop env seeds errors (s.startFailed env e.1 true e.2)).2
      = (s.startFailed env e.1 true e.2).since
          (seedLoop env seeds errors (s.startFailed env e.1 true e.2)).2
        ++ [s.entry env (s.startCall true) e.1 e.2.name] := by
  have hrest := @seedLoop_acts env seeds _ errors h hcount
  refine Sys.since_eq ?_
  rw [List.append_assoc]
  exact hrest.trace_eq

/-- The seed starts of the seeding loop, newest first, are those of the
seeds it tries, and of these at most the last succeeds. -/
theorem seedLoop_since {call : Call} {seeds : List (String × Member)} :
    ∀ {s : Sys} (errors : List Err), Startable s seeds →
      s.members.appPrimaries = 0 → s.startCall true = call →
      ((s.since (seedLoop env seeds errors s).2).filter
          Event.seedStart).map Event.target
        = ((tried env call s.execs seeds).map fun e => some e.1).reverse
      ∧ (s.since (seedLoop env seeds errors s).2).countP
          (fun e => e.seedStart && e.succeeded) ≤ 1 := by
  induction seeds with
  | nil =>
      intro s errors _ _ _
      have hnil : s.since s = [] := Sys.since_eq rfl
      rw [show (seedLoop env [] errors s).2 = s from rfl, hnil]
      exact ⟨rfl, by simp⟩
  | cons e seeds ih =>
      intro s errors h hnone hcall
      obtain ⟨hm, hel⟩ := h.2 e List.mem_cons_self
      have hseed : (s.entry env (s.startCall true) e.1
          e.2.name).seedStart = true := decide_eq_true hnone
      have hanswer : env.exec s.execs call e.2.name
          = s.startAnswer env true e.2 := by
        rw [← hcall]
        rfl
      unfold tried
      rw [hanswer]
      cases ha : (s.startAnswer env true e.2).succeeds with
      | true =>
          have hsince : s.since (tagAppMember env e.1 true
              (s.started env e.1 true e.2)).2 = [_, _] := Sys.since_eq rfl
          rw [seedLoop_cons_ok errors hm hel ha, hsince, if_pos rfl]
          refine ⟨?_, ?_⟩
          · rw [List.filter_cons_of_neg (by simp [Event.seedStart]),
              List.filter_cons_of_pos hseed, List.filter_nil]
            rfl
          · rw [List.countP_cons_of_neg (by simp [Event.seedStart])]
            exact List.countP_le_length
      | false =>
          obtain ⟨hcount, errors', hloop⟩ :=
            @seedLoop_cons_fail env s e seeds errors hm hnone ha
          have htail := h.failed ha
          have hcall' : (s.startFailed env e.1 true e.2).startCall true
              = call := by
            rw [← hcall]
            unfold Sys.startCall
            rw [hcount, hnone]
            rfl
          obtain ⟨hkeys, hsucc⟩ := ih errors' htail hcount hcall'
          rw [hloop, since_seedLoop_fail errors' htail hcount,
            if_neg Bool.false_ne_true]
          refine ⟨?_, ?_⟩
          · rw [List.filter_append, List.map_append, hkeys,
              List.filter_cons_of_pos hseed]
            simp only [List.map_cons, List.reverse_cons]
            rfl
          · have hfailed : (s.entry env (s.startCall true) e.1
                e.2.name).succeeded = false := ha
            rw [List.countP_append,
              List.countP_cons_of_neg (by simp [hfailed])]
            exact hsucc

/-- The seeds `chooseSeeds` returns: the candidates from the first one of
maximal sequence number on. -/
def seedList (env : Env) (s : Sys) : List (String × Member) :=
  fromFirstTop (candidates s.members (s.order env))

theorem chooseSeeds_seedList (s : Sys) :
    (∃ err, chooseSeeds s.c.peers (s.order env) = .error err
        ∧ seedList env s = [])
      ∨ chooseSeeds s.c.peers (s.order env) = .ok (seedList env s) := by
  unfold seedList Sys.members
  cases s.c.peers with
  | none =>
      refine Or.inl ⟨.noKnownPeers, rfl, ?_⟩
      have hempty : candidates ∅ (s.order env) = [] := by
        refine List.eq_nil_iff_forall_not_mem.mpr fun e he => ?_
        cases (mem_candidates.mp he).1
      rw [Option.getD_none, hempty]
      rfl
  | some ms =>
      rw [chooseSeeds_eq, Option.getD_some]
      by_cases hempty : candidates ms (s.order env) = []
      · rw [if_pos hempty, hempty]
        exact Or.inl ⟨.noSeedPeers, rfl, rfl⟩
      · rw [if_neg hempty]
        exact Or.inr rfl

theorem seedStage_since (hnone : s.members.appPrimaries = 0) :
    ((s.since (seedStage env s).2).filter Event.seedStart).map Event.target
        = ((tried env (s.startCall true) s.execs (seedList env s)).map
          fun e => some e.1).reverse
      ∧ (s.since (seedStage env s).2).countP
          (fun e => e.seedStart && e.succeeded) ≤ 1 := by
  unfold seedStage
  rw [if_pos hnone]
  rcases @chooseSeeds_seedList env s with ⟨err, herr, hlist⟩ | hseeds
  · have hsince : s.since (s.ranged 1) = [] := Sys.since_eq rfl
    rw [herr, hlist]
    dsimp only
    rw [hsince]
    exact ⟨rfl, by simp⟩
  · have hstart : Startable (s.ranged 1) (seedList env s) :=
      startable_seeds hseeds
    have hloop := @seedLoop_since env (s.startCall true) _ _ [] hstart
      hnone rfl
    rw [hseeds]
    dsimp only
    split
    · exact hloop
    · exact hloop

-- ============================================== the stages of replicate

/-- The call gets to its seeding loop, which starts from `s₁`. -/
structure ReachesSeeding (env : Env) (s s₁ : Sys) : Prop where
  fits : s.members.appMembers ≤ s.spec.getNumReplicas
  unseeded : s.members.appPrimaries = 0
  complete : s.members.activeMembers = s.spec.getNumReplicas
  detected : detectStage env s = .ret () s₁

/-- A call of `replicate` is detection, seeding and the rest, in this
order; the seeding part is empty unless the call gets there. -/
theorem replicate_chain (fuel : Nat) (s : Sys) :
    ∃ s₁ s₂, Acts env (Event.detection s.members.appPrimaries) s s₁
      ∧ Acts env (Event.seedStart ·) s₁ s₂
      ∧ Acts env Event.afterSeeding s₂ (replicate env fuel s).state
      ∧ (ReachesSeeding env s s₁ ∧ s₂ = (seedStage env s₁).2
        ∨ (∀ s₁, ¬ ReachesSeeding env s s₁) ∧ s₂ = s₁) := by
  have hdefer : Acts env Event.afterSeeding (replicateBody env fuel s).state
      (replicate env fuel s).state := by
    unfold replicate
    refine Acts.andThen .refl fun errors s₁ _ => ?_
    exact Acts.quiet (Quiet.updateCRStatus _ _)
  unfold replicateBody at hdefer
  dsimp only at hdefer
  split at hdefer
  · next hbig =>
    refine ⟨s, s, .refl, .refl, hdefer, Or.inr ⟨fun s₁ h => ?_, rfl⟩⟩
    have := h.fits
    omega
  · next hfits =>
    split at hdefer
    · next hwait =>
      refine ⟨s, s, .refl, .refl, hdefer, Or.inr ⟨fun s₁ h => ?_, rfl⟩⟩
      exact hwait.2 h.complete
    · next hready =>
      obtain ⟨hdetect, hcount⟩ := @detectStage_acts env s
      unfold replicateStages at hdefer
      cases hd : detectStage env s with
      | panicked s₁ =>
          rw [hd] at hdetect hdefer
          refine ⟨s₁, s₁, hdetect, .refl, hdefer,
            Or.inr ⟨fun s₂ h => ?_, rfl⟩⟩
          cases hd.symm.trans h.detected
      | looping s₁ =>
          rw [hd] at hdetect hdefer
          refine ⟨s₁, s₁, hdetect, .refl, hdefer,
            Or.inr ⟨fun s₂ h => ?_, rfl⟩⟩
          cases hd.symm.trans h.detected
      | ret u s₁ =>
          rw [hd] at hdetect hcount hdefer
          obtain ⟨s₂, hseed, hs₂, hsize⟩ := @seed_size_acts env fuel
            s.spec.getNumReplicas s.spec.getNumPrimaries s₁
          refine ⟨s₁, s₂, hdetect, hseed, hsize.trans hdefer, ?_⟩
          by_cases hzero : s.members.appPrimaries = 0
          · refine Or.inl ⟨⟨by omega, hzero, ?_, hd⟩, hs₂⟩
            exact not_not.mp fun hne => hready ⟨hzero, hne⟩
          · refine Or.inr ⟨fun _ h => hzero h.unseeded, ?_⟩
            rw [hs₂]
            unfold seedStage
            rw [if_neg]
            rw [Outcome.state_ret] at hcount
            rw [hcount]
            exact hzero

/-- What three stages in a row have added. -/
theorem Acts.since_trans₃ {G₁ G₂ G₃ : Event → Prop} {s₁ s₂ s₃ s₄ : Sys}
    (h₁ : Acts env G₁ s₁ s₂) (h₂ : Acts env G₂ s₂ s₃)
    (h₃ : Acts env G₃ s₃ s₄) :
    s₁.since s₄ = s₃.since s₄ ++ (s₂.since s₃ ++ s₁.since s₂) := by
  refine Sys.since_eq ?_
  rw [List.append_assoc, List.append_assoc, ← h₁.trace_eq, ← h₂.trace_eq,
    ← h₃.trace_eq]

theorem Event.seedStart_iff {e : Event} :
    e.seedStart = true ↔ ∃ key k pod args peers a,
      e = .exec (.start key true) k pod args peers a
        ∧ peers.appPrimaries = 0 := by
  constructor
  · intro h
    unfold seedStart at h
    split at h
    · exact ⟨_, _, _, _, _, _, rfl, of_decide_eq_true h⟩
    · cases h
  · intro hex
    obtain ⟨key, k, pod, args, peers, a, rfl, hzero⟩ := hex
    exact decide_eq_true hzero

theorem Event.seedStart_of_quiet {e : Event} (h : e.quiet = true) :
    e.seedStart = false := by
  rw [← Bool.not_eq_true, seedStart_iff]
  intro hex
  obtain ⟨key, k, pod, args, peers, a, rfl, -⟩ := hex
  cases h

theorem Event.seedStart_of_detection {n : Int} {e : Event}
    (h : e.detection n) : e.seedStart = false := by
  rw [← Bool.not_eq_true, seedStart_iff]
  intro hex
  obtain ⟨key, k, pod, args, peers, a, rfl, -⟩ := hex
  cases h.1

theorem Event.seedStart_of_afterSeeding {e : Event} (h : e.afterSeeding) :
    e.seedStart = false := by
  rw [← Bool.not_eq_true, seedStart_iff]
  intro hex
  obtain ⟨key, k, pod, args, peers, a, rfl, hzero⟩ := hex
  exact h.2 rfl hzero

/-- No step of a stage whose events are no seed starts is one. -/
theorem Acts.filter_seedStart {G : Event → Prop} (h : Acts env G s s')
    (hG : ∀ e, G e → e.seedStart = false) :
    (s.since s').filter Event.seedStart = [] := by
  refine List.filter_eq_nil_iff.mpr fun e he => ?_
  rcases h.mem_since e he with hq | hg
  · simp [Event.seedStart_of_quiet hq]
  · simp [hG e hg]

/-- The seed starts of a call are those of its seeding stage. -/
theorem replicate_seedStarts (fuel : Nat) (s : Sys) :
    (∃ s₁, ReachesSeeding env s s₁
        ∧ (s.since (replicate env fuel s).state).filter Event.seedStart
          = (s₁.since (seedStage env s₁).2).filter Event.seedStart)
      ∨ (∀ s₁, ¬ ReachesSeeding env s s₁)
        ∧ (s.since (replicate env fuel s).state).filter Event.seedStart
          = [] := by
  obtain ⟨s₁, s₂, hdetect, hseed, hafter, hcase⟩ :=
    @replicate_chain env fuel s
  have hfilter : (s.since (replicate env fuel s).state).filter
      Event.seedStart = (s₁.since s₂).filter Event.seedStart := by
    rw [hdetect.since_trans₃ hseed hafter, List.filter_append,
      List.filter_append,
      hdetect.filter_seedStart fun _ => Event.seedStart_of_detection,
      hafter.filter_seedStart fun _ => Event.seedStart_of_afterSeeding,
      List.nil_append, List.append_nil]
  rw [hfilter]
  rcases hcase with ⟨hreach, rfl⟩ | ⟨hnot, rfl⟩
  · exact Or.inl ⟨s₁, hreach, rfl⟩
  · have hnil : s₂.since s₂ = [] := Sys.since_eq rfl
    rw [hnil]
    exact Or.inr ⟨hnot, rfl⟩

theorem ReachesSeeding.unseeded' {s₁ : Sys} (h : ReachesSeeding env s s₁) :
    s₁.members.appPrimaries = 0 := by
  have hcount := (@detectStage_acts env s).2
  rw [h.detected, Outcome.state_ret, h.unseeded] at hcount
  exact hcount

-- ======================================================== fresh seeds

/-- The member under `k` has the largest sequence number of all
candidates. -/
def FreshSeed (ms : MemberSet) (k : String) : Prop :=
  ∃ m, ms.lookup k = some m ∧ ∀ k' m', ms.lookup k' = some m' →
    m'.eligible = true → m'.seq ≤ m.seq

theorem freshSeed_iff {o : Order String} {e : String × Member}
    {ms : MemberSet} (he : e ∈ candidates ms o) :
    FreshSeed ms e.1 ↔ ¬ e.2.seq < topSeq (candidates ms o) := by
  obtain ⟨hm, -⟩ := mem_candidates.mp he
  constructor
  · intro hfresh hlt
    obtain ⟨m, hm', hmax⟩ := hfresh
    rw [hm] at hm'
    injection hm' with hm'
    subst hm'
    obtain ⟨b, hb, htop⟩ := exists_topSeq (List.ne_nil_of_mem he)
    obtain ⟨hbm, hbel⟩ := mem_candidates.mp hb
    have := hmax b.1 b.2 hbm hbel
    omega
  · intro hnlt
    refine ⟨e.2, hm, fun k' m' hm' hel => ?_⟩
    have hcand : (k', m') ∈ candidates ms o := mem_candidates.mpr ⟨hm', hel⟩
    exact Nat.le_trans (le_topSeq hcand) (Nat.not_lt.mp hnlt)

theorem mem_target_seedStart {es : List Event} {k : String} :
    some k ∈ (es.filter Event.seedStart).map Event.target
      ↔ ∃ key pod args peers a,
        .exec (.start key true) k pod args peers a ∈ es
          ∧ peers.appPrimaries = 0 := by
  rw [List.mem_map]
  constructor
  · intro hex
    obtain ⟨e, he, htarget⟩ := hex
    obtain ⟨hmem, hseed⟩ := List.mem_filter.mp he
    obtain ⟨key, k', pod, args, peers, a, rfl, hzero⟩ :=
      Event.seedStart_iff.mp hseed
    injection htarget with hk
    subst hk
    exact ⟨key, pod, args, peers, a, hmem, hzero⟩
  · intro hex
    obtain ⟨key, pod, args, peers, a, hmem, hzero⟩ := hex
    exact ⟨_, List.mem_filter.mpr ⟨hmem, decide_eq_true hzero⟩, rfl⟩

/-- The members a call starts as seeds, where it gets to seeding. -/
theorem seedStart_iff_tried {s₁ : Sys} (fuel : Nat)
    (hreach : ReachesSeeding env s s₁) :
    some k ∈ ((s.since (replicate env fuel s).state).filter
        Event.seedStart).map Event.target
      ↔ ∃ e ∈ tried env (s₁.startCall true) s₁.execs (seedList env s₁),
        e.1 = k := by
  rcases @replicate_seedStarts env fuel s with ⟨s₂, hreach', heq⟩ | ⟨hnot, -⟩
  · have hs : s₂ = s₁ := by
      have h := hreach'.detected.symm.trans hreach.detected
      injection h
    subst hs
    rw [heq, (seedStage_since hreach.unseeded').1, List.mem_reverse,
      List.mem_map]
    simp only [Option.some.injEq]
  · exact absurd hreach (hnot s₁)

/-- Every member on which `replicate` runs a start command as a seed is
of maximal sequence number, exactly if in front of every smaller one on
the list of seeds there is one whose start succeeds. The list is that of
the candidates from the first maximal one on, in the visiting order of
the call of `chooseSeeds`; its `j`-th start is the `j`-th command from
there. -/
theorem replicate_seeds_fresh_iff (env : Env) (fuel : Nat) (s : Sys) :
    (∀ key k pod args peers a,
        .exec (.start key true) k pod args peers a
            ∈ s.since (replicate env fuel s).state →
        peers.appPrimaries = 0 →
        FreshSeed (detectStage env s).state.members k)
      ↔ ∀ s₁, ReachesSeeding env s s₁ → ∀ i e,
          (seedList env s₁)[i]? = some e →
          e.2.seq < topSeq (candidates s₁.members (s₁.order env)) →
          ∃ j e', j < i ∧ (seedList env s₁)[j]? = some e'
            ∧ (env.exec (s₁.execs + j) (s₁.startCall true)
                e'.2.name).succeeds = true := by
  have hseedMem : ∀ s₁ : Sys, ∀ e ∈ seedList env s₁,
      e ∈ candidates s₁.members (s₁.order env) :=
    fun s₁ e he => (fromFirstTop_sublist _).subset he
  constructor
  · intro hfresh s₁ hreach i e hi hlt
    by_contra hnone
    -- nothing before it succeeds, so it is tried
    have htried : e ∈ tried env (s₁.startCall true) s₁.execs
        (seedList env s₁) := by
      refine mem_tried.mpr ⟨i, hi, fun j e' hj he' => ?_⟩
      rw [← Bool.not_eq_true]
      exact fun hok => hnone ⟨j, e', hj, he', hok⟩
    obtain ⟨key, pod, args, peers, a, hmem, hzero⟩ :=
      mem_target_seedStart.mp
        ((seedStart_iff_tried fuel hreach).mpr ⟨e, htried, rfl⟩)
    have hf := hfresh key e.1 pod args peers a hmem hzero
    rw [hreach.detected, Outcome.state_ret] at hf
    exact (freshSeed_iff (hseedMem s₁ e (List.mem_of_getElem? hi))).mp hf hlt
  · intro hcond key k pod args peers a hmem hzero
    have htarget := mem_target_seedStart.mpr
      ⟨key, pod, args, peers, a, hmem, hzero⟩
    rcases @replicate_seedStarts env fuel s with ⟨s₁, hreach, -⟩ | ⟨-, hnil⟩
    · obtain ⟨e, htried, rfl⟩ :=
        (seedStart_iff_tried fuel hreach).mp htarget
      obtain ⟨i, hi, hall⟩ := mem_tried.mp htried
      rw [hreach.detected, Outcome.state_ret]
      refine (freshSeed_iff
        (hseedMem s₁ e (List.mem_of_getElem? hi))).mpr fun hlt => ?_
      obtain ⟨j, e', hj, he', hok⟩ := hcond s₁ hreach i e hi hlt
      rw [hall j e' hj he'] at hok
      cases hok
    · rw [hnil] at htarget
      cases htarget

/-- The pods start out stopped, `db-0` has seen the most, and its start
fails. -/
def Env.latestFails : Env :=
  .answering fun _ call pod => match call with
    | .status => .exits 7
    | .sequence => .exitsZero (if pod = "db-0" then "7" else "5")
    | .start _ _ => if pod = "db-0" then .exits 1 else .exitsZero ""
    | .stop => .exitsZero ""

/-- `db-1` is then seeded from an older copy. -/
theorem replicate_seeds_stale :
    let s := (reconcile .latestFails .three (Sys.start (.sized 3 1))).state
    ∃ key pod args peers a,
      (.exec (.start key true) "db-1" pod args peers a
          ∈ s.since (replicate .latestFails 9 s).state
        ∧ peers.appPrimaries = 0)
        ∧ ¬ FreshSeed (detectStage .latestFails s).state.members "db-1" := by
  intro s
  obtain ⟨key, pod, args, peers, a, hmem⟩ := mem_target_seedStart.mp
    (show some "db-1" ∈ ((s.since (replicate .latestFails 9 s).state).filter
      Event.seedStart).map Event.target by decide +kernel)
  refine ⟨key, pod, args, peers, a, hmem, ?_⟩
  obtain ⟨ms, hms⟩ : ∃ ms, ms = (detectStage .latestFails s).state.members :=
    ⟨_, rfl⟩
  have hold : (ms.lookup "db-1").map Member.seq = some 5 := by
    rw [hms]
    decide +kernel
  have hnew : (ms.lookup "db-0").map (fun m => (m.seq, m.eligible))
      = some (7, true) := by
    rw [hms]
    decide +kernel
  rw [← hms]
  intro hex
  obtain ⟨m, hm, hmax⟩ := hex
  obtain ⟨m', hm', heq⟩ := Option.map_eq_some_iff.mp hnew
  obtain ⟨hseq, hel⟩ := Prod.mk.inj heq
  rw [hm] at hold
  have hle := hmax _ m' hm' hel
  have hm5 : m.seq = 5 := Option.some.inj hold
  omega

-- ========================================================== split brain

/-- The command was issued under the `seed` key. -/
def Event.usesSeed : Event → Bool
  | .exec call _ _ _ _ _ => decide (call.action = .seed)
  | _ => false

/-- No member was an online running primary when the call was made. -/
def Event.unseeded : Event → Prop
  | .exec _ _ _ _ peers _ | .delete _ peers _ =>
      ∀ k m, peers.lookup k = some m → m.isPrimary = false
  | _ => True

theorem MemberSet.appPrimaries_eq_zero {ms : MemberSet}
    (h : ms.appPrimaries = 0) (hm : ms.lookup k = some m) :
    m.isPrimary = false := by
  refine GoMap.count_eq_zero_iff.mp ?_ k m hm
  unfold appPrimaries at h
  omega

theorem Event.unseeded_of_quiet {e : Event} (h : e.quiet = true) :
    e.unseeded := by
  cases e with
  | exec => cases h
  | delete => cases h
  | tag => trivial
  | update => trivial
  | get => trivial

theorem Event.unseeded_of_seedStart {e : Event} (h : e.seedStart = true) :
    e.unseeded := by
  obtain ⟨key, k, pod, args, peers, a, rfl, hzero⟩ := seedStart_iff.mp h
  exact fun _ _ => MemberSet.appPrimaries_eq_zero hzero

theorem Event.unseeded_of_detection {e : Event} (h : e.detection 0) :
    e.unseeded := by
  cases e with
  | exec => exact fun _ _ => MemberSet.appPrimaries_eq_zero h.2
  | delete => cases h
  | tag => trivial
  | update => trivial
  | get => trivial

theorem Event.usesSeed_iff {e : Event} :
    e.usesSeed = true ↔ ∃ b k pod args peers a,
      e = .exec (.start .seed b) k pod args peers a := by
  constructor
  · intro h
    cases e with
    | exec call k pod args peers a =>
        have hact := of_decide_eq_true h
        cases call with
        | start key b =>
            have hkey : key = .seed := hact
            subst hkey
            exact ⟨b, k, pod, args, peers, a, rfl⟩
        | status => cases hact
        | sequence => cases hact
        | stop => cases hact
    | delete => cases h
    | tag => cases h
    | update => cases h
    | get => cases h
  · intro hex
    obtain ⟨b, k, pod, args, peers, a, rfl⟩ := hex
    rfl

theorem Event.usesSeed_of_afterSeeding {e : Event}
    (h : e.quiet = true ∨ e.afterSeeding) : ¬ e.usesSeed = true := by
  intro hseed
  obtain ⟨b, k, pod, args, peers, a, rfl⟩ := usesSeed_iff.mp hseed
  rcases h with h | h
  · cases h
  · exact h.1 rfl

theorem Event.usesSeed_of_detection {n : Int} {e : Event}
    (h : e.quiet = true ∨ e.detection n) : ¬ e.usesSeed = true := by
  intro hseed
  obtain ⟨b, k, pod, args, peers, a, rfl⟩ := usesSeed_iff.mp hseed
  rcases h with h | h
  · cases h
  · cases h.1

/-- An entry that is not in the front part of a list has only the back
part behind it. -/
theorem mem_of_append_eq {α : Type} {front back newer older : List α}
    {x : α} (h : front ++ back = newer ++ x :: older) (hx : x ∉ front) :
    ∀ y ∈ x :: older, y ∈ back := by
  intro y hy
  rcases List.append_eq_append_iff.mp h with
    ⟨mid, -, hback⟩ | ⟨mid, hfront, hrest⟩
  · rw [hback]
    exact List.mem_append_right _ hy
  · cases mid with
    | nil =>
        rw [List.nil_append] at hrest
        rwa [← hrest]
    | cons z mid =>
        injection hrest with hz
        refine absurd ?_ hx
        rw [hfront, hz]
        exact List.mem_append_right _ List.mem_cons_self

/-- When the `seed` key is used, no primary is there and none was since
the call began. -/
theorem replicate_seed_unseeded (fuel : Nat) (s : Sys)
    {newer older : List Event} {e : Event}
    (hsplit : s.since (replicate env fuel s).state = newer ++ e :: older)
    (hseed : e.usesSeed = true) : ∀ e' ∈ e :: older, e'.unseeded := by
  obtain ⟨s₁, s₂, hdetect, hseeding, hafter, hcase⟩ :=
    @replicate_chain env fuel s
  have hlater : ∀ x ∈ s₂.since (replicate env fuel s).state,
      ¬ x.usesSeed = true :=
    fun x hx => Event.usesSeed_of_afterSeeding (hafter.mem_since x hx)
  rw [hdetect.since_trans₃ hseeding hafter] at hsplit
  have hmem := mem_of_append_eq hsplit fun h => hlater e h hseed
  rcases hcase with ⟨hreach, -⟩ | ⟨-, hs₂⟩
  · intro x hx
    rcases List.mem_append.mp (hmem x hx) with hx | hx
    · exact (hseeding.mem_since x hx).elim Event.unseeded_of_quiet
        Event.unseeded_of_seedStart
    · rw [hreach.unseeded] at hdetect
      exact (hdetect.mem_since x hx).elim Event.unseeded_of_quiet
        Event.unseeded_of_detection
  · -- without a seeding stage the key is not used at all
    subst hs₂
    have hnil : s₂.since s₂ = [] := Sys.since_eq rfl
    rw [hnil, List.nil_append] at hmem
    have hdet := hdetect.mem_since e (hmem e List.mem_cons_self)
    exact absurd hseed (Event.usesSeed_of_detection hdet)

/-- No split brain through seeding. A call of `replicate` starts a member
as a primary while there is none only if it began without a primary and
with all pods; at most one such start succeeds; and the `seed` key is
never used once there is a primary. -/
theorem replicate_seeds_once (env : Env) (fuel : Nat) (s : Sys) :
    (∀ e ∈ s.since (replicate env fuel s).state, e.seedStart = true →
        s.members.appPrimaries = 0
          ∧ s.members.activeMembers = s.spec.getNumReplicas)
      ∧ (s.since (replicate env fuel s).state).countP
          (fun e => e.seedStart && e.succeeded) ≤ 1
      ∧ ∀ newer e older,
          s.since (replicate env fuel s).state = newer ++ e :: older →
          e.usesSeed = true → ∀ e' ∈ e :: older, e'.unseeded := by
  refine ⟨?_, ?_, fun newer e older => replicate_seed_unseeded fuel s⟩
  · intro e he hseed
    have hmem := List.mem_filter.mpr ⟨he, hseed⟩
    rcases @replicate_seedStarts env fuel s with ⟨s₁, hreach, -⟩ | ⟨-, hnil⟩
    · exact ⟨hreach.unseeded, hreach.complete⟩
    · rw [hnil] at hmem
      cases hmem
  · have hcount : ∀ es : List Event,
        es.countP (fun e => e.seedStart && e.succeeded)
          = (es.filter Event.seedStart).countP Event.succeeded := by
      intro es
      rw [List.countP_filter]
      simp only [Bool.and_comm]
    rcases @replicate_seedStarts env fuel s with
      ⟨s₁, hreach, heq⟩ | ⟨-, hnil⟩
    · rw [hcount, heq, ← hcount]
      exact (seedStage_since hreach.unseeded').2
    · rw [hcount, hnil]
      exact Nat.zero_le 1

end RssOperator
