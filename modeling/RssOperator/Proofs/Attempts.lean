/-
No member is tried twice: the seeding loop, the promotion loop and the
demotion loop of `replicate`.

# What a command uses up

A member may be started while it is `eligible` and stopped while it is
`stoppable`. A start as a primary ends the former whichever way it goes:
a success makes a primary of the member, a failure marks it failed. A
stop ends the latter in the same two ways. So the members that may be
tried are spent (`Spends`), and nothing else a loop does brings one of
them back.

# The loops

The conditions of the loops count primaries, which a failed command does
not change. What every turn that goes round again does change is the set
of members that may be tried, so it is this set the loops end on
(`TurnAttempts.ends`), and it is why the commands of any number of turns
are on different members (`TurnAttempts.loopStage`). Seeding and promotion
spend the same set, one after the other.

No invariant of the run loop is needed for any of this: the statements
are about every state.
-/
import RssOperator.Lib.Spending
import RssOperator.Proofs.Demotion
import RssOperator.Proofs.Secondaries

namespace RssOperator

variable {env : Env} {s s' s₁ s₂ s₃ : Sys} {k : String} {m : Member}
  {f : Event → Option String} {p : Member → Bool}

-- ============================================================ attempts

/-- The members with this property. -/
def Sys.having (p : Member → Bool) (s : Sys) : Set String :=
  {k | ∃ m, s.members.lookup k = some m ∧ p m = true}

theorem Sys.finite_having (p : Member → Bool) (s : Sys) :
    (s.having p).Finite := by
  refine (List.finite_toSet s.members.keys).subset ?_
  intro k hk
  obtain ⟨m, hm, -⟩ := hk
  exact GoMap.mem_keys_iff.mpr ⟨m, hm⟩

/-- The members that commands have been issued on, newest first, where
`f` reads the member off an entry of the trace. -/
def Sys.tries (f : Event → Option String) (s s' : Sys) : List String :=
  (s.since s').filterMap f

/-- From `s` to `s'` members with `p` are tried once each, and have it no
more. -/
structure Attempts (f : Event → Option String) (p : Member → Bool)
    (s s' : Sys) : Prop where
  grows : s'.trace = s.since s' ++ s.trace
  spends : Spends (s.having p) (s.tries f s') (s'.having p)

namespace Attempts

/-- Nobody is tried. -/
theorem of_members (hmembers : s'.members = s.members)
    (htrace : s'.trace = s.trace) : Attempts f p s s' where
  grows := by
    rw [@Sys.since_eq s s' [] htrace, htrace]
    rfl
  spends := by
    unfold Sys.having Sys.tries
    rw [@Sys.since_eq s s' [] htrace, hmembers]
    exact .refl _

theorem trans (h : Attempts f p s₁ s₂) (h' : Attempts f p s₂ s₃) :
    Attempts f p s₁ s₃ := by
  have hsince : s₁.since s₃ = s₂.since s₃ ++ s₁.since s₂ := by
    refine Sys.since_eq ?_
    rw [List.append_assoc, ← h.grows, ← h'.grows]
  refine ⟨?_, ?_⟩
  · rw [hsince, List.append_assoc, ← h.grows, ← h'.grows]
  · unfold Sys.tries
    rw [hsince, List.filterMap_append]
    exact h.spends.trans h'.spends

/-- One member is tried, and does not have the property any more. -/
theorem one {l : List Event} {g : Member → Member}
    (hm : s.members.lookup k = some m) (hp : p m = true)
    (hmembers : s'.members = s.members.modify k g) (hg : p (g m) = false)
    (htrace : s'.trace = l ++ s.trace) (hl : l.filterMap f = [k]) :
    Attempts f p s s' ∧ s.tries f s' = [k] := by
  have htries : s.tries f s' = [k] := by
    unfold Sys.tries
    rw [Sys.since_eq htrace, hl]
  refine ⟨⟨by rw [Sys.since_eq htrace, htrace], ?_⟩, htries⟩
  rw [htries]
  refine .one ⟨m, hm, hp⟩ ?_
  intro k' hk'
  obtain ⟨m', hm', hp'⟩ := hk'
  rw [hmembers] at hm'
  by_cases hk : k' = k
  · subst hk
    rw [GoMap.lookup_modify_of_some hm] at hm'
    cases hm'
    rw [hg] at hp'
    cases hp'
  · rw [GoMap.lookup_modify_ne hk] at hm'
    exact ⟨⟨m', hm', hp'⟩, hk⟩

end Attempts

-- ======================================================= start and stop

/-- The member a start command is for. -/
def Event.starts : Event → Option String
  | .exec (.start _ _) k _ _ _ _ => some k
  | _ => none

/-- The member a stop command is for. -/
def Event.stops : Event → Option String
  | .exec .stop k _ _ _ _ => some k
  | _ => none

/-- A start as a primary, whether or not it succeeds. -/
theorem startAppMember_attempts (hm : s.members.lookup k = some m)
    (hel : m.eligible = true) :
    Attempts Event.starts Member.eligible s
        (startAppMember env k true s).2
      ∧ s.tries Event.starts (startAppMember env k true s).2 = [k] := by
  rw [startAppMember_eq true hm]
  split
  · refine Attempts.one (l := [_, _]) hm hel (Sys.members_started true) ?_
      rfl rfl
    simp [Member.eligible, Member.noteStarted]
  · refine Attempts.one (l := [_]) hm hel (Sys.members_startFailed true) ?_
      rfl rfl
    simp [Member.eligible, Member.noteFailure]

/-- A stop, whether or not it succeeds. -/
theorem stopAppMember_attempts (hm : s.members.lookup k = some m)
    (hst : m.stoppable = true) :
    Attempts Event.stops Member.stoppable s (stopAppMember env k s).2
      ∧ s.tries Event.stops (stopAppMember env k s).2 = [k] := by
  rw [stopAppMember_eq hm]
  split
  · exact Attempts.one (l := [_, _]) hm hst (Sys.members_stopped _)
      (Member.stoppable_afterStop true m) rfl rfl
  · exact Attempts.one (l := [_, _]) hm hst (Sys.members_stopped _)
      (Member.stoppable_afterStop false m) rfl rfl

-- =============================================================== loops

/-- Every turn of a loop tries members once each, and at least one if it
goes round again. -/
def TurnAttempts (f : Event → Option String) (p : Member → Bool)
    (turn : Sys × List Err → (Sys × List Err) ⊕ (Sys × List Err)) : Prop :=
  ∀ st, Sum.elim
    (fun st' => Attempts f p st.1 st'.1 ∧ st.1.tries f st'.1 ≠ [])
    (fun st' => Attempts f p st.1 st'.1) (turn st)

namespace TurnAttempts

variable {turn : Sys × List Err → (Sys × List Err) ⊕ (Sys × List Err)}

/-- Such a loop ends: there are only so many members to try. -/
theorem ends (hturn : TurnAttempts f p turn) (st : Sys × List Err) :
    Ends turn st := by
  refine ends_of_spending (fun st => st.1.having p)
    (fun st => st.1.finite_having p) ?_ st
  intro st st' hnext
  have h := hturn st
  rw [hnext] at h
  exact ⟨_, h.2, h.1.spends⟩

/-- Any number of turns try members once each. -/
theorem loopStage (hturn : TurnAttempts f p turn) (fuel : Nat)
    (errors : List Err) (s : Sys) :
    Attempts f p s (loopStage turn fuel errors s).state := by
  refine loopStage_leads (R := Attempts f p) (I := fun _ => True)
    (fun _ => .of_members rfl rfl) Attempts.trans ?_ fuel errors trivial
  intro st _
  have hone := hturn st
  cases h : turn st with
  | inl st' =>
      rw [h] at hone
      exact ⟨hone.1, trivial⟩
  | inr st' =>
      rw [h] at hone
      exact hone

end TurnAttempts

theorem promoteTurn_attempts (primaries : Int) :
    TurnAttempts Event.starts Member.eligible
      (promoteTurn env primaries) := by
  intro st
  obtain ⟨s, errors⟩ := st
  have hranged : Attempts Event.starts Member.eligible s (s.ranged 1) :=
    .of_members rfl rfl
  unfold promoteTurn
  dsimp only
  split
  · split
    · exact hranged
    · next e he =>
      obtain ⟨hm, hel⟩ := lookup_of_chooseMember he
      obtain ⟨hstart, htries⟩ := @startAppMember_attempts env (s.ranged 1)
        e.1 e.2 hm hel
      split
      · exact hranged.trans hstart
      · refine ⟨hranged.trans hstart, ?_⟩
        show (s.ranged 1).tries Event.starts _ ≠ []
        rw [htries]
        exact List.cons_ne_nil _ _
  · exact .of_members rfl rfl

theorem demoteTurn_attempts (primaries : Int) :
    TurnAttempts Event.stops Member.stoppable
      (demoteTurn env primaries) := by
  intro st
  obtain ⟨s, errors⟩ := st
  have hranged : Attempts Event.stops Member.stoppable s (s.ranged 1) :=
    .of_members rfl rfl
  unfold demoteTurn
  dsimp only
  split
  · split
    · exact hranged
    · next e he =>
      obtain ⟨hm, hst⟩ := lookup_of_chooseCurrentPrimary he
      obtain ⟨hstop, htries⟩ := @stopAppMember_attempts env (s.ranged 1)
        e.1 e.2 hm hst
      refine ⟨hranged.trans hstop, ?_⟩
      show (s.ranged 1).tries Event.stops _ ≠ []
      rw [htries]
      exact List.cons_ne_nil _ _
  · exact .of_members rfl rfl

-- ============================================================= seeding

/-- One turn of the loop over the seeds, with those that are left. -/
def seedTurn (env : Env) :
    List (String × Member) × List Err × Sys →
      (List (String × Member) × List Err × Sys) ⊕ (List Err × Sys)
  | ([], errors, s) => .inr (errors, s)
  | (seed :: seeds, errors, s) =>
      let (err, s) := startAppMember env seed.1 true s
      let errors := appendNonNil errors err
      if s.members.appPrimaries ≠ 0 then .inr (errors, s)
      else .inl (seeds, errors, s)

/-- The loop ends with the last seed at the latest, and `seedLoop` is its
result. -/
theorem loop_seedTurn (seeds : List (String × Member)) :
    ∀ (errors : List Err) (s : Sys),
      loop (seedTurn env) (seeds.length + 1) (seeds, errors, s)
        = .inr (seedLoop env seeds errors s) := by
  induction seeds with
  | nil =>
      intro errors s
      exact loop_of_end rfl
  | cons seed seeds ih =>
      intro errors s
      rcases hstart : startAppMember env seed.1 true s with ⟨err, s₁⟩
      have hturn : seedTurn env (seed :: seeds, errors, s)
          = if s₁.members.appPrimaries ≠ 0
            then .inr (appendNonNil errors err, s₁)
            else .inl (seeds, appendNonNil errors err, s₁) := by
        unfold seedTurn
        dsimp only
        rw [hstart]
      unfold seedLoop
      rw [hstart]
      dsimp only
      by_cases hcount : s₁.members.appPrimaries ≠ 0
      · rw [if_pos hcount] at hturn
        rw [loop_of_end hturn, if_pos hcount]
      · rw [if_neg hcount] at hturn
        rw [List.length_cons, loop_of_next hturn, ih, if_neg hcount]

theorem seedLoop_attempts {seeds : List (String × Member)} :
    ∀ {s : Sys} (errors : List Err), Startable s seeds →
      Attempts Event.starts Member.eligible s
        (seedLoop env seeds errors s).2 := by
  induction seeds with
  | nil =>
      intro s errors _
      exact .of_members rfl rfl
  | cons e seeds ih =>
      intro s errors h
      obtain ⟨hm, hel⟩ := h.2 e List.mem_cons_self
      obtain ⟨hstart, -⟩ := @startAppMember_attempts env s e.1 e.2 hm hel
      unfold seedLoop
      dsimp only
      split
      · exact hstart
      · exact hstart.trans (ih _ (h.tail true))

theorem seedStage_attempts (s : Sys) :
    Attempts Event.starts Member.eligible s (seedStage env s).2 := by
  have hranged : Attempts Event.starts Member.eligible s (s.ranged 1) :=
    .of_members rfl rfl
  unfold seedStage
  split
  · split
    · exact hranged
    · next seeds hseeds =>
      have hstart : Startable (s.ranged 1) seeds := startable_seeds hseeds
      have hloop := hranged.trans (@seedLoop_attempts env _ _ [] hstart)
      dsimp only
      split
      · exact hloop
      · exact hloop
  · exact .of_members rfl rfl

/-- Seeding and, unless `replicate` returns with it, the promotion
loop. -/
def seedAndPromote (env : Env) (primaries : Int) (fuel : Nat) (s : Sys) :
    Outcome Sys (List Err) :=
  match seedStage env s with
  | (some errors, s) => .ret errors s
  | (none, s) => loopStage (promoteTurn env primaries) fuel [] s

theorem seedAndPromote_returned {primaries : Int} {fuel : Nat}
    {errors : List Err} (h : seedStage env s = (some errors, s')) :
    seedAndPromote env primaries fuel s = .ret errors s' := by
  unfold seedAndPromote
  rw [h]

theorem seedAndPromote_seeded {primaries : Int} {fuel : Nat}
    (h : seedStage env s = (none, s')) :
    seedAndPromote env primaries fuel s
      = loopStage (promoteTurn env primaries) fuel [] s' := by
  unfold seedAndPromote
  rw [h]

theorem seedAndPromote_attempts (primaries : Int) (fuel : Nat) (s : Sys) :
    Attempts Event.starts Member.eligible s
      (seedAndPromote env primaries fuel s).state := by
  have hseed := @seedStage_attempts env s
  cases h : seedStage env s with
  | mk returned s₁ =>
      rw [h] at hseed
      cases returned with
      | some errors =>
          rw [seedAndPromote_returned h]
          exact hseed
      | none =>
          rw [seedAndPromote_seeded h]
          exact hseed.trans
            ((promoteTurn_attempts primaries).loopStage fuel [] s₁)

-- =================================================== a whole replicate

/-- Nobody is tried by a stage that may do other things only. -/
theorem Acts.tries_eq_nil {G : Event → Prop} (h : Acts env G s s')
    (hquiet : ∀ e, e.quiet = true → f e = none)
    (hG : ∀ e, G e → f e = none) : s.tries f s' = [] := by
  refine List.filterMap_eq_nil_iff.mpr fun e he => ?_
  rcases h.mem_since e he with hq | he
  · exact hquiet e hq
  · exact hG e he

/-- The member that is started as a primary. -/
def Event.promotes : Event → Option String
  | .exec (.start _ true) k _ _ _ _ => some k
  | _ => none

theorem Event.promotes_of_quiet (e : Event) (h : e.quiet = true) :
    e.promotes = none := by
  cases e with
  | exec => cases h
  | delete => cases h
  | tag => rfl
  | update => rfl
  | get => rfl

theorem Event.promotes_of_detection {n : Int} (e : Event)
    (h : e.detection n) : e.promotes = none := by
  cases e with
  | exec call =>
      cases h.1
      rfl
  | delete => cases h
  | tag => cases h
  | update => cases h
  | get => cases h

theorem Event.promotes_of_afterPromotion (e : Event)
    (h : e.afterPromotion) : e.promotes = none := by
  cases e with
  | exec call =>
      cases call with
      | start key asPrimary =>
          cases h.2
          rfl
      | status => rfl
      | sequence => rfl
      | stop => rfl
  | delete => rfl
  | tag => cases h
  | update => cases h
  | get => cases h

/-- A promotion is a start. -/
theorem promotes_sublist_starts (es : List Event) :
    (es.filterMap Event.promotes).Sublist (es.filterMap Event.starts) := by
  induction es with
  | nil => exact .slnil
  | cons e es ih =>
      cases hp : e.promotes with
      | none =>
          rw [List.filterMap_cons_none hp]
          exact ih.trans ((List.sublist_cons_self e es).filterMap _)
      | some k =>
          have hs : e.starts = some k := by
            unfold Event.promotes at hp
            split at hp
            · exact hp
            · cases hp
          rw [List.filterMap_cons_some hp, List.filterMap_cons_some hs]
          exact ih.cons_cons k

/-- A call of `replicate` is detection, then seeding and promotion unless
it returns before them, and then the rest. -/
theorem replicate_stages (fuel : Nat) (s : Sys) :
    ∃ s₁ s₂, Acts env (Event.detection s.members.appPrimaries) s s₁
      ∧ (s₂ = s₁
        ∨ s₂ = (seedAndPromote env s.spec.getNumPrimaries fuel s₁).state)
      ∧ Acts env Event.afterPromotion s₂ (replicate env fuel s).state := by
  have hdefer : Acts env Event.afterPromotion
      (replicateBody env fuel s).state (replicate env fuel s).state := by
    unfold replicate
    refine Acts.andThen .refl fun errors s₁ _ => ?_
    exact Acts.quiet (Quiet.updateCRStatus _ _)
  unfold replicateBody at hdefer
  dsimp only at hdefer
  split at hdefer
  · exact ⟨s, s, .refl, Or.inl rfl, hdefer⟩
  · split at hdefer
    · exact ⟨s, s, .refl, Or.inl rfl, hdefer⟩
    · obtain ⟨hdetect, -⟩ := @detectStage_acts env s
      unfold replicateStages at hdefer
      cases hd : detectStage env s with
      | panicked s₁ =>
          rw [hd] at hdetect hdefer
          exact ⟨s₁, s₁, hdetect, Or.inl rfl, hdefer⟩
      | looping s₁ =>
          rw [hd] at hdetect hdefer
          exact ⟨s₁, s₁, hdetect, Or.inl rfl, hdefer⟩
      | ret u s₁ =>
          rw [hd] at hdetect hdefer
          refine ⟨s₁, _, hdetect, Or.inr rfl, ?_⟩
          rw [Outcome.ret_andThen] at hdefer
          cases hseed : seedStage env s₁ with
          | mk returned s₂ =>
              rw [hseed] at hdefer
              cases returned with
              | some errors =>
                  rw [seedAndPromote_returned hseed]
                  exact hdefer
              | none =>
                  rw [seedAndPromote_seeded hseed]
                  refine Relation.ReflTransGen.trans ?_ hdefer
                  refine Acts.andThen .refl fun errors s₃ _ => ?_
                  exact demoteStage_acts fuel _ _ errors s₃

/-- In the second part nobody is started twice. -/
theorem replicate_promotion (fuel : Nat) (s : Sys) :
    ∃ s₁ s₂, Acts env (Event.detection s.members.appPrimaries) s s₁
      ∧ Attempts Event.starts Member.eligible s₁ s₂
      ∧ Acts env Event.afterPromotion s₂ (replicate env fuel s).state := by
  obtain ⟨s₁, s₂, hdetect, hstage, hrest⟩ := @replicate_stages env fuel s
  refine ⟨s₁, s₂, hdetect, ?_, hrest⟩
  rcases hstage with rfl | rfl
  · exact .of_members rfl rfl
  · exact seedAndPromote_attempts _ fuel s₁

/-- In a call of `replicate` no member is started as a primary twice. -/
theorem replicate_promotes_nodup (fuel : Nat) (s : Sys) :
    (s.tries Event.promotes (replicate env fuel s).state).Nodup := by
  obtain ⟨s₁, s₂, hdetect, hboth, hrest⟩ := @replicate_promotion env fuel s
  have hbefore := hdetect.tries_eq_nil Event.promotes_of_quiet
    Event.promotes_of_detection
  have hafter := hrest.tries_eq_nil Event.promotes_of_quiet
    Event.promotes_of_afterPromotion
  have hsince : s.since (replicate env fuel s).state
      = s₂.since (replicate env fuel s).state
        ++ (s₁.since s₂ ++ s.since s₁) := by
    refine Sys.since_eq ?_
    rw [List.append_assoc, List.append_assoc, ← hdetect.trace_eq,
      ← hboth.grows, ← hrest.trace_eq]
  unfold Sys.tries at hbefore hafter ⊢
  rw [hsince, List.filterMap_append, List.filterMap_append, hbefore, hafter,
    List.nil_append, List.append_nil]
  exact hboth.spends.nodup.sublist (promotes_sublist_starts _)

-- ========================================================== the result

/-- The three loops end, whatever the members are and the commands
answer; seeding and promotion start no member twice, and demotion stops
none twice, in any number of turns. -/
theorem attempts_end_unrepeated (env : Env) (primaries : Int) (s : Sys) :
    (∀ seeds errors,
        loop (seedTurn env) (seeds.length + 1) (seeds, errors, s)
          = .inr (seedLoop env seeds errors s))
      ∧ (∀ errors, Ends (promoteTurn env primaries) (s, errors))
      ∧ (∀ errors, Ends (demoteTurn env primaries) (s, errors))
      ∧ (∀ fuel, (s.tries Event.starts
          (seedAndPromote env primaries fuel s).state).Nodup)
      ∧ ∀ fuel errors, (s.tries Event.stops
          (loopStage (demoteTurn env primaries) fuel errors s).state
            ).Nodup := by
  refine ⟨fun seeds errors => loop_seedTurn seeds errors s,
    fun errors => (promoteTurn_attempts primaries).ends (s, errors),
    fun errors => (demoteTurn_attempts primaries).ends (s, errors),
    fun fuel => (seedAndPromote_attempts primaries fuel s).spends.nodup,
    fun fuel errors =>
      ((demoteTurn_attempts primaries).loopStage fuel errors s).spends.nodup⟩

end RssOperator
