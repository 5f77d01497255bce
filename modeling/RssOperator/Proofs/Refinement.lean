/-
The code runs as steps of the machine.

Every function of the cluster loop, from one turn of a `range` loop up
to `run`, leads from its start to its end by steps of the abstract
machine, whether it returns, panics or is still looping. The three
condition-driven loops need nothing but a statement about one turn
(`loop_leads`); their number of turns plays no role.

Each stage of `replicate` says which commands it issues. The seeding
loop starts members as primaries while there is none; everything after
it is `Event.afterSeeding`: a start as a primary only while there is
one, and never by the `seed` key.

The one place where a guard is not visible at the call is the seeding
loop: the list of seeds is computed once, and each seed is started
later. It is still a candidate then, because the seeds are different
members and a start changes no other member.
-/
import RssOperator.Proofs.Sound

namespace RssOperator

variable {env : Env} {G : Event → Prop} {s s' : Sys} {k k' : String}
  {m : Member}

-- =========================================================== reconcile

theorem Quiet.reportReconciled (errors : List Err) (s : Sys) :
    Quiet s (reportReconciled env errors s) :=
  ((Quiet.reportCondition errors s).trans (Quiet.mapStatus _ _)).trans
    (Quiet.updateCRStatus _ _)

/-- What `reconcile` does once the pods are merged in. -/
def reconcileMerged (env : Env) (s : Sys) : List Err × Sys :=
  let (errors, s) := checkMembers env s
  let (recovered, s) := recover env s
  let errors := appendAllNonNil errors recovered
  (errors, reportReconciled env errors s)

theorem reconcile_eq (pods : PodList) (s : Sys) :
    reconcile env pods s
      = match mergeMembers env (podsToMemberSet s.c.rss pods.pods) s with
        | none => .panicked s
        | some s => .ret (reconcileMerged env s).1 (reconcileMerged env s).2 :=
  rfl

theorem reconcileMerged_acts (s : Sys) :
    Acts env (fun _ => True) s (reconcileMerged env s).2 :=
  (((checkMembers_acts s).mono fun _ _ => trivial).trans
    ((recover_acts _).mono fun _ _ => trivial)).trans
      (Acts.quiet (Quiet.reportReconciled _ _))

theorem reconcile_moves (pods : PodList) (s : Sys) :
    Moves env s (reconcile env pods s).state := by
  rw [reconcile_eq]
  split
  · exact .refl
  · next s₁ h =>
    exact (Relation.ReflTransGen.single (.merge h)).trans
      (reconcileMerged_acts s₁).moves

-- =========================================================== detection

/-- Sequence numbers are asked for while there are `n` primaries. -/
def Event.detection (n : Int) : Event → Prop
  | .exec call _ _ _ peers _ => call = .sequence ∧ peers.appPrimaries = n
  | _ => False

/-- A sequence command on a member that is there, and what is written
after it. -/
theorem Acts.detect {f : Member → Member}
    (hm : s.members.lookup k = some m) (hon : m.online = true)
    (hf : ∀ m, ∃ n, f m = { m with seq := n }) :
    Acts env (Event.detection s.members.appPrimaries) s
      ((s.ran env .sequence k m.name).update m.name f) := by
  refine Relation.ReflTransGen.single
    (.detect f hm hon hf ?_ rfl ⟨rfl, rfl⟩)
  rw [Sys.peers_update, Sys.peers_ran, Sys.peers_of_lookup hm]
  rfl

/-- The same without a write. -/
theorem Acts.detect_only (hm : s.members.lookup k = some m)
    (hon : m.online = true) :
    Acts env (Event.detection s.members.appPrimaries) s
      (s.ran env .sequence k m.name) := by
  refine Relation.ReflTransGen.single
    (.detect id hm hon (fun m => ⟨m.seq, rfl⟩) ?_ rfl ⟨rfl, rfl⟩)
  rw [GoMap.modify_id]
  exact Sys.peers_of_lookup hm

theorem MemberSet.appPrimaries_seq (ms : MemberSet) (n : Nat) (k : String) :
    MemberSet.appPrimaries (ms.modify k fun m => { m with seq := n })
      = ms.appPrimaries := by
  have hcount := GoMap.count_modify_eq (p := Member.isPrimary)
    (f := fun m => { m with seq := n }) k (fun _ => rfl) ms
  exact congrArg Nat.cast hcount

theorem detectMember_acts (o : Outcome Sys Unit) (k : String) :
    Acts env (Event.detection o.state.members.appPrimaries) o.state
        (detectMember env o k).state
      ∧ (detectMember env o k).state.members.appPrimaries
        = o.state.members.appPrimaries := by
  cases o with
  | panicked s => exact ⟨.refl, rfl⟩
  | looping s => exact ⟨.refl, rfl⟩
  | ret u s =>
      unfold detectMember
      rw [Outcome.ret_andThen]
      dsimp only
      cases hm : s.members.lookup k with
      | none => exact ⟨.refl, rfl⟩
      | some m =>
          dsimp only
          split
          · exact ⟨.refl, rfl⟩
          · next hon =>
            simp only [Bool.not_eq_true', Bool.not_eq_false] at hon
            rw [execute_state]
            split
            · exact ⟨Acts.detect_only hm hon, rfl⟩
            · split
              · exact ⟨Acts.detect_only hm hon, rfl⟩
              · split
                · exact ⟨Acts.detect_only hm hon, rfl⟩
                · refine ⟨Acts.detect hm hon fun m => ⟨_, rfl⟩, ?_⟩
                  rw [Outcome.state_ret, Sys.members_update]
                  exact MemberSet.appPrimaries_seq _ _ _

/-- Detection reads sequence numbers and changes nothing else that is
counted. -/
theorem detectStage_acts (s : Sys) :
    Acts env (Event.detection s.members.appPrimaries) s
        (detectStage env s).state
      ∧ (detectStage env s).state.members.appPrimaries
        = s.members.appPrimaries := by
  have hfold : ∀ (ks : List String) (o : Outcome Sys Unit),
      Acts env (Event.detection s.members.appPrimaries) s o.state →
      o.state.members.appPrimaries = s.members.appPrimaries →
      Acts env (Event.detection s.members.appPrimaries) s
          (ks.foldl (detectMember env) o).state
        ∧ (ks.foldl (detectMember env) o).state.members.appPrimaries
          = s.members.appPrimaries := by
    intro ks
    induction ks with
    | nil => intro o ho hn; exact ⟨ho, hn⟩
    | cons k ks ih =>
        intro o ho hn
        obtain ⟨hacts, hcount⟩ := @detectMember_acts env o k
        rw [hn] at hacts hcount
        exact ih _ (ho.trans hacts) hcount
  unfold detectStage
  split
  · exact hfold _ _ (Acts.quiet (Quiet.ranged 1 s)) rfl
  · exact ⟨.refl, rfl⟩

-- ============================================================= seeding

/-- A member is started as a primary while there is none. -/
def Event.seedStart : Event → Bool
  | .exec (.start _ true) _ _ _ peers _ => decide (peers.appPrimaries = 0)
  | _ => false

/-- A start touches no other member. -/
theorem startAppMember_lookup_ne (asPrimary : Bool) (hk : k' ≠ k) :
    (startAppMember env k asPrimary s).2.members.lookup k'
      = s.members.lookup k' := by
  cases hm : s.members.lookup k with
  | none =>
      unfold startAppMember
      rw [hm]
  | some m =>
      rw [startAppMember_eq asPrimary hm]
      split
      · show ((s.started env k asPrimary m).members).lookup k' = _
        rw [Sys.members_started, GoMap.lookup_modify_ne hk]
      · rw [Sys.members_startFailed, GoMap.lookup_modify_ne hk]

/-- Entries that are in the set, each under its own key, and may be
started. -/
def Startable (s : Sys) (seeds : List (String × Member)) : Prop :=
  (seeds.map Prod.fst).Nodup
    ∧ ∀ e ∈ seeds, s.members.lookup e.1 = some e.2
        ∧ e.2.eligible = true

/-- The seeds behind the one that is started are still what they
were. -/
theorem Startable.tail {e : String × Member}
    {seeds : List (String × Member)} (h : Startable s (e :: seeds))
    (asPrimary : Bool) :
    Startable (startAppMember env e.1 asPrimary s).2 seeds := by
  obtain ⟨hnd, hall⟩ := h
  obtain ⟨hnotin, hnd'⟩ := List.nodup_cons.mp hnd
  refine ⟨hnd', ?_⟩
  intro e' he'
  have hne : e'.1 ≠ e.1 := by
    intro heq
    exact hnotin (heq ▸ List.mem_map_of_mem he')
  rw [startAppMember_lookup_ne asPrimary hne]
  exact hall e' (List.mem_cons_of_mem _ he')

theorem seedLoop_acts {seeds : List (String × Member)} :
    ∀ {s : Sys} (errors : List Err), Startable s seeds →
      s.members.appPrimaries = 0 →
      Acts env (Event.seedStart ·) s (seedLoop env seeds errors s).2 := by
  induction seeds with
  | nil => intro s errors _ _; exact .refl
  | cons e seeds ih =>
      intro s errors h hnone
      obtain ⟨hm, hel⟩ := h.2 e List.mem_cons_self
      have hstart : Acts env (Event.seedStart ·) s
          (startAppMember env e.1 true s).2 :=
        startAppMember_acts true hm hel fun _ _ => decide_eq_true hnone
      unfold seedLoop
      dsimp only
      split
      · exact hstart
      · next hcount =>
        exact hstart.trans (ih _ (h.tail true) (not_not.mp hcount))

/-- The seeds that are chosen may be started. -/
theorem startable_seeds {o : Order String} {seeds : List (String × Member)}
    (h : chooseSeeds s.c.peers o = .ok seeds) : Startable s seeds := by
  cases hp : s.c.peers with
  | none =>
      rw [hp] at h
      cases h
  | some ms =>
      rw [hp] at h
      refine ⟨nodup_seeds h, fun e he => ?_⟩
      rw [Sys.members_of_peers hp]
      exact mem_candidates.mp (mem_candidates_of_seed h he)

theorem seedStage_acts (s : Sys) :
    Acts env (Event.seedStart ·) s (seedStage env s).2 := by
  unfold seedStage
  split
  · next hnone =>
    split
    · exact Acts.quiet (Quiet.ranged 1 s)
    · next seeds hseeds =>
      have hstart : Startable (s.ranged 1) seeds := startable_seeds hseeds
      have hloop : Acts env (Event.seedStart ·) s
          (seedLoop env seeds [] (s.ranged 1)).2 :=
        (Acts.quiet (Quiet.ranged 1 s)).trans
          (seedLoop_acts [] hstart hnone)
      dsimp only
      split
      · exact hloop
      · exact hloop
  · exact .refl

/-- Seeding goes on only with a primary. -/
theorem seedStage_none (h : seedStage env s = (none, s')) :
    s'.members.appPrimaries ≠ 0 := by
  unfold seedStage at h
  split at h
  · split at h
    · cases h
    · dsimp only at h
      split at h
      · cases h
      · next hcount =>
        injection h with _ h
        rw [← h]
        exact hcount
  · next hcount =>
    injection h with _ h
    rw [← h]
    exact hcount

-- =============================================================== loops

/-- A member chosen for a start is a candidate. -/
theorem lookup_of_chooseMember {o : Order String} {e : String × Member}
    (h : chooseMember s.c.peers o = .ok e) :
    s.members.lookup e.1 = some e.2 ∧ e.2.eligible = true := by
  cases hp : s.c.peers with
  | none =>
      rw [hp] at h
      cases h
  | some ms =>
      rw [hp] at h
      rw [Sys.members_of_peers hp]
      exact chooseMember_ok h

/-- A primary chosen for a stop is a primary that has not failed. -/
theorem lookup_of_chooseCurrentPrimary {o : Order String}
    {e : String × Member} (h : chooseCurrentPrimary s.c.peers o = .ok e) :
    s.members.lookup e.1 = some e.2 ∧ e.2.stoppable = true := by
  cases hp : s.c.peers with
  | none =>
      rw [hp] at h
      cases h
  | some ms =>
      rw [hp] at h
      rw [Sys.members_of_peers hp]
      exact chooseCurrentPrimary_ok h

/-- What the stages behind the seeding loop issue. -/
def Event.afterSeeding : Event → Prop
  | .exec (.start key asPrimary) _ _ _ peers _ =>
      key ≠ .seed ∧ (asPrimary = true → peers.appPrimaries ≠ 0)
  | .exec _ _ _ _ _ _ | .delete .. => True
  | _ => False

/-- What the stages behind the promotion loop issue. -/
def Event.afterPromotion : Event → Prop
  | .exec (.start key asPrimary) _ _ _ _ _ =>
      key ≠ .seed ∧ asPrimary = false
  | .exec _ _ _ _ _ _ | .delete .. => True
  | _ => False

theorem Event.afterSeeding_of_afterPromotion :
    ∀ e, Event.afterPromotion e → e.afterSeeding := by
  intro e he
  cases e with
  | exec call =>
      cases call with
      | start key asPrimary =>
          refine ⟨he.1, fun h => ?_⟩
          rw [he.2] at h
          cases h
      | status => trivial
      | sequence => trivial
      | stop => trivial
  | delete => trivial
  | tag => cases he
  | update => cases he
  | get => cases he

theorem Event.afterPromotion_of_cleanup :
    ∀ e, Event.cleanup e → e.afterPromotion := by
  intro e he
  cases e with
  | exec call =>
      cases he
      trivial
  | delete => trivial
  | tag => cases he
  | update => cases he
  | get => cases he

/-- The seed command is for the first primary only. -/
theorem startCommand_ne_seed (asPrimary : Bool)
    (hcount : asPrimary = true → s.members.appPrimaries ≠ 0) :
    startCommand s.spec asPrimary s.members.appPrimaries ≠ .seed := by
  unfold startCommand
  split
  · next h =>
    simp only [Bool.and_eq_true, beq_iff_eq] at h
    exact absurd h.2 (hcount h.1)
  · split
    · split <;> simp
    · simp

/-- One turn of a loop, from a state in `I`: it acts within `G` and stays
in `I` if it goes round again. -/
def TurnActs (env : Env) (G : Event → Prop) (I : Sys → Prop)
    (turn : Sys × List Err → (Sys × List Err) ⊕ (Sys × List Err)) : Prop :=
  ∀ st, I st.1 → Sum.elim (fun st' => Acts env G st.1 st'.1 ∧ I st'.1)
    (fun st' => Acts env G st.1 st'.1) (turn st)

theorem promoteTurn_acts (primaries : Int) :
    TurnActs env Event.afterSeeding (fun s => s.members.appPrimaries ≠ 0)
      (promoteTurn env primaries) := by
  intro st hst
  obtain ⟨s, errors⟩ := st
  unfold promoteTurn
  dsimp only
  split
  · split
    · exact Acts.quiet (Quiet.ranged 1 s)
    · next e he =>
      obtain ⟨hm, hel⟩ := lookup_of_chooseMember he
      have hstart : Acts env Event.afterSeeding s
          (startAppMember env e.1 true (s.ranged 1)).2 :=
        (Acts.quiet (Quiet.ranged 1 s)).trans
          (startAppMember_acts true hm hel fun _ _ =>
            ⟨startCommand_ne_seed true fun _ => hst, fun _ => hst⟩)
      split
      · exact hstart
      · next hcount => exact ⟨hstart, hcount⟩
  · exact .refl

theorem demoteTurn_acts (primaries : Int) :
    TurnActs env Event.afterPromotion (fun _ => True)
      (demoteTurn env primaries) := by
  intro st _
  obtain ⟨s, errors⟩ := st
  unfold demoteTurn
  dsimp only
  split
  · split
    · exact Acts.quiet (Quiet.ranged 1 s)
    · next e he =>
      obtain ⟨hm, hst⟩ := lookup_of_chooseCurrentPrimary he
      have hm' : (s.ranged 1).members.lookup e.1 = some e.2 := hm
      exact ⟨(Acts.quiet (Quiet.ranged 1 s)).trans (stopAppMember_acts hm'
        (Or.inl hst) fun _ _ => trivial), trivial⟩
  · exact .refl

theorem secondaryTurn_acts (replicas : Int) :
    TurnActs env Event.afterPromotion (fun _ => True)
      (secondaryTurn env replicas) := by
  intro st _
  obtain ⟨s, errors⟩ := st
  unfold secondaryTurn
  dsimp only
  split
  · split
    · exact Acts.quiet (Quiet.ranged 1 s)
    · next e he =>
      obtain ⟨hm, hel⟩ := lookup_of_chooseMember he
      have hkey : startCommand s.spec false s.members.appPrimaries ≠ .seed :=
        startCommand_ne_seed false fun h => by cases h
      exact ⟨(Acts.quiet (Quiet.ranged 1 s)).trans
        (startAppMember_acts false hm hel fun _ _ => ⟨hkey, rfl⟩), trivial⟩
  · exact .refl

/-- Any number of turns of a loop. -/
theorem loop_acts {I : Sys → Prop}
    {turn : Sys × List Err → (Sys × List Err) ⊕ (Sys × List Err)}
    (hturn : TurnActs env G I turn) (fuel : Nat) (errors : List Err)
    (hs : I s) :
    Acts env G s (Sum.elim Prod.fst Prod.fst
      (loop turn fuel (s, errors))) :=
  loop_leads (R := Acts env G) (I := fun st : Sys × List Err => I st.1)
    (f := Prod.fst) (g := Prod.fst) (fun _ => .refl)
    Relation.ReflTransGen.trans hturn fuel (s, errors) hs

theorem loopStage_acts {I : Sys → Prop}
    {turn : Sys × List Err → (Sys × List Err) ⊕ (Sys × List Err)}
    (hturn : TurnActs env G I turn) (fuel : Nat) (errors : List Err)
    (hs : I s) : Acts env G s (loopStage turn fuel errors s).state :=
  loopStage_leads (R := Acts env G) (fun _ => .refl)
    Relation.ReflTransGen.trans hturn fuel errors hs

-- =========================================================== replicate

theorem finishStage_acts (errors : List Err) (s : Sys) :
    Acts env Event.afterPromotion s (finishStage env errors s).state := by
  unfold finishStage
  split
  · exact .refl
  · exact (recover_acts s).mono Event.afterPromotion_of_cleanup

/-- The last loop and the end. -/
theorem addStage_acts (fuel : Nat) (replicas : Int) (errors : List Err)
    (s : Sys) :
    Acts env Event.afterPromotion s
      ((loopStage (secondaryTurn env replicas) fuel errors s).andThen
        (finishStage env)).state := by
  refine Acts.andThen
    (loopStage_acts (secondaryTurn_acts _) fuel _ trivial) ?_
  intro errors₁ s₁ _
  exact finishStage_acts errors₁ s₁

/-- The last two loops and the end. -/
theorem demoteStage_acts (fuel : Nat) (replicas primaries : Int)
    (errors : List Err) (s : Sys) :
    Acts env Event.afterPromotion s
      ((loopStage (demoteTurn env primaries) fuel errors s).andThen
        fun errors s =>
          (loopStage (secondaryTurn env replicas) fuel errors s).andThen
            (finishStage env)).state := by
  refine Acts.andThen (loopStage_acts (demoteTurn_acts _) fuel _ trivial) ?_
  intro errors₁ s₁ _
  exact addStage_acts fuel replicas errors₁ s₁

theorem sizeStages_acts (fuel : Nat) (replicas primaries : Int)
    (hs : s.members.appPrimaries ≠ 0) :
    Acts env Event.afterSeeding s
      (sizeStages env fuel replicas primaries s).state := by
  unfold sizeStages
  refine Acts.andThen (loopStage_acts (promoteTurn_acts _) fuel _ hs) ?_
  intro errors₁ s₁ _
  exact (demoteStage_acts fuel replicas primaries errors₁ s₁).mono
    Event.afterSeeding_of_afterPromotion

/-- `replicate` from the seeding stage on. -/
theorem seed_size_acts (fuel : Nat) (replicas primaries : Int) (s : Sys) :
    ∃ s₂, Acts env (Event.seedStart ·) s s₂ ∧ s₂ = (seedStage env s).2
      ∧ Acts env Event.afterSeeding s₂
        (match seedStage env s with
          | (some errors, s) => Outcome.ret errors s
          | (none, s) => sizeStages env fuel replicas primaries s).state := by
  refine ⟨_, seedStage_acts s, rfl, ?_⟩
  split
  · next h =>
    rw [h]
    exact .refl
  · next h =>
    rw [h]
    exact sizeStages_acts fuel replicas primaries (seedStage_none h)

theorem replicateStages_acts (fuel : Nat) (s : Sys) :
    Acts env (fun _ => True) s (replicateStages env fuel s).state := by
  unfold replicateStages
  refine Acts.andThen ((detectStage_acts s).1.mono fun _ _ => trivial) ?_
  intro _ s₁ _
  obtain ⟨s₂, hseed, -, hsize⟩ := @seed_size_acts env fuel
    s.spec.getNumReplicas s.spec.getNumPrimaries s₁
  exact (hseed.mono fun _ _ => trivial).trans
    (hsize.mono fun _ _ => trivial)

theorem replicate_acts (fuel : Nat) (s : Sys) :
    Acts env (fun _ => True) s (replicate env fuel s).state := by
  have hbody : Acts env (fun _ => True) s
      (replicateBody env fuel s).state := by
    unfold replicateBody
    dsimp only
    split
    · exact .refl
    · split
      · exact .refl
      · exact replicateStages_acts fuel s
  unfold replicate
  refine Acts.andThen hbody fun errors s₁ _ => ?_
  exact Acts.quiet (Quiet.updateCRStatus _ _)

-- ================================================================ runs

theorem reconcileBranch_moves (fuel : Nat) (running : PodList) (s : Sys) :
    Moves env s (reconcileBranch env fuel running s).state := by
  unfold reconcileBranch
  refine Moves.andThen (reconcile_moves running s) fun errors s₁ _ => ?_
  dsimp only
  split
  · refine Moves.andThen (replicate_acts fuel s₁).moves ?_
    intro errors s₂ _
    split
    · exact .refl
    · refine Moves.andThen (reconcile_moves running s₂) ?_
      intro _ _ _
      exact .refl
  · exact .refl

theorem podsStopped_moves (s : Sys) :
    Moves env s (podsStopped s).state := Relation.ReflTransGen.single .clear

/-- The pods died: a merge of none. -/
theorem podsDead_moves (s : Sys) : Moves env s (podsDead env s).state := by
  unfold podsDead
  split
  · exact .refl
  · next s' h =>
    have hmerge : mergeMembers env (podsToMemberSet s.c.rss []) s
        = some s' := h
    exact Relation.ReflTransGen.single (.merge hmerge)

theorem noPodsBranch_moves (s : Sys) :
    Moves env s (noPodsBranch env s).state := by
  unfold noPodsBranch
  split
  · exact podsStopped_moves s
  · exact podsDead_moves s

theorem Moves.quiet (h : Quiet s s') : Moves env s s' :=
  Acts.moves (Acts.quiet (G := fun _ => True) h)

theorem tick_moves (fuel : Nat) (poll : Poll) (s : Sys) :
    Moves env s (tick env fuel poll s).state := by
  unfold tick
  split
  · rw [Outcome.state_ret]
    exact Moves.quiet (Quiet.mapStatus _ s)
  · refine (Moves.quiet (Quiet.mapStatus (fun st =>
        { st with controlPaused := false }) s)).trans ?_
    cases poll with
    | failed => exact .refl
    | pods running pending =>
        dsimp only
        refine (Moves.quiet (@Quiet.updateMemberStatus env running.names
          _)).trans ?_
        split
        · exact .refl
        · split
          · exact noPodsBranch_moves _
          · exact (Moves.quiet (@Quiet.noteRestoreReplicas env running _)).trans
              (reconcileBranch_moves fuel running _)

theorem Input.step_moves (i : Input) (s : Sys) :
    Moves env s (i.step env s).state := by
  cases i with
  | timer fuel poll =>
      refine Moves.andThen (tick_moves fuel poll s) fun _ _ _ => ?_
      exact .refl
  | modify rss status =>
      exact Relation.ReflTransGen.single (.modify rfl rfl)

/-- A run of the main loop is a sequence of steps. -/
theorem run_moves (is : List Input) :
    ∀ s : Sys, Moves env s (run env is s).state := by
  induction is with
  | nil => intro s; exact .refl
  | cons i is ih =>
      intro s
      exact Moves.andThen (Input.step_moves i s) fun _ s₁ _ => ih s₁

/-- Every state of the main loop is consistent. -/
theorem run_sound (rss : ReplicatedStatefulSet) (is : List Input) :
    (run env is (Sys.start rss)).state.members.Sound :=
  (run_moves is _).sound MemberSet.sound_empty

theorem RunStep.step_moves (i : RunStep) (s : Sys) :
    Moves env s (i.step env s).state := by
  cases i with
  | reconcile pods => exact reconcile_moves pods s
  | replicate fuel => exact (replicate_acts fuel s).moves
  | recover => exact (recover_acts s).moves
  | podsDead => exact podsDead_moves s
  | podsStopped => exact podsStopped_moves s
  | modify rss status =>
      exact Relation.ReflTransGen.single (.modify rfl rfl)

theorem runSteps_moves (is : List RunStep) :
    ∀ s : Sys, Moves env s (runSteps env is s).state := by
  induction is with
  | nil => intro s; exact .refl
  | cons i is ih =>
      intro s
      exact Moves.andThen (RunStep.step_moves i s) fun _ s₁ _ => ih s₁

theorem Sys.sound_of_nil (hs : s.c.peers = none) : s.members.Sound := by
  unfold Sys.members
  rw [hs]
  exact MemberSet.sound_empty

/-- In every run from a state without peers, every entry is consistent at
all times: its key is its name, it carries no flag and no sequence number
while its pod is gone, and a primary is running. -/
theorem runSteps_sound (env : Env) (steps : List RunStep)
    (hs : s.c.peers = none) :
    (runSteps env steps s).state.members.Sound :=
  (runSteps_moves steps s).sound (Sys.sound_of_nil hs)

/-- Every start fails, and nothing else does. -/
def Env.failingStarts : Env :=
  .answering fun _ call _ => match call with
    | .status => .exits 7
    | .start _ _ => .exits 1
    | .sequence | .stop => .exitsZero "5"

/-- Three pods appear, the pods die and come back. -/
theorem runSteps_sound_respawn :
    (runSteps .failingStarts
        [.reconcile .three, .replicate 9, .podsDead, .reconcile .three]
        (Sys.start (.sized 3 1))).state.members.size = 3
      ∧ (runSteps .failingStarts
        [.reconcile .three, .replicate 9, .podsDead, .reconcile .three]
        (Sys.start (.sized 3 1))).state.members.Sound :=
  ⟨by decide +kernel, runSteps_sound _ _ rfl⟩

end RssOperator
