/-
A `replicate` that reports no error, as steps on the member set.

# Steps

Each command of `replicate` that succeeds writes one entry: a seed or a
promotion makes a candidate a primary, a demotion stops a primary, an
addition makes a candidate a secondary. `Writes P f` is such a write, on
an entry with the property `P`. Of the commands that fail, only those of
the seeding loop can be followed by an empty list of errors.

# The call

`ReachesSizing` and `ReachesSecondaries` are two points of a call: the
first is behind the seeding loop, the second in front of the loop that
adds secondaries, both with no error so far. A call that returns without
an error comes through both (`replicate_clean`), and the member set it
leaves is reached by rereading sequence numbers, seeding, promotions,
demotions and additions, in this order (`replicate_steps`).

# What follows

The counts move by at most one a step, and every loop tests its count
before each turn. A call without errors therefore ends with exactly the
primaries and members the spec asks for (`replicate_meets_target`), and
one that finds the counts right leaves everything alone, unless it takes
"no primary wanted" for "no primary yet" (`converged_untouched_iff`).
-/
import RssOperator.Proofs.Demotion
import RssOperator.Proofs.Errors
import RssOperator.Proofs.Frames
import RssOperator.Proofs.Secondaries
import RssOperator.Proofs.Seeding

namespace RssOperator

variable {env : Env} {s s' t : Sys} {ms ms' : MemberSet} {k : String}
  {m : Member} {fuel : Nat} {errors : List Err}

-- ============================================================== writes

/-- One entry with the property `P` is rewritten by `f`. -/
def Writes (P : Member → Bool) (f : Member → Member)
    (ms ms' : MemberSet) : Prop :=
  ∃ k m, ms.lookup k = some m ∧ P m = true ∧ ms' = ms.modify k f

/-- One sequence number is read. -/
def Reread (ms ms' : MemberSet) : Prop :=
  ∃ k n, ms' = ms.modify k fun m => { m with seq := n }

/-- A candidate is made a primary while more are wanted. -/
def Promotes (primaries : Int) (ms ms' : MemberSet) : Prop :=
  ms.appPrimaries < primaries
    ∧ Writes Member.eligible (Member.noteStarted true) ms ms'

/-- A primary is stopped while there are too many. -/
def Demotes (primaries : Int) (ms ms' : MemberSet) : Prop :=
  primaries < ms.appPrimaries
    ∧ Writes Member.stoppable Member.noteStopped ms ms'

/-- The same, with what is known of the choice: if the primary is there,
nobody who could be stopped has a larger name. -/
def DemotesLargest (primaries : Int) (ms ms' : MemberSet) : Prop :=
  primaries < ms.appPrimaries
    ∧ ∃ k m, ms.lookup k = some m ∧ m.stoppable = true
      ∧ ms' = ms.modify k Member.noteStopped
      ∧ (m.online = true → ∀ k' m', ms.lookup k' = some m' →
        m'.stoppable = true → ¬ m.name < m'.name)

theorem DemotesLargest.demotes {primaries : Int}
    (h : DemotesLargest primaries ms ms') : Demotes primaries ms ms' := by
  obtain ⟨hlt, k, m, hm, hst, hsame, -⟩ := h
  exact ⟨hlt, k, m, hm, hst, hsame⟩

/-- A candidate is made a secondary while members are missing. -/
def Adds (replicas : Int) (ms ms' : MemberSet) : Prop :=
  ms.appMembers < replicas
    ∧ Writes Member.eligible (Member.noteStarted false) ms ms'

/-- Nothing if there is a primary; else some candidates fail and one is
made the first primary. -/
def Seeded (ms ms' : MemberSet) : Prop :=
  ms.appPrimaries ≠ 0 ∧ ms' = ms
    ∨ ms.appPrimaries = 0 ∧ ∃ ms₁,
      Relation.ReflTransGen (Writes Member.eligible Member.noteFailure)
        ms ms₁
      ∧ Writes Member.eligible (Member.noteStarted true) ms₁ ms'

-- =========================================================== one start

/-- A start that adds no error has succeeded. -/
theorem startAppMember_clean {asPrimary : Bool}
    (hm : s.members.lookup k = some m)
    (h : appendNonNil errors (startAppMember env k asPrimary s).1 = []) :
    errors = [] ∧ (startAppMember env k asPrimary s).2.members
      = s.members.modify k (Member.noteStarted asPrimary) := by
  rw [startAppMember_eq asPrimary hm] at h ⊢
  by_cases ha : (s.startAnswer env asPrimary m).succeeds = true
  · rw [if_pos ha] at h ⊢
    exact ⟨h, Sys.members_started asPrimary⟩
  · rw [if_neg ha] at h
    exact absurd h (appendNonNil_ne_nil (Err.text_application _ _ _))

theorem stopAppMember_clean (hm : s.members.lookup k = some m)
    (h : appendNonNil errors (stopAppMember env k s).1 = []) :
    errors = [] ∧ (stopAppMember env k s).2.members
      = s.members.modify k Member.noteStopped := by
  rw [stopAppMember_eq hm] at h ⊢
  by_cases ha : (s.stopAnswer env m).succeeds = true
  · rw [if_pos ha] at h ⊢
    exact ⟨h, Sys.members_stopped _⟩
  · rw [if_neg ha] at h
    exact absurd h (appendNonNil_ne_nil (Err.text_application _ _ _))

-- =========================================================== the loops

/-- What a turn has done that leaves the list of errors empty: a step, or
the end of the loop. -/
def CleanTurn (Step : MemberSet → MemberSet → Prop) (Done : MemberSet → Prop)
    (turn : Sys × List Err → (Sys × List Err) ⊕ (Sys × List Err)) : Prop :=
  ∀ s errors, Sum.elim
    (fun st => st.2 = [] → errors = [] ∧ Step s.members st.1.members)
    (fun st => st.2 = [] → errors = [] ∧ st.1.members = s.members
      ∧ Done s.members)
    (turn (s, errors))

theorem CleanTurn.mono {Step Step' : MemberSet → MemberSet → Prop}
    {Done : MemberSet → Prop}
    {turn : Sys × List Err → (Sys × List Err) ⊕ (Sys × List Err)}
    (h : CleanTurn Step Done turn)
    (himp : ∀ ms ms', Step ms ms' → Step' ms ms') :
    CleanTurn Step' Done turn := by
  intro s errors
  have hone := h s errors
  cases hturn : turn (s, errors) with
  | inl st =>
      rw [hturn] at hone
      intro hnil
      obtain ⟨herr, hstep⟩ := hone hnil
      exact ⟨herr, himp _ _ hstep⟩
  | inr st =>
      rw [hturn] at hone
      exact hone

theorem loopStage_clean {Step : MemberSet → MemberSet → Prop}
    {Done : MemberSet → Prop}
    {turn : Sys × List Err → (Sys × List Err) ⊕ (Sys × List Err)}
    (hturn : CleanTurn Step Done turn)
    (h : loopStage turn fuel errors s = .ret [] t) :
    errors = [] ∧ Relation.ReflTransGen Step s.members t.members
      ∧ Done t.members := by
  have hloop : ∀ n s errors t, loop turn n (s, errors) = .inr (t, []) →
      errors = [] ∧ Relation.ReflTransGen Step s.members t.members
        ∧ Done t.members := by
    intro n
    induction n with
    | zero => intro s errors t h; cases h
    | succ n ih =>
        intro s errors t h
        have hone := hturn s errors
        cases hb : turn (s, errors) with
        | inl st =>
            rw [hb] at hone
            rw [loop_of_next hb] at h
            obtain ⟨hnil, hsteps, hdone⟩ := ih st.1 st.2 t h
            obtain ⟨herr, hstep⟩ := hone hnil
            exact ⟨herr, hsteps.head hstep, hdone⟩
        | inr st =>
            rw [hb] at hone
            rw [loop_of_end hb] at h
            injection h with h
            subst h
            obtain ⟨herr, hsame, hdone⟩ := hone rfl
            exact ⟨herr, hsame ▸ .refl, hsame.symm ▸ hdone⟩
  unfold loopStage at h
  split at h
  · split at h
    · cases h
    · next hend =>
      injection h with hnil hs
      subst hnil hs
      exact hloop _ _ _ _ hend
  · next hne =>
    injection h with hnil
    exact absurd hnil hne

theorem promoteTurn_clean (primaries : Int) :
    CleanTurn (Promotes primaries) (fun ms => primaries ≤ ms.appPrimaries)
      (promoteTurn env primaries) := by
  intro s errors
  unfold promoteTurn
  dsimp only
  split
  · next hlt =>
    split
    · next err herr =>
      intro hnil
      exact absurd hnil (appendNonNil_ne_nil (chooseMember_text herr))
    · next e he =>
      obtain ⟨hm, hel⟩ := lookup_of_chooseMember he
      have hm' : (s.ranged 1).members.lookup e.1 = some e.2 := hm
      split
      · next hzero =>
        intro hnil
        obtain ⟨-, hmem⟩ := startAppMember_clean hm' hnil
        rw [hmem] at hzero
        exact absurd hzero (MemberSet.appPrimaries_noteStarted hm hel)
      · intro hnil
        obtain ⟨herr, hmem⟩ := startAppMember_clean hm' hnil
        exact ⟨herr, hlt, e.1, e.2, hm, hel, hmem⟩
  · next hge =>
    intro hnil
    exact ⟨hnil, rfl, by omega⟩

theorem demoteTurn_largest (primaries : Int) :
    CleanTurn (DemotesLargest primaries)
      (fun ms => ms.appPrimaries ≤ primaries)
      (demoteTurn env primaries) := by
  intro s errors
  unfold demoteTurn
  dsimp only
  split
  · next hlt =>
    split
    · next err herr =>
      intro hnil
      exact absurd hnil
        (appendNonNil_ne_nil (chooseCurrentPrimary_text herr))
    · next e he =>
      obtain ⟨hm, hst⟩ := lookup_of_chooseCurrentPrimary he
      have hm' : (s.ranged 1).members.lookup e.1 = some e.2 := hm
      intro hnil
      obtain ⟨herr, hmem⟩ := stopAppMember_clean hm' hnil
      refine ⟨herr, hlt, e.1, e.2, hm, hst, hmem, ?_⟩
      intro hon k' m' hk' hst'
      rw [Sys.peers_of_lookup hm] at he
      exact (chooseCurrentPrimary_largest he hon hk' hst').2
  · next hge =>
    intro hnil
    exact ⟨hnil, rfl, by omega⟩

theorem demoteTurn_clean (primaries : Int) :
    CleanTurn (Demotes primaries) (fun ms => ms.appPrimaries ≤ primaries)
      (demoteTurn env primaries) :=
  (demoteTurn_largest primaries).mono fun _ _ h => h.demotes

theorem secondaryTurn_clean (replicas : Int) :
    CleanTurn (Adds replicas) (fun ms => replicas ≤ ms.appMembers)
      (secondaryTurn env replicas) := by
  intro s errors
  unfold secondaryTurn
  dsimp only
  split
  · next hlt =>
    split
    · next err herr =>
      intro hnil
      exact absurd hnil (appendNonNil_ne_nil (chooseMember_text herr))
    · next e he =>
      obtain ⟨hm, hel⟩ := lookup_of_chooseMember he
      have hm' : (s.ranged 1).members.lookup e.1 = some e.2 := hm
      intro hnil
      obtain ⟨herr, hmem⟩ := startAppMember_clean hm' hnil
      exact ⟨herr, hlt, e.1, e.2, hm, hel, hmem⟩
  · next hge =>
    intro hnil
    exact ⟨hnil, rfl, by omega⟩

-- ================================================= detection and seeds

/-- Detection rereads sequence numbers. -/
theorem detectMember_rereads (o : Outcome Sys Unit) (k : String) :
    Relation.ReflTransGen Reread o.state.members
      (detectMember env o k).state.members := by
  cases o with
  | panicked s => exact .refl
  | looping s => exact .refl
  | ret u s =>
      unfold detectMember
      rw [Outcome.ret_andThen]
      dsimp only
      split
      · exact .refl
      · next m hm =>
        split
        · exact .refl
        · rw [execute_state]
          split
          · exact .refl
          · split
            · exact .refl
            · split
              · exact .refl
              · exact .single ⟨m.name,
                  (parseUint64 (trimSpace (execute env .sequence k m.name
                    s).1.stdout.toList)).1, Sys.members_update _ _ _⟩

theorem detectStage_rereads (s : Sys) :
    Relation.ReflTransGen Reread s.members
      (detectStage env s).state.members := by
  have hfold : ∀ (ks : List String) (o : Outcome Sys Unit),
      Relation.ReflTransGen Reread o.state.members
        (ks.foldl (detectMember env) o).state.members := by
    intro ks
    induction ks with
    | nil => intro o; exact .refl
    | cons k ks ih =>
        intro o
        exact (detectMember_rereads o k).trans (ih _)
  unfold detectStage
  split
  · exact hfold _ (.ret () (s.ranged 1))
  · exact .refl

theorem seedLoop_seeds {seeds : List (String × Member)} :
    ∀ {s : Sys} (errors : List Err), Startable s seeds →
      s.members.appPrimaries = 0 →
      (seedLoop env seeds errors s).2.members.appPrimaries ≠ 0 →
      Seeded s.members (seedLoop env seeds errors s).2.members := by
  induction seeds with
  | nil =>
      intro s errors _ hnone hsome
      exact absurd hnone hsome
  | cons e seeds ih =>
      intro s errors h hnone hsome
      obtain ⟨hm, hel⟩ := h.2 e List.mem_cons_self
      cases ha : (s.startAnswer env true e.2).succeeds with
      | true =>
          rw [seedLoop_cons_ok errors hm hel ha]
          exact Or.inr ⟨hnone, s.members, .refl, e.1, e.2, hm, hel,
            Sys.members_started true⟩
      | false =>
          obtain ⟨hcount, errors', hloop⟩ :=
            @seedLoop_cons_fail env s e seeds errors hm hnone ha
          rw [hloop] at hsome ⊢
          rcases ih errors' (h.failed ha) hcount hsome with
            ⟨hne, _⟩ | ⟨_, ms₁, hfails, hstart⟩
          · exact absurd hcount hne
          · refine Or.inr ⟨hnone, ms₁, hfails.head ?_, hstart⟩
            exact ⟨e.1, e.2, hm, hel, Sys.members_startFailed true⟩

theorem seedStage_seeds (h : seedStage env s = (none, t)) :
    Seeded s.members t.members := by
  unfold seedStage at h
  split at h
  · next hnone =>
    split at h
    · cases h
    · next seeds hseeds =>
      dsimp only at h
      split at h
      · cases h
      · next hsome =>
        injection h with _ h
        subst h
        have hstart : Startable (s.ranged 1) seeds := startable_seeds hseeds
        exact seedLoop_seeds [] hstart hnone hsome
  · next hne =>
    injection h with _ h
    subst h
    exact Or.inl ⟨hne, rfl⟩

-- ============================================================ the call

/-- The call gets behind its seeding loop, in state `t`. -/
def ReachesSizing (env : Env) (s t : Sys) : Prop :=
  s.members.appMembers ≤ s.spec.getNumReplicas
    ∧ (s.members.appPrimaries = 0 →
        s.members.activeMembers = s.spec.getNumReplicas)
    ∧ ∃ s₁, detectStage env s = .ret () s₁ ∧ seedStage env s₁ = (none, t)

/-- The call gets to the loop that adds secondaries, in state `t`, with no
error so far. -/
def ReachesSecondaries (env : Env) (fuel : Nat) (s t : Sys) : Prop :=
  ∃ s₁ s₂, ReachesSizing env s s₁
    ∧ loopStage (promoteTurn env s.spec.getNumPrimaries) fuel [] s₁
        = .ret [] s₂
    ∧ loopStage (demoteTurn env s.spec.getNumPrimaries) fuel [] s₂
        = .ret [] t

/-- Seeding that fails reports one error. -/
theorem seedStage_error (h : seedStage env s = (some errors, t)) :
    ∃ err, errors = [err] := by
  unfold seedStage at h
  split at h
  · split at h
    · injection h with h
      injection h with h
      exact ⟨_, h.symm⟩
    · dsimp only at h
      split at h
      · injection h with h
        injection h with h
        exact ⟨_, h.symm⟩
      · cases h
  · cases h

/-- A call either returns early with one error, or it comes behind its
seeding loop, or it does not come back from detection. -/
theorem replicateBody_cases (env : Env) (fuel : Nat) (s : Sys) :
    (∃ err t, replicateBody env fuel s = .ret [err] t)
      ∨ (∃ t, ReachesSizing env s t ∧ replicateBody env fuel s
          = sizeStages env fuel s.spec.getNumReplicas
              s.spec.getNumPrimaries t)
      ∨ ∀ errors t, replicateBody env fuel s ≠ .ret errors t := by
  unfold replicateBody
  dsimp only
  split
  · exact Or.inl ⟨_, _, rfl⟩
  · next hfits =>
    split
    · exact Or.inl ⟨_, _, rfl⟩
    · next hgate =>
      have hgate' : s.members.appPrimaries = 0 →
          s.members.activeMembers = s.spec.getNumReplicas := by
        intro hzero
        by_contra hne
        exact hgate ⟨hzero, hne⟩
      unfold replicateStages
      cases hd : detectStage env s with
      | panicked s₁ => exact Or.inr (Or.inr fun _ _ h => by cases h)
      | looping s₁ => exact Or.inr (Or.inr fun _ _ h => by cases h)
      | ret u s₁ =>
          rw [Outcome.ret_andThen]
          cases hs : seedStage env s₁ with
          | mk early t =>
              cases early with
              | none =>
                  exact Or.inr (Or.inl ⟨t, ⟨by omega, hgate', s₁, hd, hs⟩,
                    rfl⟩)
              | some errors =>
                  obtain ⟨err, rfl⟩ := seedStage_error hs
                  exact Or.inl ⟨err, t, rfl⟩

/-- The end after an error: `recover`, and the error stays. -/
theorem finishStage_failed (hne : errors ≠ []) :
    ∃ errors', errors' ≠ []
      ∧ finishStage env errors t = .ret errors' (recover env t).2 := by
  refine ⟨appendAllNonNil errors (recover env t).1, ?_, ?_⟩
  · obtain ⟨err, herr⟩ := List.exists_mem_of_ne_nil _ hne
    intro hnil
    have hmem : err ∈ appendAllNonNil errors (recover env t).1 :=
      mem_appendAllNonNil.mpr (Or.inl herr)
    rw [hnil] at hmem
    cases hmem
  · unfold finishStage
    rw [if_neg (fun hand => hne hand.1)]

/-- The end of a call that wants pods: without an error it changes
nothing, and it never takes an error off the list. -/
theorem finishStage_clean (hpos : 0 < s.spec.getNumReplicas)
    (h : finishStage env errors s = .ret [] t) : errors = [] ∧ t = s := by
  by_cases hnil : errors = []
  · unfold finishStage at h
    rw [if_pos ⟨hnil, hpos⟩] at h
    injection h with _ h
    exact ⟨hnil, h.symm⟩
  · obtain ⟨errors', hne, hret⟩ := @finishStage_failed env s errors hnil
    rw [hret] at h
    injection h with h _
    exact absurd h hne

theorem ReachesSizing.spec (h : ReachesSizing env s t) :
    t.spec = s.spec := by
  obtain ⟨-, -, s₁, hdetect, hseed⟩ := h
  have h₁ := (Steady.frame env).detectStage s
  have h₂ := (Steady.frame env).seedStage s₁
  rw [hdetect] at h₁
  rw [hseed] at h₂
  exact h₂.spec.trans h₁.spec

/-- A loop whose turns stay inside the frame keeps the spec. -/
theorem spec_loopStage (env : Env)
    {turn : Sys × List Err → (Sys × List Err) ⊕ (Sys × List Err)}
    (hturn : ∀ st, Sum.elim (fun st' => Steady st.1 st'.1)
      (fun st' => Steady st.1 st'.1) (turn st)) {errors' : List Err}
    (h : loopStage turn fuel errors s = .ret errors' t) :
    t.spec = s.spec := by
  have hsteady := (Steady.frame env).loopStage hturn fuel errors s
  rw [h] at hsteady
  exact hsteady.spec

/-- A call without errors comes to its last loop, which ends without one,
and leaves the members as that loop does. -/
theorem replicate_clean (hpos : 0 < s.spec.getNumReplicas)
    (h : replicate env fuel s = .ret [] s') :
    ∃ t t', ReachesSecondaries env fuel s t
      ∧ loopStage (secondaryTurn env s.spec.getNumReplicas) fuel [] t
          = .ret [] t'
      ∧ s'.members = t'.members := by
  obtain ⟨errors, t₀, hbody, hend⟩ := Outcome.andThen_eq_ret h
  injection hend with hnil hs'
  subst hnil hs'
  rcases replicateBody_cases env fuel s with
    ⟨err, t, hret⟩ | ⟨s₁, hreach, hsize⟩ | hnever
  · rw [hret] at hbody
    cases hbody
  · rw [hsize] at hbody
    unfold sizeStages at hbody
    obtain ⟨errors₁, s₂, hprom, hbody⟩ := Outcome.andThen_eq_ret hbody
    obtain ⟨errors₂, s₃, hdem, hbody⟩ := Outcome.andThen_eq_ret hbody
    obtain ⟨errors₃, s₄, hadd, hbody⟩ := Outcome.andThen_eq_ret hbody
    have F := Steady.frame env
    have hspec : s₄.spec = s.spec :=
      (spec_loopStage env (F.secondaryTurn _) hadd).trans
        ((spec_loopStage env (F.demoteTurn _) hdem).trans
          ((spec_loopStage env (F.promoteTurn _) hprom).trans
            hreach.spec))
    -- no stage takes an error off the list
    obtain ⟨rfl, rfl⟩ := finishStage_clean (hspec ▸ hpos) hbody
    obtain ⟨rfl, -⟩ := loopStage_clean (secondaryTurn_clean _) hadd
    obtain ⟨rfl, -⟩ := loopStage_clean (demoteTurn_clean _) hdem
    exact ⟨s₃, t₀, ⟨s₁, s₂, hreach, hprom, hdem⟩, hadd,
      (Quiet.updateCRStatus _ _).members⟩
  · exact absurd hbody (hnever _ _)

/-- The steps of a call up to its last loop, from `ms` to `ms₄`: the three
sets in between are those after detection, seeding and promotion. -/
structure SizedUpTo (replicas primaries : Int)
    (ms ms₁ ms₂ ms₃ ms₄ : MemberSet) : Prop where
  fits : ms.appMembers ≤ replicas
  gate : ms.appPrimaries = 0 → ms.activeMembers = replicas
  reread : Relation.ReflTransGen Reread ms ms₁
  seeded : Seeded ms₁ ms₂
  promoted : Relation.ReflTransGen (Promotes primaries) ms₂ ms₃
  enough : primaries ≤ ms₃.appPrimaries
  demoted : Relation.ReflTransGen (Demotes primaries) ms₃ ms₄
  notTooMany : ms₄.appPrimaries ≤ primaries

/-- The steps of a call without errors: the last loop comes to its end,
too. -/
structure SizedBy (replicas primaries : Int)
    (ms ms₁ ms₂ ms₃ ms₄ ms' : MemberSet) : Prop
    extends SizedUpTo replicas primaries ms ms₁ ms₂ ms₃ ms₄ where
  added : Relation.ReflTransGen (Adds replicas) ms₄ ms'
  complete : replicas ≤ ms'.appMembers

theorem ReachesSecondaries.steps (h : ReachesSecondaries env fuel s t) :
    ∃ ms₁ ms₂ ms₃, SizedUpTo s.spec.getNumReplicas s.spec.getNumPrimaries
        s.members ms₁ ms₂ ms₃ t.members
      ∧ Relation.ReflTransGen (DemotesLargest s.spec.getNumPrimaries)
          ms₃ t.members := by
  obtain ⟨s₁, s₂, ⟨hfits, hgate, s₀, hdetect, hseed⟩, hprom, hdem⟩ := h
  have hreread := @detectStage_rereads env s
  rw [hdetect] at hreread
  obtain ⟨-, hpromoted, henough⟩ :=
    loopStage_clean (promoteTurn_clean _) hprom
  obtain ⟨-, hlargest, hmany⟩ := loopStage_clean (demoteTurn_largest _) hdem
  have hdemoted : Relation.ReflTransGen (Demotes s.spec.getNumPrimaries)
      s₂.members t.members :=
    Relation.ReflTransGen.mono (fun _ _ h => DemotesLargest.demotes h) _ _
      hlargest
  exact ⟨s₀.members, s₁.members, s₂.members, ⟨hfits, hgate, hreread,
    seedStage_seeds hseed, hpromoted, henough, hdemoted, hmany⟩, hlargest⟩

/-- A call without errors, step by step. The demotions take the largest
name of those who are there. -/
theorem replicate_steps (hpos : 0 < s.spec.getNumReplicas)
    (h : replicate env fuel s = .ret [] s') :
    ∃ ms₁ ms₂ ms₃ ms₄, SizedBy s.spec.getNumReplicas
        s.spec.getNumPrimaries s.members ms₁ ms₂ ms₃ ms₄ s'.members
      ∧ Relation.ReflTransGen (DemotesLargest s.spec.getNumPrimaries)
          ms₃ ms₄ := by
  obtain ⟨t, t', hreach, hadd, hmem⟩ := replicate_clean hpos h
  obtain ⟨ms₁, ms₂, ms₃, hsteps, hlargest⟩ := hreach.steps
  obtain ⟨-, hadded, hcomplete⟩ :=
    loopStage_clean (secondaryTurn_clean _) hadd
  rw [hmem]
  exact ⟨ms₁, ms₂, ms₃, t.members, ⟨hsteps, hadded, hcomplete⟩, hlargest⟩

-- ============================================================= counting

/-- What every step of a kind keeps, all of them together keep. -/
theorem steps_keep {Step : MemberSet → MemberSet → Prop}
    {I : MemberSet → Prop} (hstep : ∀ ms ms', Step ms ms' → I ms → I ms')
    (h : Relation.ReflTransGen Step ms ms') (hms : I ms) : I ms' := by
  induction h with
  | refl => exact hms
  | tail _ hone ih => exact hstep _ _ hone ih

/-- A write that leaves `p` alone leaves its count alone. -/
theorem Writes.count {P p : Member → Bool} {f : Member → Member}
    (h : Writes P f ms ms') (hp : ∀ m, P m = true → p (f m) = p m) :
    GoMap.count p ms' = GoMap.count p ms := by
  obtain ⟨k, m, hm, hP, rfl⟩ := h
  have hcount := GoMap.count_modify (p := p) f hm
  rw [hp m hP] at hcount
  omega

theorem Reread.count {p : Member → Bool} (h : Reread ms ms')
    (hp : ∀ (m : Member) n, p { m with seq := n } = p m) :
    GoMap.count p ms' = GoMap.count p ms := by
  obtain ⟨k, n, rfl⟩ := h
  exact GoMap.count_modify_eq k (fun m => hp m n) ms

/-- A number that no step of a kind changes, all of them together do not
change. -/
theorem steps_eq {α : Type} {Step : MemberSet → MemberSet → Prop}
    {c : MemberSet → α} (hstep : ∀ ms ms', Step ms ms' → c ms' = c ms)
    (h : Relation.ReflTransGen Step ms ms') : c ms' = c ms := by
  induction h with
  | refl => rfl
  | tail _ hone ih => exact (hstep _ _ hone).trans ih

theorem Writes.active {P : Member → Bool} {f : Member → Member}
    (h : Writes P f ms ms') (hf : ∀ m, (f m).online = m.online) :
    ms'.activeMembers = ms.activeMembers :=
  congrArg Nat.cast (h.count fun m _ => hf m)

theorem Reread.active (h : Reread ms ms') :
    ms'.activeMembers = ms.activeMembers :=
  congrArg Nat.cast (h.count fun _ _ => rfl)

/-- No step of a call takes a member online or offline. -/
theorem SizedBy.active {replicas primaries : Int}
    {ms₁ ms₂ ms₃ ms₄ : MemberSet}
    (h : SizedBy replicas primaries ms ms₁ ms₂ ms₃ ms₄ ms') :
    ms'.activeMembers = ms.activeMembers := by
  have h₁ : ms₁.activeMembers = ms.activeMembers :=
    steps_eq (fun _ _ hr => hr.active) h.reread
  have h₂ : ms₂.activeMembers = ms₁.activeMembers := by
    rcases h.seeded with ⟨_, rfl⟩ | ⟨_, ms₀, hfails, hstart⟩
    · rfl
    · rw [hstart.active fun _ => rfl]
      exact steps_eq (fun _ _ hw => hw.active fun _ => rfl) hfails
  have h₃ : ms₃.activeMembers = ms₂.activeMembers :=
    steps_eq (fun _ _ hp => hp.2.active fun _ => rfl) h.promoted
  have h₄ : ms₄.activeMembers = ms₃.activeMembers :=
    steps_eq (fun _ _ hd => hd.2.active fun _ => rfl) h.demoted
  have h₅ : ms'.activeMembers = ms₄.activeMembers :=
    steps_eq (fun _ _ ha => ha.2.active fun _ => rfl) h.added
  omega

/-- A stop takes at most one primary away. -/
theorem Demotes.appPrimaries {primaries : Int}
    (h : Demotes primaries ms ms') : primaries ≤ ms'.appPrimaries := by
  obtain ⟨hlt, k, m, hm, -, rfl⟩ := h
  have hcount := GoMap.count_modify (p := Member.isPrimary)
    Member.noteStopped hm
  have hle : m.isPrimary.toNat ≤ 1 := Bool.toNat_le _
  unfold MemberSet.appPrimaries at hlt ⊢
  omega

/-- A secondary that is started was no primary and becomes none. -/
theorem Adds.appPrimaries {replicas : Int} (h : Adds replicas ms ms') :
    ms'.appPrimaries = ms.appPrimaries := by
  refine congrArg Nat.cast (h.2.count fun m hel => ?_)
  obtain ⟨-, -, hpr⟩ := Member.eligible_iff.mp hel
  simp [Member.isPrimary, Member.noteStarted, hpr]

/-- Members that run are online. -/
theorem MemberSet.appMembers_le_active (ms : MemberSet) :
    ms.appMembers ≤ ms.activeMembers := by
  unfold appMembers activeMembers
  refine Int.ofNat_le.mpr (List.countP_mono_left ?_)
  intro e _ h
  exact (Member.isRunning_iff.mp h).1

-- ========================================================== the target

/-- A call without errors has met its target, if no more pods were there
than are wanted: demotion ends at the target, and secondaries are not
counted. -/
theorem SizedBy.target {replicas primaries : Int}
    {ms₁ ms₂ ms₃ ms₄ : MemberSet}
    (h : SizedBy replicas primaries ms ms₁ ms₂ ms₃ ms₄ ms')
    (hactive : ms.activeMembers ≤ replicas) :
    ms'.appPrimaries = primaries ∧ ms'.appMembers = replicas := by
  have hprimaries : primaries ≤ ms₄.appPrimaries :=
    steps_keep (fun _ _ hs _ => hs.appPrimaries) h.demoted h.enough
  have hkept : ms'.appPrimaries = ms₄.appPrimaries :=
    steps_eq (fun _ _ hs => hs.appPrimaries) h.added
  have hmembers := ms'.appMembers_le_active
  rw [h.active] at hmembers
  have hmany := h.notTooMany
  have hcomplete := h.complete
  constructor
  · omega
  · omega

/-- A `replicate` that reports no error has met its target. -/
theorem replicate_meets_target (env : Env) (fuel : Nat) (s s' : Sys)
    (hpos : 0 < s.spec.getNumReplicas)
    (hactive : s.members.activeMembers ≤ s.spec.getNumReplicas)
    (h : replicate env fuel s = .ret [] s') :
    s'.members.appPrimaries = s.spec.getNumPrimaries
      ∧ s'.members.appMembers = s.spec.getNumReplicas := by
  obtain ⟨ms₁, ms₂, ms₃, ms₄, hsized, -⟩ := replicate_steps hpos h
  exact hsized.target hactive

/-- Three primaries are wanted and two of them are missing. -/
theorem replicate_meets_target_three :
    ∃ s', replicate (.deciding fun _ => true) 9
        ((Sys.start (.sized 3 3)).setPeers .onePrimary) = .ret [] s'
      ∧ s'.members.appPrimaries = 3 ∧ s'.members.appMembers = 3 := by
  have hnone : (match replicate (.deciding fun _ => true) 9
      ((Sys.start (.sized 3 3)).setPeers .onePrimary) with
    | .ret errors _ => errors.isEmpty
    | _ => false) = true := by decide +kernel
  split at hnone
  · next errors s' h =>
    rw [List.isEmpty_iff.mp hnone] at h
    exact ⟨s', h, replicate_meets_target _ 9 _ s' (by decide)
      (by decide +kernel) h⟩
  · cases hnone

-- ============================================== nothing left to be done

theorem promoteTurn_done {primaries : Int}
    (h : primaries ≤ s.members.appPrimaries) :
    promoteTurn env primaries (s, []) = .inr (s, []) := by
  unfold promoteTurn
  dsimp only
  rw [if_neg (by omega)]

theorem secondaryTurn_done {replicas : Int}
    (h : replicas ≤ s.members.appMembers) :
    secondaryTurn env replicas (s, []) = .inr (s, []) := by
  unfold secondaryTurn
  dsimp only
  rw [if_neg (by omega)]

/-- A loop that ends in its first turn. -/
theorem loopStage_done
    {turn : Sys × List Err → (Sys × List Err) ⊕ (Sys × List Err)}
    (hfuel : 0 < fuel) (h : turn (s, []) = .inr (t, errors)) :
    loopStage turn fuel [] s = .ret errors t := by
  obtain ⟨n, rfl⟩ : ∃ n, fuel = n + 1 := ⟨fuel - 1, by omega⟩
  unfold loopStage
  rw [if_pos rfl, loop_of_end h]

/-- With both counts right and a primary there, `replicate` only updates
the status. -/
theorem replicate_converged (env : Env) (hfuel : 0 < fuel)
    (hpos : 0 < s.spec.getNumReplicas)
    (hmembers : s.members.appMembers = s.spec.getNumReplicas)
    (hprimaries : s.members.appPrimaries = s.spec.getNumPrimaries)
    (hsome : s.spec.getNumPrimaries ≠ 0) :
    replicate env fuel s
      = .ret [] (updateCRStatus env "replicate" s).2 := by
  have hdetect : detectStage env s = .ret () s := by
    unfold detectStage
    rw [if_neg (by omega)]
  have hseed : seedStage env s = (none, s) := by
    unfold seedStage
    rw [if_neg (by omega)]
  have hprom := @promoteTurn_done env s s.spec.getNumPrimaries (by omega)
  have hdem := @demoteTurn_done env s s.spec.getNumPrimaries (by omega) []
  have hadd := @secondaryTurn_done env s s.spec.getNumReplicas (by omega)
  unfold replicate replicateBody
  dsimp only
  rw [if_neg (by omega), if_neg (by omega), replicateStages, hdetect,
    Outcome.ret_andThen, hseed]
  dsimp only
  rw [sizeStages, loopStage_done hfuel hprom, Outcome.ret_andThen,
    loopStage_done hfuel hdem, Outcome.ret_andThen,
    loopStage_done hfuel hadd, Outcome.ret_andThen, finishStage,
    if_pos ⟨rfl, hpos⟩, Outcome.ret_andThen]

/-- A start, a stop or a deletion. -/
def Event.intervenes : Event → Bool
  | .exec (.start ..) .. | .exec .stop .. | .delete .. => true
  | _ => false

/-- A call that gets to seeding with a candidate starts one. -/
theorem seeding_starts {s₁ : Sys} (fuel : Nat)
    (hreach : ReachesSeeding env s s₁)
    (hm : s₁.members.lookup k = some m) (hel : m.eligible = true) :
    ∃ e ∈ s.since (replicate env fuel s).state, e.seedStart = true := by
  have hcand : (k, m) ∈ candidates s₁.members (s₁.order env) :=
    mem_candidates.mpr ⟨hm, hel⟩
  obtain ⟨b, seeds, hlist, -⟩ :=
    fromFirstTop_head (List.ne_nil_of_mem hcand)
  have htried : b ∈ tried env (s₁.startCall true) s₁.execs
      (seedList env s₁) := by
    unfold seedList
    rw [hlist, tried]
    split
    · exact List.mem_singleton.mpr rfl
    · exact List.mem_cons_self
  have htarget := (seedStart_iff_tried (k := b.1) fuel hreach).mpr
    ⟨b, htried, rfl⟩
  obtain ⟨e, he, -⟩ := List.mem_map.mp htarget
  obtain ⟨hmem, hseed⟩ := List.mem_filter.mp he
  exact ⟨e, hmem, hseed⟩

/-- While nobody is a primary, whoever runs is a candidate. -/
theorem eligible_of_running (hzero : ms.appPrimaries = 0)
    (hm : ms.lookup k = some m) (hfine : m.appFailed = false)
    (hon : m.online = true) (hrun : m.appRunning = true) :
    m.eligible = true := by
  have hnone := MemberSet.appPrimaries_eq_zero hzero hm
  refine Member.eligible_iff.mpr ⟨hon, hfine, ?_⟩
  simpa [Member.isPrimary, hon, hrun] using hnone

/-- A converged cluster is left alone, unless no primary is wanted. -/
theorem converged_untouched_iff (env : Env) (fuel : Nat) (s : Sys)
    (hfuel : 0 < fuel) (hpos : 0 < s.spec.getNumReplicas)
    (hfine : ∀ k m, s.members.lookup k = some m → m.appFailed = false)
    (hactive : s.members.activeMembers = s.spec.getNumReplicas)
    (hmembers : s.members.appMembers = s.spec.getNumReplicas)
    (hprimaries : s.members.appPrimaries = s.spec.getNumPrimaries) :
    (∃ s', replicate env fuel s = .ret [] s' ∧ s'.c.peers = s.c.peers
        ∧ ∀ e ∈ s.since s', e.intervenes = false)
      ↔ s.spec.getNumPrimaries ≠ 0 := by
  constructor
  · intro h hzero
    obtain ⟨s', hret, -, hquiet⟩ := h
    have hreach : ReachesSeeding env s s := by
      refine ⟨by omega, by omega, hactive, ?_⟩
      unfold detectStage
      rw [if_neg (by omega)]
    -- somebody runs, and is no primary
    have hcount : 0 < GoMap.count Member.isRunning s.members := by
      unfold MemberSet.appMembers at hmembers
      omega
    obtain ⟨k, m, hm, hrun⟩ := GoMap.count_pos_iff.mp hcount
    obtain ⟨hon, hrun⟩ := Member.isRunning_iff.mp hrun
    have hel := eligible_of_running (by omega) hm (hfine k m hm) hon hrun
    obtain ⟨e, he, hseed⟩ := seeding_starts fuel hreach hm hel
    rw [hret, Outcome.state_ret] at he
    obtain ⟨key, k', pod, args, peers, a, rfl, -⟩ :=
      Event.seedStart_iff.mp hseed
    cases hquiet _ he
  · intro hsome
    have hconv := replicate_converged env hfuel hpos hmembers hprimaries
      hsome
    have hupdate := @Quiet.updateCRStatus env "replicate" s
    obtain ⟨es, hes, hq⟩ := hupdate.trace
    refine ⟨_, hconv, hupdate.peers, ?_⟩
    rw [Sys.since_eq hes]
    intro e he
    have hquiet := hq e he
    cases e with
    | exec => cases hquiet
    | delete => cases hquiet
    | tag => rfl
    | update => rfl
    | get => rfl

/-- Three primaries of three. -/
theorem converged_untouched_primaries :
    ∃ s', replicate (.deciding fun _ => false) 1
        ((Sys.start (.sized 3 3)).setPeers .threePrimaries) = .ret [] s'
      ∧ s'.c.peers = some .threePrimaries
      ∧ ∀ e ∈ Sys.since ((Sys.start (.sized 3 3)).setPeers .threePrimaries)
          s', e.intervenes = false :=
  (converged_untouched_iff (.deciding fun _ => false) 1
    ((Sys.start (.sized 3 3)).setPeers .threePrimaries) (by decide)
    (by decide) threePrimaries_clear (by decide +kernel)
    (by decide +kernel) (by decide +kernel)).mpr (by decide)

/-- Three secondaries. -/
def MemberSet.threeSecondaries : MemberSet :=
  ["db-0", "db-1", "db-2"].foldr (fun name ms => MemberSet.add
    { name := name, online := true, appRunning := true } ms) ∅

/-- Three secondaries of three, and no primary wanted: one of them is
started as a primary all the same. -/
theorem converged_disturbed :
    let s := (Sys.start (.sized 3 0)).setPeers .threeSecondaries
    s.spec.getNumReplicas = 3 ∧ s.members.activeMembers = 3
      ∧ s.members.appMembers = 3
      ∧ s.members.appPrimaries = s.spec.getNumPrimaries
      ∧ (∀ k m, s.members.lookup k = some m → m.appFailed = false)
      ∧ (s.since (replicate (.deciding fun _ => true) 9 s).state).any
          Event.intervenes = true := by
  refine ⟨by decide, by decide +kernel, by decide +kernel,
    by decide +kernel, ?_, by decide +kernel⟩
  refine GoMap.forall_lookup_iff.mpr ?_
  decide +kernel

end RssOperator
