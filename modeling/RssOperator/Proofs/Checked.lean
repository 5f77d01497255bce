/-
What a `reconcile` leaves, member by member.

# One equation

`reconcile` never panics on a well-keyed set, and the entry it leaves
under a key is the merged entry after its turn of the status loop and its
turn of `recover` (`lookup_reconcileMerged`). The turn of the status loop
is on record: the command is in the trace, with the answer that decided
the flags (`check_on_record`).

# Clean passes

An error list that comes back empty rules out every branch but the good
ones: no status was read as a failure, and every member that had failed
before was stopped (`clean_reconcile`).

# Forgetting

The flags a pass leaves are those of the status answers. What the
operator remembered matters only through `AppFailed`, which keeps a member
from being asked; without it two operators that see the same pods and
the same answers agree (`reconcile_forgets`).
-/
import RssOperator.Proofs.Demotion
import RssOperator.Proofs.Errors
import RssOperator.Proofs.Frames
import RssOperator.Proofs.Iteration

namespace RssOperator

variable {env : Env} {s s₀ s' : Sys} {k : String} {m : Member}
  {pods : PodList}

-- ============================================== a turn inside its loop

section Turns

variable {f : List Err × Sys → String → List Err × Sys} {ks : List String}

/-- A loop that comes to `k`: the keys before, the turn of `k`, and the
rest. -/
theorem foldl_turn (hnd : ks.Nodup) (hk : k ∈ ks) :
    ∃ rest : List String, k ∉ rest ∧ ∀ acc : List Err × Sys, ks.foldl f acc
      = rest.foldl f (f ((ks.takeWhile (· ≠ k)).foldl f acc) k) := by
  induction ks with
  | nil => cases hk
  | cons k₁ ks ih =>
      obtain ⟨hnot, hnd⟩ := List.nodup_cons.mp hnd
      by_cases hk₁ : k₁ = k
      · subst hk₁
        exact ⟨ks, hnot, fun acc => by simp⟩
      · have hmem : k ∈ ks := by
          rcases List.mem_cons.mp hk with h | h
          · exact absurd h.symm hk₁
          · exact h
        obtain ⟨rest, hrest, hfold⟩ := ih hnd hmem
        exact ⟨rest, hrest, fun acc => by simpa [hk₁] using hfold (f acc k₁)⟩

/-- Errors stay on the list of a loop that only adds to it. -/
theorem mem_foldl_errors
    (hf : ∀ acc k, ∀ e ∈ acc.1, e ∈ (f acc k).1) {e : Err} :
    ∀ (ks : List String) (acc : List Err × Sys), e ∈ acc.1 →
      e ∈ (ks.foldl f acc).1 := by
  intro ks
  induction ks with
  | nil => intro acc he; exact he
  | cons k ks ih => intro acc he; exact ih _ (hf acc k e he)

end Turns

-- =========================================================== the merge

/-- `s₀` is `s` after the pods on the list have been merged in. -/
structure MergedFrom (pods : PodList) (s s₀ : Sys) : Prop where
  spec : s₀.spec = s.spec
  trace : s₀.trace = s.trace
  entry : ∀ k, s₀.members.lookup k
    = s.members.merged (podsToMemberSet s.c.rss pods.pods) k

theorem reconcile_keyed (env : Env) (pods : PodList)
    (hs : s.members.WellKeyed) :
    ∃ s₀, MergedFrom pods s s₀
      ∧ reconcile env pods s
        = .ret (reconcileMerged env s₀).1 (reconcileMerged env s₀).2 := by
  obtain ⟨ms, hmerge, hms⟩ := @mergeMembers_some env s hs pods.pods
  refine ⟨(s.setPeers ms).ranged 3, ⟨rfl, rfl, hms⟩, ?_⟩
  rw [reconcile_eq, hmerge]

namespace MergedFrom

/-- Pods on the list have an entry, and it is online. -/
theorem on_list (h : MergedFrom pods s s₀) (hk : k ∈ pods.names) :
    ∃ m, s₀.members.lookup k = some m ∧ m.online = true := by
  rw [h.entry]
  exact MemberSet.online_merged.mpr hk

theorem listed (h : MergedFrom pods s s₀)
    (hm : s₀.members.lookup k = some m) (hon : m.online = true) :
    k ∈ pods.names := by
  rw [h.entry] at hm
  exact MemberSet.online_merged.mp ⟨m, hm, hon⟩

/-- No entry is lost. -/
theorem kept (h : MergedFrom pods s s₀) (hm : s.members.lookup k = some m) :
    ∃ m', s₀.members.lookup k = some m' := by
  rw [h.entry, MemberSet.merged, hm]
  split
  · exact ⟨_, rfl⟩
  · exact ⟨_, rfl⟩
  · next heq => cases heq

/-- What is not on the list is marked as gone. -/
theorem unlisted (h : MergedFrom pods s s₀) (hk : k ∉ pods.names)
    (hm : s₀.members.lookup k = some m) :
    m.online = false ∧ m.appRunning = false ∧ m.appPrimary = false
      ∧ m.appFailed = false := by
  have hoff : m.online = false := by
    rw [← Bool.not_eq_true]
    exact fun hon => hk (h.listed hm hon)
  rw [h.entry, MemberSet.merged] at hm
  split at hm
  · cases hm
    cases hoff
  · cases hm
    exact ⟨rfl, rfl, rfl, rfl⟩
  · obtain ⟨r, hr, hcopy⟩ := Option.map_eq_some_iff.mp hm
    obtain ⟨pod, -, -, hpod⟩ := podsToMemberSet_some hr
    subst hcopy hpod
    cases hoff

/-- A merged entry keeps its name. -/
theorem name (h : MergedFrom pods s s₀) (hs : s.members.WellKeyed)
    (hm : s₀.members.lookup k = some m) : m.name = k := by
  rw [h.entry, MemberSet.merged] at hm
  split at hm
  · next m₀ _ hm₀ _ =>
    cases hm
    exact hs k m₀ hm₀
  · next m₀ hm₀ _ =>
    cases hm
    exact hs k m₀ hm₀
  · obtain ⟨r, hr, hcopy⟩ := Option.map_eq_some_iff.mp hm
    obtain ⟨pod, -, hname, hpod⟩ := podsToMemberSet_some hr
    subst hcopy hpod
    exact hname

/-- A known member on the list keeps its flags. -/
theorem found (h : MergedFrom pods s s₀) (hk : k ∈ pods.names)
    (hm : s.members.lookup k = some m) :
    s₀.members.lookup k = some m.found := by
  obtain ⟨r, hr⟩ := @podsToMemberSet_isSome s.c.rss pods.pods k hk
  rw [h.entry, MemberSet.merged, hm, hr]
  rfl

/-- A merged entry has failed only if it is online and had failed
before. -/
theorem failed (h : MergedFrom pods s s₀)
    (hm : s₀.members.lookup k = some m) (hfailed : m.appFailed = true) :
    m.online = true
      ∧ ∃ m₀, s.members.lookup k = some m₀ ∧ m₀.appFailed = true := by
  rw [h.entry, MemberSet.merged] at hm
  split at hm
  · next m₀ _ hm₀ _ =>
    cases hm
    exact ⟨rfl, m₀, hm₀, hfailed⟩
  · cases hm
    cases hfailed
  · obtain ⟨r, hr, hcopy⟩ := Option.map_eq_some_iff.mp hm
    obtain ⟨pod, -, -, hpod⟩ := podsToMemberSet_some hr
    subst hcopy hpod
    cases hfailed

end MergedFrom

-- ===================================================== the entry it ends

theorem lookup_range_none {f : List Err × Sys → String → List Err × Sys}
    {g : Sys → Member → Member}
    (hf : ∀ acc k, (f acc k).2.members = acc.2.members.modify k (g acc.2))
    (o : Order String) (hm : s.members.lookup k = none) :
    ((s.members.range o).foldl f ([], s.ranged 1)).2.members.lookup k
      = none := by
  have hk : k ∉ s.members.range o := by
    intro hmem
    obtain ⟨m, hm'⟩ := GoMap.mem_range.mp hmem
    rw [hm] at hm'
    cases hm'
  rw [lookup_foldl_not_mem hf hk]
  exact hm

/-- The entry under `k` after the two loops of a `reconcile`. -/
theorem lookup_reconcileMerged (k : String) :
    (reconcileMerged env s₀).2.members.lookup k
      = (s₀.members.lookup k).map fun m =>
          (m.checkedIn env (s₀.checkTurn env k)).recoveredIn env
            ((checkMembers env s₀).2.recoverTurn env k) := by
  show (reportReconciled env _ _).members.lookup k = _
  rw [(Quiet.reportReconciled _ _).members]
  cases hm : s₀.members.lookup k with
  | none =>
      exact lookup_range_none members_recoverMember _
        (lookup_range_none members_checkMember _ hm)
  | some m => exact lookup_recover (lookup_checkMembers hm)

/-- The spec does not change before a member's turn. -/
theorem spec_checkTurn (env : Env) (k : String) (s : Sys) :
    (s.checkTurn env k).spec = s.spec :=
  ((Steady.frame env).foldl Prod.snd (Steady.frame env).checkMember _
    ([], s.ranged 1)).spec

/-- A loop that has not come to `k` yet. -/
theorem lookup_turnState {f : List Err × Sys → String → List Err × Sys}
    {g : Sys → Member → Member}
    (hf : ∀ acc k, (f acc k).2.members = acc.2.members.modify k (g acc.2))
    (ks : List String) (k : String) (s : Sys) :
    (turnState f ks k s).members.lookup k = s.members.lookup k := by
  refine lookup_foldl_not_mem hf ?_ ([], s)
  intro hk
  have hne := List.mem_takeWhile_imp hk
  simp at hne

-- ====================================================== status checks

/-- The exit code a member is checked with in this pass. -/
def Sys.checkedCode (env : Env) (k : String) (s₀ : Sys) : Int :=
  statusCode s₀.spec (env.exec (s₀.checkTurn env k).execs .status k)

/-- The entry of a member that is asked for its status. -/
theorem checkedIn_eq (hname : m.name = k) (hfailed : m.appFailed = false)
    (hon : m.online = true) :
    m.checkedIn env (s₀.checkTurn env k)
      = m.noteStatus (s₀.checkedCode env k) := by
  unfold Member.checkedIn Sys.checkedCode
  rw [hfailed, hon, spec_checkTurn, hname]
  rfl

/-- The command a member's turn issues. -/
theorem checkMember_trace {errors : List Err}
    (hm : s.members.lookup k = some m) (hfailed : m.appFailed = false)
    (hon : m.online = true) :
    ∃ es, (checkMember env (errors, s) k).2.trace
      = es ++ s.entry env .status k m.name :: s.trace := by
  unfold checkMember
  dsimp only
  rw [hm]
  dsimp only
  rw [hfailed, hon, if_neg (by simp)]
  split
  · rw [execute_state]
    exact ⟨[_], rfl⟩
  · rw [execute_state]
    exact ⟨[], rfl⟩

/-- A call that one of several steps made. -/
theorem mem_since {G H : Event → Prop} {s₁ s₂ s₃ s₄ : Sys} {e : Event}
    {es : List Event} (h₁ : Acts env G s₁ s₂)
    (h : s₃.trace = es ++ e :: s₂.trace) (h₂ : Acts env H s₃ s₄) :
    e ∈ s₁.since s₄ := by
  obtain ⟨es₁, hes₁, -⟩ := h₁.grows
  obtain ⟨es₂, hes₂, -⟩ := h₂.grows
  have htrace : s₄.trace = (es₂ ++ es ++ e :: es₁) ++ s₁.trace := by
    rw [hes₂, h, hes₁]
    simp
  rw [Sys.since_eq htrace]
  simp

/-- The check of a member is on record, with the answer that decided
it. -/
theorem check_on_record (hm : s₀.members.lookup k = some m)
    (hname : m.name = k) (hfailed : m.appFailed = false)
    (hon : m.online = true) :
    ∃ args peers a, .exec .status k k args peers a
        ∈ s₀.since (reconcileMerged env s₀).2
      ∧ statusCode s₀.spec a = s₀.checkedCode env k := by
  have hk : k ∈ s₀.members.range (s₀.order env) :=
    GoMap.mem_range.mpr ⟨m, hm⟩
  obtain ⟨rest, -, hrest⟩ :=
    foldl_turn (f := checkMember env) (GoMap.nodup_range _ _) hk
  -- the trace up to the turn, the command, and the rest of the pass
  have hbefore : Acts env Event.check s₀ (s₀.checkTurn env k) :=
    (Acts.quiet (Quiet.ranged 1 s₀)).trans
      (Acts.foldl checkMember_acts _ ([], s₀.ranged 1))
  have hm' : (s₀.checkTurn env k).members.lookup k = some m :=
    (lookup_turnState members_checkMember _ _ _).trans hm
  have hafter : Acts env (fun _ => True)
      (checkMember env (((s₀.members.range (s₀.order env)).takeWhile
        (· ≠ k)).foldl (checkMember env) ([], s₀.ranged 1)) k).2
      (reconcileMerged env s₀).2 := by
    have hloop : Acts env Event.check
        (checkMember env (((s₀.members.range (s₀.order env)).takeWhile
          (· ≠ k)).foldl (checkMember env) ([], s₀.ranged 1)) k).2
        (checkMembers env s₀).2 := by
      unfold checkMembers
      rw [hrest]
      exact Acts.foldl checkMember_acts rest _
    exact ((hloop.mono fun _ _ => trivial).trans
      ((recover_acts _).mono fun _ _ => trivial)).trans
        (Acts.quiet (Quiet.reportReconciled _ _))
  obtain ⟨es, hes⟩ := @checkMember_trace env _ _ _ _ hm' hfailed hon
  rw [hname] at hes
  refine ⟨_, _, _, mem_since hbefore hes hafter, ?_⟩
  rfl

-- ============================================================== errors

/-- The loop `f` reported nothing with a text. -/
def Silent (errors : List Err) : Prop := ∀ e ∈ errors, e.text = ""

theorem mem_statusErrors {rc : Int} {err : Option Err} {errors : List Err}
    {e : Err} (he : e ∈ errors) : e ∈ statusErrors m rc err errors := by
  have hadd : e ∈ appendNonNil errors err :=
    mem_appendNonNil.mpr (Or.inl he)
  unfold statusErrors
  split
  · exact he
  · split
    · split
      · exact hadd
      · exact he
    · split
      · split
        · exact hadd
        · exact he
      · exact hadd

theorem mem_checkMember (acc : List Err × Sys) (k : String) :
    ∀ e ∈ acc.1, e ∈ (checkMember env acc k).1 := by
  obtain ⟨errors, s⟩ := acc
  intro e he
  unfold checkMember
  dsimp only
  split
  · exact he
  · split
    · exact he
    · split
      · exact mem_statusErrors he
      · exact mem_statusErrors he

theorem mem_recoverMember (acc : List Err × Sys) (k : String) :
    ∀ e ∈ acc.1, e ∈ (recoverMember env acc k).1 := by
  obtain ⟨errors, s⟩ := acc
  intro e he
  unfold recoverMember
  dsimp only
  split
  · exact he
  · split
    · exact mem_appendNonNil.mpr (Or.inl (List.mem_append_left _ he))
    · split
      · exact he
      · split
        · split
          · exact he
          · exact mem_appendNonNil.mpr (Or.inl (List.mem_append_left _ he))
        · exact he

/-- A status that is read as a failure comes with an error. -/
theorem remapStatus_failed {pod : String}
    (hcode : statusCode s.spec (env.exec s.execs .status pod)
      ∉ [0, 7, 8]) :
    (remapStatus s.spec (execute env .status k pod s).1).2
      = some ((env.exec s.execs .status pod).report .status pod) := by
  have hrc : (env.exec s.execs .status pod).rc ≠ 0 := by
    intro hzero
    apply hcode
    unfold statusCode
    rw [hzero]
    split <;> simp
  have hfail : (env.exec s.execs .status pod).succeeds = false := by
    cases h : (env.exec s.execs .status pod).succeeds with
    | false => rfl
    | true => exact absurd (ExecAnswer.rc_of_succeeds h) hrc
  unfold remapStatus
  rw [execute_rc, if_neg (fun h => hrc h.1)]
  exact execute_err_of_fail hfail

theorem checkMember_reports {errors : List Err}
    (hm : s.members.lookup k = some m) (hfailed : m.appFailed = false)
    (hon : m.online = true)
    (hcode : statusCode s.spec (env.exec s.execs .status m.name)
      ∉ [0, 7, 8]) :
    ∃ e ∈ (checkMember env (errors, s) k).1, e.text ≠ "" := by
  have hlist : (checkMember env (errors, s) k).1
      = statusErrors m (statusCode s.spec (env.exec s.execs .status m.name))
          (some ((env.exec s.execs .status m.name).report .status m.name))
          errors := by
    unfold checkMember
    dsimp only
    rw [hm]
    dsimp only
    rw [hfailed, hon, if_neg (by simp), execute_state, Sys.spec_ran,
      remapStatus_fst, remapStatus_failed hcode]
    split <;> rfl
  have htext : ((env.exec s.execs .status m.name).report .status
      m.name).text ≠ "" := Err.text_application _ _ _
  simp only [List.mem_cons, List.not_mem_nil, or_false, not_or] at hcode
  rw [hlist, statusErrors, if_neg hcode.1, if_neg hcode.2.1,
    if_neg hcode.2.2]
  exact ⟨_, mem_appendNonNil.mpr (Or.inr ⟨rfl, htext⟩), htext⟩

/-- `recover` reports every online member it does not stop. -/
theorem recoverMember_reports {errors : List Err}
    (hm : s.members.lookup k = some m) (hon : m.online = true)
    (hfailed : (m.recoveredIn env s).appFailed = true) :
    ∃ e ∈ (recoverMember env (errors, s) k).1, e.text ≠ "" := by
  unfold recoverMember
  dsimp only
  rw [hm]
  dsimp only
  unfold Member.recoveredIn at hfailed
  split
  · exact ⟨_, mem_appendNonNil.mpr (Or.inl (List.mem_append_right _
      List.mem_cons_self)), Err.text_deletionAfterFailures _ _⟩
  · next hover =>
    rw [if_neg hover, hon] at hfailed
    rw [hon, if_neg (by simp)]
    rw [if_neg (by simp)] at hfailed
    split
    · next hbad =>
      rw [if_pos hbad] at hfailed
      rw [stopAppMember_eq hm]
      by_cases ha : (s.stopAnswer env m).succeeds = true
      · rw [if_pos (show (env.exec s.execs .stop m.name).succeeds = true
          from ha)] at hfailed
        cases hfailed
      · rw [if_neg ha]
        exact ⟨_, mem_appendNonNil.mpr (Or.inl (List.mem_append_right _
          List.mem_cons_self)), Err.text_deletionAfterStop _ _⟩
    · next hfine =>
      rw [if_neg hfine] at hfailed
      exact absurd hfailed hfine

/-- A status loop that reports nothing has read every status as one of
the three good ones. -/
theorem silent_checkMembers (hsilent : Silent (checkMembers env s₀).1)
    (hm : s₀.members.lookup k = some m) (hname : m.name = k)
    (hfailed : m.appFailed = false) (hon : m.online = true) :
    s₀.checkedCode env k ∈ [0, 7, 8] := by
  by_contra hcode
  have hk : k ∈ s₀.members.range (s₀.order env) :=
    GoMap.mem_range.mpr ⟨m, hm⟩
  obtain ⟨rest, -, hrest⟩ :=
    foldl_turn (f := checkMember env) (GoMap.nodup_range _ _) hk
  have hm' : (s₀.checkTurn env k).members.lookup k = some m :=
    (lookup_turnState members_checkMember _ _ _).trans hm
  have hcode' : statusCode (s₀.checkTurn env k).spec
      (env.exec (s₀.checkTurn env k).execs .status m.name) ∉ [0, 7, 8] := by
    rw [spec_checkTurn, hname]
    exact hcode
  obtain ⟨e, he, htext⟩ := checkMember_reports hm' hfailed hon hcode'
  refine htext (hsilent e ?_)
  unfold checkMembers
  rw [hrest]
  exact mem_foldl_errors mem_checkMember rest _ he

/-- A turn of `recover` that reports something is heard. -/
theorem not_silent_recover (hm : s.members.lookup k = some m)
    (hturn : ∀ errors, ∃ e ∈ (recoverMember env
      (errors, s.recoverTurn env k) k).1, e.text ≠ "") :
    ¬ Silent (recover env s).1 := by
  intro hsilent
  have hk : k ∈ s.members.range (s.order env) :=
    GoMap.mem_range.mpr ⟨m, hm⟩
  obtain ⟨rest, -, hrest⟩ :=
    foldl_turn (f := recoverMember env) (GoMap.nodup_range _ _) hk
  obtain ⟨e, he, htext⟩ := hturn _
  refine htext (hsilent e ?_)
  unfold recover
  rw [hrest]
  exact mem_foldl_errors mem_recoverMember rest _ he

theorem lookup_recoverTurn (hm : s.members.lookup k = some m) :
    (s.recoverTurn env k).members.lookup k = some m :=
  (lookup_turnState members_recoverMember _ _ _).trans hm

/-- A `recover` that reports nothing has stopped every failed member. -/
theorem silent_recover (hsilent : Silent (recover env s).1)
    (hm : s.members.lookup k = some m) (hon : m.online = true) :
    (m.recoveredIn env (s.recoverTurn env k)).appFailed = false := by
  by_contra hfailed
  rw [Bool.not_eq_false] at hfailed
  refine not_silent_recover hm ?_ hsilent
  intro errors
  exact recoverMember_reports (lookup_recoverTurn hm) hon hfailed

/-- A `recover` that reports nothing has found nobody over the limit of
failures. -/
theorem silent_recover_limit (hsilent : Silent (recover env s).1)
    (hm : s.members.lookup k = some m) :
    (m.appFailed && decide (1 < m.failures)) = false := by
  rw [Bool.eq_false_iff]
  intro hover
  refine not_silent_recover hm ?_ hsilent
  intro errors
  unfold recoverMember
  dsimp only
  rw [lookup_recoverTurn hm]
  dsimp only
  rw [if_pos hover]
  exact ⟨_, mem_appendNonNil.mpr (Or.inl (List.mem_append_right _
    List.mem_cons_self)), Err.text_deletionAfterFailures _ _⟩

/-- A pass that reports nothing: neither of its loops does. -/
theorem silent_reconcileMerged
    (h : appendAllNonNil [] (reconcileMerged env s₀).1 = []) :
    Silent (checkMembers env s₀).1
      ∧ Silent (recover env (checkMembers env s₀).2).1 := by
  have hall := appendAllNonNil_nil.mp h
  have hlist : (reconcileMerged env s₀).1
      = appendAllNonNil (checkMembers env s₀).1
          (recover env (checkMembers env s₀).2).1 := rfl
  rw [hlist] at hall
  refine ⟨?_, ?_⟩
  · intro e he
    exact hall e (mem_appendAllNonNil.mpr (Or.inl he))
  · intro e he
    by_contra htext
    exact htext (hall e (mem_appendAllNonNil.mpr (Or.inr ⟨he, htext⟩)))

-- ======================================================== clean passes

/-- The flags of a member are those of a status result. -/
def Member.ShowsCode (code : Int) (m : Member) : Prop :=
  code = 0 ∧ m.appRunning = true ∧ m.appPrimary = false
    ∨ code = 7 ∧ m.appRunning = false ∧ m.appPrimary = false
    ∨ code = 8 ∧ m.appRunning = true ∧ m.appPrimary = true

instance (code : Int) (m : Member) : Decidable (m.ShowsCode code) :=
  inferInstanceAs (Decidable (_ ∨ _ ∨ _))

theorem Member.showsCode_noteStatus {code : Int} (m : Member)
    (hcode : code ∈ [0, 7, 8]) :
    (m.noteStatus code).ShowsCode code
      ∧ (m.noteStatus code).appFailed = m.appFailed := by
  simp only [List.mem_cons, List.not_mem_nil, or_false] at hcode
  rcases hcode with rfl | rfl | rfl
  · exact ⟨Or.inl ⟨rfl, rfl, rfl⟩, rfl⟩
  · exact ⟨Or.inr (Or.inl ⟨rfl, rfl, rfl⟩), rfl⟩
  · exact ⟨Or.inr (Or.inr ⟨rfl, rfl, rfl⟩), rfl⟩

/-- What a pass without errors leaves: nothing failed, and the flags of
every online member that had not failed before are those of a status
result of this pass. -/
structure CleanPass (s s' : Sys) : Prop where
  failed : ∀ k m, s'.members.lookup k = some m → m.appFailed = false
  checked : ∀ k m, s'.members.lookup k = some m → m.online = true →
    (∀ m₀, s.members.lookup k = some m₀ → m₀.appFailed = false) →
    ∃ args peers a, .exec .status k k args peers a ∈ s.since s'
      ∧ m.ShowsCode (statusCode s.spec a)

theorem Member.online_checkedIn (c : Sys) (m : Member) :
    (m.checkedIn env c).online = m.online := by
  unfold checkedIn
  split
  · rfl
  · exact online_noteStatus _ m

/-- An offline member is left alone by both loops. -/
theorem Member.turns_of_offline (c r : Sys) (hon : m.online = false)
    (hfailed : m.appFailed = false) :
    (m.checkedIn env c).recoveredIn env r = m := by
  have hskip : m.checkedIn env c = m := by
    unfold checkedIn
    rw [hon]
    simp
  rw [hskip]
  exact recoveredIn_of_healthy r hfailed

theorem cleanPass_of_silent (hs : s.members.WellKeyed)
    (hmerge : MergedFrom pods s s₀)
    (hclean : appendAllNonNil [] (reconcileMerged env s₀).1 = []) :
    CleanPass s (reconcileMerged env s₀).2 := by
  obtain ⟨hcheck, hrecover⟩ := silent_reconcileMerged hclean
  refine ⟨?_, ?_⟩
  · intro k m hm
    rw [lookup_reconcileMerged] at hm
    obtain ⟨m₁, hm₁, rfl⟩ := Option.map_eq_some_iff.mp hm
    cases hon : m₁.online with
    | true =>
        refine silent_recover hrecover (lookup_checkMembers hm₁) ?_
        rw [Member.online_checkedIn, hon]
    | false =>
        have hfine : m₁.appFailed = false := by
          cases hf : m₁.appFailed with
          | false => rfl
          | true => exact (hmerge.failed hm₁ hf).1.symm.trans hon
        rw [Member.turns_of_offline _ _ hon hfine, hfine]
  · intro k m hm hon hbefore
    rw [lookup_reconcileMerged] at hm
    obtain ⟨m₁, hm₁, rfl⟩ := Option.map_eq_some_iff.mp hm
    have hname : m₁.name = k := hmerge.name hs hm₁
    have hfine : m₁.appFailed = false := by
      cases hf : m₁.appFailed with
      | false => rfl
      | true =>
          obtain ⟨-, m₀, hm₀, hf₀⟩ := hmerge.failed hm₁ hf
          exact hf₀.symm.trans (hbefore m₀ hm₀)
    have hon₁ : m₁.online = true := by
      cases ho : m₁.online with
      | true => rfl
      | false =>
          rw [Member.turns_of_offline _ _ ho hfine] at hon
          exact ho.symm.trans hon
    have hcode := silent_checkMembers hcheck hm₁ hname hfine hon₁
    obtain ⟨hshows, hhealthy⟩ := m₁.showsCode_noteStatus hcode
    obtain ⟨args, peers, a, hrecord, ha⟩ :=
      @check_on_record env s₀ k m₁ hm₁ hname hfine hon₁
    refine ⟨args, peers, a, ?_, ?_⟩
    · unfold Sys.since
      rw [← hmerge.trace]
      exact hrecord
    · rw [checkedIn_eq hname hfine hon₁, Member.recoveredIn_of_healthy _
        (hhealthy.trans hfine), ← hmerge.spec, ha]
      exact hshows

/-- A `reconcile` without errors leaves nothing failed, and the flags of
every member it asked as the member answered. Where it does not, the
iteration ends before `replicate`. -/
theorem clean_reconcile (env : Env) (pods : PodList) (s s' : Sys)
    (errors : List Err) (hs : s.members.WellKeyed)
    (h : reconcile env pods s = .ret errors s') :
    (errors = [] → CleanPass s s')
      ∧ ∀ fuel, ¬ CleanPass s s' → reconcileBranch env fuel pods s
          = .ret (appendAllNonNil [] errors) s' := by
  obtain ⟨s₀, hmerge, heq⟩ := reconcile_keyed env pods hs
  have hclean : appendAllNonNil [] errors = [] → CleanPass s s' := by
    intro hnone
    rw [h] at heq
    injection heq with herrors hs'
    subst herrors hs'
    exact cleanPass_of_silent hs hmerge hnone
  refine ⟨?_, ?_⟩
  · intro hnone
    subst hnone
    exact hclean rfl
  · intro fuel hdirty
    unfold reconcileBranch
    rw [h, Outcome.ret_andThen]
    exact if_neg fun hnone => hdirty (hclean hnone)

/-- A first `reconcile` over three pods whose application is stopped. -/
theorem clean_reconcile_stopped :
    CleanPass (Sys.start (.sized 3 1))
      (reconcile (.answering fun _ _ _ => .exits 7) .three
        (Sys.start (.sized 3 1))).state := by
  have hnone : (match reconcile (.answering fun _ _ _ => .exits 7) .three
      (Sys.start (.sized 3 1)) with
    | .ret errors _ => errors.isEmpty
    | _ => false) = true := by decide +kernel
  have hret : (reconcile (.answering fun _ _ _ => .exits 7) .three
      (Sys.start (.sized 3 1))).returned = true := by decide +kernel
  obtain ⟨errors, heq⟩ := Outcome.eq_ret_of_returned hret
  refine (clean_reconcile _ _ (Sys.start (.sized 3 1)) _ errors
    MemberSet.sound_empty.keyed heq).1 ?_
  rw [heq] at hnone
  exact List.isEmpty_iff.mp hnone

-- ========================================================== forgetting

/-- Every status of the pass came back with the code of its pod. -/
def StatusAnswers (code : String → Int) (s s' : Sys) : Prop :=
  ∀ k args peers a, .exec .status k k args peers a ∈ s.since s' →
    a.rc = code k

instance (code : String → Int) (s s' : Sys) :
    Decidable (StatusAnswers code s s') :=
  decidable_of_iff
    ((s.since s').all (fun e => match e with
      | .exec .status k pod _ _ a => pod != k || a.rc == code k
      | _ => true) = true) (by
    rw [List.all_eq_true]
    constructor
    · intro h k args peers a he
      simpa using h _ he
    · intro h e he
      split
      · next k pod args peers a =>
        by_cases hpod : pod = k
        · subst hpod
          simpa using h pod args peers a he
        · simp [hpod]
      · rfl)

theorem MergedFrom.healthy (h : MergedFrom pods s s₀)
    (hfine : ∀ k m, s.members.lookup k = some m → m.appFailed = false) :
    ∀ k m, s₀.members.lookup k = some m → m.appFailed = false := by
  intro k m hm
  cases hf : m.appFailed with
  | false => rfl
  | true =>
      obtain ⟨-, m₀, hm₀, hf₀⟩ := h.failed hm hf
      exact hf₀.symm.trans (hfine k m₀ hm₀)

/-- The code a check works with is the one of the application, remapped
where no `secondary` command is configured. -/
theorem MergedFrom.checkedCode {code : String → Int}
    (h : MergedFrom pods s s₀) (hs : s.members.WellKeyed)
    (hans : StatusAnswers code s (reconcileMerged env s₀).2)
    (hm : s₀.members.lookup k = some m) (hf : m.appFailed = false)
    (hon : m.online = true) :
    s₀.checkedCode env k
      = if code k = 0 ∧ (s.spec.commands .secondary).isNone then 8
        else code k := by
  obtain ⟨args, peers, a, hrecord, ha⟩ :=
    @check_on_record env s₀ k m hm (h.name hs hm) hf hon
  have hrc : a.rc = code k := by
    refine hans k args peers a ?_
    unfold Sys.since
    rw [← h.trace]
    exact hrecord
  rw [← ha, statusCode, hrc, h.spec]

/-- A pass over members none of which has failed shows the answers: the
members on the list are online with the flags of their answer, all others
are offline and have none. -/
theorem reconcile_shows {code : String → Int} (hs : s.members.WellKeyed)
    (hfine : ∀ k m, s.members.lookup k = some m → m.appFailed = false)
    (hcode : ∀ k ∈ pods.names, code k ∈ [0, 7, 8])
    (hans : StatusAnswers code s (reconcile env pods s).state) :
    (reconcile env pods s).returned = true
      ∧ (∀ k ∈ pods.names, ∃ m,
          (reconcile env pods s).state.members.lookup k = some m
          ∧ m.online = true ∧ m.appFailed = false
          ∧ m.ShowsCode
            (if code k = 0 ∧ (s.spec.commands .secondary).isNone then 8
              else code k))
      ∧ ∀ k, k ∉ pods.names → ∀ m,
          (reconcile env pods s).state.members.lookup k = some m →
          m.online = false ∧ m.appRunning = false ∧ m.appPrimary = false
            ∧ m.appFailed = false := by
  obtain ⟨s₀, hmerge, heq⟩ := reconcile_keyed env pods hs
  rw [heq] at hans ⊢
  refine ⟨rfl, ?_, ?_⟩
  · intro k hk
    obtain ⟨m, hm, hon⟩ := hmerge.on_list hk
    have hname : m.name = k := hmerge.name hs hm
    have hf := hmerge.healthy hfine k m hm
    have hread := hmerge.checkedCode hs hans hm hf hon
    have hgood : s₀.checkedCode env k ∈ [0, 7, 8] := by
      rw [hread]
      split
      · simp
      · exact hcode k hk
    obtain ⟨hshows, hstill⟩ := m.showsCode_noteStatus hgood
    refine ⟨m.noteStatus (s₀.checkedCode env k), ?_, ?_, hstill.trans hf,
      ?_⟩
    · rw [Outcome.state_ret, lookup_reconcileMerged, hm, Option.map_some,
        checkedIn_eq hname hf hon,
        Member.recoveredIn_of_healthy _ (hstill.trans hf)]
    · rw [Member.online_noteStatus, hon]
    · rw [← hread]
      exact hshows
  · intro k hk m hm
    rw [Outcome.state_ret, lookup_reconcileMerged] at hm
    obtain ⟨m₁, hm₁, rfl⟩ := Option.map_eq_some_iff.mp hm
    have hgone := hmerge.unlisted hk hm₁
    rw [Member.turns_of_offline _ _ hgone.1 hgone.2.2.2]
    exact hgone

/-- A code leaves no choice of flags. -/
theorem Member.ShowsCode.unique {code : Int} {m₁ m₂ : Member}
    (h₁ : m₁.ShowsCode code) (h₂ : m₂.ShowsCode code) :
    m₁.appRunning = m₂.appRunning ∧ m₁.appPrimary = m₂.appPrimary := by
  rcases h₁ with ⟨rfl, hr, hp⟩ | ⟨rfl, hr, hp⟩ | ⟨rfl, hr, hp⟩
  all_goals
    rcases h₂ with ⟨hc, hr', hp'⟩ | ⟨hc, hr', hp'⟩ | ⟨hc, hr', hp'⟩
  all_goals first
    | exact ⟨hr.trans hr'.symm, hp.trans hp'.symm⟩
    | exact absurd hc (by decide)

/-- What an operator remembers does not matter: from any two states of
which neither has a failed member, the same pods and the same status
codes lead to the same flags. -/
theorem reconcile_forgets (env₁ env₂ : Env) (pods : PodList) (s₁ s₂ : Sys)
    (code : String → Int) (hspec : s₁.spec = s₂.spec)
    (hs₁ : s₁.members.WellKeyed) (hs₂ : s₂.members.WellKeyed)
    (hfine₁ : ∀ k m, s₁.members.lookup k = some m → m.appFailed = false)
    (hfine₂ : ∀ k m, s₂.members.lookup k = some m → m.appFailed = false)
    (hcode : ∀ k ∈ pods.names, code k ∈ [0, 7, 8])
    (hans₁ : StatusAnswers code s₁ (reconcile env₁ pods s₁).state)
    (hans₂ : StatusAnswers code s₂ (reconcile env₂ pods s₂).state) :
    (reconcile env₁ pods s₁).returned = true
      ∧ (reconcile env₂ pods s₂).returned = true
      ∧ (∀ k ∈ pods.names, ∃ m₁ m₂,
          (reconcile env₁ pods s₁).state.members.lookup k = some m₁
          ∧ (reconcile env₂ pods s₂).state.members.lookup k = some m₂
          ∧ m₁.online = m₂.online ∧ m₁.appRunning = m₂.appRunning
          ∧ m₁.appPrimary = m₂.appPrimary)
      ∧ ∀ k, k ∉ pods.names →
          (∀ m, (reconcile env₁ pods s₁).state.members.lookup k = some m →
            m.online = false)
          ∧ ∀ m, (reconcile env₂ pods s₂).state.members.lookup k = some m →
            m.online = false := by
  obtain ⟨hret₁, hon₁, hoff₁⟩ := reconcile_shows hs₁ hfine₁ hcode hans₁
  obtain ⟨hret₂, hon₂, hoff₂⟩ := reconcile_shows hs₂ hfine₂ hcode hans₂
  refine ⟨hret₁, hret₂, ?_, fun k hk =>
    ⟨fun m hm => (hoff₁ k hk m hm).1, fun m hm => (hoff₂ k hk m hm).1⟩⟩
  intro k hk
  obtain ⟨m₁, hm₁, ho₁, -, hshows₁⟩ := hon₁ k hk
  obtain ⟨m₂, hm₂, ho₂, -, hshows₂⟩ := hon₂ k hk
  rw [hspec] at hshows₁
  obtain ⟨hrun, hprimary⟩ := hshows₁.unique hshows₂
  exact ⟨m₁, m₂, hm₁, hm₂, ho₁.trans ho₂.symm, hrun, hprimary⟩

/-- A new operator, and one that took all three members for primaries, see
a primary, a secondary and a stopped member. -/
theorem reconcile_forgets_restart :
    let code := fun pod => if pod = "db-0" then 8
      else if pod = "db-1" then 0 else 7
    let env : Env := .answering fun _ _ pod => .exits (code pod)
    let s₁ := Sys.start (.sized 3 1)
    let s₂ := s₁.setPeers .threePrimaries
    ∀ k ∈ PodList.three.names, ∃ m₁ m₂,
      (reconcile env .three s₁).state.members.lookup k = some m₁
      ∧ (reconcile env .three s₂).state.members.lookup k = some m₂
      ∧ m₁.online = m₂.online ∧ m₁.appRunning = m₂.appRunning
      ∧ m₁.appPrimary = m₂.appPrimary := by
  intro code env s₁ s₂
  have hs₂ : s₂.members.Sound :=
    show MemberSet.threePrimaries.Sound by decide +kernel
  refine (reconcile_forgets env env .three s₁ s₂ (fun k => code k) rfl
    MemberSet.sound_empty.keyed hs₂.keyed ?_ threePrimaries_clear ?_ ?_
    ?_).2.2.1
  · intro k m hm
    cases hm
  · decide
  · decide +kernel
  · decide +kernel

end RssOperator
