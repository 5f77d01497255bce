/-
The active-member label of the pods, along the calls of the main loop.

# Where the label is

The operator writes the label (`tagAppMember`) and never reads it, so it
is not part of its state. It is on the pods: a patch that succeeds sets
it, and a pod that is replaced by a new one of the same name has none.

# What a pass does to it

The turns of the other members do not touch the label of a pod
(`checkMember_spares`, `recoverMember_spares`). A member that is failed
when `recover` comes to it is labelled inactive, and comes out failed,
stopped or offline (`reconcileMerged_unlabels`). All others keep the label
they had, while the status check sets their flags to what it was
answered. So the label is right after a pass exactly for the members whose
pod answers as its label says (`tracks_iff`): the copy that ended by
itself keeps receiving clients (`stopped_still_active`).
-/
import RssOperator.Proofs.Checked
import RssOperator.Proofs.Deletion
import RssOperator.Proofs.Phases

namespace RssOperator

variable {env : Env} {s s' s₀ : Sys} {k k' : String} {m : Member}
  {pods : PodList}

-- =========================================================== the labels

/-- The label `rss-active-member` of each pod, where it has one. -/
abbrev Labels := String → Option Bool

/-- The label an entry of the trace puts on the pod of `k`. -/
def Event.label (k : String) : Event → Option Bool
  | .tag k' online ok => if k' = k ∧ ok = true then some online else none
  | _ => none

/-- The labels after the events `es`, newest first. -/
def Labels.after (es : List Event) (labels : Labels) : Labels :=
  fun k => (es.findSome? (Event.label k)).or (labels k)

/-- The operator and the labels of the pods. -/
structure Labelled where
  sys : Sys
  labels : Labels

/-- A call of the main loop, or a pod that is replaced. -/
inductive LabelStep where
  | call (i : RunStep)
  | replaced (k : String)

/-- A call that does not return leaves the state it got to. -/
def Labelled.step (env : Env) (l : Labelled) : LabelStep → Labelled
  | .call i =>
      let s := (i.step env l.sys).state
      ⟨s, l.labels.after (l.sys.since s)⟩
  | .replaced k => { l with labels := Function.update l.labels k none }

def Labelled.run (env : Env) (l : Labelled) (steps : List LabelStep) :
    Labelled :=
  steps.foldl (Labelled.step env) l

/-- Every `reconcile` of the run is over a list of pods, and from a state,
with `P`. -/
def EveryPass (env : Env) (P : Labelled → PodList → Prop) :
    Labelled → List LabelStep → Prop
  | _, [] => True
  | l, .call (.reconcile pods) :: steps =>
      P l pods ∧ EveryPass env P (l.step env (.call (.reconcile pods))) steps
  | l, i :: steps => EveryPass env P (l.step env i) steps

/-- A start or a stop on the pod of `k`. -/
def Event.handles (k : String) : Event → Bool
  | .exec (.start ..) k' .. => k' == k
  | .exec .stop k' .. => k' == k
  | _ => false

/-- The operator has started or stopped the application on `k`. -/
def Sys.handled (k : String) (s : Sys) : Prop :=
  ∃ e ∈ s.trace, e.handles k = true

instance (k : String) (s : Sys) : Decidable (s.handled k) :=
  inferInstanceAs (Decidable (∃ e ∈ s.trace, e.handles k = true))

/-- The label says whether the application is up. -/
structure Labelled.Tracks (l : Labelled) : Prop where
  label_iff : ∀ k m, l.sys.members.lookup k = some m → m.online = true →
    l.sys.handled k →
      (l.labels k = some true ↔ m.appRunning = true ∧ m.appFailed = false)

-- ============================================================ the trace

/-- A label for the pod of `k`, or a start or a stop on it. -/
def Event.concerns (k : String) : Event → Bool
  | .tag k' .. => k' == k
  | e => e.handles k

/-- Nothing that concerns `k` has been put on record. -/
abbrev Spares (k : String) (s s' : Sys) : Prop :=
  Logs (fun e => e.concerns k = false) s s'

theorem Event.label_of_spared {e : Event} (h : e.concerns k = false) :
    e.label k = none := by
  cases e with
  | tag k' online ok =>
      have hne : k' ≠ k := by simpa [Event.concerns] using h
      simp [Event.label, hne]
  | exec | delete | update | get => rfl

theorem Event.handles_of_spared {e : Event} (h : e.concerns k = false) :
    e.handles k = false := by
  cases e with
  | tag => rfl
  | exec | delete | update | get => exact h

theorem findSome?_label_of_spared {es : List Event}
    (h : ∀ e ∈ es, e.concerns k = false) :
    es.findSome? (Event.label k) = none := by
  rw [List.findSome?_eq_none_iff]
  intro e he
  exact Event.label_of_spared (h e he)

theorem Spares.labels (h : Spares k s s') (labels : Labels) :
    labels.after (s.since s') k = labels k := by
  unfold Labels.after
  rw [findSome?_label_of_spared h.mem_since]
  rfl

theorem Spares.handled_iff (h : Spares k s s') :
    s'.handled k ↔ s.handled k := by
  constructor
  · intro hs'
    obtain ⟨e, he, hk⟩ := hs'
    rcases h.mem_trace e he with he | he
    · exact ⟨e, he, hk⟩
    · rw [Event.handles_of_spared he] at hk
      cases hk
  · intro hs
    obtain ⟨e, he, hk⟩ := hs
    obtain ⟨es, htrace, -⟩ := h
    exact ⟨e, htrace ▸ List.mem_append_right es he, hk⟩

/-- The last label put on the pod of `k` says that it is inactive, or one
could not be put on. -/
def Unlabels (k : String) (s s' : Sys) : Prop :=
  ∃ es, s'.trace = es ++ s.trace
    ∧ (es.findSome? (Event.label k) = some false
      ∨ .tag k false false ∈ es)

theorem Unlabels.spared {s₁ s₂ s₃ : Sys} (h : Unlabels k s₁ s₂)
    (h' : Spares k s₂ s₃) : Unlabels k s₁ s₃ := by
  obtain ⟨es, htrace, hlabel⟩ := h
  obtain ⟨es', htrace', hspared⟩ := h'
  refine ⟨es' ++ es, by rw [htrace', htrace, List.append_assoc], ?_⟩
  rcases hlabel with hlabel | hfailed
  · left
    rw [List.findSome?_append, findSome?_label_of_spared hspared]
    exact hlabel
  · exact Or.inr (List.mem_append_right _ hfailed)

theorem Unlabels.after {P : Event → Prop} {s₁ s₂ s₃ : Sys}
    (h : Logs P s₁ s₂) (h' : Unlabels k s₂ s₃) : Unlabels k s₁ s₃ := by
  obtain ⟨es, htrace, -⟩ := h
  obtain ⟨es', htrace', hlabel⟩ := h'
  refine ⟨es' ++ es, by rw [htrace', htrace, List.append_assoc], ?_⟩
  rcases hlabel with hlabel | hfailed
  · left
    rw [List.findSome?_append, hlabel]
    rfl
  · exact Or.inr (List.mem_append_left _ hfailed)

/-- A patch of a label that failed. -/
def Event.unpatched : Event → Bool
  | .tag _ _ ok => !ok
  | _ => false

/-- No patch of a label has failed. -/
def Sys.Patched (s : Sys) : Prop := ∀ e ∈ s.trace, e.unpatched = false

instance (s : Sys) : Decidable s.Patched :=
  inferInstanceAs (Decidable (∀ e ∈ s.trace, e.unpatched = false))

theorem Unlabels.labels (h : Unlabels k s s') (hok : s'.Patched)
    (labels : Labels) : labels.after (s.since s') k = some false := by
  obtain ⟨es, htrace, hlabel⟩ := h
  rw [Sys.since_eq htrace]
  rcases hlabel with hlabel | hfailed
  · unfold Labels.after
    rw [hlabel]
    rfl
  · have hpatched := hok _ (htrace ▸ List.mem_append_left _ hfailed)
    cases hpatched

-- ============================================================ the turns

theorem tagAppMember_spares (hne : k' ≠ k) (online : Bool) (s : Sys) :
    Spares k s (tagAppMember env k' online s).2 := by
  refine ⟨[_], rfl, ?_⟩
  simp [Event.concerns, hne]

theorem deleteMember_spares (k k' : String) (s : Sys) :
    Spares k s (deleteMember env k' s).2 := by
  cases hm : s.members.lookup k' with
  | none =>
      unfold deleteMember
      rw [hm]
      exact .same rfl
  | some m =>
      rw [deleteMember_state hm]
      split
      · exact ⟨[_], rfl, by simp [Event.concerns, Event.handles]⟩
      · exact ⟨[_], rfl, by simp [Event.concerns, Event.handles]⟩

theorem stopped_spares (hne : k' ≠ k) (f : Member → Member) (s : Sys) :
    Spares k s (s.stopped env k' m f) := by
  refine ⟨[_, _], rfl, ?_⟩
  simp [Event.concerns, Event.handles, Sys.entry, hne]

theorem stopAppMember_spares (hne : k' ≠ k) (s : Sys) :
    Spares k s (stopAppMember env k' s).2 := by
  cases hm : s.members.lookup k' with
  | none =>
      unfold stopAppMember
      rw [hm]
      exact .same rfl
  | some m =>
      rw [stopAppMember_eq hm]
      split
      · exact stopped_spares hne _ s
      · exact stopped_spares hne _ s

/-- The turns of the others in the status loop. -/
theorem checkMember_spares (hne : k' ≠ k) (acc : List Err × Sys) :
    Spares k acc.2 (checkMember env acc k').2 := by
  obtain ⟨errors, s⟩ := acc
  unfold checkMember
  dsimp only
  split
  · exact .same rfl
  · split
    · exact .same rfl
    · next m _ _ =>
      have hran : Spares k s ((execute env .status k' m.name s).2.update k'
          (Member.noteStatus (remapStatus s.spec
            (execute env .status k' m.name s).1).1)) := by
        rw [execute_state]
        refine ⟨[_], rfl, ?_⟩
        simp [Event.concerns, Event.handles, Sys.entry]
      rw [execute_state] at hran ⊢
      split
      · exact hran.trans (tagAppMember_spares hne false _)
      · exact hran

/-- The turns of the others in `recover`. -/
theorem recoverMember_spares (hne : k' ≠ k) (acc : List Err × Sys) :
    Spares k acc.2 (recoverMember env acc k').2 := by
  obtain ⟨errors, s⟩ := acc
  unfold recoverMember
  dsimp only
  split
  · exact .same rfl
  · split
    · exact (deleteMember_spares k k' s).trans
        (tagAppMember_spares hne false _)
    · split
      · exact .same rfl
      · split
        · have hstop := @stopAppMember_spares env k k' hne s
          split
          · next heq => rw [heq] at hstop; exact hstop
          · next heq =>
            rw [heq] at hstop
            exact hstop.trans (deleteMember_spares k k' _)
        · exact .same rfl

/-- A member that answers its status check keeps its label. -/
theorem checkMember_spares_self {errors : List Err}
    (hm : s.members.lookup k = some m)
    (hfine : (m.checkedIn env s).appFailed = false) :
    Spares k s (checkMember env (errors, s) k).2 := by
  unfold checkMember
  dsimp only
  rw [hm]
  dsimp only
  unfold Member.checkedIn at hfine
  split at hfine
  · next hskip =>
    rw [if_pos hskip]
    exact .same rfl
  · next hask =>
    rw [if_neg hask, execute_state, Sys.spec_ran, remapStatus_fst, hfine,
      if_neg (by simp)]
    refine ⟨[_], rfl, ?_⟩
    simp [Event.concerns, Event.handles, Sys.entry]

/-- One that is not failed is not touched by `recover`. -/
theorem recoverMember_spares_self {errors : List Err}
    (hm : s.members.lookup k = some m) (hfine : m.appFailed = false) :
    Spares k s (recoverMember env (errors, s) k).2 := by
  unfold recoverMember
  dsimp only
  rw [hm]
  dsimp only
  rw [hfine, Bool.false_and]
  split
  · next h => cases h
  · split
    · exact .same rfl
    · exact .same rfl

/-- One that is failed is labelled inactive. -/
theorem recoverMember_unlabels {errors : List Err}
    (hm : s.members.lookup k = some m) (hon : m.online = true)
    (hfailed : m.appFailed = true) :
    Unlabels k s (recoverMember env (errors, s) k).2 := by
  have htag : ∀ s : Sys, Unlabels k s (tagAppMember env k false s).2 := by
    intro s
    refine ⟨[_], rfl, ?_⟩
    cases hok : (env.tag s.calls k).isNone with
    | true => left; simp [Event.label]
    | false => right; simp
  have hstop : ∀ f, Unlabels k s (s.stopped env k m f) := by
    intro f
    refine ⟨[_, _], rfl, ?_⟩
    cases hok : (env.tag s.calls k).isNone with
    | true => left; simp [List.findSome?_cons, Event.label, Sys.entry]
    | false => right; simp
  unfold recoverMember
  dsimp only
  rw [hm]
  dsimp only
  by_cases hover : (m.appFailed && decide (1 < m.failures)) = true
  · rw [if_pos hover]
    exact (htag _).after (deleteMember_spares k k s)
  · rw [if_neg hover, if_neg (by simp [hon]), if_pos hfailed,
      stopAppMember_eq hm]
    by_cases ha : (s.stopAnswer env m).succeeds = true
    · rw [if_pos ha]
      exact hstop _
    · rw [if_neg ha]
      exact (hstop _).spared (deleteMember_spares k k _)

-- ============================================================ the loops

section Loops

variable {f : List Err × Sys → String → List Err × Sys}
  {ks : List String}

/-- A loop that does not come to `k`. -/
theorem foldl_spares
    (hf : ∀ k', k' ≠ k → ∀ acc, Spares k acc.2 (f acc k').2)
    (hk : k ∉ ks) : ∀ acc : List Err × Sys,
      Spares k acc.2 (ks.foldl f acc).2 := by
  induction ks with
  | nil => intro acc; exact .same rfl
  | cons k₁ ks ih =>
      intro acc
      have hne : k₁ ≠ k := fun h => hk (h ▸ List.mem_cons_self)
      have hks : k ∉ ks := fun h => hk (List.mem_cons_of_mem _ h)
      exact (hf k₁ hne acc).trans (ih hks (f acc k₁))

theorem not_mem_takeWhile_ne (ks : List String) (k : String) :
    k ∉ ks.takeWhile (· ≠ k) := by
  intro hk
  have hne := List.mem_takeWhile_imp hk
  simp at hne

/-- What a loop does to `k` is what the turn of `k` does. -/
theorem range_turn
    (hf : ∀ k', k' ≠ k → ∀ acc, Spares k acc.2 (f acc k').2)
    (o : Order String) (hm : s.members.lookup k = some m) :
    ∃ errors, let t := turnState f (s.members.range o) k (s.ranged 1)
      Spares k s t ∧ Spares k (f (errors, t) k).2
        ((s.members.range o).foldl f ([], s.ranged 1)).2 := by
  have hk : k ∈ s.members.range o := GoMap.mem_range.mpr ⟨m, hm⟩
  obtain ⟨rest, hnot, hfold⟩ :=
    foldl_turn (f := f) (GoMap.nodup_range _ _) hk
  have hbefore : Spares k s
      (turnState f (s.members.range o) k (s.ranged 1)) :=
    foldl_spares hf (not_mem_takeWhile_ne (s.members.range o) k)
      ([], s.ranged 1)
  refine ⟨(((s.members.range o).takeWhile (· ≠ k)).foldl f
    ([], s.ranged 1)).1, hbefore, ?_⟩
  rw [hfold]
  exact foldl_spares hf hnot _

end Loops

theorem checkMembers_spares (hm : s.members.lookup k = some m)
    (hfine : (m.checkedIn env (s.checkTurn env k)).appFailed = false) :
    Spares k s (checkMembers env s).2 := by
  obtain ⟨errors, hbefore, hafter⟩ :=
    range_turn (f := checkMember env)
      (fun k' hne acc => checkMember_spares hne acc) (s.order env) hm
  have hm' : (s.checkTurn env k).members.lookup k = some m :=
    (lookup_turnState members_checkMember _ _ _).trans hm
  exact (hbefore.trans (checkMember_spares_self hm' hfine)).trans hafter

theorem recover_spares (hm : s.members.lookup k = some m)
    (hfine : m.appFailed = false) : Spares k s (recover env s).2 := by
  obtain ⟨errors, hbefore, hafter⟩ :=
    range_turn (f := recoverMember env)
      (fun k' hne acc => recoverMember_spares hne acc) (s.order env) hm
  exact (hbefore.trans (recoverMember_spares_self (lookup_recoverTurn hm)
    hfine)).trans hafter

theorem recover_unlabels (hm : s.members.lookup k = some m)
    (hon : m.online = true) (hfailed : m.appFailed = true) :
    Unlabels k s (recover env s).2 := by
  obtain ⟨errors, hbefore, hafter⟩ :=
    range_turn (f := recoverMember env)
      (fun k' hne acc => recoverMember_spares hne acc) (s.order env) hm
  exact ((recoverMember_unlabels (lookup_recoverTurn hm) hon
    hfailed).after hbefore).spared hafter

theorem reportReconciled_spares (k : String) (errors : List Err) (s : Sys) :
    Spares k s (reportReconciled env errors s) := by
  have htrace : (reportCondition env errors s).trace = s.trace := by
    unfold reportCondition
    dsimp only
    split
    · rfl
    · split
      · rfl
      · split
        · rfl
        · rfl
  refine Logs.trans (.same htrace) ?_
  refine Logs.mono (updateCRStatus_logs "reconcile" _) ?_
  intro e he
  obtain ⟨st, err, rfl, -⟩ := he
  rfl

-- ============================================================= the pass

/-- A member that `recover` finds in order keeps its label. -/
theorem reconcileMerged_spares (hm : s.members.lookup k = some m)
    (hfine : (m.checkedIn env (s.checkTurn env k)).appFailed = false) :
    Spares k s (reconcileMerged env s).2 :=
  ((checkMembers_spares hm hfine).trans
    (recover_spares (lookup_checkMembers hm) hfine)).trans
      (reportReconciled_spares k _ _)

/-- One that it finds failed has been labelled inactive. -/
theorem reconcileMerged_unlabels (hm : s.members.lookup k = some m)
    (hon : m.online = true)
    (hfailed : (m.checkedIn env (s.checkTurn env k)).appFailed = true) :
    Unlabels k s (reconcileMerged env s).2 := by
  have hon' : (m.checkedIn env (s.checkTurn env k)).online = true := by
    rw [Member.online_checkedIn, hon]
  have hcheck : Logs (fun _ => True) s (checkMembers env s).2 := by
    obtain ⟨es, htrace, -⟩ := (@checkMembers_acts env s).grows
    exact ⟨es, htrace, fun _ _ => trivial⟩
  exact ((recover_unlabels (lookup_checkMembers hm) hon' hfailed).after
    hcheck).spared (reportReconciled_spares k _ _)

/-- The merged state a pass works on. -/
def Sys.withPods (env : Env) (pods : PodList) (s : Sys) : Sys :=
  (mergeMembers env (podsToMemberSet s.c.rss pods.pods) s).getD s

theorem withPods_merged (env : Env) (pods : PodList)
    (hs : s.members.WellKeyed) :
    MergedFrom pods s (s.withPods env pods)
      ∧ reconcile env pods s
        = .ret (reconcileMerged env (s.withPods env pods)).1
            (reconcileMerged env (s.withPods env pods)).2 := by
  obtain ⟨ms, hmerge, hms⟩ := @mergeMembers_some env s hs pods.pods
  unfold Sys.withPods
  rw [reconcile_eq, hmerge]
  exact ⟨⟨rfl, rfl, hms⟩, rfl⟩

/-- The exit code by which the pod of `k` answers its status check in a
pass over `pods`. -/
def Sys.answer (env : Env) (pods : PodList) (k : String) (s : Sys) : Int :=
  (s.withPods env pods).checkedCode env k

/-- A member that `recover` finds failed is not up afterwards. -/
theorem Member.recoveredIn_down (r : Sys) (hfailed : m.appFailed = true) :
    (m.recoveredIn env r).appRunning = false
      ∨ (m.recoveredIn env r).appFailed = true := by
  unfold recoveredIn
  split
  · split
    · exact Or.inl rfl
    · exact Or.inr hfailed
  · split
    · exact Or.inr hfailed
    · split
      · exact Or.inl rfl
      · split
        · exact Or.inl rfl
        · exact Or.inr rfl

theorem Member.noteStatus_failed {code : Int} (hcode : code ∉ [0, 7, 8])
    (m : Member) : (m.noteStatus code).appFailed = true := by
  simp only [List.mem_cons, List.not_mem_nil, or_false, not_or] at hcode
  obtain ⟨hzero, hseven, height⟩ := hcode
  unfold noteStatus
  rw [if_neg hzero, if_neg hseven, if_neg height]

theorem Member.noteStatus_running {code : Int} (hcode : code ∈ [0, 7, 8])
    (m : Member) : (m.noteStatus code).appRunning = true ↔ code ≠ 7 := by
  simp only [List.mem_cons, List.not_mem_nil, or_false] at hcode
  rcases hcode with rfl | rfl | rfl
  · simp [noteStatus]
  · simp [noteStatus]
  · simp [noteStatus]

/-- The member of a pod on the list is in order when `recover` comes to
it: it was not failed before, and its status check went well. -/
theorem MergedFrom.checked_fine_iff (hmerge : MergedFrom pods s s₀)
    (hs : s.members.WellKeyed) (hk : k ∈ pods.names)
    (hm : s₀.members.lookup k = some m) (hon : m.online = true) :
    (m.checkedIn env (s₀.checkTurn env k)).appFailed = false
      ↔ (∀ m, s.members.lookup k = some m → m.appFailed = false)
        ∧ s₀.checkedCode env k ∈ [0, 7, 8] := by
  have hbefore : m.appFailed = false
      ↔ ∀ m, s.members.lookup k = some m → m.appFailed = false := by
    constructor
    · intro hfine m₁ hm₁
      rw [hmerge.found hk hm₁] at hm
      cases hm
      exact hfine
    · intro hfine
      rw [← Bool.not_eq_true]
      intro hfailed
      obtain ⟨-, m₁, hm₁, hf⟩ := hmerge.failed hm hfailed
      rw [hfine m₁ hm₁] at hf
      cases hf
  rw [← hbefore]
  cases hfailed : m.appFailed with
  | true =>
      have hskip : m.checkedIn env (s₀.checkTurn env k) = m := by
        unfold Member.checkedIn
        rw [if_pos (by simp [hfailed])]
      rw [hskip, hfailed]
      simp
  | false =>
      rw [checkedIn_eq (hmerge.name hs hm) hfailed hon]
      by_cases hcode : s₀.checkedCode env k ∈ [0, 7, 8]
      · rw [(m.showsCode_noteStatus hcode).2]
        exact iff_of_true hfailed ⟨rfl, hcode⟩
      · rw [m.noteStatus_failed hcode]
        simp [hcode]

/-- The pods answer as their labels say: those of members that have been
started or stopped, have not failed, and whose status check goes well. -/
def Labelled.Agrees (env : Env) (l : Labelled) (pods : PodList) : Prop :=
  ∀ k ∈ pods.names, l.sys.handled k →
    (∀ m, l.sys.members.lookup k = some m → m.appFailed = false) →
    l.sys.answer env pods k ∈ [0, 7, 8] →
      (l.labels k = some true ↔ l.sys.answer env pods k ≠ 7)

section Pass

variable {l : Labelled} {labels : Labels}

/-- The label and the flags of a member the pass finds in order. -/
theorem MergedFrom.label_fine (hmerge : MergedFrom pods s s₀)
    (hs : s.members.WellKeyed) (hk : k ∈ pods.names)
    (hfine : ∀ m, s.members.lookup k = some m → m.appFailed = false)
    (hcode : s₀.checkedCode env k ∈ [0, 7, 8]) :
    Spares k s (reconcileMerged env s₀).2
      ∧ ∃ m, (reconcileMerged env s₀).2.members.lookup k = some m
        ∧ m.online = true ∧ m.appFailed = false
        ∧ (m.appRunning = true ↔ s₀.checkedCode env k ≠ 7) := by
  obtain ⟨m, hm, hon⟩ := hmerge.on_list hk
  have hchecked := (hmerge.checked_fine_iff hs hk hm hon).mpr
    ⟨hfine, hcode⟩
  have hmf : m.appFailed = false := by
    rw [← Bool.not_eq_true]
    intro hfailed
    obtain ⟨-, m₁, hm₁, hf⟩ := hmerge.failed hm hfailed
    rw [hfine m₁ hm₁] at hf
    cases hf
  refine ⟨Logs.trans (.same hmerge.trace) (reconcileMerged_spares hm hchecked),
    _, ?_, ?_, hchecked, ?_⟩
  · rw [lookup_reconcileMerged, hm, Option.map_some,
      Member.recoveredIn_of_healthy _ hchecked]
  · rw [Member.online_checkedIn, hon]
  · rw [checkedIn_eq (hmerge.name hs hm) hmf hon]
    exact m.noteStatus_running hcode

/-- The label and the flags of one that it finds failed. -/
theorem MergedFrom.label_failed (hmerge : MergedFrom pods s s₀)
    (hs : s.members.WellKeyed) (hk : k ∈ pods.names)
    (hbad : ¬ ((∀ m, s.members.lookup k = some m → m.appFailed = false)
      ∧ s₀.checkedCode env k ∈ [0, 7, 8])) :
    Unlabels k s (reconcileMerged env s₀).2
      ∧ ∀ m, (reconcileMerged env s₀).2.members.lookup k = some m →
        m.appRunning = false ∨ m.appFailed = true := by
  obtain ⟨m₀, hm₀, hon⟩ := hmerge.on_list hk
  have hfailed : (m₀.checkedIn env (s₀.checkTurn env k)).appFailed
      = true := by
    rw [← hmerge.checked_fine_iff hs hk hm₀ hon] at hbad
    exact (Bool.not_eq_false _).mp hbad
  have hunlabels := @reconcileMerged_unlabels env _ _ _ hm₀ hon hfailed
  refine ⟨hunlabels.after (P := fun _ => False) (.same hmerge.trace), ?_⟩
  intro m hm
  rw [lookup_reconcileMerged, hm₀] at hm
  cases hm
  exact Member.recoveredIn_down _ hfailed

/-- A member that is online after the pass is on the list. -/
theorem MergedFrom.listed_of_online (hmerge : MergedFrom pods s s₀)
    (hm : (reconcileMerged env s₀).2.members.lookup k = some m)
    (hon : m.online = true) : k ∈ pods.names := by
  rw [lookup_reconcileMerged] at hm
  obtain ⟨m₀, hm₀, rfl⟩ := Option.map_eq_some_iff.mp hm
  cases hon₀ : m₀.online with
  | true => exact hmerge.listed hm₀ hon₀
  | false =>
      have hfine : m₀.appFailed = false := by
        cases hf : m₀.appFailed with
        | false => rfl
        | true => exact (hmerge.failed hm₀ hf).1.symm.trans hon₀
      rw [Member.turns_of_offline _ _ hon₀ hfine, hon₀] at hon
      cases hon

/-- After a pass in which the labels could be written they are right,
exactly if the pods answered as the labels they had said. -/
theorem tracks_iff (hs : l.sys.members.WellKeyed)
    (hok : (l.step env (.call (.reconcile pods))).sys.Patched) :
    (l.step env (.call (.reconcile pods))).Tracks ↔ l.Agrees env pods := by
  obtain ⟨hmerge, heq⟩ := withPods_merged env pods hs
  have hstep : l.step env (.call (.reconcile pods))
      = ⟨(reconcileMerged env (l.sys.withPods env pods)).2,
          l.labels.after (l.sys.since
            (reconcileMerged env (l.sys.withPods env pods)).2)⟩ := by
    show (⟨(reconcile env pods l.sys).state, l.labels.after (l.sys.since
      (reconcile env pods l.sys).state)⟩ : Labelled) = _
    rw [heq]
    rfl
  rw [hstep] at hok ⊢
  constructor
  · intro h k hk hhandled hfine hcode
    obtain ⟨hspares, m, hm, hon, hmf, hrunning⟩ :=
      hmerge.label_fine hs hk hfine hcode
    have hlabel := h.label_iff k m hm hon (hspares.handled_iff.mpr hhandled)
    dsimp only at hlabel
    rw [hspares.labels, hrunning] at hlabel
    rw [hlabel]
    exact and_iff_left hmf
  · intro h
    refine ⟨?_⟩
    intro k m hm hon hhandled
    dsimp only at hm hhandled ⊢
    have hk := hmerge.listed_of_online hm hon
    by_cases hfine : (∀ m, l.sys.members.lookup k = some m →
        m.appFailed = false)
      ∧ (l.sys.withPods env pods).checkedCode env k ∈ [0, 7, 8]
    · obtain ⟨hspares, m', hm', -, hmf, hrunning⟩ :=
        hmerge.label_fine hs hk hfine.1 hfine.2
      rw [hm] at hm'
      cases hm'
      have hagrees := h k hk (hspares.handled_iff.mp hhandled) hfine.1
        hfine.2
      rw [hspares.labels, hrunning, hagrees]
      exact (and_iff_left hmf).symm
    · obtain ⟨hunlabels, hdown⟩ := hmerge.label_failed hs hk hfine
      rw [hunlabels.labels hok]
      have hm := hdown m hm
      simp only [Option.some.injEq, Bool.false_eq_true, false_iff, not_and]
      intro hrunning
      rcases hm with hm | hm
      · rw [hm] at hrunning
        cases hrunning
      · rw [hm]
        simp

end Pass

-- ============================================================== the run

theorem Moves.trace_subset (h : Moves env s s') : s.trace ⊆ s'.trace := by
  refine Moves.keep (I := fun s₁ => s.trace ⊆ s₁.trace) ?_ h
    (List.Subset.refl _)
  intro s₁ s₂ hsub hmove
  exact List.Subset.trans hsub hmove.trace_suffix.subset

namespace Labelled

variable {l : Labelled}

theorem step_moves (l : Labelled) (i : LabelStep) :
    Moves env l.sys (l.step env i).sys := by
  cases i with
  | call i => exact i.step_moves l.sys
  | replaced k => exact .refl

theorem run_moves (steps : List LabelStep) :
    ∀ l : Labelled, Moves env l.sys (l.run env steps).sys := by
  induction steps with
  | nil => intro l; exact .refl
  | cons i steps ih =>
      intro l
      exact (l.step_moves i).trans (ih (l.step env i))

/-- Labels that could be written in a run could be written up to each of
its states. -/
theorem patched_of_run {steps : List LabelStep}
    (hok : (l.run env steps).sys.Patched) : l.sys.Patched := by
  intro e he
  exact hok e ((run_moves steps l).trace_subset he)

/-- From pass to pass. -/
theorem everyPass_iff (steps : List LabelStep) :
    ∀ l : Labelled, l.sys.members.Sound → (l.run env steps).sys.Patched →
      (EveryPass env
          (fun l pods => (l.step env (.call (.reconcile pods))).Tracks)
          l steps
        ↔ EveryPass env (fun l pods => l.Agrees env pods) l steps) := by
  induction steps with
  | nil => intro l _ _; exact Iff.rfl
  | cons i steps ih =>
      intro l hl hok
      have hnext := ih (l.step env i) ((l.step_moves i).sound hl) hok
      cases i with
      | replaced k => exact hnext
      | call i =>
          cases i with
          | reconcile pods =>
              exact and_congr (tracks_iff hl.keyed (patched_of_run hok))
                hnext
          | replicate | recover | podsDead | podsStopped | modify =>
              exact hnext

end Labelled

/-- In every run in which all patches of labels succeed, the label says
after each `reconcile` which of the members that were started or stopped
are up, exactly if in each pass the pods answer as their labels say. -/
theorem labels_track_iff (env : Env) (rss : ReplicatedStatefulSet)
    (labels : Labels) (steps : List LabelStep)
    (hok : (Labelled.run env ⟨Sys.start rss, labels⟩ steps).sys.Patched) :
    EveryPass env
        (fun l pods => (l.step env (.call (.reconcile pods))).Tracks)
        ⟨Sys.start rss, labels⟩ steps
      ↔ EveryPass env (fun l pods => l.Agrees env pods)
          ⟨Sys.start rss, labels⟩ steps :=
  Labelled.everyPass_iff steps _ (Sys.sound_of_nil rfl) hok

/-- A world in which the `n`-th command, if it is a status check, ends
with `code n`, and all others succeed. -/
def Env.checking (code : Nat → Nat) : Env :=
  .answering fun n call _ =>
    if call = .status then .exits (code n) else .exitsZero "1"

/-- Three stopped copies are started, and then found running. -/
theorem labels_track_iff_started :
    let env := Env.checking fun n => if n < 3 then 7 else 8
    let l : Labelled := ⟨Sys.start (.sized 3 3), fun _ => none⟩
    let steps : List LabelStep := [.call (.reconcile .three),
      .call (.replicate 9), .call (.reconcile .three)]
    (l.run env steps).labels "db-2" = some true
      ∧ EveryPass env
        (fun l pods => (l.step env (.call (.reconcile pods))).Tracks)
        l steps := by
  intro env l steps
  refine ⟨by decide +kernel, ?_⟩
  refine (labels_track_iff env _ _ steps ?_).mpr ⟨?_, ?_, trivial⟩
  · decide +kernel
  · intro k hk hhandled
    obtain ⟨e, he, -⟩ := hhandled
    cases he
  · intro k hk _ _ _
    revert k
    decide +kernel

/-- Three copies are started and end by themselves. The next pass finds
them stopped, and their pods stay labelled active. -/
theorem stopped_still_active :
    let env := Env.checking fun _ => 7
    let l := Labelled.run env ⟨Sys.start (.sized 3 3), fun _ => none⟩
      [.call (.reconcile .three), .call (.replicate 9),
        .call (.reconcile .three)]
    l.sys.Patched
      ∧ (∀ k ∈ PodList.three.names, l.sys.handled k
        ∧ (l.sys.members.lookup k).map (fun m => (m.online, m.appRunning))
          = some (true, false)
        ∧ l.labels k = some true)
      ∧ ¬ l.Tracks := by
  intro env l
  have hstate : ∀ k ∈ PodList.three.names, l.sys.handled k
      ∧ (l.sys.members.lookup k).map (fun m => (m.online, m.appRunning))
        = some (true, false)
      ∧ l.labels k = some true := by
    decide +kernel
  refine ⟨by decide +kernel, hstate, ?_⟩
  intro h
  obtain ⟨hhandled, hflags, hlabel⟩ := hstate "db-0" (by decide)
  obtain ⟨m, hm, hm'⟩ := Option.map_eq_some_iff.mp hflags
  have hup := (h.label_iff "db-0" m hm (congrArg Prod.fst hm')
    hhandled).mp hlabel
  rw [show m.appRunning = false from congrArg Prod.snd hm'] at hup
  cases hup.1

end RssOperator
