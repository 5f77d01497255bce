/-
Deletions: what has happened to a member before its pod is deleted.

# The intended rule

A pod is deleted only after a stop that failed, and failed in the
current incident: since the flag `AppFailed` of the member was last set.
`recover` deletes at once when `Failures` is above one, on the
assumption that one failed start or check and one failed stop have been
counted by then.

# What the counter counts

`Failures` is never reset. A successful stop clears the flag, and so
does the loss of the pod, but the count goes on, so that the second
incident of a member begins where the first ended. The rule is a theorem
for the runs in which every incident finds a fresh count
(`Event.freshCount`), and the run at the end of this file shows that it
needs them.

# The invariant

At all times a failed member has a count of at most one, or a stop has
failed on it since its flag was set. The trace remembers the member set
of every call, so "since its flag was set" is a fact about the entries
behind that stop: in each of them the flag is up.
-/
import RssOperator.Proofs.Refinement

namespace RssOperator

variable {env : Env} {G : Event → Prop} {s s' : Sys} {k k' : String}
  {m m' : Member} {t : List Event}

-- ========================================================== incidents

/-- The flag of the member under `k` was up when the call was made. -/
def Event.flagged (k : String) : Event → Prop
  | .exec _ _ _ _ peers _ | .delete _ peers _ =>
      ∃ m, peers.lookup k = some m ∧ m.appFailed = true
  | _ => True

/-- A stop has failed on the member under `k` while its flag was up, and
the flag has been up ever since. -/
def StoppedSince (k : String) (trace : List Event) : Prop :=
  ∃ newer older, trace = newer ++ older ∧ StopJustFailed k older
    ∧ ∀ e ∈ newer, e.flagged k

/-- Every deletion comes after a failed stop of its incident. -/
def DeletesAfterStop (trace : List Event) : Prop :=
  ∀ newer k peers ok older,
    trace = newer ++ .delete k peers ok :: older → StoppedSince k older

/-- The answer makes the call set the flag of its member. -/
def Call.marks (a : ExecAnswer) : Call → Bool
  | .status => !decide (a.rc = 0 ∨ a.rc = 7 ∨ a.rc = 8)
  | .sequence => false
  | .stop | .start _ _ => !a.succeeds

/-- The count an incident may begin with: what sets the flag counts one
failure, except for a status check. -/
def Call.allowance : Call → Nat
  | .status => 1
  | .sequence | .stop | .start _ _ => 0

/-- A call that begins an incident finds a count without failures of an
earlier one. -/
def Event.freshCount : Event → Bool
  | .exec call k _ _ peers a =>
      (peers.lookup k).all fun m =>
        m.appFailed || !call.marks a || decide (m.failures ≤ call.allowance)
  | _ => true

theorem failures_le_of_freshCount {call : Call} {pod : String}
    {args : List String} {peers : MemberSet} {a : ExecAnswer}
    (h : Event.freshCount (.exec call k pod args peers a) = true)
    (hm : peers.lookup k = some m) (hclear : m.appFailed = false)
    (hmarks : call.marks a = true) : m.failures ≤ call.allowance := by
  unfold Event.freshCount at h
  dsimp only at h
  rw [hm] at h
  simpa [hclear, hmarks] using h

-- =========================================================== the trace

theorem StopJustFailed.stoppedSince (h : StopJustFailed k t) :
    StoppedSince k t :=
  ⟨[], t, rfl, h, by simp⟩

theorem StoppedSince.append {es : List Event} (h : StoppedSince k t)
    (hes : ∀ e ∈ es, e.flagged k) : StoppedSince k (es ++ t) := by
  obtain ⟨newer, older, rfl, hstop, hnewer⟩ := h
  refine ⟨es ++ newer, older, (List.append_assoc ..).symm, hstop, ?_⟩
  intro e he
  rcases List.mem_append.mp he with he | he
  · exact hes e he
  · exact hnewer e he

theorem Event.flagged_of_quiet {e : Event} (h : e.quiet = true) :
    e.flagged k := by
  cases e with
  | exec => cases h
  | delete => cases h
  | tag => trivial
  | update => trivial
  | get => trivial

theorem DeletesAfterStop.cons {e : Event} (h : DeletesAfterStop t)
    (he : ∀ k peers ok, e = .delete k peers ok → StoppedSince k t) :
    DeletesAfterStop (e :: t) := by
  intro newer k peers ok older hsplit
  cases newer with
  | nil =>
      injection hsplit with hhead htail
      subst htail
      exact he k peers ok hhead
  | cons x newer =>
      injection hsplit with _ htail
      exact h newer k peers ok older htail

theorem DeletesAfterStop.quiet {es : List Event} (h : DeletesAfterStop t)
    (hes : ∀ e ∈ es, e.quiet = true) : DeletesAfterStop (es ++ t) := by
  induction es with
  | nil => exact h
  | cons e es ih =>
      refine (ih fun x hx => hes x (List.mem_cons_of_mem _ hx)).cons ?_
      intro k peers ok heq
      subst heq
      cases hes _ List.mem_cons_self

-- ======================================================= the invariant

/-- A failed member has no old failures on its count, or its stop has
failed. -/
def Member.Cleared (m : Member) (k : String) (trace : List Event) : Prop :=
  m.appFailed = true → m.failures ≤ 1 ∨ StoppedSince k trace

/-- What holds at all times: entries are consistent, every failed member
is `Cleared`, and so far every deletion came after a failed stop. -/
structure Incidents (s : Sys) : Prop where
  sound : s.members.Sound
  cleared : ∀ k m, s.members.lookup k = some m → m.Cleared k s.trace
  deletes : DeletesAfterStop s.trace

/-- An entry that is not touched stays as it is: the new call saw its
flag up. -/
theorem Member.Cleared.cons {e : Event} (h : m.Cleared k t)
    (he : m.appFailed = true → e.flagged k) : m.Cleared k (e :: t) := by
  intro hf
  rcases h hf with hle | hstop
  · exact Or.inl hle
  · have hone : ∀ x ∈ [e], x.flagged k := by
      intro x hx
      rw [List.mem_singleton.mp hx]
      exact he hf
    exact Or.inr (hstop.append hone)

/-- The member a command runs on. -/
theorem Effect.cleared {spec : ClusterSpec} {a : ExecAnswer} {call : Call}
    {args : List String} {peers : MemberSet}
    (heff : Effect spec a m call m') (hm : peers.lookup k = some m)
    (hfresh : Event.freshCount (.exec call k m.name args peers a) = true)
    (t : List Event) :
    m'.Cleared k (.exec call k m.name args peers a :: t) := by
  -- a failed start or stop that begins the incident counts as one
  have hone : m.appFailed = false → call.marks a = true →
      call.allowance = 0 → m.noteFailure.failures ≤ 1 := by
    intro hclear hmarks hallow
    have hle := failures_le_of_freshCount hfresh hm hclear hmarks
    show (m.failures + 1) % 2 ^ 64 ≤ 1
    omega
  intro hf
  cases heff with
  | startFailed hel ha =>
      left
      exact hone (Member.eligible_iff.mp hel).2.1 (by simp [Call.marks, ha]) rfl
  | started => cases hf
  | stopFailed _ ha =>
      by_cases hup : m.appFailed = true
      · right
        exact StopJustFailed.stoppedSince
          ⟨m.name, args, peers, a, m, t, rfl, hm, hup, ha⟩
      · left
        exact hone (Bool.not_eq_true _ ▸ hup) (by simp [Call.marks, ha]) rfl
  | stopped => cases hf
  | checked _ hclear =>
      left
      have hcode : ¬ (a.rc = 0 ∨ a.rc = 7 ∨ a.rc = 8) := by
        intro hrc
        unfold Member.noteStatus statusCode at hf
        rcases hrc with hrc | hrc | hrc
        · by_cases hsec : (spec.commands .secondary).isNone = true
          · simp [hrc, hsec, hclear] at hf
          · simp [hrc, hsec, hclear] at hf
        · simp [hrc, hclear] at hf
        · simp [hrc, hclear] at hf
      have hle := failures_le_of_freshCount hfresh hm hclear
        (by simp [Call.marks, hcode])
      unfold Member.noteStatus
      split
      · exact hle
      · split
        · exact hle
        · split
          · exact hle
          · exact hle

/-- One entry that saw the flags of all members, and a write to one of
them. -/
theorem Incidents.write {e : Event} {f : Member → Member}
    (hs : Incidents s) (hsound : s'.members.Sound)
    (hpeers : s'.c.peers = some (s.members.modify k f))
    (htrace : s'.trace = e :: s.trace)
    (hsaw : ∀ k₁ m₁, s.members.lookup k₁ = some m₁ → m₁.appFailed = true →
      e.flagged k₁)
    (hk : ∀ m₀, s.members.lookup k = some m₀ →
      (f m₀).Cleared k (e :: s.trace))
    (hdelete : ∀ k₁ peers ok, e = .delete k₁ peers ok →
      StoppedSince k₁ s.trace) : Incidents s' := by
  refine ⟨hsound, ?_, ?_⟩
  · intro k₁ m₁ hm₁
    rw [Sys.members_of_peers hpeers] at hm₁
    rw [htrace]
    rcases GoMap.lookup_modify_some hm₁ with ⟨rfl, m₀, hm₀, rfl⟩ | hm₁
    · exact hk m₀ hm₀
    · exact (hs.cleared k₁ m₁ hm₁).cons (hsaw k₁ m₁ hm₁)
  · rw [htrace]
    exact hs.deletes.cons hdelete

/-- One step of a pass keeps the invariant. -/
theorem Act.incidents (hact : Act env G s s') (hs : Incidents s)
    (hfresh : ∀ e ∈ s'.trace, e.freshCount = true) : Incidents s' := by
  have hsound := hact.sound hs.sound
  have hsaw : ∀ k m, s.members.lookup k = some m → m.appFailed = true →
      ∃ m, s.members.lookup k = some m ∧ m.appFailed = true :=
    fun k m hm hflag => ⟨m, hm, hflag⟩
  cases hact with
  | quiet h =>
      obtain ⟨es, hes, hq⟩ := h.trace
      refine ⟨hsound, ?_, ?_⟩
      · intro k m hm hf
        rw [h.members] at hm
        rw [hes]
        refine (hs.cleared k m hm hf).imp_right fun hstop => ?_
        exact hstop.append fun e he => Event.flagged_of_quiet (hq e he)
      · rw [hes]
        exact hs.deletes.quiet hq
  | @command call k m m' args hm heff hpeers htrace _ =>
      rw [htrace] at hfresh
      refine hs.write hsound hpeers htrace hsaw ?_ ?_
      · intro m₀ _
        exact heff.cleared hm (hfresh _ List.mem_cons_self) _
      · intro _ _ _ h
        cases h
  | @detect k m args f hm hon hf hpeers htrace _ =>
      refine hs.write hsound hpeers htrace hsaw ?_ ?_
      · intro m₀ hm₀
        obtain ⟨n, hn⟩ := hf m₀
        rw [hn]
        exact Member.Cleared.cons (hs.cleared _ m₀ hm₀) (hsaw _ m₀ hm₀)
      · intro _ _ _ h
        cases h
  | @delete k m ok hm hfailed hcause hpeers htrace _ =>
      refine hs.write hsound hpeers htrace hsaw ?_ ?_
      · intro m₀ _
        cases ok with
        | true => exact fun hflag => by cases hflag
        | false => exact (hs.cleared _ m hm).cons (hsaw k m hm)
      · intro k' peers ok' heq
        injection heq with hk
        subst hk
        -- a count above one cannot be all this incident has to show
        rcases hcause with hcount | hstop
        · rcases hs.cleared k m hm hfailed with hle | hstop
          · omega
          · exact hstop
        · exact hstop.stoppedSince

/-- The merge carries flag and count over, clears the flag or brings in a
member without one. -/
theorem Member.Cleared.merged {ms : MemberSet}
    {rss : ReplicatedStatefulSet} {pods : List Pod}
    (h : ∀ m, ms.lookup k = some m → m.Cleared k t)
    (hm : MemberSet.merged ms (podsToMemberSet rss pods) k = some m) :
    m.Cleared k t := by
  unfold MemberSet.merged at hm
  split at hm
  · next m₀ r h₀ _ =>
    injection hm with hm
    subst hm
    exact h m₀ h₀
  · injection hm with hm
    subst hm
    exact fun hflag => by cases hflag
  · obtain ⟨r, hr, rfl⟩ := Option.map_eq_some_iff.mp hm
    obtain ⟨pod, -, -, rfl⟩ := podsToMemberSet_some hr
    exact fun hflag => by cases hflag

/-- One step of the loop keeps the invariant. -/
theorem Move.incidents (hmove : Move env s s') (hs : Incidents s)
    (hfresh : ∀ e ∈ s'.trace, e.freshCount = true) : Incidents s' := by
  have hsound := hmove.sound hs.sound
  cases hmove with
  | act h => exact h.incidents hs hfresh
  | @merge _ pods h =>
      obtain ⟨ms, heq, hms⟩ := @mergeMembers_some env s hs.sound.keyed pods
      rw [heq] at h
      injection h with h
      subst h
      refine ⟨hsound, fun k m hm => ?_, hs.deletes⟩
      have hm' : ms.lookup k = some m := hm
      rw [hms] at hm'
      exact Member.Cleared.merged (hs.cleared k) hm'
  | clear =>
      refine ⟨hsound, fun k m hm => ?_, hs.deletes⟩
      cases hm
  | modify hpeers htrace =>
      refine ⟨hsound, fun k m hm => ?_, ?_⟩
      · unfold Sys.members at hm
        rw [hpeers] at hm
        rw [htrace]
        exact hs.cleared k m hm
      · rw [htrace]
        exact hs.deletes

/-- The trace only grows. -/
theorem Move.trace_suffix (hmove : Move env s s') :
    s.trace <:+ s'.trace := by
  cases hmove with
  | act h =>
      obtain ⟨es, hes, -⟩ := Acts.grows (Relation.ReflTransGen.single h)
      exact ⟨es, hes.symm⟩
  | merge h =>
      unfold mergeMembers at h
      obtain ⟨ms, -, rfl⟩ := Option.map_eq_some_iff.mp h
      exact List.suffix_rfl
  | clear => exact List.suffix_rfl
  | modify _ htrace => exact ⟨[], htrace.symm⟩

theorem Moves.incidents (h : Moves env s s') (hs : Incidents s)
    (hfresh : ∀ e ∈ s'.trace, e.freshCount = true) : Incidents s' := by
  induction h with
  | refl => exact hs
  | tail _ hmove ih =>
      refine hmove.incidents (ih fun e he => ?_) hfresh
      exact hfresh e (hmove.trace_suffix.subset he)

theorem incidents_start (rss : ReplicatedStatefulSet) :
    Incidents (Sys.start rss) where
  sound := MemberSet.sound_empty
  cleared := by
    intro k m hm
    cases hm
  deletes := by
    intro newer k peers ok older h
    cases newer <;> cases h

/-- In every run in which each incident finds a count without failures of
an earlier one, a pod is deleted only after a stop on it has failed since
its flag was last set. -/
theorem run_deletes_after_stop (env : Env) (rss : ReplicatedStatefulSet)
    (is : List Input)
    (hfresh : ∀ e ∈ (run env is (Sys.start rss)).state.trace,
      e.freshCount = true) :
    DeletesAfterStop (run env is (Sys.start rss)).state.trace :=
  ((run_moves is _).incidents (incidents_start rss) hfresh).deletes

/-- Neither a start nor a stop ever works. -/
def Env.stuck : Env :=
  .answering fun _ call _ => match call with
    | .status => .exits 7
    | .sequence => .exitsZero "5"
    | .stop | .start _ _ => .exits 1

def Event.isDelete : Event → Bool
  | .delete .. => true
  | _ => false

def Event.isFailedStop : Event → Bool
  | .exec .stop _ _ _ _ a => !a.succeeds
  | _ => false

/-- All three pods are deleted, each after its stop has failed. -/
theorem run_deletes_after_stop_stuck :
    (run .stuck [.timer 9 (.pods .three [])]
        (Sys.start (.sized 3 1))).state.trace.countP Event.isDelete = 3
      ∧ DeletesAfterStop (run .stuck [.timer 9 (.pods .three [])]
        (Sys.start (.sized 3 1))).state.trace :=
  ⟨by decide +kernel, run_deletes_after_stop _ _ _ (by decide +kernel)⟩

theorem StoppedSince.exists_failed (h : StoppedSince k t) :
    ∃ e ∈ t, e.isFailedStop = true := by
  obtain ⟨newer, older, rfl, ⟨pod, args, peers, a, m, rest, rfl, -, -, ha⟩,
    -⟩ := h
  refine ⟨_, List.mem_append_right _ List.mem_cons_self, ?_⟩
  simp [Event.isFailedStop, ha]

/-- Starts fail and stops work. The first iteration cleans up with a stop
each; the second finds a count of two after one more failed start and
deletes a pod, and no stop has ever failed. -/
theorem run_deletes_without_stop :
    let trace := (run .failingStarts
      [.timer 9 (.pods .three []), .timer 9 (.pods .three [])]
      (Sys.start (.sized 3 1))).state.trace
    (∀ e ∈ trace, e.isFailedStop = false) ∧ ¬ DeletesAfterStop trace := by
  intro trace
  have hnone : ∀ e ∈ trace, e.isFailedStop = false := by decide +kernel
  have hdel : ∃ e ∈ trace, e.isDelete = true := by decide +kernel
  refine ⟨hnone, fun h => ?_⟩
  obtain ⟨e, he, hdelete⟩ := hdel
  obtain ⟨newer, older, hsplit⟩ := List.append_of_mem he
  cases e with
  | delete k peers ok =>
      obtain ⟨x, hx, hfailed⟩ := (h newer k peers ok older hsplit).exists_failed
      have hmem : x ∈ trace := by
        rw [hsplit]
        exact List.mem_append_right _ (List.mem_cons_of_mem _ hx)
      rw [hnone x hmem] at hfailed
      cases hfailed
  | exec => cases hdelete
  | tag => cases hdelete
  | update => cases hdelete
  | get => cases hdelete

end RssOperator
