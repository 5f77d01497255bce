/-
One iteration of the reconcile branch: what becomes of a deleted pod.

# A list that is used twice

The branch polls the pods once. It reconciles with that list, replicates,
and if that failed reconciles with the same list again. A member whose
pod `replicate` has deleted is marked offline; the second merge finds its
name on the list and marks it online, though nothing has been polled
since.

# Where a member comes online

Between two merges only a deletion changes `Online`, and only to false
(`Acts.online_iff`). `Pass` is a merge and what follows it up to the
next one. A member that a pass deletes was online when the pass began, so
it is on the list (`Pass.on_list`), and a second pass over that list
begins with it online (`broughtBack_iff`). So a deleted pod stays offline
exactly if there is no second pass behind its deletion
(`deleted_stays_offline_iff`).

# Deleted once more

A member that was brought back may still end the iteration offline, if the
second pass deletes it again. That is up to the answers it gets there
(`AnsweredAsFailed`, `deleted_ends_offline_iff`).
-/
import RssOperator.Proofs.Refinement
import RssOperator.Proofs.Turns

namespace RssOperator

variable {env : Env} {G : Event → Prop} {s s' : Sys} {k : String}
  {m m' : Member}

-- =========================================================== deletions

/-- The pod of the member under `k` was deleted. -/
def Deleted (k : String) (es : List Event) : Prop :=
  ∃ peers, .delete k peers true ∈ es

def Event.deletes (k : String) : Event → Bool
  | .delete k₁ _ ok => k₁ == k && ok
  | _ => false

theorem deleted_iff_any {es : List Event} :
    Deleted k es ↔ ∃ e ∈ es, e.deletes k = true := by
  constructor
  · intro h
    obtain ⟨peers, hmem⟩ := h
    exact ⟨_, hmem, by simp [Event.deletes]⟩
  · intro h
    obtain ⟨e, hmem, he⟩ := h
    cases e with
    | delete k₁ peers ok =>
        simp only [Event.deletes, Bool.and_eq_true, beq_iff_eq] at he
        obtain ⟨rfl, rfl⟩ := he
        exact ⟨peers, hmem⟩
    | exec => cases he
    | tag => cases he
    | update => cases he
    | get => cases he

instance (k : String) (es : List Event) : Decidable (Deleted k es) :=
  decidable_of_iff _ deleted_iff_any.symm

theorem deleted_append {es es' : List Event} :
    Deleted k (es ++ es') ↔ Deleted k es ∨ Deleted k es' := by
  unfold Deleted
  simp only [List.mem_append, exists_or]

/-- A step with one trace entry deletes what that entry says. -/
theorem deleted_since_one {e : Event} (htrace : s'.trace = e :: s.trace) :
    Deleted k (s.since s') ↔ ∃ peers, .delete k peers true = e := by
  have hsince : s.since s' = [e] := Sys.since_eq htrace
  unfold Deleted
  rw [hsince]
  simp only [List.mem_singleton]

/-- A command is no deletion. -/
theorem not_deleted_exec {call : Call} {k₁ pod : String}
    {args : List String} {peers : MemberSet} {a : ExecAnswer}
    (htrace : s'.trace = .exec call k₁ pod args peers a :: s.trace) :
    ¬ Deleted k (s.since s') := by
  rw [deleted_since_one htrace]
  intro h
  obtain ⟨_, h⟩ := h
  cases h

theorem not_deleted_quiet (h : Quiet s s') : ¬ Deleted k (s.since s') := by
  obtain ⟨es, hes, hq⟩ := h.trace
  intro hdel
  obtain ⟨peers, hmem⟩ := hdel
  rw [Sys.since_eq hes] at hmem
  have hquiet := hq _ hmem
  cases hquiet

-- ============================================================== online

/-- The member under `k` is there and online. -/
def Sys.OnlineAt (s : Sys) (k : String) : Prop :=
  ∃ m, s.members.lookup k = some m ∧ m.online = true

/-- The member under `k` is there and offline. -/
def Sys.OfflineAt (s : Sys) (k : String) : Prop :=
  ∃ m, s.members.lookup k = some m ∧ m.online = false

instance (s : Sys) (k : String) : Decidable (s.OnlineAt k) :=
  decidable_of_iff ((s.members.lookup k).any Member.online = true) (by
    unfold Sys.OnlineAt
    rw [Option.any_eq_true])

/-- Rewriting one entry leaves every other entry as it is, and this one
as online as the new entry is. -/
theorem Sys.onlineAt_modify {f : Member → Member} {k₁ : String} {m₁ : Member}
    (hm₁ : s.members.lookup k₁ = some m₁)
    (hpeers : s'.c.peers = some (s.members.modify k₁ f)) :
    s'.OnlineAt k ↔ if k = k₁ then (f m₁).online = true else s.OnlineAt k := by
  unfold OnlineAt
  rw [Sys.members_of_peers hpeers, GoMap.lookup_modify]
  split
  · next hk =>
    subst hk
    rw [hm₁]
    simp
  · rfl

theorem Sys.onlineAt_kept {f : Member → Member} {k₁ : String} {m₁ : Member}
    (hm₁ : s.members.lookup k₁ = some m₁)
    (hpeers : s'.c.peers = some (s.members.modify k₁ f))
    (hon : (f m₁).online = m₁.online) : s'.OnlineAt k ↔ s.OnlineAt k := by
  rw [Sys.onlineAt_modify hm₁ hpeers]
  split
  · next hk =>
    subst hk
    unfold OnlineAt
    rw [hm₁, hon]
    simp
  · rfl

/-- One step of a pass: only the deletion of its pod takes a member
offline, and nothing brings it online. -/
theorem Act.online_iff (hact : Act env G s s') (hs : s.members.Sound) :
    s'.OnlineAt k ↔ s.OnlineAt k ∧ ¬ Deleted k (s.since s') := by
  cases hact with
  | quiet h =>
      unfold Sys.OnlineAt
      rw [h.members]
      exact (and_iff_left (not_deleted_quiet h)).symm
  | command hm heff hpeers htrace _ =>
      rw [Sys.onlineAt_kept hm hpeers heff.online]
      exact (and_iff_left (not_deleted_exec htrace)).symm
  | @detect k₁ m₁ _ f hm _ hf hpeers htrace _ =>
      -- the entry written is the one visited: its name is its key
      obtain ⟨n, hn⟩ := hf m₁
      rw [(hs k₁ m₁ hm).name] at hpeers
      rw [Sys.onlineAt_kept hm hpeers (by rw [hn])]
      exact (and_iff_left (not_deleted_exec htrace)).symm
  | @delete k₁ m₁ ok hm _ _ hpeers htrace _ =>
      rw [deleted_since_one htrace]
      cases ok with
      | false =>
          rw [Sys.onlineAt_kept hm hpeers rfl]
          simp
      | true =>
          rw [Sys.onlineAt_modify hm hpeers]
          by_cases hk : k = k₁
          · simp [hk, Member.offline]
          · simp [hk]

/-- No step of a pass adds or drops a member. -/
theorem Act.keys (hact : Act env G s s') :
    s'.members.keys = s.members.keys := by
  cases hact with
  | quiet h => rw [h.members]
  | command _ _ hpeers _ _ =>
      rw [Sys.members_of_peers hpeers, GoMap.keys_modify]
  | detect _ _ _ _ hpeers _ _ =>
      rw [Sys.members_of_peers hpeers, GoMap.keys_modify]
  | delete _ _ _ _ hpeers _ _ =>
      rw [Sys.members_of_peers hpeers, GoMap.keys_modify]

/-- A deleted member was online: it had failed. -/
theorem Act.onlineAt_of_deleted (hact : Act env G s s')
    (hs : s.members.Sound) (hdel : Deleted k (s.since s')) :
    s.OnlineAt k := by
  cases hact with
  | quiet h => exact absurd hdel (not_deleted_quiet h)
  | command _ _ _ htrace _ => exact absurd hdel (not_deleted_exec htrace)
  | detect _ _ _ _ _ htrace _ => exact absurd hdel (not_deleted_exec htrace)
  | delete ok hm hfailed _ _ htrace _ =>
      obtain ⟨peers, heq⟩ := (deleted_since_one htrace).mp hdel
      injection heq with hk
      subst hk
      exact ⟨_, hm, (hs _ _ hm).online_of_flag (Or.inr hfailed)⟩

namespace Acts

theorem keys (h : Acts env G s s') : s'.members.keys = s.members.keys :=
  keep (fun _ _ hi hact => hact.keys.trans hi) h rfl

theorem online_iff (h : Acts env G s s') (hs : s.members.Sound) :
    s'.OnlineAt k ↔ s.OnlineAt k ∧ ¬ Deleted k (s.since s') := by
  induction h with
  | refl =>
      have hnone : ¬ Deleted k (s.since s) := not_deleted_quiet (.refl s)
      exact (and_iff_left hnone).symm
  | @tail s₁ s₂ h₁ hact ih =>
      have hlast : Acts env G s₁ s₂ := Relation.ReflTransGen.single hact
      rw [hact.online_iff (Acts.sound h₁ hs), ih,
        Acts.since_trans h₁ hlast, deleted_append, not_or]
      tauto

theorem onlineAt_of_deleted (h : Acts env G s s') (hs : s.members.Sound)
    (hdel : Deleted k (s.since s')) : s.OnlineAt k := by
  induction h with
  | refl => exact absurd hdel (not_deleted_quiet (.refl s))
  | @tail s₁ s₂ h₁ hact ih =>
      have hlast : Acts env G s₁ s₂ := Relation.ReflTransGen.single hact
      rw [Acts.since_trans h₁ hlast, deleted_append] at hdel
      rcases hdel with hdel | hdel
      · have hon := hact.onlineAt_of_deleted (Acts.sound h₁ hs) hdel
        exact ((online_iff h₁ hs).mp hon).1
      · exact ih hdel

/-- What a pass has deleted is offline when it ends. -/
theorem offlineAt_of_deleted (h : Acts env G s s') (hs : s.members.Sound)
    (hdel : Deleted k (s.since s')) : s'.OfflineAt k := by
  obtain ⟨m, hm, -⟩ := h.onlineAt_of_deleted hs hdel
  have hkey : k ∈ s'.members.keys := by
    rw [h.keys]
    exact GoMap.mem_keys_iff.mpr ⟨m, hm⟩
  obtain ⟨m', hm'⟩ := GoMap.mem_keys_iff.mp hkey
  refine ⟨m', hm', ?_⟩
  cases hon : m'.online with
  | false => rfl
  | true =>
      have hend := (h.online_iff hs).mp ⟨m', hm', hon⟩
      exact absurd hdel hend.2

end Acts

-- ============================================================== passes

/-- The pods on the list were merged in: these are the members that are
online now. -/
structure Merges (pods : PodList) (s s₀ : Sys) : Prop where
  sound : s₀.members.Sound
  trace : s₀.trace = s.trace
  online : ∀ k, s₀.OnlineAt k ↔ k ∈ pods.names

/-- The list decides who is online after a merge. -/
theorem MemberSet.online_merged {ms : MemberSet}
    {rss : ReplicatedStatefulSet} {pods : List Pod} :
    (∃ m, ms.merged (podsToMemberSet rss pods) k = some m ∧ m.online = true)
      ↔ k ∈ pods.map Pod.name := by
  unfold merged
  cases hr : (podsToMemberSet rss pods).lookup k with
  | none =>
      refine iff_of_false ?_ ?_
      · intro h
        obtain ⟨m, hm, hon⟩ := h
        cases hms : ms.lookup k with
        | none =>
            rw [hms] at hm
            cases hm
        | some m₀ =>
            rw [hms] at hm
            injection hm with hm
            rw [← hm] at hon
            cases hon
      · intro hk
        obtain ⟨r, hr'⟩ := @podsToMemberSet_isSome rss pods k hk
        rw [hr] at hr'
        cases hr'
  | some r =>
      obtain ⟨pod, hpod, hname, rfl⟩ := podsToMemberSet_some hr
      refine iff_of_true ?_ (List.mem_map.mpr ⟨pod, hpod, hname⟩)
      cases ms.lookup k with
      | none => exact ⟨_, rfl, rfl⟩
      | some m₀ => exact ⟨_, rfl, rfl⟩

theorem mergeMembers_merges {pods : PodList} {s₀ : Sys}
    (hs : s.members.Sound)
    (h : mergeMembers env (podsToMemberSet s.c.rss pods.pods) s = some s₀) :
    Merges pods s s₀ := by
  have hsound : s₀.members.Sound := Move.sound (.merge h) hs
  obtain ⟨ms, heq, hms⟩ := @mergeMembers_some env s hs.keyed pods.pods
  rw [heq] at h
  injection h with h
  subst h
  refine ⟨hsound, rfl, ?_⟩
  intro k
  show (∃ m, ms.lookup k = some m ∧ m.online = true) ↔ _
  rw [hms]
  exact MemberSet.online_merged

/-- A merge of the list, and what follows it up to the next merge. -/
def Pass (env : Env) (pods : PodList) (s s' : Sys) : Prop :=
  ∃ s₀, Merges pods s s₀ ∧ Acts env (fun _ => True) s₀ s'

theorem reconcile_pass {pods : PodList} {errors : List Err}
    (hs : s.members.Sound) (h : reconcile env pods s = .ret errors s') :
    Pass env pods s s' := by
  rw [reconcile_eq] at h
  split at h
  · cases h
  · next s₀ hmerge =>
    injection h with _ h
    subst h
    exact ⟨s₀, mergeMembers_merges hs hmerge, reconcileMerged_acts s₀⟩

namespace Pass

variable {pods : PodList} {s₁ : Sys}

theorem trans_acts (h : Pass env pods s s₁)
    (h' : Acts env (fun _ => True) s₁ s') : Pass env pods s s' := by
  obtain ⟨s₀, hmerge, hacts⟩ := h
  exact ⟨s₀, hmerge, hacts.trans h'⟩

theorem sound (h : Pass env pods s s') : s'.members.Sound := by
  obtain ⟨s₀, hmerge, hacts⟩ := h
  exact hacts.sound hmerge.sound

theorem trace_eq (h : Pass env pods s s') :
    s'.trace = s.since s' ++ s.trace := by
  obtain ⟨s₀, hmerge, hacts⟩ := h
  have hgrow := hacts.trace_eq
  rw [hmerge.trace] at hgrow
  rw [Sys.since_eq hgrow]
  exact hgrow

/-- Merging adds nothing to the trace. -/
theorem since_eq {s₀ : Sys} (hmerge : Merges pods s s₀) :
    s.since s' = s₀.since s' := by
  unfold Sys.since
  rw [hmerge.trace]

theorem offlineAt_of_deleted (h : Pass env pods s s')
    (hdel : Deleted k (s.since s')) : s'.OfflineAt k := by
  obtain ⟨s₀, hmerge, hacts⟩ := h
  rw [since_eq hmerge] at hdel
  exact hacts.offlineAt_of_deleted hmerge.sound hdel

/-- Only pods on the list are deleted. -/
theorem on_list (h : Pass env pods s s') (hdel : Deleted k (s.since s')) :
    k ∈ pods.names := by
  obtain ⟨s₀, hmerge, hacts⟩ := h
  rw [since_eq hmerge] at hdel
  have hon := hacts.onlineAt_of_deleted hmerge.sound hdel
  exact (hmerge.online k).mp hon

/-- What two passes in a row have added. -/
theorem since_trans (h : Pass env pods s s₁) (h' : Pass env pods s₁ s') :
    s.since s' = s₁.since s' ++ s.since s₁ := by
  refine Sys.since_eq ?_
  rw [List.append_assoc, ← h.trace_eq, ← h'.trace_eq]

end Pass

-- ===================================================== the second pass

/-- The entry of a member that was there before and is on the list. -/
def Member.found (m : Member) : Member := { m.copy with online := true }

/-- The same for a whole `reconcile`: the member was offline and is on
the list. -/
theorem reconcile_offlineAt_iff {pods : PodList} {errors : List Err}
    {s₀ : Sys} (hs : s.members.Sound)
    (hmerge : mergeMembers env (podsToMemberSet s.c.rss pods.pods) s
      = some s₀)
    (h : reconcile env pods s = .ret errors s')
    (hm : s.members.lookup k = some m) (hoff : m.online = false)
    (hk : k ∈ pods.names) :
    s'.OfflineAt k ↔ AnsweredAsFailed env k m.failures
      (s₀.checkTurn env k) ((checkMembers env s₀).2.recoverTurn env k) := by
  -- the merge: the entry as it was, but online
  have hm₀ : s₀.members.lookup k = some m.found := by
    obtain ⟨ms, heq, hms⟩ := @mergeMembers_some env s hs.keyed pods.pods
    rw [heq] at hmerge
    injection hmerge with hmerge
    subst hmerge
    obtain ⟨r, hr⟩ := @podsToMemberSet_isSome s.c.rss pods.pods k hk
    show ms.lookup k = _
    rw [hms, MemberSet.merged, hm, hr]
    rfl
  -- its two turns, and the report, which touches no member
  have hend : s'.members.lookup k = some
      ((m.found.checkedIn env (s₀.checkTurn env k)).recoveredIn env
        ((checkMembers env s₀).2.recoverTurn env k)) := by
    rw [reconcile_eq, hmerge] at h
    injection h with _ h
    subst h
    show (reportReconciled env _ _).members.lookup k = _
    rw [(Quiet.reportReconciled _ _).members]
    exact lookup_recover (lookup_checkMembers hm₀)
  have hsound := hs k m hm
  have hturns : ((m.found.checkedIn env (s₀.checkTurn env k)).recoveredIn
      env ((checkMembers env s₀).2.recoverTurn env k)).online = false
      ↔ AnsweredAsFailed env k m.failures (s₀.checkTurn env k)
        ((checkMembers env s₀).2.recoverTurn env k) :=
    offline_after_turns hsound.name rfl (hsound.offline hoff).2.2.1
  rw [← hturns]
  unfold Sys.OfflineAt
  rw [hend]
  simp

-- ======================================================= one iteration

/-- The iteration comes to its second `reconcile`, in state `s₂`: the
first one reported no error and `replicate` reported some. -/
def ReconciledAgain (env : Env) (fuel : Nat) (running : PodList)
    (s s₂ : Sys) : Prop :=
  ∃ reconciled s₁ replicated,
    reconcile env running s = .ret reconciled s₁
      ∧ appendAllNonNil [] reconciled = []
      ∧ replicate env fuel s₁ = .ret replicated s₂
      ∧ appendAllNonNil [] replicated ≠ []

namespace ReconciledAgain

variable {fuel : Nat} {running : PodList} {s₁ s₂ s₃ : Sys}
  {reconciled replicated : List Err}

/-- The first `reconcile` of such an iteration reports no error. -/
theorem no_errors (h : ReconciledAgain env fuel running s s₂)
    (hrec : reconcile env running s = .ret reconciled s₁) :
    appendAllNonNil [] reconciled = [] := by
  obtain ⟨_, _, _, hrec', hnone, -⟩ := h
  rw [hrec] at hrec'
  injection hrec' with hlist _
  rw [hlist]
  exact hnone

/-- Its `replicate` reports some, and ends where the second `reconcile`
begins. -/
theorem replicated_eq (h : ReconciledAgain env fuel running s s₂)
    (hrec : reconcile env running s = .ret reconciled s₁)
    (hrep : replicate env fuel s₁ = .ret replicated s₃) :
    s₂ = s₃ ∧ appendAllNonNil [] replicated ≠ [] := by
  obtain ⟨_, _, _, hrec', -, hrep', hsome⟩ := h
  rw [hrec] at hrec'
  injection hrec' with _ hs₁
  subst hs₁
  rw [hrep] at hrep'
  injection hrep' with hlist hs₂
  rw [hlist]
  exact ⟨hs₂.symm, hsome⟩

theorem unique (h : ReconciledAgain env fuel running s s₂)
    (h' : ReconciledAgain env fuel running s s₃) : s₂ = s₃ := by
  obtain ⟨_, _, _, hrec, -, hrep, -⟩ := h'
  exact (h.replicated_eq hrec hrep).1

end ReconciledAgain

/-- An iteration is one pass, or two if it reconciles again. -/
theorem reconcileBranch_passes {fuel : Nat} {running : PodList}
    {errors : List Err} (hs : s.members.Sound)
    (h : reconcileBranch env fuel running s = .ret errors s') :
    (Pass env running s s' ∧ ∀ s₂, ¬ ReconciledAgain env fuel running s s₂)
      ∨ ∃ s₂ again, ReconciledAgain env fuel running s s₂
        ∧ Pass env running s s₂
        ∧ reconcile env running s₂ = .ret again s' := by
  obtain ⟨reconciled, s₁, hrec, h⟩ := Outcome.andThen_eq_ret h
  have hfirst : Pass env running s s₁ := reconcile_pass hs hrec
  dsimp only at h
  split at h
  · next hnone =>
    rw [hnone] at h
    obtain ⟨replicated, s₂, hrep, h⟩ := Outcome.andThen_eq_ret h
    have hacts : Acts env (fun _ => True) s₁ s₂ := by
      have hall := @replicate_acts env fuel s₁
      rw [hrep] at hall
      exact hall
    have hpass := hfirst.trans_acts hacts
    split at h
    · next hquiet =>
      injection h with _ h
      subst h
      refine Or.inl ⟨hpass, ?_⟩
      intro s₃ hagain
      exact (hagain.replicated_eq hrec hrep).2 hquiet
    · next hsome =>
      obtain ⟨again, s₃, hagain, h⟩ := Outcome.andThen_eq_ret h
      injection h with _ h
      subst h
      exact Or.inr ⟨s₂, again, ⟨_, s₁, _, hrec, hnone, hrep, hsome⟩,
        hpass, hagain⟩
  · next hsome =>
    injection h with _ h
    subst h
    refine Or.inl ⟨hfirst, ?_⟩
    intro s₂ hagain
    exact hsome (hagain.no_errors hrec)

/-- Whatever the second merge does, the pods deleted in an iteration are
offline at its end exactly if each one that was deleted before a second
`reconcile` is found failed by it and deleted once more. -/
theorem deleted_ends_offline_iff (env : Env) (fuel : Nat)
    (running : PodList) (s s' : Sys) (errors : List Err)
    (hs : s.members.Sound)
    (h : reconcileBranch env fuel running s = .ret errors s') :
    (∀ k, Deleted k (s.since s') → s'.OfflineAt k)
      ↔ ∀ s₂ s₀, ReconciledAgain env fuel running s s₂ →
        mergeMembers env (podsToMemberSet s₂.c.rss running.pods) s₂
          = some s₀ →
        ∀ k m, Deleted k (s.since s₂) → s₂.members.lookup k = some m →
          AnsweredAsFailed env k m.failures (s₀.checkTurn env k)
            ((checkMembers env s₀).2.recoverTurn env k) := by
  rcases reconcileBranch_passes hs h with ⟨hpass, hnone⟩ | hagain
  · refine iff_of_true ?_ ?_
    · intro k hdel
      exact hpass.offlineAt_of_deleted hdel
    · intro s₂ _ hagain
      exact absurd hagain (hnone s₂)
  · obtain ⟨s₂, again, hagain, hfirst, hrec⟩ := hagain
    have hs₂ : s₂.members.Sound := hfirst.sound
    have hsecond : Pass env running s₂ s' := reconcile_pass hs₂ hrec
    obtain ⟨ms, hmerge, -⟩ := @mergeMembers_some env s₂ hs₂.keyed running.pods
    -- a pod deleted so far: offline, on the list, decided by the answers
    have hdecided : ∀ k m, Deleted k (s.since s₂) →
        s₂.members.lookup k = some m → (s'.OfflineAt k ↔
          AnsweredAsFailed env k m.failures
            (((s₂.setPeers ms).ranged 3).checkTurn env k)
            ((checkMembers env ((s₂.setPeers ms).ranged 3)).2.recoverTurn
              env k)) := by
      intro k m hdel hm
      obtain ⟨m', hm', hoff⟩ := hfirst.offlineAt_of_deleted hdel
      rw [hm] at hm'
      injection hm' with hm'
      subst hm'
      exact reconcile_offlineAt_iff hs₂ hmerge hrec hm hoff
        (hfirst.on_list hdel)
    constructor
    · intro hoff s₃ s₀ hagain' hmerge' k m hdel hm
      obtain rfl := hagain.unique hagain'
      rw [hmerge] at hmerge'
      injection hmerge' with hs₀
      subst hs₀
      refine (hdecided k m hdel hm).mp (hoff k ?_)
      rw [hfirst.since_trans hsecond, deleted_append]
      exact Or.inr hdel
    · intro hcond k hdel
      rw [hfirst.since_trans hsecond, deleted_append] at hdel
      rcases hdel with hdel | hdel
      · exact hsecond.offlineAt_of_deleted hdel
      · obtain ⟨m, hm, -⟩ := hfirst.offlineAt_of_deleted hdel
        exact (hdecided k m hdel hm).mpr
          (hcond s₂ _ hagain hmerge k m hdel hm)

/-- The second merge of the iteration marks a member online whose pod has
been deleted since the list was polled. -/
def BroughtBack (env : Env) (fuel : Nat) (running : PodList) (s : Sys)
    (k : String) : Prop :=
  ∃ s₂ s₀, ReconciledAgain env fuel running s s₂
    ∧ mergeMembers env (podsToMemberSet s₂.c.rss running.pods) s₂ = some s₀
    ∧ Deleted k (s.since s₂) ∧ s₀.OnlineAt k

/-- A second `reconcile` brings back every pod that is gone by then: it was
on the list when it was deleted. -/
theorem broughtBack_iff {fuel : Nat} {running : PodList} {errors : List Err}
    (hs : s.members.Sound)
    (h : reconcileBranch env fuel running s = .ret errors s') :
    BroughtBack env fuel running s k
      ↔ ∃ s₂, ReconciledAgain env fuel running s s₂
        ∧ Deleted k (s.since s₂) := by
  constructor
  · intro hback
    obtain ⟨s₂, -, hagain, -, hdel, -⟩ := hback
    exact ⟨s₂, hagain, hdel⟩
  · intro hgone
    obtain ⟨s₂, hagain, hdel⟩ := hgone
    rcases reconcileBranch_passes hs h with
      ⟨-, hnone⟩ | ⟨s₃, again, hagain', hfirst, -⟩
    · exact absurd hagain (hnone s₂)
    · obtain rfl := hagain.unique hagain'
      obtain ⟨ms, hmerge, -⟩ :=
        @mergeMembers_some env s₂ hfirst.sound.keyed running.pods
      have hmerges := mergeMembers_merges hfirst.sound hmerge
      exact ⟨s₂, _, hagain, hmerge, hdel,
        (hmerges.online k).mpr (hfirst.on_list hdel)⟩

/-- The pods deleted in an iteration are offline at its end, and no merge
brings one of them online in between, exactly if nothing has been deleted
when the iteration comes to a second `reconcile`. -/
theorem deleted_stays_offline_iff (env : Env) (fuel : Nat)
    (running : PodList) (s s' : Sys) (errors : List Err)
    (hs : s.members.Sound)
    (h : reconcileBranch env fuel running s = .ret errors s') :
    (∀ k, Deleted k (s.since s') →
        s'.OfflineAt k ∧ ¬ BroughtBack env fuel running s k)
      ↔ ∀ s₂, ReconciledAgain env fuel running s s₂ →
        ∀ k, ¬ Deleted k (s.since s₂) := by
  constructor
  · intro hstays s₂ hagain k hdel
    have hback := (broughtBack_iff hs h).mpr ⟨s₂, hagain, hdel⟩
    refine (hstays k ?_).2 hback
    rcases reconcileBranch_passes hs h with
      ⟨-, hnone⟩ | ⟨s₃, again, hagain', hfirst, hrec⟩
    · exact absurd hagain (hnone s₂)
    · obtain rfl := hagain.unique hagain'
      rw [hfirst.since_trans (reconcile_pass hfirst.sound hrec),
        deleted_append]
      exact Or.inr hdel
  · intro hnothing k hdel
    refine ⟨?_, fun hback => ?_⟩
    · rcases reconcileBranch_passes hs h with
        ⟨hpass, -⟩ | ⟨s₂, again, hagain, hfirst, hrec⟩
      · exact hpass.offlineAt_of_deleted hdel
      · have hsecond := reconcile_pass hfirst.sound hrec
        rw [hfirst.since_trans hsecond, deleted_append] at hdel
        rcases hdel with hdel | hdel
        · exact hsecond.offlineAt_of_deleted hdel
        · exact absurd hdel (hnothing s₂ hagain k)
    · obtain ⟨s₂, hagain, hgone⟩ := (broughtBack_iff hs h).mp hback
      exact hnothing s₂ hagain k hgone

/-- Every command fails. All three pods are deleted by the first
`reconcile`, which ends the iteration. -/
theorem deleted_stays_offline_first :
    let s := Sys.start (.sized 3 1)
    let s' := (reconcileBranch (.deciding fun _ => false) 9 .three s).state
    Deleted "db-0" (s.since s')
      ∧ ∀ k, Deleted k (s.since s') → s'.OfflineAt k
        ∧ ¬ BroughtBack (.deciding fun _ => false) 9 .three s k := by
  intro s s'
  have hret : (reconcileBranch (.deciding fun _ => false) 9 .three
      s).returned = true := by decide +kernel
  obtain ⟨errors, heq⟩ := Outcome.eq_ret_of_returned hret
  refine ⟨by decide +kernel, ?_⟩
  refine (deleted_stays_offline_iff _ 9 .three s s' errors
    MemberSet.sound_empty heq).mpr ?_
  intro s₂ hagain
  obtain ⟨reconciled, s₁, replicated, hrec, hnone, -⟩ := hagain
  have hsome : (match reconcile (.deciding fun _ => false) .three s with
    | .ret reconciled _ => (appendAllNonNil [] reconciled).isEmpty
    | _ => false) = false := by decide +kernel
  rw [hrec] at hsome
  dsimp only at hsome
  rw [hnone] at hsome
  cases hsome

/-- One primary runs and no other member can be started or stopped. -/
def Env.replicasStuck : Env :=
  .answering fun _ call pod => match call with
    | .status => if pod = "db-0" then .exits 8 else .exits 7
    | .sequence => .exitsZero "5"
    | .stop | .start _ _ => .exits 1

/-- `replicate` deletes a pod, and the iteration ends with its member
online. -/
theorem deleted_back_online :
    let s := Sys.start (.sized 3 1)
    let o := reconcileBranch .replicasStuck 9 .three s
    o.returned = true ∧ Deleted "db-1" (s.since o.state)
      ∧ o.state.OnlineAt "db-1" := by
  decide +kernel

end RssOperator
