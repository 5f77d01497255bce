/-
What a membership merge is, and what a sequence of them comes to.

# One merge

`reconcile_is_merge` says what `Reconcile` gives, name by name, on the
fields that `Copy` copies, and that a second merge with the same pods
changes nothing.

# Sequences

No merge removes an entry. The branch that is there for a scale-down is
only taken for a member that is missing from the result, and the result
has been filled with all of them before. So the records of a sequence of
merges are the names that were ever in it (`names_mergeAll`), and they are
those of the pods that run exactly if no other name was among them
(`pruned_iff`).

Every merge copies every member, and the copies have no namespace and no
TLS flags. After the first merge nobody has them any more
(`mergeAll_blank`), neither in a sequence of merges nor in `c.peers` in
any run (`peers_blank`).
-/
import RssOperator.Proofs.Worlds

namespace RssOperator

open MemberSet (WellKeyed Running)

variable {ms running result : MemberSet} {k : String} {m : Member}

-- ============================================================ one merge

/-- The two agree on the fields that a merge is about. -/
structure Member.Agrees (m m' : Member) : Prop where
  name : m.name = m'.name
  online : m.online = m'.online
  seq : m.seq = m'.seq
  failures : m.failures = m'.failures
  appPrimary : m.appPrimary = m'.appPrimary
  appRunning : m.appRunning = m'.appRunning
  appFailed : m.appFailed = m'.appFailed

theorem Member.copy_agrees (m : Member) : m.copy.Agrees m :=
  ⟨rfl, rfl, rfl, rfl, rfl, rfl, rfl⟩

/-- The merge of `ms` with the pods in `running`. -/
structure MergeOf (ms running result : MemberSet) : Prop where
  keyed : result.WellKeyed
  names : ∀ k, k ∈ result.keys ↔ k ∈ ms.keys ∨ k ∈ running.keys
  both : ∀ k m r, ms.lookup k = some m → running.lookup k = some r →
    ∃ m', result.lookup k = some m' ∧ m'.Agrees { m with online := true }
  appeared : ∀ k r, ms.lookup k = none → running.lookup k = some r →
    ∃ m', result.lookup k = some m' ∧ m'.Agrees r
  lost : ∀ k m, ms.lookup k = some m → running.lookup k = none →
    ∃ m', result.lookup k = some m' ∧ m'.Agrees m.offline

namespace MemberSet

theorem name_of_mergedWith (hms : ms.WellKeyed) (hrun : running.WellKeyed)
    (h : mergedWith ms running k = some m) : m.name = k := by
  unfold mergedWith at h
  cases hm : ms.lookup k with
  | none =>
      rw [hm] at h
      obtain ⟨r, hr, rfl⟩ := Option.map_eq_some_iff.mp h
      exact hrun k r hr
  | some m₀ =>
      rw [hm] at h
      cases hr : running.lookup k with
      | none =>
          rw [hr] at h
          cases h
          exact hms k m₀ hm
      | some r =>
          rw [hr] at h
          cases h
          exact hms k m₀ hm

theorem mergedWith_some_iff :
    (∃ m, mergedWith ms running k = some m)
      ↔ k ∈ ms.keys ∨ k ∈ running.keys := by
  rw [GoMap.mem_keys_iff, GoMap.mem_keys_iff]
  unfold mergedWith
  cases hm : ms.lookup k <;> cases hr : running.lookup k <;> simp

/-- The merge has the names of both sets, each under itself. -/
theorem reconcile_keyed (hms : ms.WellKeyed) (hrun : running.WellKeyed)
    (hentry : ∀ k, result.lookup k = mergedWith ms running k) :
    result.WellKeyed
      ∧ ∀ k, k ∈ result.keys ↔ k ∈ ms.keys ∨ k ∈ running.keys := by
  refine ⟨fun k m hm => ?_, fun k => ?_⟩
  · rw [hentry] at hm
    exact name_of_mergedWith hms hrun hm
  · rw [GoMap.mem_keys_iff, hentry]
    exact mergedWith_some_iff

theorem mergeOf_of_entries (hms : ms.WellKeyed) (hrun : running.Running)
    (hentry : ∀ k, result.lookup k = merged ms running k) :
    MergeOf ms running result := by
  have hwith : ∀ k, result.lookup k = mergedWith ms running k := by
    intro k
    rw [hentry, mergedWith_of_running hrun]
  obtain ⟨hkeyed, hnames⟩ := reconcile_keyed hms hrun.keyed hwith
  refine ⟨hkeyed, hnames, ?_, ?_, ?_⟩
  · intro k m r hm hr
    rw [hentry, merged, hm, hr]
    exact ⟨_, rfl, { m with online := true }.copy_agrees⟩
  · intro k r hm hr
    rw [hentry, merged, hm, hr]
    exact ⟨_, rfl, r.copy_agrees⟩
  · intro k m hm hr
    rw [hentry, merged, hm, hr]
    exact ⟨_, rfl, m.offline.copy_agrees⟩

/-- The merge of a merge with the same pods is that merge. -/
theorem merged_again (hrun : running.Running)
    (hentry : ∀ k, result.lookup k = merged ms running k) (k : String) :
    merged result running k = result.lookup k := by
  rw [merged, hentry]
  unfold merged
  cases hm : ms.lookup k with
  | some m => cases hr : running.lookup k <;> rfl
  | none =>
      cases hr : running.lookup k with
      | none => rfl
      | some r =>
          have hon := hrun.online k r hr
          simp [Member.copy, hon]

end MemberSet

/-- `Reconcile` is the merge it is said to be: it does not dereference a
missing entry, in no visiting order, and merging again with the same pods
changes nothing. -/
theorem reconcile_is_merge (hms : ms.WellKeyed) (hrun : running.Running)
    (max : Int) (appeared new lost : Order String) :
    ∃ result, ms.reconcile running max appeared new lost = some result
      ∧ MergeOf ms running result
      ∧ ∀ max' appeared' new' lost', ∃ again,
          result.reconcile running max' appeared' new' lost' = some again
            ∧ ∀ k, again.lookup k = result.lookup k := by
  obtain ⟨result, hrec, hentry⟩ :=
    MemberSet.reconcile_lookup hms hrun max appeared new lost
  have hmerge := MemberSet.mergeOf_of_entries hms hrun hentry
  refine ⟨result, hrec, hmerge, ?_⟩
  intro max' appeared' new' lost'
  obtain ⟨again, hagain, hentry'⟩ := MemberSet.reconcile_lookup hmerge.keyed
    hrun max' appeared' new' lost'
  refine ⟨again, hagain, fun k => ?_⟩
  rw [hentry', MemberSet.merged_again hrun hentry]

/-- Two members, of which one has failed before and is gone. -/
def MemberSet.twoKnown : MemberSet :=
  .ofMembers [{ name := "db-0", online := true, appRunning := true },
    { name := "db-1", online := true, failures := 1 }]

/-- Of two members one is gone, and a third comes in. -/
theorem reconcile_is_merge_three :
    ∃ result, MemberSet.twoKnown.reconcile
        (podsToMemberSet (.sized 3 1) [⟨"db-0", ""⟩, ⟨"db-2", ""⟩]) 3
        (.stored _) (.stored _) (.stored _) = some result
      ∧ MergeOf MemberSet.twoKnown
        (podsToMemberSet (.sized 3 1) [⟨"db-0", ""⟩, ⟨"db-2", ""⟩])
        result := by
  obtain ⟨result, hrec, hmerge, -⟩ := reconcile_is_merge
    (MemberSet.keyed_ofMembers _ : MemberSet.twoKnown.WellKeyed)
    (podsToMemberSet_running (.sized 3 1) [⟨"db-0", ""⟩, ⟨"db-2", ""⟩]) 3
    (.stored _) (.stored _) (.stored _)
  exact ⟨result, hrec, hmerge⟩

-- ============================================================ sequences

/-- One call of `Reconcile`, but for the set it is called on. -/
structure MergeCall where
  running : MemberSet
  max : Int
  appeared : Order String
  new : Order String
  lost : Order String

def MergeCall.apply (c : MergeCall) (ms : MemberSet) : Option MemberSet :=
  ms.reconcile c.running c.max c.appeared c.new c.lost

/-- A sequence of calls, each on the result of the one before. -/
def mergeAll : List MergeCall → MemberSet → Option MemberSet
  | [], ms => some ms
  | c :: calls, ms => (c.apply ms).bind (mergeAll calls)

namespace MemberSet

/-- The loop over the new members neither adds nor removes an entry. -/
theorem keys_foldl_markOnline {new : MemberSet} (ns : List String) :
    ∀ before after : MemberSet,
      ns.foldl (markOnline new) (some before) = some after →
      after.keys = before.keys := by
  refine foldl_option_keeps (R := fun r r' : MemberSet => r'.keys = r.keys)
    (fun _ => rfl) (fun _ _ _ h h' => h'.trans h) (fun _ => rfl) ?_ ns
  intro before n after h
  unfold markOnline at h
  simp only [Option.bind_eq_bind, Option.bind_some, Option.bind_eq_some_iff,
    Option.pure_def] at h
  obtain ⟨m, -, -, -, hafter⟩ := h
  cases hafter
  exact GoMap.keys_modify _ _ _

/-- The loop over the lost members removes no entry. -/
theorem keys_foldl_markLost {max : Int} (ns : List String) :
    ∀ before after : MemberSet,
      ns.foldl (markLost running max) (some before) = some after →
      ∀ k ∈ before.keys, k ∈ after.keys := by
  refine foldl_option_keeps
    (R := fun r r' : MemberSet => ∀ k ∈ r.keys, k ∈ r'.keys)
    (fun _ _ hk => hk) (fun _ _ _ h h' k hk => h' k (h k hk))
    (fun _ => rfl) ?_ ns
  intro before n after h k hk
  unfold markLost at h
  simp only [Option.bind_eq_bind, Option.bind_some,
    Option.bind_eq_some_iff] at h
  obtain ⟨m, -, h⟩ := h
  split at h
  · split at h
    · cases h
      exact AList.mem_keys.mp ((AList.mem_insert _).mpr
        (Or.inr (AList.mem_keys.mpr hk)))
    · cases h
  · cases h
    rw [GoMap.keys_modify]
    exact hk

/-- After the first loop every name of the two sets is there. -/
theorem keys_appeared (o : Order String) :
    k ∈ ((GoMap.range o running).foldl (addAppeared running) ms.copy).keys
      ↔ k ∈ ms.keys ∨ k ∈ running.keys := by
  rw [GoMap.mem_keys_iff, GoMap.mem_keys_iff, GoMap.mem_keys_iff,
    lookup_appeared]
  unfold appearedEntry
  cases hm : ms.lookup k <;> cases hr : running.lookup k <;> simp

end MemberSet

namespace MergeCall

variable {c : MergeCall}

/-- A call that returns has been through its three loops. -/
theorem apply_loops (h : c.apply ms = some result) :
    ∃ r₁ r₂ : MemberSet,
      (∀ k, k ∈ r₁.keys ↔ k ∈ ms.keys ∨ k ∈ c.running.keys)
      ∧ r₂.keys = r₁.keys
      ∧ ((r₁.diff c.running).range c.lost).foldl
          (MemberSet.markLost c.running c.max) (some r₂) = some result := by
  unfold apply MemberSet.reconcile at h
  dsimp only at h
  obtain ⟨r₁, hr₁⟩ : ∃ r, r = (GoMap.range c.appeared c.running).foldl
      (MemberSet.addAppeared c.running) ms.copy := ⟨_, rfl⟩
  rw [← hr₁] at h
  cases hloop : ((c.running.diffExtended ms).range c.new).foldl
      (MemberSet.markOnline (c.running.diffExtended ms)) (some r₁) with
  | none =>
      rw [hloop, foldl_option_none fun _ => rfl] at h
      cases h
  | some r₂ =>
      rw [hloop] at h
      refine ⟨r₁, r₂, ?_, MemberSet.keys_foldl_markOnline _ _ _ hloop, h⟩
      intro k
      rw [hr₁]
      exact MemberSet.keys_appeared c.appeared

/-- A merge forgets nobody. -/
theorem names_kept (h : c.apply ms = some result)
    (hk : k ∈ ms.keys ∨ k ∈ c.running.keys) : k ∈ result.keys := by
  obtain ⟨r₁, r₂, hr₁, hr₂, hloop⟩ := apply_loops h
  refine MemberSet.keys_foldl_markLost _ _ _ hloop k ?_
  rw [hr₂]
  exact (hr₁ k).mpr hk

/-- Where everybody who is known runs, nobody is lost. -/
theorem names_of_subset (h : c.apply ms = some result)
    (hsub : ∀ k ∈ ms.keys, k ∈ c.running.keys) :
    k ∈ result.keys ↔ k ∈ c.running.keys := by
  obtain ⟨r₁, r₂, hr₁, hr₂, hloop⟩ := apply_loops h
  have hlost : (r₁.diff c.running).range c.lost = [] := by
    refine List.eq_nil_iff_forall_not_mem.mpr fun n hn => ?_
    obtain ⟨m, hm⟩ := GoMap.mem_range.mp hn
    obtain ⟨hgone, hr⟩ := GoMap.lookup_filterKeys_eq_some.mp hm
    have hn : n ∈ c.running.keys := by
      rcases (hr₁ n).mp (GoMap.mem_keys_iff.mpr ⟨m, hr⟩) with h | h
      · exact hsub n h
      · exact h
    obtain ⟨r, hr⟩ := GoMap.mem_keys_iff.mp hn
    rw [hr] at hgone
    cases hgone
  rw [hlost] at hloop
  cases hloop
  rw [hr₂, hr₁]
  constructor
  · intro hk
    rcases hk with hk | hk
    · exact hsub k hk
    · exact hk
  · exact Or.inr

/-- A merge of well-keyed sets. -/
theorem apply_keyed (hms : ms.WellKeyed) (hrun : c.running.WellKeyed) :
    ∃ result, c.apply ms = some result ∧ result.WellKeyed
      ∧ (∀ k, k ∈ result.keys ↔ k ∈ ms.keys ∨ k ∈ c.running.keys)
      ∧ ∀ k, result.lookup k = ms.mergedWith c.running k := by
  obtain ⟨result, hrec, hentry⟩ := MemberSet.reconcile_entries hms hrun
    c.max c.appeared c.new c.lost
  obtain ⟨hkeyed, hnames⟩ := MemberSet.reconcile_keyed hms hrun hentry
  exact ⟨result, hrec, hkeyed, hnames, hentry⟩

end MergeCall

/-- Someone of that name was in the first set or ran at some call. -/
def Appeared (calls : List MergeCall) (ms : MemberSet) (k : String) :
    Prop :=
  k ∈ ms.keys ∨ ∃ c ∈ calls, k ∈ c.running.keys

/-- On well-keyed sets a sequence of merges returns, and it has a record of
everybody who has been there. -/
theorem names_mergeAll (calls : List MergeCall) :
    ∀ ms : MemberSet, ms.WellKeyed →
      (∀ c ∈ calls, c.running.WellKeyed) →
      ∃ result, mergeAll calls ms = some result ∧ result.WellKeyed
        ∧ ∀ k, k ∈ result.keys ↔ Appeared calls ms k := by
  induction calls with
  | nil =>
      intro ms hms _
      exact ⟨ms, rfl, hms, fun k => by simp [Appeared]⟩
  | cons c calls ih =>
      intro ms hms hcalls
      obtain ⟨next, hnext, hkeyed, hnames, -⟩ :=
        MergeCall.apply_keyed hms (hcalls c List.mem_cons_self)
      obtain ⟨result, hresult, hkeyed', hnames'⟩ := ih next hkeyed
        fun c' hc' => hcalls c' (List.mem_cons_of_mem _ hc')
      refine ⟨result, ?_, hkeyed', fun k => ?_⟩
      · rw [mergeAll, hnext]
        exact hresult
      · rw [hnames']
        unfold Appeared
        rw [hnames]
        simp only [List.mem_cons, exists_eq_or_imp, or_assoc]

/-- After any sequence of merges, one more leaves exactly the members that
run if, and only if, everybody on record before it runs. On well-keyed sets
everybody is on record who was there at the start or at any call. -/
theorem pruned_iff (ms before result : MemberSet) (calls : List MergeCall)
    (last : MergeCall) (hbefore : mergeAll calls ms = some before)
    (hlast : last.apply before = some result) :
    ((∀ k, k ∈ result.keys ↔ k ∈ last.running.keys)
        ↔ ∀ k ∈ before.keys, k ∈ last.running.keys)
      ∧ (ms.WellKeyed → (∀ c ∈ calls, c.running.WellKeyed) →
        ∀ k, k ∈ before.keys ↔ Appeared calls ms k) := by
  refine ⟨⟨?_, ?_⟩, ?_⟩
  · intro h k hk
    exact (h k).mp (MergeCall.names_kept hlast (Or.inl hk))
  · intro h k
    exact MergeCall.names_of_subset hlast h
  · intro hms hcalls
    obtain ⟨before', hbefore', -, hnames⟩ := names_mergeAll calls ms hms
      hcalls
    rw [hbefore] at hbefore'
    cases hbefore'
    exact hnames

/-- A merge with the pods of a cluster that asks for `replicas` of them,
in stored order. -/
def MergeCall.ofPods (rss : ReplicatedStatefulSet) (pods : List Pod) :
    MergeCall where
  running := podsToMemberSet rss pods
  max := rss.spec.getNumReplicas
  appeared := .stored _
  new := .stored _
  lost := .stored _

/-- Three pods, then four of four: the result has just those. -/
theorem pruned_iff_grown :
    ∃ before result,
      mergeAll [.ofPods (.sized 3 1) PodList.three.pods] ∅ = some before
      ∧ (MergeCall.ofPods (.sized 4 1) PodList.four.pods).apply before
        = some result
      ∧ "db-2" ∈ before.keys
      ∧ ∀ k, k ∈ result.keys
        ↔ k ∈ (podsToMemberSet (.sized 4 1) PodList.four.pods).keys := by
  have hcalls : ∀ c ∈ [MergeCall.ofPods (.sized 3 1) PodList.three.pods],
      c.running.WellKeyed := by
    intro c hc
    rw [List.mem_singleton.mp hc]
    exact (podsToMemberSet_running _ _).keyed
  obtain ⟨before, hbefore, hkeyed, hnames⟩ :=
    names_mergeAll _ ∅ (MemberSet.keyed_ofMembers []) hcalls
  obtain ⟨result, hresult, -⟩ := MergeCall.apply_keyed
    (c := .ofPods (.sized 4 1) PodList.four.pods) hkeyed
    (podsToMemberSet_running _ _).keyed
  refine ⟨before, result, hbefore, hresult, ?_, ?_⟩
  · exact (hnames "db-2").mpr
      (Or.inr ⟨_, List.mem_singleton_self _, by decide +kernel⟩)
  · refine (pruned_iff ∅ before result _ _ hbefore hresult).1.mpr ?_
    have hsub : ∀ k ∈ (podsToMemberSet (.sized 3 1) PodList.three.pods).keys,
        k ∈ (podsToMemberSet (.sized 4 1) PodList.four.pods).keys := by
      decide +kernel
    intro k hk
    rcases (hnames k).mp hk with hk | ⟨c, hc, hk⟩
    · cases hk
    · rw [List.mem_singleton.mp hc] at hk
      exact hsub k hk

/-- Four pods, then three of three: there is still a record of the
fourth. -/
theorem removed_pod_recorded :
    let calls := [MergeCall.ofPods (.sized 4 1) PodList.four.pods,
      .ofPods (.sized 3 1) PodList.three.pods]
    (calls.map fun c => decide ((c.running.size : Int) = c.max))
        = [true, true]
      ∧ (mergeAll calls ∅).map (·.keys.contains "db-3") = some true
      ∧ "db-3" ∉ (podsToMemberSet (.sized 3 1) PodList.three.pods).keys := by
  decide +kernel

-- ============================================================= identity

/-- Where a member is, and how it is talked to. -/
def Member.identity (m : Member) : String × Bool × Bool :=
  (m.nameSpace, m.securePeer, m.secureClient)

/-- The identity of a copy. -/
def Member.noIdentity : String × Bool × Bool := ("", false, false)

/-- The member that the one under `k` was first taken from. -/
def origin (calls : List MergeCall) (ms : MemberSet) (k : String) :
    Option Member :=
  (ms.lookup k).or (calls.findSome? fun c => c.running.lookup k)

/-- Every merge leaves nothing but copies. -/
theorem MemberSet.mergedWith_blank (h : mergedWith ms running k = some m) :
    m.identity = Member.noIdentity := by
  unfold mergedWith at h
  split at h
  · cases h; rfl
  · cases h; rfl
  · obtain ⟨r, -, rfl⟩ := Option.map_eq_some_iff.mp h
    rfl

theorem mergeAll_blank (first : MergeCall) (calls : List MergeCall) :
    ∀ {ms result : MemberSet}, ms.WellKeyed →
      (∀ c ∈ first :: calls, c.running.WellKeyed) →
      mergeAll (first :: calls) ms = some result →
      ∀ k m, result.lookup k = some m → m.identity = Member.noIdentity := by
  induction calls generalizing first with
  | nil =>
      intro ms result hms hcalls h k m hm
      obtain ⟨next, hnext, -, -, hentry⟩ :=
        MergeCall.apply_keyed hms (hcalls first List.mem_cons_self)
      rw [mergeAll, hnext] at h
      cases h
      rw [hentry] at hm
      exact MemberSet.mergedWith_blank hm
  | cons second calls ih =>
      intro ms result hms hcalls h
      obtain ⟨next, hnext, hkeyed, -, -⟩ :=
        MergeCall.apply_keyed hms (hcalls first List.mem_cons_self)
      rw [mergeAll, hnext] at h
      exact ih second hkeyed
        (fun c hc => hcalls c (List.mem_cons_of_mem _ hc)) h

theorem origin_some_iff (calls : List MergeCall) :
    (∃ m, origin calls ms k = some m) ↔ Appeared calls ms k := by
  unfold origin Appeared
  simp only [← Option.isSome_iff_exists, Option.isSome_or, Bool.or_eq_true,
    List.findSome?_isSome_iff, GoMap.mem_keys_iff]

/-- A sequence of merges of well-keyed sets keeps the identity of every
member exactly if there is none to keep. -/
theorem identity_kept_iff (ms : MemberSet) (first : MergeCall)
    (calls : List MergeCall) (hms : ms.WellKeyed)
    (hcalls : ∀ c ∈ first :: calls, c.running.WellKeyed) :
    ∃ result, mergeAll (first :: calls) ms = some result
      ∧ ((∀ k m, result.lookup k = some m →
            ∃ m₀, origin (first :: calls) ms k = some m₀
              ∧ m.identity = m₀.identity)
          ↔ ∀ k m₀, origin (first :: calls) ms k = some m₀ →
            m₀.identity = Member.noIdentity) := by
  obtain ⟨result, hresult, -, hnames⟩ :=
    names_mergeAll (first :: calls) ms hms hcalls
  have hblank : ∀ k m, result.lookup k = some m →
      m.identity = Member.noIdentity :=
    mergeAll_blank first calls hms hcalls hresult
  refine ⟨result, hresult, ?_, ?_⟩
  · intro h k m₀ hm₀
    have hk := (hnames k).mpr ((origin_some_iff _).mp ⟨m₀, hm₀⟩)
    obtain ⟨m, hm⟩ := GoMap.mem_keys_iff.mp hk
    obtain ⟨m₁, hm₁, hsame⟩ := h k m hm
    rw [hm₀] at hm₁
    cases hm₁
    rw [← hsame]
    exact hblank k m hm
  · intro h k m hm
    have hk := (hnames k).mp (GoMap.mem_keys_iff.mpr ⟨m, hm⟩)
    obtain ⟨m₀, hm₀⟩ := (origin_some_iff _).mpr hk
    exact ⟨m₀, hm₀, (hblank k m hm).trans (h k m₀ hm₀).symm⟩

/-- Two members that have no identity, and no pods. -/
theorem identity_kept_iff_blank :
    ∃ result, mergeAll [.ofPods (.sized 3 1) []] MemberSet.twoKnown
        = some result
      ∧ ∀ k m, result.lookup k = some m →
        ∃ m₀, origin [.ofPods (.sized 3 1) []] MemberSet.twoKnown k = some m₀
          ∧ m.identity = m₀.identity := by
  have hblank : ∀ k m, MemberSet.twoKnown.lookup k = some m →
      m.identity = Member.noIdentity :=
    GoMap.forall_lookup_iff.mpr (by decide +kernel)
  have hcalls : ∀ c ∈ [MergeCall.ofPods (.sized 3 1) []],
      c.running.WellKeyed := by
    intro c hc
    rw [List.mem_singleton.mp hc]
    exact (podsToMemberSet_running _ _).keyed
  obtain ⟨result, hresult, hiff⟩ := identity_kept_iff MemberSet.twoKnown
    (.ofPods (.sized 3 1) []) [] (MemberSet.keyed_ofMembers _) hcalls
  refine ⟨result, hresult, hiff.mpr fun k m₀ hm₀ => ?_⟩
  cases hk : MemberSet.twoKnown.lookup k with
  | none =>
      rw [origin, hk] at hm₀
      cases hm₀
  | some m =>
      rw [origin, hk] at hm₀
      cases hm₀
      exact hblank k _ hk

/-- A resource with TLS in every place. -/
def ReplicatedStatefulSet.secured : ReplicatedStatefulSet :=
  { ReplicatedStatefulSet.sized 3 1 with
    spec := { (ReplicatedStatefulSet.sized 3 1).spec with
      tls := some ⟨some ⟨some ⟨"peer", "server"⟩, "operator"⟩⟩ } }

/-- The pod's member has a namespace and TLS, the one in the result has
neither. -/
theorem identity_lost :
    let pod : Pod := ⟨"db-0", "default"⟩
    let new := newMember .secured "db-0" "default"
    new.identity = ("default", true, true)
      ∧ new.clientURL = some "https://db-0.db.default.svc:2379"
      ∧ (mergeAll [.ofPods .secured [pod]] ∅).map
          (fun ms => (ms.lookup "db-0").map Member.identity)
        = some (some ("", false, false))
      ∧ (mergeAll [.ofPods .secured [pod]] ∅).map
          (fun ms => (ms.lookup "db-0").bind Member.clientURL)
        = some (some "http://db-0.db..svc:2379") := by
  decide +kernel

-- ================================================================= runs

/-- Nobody in the set has an identity. -/
def MemberSet.Blank (ms : MemberSet) : Prop :=
  ∀ k m, ms.lookup k = some m → m.identity = Member.noIdentity

variable {env : Env} {G : Event → Prop} {s s' : Sys} {m' : Member}

theorem Member.identity_noteStatus (rc : Int) (m : Member) :
    (m.noteStatus rc).identity = m.identity := by
  unfold noteStatus
  split
  · rfl
  · split
    · rfl
    · split <;> rfl

theorem Effect.identity {spec : ClusterSpec} {a : ExecAnswer} {call : Call}
    (heff : Effect spec a m call m') : m'.identity = m.identity := by
  cases heff with
  | startFailed => rfl
  | started => rfl
  | stopFailed => rfl
  | stopped => rfl
  | checked => exact Member.identity_noteStatus _ m

theorem MemberSet.Blank.modify (h : ms.Blank) {f : Member → Member}
    (hf : ∀ m, ms.lookup k = some m → (f m).identity = m.identity) :
    MemberSet.Blank (ms.modify k f) := by
  intro k₁ m₁ hm₁
  rcases GoMap.lookup_modify_some hm₁ with ⟨rfl, m₀, hm₀, rfl⟩ | hm₁
  · rw [hf m₀ hm₀]
    exact h k₁ m₀ hm₀
  · exact h k₁ m₁ hm₁

theorem Act.blank (hact : Act env G s s') (hs : s.members.Blank) :
    s'.members.Blank := by
  cases hact with
  | quiet h =>
      rw [h.members]
      exact hs
  | command hm heff hpeers _ _ =>
      rw [Sys.members_of_peers hpeers]
      refine hs.modify fun m₀ hm₀ => ?_
      rw [hm] at hm₀
      cases hm₀
      exact heff.identity
  | detect f hm hon hf hpeers _ _ =>
      rw [Sys.members_of_peers hpeers]
      refine hs.modify fun m₀ _ => ?_
      obtain ⟨n, hn⟩ := hf m₀
      rw [hn]
      rfl
  | delete ok hm _ _ hpeers _ _ =>
      rw [Sys.members_of_peers hpeers]
      refine hs.modify fun m₀ hm₀ => ?_
      rw [hm] at hm₀
      cases hm₀
      cases ok <;> rfl

theorem Move.blank (hmove : Move env s s') (hsound : s.members.Sound)
    (hs : s.members.Blank) : s'.members.Blank := by
  cases hmove with
  | act h => exact h.blank hs
  | @merge _ pods h =>
      obtain ⟨ms, heq, hms⟩ := @mergeMembers_some env s hsound.keyed pods
      rw [heq] at h
      cases h
      intro k m hm
      have hm' : ms.lookup k = some m := hm
      rw [hms, ← MemberSet.mergedWith_of_running
        (podsToMemberSet_running _ _)] at hm'
      exact MemberSet.mergedWith_blank hm'
  | clear => intro k m hm; cases hm
  | modify hpeers _ =>
      unfold Sys.members
      rw [hpeers]
      exact hs

theorem MemberSet.blank_empty : MemberSet.Blank ∅ := by
  intro k m hm
  cases hm

/-- In no run does a member of `c.peers` have an identity. -/
theorem peers_blank (env : Env) (kube : Kube) (rss : ReplicatedStatefulSet)
    (steps : List WorldStep) :
    ((World.fresh rss).run env kube steps).sys.members.Blank := by
  have hstep : ∀ (w : World) (i : WorldStep),
      w.sys.members.Sound ∧ w.sys.members.Blank →
      (i.step env kube w).sys.members.Sound
        ∧ (i.step env kube w).sys.members.Blank := by
    intro w i hw
    refine WorldStep.step_members (I := fun ms => ms.Sound ∧ ms.Blank)
      ⟨MemberSet.sound_empty, MemberSet.blank_empty⟩ ?_ hw i
    intro s s' hs hmove
    exact ⟨hmove.sound hs.1, hmove.blank hs.1 hs.2⟩
  exact (World.run_keeps (I := fun w => w.sys.members.Sound
    ∧ w.sys.members.Blank) hstep steps (w := World.fresh rss)
    ⟨MemberSet.sound_empty, MemberSet.blank_empty⟩).2

/-- The addresses of a member follow from its name and identity. -/
theorem Member.addresses_congr (hname : m.name = m'.name)
    (h : m.identity = m'.identity) :
    m.addr = m'.addr ∧ m.clientURL = m'.clientURL
      ∧ m.peerURL = m'.peerURL := by
  unfold identity at h
  simp only [Prod.mk.injEq] at h
  obtain ⟨hns, hpeer, hclient⟩ := h
  have haddr : m.addr = m'.addr := by
    unfold addr
    rw [hname, hns]
  refine ⟨haddr, ?_, ?_⟩
  · unfold clientURL clientScheme
    rw [haddr, hclient]
  · unfold peerURL peerScheme
    rw [haddr, hpeer]

/-- So the addresses of a member of `c.peers` are those of a member of
which only the name is known, whatever `newMember` gave it. -/
theorem peers_addresses (env : Env) (kube : Kube)
    (rss : ReplicatedStatefulSet) (steps : List WorldStep)
    (hm : ((World.fresh rss).run env kube steps).sys.members.lookup k
      = some m) :
    m.addr = Member.addr { name := m.name }
      ∧ m.clientURL = Member.clientURL { name := m.name }
      ∧ m.peerURL = Member.peerURL { name := m.name } :=
  Member.addresses_congr rfl (peers_blank env kube rss steps k m hm)

end RssOperator
