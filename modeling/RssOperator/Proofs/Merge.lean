/-
The membership merge, entry by entry.

`MemberSet.reconcile` goes through three loops and two set differences.
On sets whose keys are the names of their members none of it depends on
an order and nothing is looked up in vain: `reconcile_entries` gives the
entry under every key in terms of the two arguments (`mergedWith`). The
pods that the API server lists are online, which makes it simpler
(`merged`, `reconcile_lookup`).

The second and the third loop write through one pointer a turn and visit
no entry twice, so both are instances of `GoMap.lookup_foldl_modify`.
-/
import RssOperator.Proofs.Choose

namespace RssOperator

namespace MemberSet

/-- Every member is stored under its own name. -/
def WellKeyed (ms : MemberSet) : Prop :=
  ∀ k m, ms.lookup k = some m → m.name = k

variable {ms running result : MemberSet} {max : Int}

theorem WellKeyed.add (h : WellKeyed ms) (m : Member) :
    WellKeyed (ms.add m) := by
  intro k m' hm'
  by_cases hk : k = m.name
  · subst hk
    have hself : (ms.add m).lookup m.name = some m := AList.lookup_insert ms
    rw [hself] at hm'
    cases hm'
    rfl
  · have hother : (ms.add m).lookup k = ms.lookup k :=
      AList.lookup_insert_ne hk
    rw [hother] at hm'
    exact h k m' hm'

theorem keyed_ofMembers (l : List Member) : WellKeyed (ofMembers l) := by
  have hfold : ∀ (l : List Member) (ms : MemberSet), WellKeyed ms →
      WellKeyed (l.foldl (fun set m => set.add m) ms) := by
    intro l
    induction l with
    | nil => intro ms h; exact h
    | cons m l ih => intro ms h; exact ih _ (h.add m)
  refine hfold l ∅ fun k m hm => ?_
  cases hm

-- ========================================================== the loops

theorem lookup_addAppeared (n k : String) :
    (addAppeared running result n).lookup k
      = if k = n ∧ result.lookup k = none then
          (running.lookup k).map Member.copy
        else result.lookup k := by
  unfold addAppeared
  by_cases hk : k = n
  · subst hk
    cases hr : result.lookup k with
    | some m => simp [hr]
    | none =>
        cases hu : running.lookup k with
        | none => simp [hr]
        | some r => simp
  · rw [if_neg (by simp [hk])]
    split
    · exact AList.lookup_insert_ne hk
    · rfl

/-- The first loop fills in the members nobody knew about. -/
theorem lookup_foldl_addAppeared (k : String) {ns : List String} :
    ∀ result : MemberSet,
      (ns.foldl (addAppeared running) result).lookup k
        = match result.lookup k with
          | some m => some m
          | none =>
              if k ∈ ns then (running.lookup k).map Member.copy
              else none := by
  induction ns with
  | nil =>
      intro result
      cases h : result.lookup k <;> simp [h]
  | cons n ns ih =>
      intro result
      rw [List.foldl_cons, ih, lookup_addAppeared]
      by_cases hk : k = n
      · subst hk
        cases hr : result.lookup k with
        | some m => simp
        | none => cases hu : running.lookup k <;> simp
      · cases hr : result.lookup k <;> simp [hk]

theorem markOnline_eq {new : MemberSet} {n : String} {m m' : Member}
    (hm : new.lookup n = some m) (hname : m.name = n)
    (hr : result.lookup n = some m') :
    markOnline new (some result) n
      = some (result.modify n fun m => { m with online := true }) := by
  unfold markOnline
  show ((new.lookup n).bind fun m => (result.lookup m.name).bind fun _ =>
    some (result.modify m.name fun m => { m with online := true })) = _
  rw [hm]
  show ((result.lookup m.name).bind fun _ =>
    some (result.modify m.name fun m => { m with online := true })) = _
  rw [hname, hr]
  rfl

/-- The second loop, as plain writes. -/
theorem foldl_markOnline {new : MemberSet} (hnew : new.WellKeyed)
    {ns : List String} :
    ∀ result : MemberSet, (∀ n ∈ ns, ∃ m, new.lookup n = some m) →
      (∀ n ∈ ns, ∃ m, result.lookup n = some m) →
      ns.foldl (markOnline new) (some result)
        = some (ns.foldl (fun r n =>
            r.modify n fun m => { m with online := true }) result) := by
  induction ns with
  | nil => intro result _ _; rfl
  | cons n ns ih =>
      intro result hin hres
      obtain ⟨m, hm⟩ := hin n List.mem_cons_self
      obtain ⟨m', hm'⟩ := hres n List.mem_cons_self
      rw [List.foldl_cons, List.foldl_cons,
        markOnline_eq hm (hnew n m hm) hm']
      refine ih _ (fun n' hn' => hin n' (List.mem_cons_of_mem _ hn')) ?_
      intro n' hn'
      obtain ⟨m₁, hm₁⟩ := hres n' (List.mem_cons_of_mem _ hn')
      rw [GoMap.lookup_modify, hm₁]
      split
      · exact ⟨_, rfl⟩
      · exact ⟨_, rfl⟩

theorem markLost_eq {n : String} {m : Member}
    (hm : result.lookup n = some m) (hname : m.name = n) :
    markLost running max (some result) n
      = some (result.modify n Member.offline) := by
  unfold markLost
  dsimp only [Option.bind_eq_bind, Option.bind_some]
  rw [hm]
  dsimp only [Option.bind_some]
  rw [hname, hm]
  rfl

/-- The third loop, as plain writes. -/
theorem foldl_markLost {ns : List String} :
    ∀ result : MemberSet, result.WellKeyed →
      (∀ n ∈ ns, ∃ m, result.lookup n = some m) →
      ns.foldl (markLost running max) (some result)
        = some (ns.foldl (fun r n => r.modify n Member.offline)
            result) := by
  induction ns with
  | nil => intro result _ _; rfl
  | cons n ns ih =>
      intro result hwk hres
      obtain ⟨m, hm⟩ := hres n List.mem_cons_self
      rw [List.foldl_cons, List.foldl_cons, markLost_eq hm (hwk n m hm)]
      refine ih _ ?_ ?_
      · intro k m' hm'
        rcases GoMap.lookup_modify_some hm' with ⟨rfl, m₁, hm₁, rfl⟩ | hm'
        · exact hwk k m₁ hm₁
        · exact hwk k m' hm'
      · intro n' hn'
        obtain ⟨m₁, hm₁⟩ := hres n' (List.mem_cons_of_mem _ hn')
        rw [GoMap.lookup_modify, hm₁]
        split
        · exact ⟨_, rfl⟩
        · exact ⟨_, rfl⟩

-- ============================================================ the merge

/-- The entry under `k` after a merge. -/
def mergedWith (ms running : MemberSet) (k : String) : Option Member :=
  match ms.lookup k, running.lookup k with
  | some m, some r => some { m.copy with online := m.online || r.online }
  | some m, none => some m.copy.offline
  | none, r => r.map fun r => { r.copy with online := true }

/-- The entry under `k` after a merge with a set whose members are all
online. -/
def merged (ms running : MemberSet) (k : String) : Option Member :=
  match ms.lookup k, running.lookup k with
  | some m, some _ => some { m.copy with online := true }
  | some m, none => some m.copy.offline
  | none, r => r.map Member.copy

/-- A member set as the API server gives it: well keyed, all online. -/
structure Running (running : MemberSet) : Prop where
  keyed : WellKeyed running
  online : ∀ k m, running.lookup k = some m → m.online = true

theorem mergedWith_of_running (hrun : Running running) (k : String) :
    mergedWith ms running k = merged ms running k := by
  unfold mergedWith merged
  cases hm : ms.lookup k with
  | none =>
      cases hr : running.lookup k with
      | none => rfl
      | some r =>
          have hon := hrun.online k r hr
          simp [Member.copy, hon]
  | some m =>
      cases hr : running.lookup k with
      | none => rfl
      | some r =>
          have hon := hrun.online k r hr
          simp [hon]

theorem lookup_copy (k : String) :
    (copy ms).lookup k = (ms.lookup k).map Member.copy :=
  GoMap.lookup_mapVals _ _ _

/-- The entry under `k` after the first loop: a member that is known, or
one that appeared. -/
def appearedEntry (ms running : MemberSet) (k : String) : Option Member :=
  match ms.lookup k with
  | some m => some m.copy
  | none => (running.lookup k).map Member.copy

theorem lookup_appeared (o : Order String) (k : String) :
    ((GoMap.range o running).foldl (addAppeared running) ms.copy).lookup k
      = appearedEntry ms running k := by
  rw [lookup_foldl_addAppeared, lookup_copy]
  unfold appearedEntry
  cases hm : ms.lookup k with
  | some m => rfl
  | none =>
      simp only [Option.map_none, GoMap.mem_range]
      cases hu : running.lookup k <;> simp [hu]

theorem name_of_appearedEntry {k : String} {m : Member}
    (hms : WellKeyed ms) (hrun : WellKeyed running)
    (hm : appearedEntry ms running k = some m) : m.name = k := by
  unfold appearedEntry at hm
  split at hm
  · next m₀ hk =>
    injection hm with hm
    subst hm
    exact hms k m₀ hk
  · obtain ⟨m₀, hm₀, rfl⟩ := Option.map_eq_some_iff.mp hm
    exact hrun k m₀ hm₀

/-- The second loop visits the members that run and were not known to be
online. -/
theorem mem_range_diffExtended (o : Order String) (k : String) :
    k ∈ (running.diffExtended ms).range o
      ↔ ∃ r, running.lookup k = some r
        ∧ (ms.lookup k).all (fun m => m.online != r.online) := by
  rw [GoMap.mem_range]
  unfold diffExtended
  rw [GoMap.lookup_filterKeys]
  cases hm : ms.lookup k <;> cases hu : running.lookup k <;> simp

/-- The third loop visits the members that were known and do not run. -/
theorem mem_range_diff (o : Order String) (k : String)
    (hresult : result.lookup k = appearedEntry ms running k) :
    k ∈ (result.diff running).range o
      ↔ ms.lookup k ≠ none ∧ running.lookup k = none := by
  rw [GoMap.mem_range]
  unfold diff
  rw [GoMap.lookup_filterKeys, hresult]
  unfold appearedEntry
  cases hm : ms.lookup k <;> cases hu : running.lookup k <;> simp

/-- The two marks on an entry make it what the merge says. -/
theorem marked_appearedEntry {k : String}
    {isNew isLost : Prop} [Decidable isNew] [Decidable isLost]
    (hnew : isNew ↔ ∃ r, running.lookup k = some r
      ∧ (ms.lookup k).all (fun m => m.online != r.online))
    (hlost : isLost ↔ ms.lookup k ≠ none ∧ running.lookup k = none)
    {entry : Option Member}
    (hentry : entry = if isNew
      then (appearedEntry ms running k).map fun m => { m with online := true }
      else appearedEntry ms running k) :
    (if isLost then entry.map Member.offline else entry)
      = mergedWith ms running k := by
  subst hentry
  unfold mergedWith appearedEntry
  cases hm : ms.lookup k with
  | none =>
      rw [if_neg (by rw [hlost, hm]; simp)]
      cases hu : running.lookup k with
      | none => simp
      | some r =>
          rw [if_pos (by rw [hnew, hm, hu]; exact ⟨r, rfl, rfl⟩)]
          rfl
  | some m =>
      cases hu : running.lookup k with
      | none =>
          rw [if_pos (by rw [hlost, hm, hu]; simp),
            if_neg (by rw [hnew, hu]; simp)]
          rfl
      | some r =>
          rw [if_neg (by rw [hlost, hu]; simp)]
          by_cases hon : m.online = r.online
          · rw [if_neg (by rw [hnew, hm, hu]; simp [hon])]
            simp [Member.copy, hon]
          · rw [if_pos (by rw [hnew, hm, hu]; simp [hon])]
            have hor : (m.online || r.online) = true := by
              cases hmo : m.online <;> cases hro : r.online <;> simp_all
            dsimp only
            rw [hor]
            rfl

/-- `Reconcile` never dereferences a missing entry, and its result does
not depend on an order. -/
theorem reconcile_entries (hms : WellKeyed ms) (hrun : WellKeyed running)
    (max : Int) (appeared new lost : Order String) :
    ∃ result, ms.reconcile running max appeared new lost = some result
      ∧ ∀ k, result.lookup k = mergedWith ms running k := by
  obtain ⟨r₁, hr₁⟩ : ∃ r, r = (GoMap.range appeared running).foldl
      (addAppeared running) ms.copy := ⟨_, rfl⟩
  have hl₁ : ∀ k, r₁.lookup k = appearedEntry ms running k := by
    intro k
    rw [hr₁]
    exact lookup_appeared appeared k
  -- the second loop marks those that came back
  have hnewk : WellKeyed (running.diffExtended ms) := by
    intro k m hm
    exact hrun k m (GoMap.lookup_filterKeys_eq_some.mp hm).2
  have hnew : ∀ n ∈ (running.diffExtended ms).range new,
      ∃ m, r₁.lookup n = some m := by
    intro n hn
    obtain ⟨r, hr, -⟩ := (mem_range_diffExtended new n).mp hn
    rw [hl₁, appearedEntry, hr]
    cases ms.lookup n <;> exact ⟨_, rfl⟩
  have hloop₂ := foldl_markOnline hnewk r₁
    (fun n hn => GoMap.mem_range.mp hn) hnew
  obtain ⟨r₂, hr₂⟩ : ∃ r, r = ((running.diffExtended ms).range new).foldl
      (fun r n => r.modify n fun m => { m with online := true }) r₁ :=
    ⟨_, rfl⟩
  rw [← hr₂] at hloop₂
  have hl₂ : ∀ k, r₂.lookup k
      = if k ∈ (running.diffExtended ms).range new
        then (r₁.lookup k).map fun m => { m with online := true }
        else r₁.lookup k := by
    intro k
    rw [hr₂]
    exact GoMap.lookup_foldl_modify _ k r₁ (GoMap.nodup_range _ _)
  have hwk₂ : WellKeyed r₂ := by
    intro k m hm
    rw [hl₂, hl₁] at hm
    split at hm
    · obtain ⟨m₁, hm₁, rfl⟩ := Option.map_eq_some_iff.mp hm
      have hname : m₁.name = k := name_of_appearedEntry hms hrun hm₁
      exact hname
    · exact name_of_appearedEntry hms hrun hm
  -- the third loop marks those that are gone
  have hlost : ∀ n ∈ (r₁.diff running).range lost,
      ∃ m, r₂.lookup n = some m := by
    intro n hn
    obtain ⟨m, hm⟩ := GoMap.mem_range.mp hn
    rw [hl₂, (GoMap.lookup_filterKeys_eq_some.mp hm).2]
    split <;> exact ⟨_, rfl⟩
  refine ⟨((r₁.diff running).range lost).foldl
    (fun r n => r.modify n Member.offline) r₂, ?_, ?_⟩
  · unfold reconcile
    dsimp only
    rw [← hr₁, hloop₂]
    exact foldl_markLost r₂ hwk₂ hlost
  · intro k
    rw [GoMap.lookup_foldl_modify _ k r₂ (GoMap.nodup_range _ _)]
    refine marked_appearedEntry (mem_range_diffExtended new k)
      (mem_range_diff lost k (hl₁ k)) ?_
    rw [hl₂, hl₁]

/-- The merge with the pods that run. -/
theorem reconcile_lookup (hms : WellKeyed ms) (hrun : Running running)
    (max : Int) (appeared new lost : Order String) :
    ∃ result, ms.reconcile running max appeared new lost = some result
      ∧ ∀ k, result.lookup k = merged ms running k := by
  obtain ⟨result, hrec, hentry⟩ :=
    reconcile_entries hms hrun.keyed max appeared new lost
  refine ⟨result, hrec, fun k => ?_⟩
  rw [hentry, mergedWith_of_running hrun]

end MemberSet

-- ================================================================ pods

/-- The entry a pod contributes. -/
def podMember (rss : ReplicatedStatefulSet) (pod : Pod) : Member :=
  { newMember rss pod.name pod.nameSpace with online := true }

variable {rss : ReplicatedStatefulSet} {pods : List Pod} {k : String}

/-- Folding pods in, from any set: an entry is from a pod or was
there. -/
theorem foldl_podMember_some {m : Member} :
    ∀ ms : MemberSet,
      (pods.foldl (fun ms pod => ms.add (podMember rss pod)) ms).lookup k
        = some m →
      (∃ pod ∈ pods, pod.name = k ∧ m = podMember rss pod)
        ∨ ms.lookup k = some m := by
  induction pods with
  | nil => intro ms h; exact Or.inr h
  | cons pod pods ih =>
      intro ms h
      rw [List.foldl_cons] at h
      rcases ih _ h with ⟨p, hp, hname, hpm⟩ | hadd
      · exact Or.inl ⟨p, List.mem_cons_of_mem _ hp, hname, hpm⟩
      · by_cases hk : pod.name = k
        · subst hk
          have hself : (MemberSet.add (podMember rss pod) ms).lookup pod.name
              = some (podMember rss pod) := AList.lookup_insert ms
          rw [hself] at hadd
          injection hadd with hadd
          exact Or.inl ⟨pod, List.mem_cons_self, rfl, hadd.symm⟩
        · have hother : (MemberSet.add (podMember rss pod) ms).lookup k
              = ms.lookup k := AList.lookup_insert_ne (Ne.symm hk)
          rw [hother] at hadd
          exact Or.inr hadd

/-- Every member that runs comes from a pod of its name. -/
theorem podsToMemberSet_some {m : Member}
    (h : (podsToMemberSet rss pods).lookup k = some m) :
    ∃ pod ∈ pods, pod.name = k ∧ m = podMember rss pod := by
  rcases foldl_podMember_some ∅ h with hpod | hempty
  · exact hpod
  · cases hempty

/-- Folding pods in keeps what is there. -/
theorem mem_foldl_podMember :
    ∀ ms : MemberSet, (k ∈ pods.map Pod.name ∨ k ∈ ms) →
      k ∈ pods.foldl (fun ms pod => ms.add (podMember rss pod)) ms := by
  induction pods with
  | nil =>
      intro ms h
      rcases h with h | h
      · cases h
      · exact h
  | cons pod pods ih =>
      intro ms h
      rw [List.foldl_cons]
      refine ih _ ?_
      rcases h with h | h
      · rcases List.mem_cons.mp h with rfl | h
        · exact Or.inr ((AList.mem_insert _).mpr (Or.inl rfl))
        · exact Or.inl h
      · exact Or.inr ((AList.mem_insert _).mpr (Or.inr h))

/-- Every pod has its member. -/
theorem podsToMemberSet_isSome (h : k ∈ pods.map Pod.name) :
    ∃ m, (podsToMemberSet rss pods).lookup k = some m := by
  have hmem : k ∈ podsToMemberSet rss pods :=
    mem_foldl_podMember ∅ (Or.inl h)
  exact Option.isSome_iff_exists.mp (AList.lookup_isSome.mpr hmem)

theorem podsToMemberSet_running (rss : ReplicatedStatefulSet)
    (pods : List Pod) : (podsToMemberSet rss pods).Running where
  keyed := by
    intro k m hm
    obtain ⟨pod, -, hname, rfl⟩ := podsToMemberSet_some hm
    exact hname
  online := by
    intro k m hm
    obtain ⟨pod, -, -, rfl⟩ := podsToMemberSet_some hm
    rfl

end RssOperator
