/-
Whom the selections of `replicate` prefer.

# Ordinals

A StatefulSet names its pods `<set>-<ordinal>`. The source compares the
names, as strings, where it means the ordinals. That is the same for
numerals of one width (`Numbered.name_lt_iff`); `db-10` comes before
`db-9`.

# Seeds

`chooseSeeds` finds the candidates with the largest sequence number
(`chooseSeeds_finds_latest`). Those among them that are tied stay in the
order in which the map was visited, so any of them may come first
(`seeds_in_order_iff`).

# Members to start

`chooseMember` lets a smaller name win over a larger sequence number. The
candidate it ought to return is safe only if nobody has a smaller name
(`chooses_preferred_iff`): whoever has one wins when visited last.

# Primaries to stop

If no primary is offline, `chooseCurrentPrimary` returns the one with the
largest name, in every order (`chooseCurrentPrimary_greatest`). That it is
the one with the highest ordinal depends on their widths
(`stops_highest_iff`).
-/
import Mathlib.Data.List.MinMax
import Mathlib.Data.Prod.Lex
import RssOperator.Lib.Decimal
import RssOperator.Proofs.Choose
import RssOperator.Proofs.Merge

namespace RssOperator

open RunningBest (pick)

variable {ms : MemberSet} {k k' : String} {m m' : Member}
  {peers : Option MemberSet} {set : String} {ordinal : String → Nat}

-- ============================================================= ordinals

/-- The name of the pod with ordinal `i`. -/
def podName (set : String) (i : Nat) : String := set ++ "-" ++ toString i

/-- Every member is named after an ordinal of its own. -/
structure MemberSet.Numbered (set : String) (ordinal : String → Nat)
    (ms : MemberSet) : Prop where
  named : ∀ k m, ms.lookup k = some m → m.name = podName set (ordinal k)
  distinct : ∀ k m k' m', ms.lookup k = some m → ms.lookup k' = some m' →
    ordinal k = ordinal k' → k = k'

namespace MemberSet.Numbered

/-- Members have names of their own, too. -/
theorem name_inj (h : ms.Numbered set ordinal) (hm : ms.lookup k = some m)
    (hm' : ms.lookup k' = some m') (hname : m.name = m'.name) : k = k' := by
  rw [h.named k m hm, h.named k' m' hm'] at hname
  refine h.distinct k m k' m' hm hm' ?_
  rw [← Decimal.toString_inj, ← String.toList_inj]
  have hlist := congrArg String.toList hname
  simp only [podName, String.toList_append] at hlist
  exact List.append_cancel_left hlist

/-- Where the numerals have one width, names compare like ordinals. -/
theorem name_lt_iff (h : ms.Numbered set ordinal)
    (hm : ms.lookup k = some m) (hm' : ms.lookup k' = some m')
    (hwidth : Decimal.width (ordinal k) = Decimal.width (ordinal k')) :
    m.name < m'.name ↔ ordinal k < ordinal k' := by
  rw [h.named k m hm, h.named k' m' hm', podName, podName,
    Decimal.string_append_lt_iff, Decimal.toString_lt_iff hwidth]

/-- What there is to check of a concrete set. -/
theorem of_entries
    (hnamed : ∀ e ∈ ms.entries, e.2.name = podName set (ordinal e.1))
    (hdistinct : ∀ e ∈ ms.entries, ∀ e' ∈ ms.entries,
      ordinal e.1 = ordinal e'.1 → e.1 = e'.1) :
    ms.Numbered set ordinal where
  named := GoMap.forall_lookup_iff.mpr hnamed
  distinct k m k' m' hm hm' :=
    hdistinct ⟨k, m⟩ (AList.mem_lookup_iff.mp (Option.mem_def.mpr hm))
      ⟨k', m'⟩ (AList.mem_lookup_iff.mp (Option.mem_def.mpr hm'))

end MemberSet.Numbered

/-- The ordinal in the name of one of the first `n` pods. -/
def ordinalBelow (n : Nat) (set k : String) : Nat :=
  ((List.range n).find? fun i => podName set i == k).getD 0

/-- Online members of the set `db`, with these ordinals and sequence
numbers. -/
def MemberSet.sequenced (pods : List (Nat × Nat)) : MemberSet :=
  .ofMembers (pods.map fun p =>
    { name := podName "db" p.1, online := true, seq := p.2 })

-- ================================================================ seeds

/-- A candidate with the largest sequence number of all. -/
structure MemberSet.Latest (ms : MemberSet) (k : String) (m : Member) :
    Prop where
  lookup : ms.lookup k = some m
  eligible : m.eligible = true
  largest : ∀ k' m', ms.lookup k' = some m' → m'.eligible = true →
    m'.seq ≤ m.seq

/-- What the seeds are to be. -/
structure MemberSet.SeedList (ms : MemberSet)
    (seeds : List (String × Member)) : Prop where
  nodup : (seeds.map Prod.fst).Nodup
  candidates : ∀ e ∈ seeds, ms.lookup e.1 = some e.2 ∧ e.2.eligible = true
  first : ∃ e rest, seeds = e :: rest ∧ ms.Latest e.1 e.2
  complete : ∀ k m, ms.Latest k m → (k, m) ∈ seeds

theorem latest_iff (o : Order String) :
    ms.Latest k m
      ↔ (k, m) ∈ candidates ms o ∧ m.seq = topSeq (candidates ms o) := by
  constructor
  · intro h
    have hmem : (k, m) ∈ candidates ms o :=
      mem_candidates.mpr ⟨h.lookup, h.eligible⟩
    refine ⟨hmem, Nat.le_antisymm (le_topSeq hmem) ?_⟩
    obtain ⟨e, he, htop⟩ := exists_topSeq (List.ne_nil_of_mem hmem)
    obtain ⟨hm, hel⟩ := mem_candidates.mp he
    rw [← htop]
    exact h.largest e.1 e.2 hm hel
  · intro h
    obtain ⟨hmem, htop⟩ := h
    obtain ⟨hm, hel⟩ := mem_candidates.mp hmem
    refine ⟨hm, hel, fun k' m' hm' hel' => ?_⟩
    rw [htop]
    exact le_topSeq (e := (k', m')) (mem_candidates.mpr ⟨hm', hel'⟩)

/-- Nobody with the largest number is dropped. -/
theorem mem_fromFirstTop {l : List (String × Member)} {e : String × Member}
    (he : e ∈ l) (htop : e.2.seq = topSeq l) : e ∈ fromFirstTop l := by
  unfold fromFirstTop
  rw [← List.takeWhile_append_dropWhile
    (p := fun e => decide (e.2.seq < topSeq l)) (l := l)] at he
  rcases List.mem_append.mp he with hdropped | hkept
  · have hlt := List.mem_takeWhile_imp hdropped
    rw [decide_eq_true_eq, htop] at hlt
    exact absurd hlt (Nat.lt_irrefl _)
  · exact hkept

theorem seedList_fromFirstTop {o : Order String}
    (hne : candidates ms o ≠ []) :
    ms.SeedList (fromFirstTop (candidates ms o)) where
  nodup := (nodup_candidates ms o).sublist
    ((fromFirstTop_sublist _).map Prod.fst)
  candidates _ he :=
    mem_candidates.mp ((fromFirstTop_sublist _).subset he)
  first := by
    obtain ⟨e, rest, heq, htop⟩ := fromFirstTop_head hne
    refine ⟨e, rest, heq, (latest_iff o).mpr ⟨?_, htop⟩⟩
    refine (fromFirstTop_sublist _).subset ?_
    rw [heq]
    exact List.mem_cons_self
  complete k m h := by
    obtain ⟨hmem, htop⟩ := (latest_iff o).mp h
    exact mem_fromFirstTop hmem htop

/-- `chooseSeeds` finds the most advanced copies, in every visiting order,
and fails if there is no candidate. -/
theorem chooseSeeds_finds_latest (peers : Option MemberSet)
    (o : Order String) :
    ((∃ k m, (peers.getD ∅).lookup k = some m ∧ m.eligible = true) →
        ∃ seeds, chooseSeeds peers o = .ok seeds
          ∧ (peers.getD ∅).SeedList seeds)
      ∧ ((¬ ∃ k m, (peers.getD ∅).lookup k = some m ∧ m.eligible = true) →
        ∃ err, chooseSeeds peers o = .error err) := by
  cases peers with
  | none =>
      refine ⟨fun h => ?_, fun _ => ⟨_, rfl⟩⟩
      obtain ⟨k, m, hm, -⟩ := h
      cases hm
  | some ms =>
      rw [chooseSeeds_eq]
      refine ⟨fun h => ?_, fun h => ?_⟩
      · obtain ⟨k, m, hm, hel⟩ := h
        have hne : candidates ms o ≠ [] :=
          List.ne_nil_of_mem (a := (k, m)) (mem_candidates.mpr ⟨hm, hel⟩)
        rw [if_neg hne]
        exact ⟨_, rfl, seedList_fromFirstTop hne⟩
      · have hnil : candidates ms o = [] := by
          refine candidates_eq_nil_iff.mpr fun k m hm => ?_
          cases hel : m.eligible with
          | false => rfl
          | true => exact absurd ⟨k, m, hm, hel⟩ h
        rw [if_pos hnil]
        exact ⟨_, rfl⟩

/-- The tied seeds come in the order of their ordinals, and the first seed
is the one with the lowest. -/
structure SeededInOrder (ordinal : String → Nat) (ms : MemberSet)
    (seeds : List (String × Member)) : Prop where
  order : seeds.Pairwise fun a b => ms.Latest a.1 a.2 →
    ms.Latest b.1 b.2 → ordinal a.1 < ordinal b.1
  first : ∀ e rest, seeds = e :: rest →
    ∀ k m, ms.Latest k m → ordinal e.1 ≤ ordinal k

/-- Visited first, a candidate with the largest number is the first
seed. -/
theorem chooseSeeds_first (h : ms.Latest k m) :
    ∃ o rest, chooseSeeds (some ms) o = .ok ((k, m) :: rest) := by
  let o := (Order.stored String).deferring fun k' => !(k' == k)
  have hcand : candidates ms o = [(k, m)]
      ++ (candidates ms (.stored _)).filter fun e => !(e.1 == k) := by
    rw [candidates_deferring]
    simp only [Bool.not_not]
    rw [candidates_single _ h.lookup h.eligible]
  have htop := ((latest_iff o).mp h).2
  refine ⟨o, (candidates ms (.stored _)).filter fun e => !(e.1 == k), ?_⟩
  rw [chooseSeeds_eq, if_neg (by rw [hcand]; simp)]
  unfold fromFirstTop
  rw [← htop, hcand, List.singleton_append,
    List.dropWhile_cons_of_neg (by simp)]

/-- The seeds come in the order of their ordinals, whatever the visiting
order, exactly if no two candidates are tied. -/
theorem seeds_in_order_iff (ms : MemberSet) (set : String)
    (ordinal : String → Nat) (hnum : ms.Numbered set ordinal) :
    (∀ o seeds, chooseSeeds (some ms) o = .ok seeds →
        SeededInOrder ordinal ms seeds)
      ↔ ∀ k m k' m', ms.Latest k m → ms.Latest k' m' → k = k' := by
  constructor
  · intro h k m k' m' hk hk'
    -- each of the two may come first, so each has the lowest ordinal
    have hfirst : ∀ {k m k' m'}, ms.Latest k m → ms.Latest k' m' →
        ordinal k ≤ ordinal k' := by
      intro k m k' m' hk hk'
      obtain ⟨o, rest, hseeds⟩ := chooseSeeds_first hk
      exact (h o _ hseeds).first _ _ rfl k' m' hk'
    exact hnum.distinct k m k' m' hk.lookup hk'.lookup
      (Nat.le_antisymm (hfirst hk hk') (hfirst hk' hk))
  · intro hone o seeds hseeds
    have hlist : ms.SeedList seeds := by
      rw [chooseSeeds_eq] at hseeds
      split at hseeds
      · cases hseeds
      · next hne =>
        cases hseeds
        exact seedList_fromFirstTop hne
    refine ⟨?_, ?_⟩
    · have hkeys : seeds.Pairwise fun a b => a.1 ≠ b.1 :=
        List.pairwise_map.mp hlist.nodup
      refine hkeys.imp fun hne ha hb => ?_
      exact absurd (hone _ _ _ _ ha hb) hne
    · intro e rest heq k m hk
      obtain ⟨e', rest', heq', hlatest⟩ := hlist.first
      rw [heq] at heq'
      cases heq'
      rw [hone _ _ _ _ hlatest hk]

/-- Two candidates that are not tied. -/
theorem seeds_in_order_iff_untied :
    (MemberSet.sequenced [(0, 1), (1, 2)]).Numbered "db"
        (ordinalBelow 2 "db")
      ∧ ∀ o seeds, chooseSeeds (some (.sequenced [(0, 1), (1, 2)])) o
          = .ok seeds →
        SeededInOrder (ordinalBelow 2 "db") (.sequenced [(0, 1), (1, 2)])
          seeds := by
  have hnum : (MemberSet.sequenced [(0, 1), (1, 2)]).Numbered "db"
      (ordinalBelow 2 "db") :=
    .of_entries (by decide +kernel) (by decide +kernel)
  refine ⟨hnum, (seeds_in_order_iff _ "db" _ hnum).mpr ?_⟩
  have hlatest : ∀ k m, (MemberSet.sequenced [(0, 1), (1, 2)]).Latest k m →
      k = "db-1" := by
    intro k m h
    have hle := h.largest "db-1" { name := "db-1", online := true, seq := 2 }
      (by decide +kernel) (by decide)
    have hall : ∀ k m, (MemberSet.sequenced [(0, 1), (1, 2)]).lookup k
        = some m → 2 ≤ m.seq → k = "db-1" :=
      GoMap.forall_lookup_iff.mpr (by decide +kernel)
    exact hall k m h.lookup hle
  intro k m k' m' hk hk'
  rw [hlatest k m hk, hlatest k' m' hk']

/-- Two fresh pods: whichever is visited first is seeded first. -/
theorem tied_seed_by_visit :
    let ms := MemberSet.sequenced [(0, 0), (1, 0)]
    let first (last : String) :=
      (chooseSeeds (some ms) ((Order.stored _).deferring (· == last))
        ).toOption.bind fun seeds => seeds.head?.map Prod.fst
    ms.Numbered "db" (ordinalBelow 2 "db")
      ∧ first "db-1" = some "db-0" ∧ first "db-0" = some "db-1" := by
  refine ⟨.of_entries ?_ ?_, ?_, ?_⟩ <;> decide +kernel

-- ====================================================== members to start

/-- The candidate to start: the largest number, and the lowest ordinal
where that is tied. -/
structure MemberSet.Preferred (ordinal : String → Nat) (ms : MemberSet)
    (k : String) (m : Member) : Prop where
  lookup : ms.lookup k = some m
  eligible : m.eligible = true
  best : ∀ k' m', ms.lookup k' = some m' → m'.eligible = true →
    m'.seq < m.seq ∨ m'.seq = m.seq ∧ ordinal k ≤ ordinal k'

/-- `chooseMember` returns the candidate to start, and an error if there is
none. -/
def ChoosesPreferred (ordinal : String → Nat) (peers : Option MemberSet)
    (o : Order String) : Prop :=
  match chooseMember peers o with
  | .ok e => (peers.getD ∅).Preferred ordinal e.1 e.2
  | .error _ => ∀ k m, (peers.getD ∅).lookup k = some m →
      m.eligible = false

/-- Where there is a candidate, there is one to start. -/
theorem exists_preferred (ordinal : String → Nat)
    (hm : ms.lookup k = some m) (hel : m.eligible = true) :
    ∃ k m, ms.Preferred ordinal k m := by
  let rank : String × Member → ℕ ×ₗ ℕᵒᵈ := fun e =>
    toLex (e.2.seq, OrderDual.toDual (ordinal e.1))
  cases hbest : (candidates ms (.stored _)).argmax rank with
  | none =>
      have hnil := List.argmax_eq_none.mp hbest
      rw [candidates_eq_nil_iff.mp hnil k m hm] at hel
      cases hel
  | some e =>
      obtain ⟨hem, heel⟩ := mem_candidates.mp (List.argmax_mem hbest)
      refine ⟨e.1, e.2, hem, heel, fun k' m' hm' hel' => ?_⟩
      have hle := List.le_of_mem_argmax (a := (k', m'))
        (mem_candidates.mpr ⟨hm', hel'⟩) hbest
      rcases Prod.Lex.toLex_le_toLex.mp hle with hlt | ⟨heq, hord⟩
      · exact Or.inl hlt
      · exact Or.inr ⟨heq, hord⟩

theorem MemberSet.Preferred.unique (hnum : ms.Numbered set ordinal)
    (h : ms.Preferred ordinal k m) (h' : ms.Preferred ordinal k' m') :
    k = k' := by
  refine hnum.distinct k m k' m' h.lookup h'.lookup ?_
  have hle := h.best k' m' h'.lookup h'.eligible
  have hle' := h'.best k m h.lookup h.eligible
  omega

/-- The candidate to start is chosen if nobody has a smaller name. -/
theorem chooseMember_preferred (hnum : ms.Numbered set ordinal)
    (ht : ms.Preferred ordinal k m)
    (hleast : ∀ k' m', ms.lookup k' = some m' → m'.eligible = true →
      ¬ m'.name < m.name) (o : Order String) :
    chooseMember (some ms) o = .ok (k, m) := by
  have hchamp : (candidates ms o).foldl (pick Beats) none = some (k, m) := by
    refine RunningBest.foldl_pick_champion
      (mem_candidates.mpr ⟨ht.lookup, ht.eligible⟩) ?_ ?_
    · intro b hb hne
      obtain ⟨hbm, hbel⟩ := mem_candidates.mp hb
      rcases ht.best b.1 b.2 hbm hbel with hlt | ⟨heq, -⟩
      · exact Or.inl hlt
      · -- tied: the names differ, and the other one is not smaller
        refine Or.inr (lt_of_le_of_ne ?_ ?_)
        · exact String.not_lt.mp (hleast b.1 b.2 hbm hbel)
        · intro hname
          have hk := hnum.name_inj ht.lookup hbm hname
          subst hk
          rw [ht.lookup] at hbm
          cases hbm
          exact hne rfl
    · intro b hb hne hbeats
      obtain ⟨hbm, hbel⟩ := mem_candidates.mp hb
      rcases hbeats with hlt | hlt
      · have hbest := ht.best b.1 b.2 hbm hbel
        dsimp only at hlt
        omega
      · exact hleast b.1 b.2 hbm hbel hlt
  rw [chooseMember_eq, hchamp]

/-- Visited last, a candidate with a smaller name displaces the one to
start. -/
theorem chooseMember_displaced (hm' : ms.lookup k' = some m')
    (hel' : m'.eligible = true) (hlt : m'.name < m.name) :
    chooseMember (some ms) ((Order.stored String).deferring (· == k'))
      ≠ .ok (k, m) := by
  intro h
  have hne : (k', m') ≠ (k, m) := by
    intro heq
    cases heq
    exact String.lt_irrefl _ hlt
  have hcand : candidates ms ((Order.stored String).deferring (· == k'))
      = (candidates ms (.stored _)).filter (fun e => !(e.1 == k'))
        ++ [(k', m')] := by
    rw [candidates_deferring, candidates_single _ hm' hel']
  rw [chooseMember_eq, hcand] at h
  split at h
  · cases h
  · next best hbest =>
    cases h
    exact RunningBest.foldl_pick_last_ne hne (Or.inr hlt) hbest

/-- With nobody of a smaller name, the candidate to start is returned. -/
theorem choosesPreferred_of_least (hnum : ms.Numbered set ordinal)
    (hleast : ∀ k m, ms.Preferred ordinal k m →
      ∀ k' m', ms.lookup k' = some m' → m'.eligible = true →
        ¬ m'.name < m.name) (o : Order String) :
    ChoosesPreferred ordinal (some ms) o := by
  unfold ChoosesPreferred
  split
  · next e he =>
    obtain ⟨hm, hel⟩ := chooseMember_ok he
    obtain ⟨k, m, ht⟩ := exists_preferred ordinal hm hel
    rw [chooseMember_preferred hnum ht (hleast k m ht) o] at he
    cases he
    exact ht
  · next err he => exact chooseMember_error_iff.mp ⟨err, he⟩

/-- So it is among candidates with one sequence number and ordinals of one
width. -/
theorem choosesPreferred_of_width (hnum : ms.Numbered set ordinal)
    (htied : ∀ k m k' m', ms.lookup k = some m → m.eligible = true →
      ms.lookup k' = some m' → m'.eligible = true → m.seq = m'.seq
        ∧ Decimal.width (ordinal k) = Decimal.width (ordinal k'))
    (o : Order String) : ChoosesPreferred ordinal (some ms) o := by
  refine choosesPreferred_of_least hnum ?_ o
  intro k m hk k' m' hm' hel' hlt
  obtain ⟨hseq, hwidth⟩ := htied k' m' k m hm' hel' hk.lookup hk.eligible
  rw [hnum.name_lt_iff hm' hk.lookup hwidth] at hlt
  have hbest := hk.best k' m' hm' hel'
  omega

/-- `chooseMember` returns the candidate to start in every visiting order
exactly if nobody has a smaller name than that candidate. -/
theorem chooses_preferred_iff (peers : Option MemberSet) (set : String)
    (ordinal : String → Nat) (hnum : (peers.getD ∅).Numbered set ordinal) :
    (∀ o, ChoosesPreferred ordinal peers o)
      ↔ ∀ k m, (peers.getD ∅).Preferred ordinal k m →
          ∀ k' m', (peers.getD ∅).lookup k' = some m' →
            m'.eligible = true → ¬ m'.name < m.name := by
  cases peers with
  | none =>
      constructor
      · intro _ k m h
        cases h.lookup
      · intro _ o k m hm
        cases hm
  | some ms =>
      constructor
      · intro h k m hk k' m' hm' hel' hlt
        have hlast := h ((Order.stored String).deferring (· == k'))
        have hdisplaced := @chooseMember_displaced ms k k' m m' hm' hel' hlt
        unfold ChoosesPreferred at hlast
        split at hlast
        · next e he =>
          have hkey := hlast.unique hnum hk
          obtain ⟨ke, me⟩ := e
          cases hkey
          have hme := hlast.lookup.symm.trans hk.lookup
          cases hme
          exact hdisplaced he
        · rw [hlast k' m' hm'] at hel'
          cases hel'
      · intro hleast o
        exact choosesPreferred_of_least hnum hleast o

/-- Three fresh pods. -/
theorem chooses_preferred_iff_tied :
    (MemberSet.sequenced [(0, 0), (1, 0), (2, 0)]).Numbered "db"
        (ordinalBelow 3 "db")
      ∧ ∀ o, ChoosesPreferred (ordinalBelow 3 "db")
        (some (.sequenced [(0, 0), (1, 0), (2, 0)])) o := by
  have hnum : (MemberSet.sequenced [(0, 0), (1, 0), (2, 0)]).Numbered "db"
      (ordinalBelow 3 "db") :=
    .of_entries (by decide +kernel) (by decide +kernel)
  refine ⟨hnum, (chooses_preferred_iff
    (some (.sequenced [(0, 0), (1, 0), (2, 0)])) "db" _ hnum).mpr ?_⟩
  intro k m hk k' m' hm' _
  have hfirst : ∀ k m, (MemberSet.sequenced [(0, 0), (1, 0), (2, 0)]).lookup
      k = some m → m.seq = 0 ∧ ¬ m.name < "db-0"
        ∧ (ordinalBelow 3 "db" k ≤ 0 → m.name = "db-0") :=
    GoMap.forall_lookup_iff.mpr (by decide +kernel)
  have hbest := hk.best "db-0" { name := "db-0", online := true }
    (by decide +kernel) (by decide)
  have hzero : ordinalBelow 3 "db" "db-0" = 0 := by decide +kernel
  rw [(hfirst k m hk.lookup).1, hzero] at hbest
  rw [(hfirst k m hk.lookup).2.2 (by simpa using hbest)]
  exact (hfirst k' m' hm').2.1

/-- `db-1` has the larger sequence number, and `db-0` is visited last and
chosen. -/
theorem older_member_chosen :
    let ms := MemberSet.sequenced [(0, 3), (1, 9)]
    let last := (Order.stored String).deferring (· == "db-0")
    ms.Numbered "db" (ordinalBelow 2 "db")
      ∧ (ms.lookup "db-1").map Member.seq = some 9
      ∧ (chooseMember (some ms) last).toOption.map
          (fun e => (e.1, e.2.seq)) = some ("db-0", 3) := by
  refine ⟨.of_entries ?_ ?_, ?_, ?_⟩ <;> decide +kernel

-- ===================================================== primaries to stop

/-- The primary to stop: of those that have not failed, the one with the
highest ordinal. -/
structure MemberSet.Highest (ordinal : String → Nat) (ms : MemberSet)
    (k : String) (m : Member) : Prop where
  lookup : ms.lookup k = some m
  stoppable : m.stoppable = true
  highest : ∀ k' m', ms.lookup k' = some m' → m'.stoppable = true →
    ordinal k' ≤ ordinal k

/-- `chooseCurrentPrimary` returns the primary to stop, and an error if
there is none. -/
def StopsHighest (ordinal : String → Nat) (peers : Option MemberSet)
    (o : Order String) : Prop :=
  match chooseCurrentPrimary peers o with
  | .ok e => (peers.getD ∅).Highest ordinal e.1 e.2
  | .error _ => ∀ k m, (peers.getD ∅).lookup k = some m →
      m.stoppable = false

/-- Online primaries of the set `db` with these ordinals. -/
def MemberSet.running (ordinals : List Nat) : MemberSet :=
  .ofMembers (ordinals.map fun i =>
    { name := podName "db" i, online := true, appPrimary := true })

theorem exists_highest (ordinal : String → Nat)
    (hm : ms.lookup k = some m) (hst : m.stoppable = true) :
    ∃ k m, ms.Highest ordinal k m := by
  have hmem : (k, m) ∈ GoMap.select Member.stoppable (.stored _) ms :=
    GoMap.mem_select.mpr ⟨hm, hst⟩
  cases hbest : (GoMap.select Member.stoppable (.stored _) ms).argmax
      fun e => ordinal e.1 with
  | none =>
      rw [List.argmax_eq_none.mp hbest] at hmem
      cases hmem
  | some e =>
      obtain ⟨hem, hest⟩ := GoMap.mem_select.mp (List.argmax_mem hbest)
      refine ⟨e.1, e.2, hem, hest, fun k' m' hm' hst' => ?_⟩
      exact List.le_of_mem_argmax (a := (k', m'))
        (GoMap.mem_select.mpr ⟨hm', hst'⟩) hbest

/-- With no offline member a primary, the one that is returned has the
largest name. -/
theorem chooseCurrentPrimary_named {o : Order String} {e : String × Member}
    (hoff : ∀ k m, ms.lookup k = some m → m.online = false →
      m.appPrimary = false)
    (he : chooseCurrentPrimary (some ms) o = .ok e)
    (hm : ms.lookup k = some m) (hst : m.stoppable = true) :
    ¬ e.2.name < m.name := by
  obtain ⟨hem, hest⟩ := chooseCurrentPrimary_ok he
  have hon : e.2.online = true := by
    cases hone : e.2.online with
    | true => rfl
    | false =>
        have hprimary := (Member.stoppable_iff.mp hest).1
        rw [hoff e.1 e.2 hem hone] at hprimary
        cases hprimary
  exact (chooseCurrentPrimary_largest he hon hm hst).2

/-- With nobody of a larger name, the primary to stop is returned. -/
theorem stopsHighest_of_largest (hnum : ms.Numbered set ordinal)
    (hoff : ∀ k m, ms.lookup k = some m → m.online = false →
      m.appPrimary = false)
    (hlargest : ∀ k m, ms.Highest ordinal k m →
      ∀ k' m', ms.lookup k' = some m' → m'.stoppable = true →
        ¬ m.name < m'.name) (o : Order String) :
    StopsHighest ordinal (some ms) o := by
  unfold StopsHighest
  split
  · next e he =>
    obtain ⟨hem, hest⟩ := chooseCurrentPrimary_ok he
    obtain ⟨k, m, hk⟩ := exists_highest ordinal hem hest
    -- neither name is larger than the other
    have hname : m.name = e.2.name := by
      refine le_antisymm ?_ ?_
      · exact String.not_lt.mp (chooseCurrentPrimary_named hoff he hk.lookup
          hk.stoppable)
      · exact String.not_lt.mp (hlargest k m hk e.1 e.2 hem hest)
    have hkey := hnum.name_inj hk.lookup hem hname
    subst hkey
    have hsame := hk.lookup.symm.trans hem
    cases hsame
    exact hk
  · next err he =>
    intro k m hm
    exact chooseCurrentPrimary_error he hm

/-- So it is among primaries with ordinals of one width. -/
theorem stopsHighest_of_width (hnum : ms.Numbered set ordinal)
    (hoff : ∀ k m, ms.lookup k = some m → m.online = false →
      m.appPrimary = false)
    (hwidth : ∀ k m k' m', ms.lookup k = some m → m.stoppable = true →
      ms.lookup k' = some m' → m'.stoppable = true →
        Decimal.width (ordinal k) = Decimal.width (ordinal k'))
    (o : Order String) : StopsHighest ordinal (some ms) o := by
  refine stopsHighest_of_largest hnum hoff ?_ o
  intro k m hk k' m' hm' hst' hlt
  rw [hnum.name_lt_iff hk.lookup hm'
    (hwidth k m k' m' hk.lookup hk.stoppable hm' hst')] at hlt
  have hle := hk.highest k' m' hm' hst'
  omega

/-- If no offline member is a primary, the one that is returned is the one
with the highest ordinal exactly if nobody has a larger name. -/
theorem stops_highest_iff (peers : Option MemberSet) (set : String)
    (ordinal : String → Nat) (o : Order String)
    (hnum : (peers.getD ∅).Numbered set ordinal)
    (hoff : ∀ k m, (peers.getD ∅).lookup k = some m → m.online = false →
      m.appPrimary = false) :
    StopsHighest ordinal peers o
      ↔ ∀ k m, (peers.getD ∅).Highest ordinal k m →
          ∀ k' m', (peers.getD ∅).lookup k' = some m' →
            m'.stoppable = true → ¬ m.name < m'.name := by
  cases peers with
  | none =>
      constructor
      · intro _ k m h
        cases h.lookup
      · intro _ k m hm
        cases hm
  | some ms =>
      constructor
      · intro hstops k m hk k' m' hm' hst'
        unfold StopsHighest at hstops
        split at hstops
        · next e he =>
          have hkey : k = e.1 := by
            refine hnum.distinct k m e.1 e.2 hk.lookup hstops.lookup ?_
            exact Nat.le_antisymm
              (hstops.highest k m hk.lookup hk.stoppable)
              (hk.highest e.1 e.2 hstops.lookup hstops.stoppable)
          subst hkey
          have hsame := hk.lookup.symm.trans hstops.lookup
          cases hsame
          exact chooseCurrentPrimary_named hoff he hm' hst'
        · have hst := hk.stoppable
          rw [hstops k m hk.lookup] at hst
          cases hst
      · intro hlargest
        exact stopsHighest_of_largest hnum hoff hlargest o

/-- Three primaries with ordinals of one digit. -/
theorem stops_highest_iff_three :
    (MemberSet.running [0, 1, 2]).Numbered "db" (ordinalBelow 3 "db")
      ∧ StopsHighest (ordinalBelow 3 "db") (some (.running [0, 1, 2]))
        (.stored _) := by
  have hnum : (MemberSet.running [0, 1, 2]).Numbered "db"
      (ordinalBelow 3 "db") :=
    .of_entries (by decide +kernel) (by decide +kernel)
  have hall : ∀ k m, (MemberSet.running [0, 1, 2]).lookup k = some m →
      m.online = true ∧ ¬ "db-2" < m.name
        ∧ (2 ≤ ordinalBelow 3 "db" k → m.name = "db-2") :=
    GoMap.forall_lookup_iff.mpr (by decide +kernel)
  refine ⟨hnum, (stops_highest_iff (some (.running [0, 1, 2])) "db" _ _ hnum
    ?_).mpr ?_⟩
  · intro k m hm hoff
    rw [(hall k m hm).1] at hoff
    cases hoff
  · intro k m hk k' m' hm' _
    have hle := hk.highest "db-2"
      { name := "db-2", online := true, appPrimary := true }
      (by decide +kernel) (by decide)
    have htwo : ordinalBelow 3 "db" "db-2" = 2 := by decide +kernel
    rw [htwo] at hle
    rw [(hall k m hk.lookup).2.2 hle]
    exact (hall k' m' hm').2.1

/-- Of the primaries `db-9` and `db-10` the former is stopped. -/
theorem tenth_primary_kept :
    let ms := MemberSet.running [9, 10]
    ms.Numbered "db" (ordinalBelow 11 "db")
      ∧ (∀ k m, ms.lookup k = some m → m.online = true)
      ∧ (chooseCurrentPrimary (some ms) (.stored _)).toOption.map Prod.fst
        = some "db-9" := by
  refine ⟨.of_entries ?_ ?_, GoMap.forall_lookup_iff.mpr ?_, ?_⟩
  all_goals decide +kernel

/-- Of the primaries that have not failed, the one with the greatest
name. -/
structure MemberSet.Greatest (ms : MemberSet) (k : String) (m : Member) :
    Prop where
  lookup : ms.lookup k = some m
  appPrimary : m.appPrimary = true
  appFailed : m.appFailed = false
  greatest : ∀ k' m', ms.lookup k' = some m' → m'.appPrimary = true →
    m'.appFailed = false → m'.name ≤ m.name

/-- Members stored under their names have at most one of them. -/
theorem MemberSet.Greatest.unique (hkeyed : ms.WellKeyed)
    (h : ms.Greatest k m) (h' : ms.Greatest k' m') : (k, m) = (k', m') := by
  have hname : m.name = m'.name := le_antisymm
    (h'.greatest k m h.lookup h.appPrimary h.appFailed)
    (h.greatest k' m' h'.lookup h'.appPrimary h'.appFailed)
  have hkey : k = k' := by
    rw [← hkeyed k m h.lookup, ← hkeyed k' m' h'.lookup, hname]
  subst hkey
  rw [Option.some.inj (h.lookup.symm.trans h'.lookup)]

theorem chooseCurrentPrimary_some_greatest {o : Order String}
    {e : String × Member}
    (hoff : ∀ k m, ms.lookup k = some m → m.online = false →
      m.appPrimary = false)
    (he : chooseCurrentPrimary (some ms) o = .ok e) :
    ms.Greatest e.1 e.2 := by
  obtain ⟨hem, hest⟩ := chooseCurrentPrimary_ok he
  obtain ⟨hprimary, hfailed⟩ := Member.stoppable_iff.mp hest
  refine ⟨hem, hprimary, hfailed, ?_⟩
  intro k' m' hm' hprimary' hfailed'
  exact String.not_lt.mp (chooseCurrentPrimary_named hoff he hm'
    (Member.stoppable_iff.mpr ⟨hprimary', hfailed'⟩))

/-- Which primary is stopped does not depend on the order of the map: it
is the one with the greatest name, and there is an error exactly if there
is no primary that has not failed. -/
theorem chooseCurrentPrimary_greatest (peers : Option MemberSet)
    (o : Order String) (hkeyed : (peers.getD ∅).WellKeyed)
    (hoff : ∀ k m, (peers.getD ∅).lookup k = some m → m.online = false →
      m.appPrimary = false) :
    (∀ k m, chooseCurrentPrimary peers o = .ok (k, m)
        ↔ (peers.getD ∅).Greatest k m)
      ∧ ((∃ err, chooseCurrentPrimary peers o = .error err)
        ↔ ¬ ∃ k m, (peers.getD ∅).lookup k = some m ∧ m.appPrimary = true
            ∧ m.appFailed = false) := by
  cases peers with
  | none =>
      constructor
      · intro k m
        exact iff_of_false (fun h => nomatch h) (fun h => nomatch h.lookup)
      · refine iff_of_true ⟨_, rfl⟩ ?_
        rintro ⟨k, m, hm, -⟩
        cases hm
  | some ms =>
      have hfound : ∀ {k m}, ms.lookup k = some m → m.appPrimary = true →
          m.appFailed = false → ∃ e, chooseCurrentPrimary (some ms) o
            = .ok e := by
        intro k m hm hprimary hfailed
        cases he : chooseCurrentPrimary (some ms) o with
        | ok e => exact ⟨e, rfl⟩
        | error err =>
            have hno := chooseCurrentPrimary_error he hm
            rw [Member.stoppable_iff.mpr ⟨hprimary, hfailed⟩] at hno
            cases hno
      constructor
      · intro k m
        refine ⟨chooseCurrentPrimary_some_greatest hoff, fun h => ?_⟩
        obtain ⟨e, he⟩ := hfound h.lookup h.appPrimary h.appFailed
        rw [he, h.unique hkeyed (chooseCurrentPrimary_some_greatest hoff he)]
      · constructor
        · rintro ⟨err, herr⟩ ⟨k, m, hm, hprimary, hfailed⟩
          obtain ⟨e, he⟩ := hfound hm hprimary hfailed
          rw [herr] at he
          cases he
        · intro hnone
          cases he : chooseCurrentPrimary (some ms) o with
          | error err => exact ⟨err, rfl⟩
          | ok e =>
              have h := chooseCurrentPrimary_some_greatest hoff he
              exact absurd ⟨e.1, e.2, h.lookup, h.appPrimary, h.appFailed⟩
                hnone

/-- Of two primaries, in the order of the map and in the other one. -/
theorem chooseCurrentPrimary_greatest_two :
    let ms := MemberSet.running [0, 1]
    let other := (Order.stored String).deferring (· == "db-0")
    (∃ m, ms.Greatest "db-1" m)
      ∧ (chooseCurrentPrimary (some ms) (.stored _)).toOption.map Prod.fst
        = some "db-1"
      ∧ (chooseCurrentPrimary (some ms) other).toOption.map Prod.fst
        = some "db-1" := by
  have hall : ∀ k m, (MemberSet.running [0, 1]).lookup k = some m →
      m.name = k ∧ m.online = true :=
    GoMap.forall_lookup_iff.mpr (by decide +kernel)
  have hoff : ∀ k m, (MemberSet.running [0, 1]).lookup k = some m →
      m.online = false → m.appPrimary = false := by
    intro k m hm hoff
    rw [(hall k m hm).2] at hoff
    cases hoff
  have hgreatest := chooseCurrentPrimary_greatest
    (some (.running [0, 1])) (.stored _) (fun k m hm => (hall k m hm).1) hoff
  refine ⟨⟨{ name := "db-1", online := true, appPrimary := true }, ?_⟩, ?_⟩
  · refine (hgreatest.1 _ _).mp ?_
    decide +kernel
  · exact ⟨by decide +kernel, by decide +kernel⟩

end RssOperator
