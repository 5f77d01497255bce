/-
The three selections of `replicate`: what they return, for every
visiting order.

`chooseSeeds` keeps a list that is reset when a member with a larger
sequence number turns up and extended otherwise. Read from the end, that
is a suffix: `foldl_seedStep` says the result is the visited candidates
from the first one of maximal `SEQ` on. What follows it may be smaller;
nothing removes those.

The other two keep a running best (`Lib/RunningBest.lean`): `chooseMember`
over the candidates, with a comparison that is not an order, so that which
one it is depends on the visiting order; `chooseCurrentPrimary` over the
primaries, by name, unless it meets one that is offline.
-/
import Mathlib.Data.List.Induction
import Mathlib.Data.List.TakeWhile
import Mathlib.Data.String.Basic
import RssOperator.Lib.RunningBest
import RssOperator.Proofs.Calls

namespace RssOperator

open RunningBest (pick)

variable {ms : MemberSet} {o : Order String}

theorem Member.eligible_iff {m : Member} :
    m.eligible = true
      ↔ m.online = true ∧ m.appFailed = false ∧ m.appPrimary = false := by
  unfold eligible
  simp only [Bool.and_eq_true, Bool.not_eq_true', and_assoc]

theorem Member.isPrimary_iff {m : Member} :
    m.isPrimary = true
      ↔ m.online = true ∧ m.appPrimary = true ∧ m.appRunning = true := by
  unfold isPrimary
  simp only [Bool.and_eq_true, and_assoc]

theorem Member.isRunning_iff {m : Member} :
    m.isRunning = true ↔ m.online = true ∧ m.appRunning = true := by
  unfold isRunning
  simp only [Bool.and_eq_true]

-- =============================================================== seeds

/-- The largest sequence number in a list of entries. -/
def topSeq (l : List (String × Member)) : Nat :=
  (l.map fun e => e.2.seq).foldr max 0

theorem le_topSeq {l : List (String × Member)} {e : String × Member}
    (he : e ∈ l) : e.2.seq ≤ topSeq l := by
  unfold topSeq
  induction l with
  | nil => cases he
  | cons a l ih =>
      simp only [List.map_cons, List.foldr_cons]
      rcases List.mem_cons.mp he with rfl | he
      · exact Nat.le_max_left _ _
      · exact Nat.le_trans (ih he) (Nat.le_max_right _ _)

theorem exists_topSeq {l : List (String × Member)} (hne : l ≠ []) :
    ∃ e ∈ l, e.2.seq = topSeq l := by
  unfold topSeq
  induction l with
  | nil => exact absurd rfl hne
  | cons a l ih =>
      simp only [List.map_cons, List.foldr_cons]
      by_cases hl : l = []
      · subst hl
        exact ⟨a, List.mem_cons_self, by simp⟩
      · obtain ⟨e, he, htop⟩ := ih hl
        by_cases hle : a.2.seq ≤ e.2.seq
        · exact ⟨e, List.mem_cons_of_mem _ he, by omega⟩
        · exact ⟨a, List.mem_cons_self, by omega⟩

theorem topSeq_concat (l : List (String × Member)) (e : String × Member) :
    topSeq (l ++ [e]) = max (topSeq l) e.2.seq := by
  unfold topSeq
  induction l with
  | nil => simp
  | cons a l ih =>
      simp only [List.cons_append, List.map_cons, List.foldr_cons, ih]
      omega

/-- The candidates a scan meets, in visiting order. -/
def candidates (ms : MemberSet) (o : Order String) :
    List (String × Member) :=
  (ms.rangeEntries o).filter fun e => e.2.eligible

theorem mem_candidates {e : String × Member} :
    e ∈ candidates ms o
      ↔ ms.lookup e.1 = some e.2 ∧ e.2.eligible = true :=
  GoMap.mem_select

theorem nodup_candidates (ms : MemberSet) (o : Order String) :
    ((candidates ms o).map Prod.fst).Nodup :=
  GoMap.nodup_select _ _ _

theorem candidates_deferring (o : Order String) (p : String → Bool)
    (ms : MemberSet) :
    candidates ms (o.deferring p)
      = (candidates ms o).filter (fun e => !p e.1)
        ++ (candidates ms o).filter (fun e => p e.1) :=
  GoMap.select_deferring _ o p ms

theorem candidates_single (o : Order String) {k : String}
    {m : Member} (hm : ms.lookup k = some m) (hel : m.eligible = true) :
    (candidates ms o).filter (fun e => e.1 == k) = [(k, m)] :=
  GoMap.filter_fst_eq (nodup_candidates ms o)
    (mem_candidates.mpr ⟨hm, hel⟩)

theorem candidates_eq_nil_iff {o : Order String} :
    candidates ms o = []
      ↔ ∀ k m, ms.lookup k = some m → m.eligible = false := by
  rw [List.eq_nil_iff_forall_not_mem]
  constructor
  · intro h k m hm
    cases hel : m.eligible with
    | false => rfl
    | true => exact absurd (mem_candidates.mpr ⟨hm, hel⟩) (h (k, m))
  · intro h e he
    obtain ⟨hm, hel⟩ := mem_candidates.mp he
    rw [h e.1 e.2 hm] at hel
    cases hel

/-- Of the candidates in visiting order, those from the first one of
maximal sequence number on. -/
def fromFirstTop (l : List (String × Member)) : List (String × Member) :=
  l.dropWhile fun e => decide (e.2.seq < topSeq l)

/-- A scan skips what is not a candidate. -/
theorem foldl_seedStep_filter (l : List (String × Member)) :
    ∀ best, l.foldl seedStep best
      = (l.filter fun e => e.2.eligible).foldl seedStep best := by
  induction l with
  | nil => intro best; rfl
  | cons e l ih =>
      intro best
      rw [List.foldl_cons, ih]
      by_cases he : e.2.eligible = true
      · rw [List.filter_cons_of_pos (by exact he), List.foldl_cons]
      · rw [List.filter_cons_of_neg (by exact he)]
        have hskip : seedStep best e = best := by
          unfold Member.eligible at he
          unfold seedStep
          cases ho : e.2.online <;> cases hf : e.2.appFailed
            <;> cases hp : e.2.appPrimary <;> simp_all
        rw [hskip]

theorem fromFirstTop_head {l : List (String × Member)} (hne : l ≠ []) :
    ∃ b t, fromFirstTop l = b :: t ∧ b.2.seq = topSeq l := by
  unfold fromFirstTop
  cases hd : l.dropWhile fun e => decide (e.2.seq < topSeq l) with
  | nil =>
      obtain ⟨e, he, htop⟩ := exists_topSeq hne
      have := List.dropWhile_eq_nil_iff.mp hd e he
      simp only [decide_eq_true_eq] at this
      omega
  | cons b t =>
      refine ⟨b, t, rfl, ?_⟩
      have hb : ¬ (decide (b.2.seq < topSeq l)) = true := by
        have := List.head?_dropWhile_not
          (fun e : String × Member => decide (e.2.seq < topSeq l)) l
        rw [hd] at this
        simpa using this
      have hmem : b ∈ l := by
        have : b ∈ l.dropWhile fun e => decide (e.2.seq < topSeq l) := by
          rw [hd]
          exact List.mem_cons_self
        exact (List.dropWhile_sublist _).subset this
      have := le_topSeq hmem
      simp only [decide_eq_true_eq] at hb
      omega

/-- The scan over candidates. The induction takes them from the end, as
the scan's last step is the one that decides. -/
theorem foldl_seedStep_candidates (l : List (String × Member))
    (hl : ∀ e ∈ l, e.2.eligible = true) :
    l.foldl seedStep [] = fromFirstTop l := by
  induction l using List.reverseRecOn with
  | nil => rfl
  | append_singleton l e ih =>
      have hel : e.2.eligible = true :=
        hl e (List.mem_append_right _ (List.mem_singleton.mpr rfl))
      rw [List.foldl_append, ih fun x hx => hl x (List.mem_append_left _ hx),
        List.foldl_cons, List.foldl_nil]
      obtain ⟨hon, hfa, hpr⟩ := Member.eligible_iff.mp hel
      unfold seedStep
      rw [hon, hfa, hpr]
      simp only [Bool.not_true, Bool.or_false, Bool.false_eq_true, if_false]
      by_cases hne : l = []
      · subst hne
        simp [fromFirstTop, topSeq]
      · obtain ⟨b, t, hbt, hb⟩ := fromFirstTop_head hne
        rw [hbt]
        dsimp only
        rw [hb]
        unfold fromFirstTop
        rw [topSeq_concat]
        by_cases hlt : topSeq l < e.2.seq
        · -- every earlier candidate is below the new one
          rw [if_pos hlt, Nat.max_eq_right (Nat.le_of_lt hlt),
            List.dropWhile_append]
          have hnil : (l.dropWhile fun x => decide (x.2.seq < e.2.seq))
              = [] := by
            rw [List.dropWhile_eq_nil_iff]
            intro x hx
            have := le_topSeq hx
            simp only [decide_eq_true_eq]
            omega
          rw [hnil]
          simp
        · rw [if_neg hlt, Nat.max_eq_left (by omega), List.dropWhile_append]
          have hcons : (l.dropWhile fun x => decide (x.2.seq < topSeq l))
              = b :: t := hbt
          rw [hcons]
          simp

/-- What `chooseSeeds` returns, in every visiting order. -/
theorem chooseSeeds_eq :
    chooseSeeds (some ms) o
      = if candidates ms o = [] then .error .noSeedPeers
        else .ok (fromFirstTop (candidates ms o)) := by
  have hscan : (ms.rangeEntries o).foldl seedStep []
      = fromFirstTop (candidates ms o) := by
    rw [foldl_seedStep_filter]
    exact foldl_seedStep_candidates _ fun e he => (mem_candidates.mp he).2
  unfold chooseSeeds
  dsimp only
  rw [hscan]
  by_cases hne : candidates ms o = []
  · rw [if_pos hne, hne]
    rfl
  · obtain ⟨b, t, hbt, -⟩ := fromFirstTop_head hne
    rw [if_neg hne, hbt]

theorem fromFirstTop_sublist (l : List (String × Member)) :
    (fromFirstTop l).Sublist l :=
  List.dropWhile_sublist _

/-- Every seed is a candidate. -/
theorem mem_candidates_of_seed {seeds : List (String × Member)}
    (h : chooseSeeds (some ms) o = .ok seeds) {e : String × Member}
    (he : e ∈ seeds) : e ∈ candidates ms o := by
  rw [chooseSeeds_eq] at h
  split at h
  · cases h
  · injection h with h
    subst h
    exact (fromFirstTop_sublist _).subset he

theorem nodup_seeds {seeds : List (String × Member)}
    (h : chooseSeeds (some ms) o = .ok seeds) :
    (seeds.map Prod.fst).Nodup := by
  rw [chooseSeeds_eq] at h
  split at h
  · cases h
  · injection h with h
    subst h
    exact (nodup_candidates ms o).sublist
      ((fromFirstTop_sublist _).map Prod.fst)

-- ======================================================= running bests

/-- The first of two candidates takes the place of the second if it is
met after it. -/
def Beats (e b : String × Member) : Prop :=
  b.2.seq < e.2.seq ∨ e.2.name < b.2.name

instance : DecidableRel Beats := fun e b =>
  inferInstanceAs (Decidable (b.2.seq < e.2.seq ∨ e.2.name < b.2.name))

/-- A step of `chooseMember` skips those who are no candidates. -/
theorem memberStep_eq (best : Option (String × Member))
    (e : String × Member) :
    memberStep best e = if e.2.eligible then pick Beats best e else best := by
  by_cases hel : e.2.eligible = true
  · obtain ⟨hon, hfa, hpr⟩ := Member.eligible_iff.mp hel
    rw [if_pos hel]
    cases best with
    | none => simp [memberStep, hon, hfa, hpr]
    | some b =>
        simp only [memberStep, hon, hfa, hpr, Bool.not_true, Bool.or_false,
          Bool.false_eq_true, if_false, RunningBest.pick_some, Beats]
        by_cases hseq : b.2.seq < e.2.seq
        · simp [hseq]
        · simp [hseq]
  · rw [if_neg hel]
    unfold Member.eligible at hel
    unfold memberStep
    cases ho : e.2.online <;> cases hf : e.2.appFailed
      <;> cases hp : e.2.appPrimary <;> simp_all

/-- The scan of `chooseMember`. -/
theorem foldl_memberStep (o : Order String) :
    (ms.rangeEntries o).foldl memberStep none
      = (candidates ms o).foldl (pick Beats) none := by
  unfold candidates
  rw [List.foldl_filter]
  exact congrArg (fun f => (ms.rangeEntries o).foldl f none)
    (funext fun best => funext fun e => memberStep_eq best e)

/-- What `chooseMember` returns. -/
theorem chooseMember_eq :
    chooseMember (some ms) o
      = match (candidates ms o).foldl (pick Beats) none with
        | none => .error .noFurtherPeers
        | some best => .ok best := by
  unfold chooseMember
  dsimp only
  cases hbest : (candidates ms o).foldl (pick Beats) none with
  | none => rw [foldl_memberStep, hbest]
  | some best => rw [foldl_memberStep, hbest]

/-- The member to start is a candidate. -/
theorem chooseMember_ok {e : String × Member}
    (h : chooseMember (some ms) o = .ok e) :
    ms.lookup e.1 = some e.2 ∧ e.2.eligible = true := by
  rw [chooseMember_eq] at h
  split at h
  · cases h
  · next best hbest =>
    injection h with h
    subst h
    exact mem_candidates.mp (RunningBest.foldl_pick_mem hbest)

/-- There is a member to start exactly if there is a candidate. -/
theorem chooseMember_error_iff {ms : MemberSet} {o : Order String} :
    (∃ err, chooseMember (some ms) o = .error err)
      ↔ ∀ k m, ms.lookup k = some m → m.eligible = false := by
  have hscan : (candidates ms o).foldl (pick Beats) none = none
      ↔ ∀ k m, ms.lookup k = some m → m.eligible = false := by
    rw [RunningBest.foldl_pick_none, candidates_eq_nil_iff]
  rw [← hscan, chooseMember_eq]
  constructor
  · intro h
    obtain ⟨err, herr⟩ := h
    split at herr
    · assumption
    · cases herr
  · intro h
    rw [h]
    exact ⟨_, rfl⟩

-- ================================================== primaries to stop

/-- A member that `chooseCurrentPrimary` considers. -/
def Member.stoppable (m : Member) : Bool := m.appPrimary && !m.appFailed

theorem Member.stoppable_iff {m : Member} :
    m.stoppable = true ↔ m.appPrimary = true ∧ m.appFailed = false := by
  unfold stoppable
  simp only [Bool.and_eq_true, Bool.not_eq_true']

/-- The name of `e` is larger than that of `b`. -/
abbrev Outranks (e b : String × Member) : Prop := b.2.name < e.2.name

section Scan

variable {l : List (String × Member)} {a e : String × Member}
  {best : Option (String × Member)}

/-- One turn of the scan, on a member that it passes over. -/
theorem scanPrimaries_skip (h : a.2.stoppable = false) :
    scanPrimaries best (a :: l) = scanPrimaries best l := by
  have hskip : (!a.2.appPrimary || a.2.appFailed) = true := by
    rw [← Bool.not_inj_iff, Bool.not_or, Bool.not_not]
    exact h
  conv => lhs; unfold scanPrimaries
  rw [if_pos hskip]

/-- On one that ends it. -/
theorem scanPrimaries_offline (h : a.2.stoppable = true)
    (hoff : a.2.online = false) : scanPrimaries best (a :: l) = some a := by
  obtain ⟨hprimary, hfailed⟩ := Member.stoppable_iff.mp h
  simp [scanPrimaries, hprimary, hfailed, hoff]

/-- On one that is compared with the best so far. -/
theorem scanPrimaries_online (h : a.2.stoppable = true)
    (hon : a.2.online = true) :
    scanPrimaries best (a :: l)
      = scanPrimaries (pick Outranks best a) l := by
  obtain ⟨hprimary, hfailed⟩ := Member.stoppable_iff.mp h
  cases best with
  | none => simp [scanPrimaries, hprimary, hfailed, hon]
  | some b =>
      rw [RunningBest.pick_some]
      by_cases hlt : b.2.name < a.2.name
      · simp [scanPrimaries, hprimary, hfailed, hon, hlt]
      · simp [scanPrimaries, hprimary, hfailed, hon, hlt]

theorem scanPrimaries_some (h : scanPrimaries best l = some e) :
    best = some e ∨ e ∈ l ∧ e.2.stoppable = true := by
  induction l generalizing best with
  | nil => exact Or.inl h
  | cons a l ih =>
      have hlater : e ∈ l ∧ e.2.stoppable = true →
          e ∈ a :: l ∧ e.2.stoppable = true :=
        fun h => ⟨List.mem_cons_of_mem _ h.1, h.2⟩
      cases hst : a.2.stoppable with
      | false =>
          rw [scanPrimaries_skip hst] at h
          exact (ih h).imp_right hlater
      | true =>
          have hself : some a = some e →
              e ∈ a :: l ∧ e.2.stoppable = true := by
            intro he
            cases he
            exact ⟨List.mem_cons_self, hst⟩
          cases hon : a.2.online with
          | false =>
              rw [scanPrimaries_offline hst hon] at h
              exact Or.inr (hself h)
          | true =>
              rw [scanPrimaries_online hst hon] at h
              rcases ih h with hpick | hmem
              · rcases @RunningBest.pick_cases _ Outranks _ best a with
                  hkeep | htake
                · exact Or.inl (hkeep.symm.trans hpick)
                · exact Or.inr (hself (htake.symm.trans hpick))
              · exact Or.inr (hlater hmem)

theorem scanPrimaries_ne_none (h : best ≠ none) :
    scanPrimaries best l ≠ none := by
  induction l generalizing best with
  | nil => exact h
  | cons a l ih =>
      cases hst : a.2.stoppable with
      | false =>
          rw [scanPrimaries_skip hst]
          exact ih h
      | true =>
          cases hon : a.2.online with
          | false => simp [scanPrimaries_offline hst hon]
          | true =>
              rw [scanPrimaries_online hst hon]
              exact ih (RunningBest.pick_ne_none best a)

theorem scanPrimaries_none (h : scanPrimaries none l = none) :
    ∀ e ∈ l, e.2.stoppable = false := by
  induction l with
  | nil => intro e he; cases he
  | cons a l ih =>
      cases hst : a.2.stoppable with
      | false =>
          rw [scanPrimaries_skip hst] at h
          intro e he
          rcases List.mem_cons.mp he with rfl | he
          · exact hst
          · exact ih h e he
      | true =>
          cases hon : a.2.online with
          | false =>
              rw [scanPrimaries_offline hst hon] at h
              cases h
          | true =>
              rw [scanPrimaries_online hst hon] at h
              exact absurd h
                (scanPrimaries_ne_none (RunningBest.pick_ne_none none a))

/-- The one that is kept has no smaller name than either. -/
theorem pick_outranks (best : Option (String × Member))
    (a : String × Member) :
    ∃ c, pick Outranks best a = some c ∧ a.2.name ≤ c.2.name
      ∧ ∀ b, best = some b → b.2.name ≤ c.2.name := by
  cases best with
  | none => exact ⟨a, rfl, le_refl _, fun b hb => nomatch hb⟩
  | some b =>
      rw [RunningBest.pick_some]
      by_cases hlt : b.2.name < a.2.name
      · rw [if_pos hlt]
        refine ⟨a, rfl, le_refl _, ?_⟩
        intro b' hb'
        cases hb'
        exact le_of_lt hlt
      · rw [if_neg hlt]
        refine ⟨b, rfl, String.not_lt.mp hlt, ?_⟩
        intro b' hb'
        cases hb'
        exact le_refl _

/-- A scan that ends with a member that is there has met no offline
primary, and nobody with a larger name. -/
theorem scanPrimaries_largest (hon : e.2.online = true)
    (h : scanPrimaries best l = some e) :
    (∀ b, best = some b → b.2.name ≤ e.2.name)
      ∧ ∀ x ∈ l, x.2.stoppable = true →
        x.2.online = true ∧ x.2.name ≤ e.2.name := by
  induction l generalizing best with
  | nil =>
      refine ⟨fun b hb => ?_, fun x hx => absurd hx List.not_mem_nil⟩
      cases hb.symm.trans h
      exact le_refl _
  | cons a l ih =>
      have hcons : (a.2.stoppable = true →
            a.2.online = true ∧ a.2.name ≤ e.2.name) →
          (∀ x ∈ l, x.2.stoppable = true →
            x.2.online = true ∧ x.2.name ≤ e.2.name) →
          ∀ x ∈ a :: l, x.2.stoppable = true →
            x.2.online = true ∧ x.2.name ≤ e.2.name := by
        intro ha hl x hx
        rcases List.mem_cons.mp hx with rfl | hx
        · exact ha
        · exact hl x hx
      cases hst : a.2.stoppable with
      | false =>
          rw [scanPrimaries_skip hst] at h
          obtain ⟨hbest, hl⟩ := ih h
          refine ⟨hbest, hcons (fun hst' => ?_) hl⟩
          rw [hst] at hst'
          cases hst'
      | true =>
          cases hthere : a.2.online with
          | false =>
              rw [scanPrimaries_offline hst hthere] at h
              cases h
              rw [hon] at hthere
              cases hthere
          | true =>
              rw [scanPrimaries_online hst hthere] at h
              obtain ⟨hbest, hl⟩ := ih h
              obtain ⟨c, hc, hac, hbc⟩ := pick_outranks best a
              have hce := hbest c hc
              exact ⟨fun b hb => (hbc b hb).trans hce,
                hcons (fun _ => ⟨hthere, hac.trans hce⟩) hl⟩

end Scan

/-- A primary to stop that is there has the largest name, and is only
picked when no primary is offline. -/
theorem chooseCurrentPrimary_largest {e : String × Member}
    (h : chooseCurrentPrimary (some ms) o = .ok e)
    (hon : e.2.online = true) {k : String} {m : Member}
    (hm : ms.lookup k = some m) (hst : m.stoppable = true) :
    m.online = true ∧ ¬ e.2.name < m.name := by
  unfold chooseCurrentPrimary at h
  dsimp only at h
  split at h
  · cases h
  · next best hbest =>
    injection h with h
    subst h
    obtain ⟨hthere, hle⟩ := (scanPrimaries_largest hon hbest).2 (k, m)
      (GoMap.mem_rangeEntries.mpr hm) hst
    exact ⟨hthere, String.not_lt.mpr hle⟩

/-- The primary to stop is a primary that has not failed. -/
theorem chooseCurrentPrimary_ok {e : String × Member}
    (h : chooseCurrentPrimary (some ms) o = .ok e) :
    ms.lookup e.1 = some e.2 ∧ e.2.stoppable = true := by
  unfold chooseCurrentPrimary at h
  dsimp only at h
  split at h
  · cases h
  · next best hbest =>
    injection h with h
    subst h
    rcases scanPrimaries_some hbest with hn | ⟨hmem, hst⟩
    · cases hn
    · obtain ⟨k, m⟩ := best
      exact ⟨GoMap.mem_rangeEntries.mp hmem, hst⟩

/-- Without a primary to stop there is none that has not failed. -/
theorem chooseCurrentPrimary_error {err : Err}
    (h : chooseCurrentPrimary (some ms) o = .error err) {k : String}
    {m : Member} (hm : ms.lookup k = some m) : m.stoppable = false := by
  unfold chooseCurrentPrimary at h
  dsimp only at h
  split at h
  · next hnone =>
    exact scanPrimaries_none hnone (k, m) (GoMap.mem_rangeEntries.mpr hm)
  · cases h

end RssOperator
