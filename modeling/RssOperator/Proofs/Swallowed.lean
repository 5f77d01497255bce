/-
Failures that `replicate` does not report.

# Building a call

A silent call that leaves a failed member starts in a state that
`Swallows` describes. This module shows that from every such state there
is one, in one of two worlds. If there is work to do the sequence numbers
are read, and `Sys.losing` chooses them (`swallowed_wanted`,
`swallowed_unwanted`). If none is wanted and all members run, they are
not read, and `Sys.idling` has to do with those that are there
(`swallowed_idle`).

In both the first seed fails and the second becomes the first primary.
What is known then is collected once (`Misled`, `Ranked`), as what each of
the loops needs to start.
-/
import RssOperator.Proofs.Silent

namespace RssOperator

variable {env : Env} {s t : Sys} {ms : MemberSet} {k : String}
  {m : Member} {fuel : Nat} {replicas primaries : Int}

-- =========================================================== the world

/-- A call whose loops all end without an error returns none. -/
theorem replicate_silent {t' : Sys} (hreach : ReachesSecondaries env fuel s t)
    (hpos : 0 < s.spec.getNumReplicas)
    (hadd : loopStage (secondaryTurn env s.spec.getNumReplicas) fuel [] t
      = .ret [] t') :
    ∃ s', replicate env fuel s = .ret [] s' ∧ s'.members = t'.members := by
  obtain ⟨s₁, s₂, hreach, hprom, hdem⟩ := hreach
  have F := Steady.frame env
  have hspec : t'.spec = s.spec :=
    (spec_loopStage env (F.secondaryTurn _) hadd).trans
      ((spec_loopStage env (F.demoteTurn _) hdem).trans
        ((spec_loopStage env (F.promoteTurn _) hprom).trans hreach.spec))
  have hfinish : finishStage env [] t' = .ret [] t' := by
    unfold finishStage
    rw [if_pos ⟨rfl, by rw [hspec]; exact hpos⟩]
  refine ⟨(updateCRStatus env "replicate" t').2, ?_,
    (Quiet.updateCRStatus _ _).members⟩
  unfold replicate
  rw [hreach.replicateBody_eq]
  unfold sizeStages
  rw [hprom, Outcome.ret_andThen, hdem, Outcome.ret_andThen, hadd,
    Outcome.ret_andThen, hfinish, Outcome.ret_andThen]

theorem exists_least {l : List String} (hne : l ≠ []) :
    ∃ x ∈ l, ∀ y ∈ l, y ≠ x → x < y := by
  induction l with
  | nil => exact absurd rfl hne
  | cons a l ih =>
      by_cases hl : l = []
      · subst hl
        refine ⟨a, List.mem_cons_self, fun y hy hya => ?_⟩
        exact absurd (List.mem_singleton.mp hy) hya
      · obtain ⟨x, hx, hleast⟩ := ih hl
        by_cases hlt : a < x
        · refine ⟨a, List.mem_cons_self, fun y hy hya => ?_⟩
          rcases List.mem_cons.mp hy with heq | hy
          · exact absurd heq hya
          · by_cases hyx : y = x
            · rw [hyx]
              exact hlt
            · exact String.lt_trans hlt (hleast y hy hyx)
        · refine ⟨x, List.mem_cons_of_mem _ hx, fun y hy hyx => ?_⟩
          rcases List.mem_cons.mp hy with heq | hy
          · subst heq
            exact Std.lt_of_le_of_ne (String.not_lt.mp hlt) hyx.symm
          · exact hleast y hy hyx

/-- The least name of all who are there, apart from `f`. -/
theorem MemberSet.exists_pivot (ms : MemberSet) {f w : String}
    {mw : Member} (hw : ms.lookup w = some mw) (hon : mw.online = true)
    (hne : w ≠ f) :
    ∃ b mb, ms.lookup b = some mb ∧ mb.online = true ∧ b ≠ f
      ∧ ∀ k m, ms.lookup k = some m → m.online = true → k ≠ b → k ≠ f →
        b < k := by
  let l := (ms.range (Order.stored String)).filter fun k =>
    (ms.lookup k).any Member.online && k != f
  have hmem : ∀ k, k ∈ l ↔ ∃ m, ms.lookup k = some m ∧ m.online = true
      ∧ k ≠ f := by
    intro k
    simp only [l, List.mem_filter, GoMap.mem_range, Bool.and_eq_true,
      bne_iff_ne, Option.any_eq_true]
    constructor
    · intro h
      obtain ⟨-, ⟨m, hm, hon⟩, hne⟩ := h
      exact ⟨m, hm, hon, hne⟩
    · intro h
      obtain ⟨m, hm, hon, hne⟩ := h
      exact ⟨⟨m, hm⟩, ⟨m, hm, hon⟩, hne⟩
  obtain ⟨b, hb, hleast⟩ := exists_least
    (List.ne_nil_of_mem ((hmem w).mpr ⟨mw, hw, hon, hne⟩))
  obtain ⟨mb, hmb, honb, hbf⟩ := (hmem b).mp hb
  exact ⟨b, mb, hmb, honb, hbf, fun k m hm hon hkb hkf =>
    hleast k ((hmem k).mpr ⟨m, hm, hon, hkf⟩) hkb⟩

/-- The world in which `f` is the first seed and fails, and `w` the
second. Up to the order with the number `last` everybody else is
preferred to `b`, and from there on the keys have their turn. -/
def Sys.losing (s : Sys) (b f w : String) (last : Nat) : Env :=
  .steered (fun pod => bit (pod != b)) (· == f) fun i =>
    if i = s.orders + 1 + GoMap.count Member.online s.members then
      ((Order.stored String).deferring (· != w)).deferring (· != f)
    else if i < last then (Order.stored String).deferring (· != b)
    else ((Order.stored String).deferring (· == b)).deferring
      (· == (s.members.range (Order.stored String)).getD
        ((i - last) / 2) b)

theorem Sys.losing_obeys (s : Sys) (b f w : String) (last : Nat) :
    Obeys (s.losing b f w last) (· == f) := Env.steered_obeys _ _ _

theorem Sys.losing_defers (s : Sys) (b f w : String) (last : Nat) :
    Defers (s.losing b f w last) b
      (s.orders + 1 + GoMap.count Member.online s.members) last := by
  intro i hlow hhigh
  show (if i = _ then _ else if i < last then _ else _) = _
  rw [if_neg (by omega), if_pos hhigh]

theorem Sys.losing_visits (s : Sys) (b f w : String) {last : Nat}
    (hlast : s.orders + 1 + GoMap.count Member.online s.members < last) :
    VisitsInTurn (s.losing b f w last) b
      (s.members.range (Order.stored String)) last := by
  intro i hi
  show (if i = _ then _ else if i < last then _ else _) = _
  rw [if_neg (by omega), if_neg (by omega)]

/-- What is known of the state behind the seeding loop, and of the member
set `ms` in front of it. -/
structure Misled (s : Sys) (b f w : String) (ms : MemberSet) (t : Sys) :
    Prop where
  pivoted : Pivoted b f s.spec.getNumReplicas
    (s.members.range (Order.stored String)) ms
  unseeded : ms.appPrimaries = 0
  same : ∀ k m, ms.lookup k = some m →
    ∃ m₀ n, s.members.lookup k = some m₀ ∧ m = { m₀ with seq := n }
  failing : ∃ m, ms.lookup f = some m ∧ m.eligible = true
    ∧ m.appRunning = true
  starting : ∃ m, ms.lookup w = some m ∧ m.eligible = true
  members : t.members = (ms.modify f Member.noteFailure).modify w
    (Member.noteStarted true)
  orders : t.orders
    = s.orders + 1 + GoMap.count Member.online s.members + 3

/-- What is read makes `b` the pivot. -/
theorem pivoted_of_read {b f : String} {s₁ : Sys}
    (hs : s.members.WellKeyed)
    (hcomplete : s.members.activeMembers = s.spec.getNumReplicas)
    (hdetect : detectStage env s = .ret () s₁)
    (hread : ∀ k m, s₁.members.lookup k = some m → ∃ m₀ n,
      s.members.lookup k = some m₀ ∧ m = { m₀ with seq := n }
        ∧ (m₀.online = true → n = (k != b).toNat))
    (hleast : ∀ k m, s.members.lookup k = some m → m.online = true →
      k ≠ b → k ≠ f → b < k) :
    Pivoted b f s.spec.getNumReplicas
      (s.members.range (Order.stored String)) s₁.members := by
  refine ⟨?_, ?_, ?_, ?_, ?_⟩
  · intro k m hm
    obtain ⟨m₀, n, hm₀, rfl, -⟩ := hread k m hm
    exact hs k m₀ hm₀
  · intro k m hm
    obtain ⟨m₀, n, hm₀, rfl, -⟩ := hread k m hm
    exact GoMap.mem_range.mpr ⟨m₀, hm₀⟩
  · rw [← hcomplete]
    exact congrArg Nat.cast (detected_count (fun _ _ => rfl) hdetect)
  · intro k m hm hon
    obtain ⟨m₀, n, -, rfl, hn⟩ := hread k m hm
    exact hn hon
  · intro k m hm hon
    obtain ⟨m₀, n, hm₀, rfl, -⟩ := hread k m hm
    exact hleast k m₀ hm₀ hon

theorem losing_seeded {b f w : String} {mf mw : Member}
    (hs : s.members.WellKeyed)
    (hunseeded : s.members.appPrimaries = 0)
    (hcomplete : s.members.activeMembers = s.spec.getNumReplicas)
    (hwork : s.members.appPrimaries ≠ s.spec.getNumPrimaries
      ∨ s.members.appMembers ≠ s.spec.getNumReplicas)
    (hf : s.members.lookup f = some mf) (hfel : mf.eligible = true)
    (hrun : mf.appRunning = true)
    (hw : s.members.lookup w = some mw) (hwel : mw.eligible = true)
    (hwf : w ≠ f) (hbf : b ≠ f)
    (hleast : ∀ k m, s.members.lookup k = some m → m.online = true →
      k ≠ b → k ≠ f → b < k) (last : Nat) :
    ∃ s₁ t, detectStage (s.losing b f w last) s = .ret () s₁
      ∧ seedStage (s.losing b f w last) s₁ = (none, t)
      ∧ Misled s b f w s₁.members t := by
  obtain ⟨s₁, hdetect, hread, hord⟩ := @detectStage_bits
    (s.losing b f w last) s (· != b) (fun _ _ => rfl) hs hwork
  have hpivoted := pivoted_of_read hs hcomplete hdetect hread hleast
  have hunseeded₁ : s₁.members.appPrimaries = 0 := by
    rw [← hunseeded]
    exact congrArg Nat.cast (detected_count (fun _ _ => rfl) hdetect)
  obtain ⟨nf, hf₁⟩ := lookup_detectStage hdetect hf
  obtain ⟨nw, hw₁⟩ := lookup_detectStage hdetect hw
  have hvisit : s₁.order (s.losing b f w last)
      = ((Order.stored String).deferring (· != w)).deferring (· != f) := by
    show (if s₁.orders = _ then _ else _) = _
    rw [if_pos hord]
  have htop : ∀ k m, s₁.members.lookup k = some m → m.eligible = true →
      m.seq ≤ ({ mf with seq := nf } : Member).seq := by
    intro k m hm hel
    rw [hpivoted.seq k m hm (Member.eligible_iff.mp hel).1,
      hpivoted.seq f _ hf₁ (Member.eligible_iff.mp hfel).1,
      bne_iff_ne.mpr hbf.symm]
    exact Bool.toNat_le _
  obtain ⟨rest, hlist⟩ := seedList_pair hvisit hf₁ hfel htop hw₁ hwel hwf
  obtain ⟨t, hseed, hmem, hord'⟩ := seedStage_next (s.losing_obeys b f w last)
    hunseeded₁ hlist (by simpa using hs f mf hf)
    (by simpa [hs w mw hw] using hwf)
  refine ⟨s₁, t, hdetect, hseed, hpivoted, hunseeded₁, ?_,
    ⟨_, hf₁, hfel, hrun⟩, ⟨_, hw₁, hwel⟩, hmem, ?_⟩
  · intro k m hm
    obtain ⟨m₀, n, hm₀, heq, -⟩ := hread k m hm
    exact ⟨m₀, n, hm₀, heq⟩
  · rw [hord', hord]

/-- What a failed seed leaves, whoever comes after it. -/
theorem Fallen.of_failure {f w : String} {mf : Member}
    (hf : ms.lookup f = some mf) (hwf : w ≠ f) (g : Member → Member) :
    Fallen f ((ms.modify f Member.noteFailure).modify w g) :=
  Fallen.modify ⟨mf.noteFailure, GoMap.lookup_modify_of_some hf, rfl⟩ hwf g

section Misled

variable {b f w : String}

theorem Misled.lookup (h : Misled s b f w ms t)
    (hm : t.members.lookup k = some m) :
    m.appRunning = true ∨ k ≠ f ∧ k ≠ w ∧ ms.lookup k = some m := by
  rw [h.members] at hm
  rw [GoMap.lookup_modify] at hm
  split at hm
  · obtain ⟨m', -, rfl⟩ := Option.map_eq_some_iff.mp hm
    exact Or.inl rfl
  · next hkw =>
    rw [GoMap.lookup_modify] at hm
    split at hm
    · next hkf =>
      obtain ⟨m', hm', rfl⟩ := Option.map_eq_some_iff.mp hm
      obtain ⟨mf, hmf, -, hrun⟩ := h.failing
      rw [hkf] at hm'
      obtain rfl : m' = mf := Option.some.inj (hm'.symm.trans hmf)
      exact Or.inl hrun
    · next hkf => exact Or.inr ⟨hkf, hkw, hm⟩

theorem Misled.fallen (h : Misled s b f w ms t) (hwf : w ≠ f) :
    Fallen f t.members := by
  obtain ⟨m, hm, -⟩ := h.failing
  rw [h.members]
  exact Fallen.of_failure hm hwf _

theorem Misled.healthy (h : Misled s b f w ms t)
    (hfine : ∀ k m, s.members.lookup k = some m → m.appFailed = false) :
    ∀ k m, ms.lookup k = some m → m.appFailed = false := by
  intro k m hm
  obtain ⟨m₀, n, hm₀, rfl⟩ := h.same k m hm
  exact hfine k m₀ hm₀

theorem Misled.pivoted_after (h : Misled s b f w ms t) :
    Pivoted b f s.spec.getNumReplicas
      (s.members.range (Order.stored String)) t.members := by
  rw [h.members]
  exact (h.pivoted.modify (g := Member.noteFailure) (fun _ => rfl)
    (fun _ => rfl) (fun _ => rfl) f).modify (g := Member.noteStarted true)
    (fun _ => rfl) (fun _ => rfl) (fun _ => rfl) w

theorem Misled.other (h : Misled s b f w ms t) (hkf : k ≠ f) (hkw : k ≠ w)
    (hm : ms.lookup k = some m) : t.members.lookup k = some m := by
  rw [h.members, GoMap.lookup_modify_ne hkw, GoMap.lookup_modify_ne hkf]
  exact hm

/-- The second seed, in the set it is picked from. -/
theorem Misled.seed (h : Misled s b f w ms t) (hwf : w ≠ f) :
    ∃ m, (ms.modify f Member.noteFailure).lookup w = some m
      ∧ m.eligible = true := by
  obtain ⟨m, hm, hel⟩ := h.starting
  exact ⟨m, by rw [GoMap.lookup_modify_ne hwf]; exact hm, hel⟩

/-- There is one primary, and two candidates less. -/
theorem Misled.counts (h : Misled s b f w ms t) (hwf : w ≠ f) :
    t.members.appPrimaries = 1
      ∧ GoMap.count Member.eligible t.members + 2
        = GoMap.count Member.eligible ms := by
  obtain ⟨mf, hf, hfel, -⟩ := h.failing
  obtain ⟨mw, hw, hwel⟩ := h.seed hwf
  obtain ⟨hsame, hless, -, -⟩ := failed_counts hf hfel
  obtain ⟨hone, hless', -, -⟩ := promoted_counts hw hwel
  have hzero := h.unseeded
  rw [h.members]
  constructor
  · omega
  · omega

/-- Only the second seed is a primary that counts. -/
theorem Misled.sole (h : Misled s b f w ms t) : Sole w t.members := by
  intro k m hm hpr
  have hkeyed := h.pivoted_after.keyed k m hm
  have hnone : ∀ {k' m'}, ms.lookup k' = some m' →
      m'.isPrimary = false := fun hm' =>
    MemberSet.appPrimaries_eq_zero h.unseeded hm'
  rw [h.members, GoMap.lookup_modify] at hm
  split at hm
  · next hkw =>
    obtain ⟨m', -, rfl⟩ := Option.map_eq_some_iff.mp hm
    exact ⟨hkw, hkw ▸ hkeyed, rfl⟩
  · rcases GoMap.lookup_modify_some hm with ⟨-, m', hm', rfl⟩ | hm'
    · have hpr' : m'.isPrimary = true := hpr
      rw [hnone hm'] at hpr'
      cases hpr'
    · rw [hnone hm'] at hpr
      cases hpr

theorem Misled.stoppables (h : Misled s b f w ms t) (hwf : w ≠ f) :
    GoMap.count Member.stoppable t.members
      = GoMap.count Member.stoppable ms + 1 := by
  obtain ⟨mf, hf, hfel, -⟩ := h.failing
  obtain ⟨mw, hw, hwel⟩ := h.seed hwf
  obtain ⟨-, -, hprf⟩ := Member.eligible_iff.mp hfel
  obtain ⟨-, -, hprw⟩ := Member.eligible_iff.mp hwel
  have hfail := GoMap.count_modify (p := Member.stoppable)
    Member.noteFailure hf
  have hstart := GoMap.count_modify (p := Member.stoppable)
    (Member.noteStarted true) hw
  have hf₀ : mf.stoppable = false := by simp [Member.stoppable, hprf]
  have hf₁ : mf.noteFailure.stoppable = false := by
    simp [Member.stoppable, Member.noteFailure]
  have hw₀ : mw.stoppable = false := by simp [Member.stoppable, hprw]
  have hw₁ : (mw.noteStarted true).stoppable = true := rfl
  rw [hf₀, hf₁, Bool.toNat_false] at hfail
  rw [hw₀, hw₁, Bool.toNat_false, Bool.toNat_true] at hstart
  rw [h.members]
  omega

/-- If everybody who was there was a candidate, the promotion loop can
start. -/
theorem Misled.promoting (h : Misled s b f w ms t) (hwf : w ≠ f)
    (hbf : b ≠ f) (hwb : w ≠ b)
    (hall : ∀ k m, ms.lookup k = some m → m.eligible = m.online)
    (hb : ∃ m, ms.lookup b = some m ∧ m.eligible = true)
    (hsome : 0 < primaries) :
    Promoting b f s.spec.getNumReplicas primaries
      (s.members.range (Order.stored String))
      (s.orders + 1 + GoMap.count Member.online s.members)
      (s.orders + 1 + GoMap.count Member.online s.members + 3
        + 2 * (primaries - 1).toNat) t := by
  obtain ⟨hone, hless⟩ := h.counts hwf
  have hcount := GoMap.count_congr hall
  have hactive := h.pivoted.active
  have hord := h.orders
  refine ⟨h.pivoted_after, h.fallen hwf, ?_, ?_, ?_, ?_, ?_, ?_⟩
  · intro k m hm hon
    rcases h.lookup hm with hrun | ⟨-, -, hm₁⟩
    · exact Or.inl hrun
    · exact Or.inr ((hall k m hm₁).trans hon)
  · intro _ _ _ _
    obtain ⟨mb, hmb, hbel⟩ := hb
    exact ⟨mb, h.other hbf hwb.symm hmb, hbel⟩
  · unfold MemberSet.activeMembers at hactive
    omega
  · omega
  · omega
  · omega

/-- If nobody had failed before, the demotion loop can start. -/
theorem Misled.stopping (h : Misled s b f b ms t) (hbf : b ≠ f)
    (hfine : ∀ k m, ms.lookup k = some m → m.appFailed = false) :
    Stopping b f (Pivoted b f s.spec.getNumReplicas
        (s.members.range (Order.stored String)))
      (s.orders + 1 + GoMap.count Member.online s.members + 3
        + 2 * (GoMap.count Member.stoppable ms + 1)) t := by
  have hfallen := h.fallen hbf
  refine ⟨h.pivoted_after, h.pivoted_after.keyed, hfallen, ?_, h.sole, ?_,
    ?_, ?_⟩
  · obtain ⟨mb, hb, hbel⟩ := h.seed hbf
    refine ⟨mb.noteStarted true, ?_, ?_⟩
    · rw [h.members]
      exact GoMap.lookup_modify_of_some hb
    · exact Member.isPrimary_iff.mpr
        ⟨(Member.eligible_iff.mp hbel).1, rfl, rfl⟩
  · intro k m hm hon
    rcases h.lookup hm with hrun | ⟨-, -, hm₁⟩
    · exact Or.inl hrun
    · have hfine₁ := hfine k m hm₁
      by_cases hpr : m.appPrimary = true
      · exact Or.inr (Or.inr (Member.stoppable_iff.mpr ⟨hpr, hfine₁⟩))
      · exact Or.inr (Or.inl (Member.eligible_iff.mpr
          ⟨hon, hfine₁, Bool.not_eq_true _ ▸ hpr⟩))
  · intro k m hm hon hst hkb
    exact h.pivoted_after.least k m hm hon hkb
      (hfallen.ne hm (Member.stoppable_iff.mp hst).2)
  · have hord := h.orders
    rw [h.stoppables hbf]
    omega

end Misled

/-- Among three candidates there is one besides any two. -/
theorem exists_third {b f : String} {mb mf : Member}
    (hf : ms.lookup f = some mf) (hfel : mf.eligible = true)
    (hb : ms.lookup b = some mb) (hbel : mb.eligible = true) (hbf : b ≠ f)
    (h : 2 < GoMap.count Member.eligible ms) :
    ∃ w mw, ms.lookup w = some mw ∧ mw.eligible = true ∧ w ≠ f
      ∧ w ≠ b := by
  have hb' : (ms.modify f Member.noteFailure).lookup b = some mb := by
    rw [GoMap.lookup_modify_ne hbf]
    exact hb
  have hless := count_eligible_noteFailure hf hfel
  have hless' := count_eligible_noteFailure hb' hbel
  obtain ⟨w, mw, hw, hwel⟩ := (GoMap.count_pos_iff (p := Member.eligible)
    (m := (ms.modify f Member.noteFailure).modify b Member.noteFailure)).mp
    (by omega)
  rcases GoMap.lookup_modify_known hb' hw with ⟨-, rfl⟩ | ⟨hwb, hw⟩
  · simp [Member.eligible, Member.noteFailure] at hwel
  · rcases GoMap.lookup_modify_known hf hw with ⟨-, rfl⟩ | ⟨hwf, hw⟩
    · simp [Member.eligible, Member.noteFailure] at hwel
    · exact ⟨w, mw, hw, hwel, hwf, hwb⟩

/-- With primaries wanted and nobody marked as one, the failure gets
lost. -/
theorem swallowed_wanted (hs : s.members.WellKeyed)
    (hfine : ∀ k m, s.members.lookup k = some m → m.appFailed = false)
    (h : Swallows s) (hsome : s.spec.getNumPrimaries ≠ 0) :
    ∃ env fuel s', replicate env fuel s = .ret [] s'
      ∧ ∃ k, Fallen k s'.members := by
  obtain ⟨f, mf, w₀, mw₀, hf, hw₀, hwf₀, hfel, hrun, hwel₀, hmarked⟩ :=
    h.seeds
  have hall : ∀ k m, s.members.lookup k = some m →
      m.eligible = m.online := by
    intro k m hm
    cases hon : m.online with
    | false => simp [Member.eligible, hon]
    | true =>
        have hpr : m.appPrimary = false := by
          rw [← Bool.not_eq_true]
          exact fun hpr => hsome (hmarked k m hm hon hpr).1
        exact Member.eligible_iff.mpr ⟨hon, hfine k m hm, hpr⟩
  obtain ⟨b, mb, hb, honb, hbf, hleast⟩ := s.members.exists_pivot hw₀
    (Member.eligible_iff.mp hwel₀).1 hwf₀
  have hbel : mb.eligible = true := (hall b mb hb).trans honb
  -- with three candidates there is a second seed besides the pivot
  have hcount : GoMap.count Member.eligible s.members
      = GoMap.count Member.online s.members := GoMap.count_congr hall
  have hcomplete := h.complete
  have hnonneg := s.spec.getNumPrimaries_nonneg
  have hfew := h.few
  have hmin := s.spec.minClusterSize_le_getNumReplicas (by omega)
  obtain ⟨w, mw, hw, hwel, hwf, hwb⟩ := exists_third hf hfel hb hbel hbf
    (by
      unfold MemberSet.activeMembers at hcomplete
      unfold minClusterSize at hmin
      omega)
  let last := s.orders + 1 + GoMap.count Member.online s.members + 3
    + 2 * (s.spec.getNumPrimaries - 1).toNat
  let keys := s.members.range (Order.stored String)
  obtain ⟨s₁, t, hdetect, hseed, hmis⟩ := losing_seeded hs h.unseeded
    hcomplete (Or.inl (by rw [h.unseeded]; exact hsome.symm)) hf hfel hrun
    hw hwel hwf hbf hleast last
  have hstart := hmis.promoting hwf hbf hwb
    (fun k m hm => by
      obtain ⟨m₀, n, hm₀, rfl⟩ := hmis.same k m hm
      exact hall k m₀ hm₀)
    (by
      obtain ⟨n, hb₁⟩ := lookup_detectStage hdetect hb
      exact ⟨_, hb₁, hbel⟩)
    (show 0 < s.spec.getNumPrimaries by omega)
  have hone := (hmis.counts hwf).1
  let fuel := (s.spec.getNumPrimaries - 1).toNat + 2 * keys.length + 3
  have hfuel : (s.spec.getNumPrimaries - t.members.appPrimaries).toNat
      < fuel := by omega
  have hfuel' : 2 * keys.length + 2 < fuel := by omega
  have henv := s.losing_obeys b f w last
  obtain ⟨t₁, hprom, hexact, hadding⟩ := promotions_spare henv
    (s.losing_defers b f w last) hstart hfew hfuel
  have hdem : loopStage (demoteTurn (s.losing b f w last)
      s.spec.getNumPrimaries) fuel [] t₁ = .ret [] t₁ :=
    loopStage_done (by omega) (demoteTurn_done (by omega) [])
  obtain ⟨t₂, hadd, hfallen⟩ := additions_end henv
    (s.losing_visits b f w (by omega)) hadding hfuel'
  have hfits := s.members.appMembers_le_active
  obtain ⟨s', hret, hmem⟩ := replicate_silent ⟨t, t₁, ⟨by omega,
    fun _ => hcomplete, s₁, hdetect, hseed⟩, hprom, hdem⟩ (by omega) hadd
  exact ⟨_, fuel, s', hret, f, hmem ▸ hfallen⟩

/-- With no primary wanted and members missing, it gets lost too: the
first primary and those that are marked as primaries are stopped and
started again. -/
theorem swallowed_unwanted (hs : s.members.WellKeyed)
    (hfine : ∀ k m, s.members.lookup k = some m → m.appFailed = false)
    (h : Swallows s) (hnone : s.spec.getNumPrimaries = 0)
    (hmissing : s.members.appMembers ≠ s.spec.getNumReplicas) :
    ∃ env fuel s', replicate env fuel s = .ret [] s'
      ∧ ∃ k, Fallen k s'.members := by
  obtain ⟨f, mf, w, mw, hf, hw, hwf, hfel, hrun, hwel, hmarked⟩ := h.seeds
  obtain ⟨b, mb, hb, honb, hbf, hleast⟩ := s.members.exists_pivot hw
    (Member.eligible_iff.mp hwel).1 hwf
  have hcomplete := h.complete
  -- the least name is not that of a marked member
  have hbel : mb.eligible = true := by
    refine Member.eligible_iff.mpr ⟨honb, hfine b mb hb, ?_⟩
    rw [← Bool.not_eq_true]
    intro hpr
    have hlt := (hmarked b mb hb honb hpr).2
    by_cases hwb : w = b
    · rw [hwb] at hlt
      exact String.lt_irrefl _ hlt
    · exact String.lt_irrefl _ (String.lt_trans hlt
        (hleast w mw hw (Member.eligible_iff.mp hwel).1 hwb hwf))
  let last := s.orders + 1 + GoMap.count Member.online s.members + 3
    + 2 * (GoMap.count Member.stoppable s.members + 1)
  let keys := s.members.range (Order.stored String)
  obtain ⟨s₁, t, hdetect, hseed, hmis⟩ := losing_seeded hs h.unseeded
    hcomplete (Or.inr hmissing) hf hfel hrun hb hbel hbf hbf hleast last
  have hstart := hmis.stopping hbf (hmis.healthy hfine)
  rw [detected_count (fun _ _ => rfl) hdetect] at hstart
  have hone := (hmis.counts hbf).1
  let fuel := GoMap.count Member.stoppable t.members + 2 * keys.length + 3
  have hfuel : GoMap.count Member.stoppable t.members < fuel := by omega
  have hfuel' : 2 * keys.length + 2 < fuel := by omega
  have henv := s.losing_obeys b f b last
  have hprom : loopStage (promoteTurn (s.losing b f b last)
      s.spec.getNumPrimaries) fuel [] t = .ret [] t :=
    loopStage_done (by omega) (promoteTurn_done (by omega))
  obtain ⟨t₁, hdem, hstopped⟩ := demotions_last henv
    (fun ms k m hms _ _ => hms.modify (g := Member.noteStopped)
      (fun _ => rfl) (fun _ => rfl) (fun _ => rfl) k) hstart hfuel
  rw [← hnone] at hdem
  have hadding : Adding b f s.spec.getNumReplicas keys last 0 t₁ :=
    ⟨hstopped.kept, hstopped.fallen, hstopped.settled,
      fun _ _ _ _ => hstopped.candidate, hstopped.orders,
      fun k m hm _ _ => hstopped.kept.covered k m hm⟩
  obtain ⟨t₂, hadd, hfallen⟩ := additions_end henv
    (s.losing_visits b f b (by omega)) hadding hfuel'
  have hfits := s.members.appMembers_le_active
  have hfew := h.few
  obtain ⟨s', hret, hmem⟩ := replicate_silent ⟨t, t, ⟨by omega,
    fun _ => hcomplete, s₁, hdetect, hseed⟩, hprom, hdem⟩ (by omega) hadd
  exact ⟨_, fuel, s', hret, f, hmem ▸ hfallen⟩

-- ====================================================== nothing to read

/-- The world for a call that does not read sequence numbers: `f` fails as
the first seed, `w` is the second, and is visited last later on. -/
def Sys.idling (s : Sys) (f w : String) : Env :=
  .steered (fun _ => "") (· == f) fun i =>
    if i = s.orders then
      ((Order.stored String).deferring (· != w)).deferring (· != f)
    else (Order.stored String).deferring (· == w)

theorem Sys.idling_obeys (s : Sys) (f w : String) :
    Obeys (s.idling f w) (· == f) := Env.steered_obeys _ _ _

/-- `w`, with the sequence number `n`, beats everybody who is there apart
from `f`, and is the only one who may be stopped. -/
structure Ranked (w f : String) (n : Nat) (replicas : Int)
    (ms : MemberSet) : Prop where
  keyed : ms.WellKeyed
  active : ms.activeMembers = replicas
  own : ∀ m, ms.lookup w = some m → m.seq = n
  others : ∀ k m, ms.lookup k = some m → m.online = true → k ≠ f → k ≠ w →
    m.seq < n ∨ w < k
  running : ∀ k m, ms.lookup k = some m → m.online = true → k ≠ w →
    m.appRunning = true ∧ m.appPrimary = false

theorem Ranked.modify {w f : String} {n : Nat} {g : Member → Member}
    (h : Ranked w f n replicas ms) (hname : ∀ m, (g m).name = m.name)
    (hon : ∀ m, (g m).online = m.online) (hseq : ∀ m, (g m).seq = m.seq)
    (hrun : k ≠ w → ∀ m, ms.lookup k = some m → m.online = true →
      (g m).appRunning = true ∧ (g m).appPrimary = false) :
    Ranked w f n replicas (ms.modify k g) := by
  refine ⟨h.keyed.modify hname k, ?_, ?_, ?_, ?_⟩
  · rw [← h.active]
    exact congrArg Nat.cast (GoMap.count_modify_eq (p := Member.online)
      (f := g) k hon ms)
  · intro m' hm'
    rcases GoMap.lookup_modify_some hm' with ⟨rfl, m, hm, rfl⟩ | hm
    · rw [hseq]
      exact h.own m hm
    · exact h.own m' hm
  · intro k' m' hm' hon'
    rcases GoMap.lookup_modify_some hm' with ⟨rfl, m, hm, rfl⟩ | hm
    · rw [hseq]
      exact h.others k' m hm ((hon m).symm.trans hon')
    · exact h.others k' m' hm hon'
  · intro k' m' hm' hon' hne
    rcases GoMap.lookup_modify_some hm' with ⟨rfl, m, hm, rfl⟩ | hm
    · exact hrun hne m hm ((hon m).symm.trans hon')
    · exact h.running k' m' hm hon' hne

/-- The failure of `f` and the start of `w` as the first primary. -/
theorem Ranked.seeded {w f : String} {n : Nat}
    (h : Ranked w f n replicas ms) :
    Ranked w f n replicas ((ms.modify f Member.noteFailure).modify w
      (Member.noteStarted true)) :=
  (h.modify (g := Member.noteFailure) (fun _ => rfl) (fun _ => rfl)
    (fun _ => rfl) fun hne m hm hon => h.running f m hm hon hne).modify
    (g := Member.noteStarted true) (fun _ => rfl) (fun _ => rfl)
    (fun _ => rfl) fun hne => absurd rfl hne

theorem Ranked.stopped {w f : String} {n : Nat}
    (h : Ranked w f n replicas ms) (hm : ms.lookup k = some m)
    (hst : m.stoppable = true) :
    Ranked w f n replicas (ms.modify k Member.noteStopped) := by
  refine h.modify (g := Member.noteStopped) (fun _ => rfl) (fun _ => rfl)
    (fun _ => rfl) fun hne m' hm' hon => ?_
  obtain rfl : m = m' := Option.some.inj (hm.symm.trans hm')
  simp [Member.stoppable, (h.running k m hm hon hne).2] at hst

/-- With `w` the first primary, the demotion loop can start. -/
theorem Ranked.stopping {w f : String} {n : Nat} {mw : Member}
    (h : Ranked w f n replicas t.members) (hfallen : Fallen f t.members)
    (hw : t.members.lookup w = some mw) (hpr : mw.isPrimary = true)
    (hfine : mw.appFailed = false) :
    Stopping w f (Ranked w f n replicas)
      (t.orders + 2 * GoMap.count Member.stoppable t.members) t := by
  refine ⟨h, h.keyed, hfallen, ⟨mw, hw, hpr⟩, ?_, ?_, ?_, rfl⟩
  · intro k m hm hprimary
    by_cases hk : k = w
    · subst hk
      obtain rfl : mw = m := Option.some.inj (hw.symm.trans hm)
      exact ⟨rfl, h.keyed k mw hm, hfine⟩
    · obtain ⟨hon, hmarked, -⟩ := Member.isPrimary_iff.mp hprimary
      rw [(h.running k m hm hon hk).2] at hmarked
      cases hmarked
  · intro k m hm hon
    by_cases hk : k = w
    · subst hk
      obtain rfl : mw = m := Option.some.inj (hw.symm.trans hm)
      exact Or.inl (Member.isPrimary_iff.mp hpr).2.2
    · exact Or.inl (h.running k m hm hon hk).1
  · intro k m hm hon hst hk
    simp [Member.stoppable, (h.running k m hm hon hk).2] at hst

/-- Among the candidates there is one with the largest sequence
number. -/
theorem MemberSet.exists_top (ms : MemberSet) (hm : ms.lookup k = some m)
    (hel : m.eligible = true) :
    ∃ f mf, ms.lookup f = some mf ∧ mf.eligible = true
      ∧ ∀ k m, ms.lookup k = some m → m.eligible = true →
        m.seq ≤ mf.seq := by
  have hmem : (k, m) ∈ candidates ms (Order.stored String) :=
    mem_candidates.mpr ⟨hm, hel⟩
  obtain ⟨⟨f, mf⟩, hfmem, hftop⟩ := exists_topSeq (List.ne_nil_of_mem hmem)
  obtain ⟨hf, hfel⟩ := mem_candidates.mp hfmem
  refine ⟨f, mf, hf, hfel, fun k m hm hel => ?_⟩
  rw [hftop]
  exact le_topSeq (e := (k, m)) (mem_candidates.mpr ⟨hm, hel⟩)

/-- Among the candidates apart from `f` there is one that beats the
others. -/
theorem MemberSet.exists_best (ms : MemberSet) {f k₀ : String}
    {m₀ : Member} (hm₀ : ms.lookup k₀ = some m₀)
    (hel₀ : m₀.eligible = true) (hne₀ : k₀ ≠ f) :
    ∃ w mw, ms.lookup w = some mw ∧ mw.eligible = true ∧ w ≠ f
      ∧ ∀ k m, ms.lookup k = some m → m.eligible = true → k ≠ f → k ≠ w →
        m.seq < mw.seq ∨ w < k := by
  let l := (candidates ms (Order.stored String)).filter fun e => e.1 != f
  have hmem : ∀ k m, (k, m) ∈ l ↔ ms.lookup k = some m
      ∧ m.eligible = true ∧ k ≠ f := by
    intro k m
    simp only [l, List.mem_filter, mem_candidates, bne_iff_ne, and_assoc]
  let top := (l.filter fun e => e.2.seq == topSeq l).map Prod.fst
  have htop : ∀ k, k ∈ top ↔ ∃ m, (k, m) ∈ l ∧ m.seq = topSeq l := by
    intro k
    simp [top]
  obtain ⟨e, he, hseq⟩ := exists_topSeq
    (List.ne_nil_of_mem ((hmem k₀ m₀).mpr ⟨hm₀, hel₀, hne₀⟩))
  obtain ⟨w, hw, hleast⟩ := exists_least
    (List.ne_nil_of_mem ((htop e.1).mpr ⟨e.2, he, hseq⟩))
  obtain ⟨mw, hmw, hwseq⟩ := (htop w).mp hw
  obtain ⟨hmw, hwel, hwf⟩ := (hmem w mw).mp hmw
  refine ⟨w, mw, hmw, hwel, hwf, fun k m hm hel hkf hkw => ?_⟩
  have hin := (hmem k m).mpr ⟨hm, hel, hkf⟩
  have hle : m.seq ≤ topSeq l := le_topSeq hin
  by_cases heq : m.seq = topSeq l
  · exact Or.inr (hleast k ((htop k).mpr ⟨m, hin, heq⟩) hkw)
  · exact Or.inl (by omega)

/-- The last loop needs one turn at most, for `w`. -/
theorem Ranked.addition {w f : String} {n : Nat}
    (h : Ranked w f n replicas t.members) (henv : Obeys env (· == f))
    (horder : t.order env = (Order.stored String).deferring (· == w))
    (hfallen : Fallen f t.members) {mw : Member}
    (hw : t.members.lookup w = some mw) (hwel : mw.eligible = true)
    (hfuel : 1 < fuel) :
    ∃ t', loopStage (secondaryTurn env replicas) fuel [] t = .ret [] t'
      ∧ Fallen f t'.members := by
  by_cases hlt : t.members.appMembers < replicas
  · have hpick : chooseMember t.c.peers (t.order env) = .ok (w, mw) := by
      rw [Sys.peers_of_lookup hw, horder]
      refine chooseMember_last hw hwel ?_ _
      intro k m hm hel hne
      obtain ⟨hon, hfail, -⟩ := Member.eligible_iff.mp hel
      show m.seq < mw.seq ∨ mw.name < m.name
      rw [h.own mw hw, h.keyed w mw hw, h.keyed k m hm]
      exact h.others k m hm hon (hfallen.ne hm hfail) hne
    obtain ⟨-, hfail, -⟩ := Member.eligible_iff.mp hwel
    obtain ⟨t', hnext, hmem, -⟩ := secondaryTurn_ok henv hlt hpick
      (hfallen.spares h.keyed hw hfail)
    have hranked : Ranked w f n replicas t'.members := by
      rw [hmem]
      exact h.modify (g := Member.noteStarted false) (fun _ => rfl)
        (fun _ => rfl) (fun _ => rfl) fun hne => absurd rfl hne
    have hfull : replicas ≤ t'.members.appMembers := by
      rw [← hranked.active]
      refine Int.ofNat_le.mpr (GoMap.count_mono ?_)
      intro k m hm hon
      refine Member.isRunning_iff.mpr ⟨hon, ?_⟩
      rw [hmem] at hm
      rcases GoMap.lookup_modify_known hw hm with ⟨-, rfl⟩ | ⟨hk, hm⟩
      · rfl
      · exact (h.running k m hm hon hk).1
    refine ⟨t', ?_, ?_⟩
    · obtain ⟨n, rfl⟩ : ∃ n, fuel = n + 2 := ⟨fuel - 2, by omega⟩
      unfold loopStage
      rw [if_pos rfl, loop_of_next hnext,
        loop_of_end (secondaryTurn_done hfull)]
    · rw [hmem]
      exact hfallen.modify (hfallen.ne hw hfail) _
  · exact ⟨t, loopStage_done (by omega) (secondaryTurn_done (by omega)),
      hfallen⟩

/-- The two seeds that matter: the first has a largest sequence number, the
second is the best of the others. -/
theorem Swallows.seed_pair (h : Swallows s) :
    ∃ f mf w mw, s.members.lookup f = some mf ∧ mf.eligible = true
      ∧ (∀ k m, s.members.lookup k = some m → m.eligible = true →
        m.seq ≤ mf.seq)
      ∧ s.members.lookup w = some mw ∧ mw.eligible = true ∧ w ≠ f
      ∧ ∀ k m, s.members.lookup k = some m → m.eligible = true → k ≠ f →
        k ≠ w → m.seq < mw.seq ∨ w < k := by
  obtain ⟨f₀, mf₀, w₀, mw₀, hf₀, hw₀, hwf₀, hfel₀, -, hwel₀, -⟩ := h.seeds
  obtain ⟨f, mf, hf, hfel, htop⟩ := s.members.exists_top hf₀ hfel₀
  have hother : ∃ k m, s.members.lookup k = some m ∧ m.eligible = true
      ∧ k ≠ f := by
    by_cases heq : w₀ = f
    · exact ⟨f₀, mf₀, hf₀, hfel₀, heq ▸ hwf₀.symm⟩
    · exact ⟨w₀, mw₀, hw₀, hwel₀, heq⟩
  obtain ⟨k₀, m₀, hm₀, hel₀, hne₀⟩ := hother
  obtain ⟨w, mw, hw, hwel, hwf, hbest⟩ :=
    s.members.exists_best hm₀ hel₀ hne₀
  exact ⟨f, mf, w, mw, hf, hfel, htop, hw, hwel, hwf, hbest⟩

/-- The seeding of such a call: `f` falls, `w` is started, and everybody
else runs. -/
theorem idling_seeded (hs : s.members.WellKeyed)
    (hfine : ∀ k m, s.members.lookup k = some m → m.appFailed = false)
    (h : Swallows s) (hnone : s.spec.getNumPrimaries = 0)
    (hfull : s.members.appMembers = s.spec.getNumReplicas) :
    ∃ f w n t, detectStage (s.idling f w) s = .ret () s
      ∧ seedStage (s.idling f w) s = (none, t) ∧ s.orders < t.orders
      ∧ Stopping w f (Ranked w f n s.spec.getNumReplicas)
          (t.orders + 2 * GoMap.count Member.stoppable t.members) t := by
  have hcomplete := h.complete
  have hall : ∀ k m, s.members.lookup k = some m → m.online = true →
      m.appRunning = true ∧ m.appPrimary = false
        ∧ m.eligible = true := by
    intro k m hm hon
    have hrun := MemberSet.running_of_full (by omega) hm hon
    have hel := eligible_of_running h.unseeded hm (hfine k m hm) hon hrun
    exact ⟨hrun, (Member.eligible_iff.mp hel).2.2, hel⟩
  obtain ⟨f, mf, w, mw, hf, hfel, htop, hw, hwel, hwf, hbest⟩ := h.seed_pair
  have hdetect : detectStage (s.idling f w) s = .ret () s := by
    unfold detectStage
    rw [if_neg]
    rw [h.unseeded, hnone, hfull]
    simp
  have hvisit : s.order (s.idling f w)
      = ((Order.stored String).deferring (· != w)).deferring (· != f) := by
    show (if s.orders = s.orders then _ else _) = _
    rw [if_pos rfl]
  obtain ⟨rest, hlist⟩ := seedList_pair hvisit hf hfel htop hw hwel hwf
  obtain ⟨t, hseed, hmem, hord⟩ := seedStage_next (s.idling_obeys f w)
    h.unseeded hlist
    (by simpa using hs f mf hf) (by simpa [hs w mw hw] using hwf)
  have hbefore : Ranked w f mw.seq s.spec.getNumReplicas s.members := by
    refine ⟨hs, hcomplete, ?_, ?_, ?_⟩
    · intro m hm
      rw [Option.some.inj (hw.symm.trans hm)]
    · intro k m hm hon
      exact hbest k m hm (hall k m hm hon).2.2
    · intro k m hm hon _
      exact ⟨(hall k m hm hon).1, (hall k m hm hon).2.1⟩
  have hranked : Ranked w f mw.seq s.spec.getNumReplicas t.members := by
    rw [hmem]
    exact hbefore.seeded
  have hfallen : Fallen f t.members := by
    rw [hmem]
    exact Fallen.of_failure hf hwf _
  have hlook : t.members.lookup w = some (mw.noteStarted true) := by
    rw [hmem]
    refine GoMap.lookup_modify_of_some ?_
    rw [GoMap.lookup_modify_ne hwf]
    exact hw
  have hprimary : (mw.noteStarted true).isPrimary = true :=
    Member.isPrimary_iff.mpr ⟨(Member.eligible_iff.mp hwel).1, rfl, rfl⟩
  exact ⟨f, w, mw.seq, t, hdetect, hseed, by omega,
    hranked.stopping hfallen hlook hprimary rfl⟩

/-- With no primary wanted and all members running, the first primary is
stopped and started again, and nobody looks at the one that failed. -/
theorem swallowed_idle (hs : s.members.WellKeyed)
    (hfine : ∀ k m, s.members.lookup k = some m → m.appFailed = false)
    (h : Swallows s) (hnone : s.spec.getNumPrimaries = 0)
    (hfull : s.members.appMembers = s.spec.getNumReplicas) :
    ∃ env fuel s', replicate env fuel s = .ret [] s'
      ∧ ∃ k, Fallen k s'.members := by
  obtain ⟨f, w, n, t, hdetect, hseed, hord, hstart⟩ :=
    idling_seeded hs hfine h hnone hfull
  have henv := s.idling_obeys f w
  let fuel := GoMap.count Member.stoppable t.members + 2
  have hfuel : GoMap.count Member.stoppable t.members < fuel := by omega
  obtain ⟨t₁, hdem, hstopped⟩ := demotions_last henv
    (fun _ _ _ hms hm hst => hms.stopped hm hst) hstart hfuel
  rw [← hnone] at hdem
  have hnat : 0 ≤ t.members.appPrimaries := Int.natCast_nonneg _
  have hprom : loopStage (promoteTurn (s.idling f w)
      s.spec.getNumPrimaries) fuel [] t = .ret [] t :=
    loopStage_done (by omega) (promoteTurn_done (by omega))
  obtain ⟨mw', hw', hwel'⟩ := hstopped.candidate
  have horder : t₁.order (s.idling f w)
      = (Order.stored String).deferring (· == w) := by
    show (if t₁.orders = s.orders then _ else _) = _
    rw [if_neg (by have hlast := hstopped.orders; omega)]
  have hfuel' : 1 < fuel := by omega
  obtain ⟨t₂, hadd, hfallen⟩ := hstopped.kept.addition henv horder
    hstopped.fallen hw' hwel' hfuel'
  have hcomplete := h.complete
  have hfew := h.few
  obtain ⟨s', hret, hmem⟩ := replicate_silent ⟨t, t, ⟨by omega,
    fun _ => hcomplete, s, hdetect, hseed⟩, hprom, hdem⟩ (by omega) hadd
  exact ⟨_, fuel, s', hret, f, hmem ▸ hfallen⟩

/-- `replicate` reports every failure, whatever the answers and orders,
exactly in the states that do not swallow any. -/
theorem failures_reported_iff (s : Sys) (hs : s.members.WellKeyed)
    (hfine : ∀ k m, s.members.lookup k = some m → m.appFailed = false) :
    (∀ env fuel errors s', replicate env fuel s = .ret errors s' →
        (∃ k m, s'.members.lookup k = some m ∧ m.appFailed = true) →
        errors ≠ [])
      ↔ ¬ Swallows s := by
  constructor
  · intro hreports h
    have hlost : ∃ env fuel s', replicate env fuel s = .ret [] s'
        ∧ ∃ k, Fallen k s'.members := by
      by_cases hnone : s.spec.getNumPrimaries = 0
      · by_cases hfull : s.members.appMembers = s.spec.getNumReplicas
        · exact swallowed_idle hs hfine h hnone hfull
        · exact swallowed_unwanted hs hfine h hnone hfull
      · exact swallowed_wanted hs hfine h hnone
    obtain ⟨env, fuel, s', hret, hfallen⟩ := hlost
    exact hreports env fuel [] s' hret hfallen rfl
  · intro hnot env fuel errors s' hret hfailed hnil
    obtain ⟨k, m, hm, hfail⟩ := hfailed
    rw [hnil] at hret
    exact hnot (swallows_of_silent hs hfine hret hm hfail)

/-- With a primary there, nothing gets lost. -/
theorem failures_reported_seeded :
    let s := (Sys.start (.sized 3 1)).setPeers .onePrimary
    s.members.appPrimaries = 1
      ∧ ∀ env fuel errors s', replicate env fuel s = .ret errors s' →
        (∃ k m, s'.members.lookup k = some m ∧ m.appFailed = true) →
        errors ≠ [] := by
  intro s
  have hsound : MemberSet.Sound .onePrimary := by decide +kernel
  have hone : s.members.appPrimaries = 1 := by decide +kernel
  refine ⟨hone, (failures_reported_iff s hsound.keyed ?_).mpr ?_⟩
  · refine GoMap.forall_lookup_iff.mpr ?_
    decide +kernel
  · intro h
    have hnone := h.unseeded
    omega

/-- Three secondaries, of which `db-0` is the first seed: its start fails,
`db-1` becomes the primary, all three count as running, and the call
returns no error. -/
theorem failure_swallowed :
    let s := (Sys.start (.sized 3 1)).setPeers .threeSecondaries
    (∀ k m, s.members.lookup k = some m → m.appFailed = false)
      ∧ ∃ s', replicate .latestFails 9 s = .ret [] s'
        ∧ (s'.members.lookup "db-0").any Member.appFailed = true := by
  refine ⟨GoMap.forall_lookup_iff.mpr (by decide +kernel), ?_⟩
  have hrun : (match replicate .latestFails 9
      ((Sys.start (.sized 3 1)).setPeers .threeSecondaries) with
    | .ret errors s' => errors.isEmpty
        && (s'.members.lookup "db-0").any Member.appFailed
    | _ => false) = true := by decide +kernel
  split at hrun
  · next errors s' h =>
    rw [Bool.and_eq_true, List.isEmpty_iff] at hrun
    rw [hrun.1] at h
    exact ⟨s', h, hrun.2⟩
  · cases hrun

end RssOperator
