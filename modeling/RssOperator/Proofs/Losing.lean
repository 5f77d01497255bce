/-
Calls in which the first seed fails and nobody notices.

# The call

The candidate `f` is the first seed and fails, `w` is the second and
becomes the first primary. From there on every start and stop succeeds,
and this module leads the three loops to their ends without touching `f`.

# The loops

- The promotions (`promotions_spare`) take anybody but `b`, the candidate
  with the least name, as long as there is somebody else.
- The demotions, which only run if no primary is wanted, end with `w`
  (`demotions_last`): a member that is marked as a primary and offline is
  stopped at once, those that are there are stopped from the largest name
  on, and `w` has the least.
- The last loop is the hard one, as it may go on for ever with candidates
  that run already. The visiting orders send it once to every key, with
  `b` as the pivot that every other candidate beats (`additions_end`).
-/
import RssOperator.Proofs.Unsupported

namespace RssOperator

variable {env : Env} {s s' t : Sys} {ms ms' : MemberSet} {k : String}
  {m : Member} {fuel : Nat} {replicas primaries : Int}

-- ================================================= what the loops keep

/-- What the answers and the choice of `b` establish, and no loop changes:
the pivot `b` alone has the smaller sequence number, and the least name
of all who are there, apart from `f`. -/
structure Pivoted (b f : String) (replicas : Int) (keys : List String)
    (ms : MemberSet) : Prop where
  keyed : ms.WellKeyed
  covered : ∀ k m, ms.lookup k = some m → k ∈ keys
  active : ms.activeMembers = replicas
  seq : ∀ k m, ms.lookup k = some m → m.online = true →
    m.seq = (k != b).toNat
  least : ∀ k m, ms.lookup k = some m → m.online = true → k ≠ b → k ≠ f →
    b < k

theorem Pivoted.modify {b f : String} {keys : List String}
    {g : Member → Member}
    (h : Pivoted b f replicas keys ms) (hname : ∀ m, (g m).name = m.name)
    (hon : ∀ m, (g m).online = m.online) (hseq : ∀ m, (g m).seq = m.seq)
    (k : String) : Pivoted b f replicas keys (ms.modify k g) := by
  refine ⟨h.keyed.modify hname k, ?_, ?_, ?_, ?_⟩
  · intro k' m' hm'
    rcases GoMap.lookup_modify_some hm' with ⟨rfl, m, hm, -⟩ | hm
    · exact h.covered k' m hm
    · exact h.covered k' m' hm
  · rw [← h.active]
    exact congrArg Nat.cast (GoMap.count_modify_eq (p := Member.online)
      (f := g) k hon ms)
  · intro k' m' hm' hon'
    rcases GoMap.lookup_modify_some hm' with ⟨rfl, m, hm, rfl⟩ | hm
    · rw [hseq]
      exact h.seq k' m hm ((hon m).symm.trans hon')
    · exact h.seq k' m' hm hon'
  · intro k' m' hm' hon'
    rcases GoMap.lookup_modify_some hm' with ⟨rfl, m, hm, rfl⟩ | hm
    · exact h.least k' m hm ((hon m).symm.trans hon')
    · exact h.least k' m' hm hon'

/-- The member under `f` has failed. -/
def Fallen (f : String) (ms : MemberSet) : Prop :=
  ∃ m, ms.lookup f = some m ∧ m.appFailed = true

theorem Fallen.modify {f : String} (h : Fallen f ms) (hk : k ≠ f)
    (g : Member → Member) : Fallen f (ms.modify k g) := by
  obtain ⟨m, hm, hfail⟩ := h
  exact ⟨m, by rw [GoMap.lookup_modify_ne hk.symm]; exact hm, hfail⟩

/-- A member that is picked to be started or stopped is not `f`. -/
theorem Fallen.ne {f : String} (h : Fallen f ms)
    (hm : ms.lookup k = some m) (hfine : m.appFailed = false) : k ≠ f := by
  intro heq
  subst heq
  obtain ⟨m', hm', hfail⟩ := h
  obtain rfl : m = m' := Option.some.inj (hm.symm.trans hm')
  rw [hfine] at hfail
  cases hfail

/-- So the command on it succeeds. -/
theorem Fallen.spares {f : String} (h : Fallen f ms) (hs : ms.WellKeyed)
    (hm : ms.lookup k = some m) (hfine : m.appFailed = false) :
    (m.name == f) = false := by
  rw [hs k m hm]
  simpa using h.ne hm hfine

/-- Whoever is there runs or can be started. -/
def Settled (ms : MemberSet) : Prop :=
  ∀ k m, ms.lookup k = some m → m.online = true →
    m.appRunning = true ∨ m.eligible = true

theorem Settled.started (h : Settled ms) (asPrimary : Bool) (k : String) :
    Settled (ms.modify k (Member.noteStarted asPrimary)) := by
  intro k' m' hm' hon'
  rcases GoMap.lookup_modify_some hm' with ⟨-, m, -, rfl⟩ | hm
  · exact Or.inl rfl
  · exact h k' m' hm hon'

/-- As long as members are missing, somebody can be started that does not
run. -/
theorem Settled.missing (h : Settled ms)
    (hlt : ms.appMembers < ms.activeMembers) :
    ∃ k m, ms.lookup k = some m ∧ m.eligible = true
      ∧ m.appRunning = false := by
  by_contra hnone
  have hle : GoMap.count Member.online ms
      ≤ GoMap.count Member.isRunning ms := by
    refine GoMap.count_mono ?_
    intro k m hm hon
    cases hrun : m.appRunning with
    | true => simp [Member.isRunning, hon, hrun]
    | false =>
        rcases h k m hm hon with hrun' | hel
        · rw [hrun] at hrun'
          cases hrun'
        · exact absurd ⟨k, m, hm, hel, hrun⟩ hnone
  unfold MemberSet.appMembers MemberSet.activeMembers at hlt
  omega

/-- As long as anybody can be started, `b` can. -/
def Reserved (b : String) (ms : MemberSet) : Prop :=
  ∀ k m, ms.lookup k = some m → m.eligible = true →
    ∃ mb, ms.lookup b = some mb ∧ mb.eligible = true

/-- A secondary is a candidate as before. -/
theorem Reserved.added {b : String} (h : Reserved b ms)
    (hm : ms.lookup k = some m) (hel : m.eligible = true) :
    Reserved b (ms.modify k (Member.noteStarted false)) := by
  intro _ _ _ _
  obtain ⟨mb, hmb, hbel⟩ := h k m hm hel
  by_cases hb : b = k
  · subst hb
    refine ⟨_, GoMap.lookup_modify_of_some hmb, ?_⟩
    have hon := (Member.eligible_iff.mp hbel).1
    simp [Member.eligible, Member.noteStarted, hon]
  · exact ⟨mb, by rw [GoMap.lookup_modify_ne hb]; exact hmb, hbel⟩

/-- A promotion takes `b` last. -/
theorem Reserved.promoted {b : String} (h : Reserved b ms)
    (hm : ms.lookup k = some m)
    (hlast : k = b → ∀ k' m', ms.lookup k' = some m' →
      m'.eligible = true → k' = b) :
    Reserved b (ms.modify k (Member.noteStarted true)) := by
  intro k' m' hm' hel'
  rcases GoMap.lookup_modify_known hm hm' with ⟨-, rfl⟩ | ⟨hne, hk'⟩
  · simp [Member.eligible, Member.noteStarted] at hel'
  · by_cases hb : b = k
    · exact absurd ((hlast hb.symm k' m' hk' hel').trans hb) hne
    · obtain ⟨mb, hmb, hbel⟩ := h k' m' hk' hel'
      exact ⟨mb, by rw [GoMap.lookup_modify_ne hb]; exact hmb, hbel⟩

/-- Between `start` and `last` the orders prefer everybody else to `b`. -/
def Defers (env : Env) (b : String) (start last : Nat) : Prop :=
  ∀ i, start < i → i < last → env.order i
    = (Order.stored String).deferring (· != b)

/-- From `first` on every second order sends the choice to the next key,
and to `b` if that cannot be started. -/
def VisitsInTurn (env : Env) (b : String) (keys : List String)
    (first : Nat) : Prop :=
  ∀ i, first ≤ i → env.order i
    = ((Order.stored String).deferring (· == b)).deferring
        (· == keys.getD ((i - first) / 2) b)

-- ======================================================= the last loop

/-- What the last loop keeps, with `j` turns done: who is missing has its
turn still to come. -/
structure Adding (b f : String) (replicas : Int) (keys : List String)
    (first j : Nat) (t : Sys) : Prop where
  pivoted : Pivoted b f replicas keys t.members
  fallen : Fallen f t.members
  settled : Settled t.members
  reserved : Reserved b t.members
  orders : t.orders = first + 2 * j
  left : ∀ k m, t.members.lookup k = some m → m.eligible = true →
    m.appRunning = false → k ∈ keys.drop j

section Additions

variable {b f : String} {keys : List String} {first j : Nat}

/-- The `j`-th key is picked if it can be, and `b` otherwise. -/
theorem Adding.pick (h : Adding b f replicas keys first j t)
    (horder : VisitsInTurn env b keys first)
    (hlt : t.members.appMembers < replicas) :
    ∃ x, chooseMember t.c.peers (t.order env) = .ok x
      ∧ (∀ m, t.members.lookup (keys.getD j b) = some m →
        m.eligible = true → x.1 = keys.getD j b) := by
  have hactive := h.pivoted.active
  obtain ⟨k₀, m₀, hm₀, hel₀, -⟩ := h.settled.missing (by omega)
  obtain ⟨mb, hmb, hbel⟩ := h.reserved k₀ m₀ hm₀ hel₀
  have hleast : ∀ k m, t.members.lookup k = some m → m.eligible = true →
      k ≠ b → mb.name < m.name := by
    intro k m hm hel hne
    obtain ⟨hon, hfail, -⟩ := Member.eligible_iff.mp hel
    rw [h.pivoted.keyed b mb hmb, h.pivoted.keyed k m hm]
    exact h.pivoted.least k m hm hon hne (h.fallen.ne hm hfail)
  have hindex : (t.orders - first) / 2 = j := by
    have horders := h.orders
    omega
  have hvisit : t.order env
      = ((Order.stored String).deferring (· == b)).deferring
          (· == keys.getD j b) := by
    unfold Sys.order
    rw [horder _ (by have horders := h.orders; omega), hindex]
  rw [Sys.peers_of_lookup hmb, hvisit]
  by_cases hc : ∃ m, t.members.lookup (keys.getD j b) = some m
      ∧ m.eligible = true
  · obtain ⟨mc, hmc, hcel⟩ := hc
    refine ⟨_, chooseMember_target hmb hbel hleast hmc hcel ?_ _,
      fun _ _ _ => rfl⟩
    intro hne
    rw [h.pivoted.seq b mb hmb (Member.eligible_iff.mp hbel).1,
      h.pivoted.seq _ mc hmc (Member.eligible_iff.mp hcel).1]
    rw [bne_self_eq_false, bne_iff_ne.mpr hne]
    decide
  · refine ⟨_, chooseMember_pivot hmb hbel hleast ?_ _,
      fun m hm hel => absurd ⟨m, hm, hel⟩ hc⟩
    intro m hm
    rw [← Bool.not_eq_true]
    exact fun hel => hc ⟨m, hm, hel⟩

theorem Adding.turn (henv : Obeys env (· == f))
    (horder : VisitsInTurn env b keys first)
    (h : Adding b f replicas keys first j t)
    (hlt : t.members.appMembers < replicas) :
    j < keys.length
      ∧ ∃ t', secondaryTurn env replicas (t, []) = .inl (t', [])
        ∧ Adding b f replicas keys first (j + 1) t' := by
  have hactive := h.pivoted.active
  obtain ⟨k₀, m₀, hm₀, hel₀, hstop₀⟩ := h.settled.missing (by omega)
  have hmem₀ := h.left k₀ m₀ hm₀ hel₀ hstop₀
  have hj : j < keys.length := by
    by_contra hge
    rw [List.drop_eq_nil_of_le (by omega)] at hmem₀
    cases hmem₀
  refine ⟨hj, ?_⟩
  obtain ⟨x, hx, htarget⟩ := h.pick horder hlt
  obtain ⟨hm, hel⟩ := lookup_of_chooseMember hx
  obtain ⟨-, hfail, -⟩ := Member.eligible_iff.mp hel
  obtain ⟨t', hnext, hmem, hord⟩ := secondaryTurn_ok henv hlt hx
    (h.fallen.spares h.pivoted.keyed hm hfail)
  refine ⟨t', hnext, ?_, ?_, ?_, ?_, ?_, ?_⟩
  · rw [hmem]
    exact h.pivoted.modify (g := Member.noteStarted false) (fun _ => rfl)
      (fun _ => rfl) (fun _ => rfl) _
  · rw [hmem]
    exact h.fallen.modify (h.fallen.ne hm hfail) _
  · rw [hmem]
    exact h.settled.started false _
  · rw [hmem]
    exact h.reserved.added hm hel
  · have horders := h.orders
    omega
  · intro k m' hm' hel' hstop'
    rw [hmem] at hm'
    rcases GoMap.lookup_modify_known hm hm' with ⟨-, rfl⟩ | ⟨hne, hk⟩
    · cases hstop'
    · have hin := h.left k m' hk hel' hstop'
      rw [List.drop_eq_getElem_cons hj] at hin
      rcases List.mem_cons.mp hin with heq | hin
      · -- its turn was this one
        have hget : keys.getD j b = k := by
          rw [heq, List.getD_eq_getElem?_getD, List.getElem?_eq_getElem hj]
          rfl
        rw [hget] at htarget
        exact absurd (htarget m' hk hel').symm hne
      · exact hin

/-- The last loop comes to its end. -/
theorem additions_end (henv : Obeys env (· == f))
    (horder : VisitsInTurn env b keys first)
    (h : Adding b f replicas keys first 0 t)
    (hfuel : 2 * keys.length + 2 < fuel) :
    ∃ t', loopStage (secondaryTurn env replicas) fuel [] t = .ret [] t'
      ∧ Fallen f t'.members := by
  have hturn : ∀ t, (∃ j, Adding b f replicas keys first j t) →
      (∃ t', secondaryTurn env replicas (t, []) = .inl (t', [])
        ∧ (∃ j, Adding b f replicas keys first j t')
        ∧ first + 2 * keys.length + 2 - t'.orders
          < first + 2 * keys.length + 2 - t.orders)
      ∨ secondaryTurn env replicas (t, []) = .inr (t, []) ∧ True := by
    intro t ht
    obtain ⟨j, ht⟩ := ht
    by_cases hlt : t.members.appMembers < replicas
    · obtain ⟨hj, t', hnext, ht'⟩ := Adding.turn henv horder ht hlt
      refine Or.inl ⟨t', hnext, ⟨j + 1, ht'⟩, ?_⟩
      have h₁ := ht.orders
      have h₂ := ht'.orders
      omega
    · exact Or.inr ⟨secondaryTurn_done (by omega), trivial⟩
  have horders := h.orders
  obtain ⟨t', hend, ⟨j, ht'⟩, -⟩ := loopStage_ends
    (fun t => first + 2 * keys.length + 2 - t.orders) hturn fuel t ⟨0, h⟩
    (by omega)
  exact ⟨t', hend, ht'.fallen⟩

end Additions

-- ======================================================= the promotions

/-- What the promotion loop keeps: apart from `f`, who is there is a
primary or a candidate. -/
structure Promoting (b f : String) (replicas primaries : Int)
    (keys : List String) (start last : Nat) (t : Sys) : Prop where
  pivoted : Pivoted b f replicas keys t.members
  fallen : Fallen f t.members
  settled : Settled t.members
  reserved : Reserved b t.members
  count : GoMap.count Member.eligible t.members + t.members.appPrimaries + 1
    = replicas
  few : t.members.appPrimaries ≤ primaries
  later : start < t.orders
  orders : t.orders + 2 * (primaries - t.members.appPrimaries) = last

section Promotions

variable {b f : String} {keys : List String} {start last : Nat}

/-- Somebody else than `b` is picked if possible. -/
theorem Promoting.pick
    (h : Promoting b f replicas primaries keys start last t)
    (horder : Defers env b start last)
    (hlt : t.members.appPrimaries < primaries)
    (hfew : primaries < replicas) :
    ∃ x, chooseMember t.c.peers (t.order env) = .ok x
      ∧ (x.1 = b → ∀ k m, t.members.lookup k = some m →
        m.eligible = true → k = b) := by
  have hcount := h.count
  have hpos : 0 < GoMap.count Member.eligible t.members := by omega
  obtain ⟨k₀, m₀, hm₀, hel₀⟩ := GoMap.count_pos_iff.mp hpos
  have hvisit : t.order env
      = (Order.stored String).deferring (· != b) := by
    have horders := h.orders
    exact horder _ h.later (by omega)
  rw [Sys.peers_of_lookup hm₀, hvisit]
  by_cases hother : ∃ k m, t.members.lookup k = some m
      ∧ m.eligible = true ∧ k ≠ b
  · obtain ⟨k, m, hm, hel, hne⟩ := hother
    have hseq : ∀ k m, t.members.lookup k = some m → m.eligible = true →
        m.seq = (k != b).toNat := fun k m hm hel =>
      h.pivoted.seq k m hm (Member.eligible_iff.mp hel).1
    obtain ⟨x, hx, hhigh⟩ := chooseMember_high hseq hm hel
      (by simpa using hne) (Order.stored String)
    exact ⟨x, hx, fun heq => absurd heq (by simpa using hhigh)⟩
  · obtain ⟨x, hx⟩ := chooseMember_of_eligible
      ((Order.stored String).deferring (· != b)) hm₀ hel₀
    refine ⟨x, hx, fun _ k m hm hel => ?_⟩
    by_contra hne
    exact hother ⟨k, m, hm, hel, hne⟩

theorem Promoting.turn (henv : Obeys env (· == f))
    (horder : Defers env b start last)
    (h : Promoting b f replicas primaries keys start last t)
    (hlt : t.members.appPrimaries < primaries)
    (hfew : primaries < replicas) :
    ∃ t', promoteTurn env primaries (t, []) = .inl (t', [])
      ∧ Promoting b f replicas primaries keys start last t'
      ∧ t'.members.appPrimaries = t.members.appPrimaries + 1 := by
  obtain ⟨x, hx, hlast⟩ := h.pick horder hlt hfew
  obtain ⟨hm, hel⟩ := lookup_of_chooseMember hx
  obtain ⟨-, hfail, -⟩ := Member.eligible_iff.mp hel
  obtain ⟨t', hnext, hmem, hord⟩ := promoteTurn_ok henv hlt hx
    (h.fallen.spares h.pivoted.keyed hm hfail)
  obtain ⟨hone, hless, -, -⟩ := promoted_counts hm hel
  have hcount := h.count
  have hlater := h.later
  have horders := h.orders
  refine ⟨t', hnext, ⟨?_, ?_, ?_, ?_, ?_, ?_, ?_, ?_⟩, ?_⟩
  · rw [hmem]
    exact h.pivoted.modify (g := Member.noteStarted true) (fun _ => rfl)
      (fun _ => rfl) (fun _ => rfl) _
  · rw [hmem]
    exact h.fallen.modify (h.fallen.ne hm hfail) _
  · rw [hmem]
    exact h.settled.started true _
  · rw [hmem]
    exact h.reserved.promoted hm hlast
  · rw [hmem]
    omega
  · rw [hmem]
    omega
  · omega
  · rw [hmem]
    omega
  · rw [hmem]
    exact hone

/-- The promotion loop comes to its end, with `b` kept for the last
loop. -/
theorem promotions_spare (henv : Obeys env (· == f))
    (horder : Defers env b start last)
    (h : Promoting b f replicas primaries keys start last t)
    (hfew : primaries < replicas)
    (hfuel : (primaries - t.members.appPrimaries).toNat < fuel) :
    ∃ t', loopStage (promoteTurn env primaries) fuel [] t = .ret [] t'
      ∧ t'.members.appPrimaries = primaries
      ∧ Adding b f replicas keys last 0 t' := by
  have hturn : ∀ t, Promoting b f replicas primaries keys start last t →
      (∃ t', promoteTurn env primaries (t, []) = .inl (t', [])
        ∧ Promoting b f replicas primaries keys start last t'
        ∧ (primaries - t'.members.appPrimaries).toNat
          < (primaries - t.members.appPrimaries).toNat)
      ∨ promoteTurn env primaries (t, []) = .inr (t, [])
        ∧ primaries ≤ t.members.appPrimaries := by
    intro t ht
    by_cases hlt : t.members.appPrimaries < primaries
    · obtain ⟨t', hnext, ht', hone⟩ :=
        Promoting.turn henv horder ht hlt hfew
      exact Or.inl ⟨t', hnext, ht', by omega⟩
    · exact Or.inr ⟨promoteTurn_done (by omega), by omega⟩
  obtain ⟨t', hend, ht', hdone⟩ := loopStage_ends
    (fun t => (primaries - t.members.appPrimaries).toNat) hturn fuel t h
    hfuel
  have hexact := ht'.few
  have horders := ht'.orders
  refine ⟨t', hend, by omega, ht'.pivoted, ht'.fallen, ht'.settled,
    ht'.reserved, by omega, ?_⟩
  intro k m hm _ _
  exact ht'.pivoted.covered k m hm

end Promotions

-- ======================================================== the demotions

/-- `w` is the only primary that counts, if there is one, and has not
failed. -/
def Sole (w : String) (ms : MemberSet) : Prop :=
  ∀ k m, ms.lookup k = some m → m.isPrimary = true →
    k = w ∧ m.name = w ∧ m.appFailed = false

theorem Sole.stopped {w : String} (h : Sole w ms) (k : String) :
    Sole w (ms.modify k Member.noteStopped) := by
  intro k' m' hm' hpr
  rcases GoMap.lookup_modify_some hm' with ⟨-, m, -, rfl⟩ | hm
  · simp [Member.isPrimary, Member.noteStopped] at hpr
  · exact h k' m' hm hpr

/-- What the demotion loop keeps until it comes to `w`, the only primary
that counts: the others that are marked as primaries come first, and `I`
is what else it keeps. -/
structure Stopping (w f : String) (I : MemberSet → Prop) (last : Nat)
    (t : Sys) : Prop where
  kept : I t.members
  keyed : t.members.WellKeyed
  fallen : Fallen f t.members
  first : ∃ m, t.members.lookup w = some m ∧ m.isPrimary = true
  sole : Sole w t.members
  settled : ∀ k m, t.members.lookup k = some m → m.online = true →
    m.appRunning = true ∨ m.eligible = true ∨ m.stoppable = true
  above : ∀ k m, t.members.lookup k = some m → m.online = true →
    m.stoppable = true → k ≠ w → w < k
  orders : t.orders + 2 * GoMap.count Member.stoppable t.members = last

/-- What it leaves: `w` is a candidate again, and nobody is a primary. -/
structure Stopped (w f : String) (I : MemberSet → Prop) (last : Nat)
    (t : Sys) : Prop where
  kept : I t.members
  fallen : Fallen f t.members
  settled : Settled t.members
  candidate : ∃ m, t.members.lookup w = some m ∧ m.eligible = true
  unseeded : t.members.appPrimaries = 0
  orders : t.orders = last

section Demotions

variable {w f : String} {I : MemberSet → Prop} {last : Nat}
  {fails : String → Bool}

theorem Stopping.stoppable (h : Stopping w f I last t) :
    ∃ m, t.members.lookup w = some m ∧ m.online = true
      ∧ m.stoppable = true := by
  obtain ⟨m, hm, hpr⟩ := h.first
  obtain ⟨-, -, hfail⟩ := h.sole w m hm hpr
  obtain ⟨hon, hmarked, -⟩ := Member.isPrimary_iff.mp hpr
  exact ⟨m, hm, hon, Member.stoppable_iff.mpr ⟨hmarked, hfail⟩⟩

/-- One of the others is stopped. -/
theorem Stopping.other {x : String × Member} {t' : Sys}
    (h : Stopping w f I last t) (hm : t.members.lookup x.1 = some x.2)
    (hst : x.2.stoppable = true) (hne : x.1 ≠ w)
    (hkept : I (t.members.modify x.1 Member.noteStopped))
    (hmem : t'.members = t.members.modify x.1 Member.noteStopped)
    (hord : t'.orders = t.orders + 2) : Stopping w f I last t' := by
  obtain ⟨-, hfail⟩ := Member.stoppable_iff.mp hst
  have hcount := count_stoppable_afterStop true hm hst
  have hsame : t'.members = t.members.modify x.1 (Member.afterStop true) :=
    hmem
  have horders := h.orders
  obtain ⟨mw, hmw, hpr⟩ := h.first
  refine ⟨hmem ▸ hkept, ?_, ?_, ⟨mw, ?_, hpr⟩, ?_, ?_, ?_, ?_⟩
  · rw [hmem]
    exact h.keyed.modify (f := Member.noteStopped) (fun _ => rfl) _
  · rw [hmem]
    exact h.fallen.modify (h.fallen.ne hm hfail) _
  · rw [hmem, GoMap.lookup_modify_ne hne.symm]
    exact hmw
  · rw [hmem]
    exact h.sole.stopped _
  · rw [hmem]
    intro k m' hm' hon'
    rcases GoMap.lookup_modify_some hm' with ⟨-, m, -, rfl⟩ | hk
    · have hon : m.online = true := hon'
      exact Or.inr (Or.inl (by simp [Member.eligible, Member.noteStopped,
        hon]))
    · exact h.settled k m' hk hon'
  · rw [hmem]
    intro k m' hm' hon' hst' hk'
    rcases GoMap.lookup_modify_some hm' with ⟨-, m, -, rfl⟩ | hk
    · simp [Member.stoppable, Member.noteStopped] at hst'
    · exact h.above k m' hk hon' hst' hk'
  · rw [hsame, hord]
    omega

/-- At last `w` is stopped: by then nobody else is left, as it is the one
with the least name. -/
theorem Stopping.finish {x : String × Member} {t' : Sys}
    (h : Stopping w f I last t)
    (hx : chooseCurrentPrimary t.c.peers (t.order env) = .ok x)
    (hw : x.1 = w) (hkept : I (t.members.modify x.1 Member.noteStopped))
    (hmem : t'.members = t.members.modify x.1 Member.noteStopped)
    (hord : t'.orders = t.orders + 2) : Stopped w f I last t' := by
  obtain ⟨hm, hst⟩ := lookup_of_chooseCurrentPrimary hx
  obtain ⟨mw, hmw, hon, -⟩ := h.stoppable
  subst hw
  obtain rfl : x.2 = mw := Option.some.inj (hm.symm.trans hmw)
  obtain ⟨-, hfail⟩ := Member.stoppable_iff.mp hst
  have honly : ∀ k m, t.members.lookup k = some m → m.stoppable = true →
      k = x.1 := by
    intro k m hk hst'
    rw [Sys.peers_of_lookup hm] at hx
    obtain ⟨hon', hle⟩ := chooseCurrentPrimary_largest hx hon hk hst'
    by_contra hne
    rw [h.keyed k m hk, h.keyed x.1 x.2 hm] at hle
    exact hle (h.above k m hk hon' hst' hne)
  have hzero : GoMap.count Member.stoppable t'.members = 0 := by
    rw [hmem]
    refine GoMap.count_eq_zero_iff.mpr fun k m' hm' => ?_
    rcases GoMap.lookup_modify_known hm hm' with ⟨-, rfl⟩ | ⟨hne, hk⟩
    · rfl
    · rw [← Bool.not_eq_true]
      exact fun hst' => hne (honly k m' hk hst')
  have hcount := count_stoppable_afterStop true hm hst
  have hsame : t'.members = t.members.modify x.1 (Member.afterStop true) :=
    hmem
  have horders := h.orders
  refine ⟨hmem ▸ hkept, ?_, ?_, ⟨x.2.noteStopped, ?_, ?_⟩, ?_, ?_⟩
  · rw [hmem]
    exact h.fallen.modify (h.fallen.ne hm hfail) _
  · intro k m' hm' hon'
    have hno := GoMap.count_eq_zero_iff.mp hzero k m' hm'
    rw [hmem] at hm'
    rcases GoMap.lookup_modify_some hm' with ⟨-, m, -, rfl⟩ | hk
    · have hon₁ : m.online = true := hon'
      exact Or.inr (by simp [Member.eligible, Member.noteStopped, hon₁])
    · rcases h.settled k m' hk hon' with hrun | hel | hst'
      · exact Or.inl hrun
      · exact Or.inr hel
      · rw [hno] at hst'
        cases hst'
  · rw [hmem]
    exact GoMap.lookup_modify_of_some hm
  · simp [Member.eligible, Member.noteStopped, hon]
  · have hnone : GoMap.count Member.isPrimary t'.members = 0 := by
      rw [hmem]
      refine GoMap.count_eq_zero_iff.mpr fun k m' hm' => ?_
      rcases GoMap.lookup_modify_known hm hm' with ⟨-, rfl⟩ | ⟨hne, hk⟩
      · simp [Member.isPrimary, Member.noteStopped]
      · rw [← Bool.not_eq_true]
        exact fun hpr => hne (h.sole k m' hk hpr).1
    unfold MemberSet.appPrimaries
    omega
  · rw [← hsame] at hcount
    omega

/-- The demotion loop comes to its end, with every primary stopped. -/
theorem demotions_last (henv : Obeys env fails)
    (hI : ∀ ms k m, I ms → ms.lookup k = some m → m.stoppable = true →
      I (ms.modify k Member.noteStopped))
    (h : Stopping w f I last t)
    (hfuel : GoMap.count Member.stoppable t.members < fuel) :
    ∃ t', loopStage (demoteTurn env 0) fuel [] t = .ret [] t'
      ∧ Stopped w f I last t' := by
  have hturn : ∀ t, Stopping w f I last t ∨ Stopped w f I last t →
      (∃ t', demoteTurn env 0 (t, []) = .inl (t', [])
        ∧ (Stopping w f I last t' ∨ Stopped w f I last t')
        ∧ GoMap.count Member.stoppable t'.members
          < GoMap.count Member.stoppable t.members)
      ∨ demoteTurn env 0 (t, []) = .inr (t, []) ∧ Stopped w f I last t := by
    intro t ht
    rcases ht with ht | ht
    · obtain ⟨mw, hmw, hpr⟩ := ht.first
      have hpos : 0 < t.members.appPrimaries := by
        have hcount := GoMap.count_pos_iff.mpr ⟨w, mw, hmw, hpr⟩
        unfold MemberSet.appPrimaries
        omega
      cases hx : chooseCurrentPrimary t.c.peers (t.order env) with
      | error err =>
          obtain ⟨m, hm, -, hst⟩ := ht.stoppable
          rw [Sys.peers_of_lookup hm] at hx
          rw [chooseCurrentPrimary_error hx hm] at hst
          cases hst
      | ok x =>
          obtain ⟨hm, hst⟩ := lookup_of_chooseCurrentPrimary hx
          obtain ⟨t', hnext, hmem, hord⟩ := demoteTurn_ok henv hpos hx
          have hkept := hI _ _ _ ht.kept hm hst
          have hcount := count_stoppable_afterStop true hm hst
          refine Or.inl ⟨t', hnext, ?_, ?_⟩
          · by_cases hw : x.1 = w
            · exact Or.inr (ht.finish hx hw hkept hmem hord)
            · exact Or.inl (ht.other hm hst hw hkept hmem hord)
          · rw [hmem]
            exact Nat.lt_of_succ_le (le_of_eq hcount)
    · exact Or.inr ⟨demoteTurn_done (Int.le_of_eq ht.unseeded) [], ht⟩
  obtain ⟨t', hend, -, hdone⟩ := loopStage_ends
    (fun t => GoMap.count Member.stoppable t.members) hturn fuel t
    (Or.inl h) hfuel
  exact ⟨t', hend, hdone⟩

end Demotions

end RssOperator
