/-
The member invariant, one step at a time.

`Sound k m` is what an entry satisfies at all times: the key is the
name, an offline member carries no application flag and no sequence
number, a primary is running. About ten places in the source write these
flags one by one; as steps they are five effects of a command, a new
sequence number, a deletion, and the merge.

Two of the effects are sound only because of where they are used. A
failed start or stop sets `AppFailed` and nothing else, which would
break the second clause on an offline member; a start is issued on
candidates only, and a stop on a primary, which the second clause itself
says is online.
-/
import RssOperator.Proofs.Moves

namespace RssOperator

variable {env : Env} {G : Event → Prop} {s s' : Sys} {k : String}
  {m m' : Member}

-- ======================================================= the invariant

/-- The entry `m` stored under `k` is consistent. -/
structure Member.Sound (k : String) (m : Member) : Prop where
  name : m.name = k
  offline : m.online = false → m.appPrimary = false
    ∧ m.appRunning = false ∧ m.appFailed = false ∧ m.seq = 0
  primary : m.appPrimary = true → m.appRunning = true

instance (k : String) (m : Member) : Decidable (m.Sound k) :=
  decidable_of_iff
    (m.name = k
      ∧ (m.online = false → m.appPrimary = false ∧ m.appRunning = false
        ∧ m.appFailed = false ∧ m.seq = 0)
      ∧ (m.appPrimary = true → m.appRunning = true))
    ⟨fun h => ⟨h.1, h.2.1, h.2.2⟩, fun h => ⟨h.name, h.offline, h.primary⟩⟩

/-- Every entry is consistent. -/
def MemberSet.Sound (ms : MemberSet) : Prop :=
  ∀ k m, ms.lookup k = some m → m.Sound k

instance (ms : MemberSet) : Decidable ms.Sound :=
  decidable_of_iff (∀ e ∈ ms.entries, e.2.Sound e.1)
    GoMap.forall_lookup_iff.symm

theorem MemberSet.Sound.keyed {ms : MemberSet} (h : ms.Sound) :
    ms.WellKeyed := fun k m hm => (h k m hm).name

theorem MemberSet.sound_empty : MemberSet.Sound ∅ := by
  intro k m h
  cases h

/-- A member that is a primary or has failed is online. -/
theorem Member.Sound.online_of_flag (h : m.Sound k)
    (hflag : m.appPrimary = true ∨ m.appFailed = true) :
    m.online = true := by
  cases ho : m.online with
  | true => rfl
  | false =>
      obtain ⟨hprimary, -, hfailed, -⟩ := h.offline ho
      rw [hprimary, hfailed] at hflag
      rcases hflag with hflag | hflag
      · cases hflag
      · cases hflag

-- ============================================================= effects

/-- An entry that is online has only the other two clauses to keep. -/
theorem Member.Sound.of_online (hn : m.name = k) (ho : m.online = true)
    (hp : m.appPrimary = true → m.appRunning = true) : m.Sound k :=
  ⟨hn, fun hoff => absurd (ho.symm.trans hoff) (by simp), hp⟩

theorem Member.Sound.noteStatus (h : m.Sound k) (ho : m.online = true)
    (rc : Int) : (m.noteStatus rc).Sound k := by
  unfold Member.noteStatus
  split
  · exact .of_online h.name ho (by simp)
  · split
    · exact .of_online h.name ho (by simp)
    · split
      · exact .of_online h.name ho (by simp)
      · exact .of_online h.name ho (by simp)

/-- No command makes an entry inconsistent. -/
theorem Effect.sound {spec : ClusterSpec} {a : ExecAnswer} {call : Call}
    (heff : Effect spec a m call m') (h : m.Sound k) : m'.Sound k := by
  cases heff with
  | startFailed hel _ =>
      exact .of_online h.name (Member.eligible_iff.mp hel).1 h.primary
  | started hel _ =>
      exact .of_online h.name (Member.eligible_iff.mp hel).1 fun _ => rfl
  | stopFailed hst _ =>
      refine .of_online h.name ?_ h.primary
      rcases hst with hst | hst
      · exact h.online_of_flag (Or.inl (Member.stoppable_iff.mp hst).1)
      · exact hst.1
  | stopped hst _ =>
      refine ⟨h.name, fun ho => ⟨rfl, rfl, rfl, (h.offline ho).2.2.2⟩, ?_⟩
      intro hp
      cases hp
  | checked ho _ => exact h.noteStatus ho _

theorem Member.Sound.afterOffline (h : m.Sound k) : m.offline.Sound k :=
  ⟨h.name, fun _ => ⟨rfl, rfl, rfl, rfl⟩, fun hp => by cases hp⟩

-- =============================================================== moves

theorem MemberSet.Sound.modify {ms : MemberSet} (h : ms.Sound)
    (hm' : m'.Sound k) : MemberSet.Sound (ms.modify k fun _ => m') := by
  intro k₁ m₁ hm₁
  rcases GoMap.lookup_modify_some hm₁ with ⟨rfl, m₀, -, rfl⟩ | hm₁
  · exact hm'
  · exact h k₁ m₁ hm₁

/-- The merge keeps the invariant: what stays is copied, what is gone is
cleared, what is new has no flag set. -/
theorem MemberSet.Sound.merged {ms : MemberSet} (h : ms.Sound)
    {rss : ReplicatedStatefulSet} {pods : List Pod}
    (hm : MemberSet.merged ms (podsToMemberSet rss pods) k = some m) :
    m.Sound k := by
  unfold MemberSet.merged at hm
  split at hm
  · next m₀ r h₀ _ =>
    injection hm with hm
    subst hm
    exact .of_online (h k m₀ h₀).name rfl (h k m₀ h₀).primary
  · next m₀ h₀ _ =>
    injection hm with hm
    subst hm
    exact ⟨(h k m₀ h₀).name, fun _ => ⟨rfl, rfl, rfl, rfl⟩,
      fun hp => by cases hp⟩
  · obtain ⟨r, hr, rfl⟩ := Option.map_eq_some_iff.mp hm
    obtain ⟨pod, -, hname, rfl⟩ := podsToMemberSet_some hr
    exact .of_online hname rfl fun hp => by cases hp

/-- The merge of pods into a well-keyed set, as a step. -/
theorem mergeMembers_some (hs : s.members.WellKeyed) (pods : List Pod) :
    ∃ ms, mergeMembers env (podsToMemberSet s.c.rss pods) s
        = some ((s.setPeers ms).ranged 3)
      ∧ ∀ k, ms.lookup k
        = s.members.merged (podsToMemberSet s.c.rss pods) k := by
  obtain ⟨ms, hrec, hms⟩ := MemberSet.reconcile_lookup hs
    (podsToMemberSet_running s.c.rss pods) s.spec.getNumReplicas
    (env.order s.orders) (env.order (s.orders + 1))
    (env.order (s.orders + 2))
  refine ⟨ms, ?_, hms⟩
  unfold mergeMembers
  rw [hrec]
  rfl

/-- No step of a pass makes an entry inconsistent. -/
theorem Act.sound (hact : Act env G s s') (hs : s.members.Sound) :
    s'.members.Sound := by
  cases hact with
  | quiet h =>
      rw [h.members]
      exact hs
  | command hm heff hpeers _ _ =>
      rw [Sys.members_of_peers hpeers]
      exact hs.modify (heff.sound (hs _ _ hm))
  | @detect k m _ f hm hon hf hpeers _ _ =>
      -- the name is the key, so the entry written is the one visited
      have hname : m.name = k := (hs k m hm).name
      obtain ⟨n, hn⟩ := hf m
      rw [Sys.members_of_peers hpeers, hname,
        GoMap.modify_congr (g := fun _ => f m) hm rfl, hn]
      exact hs.modify (.of_online hname hon (hs k m hm).primary)
  | @delete _ m ok hm _ _ hpeers _ _ =>
      rw [Sys.members_of_peers hpeers]
      refine hs.modify ?_
      cases ok with
      | true => exact (hs _ _ hm).afterOffline
      | false => exact hs _ _ hm

theorem Acts.sound (h : Acts env G s s') (hs : s.members.Sound) :
    s'.members.Sound :=
  Acts.keep (fun _ _ hi hact => hact.sound hi) h hs

/-- No step of the loop makes an entry inconsistent. -/
theorem Move.sound (hmove : Move env s s') (hs : s.members.Sound) :
    s'.members.Sound := by
  cases hmove with
  | act h => exact h.sound hs
  | @merge _ pods h =>
      obtain ⟨ms, heq, hms⟩ := @mergeMembers_some env s hs.keyed pods
      rw [heq] at h
      injection h with h
      subst h
      intro k m hm
      have hm' : ms.lookup k = some m := hm
      rw [hms] at hm'
      exact hs.merged hm'
  | clear => exact MemberSet.sound_empty
  | modify hpeers _ =>
      unfold Sys.members
      rw [hpeers]
      exact hs

/-- No run makes an entry inconsistent. -/
theorem Moves.sound (h : Moves env s s') (hs : s.members.Sound) :
    s'.members.Sound :=
  Moves.keep (fun _ _ hi hmove => hmove.sound hi) h hs

end RssOperator
