/-
Detection on a well-keyed set.

`detectMembers` writes the number it has parsed to the entry under the
member's name, which it looks up afresh. If every member is stored under
its name that is the entry it has just visited: the loop comes back, each
turn rewrites its own entry (`detectMember_keyed`), and the entries it
leaves are those of `detected` if the answers are the same whenever they
are asked for (`detectStage_fixed`).
-/
import RssOperator.Proofs.Turns

namespace RssOperator

variable {env : Env} {s : Sys} {k : String} {m : Member}

-- ============================================================ one turn

/-- The number a member has after its turn; an error or empty output
leaves the old one. -/
def ExecAnswer.readSeq (a : ExecAnswer) (old : Nat) : Nat :=
  let r := execWithOptions "" a
  let stdout := trimSpace r.stdout.toList
  if r.err.isSome ∨ stdout = [] then old else (parseUint64 stdout).1

namespace ExecAnswer

variable {a : ExecAnswer}

theorem readSeq_of_err {text : String} (h : a.err = some text) (old : Nat) :
    a.readSeq old = old := by
  have hsome : (execWithOptions "" a).err.isSome := by
    rw [show (execWithOptions "" a).err = some text from h]
    rfl
  exact if_pos (Or.inl hsome)

theorem readSeq_of_empty
    (h : trimSpace (execWithOptions "" a).stdout.toList = []) (old : Nat) :
    a.readSeq old = old :=
  if_pos (Or.inr h)

theorem readSeq_of_output (herr : a.err = none)
    (h : trimSpace (execWithOptions "" a).stdout.toList ≠ []) (old : Nat) :
    a.readSeq old
      = (parseUint64 (trimSpace (execWithOptions "" a).stdout.toList)).1 := by
  have hnone : (execWithOptions "" a).err = none := herr
  exact if_neg (by simp [hnone, h])

end ExecAnswer

/-- What the answer `a` makes of a member. -/
def Member.detected (a : ExecAnswer) (m : Member) : Member :=
  if m.online then { m with seq := a.readSeq m.seq } else m

theorem Member.detected_eq (a : ExecAnswer) (m : Member) :
    ∃ n, m.detected a = { m with seq := n } := by
  unfold detected
  split
  · exact ⟨_, rfl⟩
  · exact ⟨m.seq, rfl⟩

@[simp] theorem Member.name_detected (a : ExecAnswer) (m : Member) :
    (m.detected a).name = m.name := by
  obtain ⟨n, h⟩ := m.detected_eq a
  rw [h]

@[simp] theorem Member.online_detected (a : ExecAnswer) (m : Member) :
    (m.detected a).online = m.online := by
  obtain ⟨n, h⟩ := m.detected_eq a
  rw [h]

theorem MemberSet.WellKeyed.modify {ms : MemberSet} (h : ms.WellKeyed)
    {f : Member → Member} (hf : ∀ m, (f m).name = m.name) (k : String) :
    MemberSet.WellKeyed (ms.modify k f) := by
  intro k' m' hm'
  rcases GoMap.lookup_modify_some hm' with ⟨rfl, m, hm, rfl⟩ | hm
  · exact (hf m).trans (h k' m hm)
  · exact h k' m' hm

theorem execute_stdout (call : Call) (pod : String) :
    (execute env call k pod s).1.stdout
      = (execWithOptions "" (env.exec s.execs call pod)).stdout := by
  unfold execute
  dsimp only
  split <;> rfl

/-- A turn on a member that is there. -/
theorem detectMember_online (hs : s.members.WellKeyed)
    (hm : s.members.lookup k = some m) (hon : m.online = true) :
    ∃ s', detectMember env (.ret () s) k = .ret () s'
      ∧ s'.members = s.members.modify k
          (Member.detected (env.exec s.execs .sequence m.name))
      ∧ s'.orders = s.orders + 1 := by
  obtain rfl : m.name = k := hs k m hm
  have hran : (s.ran env .sequence m.name m.name).members.lookup m.name
      = some m := hm
  unfold detectMember
  rw [Outcome.ret_andThen]
  simp only [hm, hon, Bool.not_true, Bool.false_eq_true, if_false,
    execute_state, execute_stdout, execute_err, hran]
  generalize env.exec s.execs .sequence m.name = a
  split
  · next e he =>
    refine ⟨_, rfl, (GoMap.modify_eq_self hm ?_).symm, rfl⟩
    obtain ⟨text, htext, -⟩ := Option.map_eq_some_iff.mp he
    unfold Member.detected
    rw [if_pos hon, ExecAnswer.readSeq_of_err htext]
  · next he =>
    split
    · next hempty =>
      refine ⟨_, rfl, (GoMap.modify_eq_self hm ?_).symm, rfl⟩
      unfold Member.detected
      rw [if_pos hon, ExecAnswer.readSeq_of_empty hempty]
    · next hempty =>
      refine ⟨_, rfl, ?_, rfl⟩
      rw [Sys.members_update]
      refine GoMap.modify_congr hm ?_
      unfold Member.detected
      rw [if_pos hon, ExecAnswer.readSeq_of_output
        (Option.map_eq_none_iff.mp he) hempty]

/-- A turn rewrites its own entry, and comes back. -/
theorem detectMember_keyed (hs : s.members.WellKeyed) (k : String) :
    ∃ s', detectMember env (.ret () s) k = .ret () s'
      ∧ s'.members = s.members.modify k
          (fun m => m.detected (env.exec s.execs .sequence m.name))
      ∧ s'.orders = s.orders
          + ((s.members.lookup k).any Member.online).toNat := by
  cases hm : s.members.lookup k with
  | none =>
      refine ⟨s, ?_, (GoMap.modify_of_absent hm).symm, ?_⟩
      · simp [detectMember, hm]
      · simp
  | some m =>
      cases hon : m.online with
      | false =>
          refine ⟨s, ?_, (GoMap.modify_eq_self hm ?_).symm, ?_⟩
          · simp [detectMember, hm, hon]
          · simp [Member.detected, hon]
          · simp [hon]
      | true =>
          obtain ⟨s', hret, hmem, hord⟩ := detectMember_online hs hm hon
          refine ⟨s', hret, ?_, ?_⟩
          · rw [hmem]
            exact GoMap.modify_congr hm rfl
          · simp [hon, hord]

-- ============================================================ the loop

/-- Detection comes back, whatever the answers. -/
theorem detectStage_returns (env : Env) (hs : s.members.WellKeyed) :
    ∃ s', detectStage env s = .ret () s' := by
  have hfold : ∀ (ks : List String) (s : Sys), s.members.WellKeyed →
      ∃ s', ks.foldl (detectMember env) (.ret () s) = .ret () s' := by
    intro ks
    induction ks with
    | nil => intro s _; exact ⟨s, rfl⟩
    | cons k ks ih =>
        intro s hs
        obtain ⟨s₁, hret, hmem, -⟩ := detectMember_keyed hs k
        rw [List.foldl_cons, hret]
        refine ih s₁ ?_
        rw [hmem]
        exact hs.modify (fun m => m.name_detected _) k
  unfold detectStage
  split
  · exact hfold _ (s.ranged 1) hs
  · exact ⟨s, rfl⟩

/-- With answers that do not depend on when they are asked for, the loop
over `ks` is one write an entry. -/
theorem foldl_detectMember {ans : String → ExecAnswer}
    (hans : ∀ i pod, env.exec i .sequence pod = ans pod) (ks : List String) :
    ∀ s : Sys, s.members.WellKeyed →
      ∃ s', ks.foldl (detectMember env) (.ret () s) = .ret () s'
        ∧ s'.members = ks.foldl (fun ms k => GoMap.modify k
            (fun m => m.detected (ans m.name)) ms) s.members
        ∧ s'.orders = s.orders + ks.countP
            (fun k => (s.members.lookup k).any Member.online) := by
  induction ks with
  | nil => intro s _; exact ⟨s, rfl, rfl, rfl⟩
  | cons k ks ih =>
      intro s hs
      obtain ⟨s₁, hret, hmem, hord⟩ := @detectMember_keyed env s hs k
      simp only [hans] at hmem
      have hkeyed : s₁.members.WellKeyed := by
        rw [hmem]
        exact hs.modify (fun m => m.name_detected _) k
      obtain ⟨s', hret', hmem', hord'⟩ := ih s₁ hkeyed
      have honline : ∀ k', (s₁.members.lookup k').any Member.online
          = (s.members.lookup k').any Member.online := by
        intro k'
        rw [hmem, GoMap.lookup_modify]
        split
        · simp [Option.any_map]
        · rfl
      refine ⟨s', ?_, ?_, ?_⟩
      · rw [List.foldl_cons, hret, hret']
      · rw [hmem', hmem]
        rfl
      · simp only [hord', hord, honline, List.countP_cons]
        cases (s.members.lookup k).any Member.online with
        | true => simp; omega
        | false => simp

/-- What such a detection leaves. It runs one loop, and one more a
member that is there, for the arguments of its command. -/
theorem detectMembers_fixed {ans : String → ExecAnswer}
    (hans : ∀ i pod, env.exec i .sequence pod = ans pod)
    (hs : s.members.WellKeyed) :
    ∃ s', detectMembers env s = .ret () s'
      ∧ (∀ k, s'.members.lookup k
          = (s.members.lookup k).map fun m => m.detected (ans m.name))
      ∧ s'.orders = s.orders + 1 + GoMap.count Member.online s.members := by
  obtain ⟨s', hret, hmem, hord⟩ :=
    foldl_detectMember hans (s.members.range (s.order env)) (s.ranged 1) hs
  refine ⟨s', hret, ?_, ?_⟩
  · intro k
    rw [hmem, GoMap.lookup_foldl_modify _ _ _ (GoMap.nodup_range _ _)]
    split
    · rfl
    · next hk =>
      cases hm : s.members.lookup k with
      | none =>
          show s.members.lookup k = none
          exact hm
      | some m => exact absurd (GoMap.mem_range.mpr ⟨m, hm⟩) hk
  · rw [hord]
    exact congrArg _ (GoMap.countP_range Member.online _ _)

end RssOperator
