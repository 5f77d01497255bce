/-
Where the sequence number of a member comes from.

# One turn

Each online member is asked once. `ExecAnswer.printed` is the number in an
answer that can be used; `ExecAnswer.misread` is what the code writes for
output that is no such number: the parser's zero, or its largest value,
which it gives for an overlong run of digits whatever is behind it.
A turn writes the one or the other, or leaves the old number
(`readSeq_eq`), to the entry under the member's name.

# What detection leaves

On a well-keyed set every member has its own turn and nobody else writes
to it (`Asked`). So detection keeps to what was printed exactly if no
member has a number other than the one it is misread as
(`detection_faithful_iff`).

# What seeding then goes by

Nothing in the seeding changes a number, so a seed is tried with the one
detection left, and that was printed in the same call exactly if its
answer could be used (`seeds_printed_iff`). A failed command, empty output
and a skipped detection all leave a number from an earlier pass.
-/
import RssOperator.Proofs.Arguments
import RssOperator.Proofs.Gating
import RssOperator.Proofs.Numbers

namespace RssOperator

variable {env : Env} {s s' t : Sys} {k : String} {m : Member}
  {a : ExecAnswer} {fuel : Nat}

-- ============================================================= answers

/-- The decimal number a command has printed, if it succeeded and the
number fits. -/
def ExecAnswer.printed (a : ExecAnswer) : Option Nat :=
  let r := execWithOptions "" a
  if r.err.isSome then none
  else (digitsVal (trimSpace r.stdout.toList)).filter
    fun n => decide (n < 2 ^ 64)

/-- What is written for other output: the largest value where the digits it
begins with are already too many, and zero where they are not. -/
def ExecAnswer.misread (a : ExecAnswer) : Option Nat :=
  let r := execWithOptions "" a
  let stdout := trimSpace r.stdout.toList
  if r.err.isSome ∨ stdout = [] ∨ a.printed.isSome then none
  else some (if 2 ^ 64 ≤ frontVal stdout then 2 ^ 64 - 1 else 0)

theorem parseUint64_overlong {stdout : List Char}
    (h : 2 ^ 64 ≤ frontVal stdout) :
    parseUint64 stdout = (2 ^ 64 - 1, false) := by
  unfold parseUint64
  rw [parseUint_of_overlong h]
  rfl

/-- The value of the parser: the number, if it is one that fits, and else
what it is misread as. -/
theorem parseUint64_eq (stdout : List Char) :
    (parseUint64 stdout).1
      = ((digitsVal stdout).filter fun n => decide (n < 2 ^ 64)).getD
          (if 2 ^ 64 ≤ frontVal stdout then 2 ^ 64 - 1 else 0) := by
  by_cases hlong : 2 ^ 64 ≤ frontVal stdout
  · -- a number that begins so does not fit
    have hnone : (digitsVal stdout).filter (fun n => decide (n < 2 ^ 64))
        = none := by
      rw [Option.filter_eq_none_iff]
      intro n hn
      rw [digitsVal_eq_frontVal hn, decide_eq_true_eq]
      exact Nat.not_lt.mpr hlong
    rw [parseUint64_overlong hlong, hnone, if_pos hlong]
    rfl
  · rw [if_neg hlong]
    unfold parseUint64
    rw [parseUint_eq, if_neg hlong]
    cases hval : digitsVal stdout with
    | none => rfl
    | some n =>
        have hfits : n < 2 ^ 64 := by
          rw [digitsVal_eq_frontVal hval]
          exact Nat.not_le.mp hlong
        rw [Option.filter_some_pos (by exact decide_eq_true hfits)]
        rfl

/-- A turn writes the number that was printed, or else what it was misread
as, if anything. -/
theorem ExecAnswer.readSeq_eq (a : ExecAnswer) (old : Nat) :
    a.readSeq old = (a.printed.or a.misread).getD old := by
  unfold readSeq misread
  dsimp only
  by_cases herr : (execWithOptions "" a).err.isSome = true
  · have hnone : a.printed = none := if_pos herr
    rw [if_pos (Or.inl herr), hnone, if_pos (Or.inl herr)]
    rfl
  · have hprinted : a.printed
        = (digitsVal (trimSpace (execWithOptions "" a).stdout.toList)).filter
            fun n => decide (n < 2 ^ 64) := if_neg herr
    by_cases hempty : trimSpace (execWithOptions "" a).stdout.toList = []
    · rw [if_pos (Or.inr hempty), if_pos (Or.inr (Or.inl hempty)), hprinted,
        hempty]
      rfl
    · rw [if_neg (not_or.mpr ⟨herr, hempty⟩), parseUint64_eq, ← hprinted]
      cases hp : a.printed with
      | some n => rfl
      | none => simp [herr, hempty]

example :
    (ExecAnswer.exitsZero "18446744073709551616abc").readSeq 0 = 2 ^ 64 - 1
      ∧ (ExecAnswer.exitsZero "9abc").readSeq 7 = 0 := by
  decide +kernel

/-- No answer is both. -/
theorem ExecAnswer.misread_of_printed {n : Nat} (h : a.printed = some n) :
    a.misread = none := by
  unfold misread
  refine if_pos (Or.inr (Or.inr ?_))
  rw [h]
  rfl

theorem ExecAnswer.printed_of_misread {n : Nat} (h : a.misread = some n) :
    a.printed = none := by
  cases hp : a.printed with
  | none => rfl
  | some v =>
      rw [misread_of_printed hp] at h
      cases h

theorem ExecAnswer.readSeq_of_misread {n : Nat} (h : a.misread = some n)
    (old : Nat) : a.readSeq old = n := by
  rw [readSeq_eq, printed_of_misread h, h]
  rfl

/-- Nothing is written but what was printed, or what was there. -/
theorem ExecAnswer.readSeq_faithful_iff {old : Nat} :
    a.readSeq old = a.printed.getD old
      ↔ ∀ n, a.misread = some n → old = n := by
  rw [readSeq_eq]
  cases hp : a.printed with
  | some n => simp [misread_of_printed hp]
  | none =>
      cases hm : a.misread with
      | none => simp
      | some n => simp [eq_comm]

-- ============================================================ one turn

/-- Whoever reads its old number leaves everything as it is. -/
theorem MemberSet.modify_readSeq {ms : MemberSet}
    (hold : ∀ old, a.readSeq old = old) (n : String) :
    ms.modify n (fun m => { m with seq := a.readSeq m.seq }) = ms := by
  simp only [hold]
  exact GoMap.modify_id n ms

/-- A turn on a member that is there, if it comes back. -/
theorem detectMember_ret_online (hm : s.members.lookup k = some m)
    (hon : m.online = true)
    (h : detectMember env (.ret () s) k = .ret () t) :
    t.members = s.members.modify m.name (fun m' => { m' with
        seq := (env.exec s.execs .sequence m.name).readSeq m'.seq })
      ∧ t.trace = s.entry env .sequence k m.name :: s.trace
      ∧ ((env.exec s.execs .sequence m.name).succeeds = true →
          ∃ m', s.members.lookup m.name = some m') := by
  unfold detectMember at h
  simp only [Outcome.ret_andThen, hm, hon, Bool.not_true,
    Bool.false_eq_true, if_false, execute_state, execute_stdout,
    execute_err, Sys.members_ran] at h
  generalize ha : env.exec s.execs .sequence m.name = a at h ⊢
  cases herr : a.err with
  | some text =>
      rw [herr] at h
      injection h with _ h
      subst h
      have hold := ExecAnswer.readSeq_of_err herr
      refine ⟨(MemberSet.modify_readSeq hold _).symm, rfl, fun hok => ?_⟩
      unfold ExecAnswer.succeeds at hok
      rw [herr] at hok
      cases hok
  | none =>
      rw [herr] at h
      cases hname : s.members.lookup m.name with
      | none =>
          rw [hname] at h
          cases h
      | some m₀ =>
          rw [hname] at h
          dsimp only [Option.map_none] at h
          split at h
          · next hempty =>
            injection h with _ h
            subst h
            have hold := ExecAnswer.readSeq_of_empty hempty
            exact ⟨(MemberSet.modify_readSeq hold _).symm, rfl,
              fun _ => ⟨m₀, rfl⟩⟩
          · next hempty =>
            injection h with _ h
            subst h
            simp only [ExecAnswer.readSeq_of_output herr hempty]
            exact ⟨Sys.members_update _ _ _, rfl, fun _ => ⟨m₀, rfl⟩⟩

/-- A turn that comes back, on any set of members: nothing happens to a
member that is not there; from one that is there the number goes to the
entry under its name, which is there if the command succeeded. -/
theorem detectMember_ret (h : detectMember env (.ret () s) k = .ret () t) :
    (t = s ∧ ∀ m, s.members.lookup k = some m → m.online = false)
      ∨ ∃ m, s.members.lookup k = some m ∧ m.online = true
        ∧ t.members = s.members.modify m.name (fun m' => { m' with
            seq := (env.exec s.execs .sequence m.name).readSeq m'.seq })
        ∧ t.trace = s.entry env .sequence k m.name :: s.trace
        ∧ ((env.exec s.execs .sequence m.name).succeeds = true →
            ∃ m', s.members.lookup m.name = some m') := by
  cases hm : s.members.lookup k with
  | none =>
      left
      unfold detectMember at h
      rw [Outcome.ret_andThen, hm] at h
      injection h with _ h
      exact ⟨h.symm, nofun⟩
  | some m =>
      cases hon : m.online with
      | false =>
          left
          unfold detectMember at h
          simp only [Outcome.ret_andThen, hm, hon, Bool.not_false,
            if_true] at h
          injection h with _ h
          refine ⟨h.symm, ?_⟩
          rintro m' ⟨⟩
          exact hon
      | true =>
          right
          exact ⟨m, rfl, hon, detectMember_ret_online hm hon h⟩

-- ============================================================ the loop

/-- The answer to a sequence command on the member under `k`. -/
def Event.sequenceAnswer (k : String) : Event → Option ExecAnswer
  | .exec .sequence k' _ _ _ a => if k' = k then some a else none
  | _ => none

/-- The answers to the sequence commands on `k` between two states. -/
def Sys.answersTo (k : String) (s s' : Sys) : List ExecAnswer :=
  (s.since s').filterMap (Event.sequenceAnswer k)

theorem Sys.answersTo_eq {es : List Event}
    (h : s'.trace = es ++ s.trace) :
    s.answersTo k s' = es.filterMap (Event.sequenceAnswer k) := by
  unfold answersTo
  rw [Sys.since_eq h]

theorem Sys.answersTo_ranged {n : Nat} : s.answersTo k (s.ranged n) = [] :=
  @answersTo_eq s (s.ranged n) k [] rfl

/-- Detection from `s` has got to `t`, with the members of `asked`
visited: each of them that is there has been asked once, and has read its
own answer. -/
structure Asked (asked : List String) (s t : Sys) : Prop where
  keyed : t.members.WellKeyed
  grows : ∃ es, t.trace = es ++ s.trace
  before : ∀ k, k ∉ asked →
    t.members.lookup k = s.members.lookup k ∧ s.answersTo k t = []
  offline : ∀ k m, s.members.lookup k = some m → m.online = false →
    t.members.lookup k = some m ∧ s.answersTo k t = []
  online : ∀ k m, s.members.lookup k = some m → m.online = true →
    k ∈ asked → ∃ a, s.answersTo k t = [a]
      ∧ t.members.lookup k = some { m with seq := a.readSeq m.seq }

theorem Asked.start (hs : s.members.WellKeyed) (n : Nat) :
    Asked [] s (s.ranged n) where
  keyed := hs
  grows := ⟨[], rfl⟩
  before _ _ := ⟨rfl, Sys.answersTo_ranged⟩
  offline _ _ hm _ := ⟨hm, Sys.answersTo_ranged⟩
  online _ _ _ _ hk := by cases hk

/-- One more command on record. -/
theorem Sys.answersTo_entry {pod : String}
    (hgrows : ∃ es, t.trace = es ++ s.trace)
    (htrace : s'.trace = t.entry env .sequence k pod :: t.trace)
    (k' : String) :
    s.answersTo k' s' = if k = k'
      then env.exec t.execs .sequence pod :: s.answersTo k' t
      else s.answersTo k' t := by
  obtain ⟨es, hes⟩ := hgrows
  have hes' : s'.trace = (t.entry env .sequence k pod :: es) ++ s.trace := by
    rw [htrace, hes]
    rfl
  have hanswer : (t.entry env .sequence k pod).sequenceAnswer k'
      = if k = k' then some (env.exec t.execs .sequence pod) else none := rfl
  rw [answersTo_eq hes, answersTo_eq hes', List.filterMap_cons, hanswer]
  by_cases hk : k = k'
  · rw [if_pos hk, if_pos hk]
  · rw [if_neg hk, if_neg hk]

theorem Asked.idle {asked : List String} (h : Asked asked s t)
    (hoff : ∀ m, s.members.lookup k = some m → m.online = false) :
    Asked (asked ++ [k]) s t where
  keyed := h.keyed
  grows := h.grows
  before k' hk' :=
    h.before k' fun hmem => hk' (List.mem_append_left [k] hmem)
  offline := h.offline
  online k' m' hm' hon' hmem := by
    rcases List.mem_append.mp hmem with hmem | hmem
    · exact h.online k' m' hm' hon' hmem
    · rw [List.mem_singleton] at hmem
      subst hmem
      rw [hoff m' hm'] at hon'
      cases hon'

/-- A turn that asks. -/
theorem Asked.ask {asked : List String} (h : Asked asked s t)
    (hm : s.members.lookup k = some m) (hon : m.online = true)
    (hk : k ∉ asked)
    (hmembers : s'.members = t.members.modify k (fun m' => { m' with
      seq := (env.exec t.execs .sequence k).readSeq m'.seq }))
    (htrace : s'.trace = t.entry env .sequence k k :: t.trace) :
    Asked (asked ++ [k]) s s' := by
  obtain ⟨hlookup, hanswers⟩ := h.before k hk
  -- everybody else is as before
  have hother : ∀ k', k ≠ k' → s'.members.lookup k' = t.members.lookup k'
      ∧ s.answersTo k' s' = s.answersTo k' t := by
    intro k' hkk'
    refine ⟨?_, ?_⟩
    · rw [hmembers, GoMap.lookup_modify_ne fun heq => hkk' heq.symm]
    · rw [Sys.answersTo_entry h.grows htrace, if_neg hkk']
  refine ⟨?_, ?_, ?_, ?_, ?_⟩
  · rw [hmembers]
    refine MemberSet.WellKeyed.modify h.keyed ?_ k
    exact fun _ => rfl
  · obtain ⟨es, hes⟩ := h.grows
    exact ⟨_ :: es, by rw [htrace, hes]; rfl⟩
  · intro k' hk'
    rw [List.mem_append, List.mem_singleton, not_or] at hk'
    have hkk' : k ≠ k' := fun heq => hk'.2 heq.symm
    rw [(hother k' hkk').1, (hother k' hkk').2]
    exact h.before k' hk'.1
  · intro k' m' hm' hoff
    have hkk' : k ≠ k' := by
      rintro rfl
      obtain rfl := Option.some.inj (hm.symm.trans hm')
      rw [hon] at hoff
      cases hoff
    rw [(hother k' hkk').1, (hother k' hkk').2]
    exact h.offline k' m' hm' hoff
  · intro k' m' hm' hon' hmem
    by_cases hkk' : k = k'
    · subst hkk'
      refine ⟨env.exec t.execs .sequence k, ?_, ?_⟩
      · rw [Sys.answersTo_entry h.grows htrace, if_pos rfl, hanswers]
      · rw [hmembers]
        exact GoMap.lookup_modify_of_some (hlookup.trans hm')
    · have hmem' : k' ∈ asked := by
        rcases List.mem_append.mp hmem with hmem | hmem
        · exact hmem
        · exact absurd (List.mem_singleton.mp hmem).symm hkk'
      rw [(hother k' hkk').1, (hother k' hkk').2]
      exact h.online k' m' hm' hon' hmem'

theorem Asked.turn (env : Env) {asked : List String} (h : Asked asked s t)
    (hk : k ∉ asked) :
    ∃ t', detectMember env (.ret () t) k = .ret () t'
      ∧ Asked (asked ++ [k]) s t' := by
  obtain ⟨t', hret, -⟩ := @detectMember_keyed env t h.keyed k
  refine ⟨t', hret, ?_⟩
  have hlookup := (h.before k hk).1
  rcases detectMember_ret hret with
    ⟨rfl, hoff⟩ | ⟨m, hm, hon, hmembers, htrace, -⟩
  · exact h.idle fun m hm => hoff m (hlookup.trans hm)
  · rw [h.keyed k m hm] at hmembers htrace
    exact h.ask (hlookup.symm.trans hm) hon hk hmembers htrace

/-- Detection on a well-keyed set asks everybody who is there. -/
theorem detectMembers_asked (env : Env) (hs : s.members.WellKeyed) :
    ∃ t, detectMembers env s = .ret () t
      ∧ Asked (s.members.range (s.order env)) s t := by
  have hfold : ∀ (ks asked : List String) (t : Sys),
      (asked ++ ks).Nodup → Asked asked s t →
      ∃ t', ks.foldl (detectMember env) (.ret () t) = .ret () t'
        ∧ Asked (asked ++ ks) s t' := by
    intro ks
    induction ks with
    | nil =>
        intro asked t _ ht
        refine ⟨t, rfl, ?_⟩
        rw [List.append_nil]
        exact ht
    | cons k ks ih =>
        intro asked t hnd ht
        have hk : k ∉ asked := by
          intro hmem
          exact (List.nodup_append.mp hnd).2.2 k hmem k
            List.mem_cons_self rfl
        obtain ⟨t₁, hret, ht₁⟩ := ht.turn env hk
        rw [List.append_cons] at hnd
        obtain ⟨t', hret', ht'⟩ := ih (asked ++ [k]) t₁ hnd ht₁
        refine ⟨t', ?_, ?_⟩
        · rw [List.foldl_cons, hret, hret']
        · rw [List.append_cons]
          exact ht'
  exact hfold _ [] (s.ranged 1) (GoMap.nodup_range _ _) (Asked.start hs 1)

-- ================================================= faithful detection

/-- What was printed has been read, and nothing else was written. -/
def SeqsRead (s t : Sys) : Prop :=
  ∀ k m, s.members.lookup k = some m →
    (m.online = false → t.members.lookup k = some m)
      ∧ (m.online = true → ∃ a, s.answersTo k t = [a]
        ∧ t.members.lookup k = some { m with seq := a.printed.getD m.seq })

/-- A call of `detectMembers` comes back, and has read what was
printed. -/
def DetectsFaithfully (env : Env) (s : Sys) : Prop :=
  ∃ t, detectMembers env s = .ret () t ∧ SeqsRead s t

theorem detectsFaithfully_iff (env : Env) (hs : s.members.WellKeyed) :
    DetectsFaithfully env s
      ↔ ∀ k m, s.members.lookup k = some m → m.online = true →
          ∀ a ∈ s.answersTo k (detectMembers env s).state, ∀ n,
            a.misread = some n → m.seq = n := by
  obtain ⟨t, hret, hasked⟩ := detectMembers_asked env hs
  have hvisited : ∀ k m, s.members.lookup k = some m →
      k ∈ s.members.range (s.order env) :=
    fun k m hm => GoMap.mem_range.mpr ⟨m, hm⟩
  have hseq : ∀ {m : Member} {n n' : Nat},
      some { m with seq := n } = some { m with seq := n' } → n = n' := by
    intro m n n' heq
    injection heq with heq
    injection heq
  rw [hret]
  constructor
  · rintro ⟨t', hret', hread⟩ k m hm hon a ha
    obtain rfl : t = t' := by
      rw [hret] at hret'
      injection hret'
    obtain ⟨b, hb, hlookup⟩ := hasked.online k m hm hon (hvisited k m hm)
    obtain ⟨c, hc, hlookup'⟩ := (hread k m hm).2 hon
    rw [Outcome.state_ret, hb, List.mem_singleton] at ha
    rw [hb] at hc
    injection hc with hc
    subst ha hc
    exact ExecAnswer.readSeq_faithful_iff.mp
      (hseq (hlookup.symm.trans hlookup'))
  · intro hcond
    refine ⟨t, hret, fun k m hm => ⟨?_, ?_⟩⟩
    · intro hoff
      exact (hasked.offline k m hm hoff).1
    · intro hon
      obtain ⟨a, ha, hlookup⟩ := hasked.online k m hm hon (hvisited k m hm)
      refine ⟨a, ha, ?_⟩
      rw [hlookup, ExecAnswer.readSeq_faithful_iff.mpr]
      refine hcond k m hm hon a ?_
      rw [Outcome.state_ret, ha]
      exact List.mem_singleton_self a

/-- Nobody is there, nobody is asked. -/
theorem detectMembers_idle (env : Env)
    (hs : ∀ k m, s.members.lookup k = some m → m.online = false) :
    detectMembers env s = .ret () (s.ranged 1) := by
  have hfold : ∀ ks : List String,
      ks.foldl (detectMember env) (.ret () (s.ranged 1))
        = .ret () (s.ranged 1) := by
    intro ks
    induction ks with
    | nil => rfl
    | cons k ks ih =>
        have hturn : detectMember env (.ret () (s.ranged 1)) k
            = .ret () (s.ranged 1) := by
          unfold detectMember
          rw [Outcome.ret_andThen, Sys.members_ranged]
          cases hm : s.members.lookup k with
          | none => rfl
          | some m => simp [hs k m hm]
        rw [List.foldl_cons, hturn, ih]
  exact hfold _

theorem Issued.detectMembers (env : Env) (s : Sys) :
    Issued env s (detectMembers env s).state :=
  ((Issued.frame env).ranged 1 s).trans
    ((Issued.frame env).foldl Outcome.state (Issued.frame env).detectMember
      (s.members.range (s.order env)) (.ret () (s.ranged 1)))

/-- Every answer is one of `env`. -/
theorem Issued.answersTo (hissued : Issued env s s') :
    ∀ a ∈ s.answersTo k s', ∃ i pod, a = env.exec i .sequence pod := by
  intro a ha
  obtain ⟨e, he, hanswer⟩ := List.mem_filterMap.mp ha
  have hfrom := hissued.logs.mem_since e he
  unfold Event.sequenceAnswer at hanswer
  split at hanswer
  · next k' pod args peers b =>
    split at hanswer
    · obtain rfl := Option.some.inj hanswer
      obtain ⟨-, ⟨i, hi⟩, -⟩ := hfrom _ _ _ _ _ _ rfl
      exact ⟨i, pod, hi⟩
    · cases hanswer
  · cases hanswer

-- ===================================================== garbled answers

/-- Every command succeeds and prints `out`. -/
def Env.printing (out : String) : Env :=
  .answering fun _ _ _ => .exitsZero out

/-- A call that comes back has come back from its first turns. -/
theorem foldl_detectMember_ret {ks : List String} {o : Outcome Sys Unit}
    (h : ks.foldl (detectMember env) o = .ret () t) : ∃ s, o = .ret () s := by
  induction ks generalizing o with
  | nil => exact ⟨t, h⟩
  | cons k ks ih =>
      rw [List.foldl_cons] at h
      obtain ⟨s, hs⟩ := ih h
      cases o with
      | ret u s₀ => exact ⟨s₀, rfl⟩
      | panicked s₀ => cases hs
      | looping s₀ => cases hs

section Garbled

variable {out : String} {n : Nat}

/-- A turn of such a call, if it comes back. -/
theorem printing_turn (hout : (ExecAnswer.exitsZero out).misread = some n)
    (h : detectMember (.printing out) (.ret () s) k = .ret () t) :
    (t = s ∧ ∀ m, s.members.lookup k = some m → m.online = false)
      ∨ ∃ m m₀, s.members.lookup k = some m
        ∧ s.members.lookup m.name = some m₀
        ∧ t.members = s.members.modify m.name
            (fun m' => { m' with seq := n }) := by
  rcases detectMember_ret h with hoff | ⟨m, hm, -, hmembers, -, hthere⟩
  · exact Or.inl hoff
  · right
    obtain ⟨m₀, hm₀⟩ := hthere rfl
    refine ⟨m, m₀, hm, hm₀, ?_⟩
    rw [hmembers]
    congr 1
    funext m'
    exact congrArg (fun v => { m' with seq := v })
      (ExecAnswer.readSeq_of_misread hout m'.seq)

/-- What a turn does to the number of anybody. -/
theorem MemberSet.lookup_written {ms : MemberSet} (name : String)
    (hm : ms.lookup k = some m) :
    ∃ v, (ms.modify name fun m' => { m' with seq := n }).lookup k
        = some { m with seq := v }
      ∧ (m.seq = n → v = n) ∧ (k = name → v = n) := by
  rw [GoMap.lookup_modify, hm]
  by_cases hk : k = name
  · exact ⟨n, by rw [if_pos hk]; rfl, fun _ => rfl, fun _ => rfl⟩
  · exact ⟨m.seq, by rw [if_neg hk], id, fun h => absurd h hk⟩

/-- A detection in which everybody is misread as `n` writes `n` to the
entry under the name of everybody it asks. -/
theorem printing_writes (hout : (ExecAnswer.exitsZero out).misread = some n)
    (ks : List String) :
    ∀ s t : Sys,
      ks.foldl (detectMember (.printing out)) (.ret () s) = .ret () t →
      (∀ k m, s.members.lookup k = some m → m.seq = n →
        ∃ m', t.members.lookup k = some m' ∧ m'.seq = n)
      ∧ ∀ k ∈ ks, ∀ m, s.members.lookup k = some m → m.online = true →
        (∃ m₀, s.members.lookup m.name = some m₀)
          ∧ ∃ m', t.members.lookup m.name = some m' ∧ m'.seq = n := by
  induction ks with
  | nil =>
      intro s t h
      injection h with _ h
      subst h
      exact ⟨fun k m hm hseq => ⟨m, hm, hseq⟩, nofun⟩
  | cons k ks ih =>
      intro s t h
      rw [List.foldl_cons] at h
      obtain ⟨s₁, hturn⟩ := foldl_detectMember_ret h
      rw [hturn] at h
      obtain ⟨hkeep, hwrite⟩ := ih s₁ t h
      rcases printing_turn hout hturn with
        ⟨rfl, hoff⟩ | ⟨m, m₀, hm, hm₀, hmembers⟩
      · refine ⟨hkeep, fun k' hk' m' hm' hon' => ?_⟩
        rcases List.mem_cons.mp hk' with rfl | hk'
        · rw [hoff m' hm'] at hon'
          cases hon'
        · exact hwrite k' hk' m' hm' hon'
      · rw [hmembers] at hkeep hwrite
        refine ⟨?_, ?_⟩
        · intro k' m' hm' hseq
          obtain ⟨v, hv, hvn, -⟩ := MemberSet.lookup_written m.name hm'
          exact hkeep k' _ hv (hvn hseq)
        · intro k' hk' m' hm' hon'
          rcases List.mem_cons.mp hk' with rfl | hk'
          · obtain rfl := Option.some.inj (hm.symm.trans hm')
            obtain ⟨v, hv, -, hvn⟩ := MemberSet.lookup_written m.name hm₀
            exact ⟨⟨m₀, hm₀⟩, hkeep m.name _ hv (hvn rfl)⟩
          · obtain ⟨v, hv, -, -⟩ := MemberSet.lookup_written m.name hm'
            obtain ⟨⟨m₁, hm₁⟩, hthere⟩ := hwrite k' hk' _ hv hon'
            refine ⟨?_, hthere⟩
            rcases GoMap.lookup_modify_some hm₁ with
              ⟨hname, m₂, hm₂, -⟩ | hm₂
            · exact ⟨m₂, by rw [← hm₂, ← hname]⟩
            · exact ⟨m₁, hm₂⟩

/-- Where that changes nothing, `n` is the number that was there. -/
theorem seq_of_printing (hout : (ExecAnswer.exitsZero out).misread = some n)
    (h : DetectsFaithfully (.printing out) s)
    (hm : s.members.lookup k = some m) (hon : m.online = true) :
    ∃ m₀, s.members.lookup m.name = some m₀ ∧ m₀.seq = n := by
  obtain ⟨t, hret, hread⟩ := h
  obtain ⟨-, hwrite⟩ := printing_writes hout _ _ _ hret
  obtain ⟨⟨m₀, hm₀⟩, m', hm', hseq⟩ :=
    hwrite k (GoMap.mem_range.mpr ⟨m, hm⟩) m hm hon
  refine ⟨m₀, hm₀, ?_⟩
  cases hon₀ : m₀.online with
  | false =>
      have hkept := (hread m.name m₀ hm₀).1 hon₀
      rw [Option.some.inj (hkept.symm.trans hm')]
      exact hseq
  | true =>
      obtain ⟨a, ha, hkept⟩ := (hread m.name m₀ hm₀).2 hon₀
      have hissued := Issued.detectMembers (.printing out) s
      rw [hret, Outcome.state_ret] at hissued
      obtain ⟨i, pod, rfl⟩ := hissued.answersTo a
        (ha.symm ▸ List.mem_singleton_self a)
      have hnone : ((Env.printing out).exec i .sequence pod).printed = none :=
        ExecAnswer.printed_of_misread hout
      rw [hnone] at hkept
      rw [← hseq, ← Option.some.inj (hkept.symm.trans hm')]
      rfl

end Garbled

/-- What a call of `detectMembers` leaves is what was printed, or what was
there, whatever is printed, exactly if nobody is there to ask. On a
well-keyed set a call keeps to it exactly if nobody who is asked has a
number other than the one its output is misread as. -/
theorem detection_faithful_iff (s : Sys) :
    ((∀ env, DetectsFaithfully env s)
      ↔ ∀ k m, s.members.lookup k = some m → m.online = false)
    ∧ ∀ env, s.members.WellKeyed →
      (DetectsFaithfully env s
        ↔ ∀ k m, s.members.lookup k = some m → m.online = true →
            ∀ a ∈ s.answersTo k (detectMembers env s).state, ∀ n,
              a.misread = some n → m.seq = n) := by
  refine ⟨⟨?_, ?_⟩, fun env => detectsFaithfully_iff env⟩
  · intro hall k m hm
    rw [← Bool.not_eq_true]
    intro hon
    -- two outputs that are misread as different numbers
    obtain ⟨m₀, hm₀, hzero⟩ := @seq_of_printing s k m "x" 0
      (by decide +kernel) (hall _) hm hon
    obtain ⟨m₁, hm₁, hlarge⟩ := @seq_of_printing s k m
      "18446744073709551616" (2 ^ 64 - 1) (by decide +kernel) (hall _) hm hon
    obtain rfl := Option.some.inj (hm₀.symm.trans hm₁)
    omega
  · intro hoff env
    refine ⟨_, detectMembers_idle env hoff, fun k m hm => ⟨fun _ => hm, ?_⟩⟩
    intro hon
    rw [hoff k m hm] at hon
    cases hon

/-- One pod, which has counted to seven. -/
def MemberSet.oneAtSeven : MemberSet :=
  MemberSet.add { name := "db-0", online := true, seq := 7 } ∅

/-- It prints what is no number, and is then at zero. -/
theorem detection_garbled :
    let s := (Sys.start (.sized 1 1)).setPeers .oneAtSeven
    let t := (detectMembers (.printing "abc") s).state
    (s.answersTo "db-0" t).map ExecAnswer.printed = [none]
      ∧ (s.members.lookup "db-0").map Member.seq = some 7
      ∧ (t.members.lookup "db-0").map Member.seq = some 0
      ∧ ¬ DetectsFaithfully (.printing "abc") s := by
  refine ⟨by decide +kernel, by decide +kernel, by decide +kernel, ?_⟩
  intro h
  obtain ⟨m, hm, hseq⟩ := @seq_of_printing _ "db-0"
    { name := "db-0", online := true, seq := 7 } "abc" 0
    (by decide +kernel) h (by decide +kernel) rfl
  have hseven : ((((Sys.start (.sized 1 1)).setPeers
      .oneAtSeven).members.lookup "db-0").map Member.seq) = some 7 := by
    decide +kernel
  rw [hm, Option.map_some, hseq] at hseven
  cases hseven

-- ============================================= the events that follow

/-- The entry is no answer to a sequence command. -/
def Event.unasked (e : Event) : Prop := ∀ k, e.sequenceAnswer k = none

theorem Event.unasked_of_quiet {e : Event} (h : e.quiet = true) :
    e.unasked := by
  intro k
  cases e with
  | exec => cases h
  | delete => rfl
  | tag => rfl
  | update => rfl
  | get => rfl

theorem Event.unasked_of_seedStart {e : Event} (h : e.seedStart = true) :
    e.unasked := by
  obtain ⟨key, k, pod, args, peers, a, rfl, -⟩ := seedStart_iff.mp h
  exact fun _ => rfl

theorem Event.allows_unasked : Allows Event.unasked where
  start _ _ _ _ _ _ _ _ := rfl
  cleanup e he := by
    cases e with
    | exec call =>
        obtain ⟨rfl, -⟩ := he
        exact fun _ => rfl
    | delete => exact fun _ => rfl
    | tag => cases he
    | update => cases he
    | get => cases he

/-- Behind detection nobody is asked. -/
theorem ReachesSeeding.unasked {s₁ : Sys} (h : ReachesSeeding env s s₁)
    (fuel : Nat) :
    Acts env Event.unasked s₁ (replicate env fuel s).state := by
  have hseed : Acts env Event.unasked s₁ (seedStage env s₁).2 :=
    (seedStage_acts s₁).mono fun _ => Event.unasked_of_seedStart
  have hbody : Acts env Event.unasked s₁
      (replicateBody env fuel s).state := by
    have hfits := h.fits
    unfold replicateBody replicateStages
    dsimp only
    rw [if_neg (by omega), if_neg (fun hwait => hwait.2 h.complete),
      h.detected, Outcome.ret_andThen]
    cases hstage : seedStage env s₁ with
    | mk early s₂ =>
        rw [hstage] at hseed
        cases early with
        | some errors => exact hseed
        | none =>
            exact hseed.trans (sizeStages_within Event.allows_unasked fuel _
              (demoteTurn_within (fun _ _ _ _ _ _ => rfl) _)
              fun _ _ _ => trivial)
  unfold replicate
  exact Acts.andThen hbody fun _ _ _ => Acts.quiet (Quiet.updateCRStatus _ _)

/-- So the answers of the call are those of its detection. -/
theorem ReachesSeeding.answersTo_eq {s₁ : Sys} (h : ReachesSeeding env s s₁)
    (fuel : Nat) (k : String) :
    s.answersTo k (replicate env fuel s).state = s.answersTo k s₁ := by
  have hdetect := (@detectStage_acts env s).1
  rw [h.detected, Outcome.state_ret] at hdetect
  have hafter := h.unasked fuel
  have hnone : (s₁.since (replicate env fuel s).state).filterMap
      (Event.sequenceAnswer k) = [] := by
    refine List.filterMap_eq_nil_iff.mpr fun e he => ?_
    exact (hafter.mem_since e he).elim Event.unasked_of_quiet id k
  unfold Sys.answersTo
  rw [hdetect.since_trans hafter, List.filterMap_append, hnone,
    List.nil_append]

-- ==================================================== seeds keep to it

/-- Everybody's number is as it was. -/
def SameSeqs (ms ms' : MemberSet) : Prop :=
  ∀ k m, ms.lookup k = some m →
    ∃ m', ms'.lookup k = some m' ∧ m'.seq = m.seq

theorem SameSeqs.modify {ms ms' : MemberSet} {f : Member → Member}
    (h : SameSeqs ms ms') (hm : ms'.lookup k = some m)
    (hf : (f m).seq = m.seq) : SameSeqs ms (ms'.modify k f) := by
  intro k' m₀ hm₀
  obtain ⟨m', hm', hseq⟩ := h k' m₀ hm₀
  by_cases hk : k' = k
  · subst hk
    obtain rfl := Option.some.inj (hm.symm.trans hm')
    exact ⟨f m, GoMap.lookup_modify_of_some hm, hf.trans hseq⟩
  · exact ⟨m', by rw [GoMap.lookup_modify_ne hk, hm'], hseq⟩

theorem Act.sameSeqs {ms : MemberSet}
    (hact : Act env (Event.seedStart ·) s s')
    (hs : SameSeqs ms s.members) : SameSeqs ms s'.members := by
  cases hact with
  | quiet hq =>
      rw [hq.members]
      exact hs
  | command hm heff hpeers _ hG =>
      rw [Sys.members_of_peers hpeers]
      refine hs.modify hm ?_
      cases heff with
      | startFailed => rfl
      | started => rfl
      | stopFailed => cases hG
      | stopped => cases hG
      | checked => cases hG
  | detect _ _ _ _ _ _ hG => cases hG
  | delete _ _ _ _ _ _ hG => cases hG

/-- What the starts of the seeding loop have found is what detection
left. -/
theorem Acts.foundSeqs (h : Acts env (Event.seedStart ·) s t) :
    ∀ e ∈ s.since t, ∀ ms, e.found = some ms → SameSeqs s.members ms := by
  have hfound : SameSeqs s.members t.members ∧ ∃ es, t.trace = es ++ s.trace
      ∧ ∀ e ∈ es, ∀ ms, e.found = some ms → SameSeqs s.members ms := by
    refine Acts.keep (I := fun t => SameSeqs s.members t.members
      ∧ ∃ es, t.trace = es ++ s.trace ∧ ∀ e ∈ es, ∀ ms, e.found = some ms →
        SameSeqs s.members ms) ?_ h
      ⟨fun k m hm => ⟨m, hm, rfl⟩, [], rfl, by simp⟩
    rintro t t' ⟨hseqs, es, hes, hall⟩ hact
    obtain ⟨es', hes', hnew⟩ := hact.found
    refine ⟨hact.sameSeqs hseqs, es' ++ es, ?_, fun e he ms hms => ?_⟩
    · rw [hes', hes, List.append_assoc]
    · rcases List.mem_append.mp he with he | he
      · rw [hnew e he ms hms]
        exact hseqs
      · exact hall e he ms hms
  obtain ⟨-, es, hes, hall⟩ := hfound
  rw [Sys.since_eq hes]
  exact hall

/-- A number that was printed is there after detection. -/
theorem Asked.seq_of_printed {o : Order String} {n : Nat}
    (h : Asked (s.members.range o) s t) (ha : a ∈ s.answersTo k t)
    (hn : a.printed = some n) :
    ∃ m, t.members.lookup k = some m ∧ m.seq = n := by
  have hasked : k ∈ s.members.range o := by
    by_contra hk
    rw [(h.before k hk).2] at ha
    cases ha
  obtain ⟨m, hm⟩ := GoMap.mem_range.mp hasked
  cases hon : m.online with
  | false =>
      rw [(h.offline k m hm hon).2] at ha
      cases ha
  | true =>
      obtain ⟨b, hb, hlookup⟩ := h.online k m hm hon hasked
      rw [hb, List.mem_singleton] at ha
      subst ha
      refine ⟨_, hlookup, ?_⟩
      show a.readSeq m.seq = n
      rw [ExecAnswer.readSeq_eq, hn]
      rfl

/-- Whoever is tried as a seed is tried with the number it has printed
since `s`; who has printed none is not tried. -/
structure SeedsPrinted (s s' : Sys) : Prop where
  printed : ∀ key k pod args peers a,
    .exec (.start key true) k pod args peers a ∈ s.since s' →
    peers.appPrimaries = 0 →
    ∃ m b, peers.lookup k = some m ∧ b ∈ s.answersTo k s'
      ∧ b.printed = some m.seq
  unread : ∀ k, (∀ b ∈ s.answersTo k s', b.printed = none) →
    ∀ key pod args peers a,
      .exec (.start key true) k pod args peers a ∈ s.since s' →
      peers.appPrimaries ≠ 0

theorem SeedsPrinted.of_printed (h : ∀ key k pod args peers a,
      .exec (.start key true) k pod args peers a ∈ s.since s' →
      peers.appPrimaries = 0 →
      ∃ m b, peers.lookup k = some m ∧ b ∈ s.answersTo k s'
        ∧ b.printed = some m.seq) : SeedsPrinted s s' := by
  refine ⟨h, fun k hnone key pod args peers a hmem hzero => ?_⟩
  obtain ⟨m, b, -, hb, hprinted⟩ := h key k pod args peers a hmem hzero
  rw [hnone b hb] at hprinted
  cases hprinted

/-- The call gets to its seeding loop, and there is a candidate. -/
structure CanSeed (s : Sys) : Prop where
  fits : s.members.appMembers ≤ s.spec.getNumReplicas
  unseeded : s.members.appPrimaries = 0
  complete : s.members.activeMembers = s.spec.getNumReplicas
  candidate : ∃ k m, s.members.lookup k = some m ∧ m.eligible = true

/-- A seed start is one of the seeding loop, on a member it tries. -/
theorem seedStart_inv {key : CommandKey} {pod : String}
    {args : List String} {peers : MemberSet}
    (hmem : .exec (.start key true) k pod args peers a
      ∈ s.since (replicate env fuel s).state)
    (hzero : peers.appPrimaries = 0) :
    ∃ s₁, ReachesSeeding env s s₁
      ∧ (∃ e ∈ tried env (s₁.startCall true) s₁.execs (seedList env s₁),
        e.1 = k)
      ∧ .exec (.start key true) k pod args peers a
        ∈ s₁.since (seedStage env s₁).2 := by
  have hseed : Event.exec (.start key true) k pod args peers a
      ∈ (s.since (replicate env fuel s).state).filter Event.seedStart :=
    List.mem_filter.mpr ⟨hmem, decide_eq_true hzero⟩
  rcases @replicate_seedStarts env fuel s with ⟨s₁, hreach, heq⟩ | ⟨-, hnil⟩
  · refine ⟨s₁, hreach, ?_, ?_⟩
    · exact (seedStart_iff_tried fuel hreach).mp (mem_target_seedStart.mpr
        ⟨key, pod, args, peers, a, hmem, hzero⟩)
    · rw [heq] at hseed
      exact (List.mem_filter.mp hseed).1
  · rw [hnil] at hseed
    cases hseed

theorem mem_candidates_of_tried {s₁ : Sys} {call : Call} {n : Nat}
    {e : String × Member} (he : e ∈ tried env call n (seedList env s₁)) :
    s₁.members.lookup e.1 = some e.2 ∧ e.2.eligible = true := by
  obtain ⟨i, hi, -⟩ := mem_tried.mp he
  exact mem_candidates.mp
    ((fromFirstTop_sublist _).subset (List.mem_of_getElem? hi))

/-- Where nobody can be seeded nobody is. -/
theorem seedsPrinted_of_not_canSeed (h : ¬ CanSeed s) :
    SeedsPrinted s (replicate env fuel s).state := by
  refine .of_printed fun key k pod args peers a hmem hzero => ?_
  obtain ⟨s₁, hreach, ⟨e, he, -⟩, -⟩ := seedStart_inv hmem hzero
  obtain ⟨hm, hel⟩ := mem_candidates_of_tried he
  have hcount : 0 < GoMap.count Member.eligible s.members := by
    rw [← detected_count (fun _ _ => rfl) hreach.detected]
    exact GoMap.count_pos_iff.mpr ⟨e.1, e.2, hm, hel⟩
  exact absurd ⟨hreach.fits, hreach.unseeded, hreach.complete,
    GoMap.count_pos_iff.mp hcount⟩ h

/-- Detection comes back if every command fails, on any set. -/
theorem detectStage_of_failing
    (hfail : ∀ i pod, (env.exec i .sequence pod).succeeds = false) :
    ∃ t, detectStage env s = .ret () t := by
  have hturn : ∀ (t : Sys) k,
      ∃ t', detectMember env (.ret () t) k = .ret () t' := by
    intro t k
    unfold detectMember
    rw [Outcome.ret_andThen]
    cases hm : t.members.lookup k with
    | none => exact ⟨t, rfl⟩
    | some m =>
        dsimp only
        split
        · exact ⟨t, rfl⟩
        · have herr := hfail t.execs m.name
          unfold ExecAnswer.succeeds at herr
          rw [execute_err]
          cases ha : (env.exec t.execs .sequence m.name).err with
          | none =>
              rw [ha] at herr
              cases herr
          | some text => exact ⟨_, rfl⟩
  have hfold : ∀ (ks : List String) (t : Sys),
      ∃ t', ks.foldl (detectMember env) (.ret () t) = .ret () t' := by
    intro ks
    induction ks with
    | nil => intro t; exact ⟨t, rfl⟩
    | cons k ks ih =>
        intro t
        obtain ⟨t', ht'⟩ := hturn t k
        rw [List.foldl_cons, ht']
        exact ih t'
  unfold detectStage
  split
  · exact hfold _ _
  · exact ⟨s, rfl⟩

/-- Where everything fails a seed is tried that has printed nothing. -/
theorem CanSeed.unprinted (h : CanSeed s) :
    ¬ SeedsPrinted s (replicate (.deciding fun _ => false) fuel s).state := by
  intro hprinted
  obtain ⟨k, m, hm, hel⟩ := h.candidate
  obtain ⟨s₁, hdetect⟩ := @detectStage_of_failing
    (.deciding fun _ => false) s fun _ _ => rfl
  have hreach : ReachesSeeding (.deciding fun _ => false) s s₁ :=
    ⟨h.fits, h.unseeded, h.complete, hdetect⟩
  obtain ⟨n, hn⟩ := lookup_detectStage hdetect hm
  obtain ⟨e, he, hseed⟩ := seeding_starts fuel hreach hn hel
  obtain ⟨key, k', pod, args, peers, a, rfl, hzero⟩ :=
    Event.seedStart_iff.mp hseed
  obtain ⟨m', b, -, hb, hb'⟩ :=
    hprinted.printed key k' pod args peers a he hzero
  have hissued := (Issued.frame (.deciding fun _ => false)).replicate fuel s
  obtain ⟨i, pod', rfl⟩ := hissued.answersTo b hb
  have hnone : ((Env.deciding fun _ => false).exec i .sequence pod').printed
      = none :=
    show (ExecAnswer.exits 1).printed = none by decide +kernel
  rw [hnone] at hb'
  cases hb'

theorem seedsPrinted_iff (env : Env) (fuel : Nat)
    (hs : s.members.WellKeyed) :
    SeedsPrinted s (replicate env fuel s).state
      ↔ ∀ s₁, ReachesSeeding env s s₁ →
          ∀ e ∈ tried env (s₁.startCall true) s₁.execs (seedList env s₁),
            ∃ b ∈ s.answersTo e.1 s₁, b.printed.isSome = true := by
  constructor
  · intro h s₁ hreach e he
    obtain ⟨key, pod, args, peers, a, hmem, hzero⟩ :=
      mem_target_seedStart.mp
        ((seedStart_iff_tried fuel hreach).mpr ⟨e, he, rfl⟩)
    obtain ⟨m, b, -, hb, hprinted⟩ :=
      h.printed key e.1 pod args peers a hmem hzero
    rw [hreach.answersTo_eq] at hb
    exact ⟨b, hb, by rw [hprinted]; rfl⟩
  · intro hcond
    refine .of_printed fun key k pod args peers a hmem hzero => ?_
    obtain ⟨s₁, hreach, ⟨e, he, rfl⟩, hin⟩ := seedStart_inv hmem hzero
    obtain ⟨b, hb, hsome⟩ := hcond s₁ hreach e he
    obtain ⟨n, hn⟩ := Option.isSome_iff_exists.mp hsome
    -- the call has asked somebody, so detection was not skipped
    have hdetect := hreach.detected
    unfold detectStage at hdetect
    split at hdetect
    · obtain ⟨t, hret, hasked⟩ := detectMembers_asked env hs
      obtain rfl : t = s₁ := by
        rw [hret] at hdetect
        injection hdetect
      obtain ⟨m, hm, hseq⟩ := hasked.seq_of_printed hb hn
      obtain ⟨m', hm', hseq'⟩ :=
        (seedStage_acts t).foundSeqs _ hin peers rfl e.1 m hm
      refine ⟨m', b, hm', ?_, ?_⟩
      · rw [hreach.answersTo_eq]
        exact hb
      · rw [hn, hseq', hseq]
    · injection hdetect with _ hdetect
      subst hdetect
      rw [show s.answersTo e.1 s = [] from
        @Sys.answersTo_eq s s e.1 [] rfl] at hb
      cases hb

/-- Every seed of every call goes by a number printed in the same call,
exactly if there is nobody to seed. A call on a well-keyed set keeps to it
exactly if every seed it tries has printed a number. -/
theorem seeds_printed_iff (s : Sys) :
    ((∀ env fuel, SeedsPrinted s (replicate env fuel s).state)
      ↔ ¬ CanSeed s)
    ∧ ∀ env fuel, s.members.WellKeyed →
      (SeedsPrinted s (replicate env fuel s).state
        ↔ ∀ s₁, ReachesSeeding env s s₁ →
            ∀ e ∈ tried env (s₁.startCall true) s₁.execs (seedList env s₁),
              ∃ b ∈ s.answersTo e.1 s₁, b.printed.isSome = true) := by
  refine ⟨⟨?_, ?_⟩, fun env fuel => seedsPrinted_iff env fuel⟩
  · intro hall hcan
    exact hcan.unprinted (hall _ 0)
  · intro hnot env fuel
    exact seedsPrinted_of_not_canSeed hnot

/-- `db-0` has seen the most. Nothing starts at first; later `db-0` does not
say what it has seen. -/
def Env.fallsSilent : Env :=
  .answering fun n call pod => match call with
    | .status => .exits 7
    | .sequence =>
        if pod = "db-0" then if n < 9 then .exitsZero "9" else .exits 1
        else .exitsZero "5"
    | .start _ _ => if n < 9 then .exits 1 else .exitsZero ""
    | .stop => .exitsZero ""

/-- In the second pass `db-0` is the first seed all the same, by the number
it had printed in the first. -/
theorem seeds_remembered :
    let pass (s : Sys) := (reconcile .fallsSilent .three s).state
    let s := pass (replicate .fallsSilent 9
      (pass (Sys.start (.sized 3 1)))).state
    let t := (replicate .fallsSilent 9 s).state
    (s.answersTo "db-0" t).map ExecAnswer.printed = [none]
      ∧ (s.answersTo "db-1" t).map ExecAnswer.printed = [some 5]
      ∧ (s.members.lookup "db-0").map Member.seq = some 9
      ∧ ((s.since t).filter Event.seedStart).map Event.target = [some "db-0"]
      ∧ ¬ SeedsPrinted s t := by
  intro pass s t
  have hanswers : (s.answersTo "db-0" t).map ExecAnswer.printed = [none] := by
    decide +kernel
  have hseeds : ((s.since t).filter Event.seedStart).map Event.target
      = [some "db-0"] := by
    decide +kernel
  refine ⟨hanswers, by decide +kernel, by decide +kernel, hseeds, ?_⟩
  intro h
  obtain ⟨key, pod, args, peers, a, hmem, hzero⟩ :=
    mem_target_seedStart.mp (hseeds ▸ List.mem_singleton_self _)
  refine h.unread "db-0" (fun b hb => ?_) key pod args peers a hmem hzero
  have hb' := List.mem_map_of_mem (f := ExecAnswer.printed) hb
  rw [hanswers] at hb'
  exact List.mem_singleton.mp hb'

end RssOperator
