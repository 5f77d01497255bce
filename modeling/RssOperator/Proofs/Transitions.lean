/-
The condition operations of `status.go` along any sequence of calls.

# One operation

Setting a condition appends it, or replaces the one of its type in place
unless status, reason and message are what they were; clearing cuts one
out. Both lists are given with the place where they differ
(`setClusterCondition_split`, `clearCondition_split`), and everything else
is read off there: the other types keep their conditions and their order
(`ClusterStatus.others`), and the type itself has what was asked for.

# A sequence of calls

With distinct types before, each call of a sequence leaves distinct types,
the condition it sets, and nothing else changed (`condition_calls_done`).

# The time of the last transition

`ConditionUpdate.noted` follows a history without looking at the list: the
status of a type and the time it last changed or came up. The code stores
the time of every replacement. So what is stored is the time of the
transition exactly if no update replaces a condition by one with the same
status, unless at the very time that is stored (`transition_times_iff`).
-/
import RssOperator.Proofs.Conditions

namespace RssOperator

variable {env : Env} {s s' : Sys} {c : Cluster} {t : ClusterConditionType}
  {new : ClusterCondition} {moved : Bool}

-- ====================================================== one operation

theorem getClusterCondition_split {cs : List ClusterCondition} {pos : Nat}
    (h : getClusterCondition cs t = some pos) :
    ∃ l cp r, cs = l ++ cp :: r ∧ l.length = pos ∧ cp.type = t := by
  obtain ⟨⟨cp, hcp, htype⟩, -⟩ := getClusterCondition_eq_some h
  obtain ⟨hlt, hget⟩ := List.getElem?_eq_some_iff.mp hcp
  refine ⟨cs.take pos, cp, cs.drop (pos + 1), ?_, ?_, htype⟩
  · rw [← hget, List.getElem_cons_drop, List.take_append_drop]
  · rw [List.length_take]
    omega

/-- The condition says what another one says. -/
def ClusterCondition.Agrees (cp new : ClusterCondition) : Prop :=
  cp.status = new.status ∧ cp.reason = new.reason
    ∧ cp.message = new.message

instance (cp new : ClusterCondition) : Decidable (cp.Agrees new) :=
  inferInstanceAs (Decidable (_ ∧ _))

/-- A condition is appended, or takes the place of the one of its type if
that says something else. -/
theorem Cluster.setClusterCondition_split (moved : Bool)
    (new : ClusterCondition) (c : Cluster) :
    (new.type ∉ c.status.types
        ∧ (c.setClusterCondition moved new).status.conditions
          = c.status.conditions ++ [new])
      ∨ ∃ l cp r, c.status.conditions = l ++ cp :: r ∧ cp.type = new.type
        ∧ (c.setClusterCondition moved new).status.conditions
          = l ++ (if cp.Agrees new then cp else new) :: r := by
  unfold setClusterCondition
  dsimp only
  split
  · next hnone =>
    refine Or.inl ⟨getClusterCondition_eq_none.mp hnone, ?_⟩
    split <;> rfl
  · next pos hpos =>
    obtain ⟨l, cp, r, hcs, hlen, htype⟩ := getClusterCondition_split hpos
    refine Or.inr ⟨l, cp, r, hcs, htype, ?_⟩
    have hget : c.status.conditions[pos]? = some cp := by
      rw [hcs, ← hlen]
      simp
    rw [hget]
    dsimp only
    split
    · next hsame =>
      rw [if_pos (show cp.Agrees new from hsame)]
      exact hcs
    · next hsame =>
      rw [if_neg (show ¬ cp.Agrees new from hsame)]
      show c.status.conditions.set pos new = _
      rw [hcs, ← hlen]
      simp

/-- A condition is cut out. -/
theorem Cluster.clearCondition_split (t : ClusterConditionType)
    (c : Cluster) :
    (t ∉ c.status.types ∧ (c.clearCondition t).status.conditions
        = c.status.conditions)
      ∨ ∃ l cp r, c.status.conditions = l ++ cp :: r ∧ cp.type = t
        ∧ (c.clearCondition t).status.conditions = l ++ r := by
  unfold clearCondition
  dsimp only
  split
  · next hnone => exact Or.inl ⟨getClusterCondition_eq_none.mp hnone, rfl⟩
  · next pos hpos =>
    obtain ⟨l, cp, r, hcs, hlen, htype⟩ := getClusterCondition_split hpos
    refine Or.inr ⟨l, cp, r, hcs, htype, ?_⟩
    show c.status.conditions.eraseIdx pos = _
    rw [hcs, ← hlen, List.eraseIdx_append_of_length_le (Nat.le_refl _),
      Nat.sub_self, List.eraseIdx_zero, List.tail_cons]

-- ========================================================= other types

/-- The conditions of the other types, in their order. -/
def ClusterStatus.others (st : ClusterStatus) (t : ClusterConditionType) :
    List ClusterCondition :=
  st.conditions.filter fun c => decide (c.type ≠ t)

theorem ClusterStatus.others_split {st : ClusterStatus}
    {l r m : List ClusterCondition} (h : st.conditions = l ++ m ++ r)
    (hm : ∀ c ∈ m, c.type = t) :
    st.others t = (l ++ r).filter fun c => decide (c.type ≠ t) := by
  have hnone : m.filter (fun c => decide (c.type ≠ t)) = [] := by
    refine List.filter_eq_nil_iff.mpr fun c hc => ?_
    simp [hm c hc]
  unfold others
  rw [h, List.filter_append, List.filter_append, hnone, List.append_nil,
    List.filter_append]

theorem Cluster.setClusterCondition_others :
    (c.setClusterCondition moved new).status.others new.type
      = c.status.others new.type := by
  rcases c.setClusterCondition_split moved new with
    ⟨-, hcs⟩ | ⟨l, cp, r, hbefore, htype, hafter⟩
  · rw [ClusterStatus.others_split (l := c.status.conditions) (m := [new])
      (r := []) (by rw [hcs, List.append_nil]) (by simp), List.append_nil]
    rfl
  · have hone : ∀ x ∈ [if cp.Agrees new then cp else new],
        x.type = new.type := by
      intro x hx
      rw [List.mem_singleton.mp hx]
      split
      · exact htype
      · rfl
    rw [ClusterStatus.others_split (l := l) (r := r)
        (by rw [hafter, List.append_assoc]; rfl) hone,
      ClusterStatus.others_split (l := l) (r := r) (m := [cp])
        (by rw [hbefore, List.append_assoc]; rfl) (by simp [htype])]

theorem Cluster.clearCondition_others :
    (c.clearCondition t).status.others t = c.status.others t := by
  rcases c.clearCondition_split t with
    ⟨-, hcs⟩ | ⟨l, cp, r, hbefore, htype, hafter⟩
  · unfold ClusterStatus.others
    rw [hcs]
  · rw [ClusterStatus.others_split (l := l) (r := r) (m := [])
        (by rw [hafter, List.append_nil]) (by simp),
      ClusterStatus.others_split (l := l) (r := r) (m := [cp])
        (by rw [hbefore, List.append_assoc]; rfl) (by simp [htype])]

/-- What looks at other types only finds the same. -/
theorem ClusterStatus.filter_of_others {st st' : ClusterStatus}
    {p : ClusterCondition → Bool} (h : st'.others t = st.others t)
    (hp : ∀ c, p c = true → c.type ≠ t) :
    st'.conditions.filter p = st.conditions.filter p := by
  have hsub : ∀ cs : List ClusterCondition,
      (cs.filter fun c => decide (c.type ≠ t)).filter p = cs.filter p := by
    intro cs
    rw [List.filter_filter]
    refine List.filter_congr fun c _ => ?_
    cases hpc : p c with
    | false => rfl
    | true => simpa using hp c hpc
  rw [← hsub, ← hsub st.conditions]
  exact congrArg (List.filter p) h

-- ============================================================== calls

/-- The calls that change the conditions of a status. -/
inductive ConditionCall where
  | setScalingUpCondition (fromSize toSize : Int)
  | setScalingDownCondition (fromSize toSize : Int)
  | setRecoveringCondition
  | setUpgradingCondition (toVersion : String)
  | setReadyCondition
  | clearCondition (t : ClusterConditionType)

namespace ConditionCall

def run (env : Env) : ConditionCall → Sys → Sys
  | setScalingUpCondition fromSize toSize =>
      Sys.setScalingUpCondition env fromSize toSize
  | setScalingDownCondition fromSize toSize =>
      Sys.setScalingDownCondition env fromSize toSize
  | setRecoveringCondition => Sys.setRecoveringCondition env
  | setUpgradingCondition toVersion =>
      Sys.setUpgradingCondition env toVersion
  | setReadyCondition => Sys.setReadyCondition env
  | clearCondition t => Sys.mapCluster (Cluster.clearCondition t)

/-- The type, reason and message of the condition a call asks for. -/
def sets : ConditionCall → Option (ClusterConditionType × String × String)
  | setScalingUpCondition fromSize toSize =>
      some (.scaling, "Scaling up", scalingMsg fromSize toSize)
  | setScalingDownCondition fromSize toSize =>
      some (.scaling, "Scaling down", scalingMsg fromSize toSize)
  | setRecoveringCondition => some (.recovering, "Disaster recovery",
      "Majority is down. Recovering from backup")
  | setUpgradingCondition toVersion =>
      some (.upgrading, "Cluster upgrading", "upgrading to " ++ toVersion)
  | setReadyCondition => some (.available, "Cluster available", "")
  | clearCondition _ => none

/-- The type of the condition a call removes. -/
def clears : ConditionCall → Option ClusterConditionType
  | setRecoveringCondition => some .available
  | clearCondition t => some t
  | _ => none

/-- The call is about another type. -/
def spares (call : ConditionCall) (t : ClusterConditionType) : Bool :=
  decide (call.sets.map Prod.fst ≠ some t ∧ call.clears ≠ some t)

/-- What a call leaves: one condition a type, the one it asks for, none of
the type it removes, and otherwise what was there, in the same order. -/
structure Done (call : ConditionCall) (st st' : ClusterStatus) : Prop where
  distinct : st'.Distinct
  present : ∀ t reason message, call.sets = some (t, reason, message) →
    ∃ c ∈ st'.conditions, c.type = t ∧ c.status = .isTrue
      ∧ c.reason = reason ∧ c.message = message
  absent : ∀ t, call.clears = some t → ¬ st'.shows t
  others : st'.conditions.filter (fun c => call.spares c.type)
    = st.conditions.filter fun c => call.spares c.type
  rest : st' = { st with conditions := st'.conditions }

end ConditionCall

/-- What setting a condition leaves. -/
theorem setCondition_done (t : ClusterConditionType)
    (reason message : String) (s : Sys) :
    (∃ c ∈ (s.setCondition env t reason message).c.status.conditions,
        c.type = t ∧ c.status = .isTrue ∧ c.reason = reason
          ∧ c.message = message)
      ∧ (s.setCondition env t reason message).c.status.others t
        = s.c.status.others t
      ∧ ∃ cs, (s.setCondition env t reason message).c.status
        = { s.c.status with conditions := cs } := by
  refine ⟨?_, @Cluster.setClusterCondition_others s.c
    (newClusterCondition t .isTrue reason message (env.now s.calls)) _,
    Cluster.setClusterCondition_status ..⟩
  rcases s.c.setClusterCondition_split (env.grow s.calls)
      (newClusterCondition t .isTrue reason message (env.now s.calls)) with
    ⟨-, hcs⟩ | ⟨l, cp, r, -, htype, hafter⟩
  · refine ⟨newClusterCondition t .isTrue reason message (env.now s.calls),
      ?_, rfl, rfl, rfl, rfl⟩
    exact hcs.symm ▸ List.mem_append_right _ (List.mem_singleton_self _)
  · refine ⟨_, hafter.symm ▸ List.mem_append_right l List.mem_cons_self, ?_⟩
    split
    · next hsame => exact ⟨htype, hsame.1, hsame.2.1, hsame.2.2⟩
    · exact ⟨rfl, rfl, rfl, rfl⟩

namespace ConditionCall

variable {call : ConditionCall}

/-- A call that sets a condition and nothing else. -/
theorem Done.of_set {reason message : String}
    (hsets : call.sets = some (t, reason, message))
    (hclears : call.clears = none) (hd : s.c.status.Distinct) :
    call.Done s.c.status (s.setCondition env t reason message).c.status := by
  obtain ⟨hpresent, hothers, cs, hrest⟩ :=
    @setCondition_done env t reason message s
  refine ⟨(setCondition_shows t reason message s hd).1, ?_, ?_, ?_, ?_⟩
  · intro t' reason' message' hsets'
    rw [hsets] at hsets'
    cases hsets'
    exact hpresent
  · intro t' hclears'
    rw [hclears] at hclears'
    cases hclears'
  · refine ClusterStatus.filter_of_others hothers fun c hc heq => ?_
    have hsets' := (of_decide_eq_true hc).1
    rw [hsets, heq] at hsets'
    exact hsets' rfl
  · rw [hrest]

theorem clearCondition_done (env : Env) (t : ClusterConditionType)
    (hd : s.c.status.Distinct) :
    Done (.clearCondition t) s.c.status
      (run env (.clearCondition t) s).c.status := by
  obtain ⟨hdist, hshows⟩ := clearCondition_shows t s hd
  obtain ⟨cs, hrest⟩ := Cluster.clearCondition_status t s.c
  refine ⟨hdist, nofun, ?_, ?_, ?_⟩
  · rintro t' ⟨⟩ hshow
    exact ((hshows t).mp hshow).1 rfl
  · refine ClusterStatus.filter_of_others
      (@Cluster.clearCondition_others s.c t) fun c hc heq => ?_
    exact (of_decide_eq_true hc).2 (congrArg some heq.symm)
  · show (s.c.clearCondition t).status = _
    rw [show (run env (.clearCondition t) s).c.status
      = (s.c.clearCondition t).status from rfl, hrest]

/-- The call that sets one condition and removes another. -/
theorem setRecoveringCondition_done (env : Env)
    (hd : s.c.status.Distinct) :
    Done .setRecoveringCondition s.c.status
      (run env .setRecoveringCondition s).c.status := by
  obtain ⟨⟨c, hc, htype, hsays⟩, hset, cs, hrest⟩ :=
    @setCondition_done env .recovering "Disaster recovery"
      "Majority is down. Recovering from backup" s
  have hdist := (@setCondition_shows env .recovering "Disaster recovery"
    "Majority is down. Recovering from backup" s hd).1
  have hrun : (run env .setRecoveringCondition s).c
      = (s.setCondition env .recovering "Disaster recovery"
        "Majority is down. Recovering from backup").c.clearCondition
          .available := rfl
  generalize s.setCondition env .recovering "Disaster recovery"
    "Majority is down. Recovering from backup" = s₁ at *
  obtain ⟨hdist', hshows⟩ := clearCondition_shows .available s₁ hdist
  have hcleared := @Cluster.clearCondition_others s₁.c .available
  obtain ⟨cs', hrest'⟩ := Cluster.clearCondition_status .available s₁.c
  rw [hrun]
  refine ⟨hdist', ?_, ?_, ?_, ?_⟩
  · rintro t reason message ⟨⟩
    -- the condition is of another type than the one removed
    refine ⟨c, ?_, htype, hsays⟩
    have hmem : c ∈ s₁.c.status.others .available :=
      List.mem_filter.mpr ⟨hc, by simp [htype]⟩
    rw [← hcleared] at hmem
    exact (List.mem_filter.mp hmem).1
  · rintro t ⟨⟩ hshow
    exact ((hshows .available).mp hshow).1 rfl
  · rw [ClusterStatus.filter_of_others hcleared fun c hc heq =>
        (of_decide_eq_true hc).2 (congrArg some heq.symm),
      ClusterStatus.filter_of_others hset fun c hc heq =>
        (of_decide_eq_true hc).1 (congrArg some heq.symm)]
  · rw [hrest', hrest]

/-- One call. -/
theorem run_done (env : Env) (call : ConditionCall)
    (hd : s.c.status.Distinct) :
    call.Done s.c.status (call.run env s).c.status := by
  cases call with
  | setScalingUpCondition => exact .of_set rfl rfl hd
  | setScalingDownCondition => exact .of_set rfl rfl hd
  | setUpgradingCondition => exact .of_set rfl rfl hd
  | setReadyCondition => exact .of_set rfl rfl hd
  | clearCondition t => exact clearCondition_done env t hd
  | setRecoveringCondition => exact setRecoveringCondition_done env hd

/-- The calls of a list, one after the other. -/
def runAll (env : Env) (calls : List ConditionCall) (s : Sys) : Sys :=
  calls.foldl (fun s call => call.run env s) s

theorem runAll_distinct (env : Env) (calls : List ConditionCall) :
    ∀ s : Sys, s.c.status.Distinct →
      (runAll env calls s).c.status.Distinct := by
  induction calls with
  | nil => intro s hd; exact hd
  | cons call calls ih =>
      intro s hd
      exact ih _ (call.run_done env hd).distinct

end ConditionCall

/-- From a status with one condition a type, after any calls: there is one
condition a type, and the next call leaves the one it asks for and does not
touch the other types, but for the one it removes. -/
theorem condition_calls_done (env : Env) (s : Sys)
    (hd : s.c.status.Distinct) (calls : List ConditionCall)
    (call : ConditionCall) :
    (ConditionCall.runAll env calls s).c.status.Distinct
      ∧ call.Done (ConditionCall.runAll env calls s).c.status
          (call.run env (ConditionCall.runAll env calls s)).c.status := by
  have hdist := ConditionCall.runAll_distinct env calls s hd
  exact ⟨hdist, call.run_done env hdist⟩

/-- `Available` is there and `Scaling` has come up; then the cluster
recovers. -/
theorem condition_calls_recovering :
    let s := (Sys.start (.sized 3 1)).setReadyCondition
      (.deciding fun _ => true)
    let s₁ := ConditionCall.runAll (.deciding fun _ => true)
      [.setScalingUpCondition 2 3, .setUpgradingCondition "2.1"] s
    s₁.c.status.types = [.available, .scaling, .upgrading]
      ∧ (ConditionCall.run (.deciding fun _ => true) .setRecoveringCondition
          s₁).c.status.types = [.scaling, .upgrading, .recovering]
      ∧ ConditionCall.Done .setRecoveringCondition s₁.c.status
          (ConditionCall.run (.deciding fun _ => true)
            .setRecoveringCondition s₁).c.status := by
  refine ⟨by decide +kernel, by decide +kernel, ?_⟩
  refine (condition_calls_done _ _ ?_ _ _).2
  unfold ClusterStatus.Distinct
  decide +kernel

-- ================================================ what a type is given

/-- The condition of a type, if there is one. -/
def ClusterStatus.condition (st : ClusterStatus) (t : ClusterConditionType) :
    Option ClusterCondition :=
  st.conditions.find? fun c => decide (c.type = t)

theorem ClusterStatus.condition_eq_none {st : ClusterStatus} :
    st.condition t = none ↔ t ∉ st.types := by
  unfold condition types
  rw [List.find?_eq_none]
  simp only [decide_eq_true_eq, List.mem_map, not_exists, not_and]

theorem ClusterStatus.mem_of_condition {st : ClusterStatus}
    {cp : ClusterCondition} (h : st.condition t = some cp) :
    cp ∈ st.conditions ∧ cp.type = t := by
  unfold condition at h
  have htype := List.find?_some h
  exact ⟨List.mem_of_find?_eq_some h, of_decide_eq_true htype⟩

/-- The conditions of another type do not matter. -/
theorem ClusterStatus.condition_of_others {st st' : ClusterStatus}
    {t' : ClusterConditionType} (h : st'.others t = st.others t)
    (hne : t' ≠ t) : st'.condition t' = st.condition t' := by
  have hfind : ∀ st : ClusterStatus, st.condition t'
      = (st.conditions.filter fun c => decide (c.type = t')).head? := by
    intro st
    rw [List.head?_filter]
    rfl
  rw [hfind, hfind, filter_of_others h]
  intro c hc heq
  exact hne (heq.symm.trans (of_decide_eq_true hc)).symm

/-- The place of a condition in a list without its like. -/
theorem ClusterStatus.condition_split {st : ClusterStatus}
    {l r : List ClusterCondition} {cp : ClusterCondition}
    (h : st.conditions = l ++ cp :: r)
    (hl : cp.type ∉ l.map ClusterCondition.type) :
    st.condition cp.type = some cp := by
  have hnone : l.find? (fun c => decide (c.type = cp.type)) = none := by
    rw [List.find?_eq_none]
    intro c hc heq
    exact hl (List.mem_map.mpr ⟨c, hc, of_decide_eq_true heq⟩)
  unfold condition
  rw [h, List.find?_append, hnone, Option.none_or]
  exact List.find?_cons_of_pos (decide_eq_true rfl)

theorem ClusterStatus.Distinct.not_mem {st : ClusterStatus}
    {l r : List ClusterCondition} {cp : ClusterCondition}
    (hd : st.Distinct) (h : st.conditions = l ++ cp :: r) :
    cp.type ∉ l.map ClusterCondition.type := by
  unfold Distinct types at hd
  rw [h, List.map_append, List.map_cons] at hd
  exact fun hmem => (List.nodup_append.mp hd).2.2 _ hmem _
    List.mem_cons_self rfl

/-- What is there of a type after a condition of it was set. -/
theorem Cluster.condition_set (hd : c.status.Distinct) :
    (c.setClusterCondition moved new).status.condition new.type
      = match c.status.condition new.type with
        | none => some new
        | some cp => if cp.Agrees new then some cp else some new := by
  rcases c.setClusterCondition_split moved new with
    ⟨habsent, hcs⟩ | ⟨l, cp, r, hbefore, htype, hafter⟩
  · rw [ClusterStatus.condition_eq_none.mpr habsent,
      ClusterStatus.condition_split hcs habsent]
  · have hl := hd.not_mem hbefore
    rw [← htype, ClusterStatus.condition_split hbefore hl]
    by_cases hsame : cp.Agrees new
    · rw [if_pos hsame] at hafter
      rw [ClusterStatus.condition_split hafter hl]
      exact (if_pos hsame).symm
    · rw [if_neg hsame] at hafter
      rw [htype] at hl ⊢
      rw [ClusterStatus.condition_split hafter hl]
      exact (if_neg hsame).symm

theorem Cluster.condition_clear (hd : c.status.Distinct) :
    (c.clearCondition t).status.condition t = none := by
  rw [ClusterStatus.condition_eq_none, Cluster.clearCondition_types]
  exact fun hmem => (hd.mem_erase_iff.mp hmem).1 rfl

-- ============================================================ updates

/-- An update of the conditions: one is set, at a time and with or without
room for it, or one is cleared. -/
inductive ConditionUpdate where
  | set (moved : Bool) (type : ClusterConditionType)
      (status : ConditionStatus) (reason message now : String)
  | clear (type : ClusterConditionType)

namespace ConditionUpdate

def apply : ConditionUpdate → Cluster → Cluster
  | set moved type status reason message now =>
      Cluster.setClusterCondition moved
        (newClusterCondition type status reason message now)
  | clear type => Cluster.clearCondition type

/-- The updates of a list, one after the other. -/
def applyAll (us : List ConditionUpdate) (c : Cluster) : Cluster :=
  us.foldl (fun c u => u.apply c) c

/-- What an observer notes of a type: its status, and when that changed
last or came up. -/
def noted (u : ConditionUpdate) (t : ClusterConditionType)
    (old : Option (ConditionStatus × String)) :
    Option (ConditionStatus × String) :=
  match u with
  | set _ type status _ _ now =>
      if type = t then
        if old.map Prod.fst = some status then old else some (status, now)
      else old
  | clear type => if type = t then none else old

/-- The same after the updates of a list. -/
def notedAll (us : List ConditionUpdate) (t : ClusterConditionType)
    (old : Option (ConditionStatus × String)) :
    Option (ConditionStatus × String) :=
  us.foldl (fun old u => u.noted t old) old

end ConditionUpdate

/-- What the status says of a type. -/
def ClusterStatus.transition (st : ClusterStatus)
    (t : ClusterConditionType) : Option (ConditionStatus × String) :=
  (st.condition t).map fun c => (c.status, c.lastTransitionTime)

/-- At every point of the updates the status says of every type what was
noted of it. -/
def MeansTransition (us : List ConditionUpdate) (c : Cluster) : Prop :=
  ∀ pre, pre <+: us → ∀ t,
    (ConditionUpdate.applyAll pre c).status.transition t
      = ConditionUpdate.notedAll pre t (c.status.transition t)

/-- Each of the updates is as `P` wants it where it is applied. -/
def EachUpdate (P : Cluster → ConditionUpdate → Prop) :
    List ConditionUpdate → Cluster → Prop
  | [], _ => True
  | u :: us, c => P c u ∧ EachUpdate P us (u.apply c)

namespace ConditionUpdate

variable {u : ConditionUpdate} {us : List ConditionUpdate}

/-- The type an update is about. -/
def type : ConditionUpdate → ClusterConditionType
  | set _ type _ _ _ _ | clear type => type

/-- The time of an update that sets a condition. -/
def time : ConditionUpdate → Option String
  | set _ _ _ _ _ now => some now
  | clear _ => none

/-- The update gives the condition `cp` other words at the time `now`, and
leaves its status. -/
def Rewords (u : ConditionUpdate) (cp : ClusterCondition) (now : String)
    (c : Cluster) : Prop :=
  ∃ moved reason message,
    u = .set moved cp.type cp.status reason message now
      ∧ c.status.condition cp.type = some cp
      ∧ ¬ (cp.reason = reason ∧ cp.message = message)

theorem apply_distinct (u : ConditionUpdate) (hd : c.status.Distinct) :
    (u.apply c).status.Distinct := by
  cases u with
  | set => exact Cluster.setClusterCondition_distinct hd
  | clear t =>
      unfold ClusterStatus.Distinct apply
      rw [Cluster.clearCondition_types]
      exact hd.erase t

/-- A condition after an update was there, or is as old as the update. -/
theorem apply_mem {cp : ClusterCondition}
    (h : cp ∈ (u.apply c).status.conditions) :
    cp ∈ c.status.conditions ∨ u.time = some cp.lastTransitionTime := by
  cases u with
  | set moved type status reason message now =>
      unfold apply at h
      rcases c.setClusterCondition_split moved
          (newClusterCondition type status reason message now) with
        ⟨-, hcs⟩ | ⟨l, cp', r, hbefore, -, hafter⟩
      · rw [hcs, List.mem_append, List.mem_singleton] at h
        rcases h with h | rfl
        · exact Or.inl h
        · exact Or.inr rfl
      · rw [hafter, List.mem_append, List.mem_cons] at h
        rw [hbefore, List.mem_append, List.mem_cons]
        rcases h with h | rfl | h
        · exact Or.inl (Or.inl h)
        · split
          · exact Or.inl (Or.inr (Or.inl rfl))
          · exact Or.inr rfl
        · exact Or.inl (Or.inr (Or.inr h))
  | clear t =>
      left
      unfold apply at h
      rcases c.clearCondition_split t with
        ⟨-, hcs⟩ | ⟨l, cp', r, hbefore, -, hafter⟩
      · exact hcs ▸ h
      · rw [hafter, List.mem_append] at h
        rw [hbefore, List.mem_append, List.mem_cons]
        rcases h with h | h
        · exact Or.inl h
        · exact Or.inr (Or.inr h)

/-- Of another type nothing is noted, and nothing changes. -/
theorem transition_of_ne (h : u.type ≠ t) :
    (u.apply c).status.transition t = u.noted t (c.status.transition t) := by
  have hnoted : ∀ old, u.noted t old = old := by
    intro old
    cases u with
    | set => exact if_neg h
    | clear => exact if_neg h
  have hothers : (u.apply c).status.others u.type
      = c.status.others u.type := by
    cases u with
    | set moved type status reason message now =>
        exact @Cluster.setClusterCondition_others c
          (newClusterCondition type status reason message now) moved
    | clear type => exact Cluster.clearCondition_others
  rw [hnoted]
  unfold ClusterStatus.transition
  rw [ClusterStatus.condition_of_others hothers fun heq => h heq.symm]

/-- Of its own type an update that sets a condition leaves what is noted,
unless it rewords one at another time than is stored. -/
theorem transition_set_iff {status : ConditionStatus}
    {reason message now : String} (hd : c.status.Distinct) :
    ((set moved t status reason message now).apply c).status.transition t
        = (set moved t status reason message now).noted t
          (c.status.transition t)
      ↔ ∀ cp, c.status.condition t = some cp → cp.status = status →
          ¬ (cp.reason = reason ∧ cp.message = message) →
          cp.lastTransitionTime = now := by
  have hset : ((set moved t status reason message now).apply
      c).status.condition t = _ := @Cluster.condition_set c
    (newClusterCondition t status reason message now) moved hd
  have hnoted : ∀ old, (set moved t status reason message now).noted t old
      = if old.map Prod.fst = some status then old
        else some (status, now) := fun old => if_pos rfl
  rw [hnoted]
  unfold ClusterStatus.transition
  rw [hset, show (newClusterCondition t status reason message now).type = t
    from rfl]
  cases hc : c.status.condition t with
  | none => simp [newClusterCondition]
  | some cp =>
      dsimp only [Option.map_some]
      by_cases hagree : cp.Agrees
          (newClusterCondition t status reason message now)
      · have hstatus : cp.status = status := hagree.1
        rw [if_pos hagree, if_pos (congrArg some hstatus)]
        refine ⟨fun _ cp' hcp' _ hne => ?_, fun _ => rfl⟩
        obtain rfl := Option.some.inj hcp'
        exact absurd hagree.2 hne
      · rw [if_neg hagree]
        by_cases hstatus : cp.status = status
        · rw [if_pos (congrArg some hstatus)]
          have hne : ¬ (cp.reason = reason ∧ cp.message = message) :=
            fun hwords => hagree ⟨hstatus, hwords⟩
          constructor
          · intro heq cp' hcp' _ _
            obtain rfl := Option.some.inj hcp'
            exact (congrArg Prod.snd (Option.some.inj heq)).symm
          · intro h
            rw [Option.map_some, h cp rfl hstatus hne, hstatus]
            rfl
        · rw [if_neg fun h => hstatus (Option.some.inj h)]
          refine ⟨fun _ cp' hcp' hstatus' => ?_, fun _ => rfl⟩
          obtain rfl := Option.some.inj hcp'
          exact absurd hstatus' hstatus

theorem transition_apply_iff (u : ConditionUpdate) (hd : c.status.Distinct) :
    (∀ t, (u.apply c).status.transition t
        = u.noted t (c.status.transition t))
      ↔ ∀ cp now, u.Rewords cp now c → cp.lastTransitionTime = now := by
  have hown : (∀ t, (u.apply c).status.transition t
        = u.noted t (c.status.transition t))
      ↔ (u.apply c).status.transition u.type
        = u.noted u.type (c.status.transition u.type) := by
    refine ⟨fun h => h u.type, fun h t => ?_⟩
    by_cases ht : u.type = t
    · exact ht ▸ h
    · exact transition_of_ne ht
  rw [hown]
  cases u with
  | clear type =>
      have hcleared : ((clear type).apply c).status.transition type
          = (clear type).noted type (c.status.transition type) := by
        unfold apply noted ClusterStatus.transition
        dsimp only
        rw [if_pos rfl, Cluster.condition_clear hd]
        rfl
      refine ⟨fun _ cp now h => ?_, fun _ => hcleared⟩
      obtain ⟨moved, reason, message, h, -⟩ := h
      cases h
  | set moved type status reason message now =>
      refine (transition_set_iff hd).trans ⟨?_, ?_⟩
      · rintro h cp now' ⟨moved', reason', message', heq, hcp, hne⟩
        cases heq
        exact h cp hcp rfl hne
      · intro h cp hcp hstatus hne
        obtain ⟨-, rfl⟩ := ClusterStatus.mem_of_condition hcp
        subst hstatus
        exact h cp now ⟨moved, reason, message, rfl, hcp, hne⟩

/-- The first update, and then the others. -/
theorem meansTransition_cons :
    MeansTransition (u :: us) c
      ↔ (∀ t, (u.apply c).status.transition t
          = u.noted t (c.status.transition t))
        ∧ MeansTransition us (u.apply c) := by
  constructor
  · intro h
    have hone : ∀ t, (u.apply c).status.transition t
        = u.noted t (c.status.transition t) :=
      h [u] (List.cons_prefix_cons.mpr ⟨rfl, List.nil_prefix⟩)
    refine ⟨hone, fun pre hpre t => ?_⟩
    have hall := h (u :: pre) (List.cons_prefix_cons.mpr ⟨rfl, hpre⟩) t
    rw [hone t]
    exact hall
  · rintro ⟨hone, hrest⟩ pre hpre t
    cases pre with
    | nil => rfl
    | cons u' pre =>
        obtain ⟨rfl, htail⟩ := List.cons_prefix_cons.mp hpre
        have hall := hrest pre htail t
        rw [hone t] at hall
        exact hall

theorem meansTransition_iff (us : List ConditionUpdate) :
    ∀ c : Cluster, c.status.Distinct →
      (MeansTransition us c ↔ EachUpdate (fun c u => ∀ cp now,
        u.Rewords cp now c → cp.lastTransitionTime = now) us c) := by
  induction us with
  | nil =>
      intro c _
      refine ⟨fun _ => trivial, fun _ pre hpre t => ?_⟩
      rw [List.prefix_nil.mp hpre]
      rfl
  | cons u us ih =>
      intro c hd
      rw [meansTransition_cons, transition_apply_iff u hd,
        ih _ (u.apply_distinct hd)]
      rfl

-- ============================================================ new times

/-- The updates come at different times, none of which is stored. -/
structure NewTimes (us : List ConditionUpdate) (c : Cluster) : Prop where
  nodup : (us.filterMap time).Nodup
  unseen : ∀ cp ∈ c.status.conditions,
    cp.lastTransitionTime ∉ us.filterMap time

theorem NewTimes.tail (h : NewTimes (u :: us) c) :
    NewTimes us (u.apply c) := by
  obtain ⟨hnodup, hunseen⟩ := h
  rw [List.filterMap_cons] at hnodup hunseen
  cases htime : u.time with
  | none =>
      rw [htime] at hnodup hunseen
      refine ⟨hnodup, fun cp hcp => ?_⟩
      rcases apply_mem hcp with hold | hnew
      · exact hunseen cp hold
      · rw [htime] at hnew
        cases hnew
  | some now =>
      rw [htime] at hnodup hunseen
      obtain ⟨hnow, hnodup⟩ := List.nodup_cons.mp hnodup
      refine ⟨hnodup, fun cp hcp => ?_⟩
      rcases apply_mem hcp with hold | hnew
      · exact fun hmem => hunseen cp hold (List.mem_cons_of_mem _ hmem)
      · rw [htime] at hnew
        rw [← Option.some.inj hnew]
        exact hnow

/-- A condition that is reworded has an older time. -/
theorem NewTimes.rewords_iff (h : NewTimes (u :: us) c) :
    (∀ cp now, u.Rewords cp now c → cp.lastTransitionTime = now)
      ↔ ∀ cp now, ¬ u.Rewords cp now c := by
  refine ⟨fun hall cp now hre => ?_, fun hno cp now hre => ?_⟩
  · have htime := hall cp now hre
    obtain ⟨moved, reason, message, rfl, hcp, -⟩ := hre
    refine h.unseen cp (ClusterStatus.mem_of_condition hcp).1 ?_
    rw [htime]
    exact List.mem_cons_self
  · exact absurd hre (hno cp now)

theorem NewTimes.each_iff :
    ∀ {us : List ConditionUpdate} {c : Cluster}, NewTimes us c →
      (EachUpdate (fun c u => ∀ cp now,
          u.Rewords cp now c → cp.lastTransitionTime = now) us c
        ↔ EachUpdate (fun c u => ∀ cp now, ¬ u.Rewords cp now c) us c) := by
  intro us
  induction us with
  | nil => intro c _; exact Iff.rfl
  | cons u us ih =>
      intro c h
      exact and_congr h.rewords_iff (ih h.tail)

end ConditionUpdate

/-- The stored time is that of the last transition, at every point of any
updates of a status with one condition a type, exactly if no update gives a
condition other words and the same status at another time than is stored.
At times that are all different no update may do so at all. -/
theorem transition_times_iff (c : Cluster) (us : List ConditionUpdate)
    (hd : c.status.Distinct) :
    (MeansTransition us c ↔ EachUpdate (fun c u => ∀ cp now,
        u.Rewords cp now c → cp.lastTransitionTime = now) us c)
      ∧ (ConditionUpdate.NewTimes us c →
        (MeansTransition us c
          ↔ EachUpdate (fun c u => ∀ cp now, ¬ u.Rewords cp now c) us c)) := by
  have hiff := ConditionUpdate.meansTransition_iff us c hd
  exact ⟨hiff, fun hnew => hiff.trans hnew.each_iff⟩

/-- A condition that comes up, goes to false and is cleared. -/
theorem transition_times_iff_cleared :
    let c := (Sys.start (.sized 3 1)).c
    let us : List ConditionUpdate :=
      [.set true .scaling .isTrue "Scaling up" "" "10:00",
        .set false .scaling .isFalse "Scaling up" "" "10:01", .clear .scaling]
    c.status.Distinct ∧ ConditionUpdate.NewTimes us c
      ∧ (MeansTransition us c
        ↔ EachUpdate (fun c u => ∀ cp now, ¬ u.Rewords cp now c) us c) := by
  intro c us
  have hd : c.status.Distinct := List.nodup_nil
  have hnew : ConditionUpdate.NewTimes us c :=
    ⟨by decide +kernel, fun cp hcp => by cases hcp⟩
  exact ⟨hd, hnew, (transition_times_iff c us hd).2 hnew⟩

/-- The scaling turns from up to down. The condition was true all the
time, and has a new time. -/
theorem transition_time_reworded :
    let c := (Sys.start (.sized 3 1)).c
    let us : List ConditionUpdate :=
      [.set true .scaling .isTrue "Scaling up" (scalingMsg 2 3) "10:00",
        .set false .scaling .isTrue "Scaling down" (scalingMsg 4 3) "10:05"]
    (ConditionUpdate.applyAll us c).status.transition .scaling
        = some (.isTrue, "10:05")
      ∧ ConditionUpdate.notedAll us .scaling (c.status.transition .scaling)
        = some (.isTrue, "10:00")
      ∧ ¬ MeansTransition us c := by
  intro c us
  have hstored : (ConditionUpdate.applyAll us c).status.transition .scaling
      = some (.isTrue, "10:05") := by decide +kernel
  have hnoted : ConditionUpdate.notedAll us .scaling
      (c.status.transition .scaling) = some (.isTrue, "10:00") := by
    decide +kernel
  refine ⟨hstored, hnoted, fun h => ?_⟩
  have heq := h us List.prefix_rfl .scaling
  rw [hstored, hnoted] at heq
  revert heq
  decide

end RssOperator
