/-
One member on its way through a `reconcile`.

The status loop and `recover` range over all members, and what they do to
one member depends on the answers to the commands and calls of its turn.
Each turn rewrites the entry of its own key and no other
(`members_checkMember`, `members_recoverMember`), so the entry a member
ends with is decided in its own two turns (`lookup_range_turn`), in
whatever order the others have theirs.

`AnsweredAsFailed` names the answers by which a member that comes in
healthy goes out with its pod deleted.
-/
import RssOperator.Proofs.Moves

namespace RssOperator

variable {env : Env} {s : Sys} {k : String} {m : Member}

-- =============================================== turns of a range loop

/-- The state in which a loop over `ks` comes to `k`. -/
def turnState (f : List Err × Sys → String → List Err × Sys)
    (ks : List String) (k : String) (s : Sys) : Sys :=
  ((ks.takeWhile (· ≠ k)).foldl f ([], s)).2

section Turns

variable {f : List Err × Sys → String → List Err × Sys}
  {g : Sys → Member → Member} {ks : List String}

/-- A loop that does not come to `k` leaves its entry alone. -/
theorem lookup_foldl_not_mem
    (hf : ∀ acc k, (f acc k).2.members = acc.2.members.modify k (g acc.2))
    (hk : k ∉ ks) : ∀ acc : List Err × Sys,
      (ks.foldl f acc).2.members.lookup k = acc.2.members.lookup k := by
  induction ks with
  | nil => intro acc; rfl
  | cons k₁ ks ih =>
      intro acc
      have hne : k ≠ k₁ := fun h => hk (h ▸ List.mem_cons_self)
      have hks : k ∉ ks := fun h => hk (List.mem_cons_of_mem _ h)
      rw [List.foldl_cons, ih hks, hf, GoMap.lookup_modify_ne hne]

/-- A loop that comes to `k` once does to its entry what that turn
does. -/
theorem lookup_foldl_turn
    (hf : ∀ acc k, (f acc k).2.members = acc.2.members.modify k (g acc.2))
    (hnd : ks.Nodup) (hk : k ∈ ks) : ∀ acc : List Err × Sys,
      (ks.foldl f acc).2.members.lookup k
        = (acc.2.members.lookup k).map
            (g ((ks.takeWhile (· ≠ k)).foldl f acc).2) := by
  induction ks with
  | nil => cases hk
  | cons k₁ ks ih =>
      intro acc
      obtain ⟨hnot, hnd⟩ := List.nodup_cons.mp hnd
      by_cases hk₁ : k₁ = k
      · subst hk₁
        rw [List.foldl_cons, lookup_foldl_not_mem hf hnot, hf,
          GoMap.lookup_modify_self]
        simp
      · have hmem : k ∈ ks := by
          rcases List.mem_cons.mp hk with h | h
          · exact absurd h.symm hk₁
          · exact h
        rw [List.foldl_cons, ih hnd hmem, hf,
          GoMap.lookup_modify_ne (Ne.symm hk₁)]
        simp [hk₁]

/-- A `range` over the members. -/
theorem lookup_range_turn
    (hf : ∀ acc k, (f acc k).2.members = acc.2.members.modify k (g acc.2))
    (o : Order String) (hm : s.members.lookup k = some m) :
    ((s.members.range o).foldl f ([], s.ranged 1)).2.members.lookup k
      = some (g (turnState f (s.members.range o) k (s.ranged 1)) m) := by
  have hk : k ∈ s.members.range o := GoMap.mem_range.mpr ⟨m, hm⟩
  rw [lookup_foldl_turn hf (GoMap.nodup_range _ _) hk, Sys.members_ranged, hm]
  rfl

end Turns

-- ================================================ the turn of a member

/-- What the status loop makes of a member it comes to in state `s`. -/
def Member.checkedIn (env : Env) (s : Sys) (m : Member) : Member :=
  if m.appFailed || !m.online then m
  else m.noteStatus (statusCode s.spec (env.exec s.execs .status m.name))

/-- What `recover` makes of a member it comes to in state `s`. The tag
that a stop starts with is one call more. -/
def Member.recoveredIn (env : Env) (s : Sys) (m : Member) : Member :=
  if m.appFailed && decide (1 < m.failures) then
    if (env.delete s.calls m.name).isNone then m.offline else m
  else if !m.online then m
  else if m.appFailed then
    if (env.exec s.execs .stop m.name).succeeds then m.noteStopped
    else if (env.delete (s.calls + 1) m.name).isNone then
      m.noteFailure.offline
    else m.noteFailure
  else m

theorem members_checkMember (acc : List Err × Sys) (k : String) :
    (checkMember env acc k).2.members
      = acc.2.members.modify k (Member.checkedIn env acc.2) := by
  obtain ⟨errors, s⟩ := acc
  unfold checkMember
  dsimp only
  cases hm : s.members.lookup k with
  | none => exact (GoMap.modify_of_absent hm).symm
  | some m =>
      dsimp only
      split
      · next hskip =>
        refine (GoMap.modify_eq_self hm ?_).symm
        unfold Member.checkedIn
        rw [if_pos hskip]
      · next hcheck =>
        have hnoted : ((execute env .status k m.name s).2.update k
            (Member.noteStatus (remapStatus
              (execute env .status k m.name s).2.spec
              (execute env .status k m.name s).1).1)).members
            = s.members.modify k (Member.checkedIn env s) := by
          rw [Sys.members_update, execute_state, Sys.spec_ran,
            Sys.members_ran, remapStatus_fst]
          refine GoMap.modify_congr hm ?_
          unfold Member.checkedIn
          rw [if_neg hcheck]
        split
        · exact hnoted
        · exact hnoted

theorem members_deleteMember (hm : s.members.lookup k = some m) :
    (deleteMember env k s).2.members
      = if (env.delete s.calls m.name).isNone then
          s.members.modify k Member.offline
        else s.members := by
  rw [deleteMember_state hm]
  split
  · exact Sys.members_update _ _ _
  · rfl

/-- A stop that fails, and the deletion that follows at once. -/
theorem members_stop_delete (hm : s.members.lookup k = some m) :
    (deleteMember env k (s.stopped env k m Member.noteFailure)).2.members
      = s.members.modify k fun m =>
          if (env.delete (s.calls + 1) m.name).isNone then
            m.noteFailure.offline
          else m.noteFailure := by
  have hm' : (s.stopped env k m Member.noteFailure).members.lookup k
      = some m.noteFailure := by
    rw [Sys.members_stopped]
    exact GoMap.lookup_modify_of_some hm
  rw [members_deleteMember hm', Sys.members_stopped]
  by_cases hd : (env.delete (s.calls + 1) m.name).isNone = true
  · refine (if_pos hd).trans ?_
    rw [GoMap.modify_modify]
    exact GoMap.modify_congr hm (if_pos hd).symm
  · refine (if_neg hd).trans ?_
    exact GoMap.modify_congr hm (if_neg hd).symm

theorem members_recoverMember (acc : List Err × Sys) (k : String) :
    (recoverMember env acc k).2.members
      = acc.2.members.modify k (Member.recoveredIn env acc.2) := by
  obtain ⟨errors, s⟩ := acc
  unfold recoverMember
  dsimp only
  cases hm : s.members.lookup k with
  | none => exact (GoMap.modify_of_absent hm).symm
  | some m =>
      dsimp only
      split
      · next hover =>
        show (deleteMember env k s).2.members = _
        rw [members_deleteMember hm]
        split
        · next hd =>
          refine GoMap.modify_congr hm ?_
          rw [Member.recoveredIn, if_pos hover, if_pos hd]
        · next hd =>
          refine (GoMap.modify_eq_self hm ?_).symm
          rw [Member.recoveredIn, if_pos hover, if_neg hd]
      · next hover =>
        split
        · next hoff =>
          refine (GoMap.modify_eq_self hm ?_).symm
          rw [Member.recoveredIn, if_neg hover, if_pos hoff]
        · next hon =>
          split
          · next hfailed =>
            rw [stopAppMember_eq hm]
            by_cases ha : (s.stopAnswer env m).succeeds = true
            · rw [if_pos ha]
              show (s.stopped env k m Member.noteStopped).members = _
              rw [Sys.members_stopped]
              refine GoMap.modify_congr hm ?_
              rw [Member.recoveredIn, if_neg hover, if_neg hon,
                if_pos hfailed]
              exact (if_pos ha).symm
            · rw [if_neg ha]
              refine (members_stop_delete hm).trans ?_
              refine GoMap.modify_congr hm ?_
              rw [Member.recoveredIn, if_neg hover, if_neg hon,
                if_pos hfailed]
              exact (if_neg ha).symm
          · next hfine =>
            refine (GoMap.modify_eq_self hm ?_).symm
            rw [Member.recoveredIn, if_neg hover, if_neg hon,
              if_neg hfine]

-- ====================================================== a whole loop

/-- The state in which the status loop comes to `k`. -/
def Sys.checkTurn (env : Env) (k : String) (s : Sys) : Sys :=
  turnState (checkMember env) (s.members.range (s.order env)) k (s.ranged 1)

/-- The state in which `recover` comes to `k`. -/
def Sys.recoverTurn (env : Env) (k : String) (s : Sys) : Sys :=
  turnState (recoverMember env) (s.members.range (s.order env)) k
    (s.ranged 1)

theorem lookup_checkMembers (hm : s.members.lookup k = some m) :
    (checkMembers env s).2.members.lookup k
      = some (m.checkedIn env (s.checkTurn env k)) :=
  lookup_range_turn members_checkMember _ hm

theorem lookup_recover (hm : s.members.lookup k = some m) :
    (recover env s).2.members.lookup k
      = some (m.recoveredIn env (s.recoverTurn env k)) :=
  lookup_range_turn members_recoverMember _ hm

-- ============================================================ answers

/-- The answers by which a member with the name `k` and this many
failures is found failed and loses its pod, where `c` and `r` are the
states in which the status loop and `recover` come to it: a status that
is none of "secondary", "stopped" and "primary", then a deletion for the
failure count, or a stop that fails and a deletion for that. -/
def AnsweredAsFailed (env : Env) (k : String) (failures : Nat)
    (c r : Sys) : Prop :=
  statusCode c.spec (env.exec c.execs .status k) ∉ [0, 7, 8]
    ∧ if 1 < failures then env.delete r.calls k = none
      else (env.exec r.execs .stop k).succeeds = false
        ∧ env.delete (r.calls + 1) k = none

/-- A healthy member is left alone by `recover`. -/
theorem Member.recoveredIn_of_healthy (r : Sys)
    (hfailed : m.appFailed = false) : m.recoveredIn env r = m := by
  unfold recoveredIn
  simp [hfailed]

/-- A failed member leaves `recover` offline if its pod is deleted. -/
theorem Member.offline_recoveredIn (r : Sys) (hon : m.online = true)
    (hfailed : m.appFailed = true) :
    (m.recoveredIn env r).online = false
      ↔ if 1 < m.failures then env.delete r.calls m.name = none
        else (env.exec r.execs .stop m.name).succeeds = false
          ∧ env.delete (r.calls + 1) m.name = none := by
  unfold recoveredIn
  simp only [hfailed, hon, Bool.true_and, decide_eq_true_eq,
    Bool.not_true, Bool.false_eq_true, if_false, if_true,
    Option.isNone_iff_eq_none]
  by_cases hover : 1 < m.failures
  · rw [if_pos hover, if_pos hover]
    by_cases hd : env.delete r.calls m.name = none
    · simp [hd, offline]
    · simp [hd, hon]
  · rw [if_neg hover, if_neg hover]
    cases (env.exec r.execs .stop m.name).succeeds with
    | true => simp [noteStopped, hon]
    | false =>
        by_cases hd : env.delete (r.calls + 1) m.name = none
        · simp [hd, offline]
        · simp [hd, noteFailure, hon]

/-- A member that comes online with no flag set leaves its two turns
offline if the answers say so, and not otherwise. -/
theorem offline_after_turns {c r : Sys} (hname : m.name = k)
    (hon : m.online = true) (hfailed : m.appFailed = false) :
    ((m.checkedIn env c).recoveredIn env r).online = false
      ↔ AnsweredAsFailed env k m.failures c r := by
  subst hname
  unfold Member.checkedIn AnsweredAsFailed
  rw [hfailed, hon, Bool.not_true, Bool.or_false, if_neg (by simp)]
  by_cases hcode :
      statusCode c.spec (env.exec c.execs .status m.name) ∈ [0, 7, 8]
  · refine iff_of_false ?_ (fun h => h.1 hcode)
    have hhealthy : (m.noteStatus (statusCode c.spec
        (env.exec c.execs .status m.name))).appFailed = false := by
      unfold Member.noteStatus
      simp only [List.mem_cons, List.not_mem_nil, or_false] at hcode
      rcases hcode with h | h | h
      · simp [h, hfailed]
      · simp [h, hfailed]
      · simp [h, hfailed]
    rw [Member.recoveredIn_of_healthy r hhealthy, Member.online_noteStatus,
      hon]
    simp
  · have hnoted : m.noteStatus (statusCode c.spec
        (env.exec c.execs .status m.name))
        = { m with appRunning := true, appFailed := true } := by
      unfold Member.noteStatus
      simp only [List.mem_cons, List.not_mem_nil, or_false, not_or] at hcode
      rw [if_neg hcode.1, if_neg hcode.2.1, if_neg hcode.2.2]
    have hlost := @Member.offline_recoveredIn env
      { m with appRunning := true, appFailed := true } r hon rfl
    rw [hnoted, hlost]
    exact (and_iff_right hcode).symm

end RssOperator
