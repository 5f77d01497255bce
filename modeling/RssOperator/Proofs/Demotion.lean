/-
The loop that stops surplus primaries: what it leaves.

# Condition and selection

The loop goes on while `AppPrimaries()` is above the wanted number. A
primary whose stop fails keeps its flags and gets `AppFailed`: the count
still includes it, `chooseCurrentPrimary` no longer does. So a failed
stop does not bring the loop closer to its end, and the next primary is
stopped in its place.

# The queue

Both results of a stop take the member out of the selection, so which
members are picked, and in which order, does not depend on the results:
`demotionQueue` computes it from the members and the visiting orders.
The loop keeps the wanted number of healthy primaries exactly if every
stop it plans for a healthy primary succeeds
(`demotion_keeps_primaries_iff`).

# The argument

As long as no stop of a healthy primary has failed, the healthy primaries
are the counted ones, and the loop is on its queue. After the first such
failure there are fewer healthy primaries than counted ones, and this
stays so to the end, where at most the wanted number is counted or nobody
is left to stop (`demotion_spoiled`).
-/
import RssOperator.Proofs.Refinement

namespace RssOperator

variable {env : Env} {s s' : Sys} {ms : MemberSet} {k : String} {m : Member}
  {primaries : Int} {errors errors' : List Err}

-- ==================================================== healthy primaries

/-- Online, running, primary and not failed. -/
def Member.healthy (m : Member) : Bool := m.isPrimary && !m.appFailed

def MemberSet.healthyPrimaries (ms : MemberSet) : Int :=
  ms.count Member.healthy

/-- A healthy primary may be stopped. -/
theorem Member.stoppable_of_healthy (h : m.healthy = true) :
    m.stoppable = true := by
  simp only [healthy, isPrimary, Bool.and_eq_true] at h
  simp [stoppable, h.1.1.2, h.2]

/-- A member that may be stopped is healthy exactly if it is counted. -/
theorem Member.healthy_of_stoppable (h : m.stoppable = true) :
    m.healthy = m.isPrimary := by
  simp only [stoppable, Bool.and_eq_true] at h
  simp [healthy, h.2]

/-- What a stop makes of a member. -/
def Member.afterStop (ok : Bool) : Member → Member :=
  if ok then Member.noteStopped else Member.noteFailure

theorem Member.stoppable_afterStop (ok : Bool) (m : Member) :
    (m.afterStop ok).stoppable = false := by
  cases ok <;> simp [afterStop, noteStopped, noteFailure, stoppable]

theorem Member.healthy_afterStop (ok : Bool) (m : Member) :
    (m.afterStop ok).healthy = false := by
  cases ok <;>
    simp [afterStop, noteStopped, noteFailure, healthy, isPrimary]

/-- A stop that fails does not change the count. -/
theorem Member.isPrimary_afterStop (ok : Bool) (m : Member) :
    (m.afterStop ok).isPrimary = (!ok && m.isPrimary) := by
  cases ok <;> simp [afterStop, noteStopped, noteFailure, isPrimary]

section AfterStop

variable (ok : Bool) (hm : ms.lookup k = some m) (hst : m.stoppable = true)
include hm hst

/-- One member fewer may be stopped. -/
theorem count_stoppable_afterStop :
    GoMap.count Member.stoppable (ms.modify k (Member.afterStop ok)) + 1
      = GoMap.count Member.stoppable ms := by
  have hcount := GoMap.count_modify (p := Member.stoppable)
    (Member.afterStop ok) hm
  rw [hst, Member.stoppable_afterStop] at hcount
  exact hcount

theorem healthyPrimaries_afterStop :
    MemberSet.healthyPrimaries (ms.modify k (Member.afterStop ok))
      = ms.healthyPrimaries - m.isPrimary.toNat := by
  have hcount := GoMap.count_modify (p := Member.healthy)
    (Member.afterStop ok) hm
  rw [Member.healthy_of_stoppable hst, Member.healthy_afterStop] at hcount
  unfold MemberSet.healthyPrimaries
  simp only [Bool.toNat_false] at hcount
  omega

omit hst in
theorem appPrimaries_afterStop :
    MemberSet.appPrimaries (ms.modify k (Member.afterStop ok))
      = ms.appPrimaries - (ok && m.isPrimary).toNat := by
  have hcount := GoMap.count_modify (p := Member.isPrimary)
    (Member.afterStop ok) hm
  rw [Member.isPrimary_afterStop] at hcount
  unfold MemberSet.appPrimaries
  cases ok <;> cases hp : m.isPrimary <;> simp [hp] at hcount ⊢ <;> omega

end AfterStop

-- ============================================================ one turn

/-- A turn that is not the last stops the primary that is chosen. -/
theorem demoteTurn_next {e : String × Member}
    (hlt : primaries < s.members.appPrimaries)
    (he : chooseCurrentPrimary s.c.peers (s.order env) = .ok e)
    (errors : List Err) :
    ∃ s' errors', demoteTurn env primaries (s, errors) = .inl (s', errors')
      ∧ s'.execs = s.execs + 1 ∧ s'.orders = s.orders + 2
      ∧ s'.members = s.members.modify e.1
        (Member.afterStop (env.exec s.execs .stop e.2.name).succeeds) := by
  obtain ⟨hm, -⟩ := lookup_of_chooseCurrentPrimary he
  have hm' : (s.ranged 1).members.lookup e.1 = some e.2 := hm
  unfold demoteTurn
  dsimp only
  rw [if_pos hlt, he]
  dsimp only
  rw [stopAppMember_eq hm']
  show ∃ s' errors', Sum.inl ((if (env.exec s.execs .stop e.2.name).succeeds
    then _ else _ : Option Err × Sys).2, _) = _ ∧ _
  cases ha : (env.exec s.execs .stop e.2.name).succeeds with
  | true =>
      exact ⟨_, _, rfl, rfl, rfl, Sys.members_stopped Member.noteStopped⟩
  | false =>
      exact ⟨_, _, rfl, rfl, rfl, Sys.members_stopped Member.noteFailure⟩

/-- Enough primaries are stopped: the loop ends. -/
theorem demoteTurn_done (h : s.members.appPrimaries ≤ primaries)
    (errors : List Err) :
    demoteTurn env primaries (s, errors) = .inr (s, errors) := by
  unfold demoteTurn
  dsimp only
  rw [if_neg (by omega)]

/-- Nobody is left to stop: the loop ends, on the same members. -/
theorem demoteTurn_error {err : Err}
    (hlt : primaries < s.members.appPrimaries)
    (he : chooseCurrentPrimary s.c.peers (s.order env) = .error err)
    (errors : List Err) :
    ∃ errors', demoteTurn env primaries (s, errors)
      = .inr (s.ranged 1, errors') := by
  unfold demoteTurn
  dsimp only
  rw [if_pos hlt, he]
  exact ⟨_, rfl⟩

/-- Without a choice there is no healthy primary. -/
theorem healthyPrimaries_of_error {err : Err} {o : Order String}
    (h : chooseCurrentPrimary s.c.peers o = .error err) :
    s.members.healthyPrimaries = 0 := by
  have hnone : GoMap.count Member.healthy s.members = 0 := by
    refine GoMap.count_eq_zero_iff.mpr fun k m hm => ?_
    rw [Sys.peers_of_lookup hm] at h
    have hst := chooseCurrentPrimary_error h hm
    cases hh : m.healthy with
    | false => rfl
    | true =>
        rw [Member.stoppable_of_healthy hh] at hst
        cases hst
  unfold MemberSet.healthyPrimaries
  omega

-- ============================================== after a failed stop

/-- Once fewer primaries are healthy than counted, the loop ends with too
few. The induction is on the number of members it may still stop. -/
theorem demotion_spoiled (hone : 1 ≤ primaries) (c : Nat) :
    ∀ (s : Sys) (errors : List Err),
      GoMap.count Member.stoppable s.members < c →
      s.members.healthyPrimaries < s.members.appPrimaries →
      ∃ n s' errors',
        loop (demoteTurn env primaries) n (s, errors) = .inr (s', errors')
          ∧ s'.members.healthyPrimaries < primaries := by
  induction c with
  | zero => intro s errors hc; omega
  | succ c ih =>
      intro s errors hc hfewer
      by_cases hlt : primaries < s.members.appPrimaries
      · cases he : chooseCurrentPrimary s.c.peers (s.order env) with
        | error err =>
            obtain ⟨errors', hturn⟩ := demoteTurn_error hlt he errors
            refine ⟨1, s.ranged 1, errors', loop_of_end hturn, ?_⟩
            rw [Sys.members_ranged, healthyPrimaries_of_error he]
            omega
        | ok e =>
            obtain ⟨hm, hst⟩ := lookup_of_chooseCurrentPrimary he
            obtain ⟨s₁, errors₁, hturn, -, -, hms⟩ :=
              demoteTurn_next hlt he errors
            have hcount := count_stoppable_afterStop
              (env.exec s.execs .stop e.2.name).succeeds hm hst
            have hhealthy := healthyPrimaries_afterStop
              (env.exec s.execs .stop e.2.name).succeeds hm hst
            have hprim := appPrimaries_afterStop
              (env.exec s.execs .stop e.2.name).succeeds hm
            have hle : ((env.exec s.execs .stop e.2.name).succeeds
                && e.2.isPrimary).toNat ≤ e.2.isPrimary.toNat := by
              cases (env.exec s.execs .stop e.2.name).succeeds <;> simp
            rw [← hms] at hcount hhealthy hprim
            obtain ⟨n, s', errors', hloop, hend⟩ :=
              ih s₁ errors₁ (by omega) (by omega)
            exact ⟨n + 1, s', errors', (loop_of_next hturn).trans hloop, hend⟩
      · exact ⟨1, s, errors, loop_of_end (demoteTurn_done (by omega) errors),
          by omega⟩

-- ============================================================ the queue

/-- The primaries the loop stops if every stop succeeds, in its order. A
turn takes two visiting orders: one to choose, one to run the command. -/
def demotionQueue (env : Env) (primaries : Int) :
    Nat → Nat → MemberSet → List (String × Member)
  | 0, _, _ => []
  | n + 1, orders, ms =>
      if primaries < ms.appPrimaries then
        match chooseCurrentPrimary (some ms) (env.order orders) with
        | .error _ => []
        | .ok e => e :: demotionQueue env primaries n (orders + 2)
            (ms.modify e.1 Member.noteStopped)
      else []

/-- The members are where the queue has them: those that may be stopped
are the same, as many are counted, and all that are counted are
healthy. -/
structure OnQueue (ms plan : MemberSet) : Prop where
  keys : ms.keys = plan.keys
  stoppable : ∀ k, (ms.lookup k).filter Member.stoppable
    = (plan.lookup k).filter Member.stoppable
  counted : ms.appPrimaries = plan.appPrimaries
  healthy : ms.healthyPrimaries = ms.appPrimaries

/-- The scan for a primary skips what may not be stopped. -/
theorem scanPrimaries_filter (l : List (String × Member)) :
    ∀ best, scanPrimaries best l
      = scanPrimaries best (l.filter fun e => e.2.stoppable) := by
  induction l with
  | nil => intro best; rfl
  | cons e l ih =>
      intro best
      cases hst : e.2.stoppable with
      | false =>
          rw [scanPrimaries_skip hst, List.filter_cons_of_neg (by simp [hst]),
            ih best]
      | true =>
          rw [List.filter_cons_of_pos (by exact hst)]
          cases hon : e.2.online with
          | false =>
              rw [scanPrimaries_offline hst hon,
                scanPrimaries_offline hst hon]
          | true =>
              rw [scanPrimaries_online hst hon,
                scanPrimaries_online hst hon, ih]

namespace OnQueue

variable {plan : MemberSet}

theorem choose (h : OnQueue ms plan) (o : Order String) :
    chooseCurrentPrimary (some ms) o = chooseCurrentPrimary (some plan) o := by
  unfold chooseCurrentPrimary
  dsimp only
  rw [scanPrimaries_filter (GoMap.rangeEntries o ms),
    scanPrimaries_filter (GoMap.rangeEntries o plan),
    GoMap.filter_rangeEntries_congr h.keys h.stoppable o]

/-- A stop that succeeds, or that fails on a member that is not counted,
keeps the loop on its queue. -/
theorem afterStop {ok : Bool} (h : OnQueue ms plan)
    (hm : ms.lookup k = some m) (hplan : plan.lookup k = some m)
    (hst : m.stoppable = true) (hok : m.isPrimary = true → ok = true) :
    OnQueue (ms.modify k (Member.afterStop ok))
      (plan.modify k Member.noteStopped) := by
  have hbool : (ok && m.isPrimary) = m.isPrimary := by
    cases hp : m.isPrimary with
    | false => simp
    | true => rw [hok hp]; rfl
  have hprim := appPrimaries_afterStop ok hm
  have hprim' := appPrimaries_afterStop true hplan
  have hhealthy := healthyPrimaries_afterStop ok hm hst
  rw [hbool] at hprim
  have hcounted := h.counted
  have hall := h.healthy
  refine ⟨?_, ?_, ?_, ?_⟩
  · rw [GoMap.keys_modify, GoMap.keys_modify]
    exact h.keys
  · intro k'
    rw [GoMap.lookup_modify, GoMap.lookup_modify]
    by_cases hk : k' = k
    · subst hk
      rw [if_pos rfl, if_pos rfl, hm, hplan]
      have hnone : ∀ ok, (some (m.afterStop ok)).filter Member.stoppable
          = none := by
        intro ok
        simp [Option.filter, Member.stoppable_afterStop]
      exact (hnone ok).trans (hnone true).symm
    · rw [if_neg hk, if_neg hk]
      exact h.stoppable k'
  · exact hprim.trans (hcounted ▸ hprim'.symm)
  · rw [hhealthy, hprim, hall]

end OnQueue

/-- Without a failed member all counted primaries are healthy. -/
theorem onQueue_self
    (h : ∀ k m, ms.lookup k = some m → m.appFailed = false) :
    OnQueue ms ms where
  keys := rfl
  stoppable := fun _ => rfl
  counted := rfl
  healthy := by
    have hcount : GoMap.count Member.healthy ms
        = GoMap.count Member.isPrimary ms := by
      refine List.countP_congr fun e he => ?_
      have hm : ms.lookup e.1 = some e.2 := AList.mem_lookup_iff.mpr he
      simp [Member.healthy, h e.1 e.2 hm]
    exact congrArg Nat.cast hcount

/-- Every stop planned for a counted primary succeeds; the first one is
the `n`-th command. -/
def AllStop (env : Env) (n : Nat) (queue : List (String × Member)) : Prop :=
  ∀ i e, queue[i]? = some e → e.2.isPrimary = true →
    (env.exec (n + i) .stop e.2.name).succeeds = true

theorem allStop_cons {n : Nat} {e : String × Member}
    {queue : List (String × Member)} :
    AllStop env n (e :: queue)
      ↔ (e.2.isPrimary = true →
          (env.exec n .stop e.2.name).succeeds = true)
        ∧ AllStop env (n + 1) queue := by
  constructor
  · intro h
    refine ⟨fun hp => h 0 e rfl hp, fun i e' hi hp => ?_⟩
    have hnext := h (i + 1) e' hi hp
    rwa [Nat.add_comm i 1, ← Nat.add_assoc] at hnext
  · intro h i e' hi hp
    cases i with
    | zero =>
        obtain rfl := Option.some.inj hi
        exact h.1 hp
    | succ i =>
        rw [Nat.add_comm i 1, ← Nat.add_assoc]
        exact h.2 i e' hi hp

/-- The loop picks the member that is next on the queue. -/
theorem OnQueue.pick (env : Env) {plan : MemberSet}
    (hq : OnQueue s.members plan) (hpos : 0 < s.members.appPrimaries) :
    ∃ e, chooseCurrentPrimary s.c.peers (s.order env) = .ok e
      ∧ chooseCurrentPrimary (some plan) (env.order s.orders) = .ok e := by
  have hall := hq.healthy
  obtain ⟨k, m, hm, -⟩ : ∃ k m, s.members.lookup k = some m
      ∧ m.healthy = true := by
    refine GoMap.count_pos_iff.mp ?_
    unfold MemberSet.healthyPrimaries at hall
    omega
  have hp := Sys.peers_of_lookup hm
  cases he : chooseCurrentPrimary s.c.peers (s.order env) with
  | error err =>
      have hnone := healthyPrimaries_of_error he
      omega
  | ok e =>
      refine ⟨e, rfl, ?_⟩
      rw [← hq.choose, ← hp]
      exact he

/-- The loop from any state on its queue. -/
theorem demotion_on_queue (hone : 1 ≤ primaries) (c : Nat) :
    ∀ (s : Sys) (errors : List Err) (plan : MemberSet),
      GoMap.count Member.stoppable s.members < c →
      OnQueue s.members plan → primaries ≤ s.members.appPrimaries →
      ∃ n s' errors',
        loop (demoteTurn env primaries) n (s, errors) = .inr (s', errors')
          ∧ (primaries ≤ s'.members.healthyPrimaries
            ↔ AllStop env s.execs
              (demotionQueue env primaries c s.orders plan)) := by
  induction c with
  | zero => intro s errors plan hc; omega
  | succ c ih =>
      intro s errors plan hc hq hle
      unfold demotionQueue
      by_cases hlt : primaries < s.members.appPrimaries
      · rw [if_pos (hq.counted ▸ hlt)]
        obtain ⟨e, he, heplan⟩ := hq.pick env (by omega)
        rw [heplan]
        dsimp only
        rw [allStop_cons]
        obtain ⟨hem, hst⟩ := lookup_of_chooseCurrentPrimary he
        obtain ⟨hplan, -⟩ := chooseCurrentPrimary_ok heplan
        obtain ⟨s₁, errors₁, hturn, hexecs, horders, hms⟩ :=
          demoteTurn_next hlt he errors
        obtain ⟨ok, hok⟩ : ∃ ok, ok
          = (env.exec s.execs .stop e.2.name).succeeds := ⟨_, rfl⟩
        rw [← hok] at hms ⊢
        have hcount := count_stoppable_afterStop ok hem hst
        have hhealth := healthyPrimaries_afterStop ok hem hst
        have hprim := appPrimaries_afterStop ok hem
        rw [← hms] at hcount hhealth hprim
        by_cases hgood : e.2.isPrimary = true → ok = true
        · -- still on the queue
          have hq₁ := hq.afterStop hem hplan hst hgood
          rw [← hms] at hq₁
          have hbit : (ok && e.2.isPrimary).toNat ≤ 1 := Bool.toNat_le _
          obtain ⟨n, s', errors', hloop, hend⟩ :=
            ih s₁ errors₁ _ (by omega) hq₁ (by omega)
          refine ⟨n + 1, s', errors', (loop_of_next hturn).trans hloop, ?_⟩
          rw [hend, hexecs, horders]
          exact ⟨fun h => ⟨hgood, h⟩, fun h => h.2⟩
        · -- a healthy primary could not be stopped
          have hbad : e.2.isPrimary = true ∧ ok = false := by
            simpa using hgood
          rw [hbad.1] at hhealth
          rw [hbad.1, hbad.2] at hprim
          simp only [Bool.toNat_true, Bool.false_and,
            Bool.toNat_false] at hhealth hprim
          have hall := hq.healthy
          obtain ⟨n, s', errors', hloop, hend⟩ :=
            demotion_spoiled hone (c + 1) s₁ errors₁ (by omega) (by omega)
          refine ⟨n + 1, s', errors', (loop_of_next hturn).trans hloop, ?_⟩
          constructor
          · intro h
            omega
          · intro h
            exact absurd h.1 hgood
      · rw [if_neg (hq.counted ▸ hlt)]
        refine ⟨1, s, errors,
          loop_of_end (demoteTurn_done (by omega) errors), ?_⟩
        have hall := hq.healthy
        constructor
        · intro _ i e hi
          cases hi
        · intro _
          omega

/-- With no failed member and more primaries than wanted, the demotion
loop ends, and it ends with at least the wanted number of healthy
primaries exactly if every stop on its queue, as far as it is for a
running primary, succeeds. -/
theorem demotion_keeps_primaries_iff (env : Env) (primaries : Int) (s : Sys)
    (errors : List Err) (hone : 1 ≤ primaries)
    (hmore : primaries < s.members.appPrimaries)
    (hclear : ∀ k m, s.members.lookup k = some m → m.appFailed = false) :
    ∃ n s' errors',
      loop (demoteTurn env primaries) n (s, errors) = .inr (s', errors')
        ∧ (primaries ≤ s'.members.healthyPrimaries
          ↔ ∀ i e, (demotionQueue env primaries (s.members.size + 1)
              s.orders s.members)[i]? = some e →
            e.2.isPrimary = true →
            (env.exec (s.execs + i) .stop e.2.name).succeeds = true) :=
  demotion_on_queue hone (s.members.size + 1) s errors s.members
    (Nat.lt_succ_of_le (GoMap.count_le_size _ _)) (onQueue_self hclear)
    (Int.le_of_lt hmore)

/-- Three primaries. -/
def MemberSet.threePrimaries : MemberSet :=
  ["db-0", "db-1", "db-2"].foldr (fun name ms => MemberSet.add
    { name := name, online := true, appPrimary := true, appRunning := true }
    ms) ∅

theorem threePrimaries_clear :
    ∀ k m, MemberSet.threePrimaries.lookup k = some m →
      m.appFailed = false := by
  refine GoMap.forall_lookup_iff.mpr ?_
  decide +kernel

/-- Of three primaries two are wanted, and every command succeeds. -/
theorem demotion_keeps_two_of_three :
    ∃ n s' errors',
      loop (demoteTurn (.deciding fun _ => true) 2) n
          ((Sys.start (.sized 3 2)).setPeers .threePrimaries, [])
          = .inr (s', errors')
        ∧ 2 ≤ s'.members.healthyPrimaries := by
  obtain ⟨n, s', errors', hloop, hiff⟩ := demotion_keeps_primaries_iff
    (.deciding fun _ => true) 2
    ((Sys.start (.sized 3 2)).setPeers .threePrimaries) [] (by decide)
    (by decide +kernel) threePrimaries_clear
  exact ⟨n, s', errors', hloop, hiff.mpr fun _ _ _ _ => rfl⟩

/-- Of three primaries two are wanted, and the stop of `db-2` fails. The
loop stops `db-1` as well and ends with one healthy primary. -/
theorem demotion_loses_primary :
    2 < MemberSet.threePrimaries.appPrimaries
      ∧ (∀ k m, MemberSet.threePrimaries.lookup k = some m →
        m.appFailed = false)
      ∧ ∃ s' errors',
        loop (demoteTurn (.deciding fun n => n ≠ 0) 2) 4
            ((Sys.start (.sized 3 2)).setPeers .threePrimaries, [])
            = .inr (s', errors')
          ∧ s'.members.healthyPrimaries = 1 := by
  refine ⟨by decide +kernel, threePrimaries_clear, ?_⟩
  have hend : (match loop (demoteTurn (.deciding fun n => n ≠ 0) 2) 4
      ((Sys.start (.sized 3 2)).setPeers .threePrimaries, []) with
      | .inl _ => none
      | .inr st => some st.1.members.healthyPrimaries) = some 1 := by
    decide +kernel
  split at hend
  · cases hend
  · next st hst => exact ⟨st.1, st.2, hst, Option.some.inj hend⟩

end RssOperator
