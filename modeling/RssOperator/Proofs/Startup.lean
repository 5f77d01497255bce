/-
Retries, and coming up.

# Retry

`retry_spec` says which calls `Retry` makes, when it makes them, and how it
ends. The ticks are counted: the ticker drops those that find one in the
channel, so the call with number `i` is made behind at least `i` ticks,
however long the calls take. The report of a failure is modelled with a
`retry` of its own, without a clock, and is one of these
(`reportFailedStatus_retries`).

# Coming up

The operator is ready when the API server has accepted its definition and
then shown it as established, and not before (`ready_established`). It gets
there as soon as the API server lets it: whatever has gone wrong until
then, two requests do (`comes_up`). Both come from what one attempt can do
(`Attempt`, `startTurn_attempt`), by the rules for loops.
-/
import RssOperator.Startup
import RssOperator.Status

namespace RssOperator

namespace Ticker

variable {tick : Ticker} {now : Nat}

/-- The ticks that are over have been due. -/
def Kept (now : Nat) (tick : Ticker) : Prop :=
  0 < tick.interval ∧ tick.began + tick.gone * tick.interval ≤ now

theorem kept_new {interval : Nat} (h : 0 < interval) :
    (newTicker interval now).Kept now := by
  refine ⟨h, ?_⟩
  show now + 0 * interval ≤ now
  omega

theorem Kept.later (h : tick.Kept now) (d : Nat) : tick.Kept (now + d) :=
  ⟨h.1, Nat.le_trans h.2 (Nat.le_add_right _ _)⟩

theorem receive_interval : (tick.receive now).2.interval = tick.interval := by
  unfold receive
  dsimp only
  split <;> rfl

theorem receive_began : (tick.receive now).2.began = tick.began := by
  unfold receive
  dsimp only
  split <;> rfl

/-- A tick is received at most an interval later, and it is a new one. -/
theorem receive_spec (h : tick.Kept now) :
    (tick.receive now).2.Kept (tick.receive now).1
      ∧ tick.gone < (tick.receive now).2.gone
      ∧ now ≤ (tick.receive now).1
      ∧ (tick.receive now).1 ≤ now + tick.interval := by
  obtain ⟨hpos, hdue⟩ := h
  have hle := Nat.div_mul_le_self (now - tick.began) tick.interval
  unfold receive
  dsimp only
  split
  · next hlt =>
    refine ⟨⟨hpos, ?_⟩, hlt, Nat.le_refl now, Nat.le_add_right _ _⟩
    dsimp only
    omega
  · next hnot =>
    have hlater : now - tick.began < (tick.gone + 1) * tick.interval :=
      (Nat.div_lt_iff_lt_mul hpos).mp (by omega)
    refine ⟨⟨hpos, Nat.le_refl _⟩, Nat.lt_succ_self _, ?_, ?_⟩
    · dsimp only
      omega
    · dsimp only
      rw [Nat.add_mul, Nat.one_mul]
      omega

/-- The next tick is received on time by a receiver that is on time. -/
theorem receive_exact (h : tick.Kept now)
    (hearly : now ≤ tick.began + (tick.gone + 1) * tick.interval) :
    (tick.receive now).1 = tick.began + (tick.gone + 1) * tick.interval
      ∧ (tick.receive now).2.gone = tick.gone + 1 := by
  obtain ⟨hpos, hdue⟩ := h
  have hle := Nat.div_mul_le_self (now - tick.began) tick.interval
  unfold receive
  dsimp only
  split
  · next hlt =>
    have hmul := Nat.mul_le_mul_right tick.interval hlt
    have hnow : now = tick.began + (tick.gone + 1) * tick.interval := by
      rw [Nat.succ_eq_add_one] at hmul
      omega
    refine ⟨hnow, ?_⟩
    rw [hnow, Nat.add_sub_cancel_left, Nat.mul_div_cancel _ hpos]
  · exact ⟨rfl, rfl⟩

/-- A tick that is due is received at once. -/
theorem receive_late (hpos : 0 < tick.interval)
    (hlate : tick.began + (tick.gone + 1) * tick.interval ≤ now) :
    (tick.receive now).1 = now := by
  have hdue : tick.gone + 1 ≤ (now - tick.began) / tick.interval :=
    (Nat.le_div_iff_mul_le hpos).mpr (by omega)
  unfold receive
  dsimp only
  rw [if_pos (Nat.lt_of_succ_le hdue)]

end Ticker

-- ================================================================ retry

namespace Util

variable {σ ε : Type} {f : ConditionFunc σ ε} {maxRetries : Int}
  {left now : Nat} {tick : Ticker} {s : σ}

/-- The state behind that many calls. -/
def after (f : ConditionFunc σ ε) : Nat → σ → σ
  | 0, s => s
  | i + 1, s => after f i (f s).2.2

/-- What the call with that number says. -/
def verdict (f : ConditionFunc σ ε) (i : Nat) (s : σ) : Except ε Bool :=
  (f (after f i s)).1

/-- How long it takes. -/
def takes (f : ConditionFunc σ ε) (i : Nat) (s : σ) : Nat :=
  (f (after f i s)).2.1

/-- What `Retry` makes of the last one. -/
def closing (maxRetries : Int) : Except ε Bool → Option (RetryErr ε)
  | .error err => some (.cause err)
  | .ok true => none
  | .ok false => some (.stillFailing maxRetries)

/-- The calls of a loop with `left` retries: `n` of them are not the
last. -/
structure Made (f : ConditionFunc σ ε) (maxRetries : Int) (left : Nat)
    (s : σ) (r : Retried σ ε) (n : Nat) : Prop where
  starts : r.starts.length = n + 1
  room : n ≤ left
  undecided : ∀ i, i < n → verdict f i s = .ok false
  state : r.state = after f (n + 1) s
  err : r.err = closing maxRetries (verdict f n s)
  exhausted : verdict f n s = .ok false → n = left

theorem retryLoop_last (h : (f s).1 ≠ .ok false ∨ left = 0) :
    retryLoop f maxRetries left now tick s
      = ⟨closing maxRetries (f s).1, (f s).2.2, now + (f s).2.1, [now]⟩ := by
  rw [retryLoop.eq_def]
  dsimp only
  cases hcall : (f s).1 with
  | error err => rfl
  | ok done =>
      cases done with
      | true => rfl
      | false =>
          rcases h with hdone | rfl
          · exact absurd hcall hdone
          · rfl

theorem retryLoop_next (h : (f s).1 = .ok false) :
    retryLoop f maxRetries (left + 1) now tick s
      = let next := tick.receive (now + (f s).2.1)
        let rest := retryLoop f maxRetries left next.1 next.2 (f s).2.2
        { rest with starts := now :: rest.starts } := by
  rw [retryLoop.eq_def]
  dsimp only
  rw [h]

theorem retryLoop_made (f : ConditionFunc σ ε) (maxRetries : Int) :
    ∀ (left now : Nat) (tick : Ticker) (s : σ),
      ∃ n, Made f maxRetries left s
        (retryLoop f maxRetries left now tick s) n := by
  intro left
  induction left with
  | zero =>
      intro now tick s
      rw [retryLoop_last (Or.inr rfl)]
      exact ⟨0, rfl, Nat.le_refl 0, nofun, rfl, rfl, fun _ => rfl⟩
  | succ left ih =>
      intro now tick s
      by_cases hcall : (f s).1 = .ok false
      · -- one call, and those of the rest
        rw [retryLoop_next hcall]
        obtain ⟨n, hrest⟩ := ih (tick.receive (now + (f s).2.1)).1
          (tick.receive (now + (f s).2.1)).2 (f s).2.2
        refine ⟨n + 1, congrArg (· + 1) hrest.starts,
          Nat.succ_le_succ hrest.room, fun i hi => ?_, hrest.state,
          hrest.err, fun hlast => congrArg (· + 1) (hrest.exhausted hlast)⟩
        cases i with
        | zero => exact hcall
        | succ i => exact hrest.undecided i (by omega)
      · rw [retryLoop_last (Or.inl hcall)]
        exact ⟨0, rfl, Nat.zero_le _, nofun, rfl, rfl,
          fun hlast => absurd hlast hcall⟩

/-- The times of the calls behind the first. -/
theorem retryLoop_starts (f : ConditionFunc σ ε) (maxRetries : Int)
    (left now : Nat) (tick : Ticker) (s : σ) :
    ∃ rest, (retryLoop f maxRetries left now tick s).starts = now :: rest
      ∧ (rest = [] ∨ ∃ left', rest = (retryLoop f maxRetries left'
          (tick.receive (now + (f s).2.1)).1
          (tick.receive (now + (f s).2.1)).2 (f s).2.2).starts) := by
  cases left with
  | zero =>
      rw [retryLoop_last (Or.inr rfl)]
      exact ⟨[], rfl, Or.inl rfl⟩
  | succ left =>
      by_cases hcall : (f s).1 = .ok false
      · rw [retryLoop_next hcall]
        exact ⟨_, rfl, Or.inr ⟨left, rfl⟩⟩
      · rw [retryLoop_last (Or.inl hcall)]
        exact ⟨[], rfl, Or.inl rfl⟩

/-- The call with number `i` is made behind `i` ticks, and on time if the
calls before it leave it the time. -/
theorem retryLoop_scheduled (f : ConditionFunc σ ε) (maxRetries : Int)
    (i : Nat) : ∀ (left now : Nat) (tick : Ticker) (s : σ) (t : Nat),
      tick.Kept now →
      (retryLoop f maxRetries left now tick s).starts[i]? = some t →
      tick.began + (tick.gone + i) * tick.interval ≤ t
        ∧ (now = tick.began + tick.gone * tick.interval →
            (∀ j, j < i → takes f j s ≤ tick.interval) →
            t = tick.began + (tick.gone + i) * tick.interval) := by
  induction i with
  | zero =>
      intro left now tick s t hkept ht
      obtain ⟨rest, hstarts, -⟩ :=
        retryLoop_starts f maxRetries left now tick s
      rw [hstarts] at ht
      cases ht
      exact ⟨hkept.2, fun hnow _ => hnow⟩
  | succ i ih =>
      intro left now tick s t hkept ht
      obtain ⟨rest, hstarts, hrest⟩ :=
        retryLoop_starts f maxRetries left now tick s
      rw [hstarts, List.getElem?_cons_succ] at ht
      rcases hrest with rfl | ⟨left', rfl⟩
      · cases ht
      · have hback := hkept.later (f s).2.1
        obtain ⟨hnext, hgone, -, -⟩ := Ticker.receive_spec hback
        obtain ⟨hbehind, hontime⟩ := ih left' _ _ _ t hnext ht
        rw [Ticker.receive_began, Ticker.receive_interval] at hbehind hontime
        refine ⟨Nat.le_trans ?_ hbehind, fun hnow htakes => ?_⟩
        · have hmul := Nat.mul_le_mul_right tick.interval
            (show tick.gone + (i + 1)
              ≤ (tick.receive (now + (f s).2.1)).2.gone + i by omega)
          omega
        · have hshort : (f s).2.1 ≤ tick.interval := htakes 0 (by omega)
          have hearly : now + (f s).2.1
              ≤ tick.began + (tick.gone + 1) * tick.interval := by
            rw [Nat.add_mul, Nat.one_mul]
            omega
          obtain ⟨htime, hone⟩ := Ticker.receive_exact hback hearly
          rw [hone] at hontime
          rw [hontime htime fun j hj => htakes (j + 1) (by omega)]
          congr 2
          omega

/-- Between the end of a call and the next one there is an interval at
most, and nothing behind a call that took an interval. -/
theorem retryLoop_spaced (f : ConditionFunc σ ε) (maxRetries : Int)
    (i : Nat) : ∀ (left now : Nat) (tick : Ticker) (s : σ) (t t' : Nat),
      tick.Kept now →
      (retryLoop f maxRetries left now tick s).starts[i]? = some t →
      (retryLoop f maxRetries left now tick s).starts[i + 1]? = some t' →
      t + takes f i s ≤ t' ∧ t' ≤ t + takes f i s + tick.interval
        ∧ (tick.interval ≤ takes f i s → t' = t + takes f i s) := by
  induction i with
  | zero =>
      intro left now tick s t t' hkept ht ht'
      obtain ⟨rest, hstarts, hrest⟩ :=
        retryLoop_starts f maxRetries left now tick s
      rw [hstarts] at ht ht'
      cases ht
      rcases hrest with rfl | ⟨left', rfl⟩
      · cases ht'
      · obtain ⟨rest', hstarts', -⟩ := retryLoop_starts f maxRetries left'
          (tick.receive (now + (f s).2.1)).1
          (tick.receive (now + (f s).2.1)).2 (f s).2.2
        rw [List.getElem?_cons_succ, hstarts'] at ht'
        cases ht'
        obtain ⟨-, -, hlow, hhigh⟩ :=
          Ticker.receive_spec (hkept.later (f s).2.1)
        refine ⟨hlow, hhigh, fun hlong => Ticker.receive_late hkept.1 ?_⟩
        have hbehind := hkept.2
        have hover : tick.interval ≤ (f s).2.1 := hlong
        rw [Nat.add_mul, Nat.one_mul]
        omega
  | succ i ih =>
      intro left now tick s t t' hkept ht ht'
      obtain ⟨rest, hstarts, hrest⟩ :=
        retryLoop_starts f maxRetries left now tick s
      rw [hstarts, List.getElem?_cons_succ] at ht ht'
      rcases hrest with rfl | ⟨left', rfl⟩
      · cases ht
      · obtain ⟨hnext, -, -, -⟩ :=
          Ticker.receive_spec (hkept.later (f s).2.1)
        have hspaced := ih left' _ _ _ t t' hnext ht ht'
        rw [Ticker.receive_interval] at hspaced
        exact hspaced

end Util

open Util in
/-- `Retry` calls the function once and then up to `maxRetries` times more,
until it says something else than that it is not done, and ends with what
it said last. The call with number `i` is made `i` intervals behind the
first, or later, and no later if none before it takes longer than an
interval. It is made within an interval from the end of the one before, and
at once if that took an interval or more. -/
theorem retry_spec {σ ε : Type} (interval now : Nat) (maxRetries : Int)
    (f : ConditionFunc σ ε) (s : σ) (hinterval : 0 < interval)
    (hmax : 0 < maxRetries) :
    ∃ n, Made f maxRetries maxRetries.toNat s
        (Util.retry interval maxRetries f now s) n
      ∧ (∀ i t : Nat,
          (Util.retry interval maxRetries f now s).starts[i]? = some t →
          now + i * interval ≤ t
            ∧ ((∀ j, j < i → takes f j s ≤ interval) →
                t = now + i * interval))
      ∧ ∀ i t t' : Nat,
          (Util.retry interval maxRetries f now s).starts[i]? = some t →
          (Util.retry interval maxRetries f now s).starts[i + 1]? = some t' →
          t + takes f i s ≤ t' ∧ t' ≤ t + takes f i s + interval
            ∧ (interval ≤ takes f i s → t' = t + takes f i s) := by
  have hloop : Util.retry interval maxRetries f now s
      = retryLoop f maxRetries maxRetries.toNat now (newTicker interval now)
        s := if_neg (by omega)
  have hkept : (newTicker interval now).Kept now := Ticker.kept_new hinterval
  rw [hloop]
  obtain ⟨n, hmade⟩ := retryLoop_made f maxRetries maxRetries.toNat now
    (newTicker interval now) s
  refine ⟨n, hmade, fun i t ht => ?_, fun i t t' ht ht' =>
    retryLoop_spaced f maxRetries i _ _ _ _ _ _ hkept ht ht'⟩
  obtain ⟨hbehind, hontime⟩ :=
    retryLoop_scheduled f maxRetries i _ _ _ _ _ hkept ht
  have hzero : (newTicker interval now).began
      + ((newTicker interval now).gone + i) * (newTicker interval now).interval
      = now + i * interval := by
    show now + (0 + i) * interval = now + i * interval
    rw [Nat.zero_add]
  rw [hzero] at hbehind hontime
  refine ⟨hbehind, hontime ?_⟩
  show now = now + 0 * interval
  omega

/-- The first call takes seven seconds of five, and the third is on time
again. -/
theorem retry_spec_catches_up :
    let f : Util.ConditionFunc Nat String := fun n =>
      (.ok (decide (n = 2)), if n = 0 then 7 else 1, n + 1)
    (Util.retry 5 20 f 0 0).starts = [0, 7, 10]
      ∧ ∃ n, Util.Made f 20 20 0 (Util.retry 5 20 f 0 0) n := by
  intro f
  obtain ⟨n, hmade, -⟩ :=
    retry_spec 5 0 20 f 0 (by decide) (by decide)
  exact ⟨by decide +kernel, n, hmade⟩

/-- A function that returns no error and takes some time. -/
def Util.timed (f : Sys → Bool × Sys) (takes : Sys → Nat) :
    ConditionFunc Sys String :=
  fun s => (.ok (f s).1, takes s, (f s).2)

/-- `Retry` of such a function, when nobody looks at the clock. -/
theorem retry_timeless (f : Sys → Bool × Sys) (takes : Sys → Nat)
    (interval now maxRetries : Nat) (s : Sys) (hmax : 0 < maxRetries) :
    let r := Util.retry interval maxRetries (Util.timed f takes) now s
    (r.err.isNone, r.state) = retry f maxRetries s := by
  have hloop : ∀ (left now : Nat) (tick : Ticker) (s : Sys),
      ((Util.retryLoop (Util.timed f takes) maxRetries left now tick
          s).err.isNone,
        (Util.retryLoop (Util.timed f takes) maxRetries left now tick
          s).state) = retry f left s := by
    intro left
    induction left with
    | zero =>
        intro now tick s
        rw [Util.retryLoop_last (Or.inr rfl), retry]
        unfold Util.timed
        cases f s with
        | mk done s' => cases done <;> rfl
    | succ left ih =>
        intro now tick s
        rw [retry]
        cases hcall : f s with
        | mk done s' =>
            have htimed : Util.timed f takes s = (.ok done, takes s, s') := by
              rw [Util.timed, hcall]
            cases done with
            | true =>
                rw [Util.retryLoop_last (Or.inl (by rw [htimed]; nofun)),
                  htimed]
                rfl
            | false =>
                rw [Util.retryLoop_next (by rw [htimed]), htimed]
                exact ih _ _ s'
  have hpos : ¬ (maxRetries : Int) ≤ 0 := by omega
  unfold Util.retry
  rw [if_neg hpos, Int.toNat_natCast]
  exact hloop maxRetries now _ s

/-- So the report of a failure is a `Retry`, whatever its attempts take. -/
theorem reportFailedStatus_retries (env : Env) (takes : Sys → Nat)
    (interval now : Nat) (s : Sys) :
    let r := Util.retry interval (2 ^ 63 - 1 : Nat)
      (Util.timed (reportFailed env) takes) now s
    (r.err.isNone, r.state) = reportFailedStatus env s := by
  unfold reportFailedStatus
  generalize hmax : 2 ^ 63 - 1 = maxRetries
  exact retry_timeless _ takes interval now maxRetries s (by omega)

-- ====================================================== the definition

/-- The condition settles whether the definition is usable. -/
def CrdCondition.settles (cond : CrdCondition) : Bool :=
  decide (cond.type = .established ∧ cond.status = .isTrue
    ∨ cond.type = .namesAccepted ∧ cond.status = .isFalse)

/-- The first condition that settles it says that it is. -/
def Established (conds : List CrdCondition) : Prop :=
  ∃ cond, conds.find? CrdCondition.settles = some cond
    ∧ cond.type = .established

theorem crdReady_cons (cond : CrdCondition) (rest : List CrdCondition) :
    crdReady (cond :: rest)
      = if cond.settles then
          if cond.type = .established then .ok true
          else .error ("Name conflict: " ++ cond.reason)
        else crdReady rest := by
  obtain ⟨type, status, reason⟩ := cond
  rw [crdReady]
  unfold CrdCondition.settles
  cases type with
  | established => cases status <;> simp
  | namesAccepted => cases status <;> simp
  | other text => simp

theorem crdReady_iff (conds : List CrdCondition) :
    crdReady conds = .ok true ↔ Established conds := by
  unfold Established
  induction conds with
  | nil => exact iff_of_false (fun h => nomatch h) fun ⟨_, h, _⟩ => nomatch h
  | cons cond rest ih =>
      rw [crdReady_cons, List.find?_cons]
      cases hsettles : cond.settles with
      | false => simpa [hsettles] using ih
      | true =>
          by_cases htype : cond.type = .established
          · simp [htype]
          · simp [htype]

-- ========================================================== one attempt

open ReplicatedStatefulSet

variable {srv : ApiServer} {b b' : Boot}

/-- The definition that the operator sends. -/
def definition : CustomResourceDefinition :=
  newCRD crdName resourceKind resourcePlural resourceShort

namespace ApiServer

/-- The definition can be created by this request, or is there already. -/
def accepts (srv : ApiServer) (n : Nat) : Prop :=
  ∀ text, srv.create n definition ≠ some (.other text)

/-- A read by this request shows a definition that is established. -/
def Shows (srv : ApiServer) (n : Nat) : Prop :=
  ∃ conds, srv.get n crdName = .ok conds ∧ Established conds

/-- What a poll makes of the answer to this request. -/
def poll (srv : ApiServer) (n : Nat) : Except String Bool :=
  srv.get n crdName >>= crdReady

theorem poll_iff (n : Nat) : srv.poll n = .ok true ↔ srv.Shows n := by
  unfold poll Shows
  cases srv.get n crdName with
  | error err =>
      exact iff_of_false (fun h => nomatch h) fun ⟨_, h, _⟩ => nomatch h
  | ok conds =>
      show crdReady conds = .ok true ↔ _
      rw [crdReady_iff]
      simp

end ApiServer

theorem after_pollCRD (i : Nat) (b : Boot) :
    Util.after (pollCRD srv crdName) i b
      = { b with sent := List.replicate i (.get crdName) ++ b.sent } := by
  induction i generalizing b with
  | zero => rfl
  | succ i ih =>
      refine (ih (b.send (.get crdName))).trans ?_
      rw [List.replicate_succ', List.append_assoc]
      rfl

theorem verdict_pollCRD (i : Nat) (b : Boot) :
    Util.verdict (pollCRD srv crdName) i b = srv.poll (b.sent.length + i) := by
  rw [Util.verdict, after_pollCRD]
  unfold pollCRD ApiServer.poll
  rw [List.length_append, List.length_replicate, Nat.add_comm]

theorem closing_eq_none_iff {ε : Type} {maxRetries : Int}
    {v : Except ε Bool} :
    Util.closing maxRetries v = none ↔ v = .ok true := by
  cases v with
  | error err => exact iff_of_false nofun nofun
  | ok done => cases done <;> simp [Util.closing]

/-- The polls of `WaitCRDReady`. -/
theorem waitCRDReady_polls (srv : ApiServer) (b : Boot) :
    ∃ n, (∀ i, i < n → srv.poll (b.sent.length + i) = .ok false)
      ∧ (waitCRDReady srv crdName b).2.sent
        = List.replicate (n + 1) (.get crdName) ++ b.sent
      ∧ (waitCRDReady srv crdName b).2.failures = b.failures
      ∧ ((waitCRDReady srv crdName b).1 = none
          ↔ srv.Shows (b.sent.length + n)) := by
  obtain ⟨n, hmade⟩ := Util.retryLoop_made (pollCRD srv crdName) 20 20 b.now
    (newTicker 5 b.now) b
  have hstate := hmade.state
  rw [after_pollCRD] at hstate
  refine ⟨n, fun i hi => ?_, ?_, ?_, ?_⟩
  · rw [← verdict_pollCRD]
    exact hmade.undecided i hi
  · exact congrArg Boot.sent hstate
  · show (Util.retryLoop _ 20 20 b.now _ b).state.failures = b.failures
    rw [hstate]
  · rw [← ApiServer.poll_iff, ← verdict_pollCRD, ← closing_eq_none_iff,
      ← hmade.err]
    exact Option.map_eq_none_iff

/-- What one turn of `Start` can be. -/
inductive Attempt (srv : ApiServer) (b : Boot) : Boot ⊕ Boot → Prop
  /-- The definition is not accepted. -/
  | refused (b' : Boot) (hno : ¬ srv.accepts b.sent.length)
      (hsent : b'.sent = .create definition :: b.sent)
      (hfailures : b'.failures.length = b.failures.length + 1) :
      Attempt srv b (.inl b')
  /-- It does not become established while it is waited for. -/
  | unready (b' : Boot) (n : Nat) (hok : srv.accepts b.sent.length)
      (hwaits : ∀ i, i < n → srv.poll (b.sent.length + 1 + i) = .ok false)
      (hno : ¬ srv.Shows (b.sent.length + 1 + n))
      (hsent : b'.sent = List.replicate (n + 1) (.get crdName)
        ++ .create definition :: b.sent)
      (hfailures : b'.failures.length = b.failures.length + 1) :
      Attempt srv b (.inl b')
  | ready (b' : Boot) (n : Nat) (hok : srv.accepts b.sent.length)
      (hwaits : ∀ i, i < n → srv.poll (b.sent.length + 1 + i) = .ok false)
      (hshows : srv.Shows (b.sent.length + 1 + n))
      (hsent : b'.sent = List.replicate (n + 1) (.get crdName)
        ++ .create definition :: b.sent)
      (hfailures : b'.failures = b.failures) :
      Attempt srv b (.inr b')

/-- Behind the request that creates the definition. -/
def Boot.created (srv : ApiServer) (b : Boot) : Boot :=
  { b.send (.create definition) with
    now := b.now + srv.takes b.sent.length }

theorem initCRD_refused {text : String}
    (h : srv.create b.sent.length definition = some (.other text)) :
    initCRD srv b = (some ("Failed to create CRD: " ++ text),
      b.created srv) := by
  unfold initCRD createCRD
  rw [← definition]
  dsimp only
  rw [h]
  rfl

theorem initCRD_accepted (h : srv.accepts b.sent.length) :
    initCRD srv b = waitCRDReady srv crdName (b.created srv) := by
  unfold initCRD createCRD
  rw [← definition]
  dsimp only
  cases hcreate : srv.create b.sent.length definition with
  | none => rfl
  | some err =>
      cases err with
      | alreadyExists => rfl
      | other text => exact absurd hcreate (h text)

theorem startTurn_attempt (srv : ApiServer) (b : Boot) :
    Attempt srv b (startTurn srv true b) := by
  unfold startTurn initResource
  rw [if_pos rfl]
  by_cases hok : srv.accepts b.sent.length
  · rw [initCRD_accepted hok]
    obtain ⟨n, hwaits, hsent, hfailures, hnone⟩ :=
      waitCRDReady_polls srv (b.created srv)
    cases hwait : waitCRDReady srv crdName (b.created srv) with
    | mk err b' =>
        rw [hwait] at hsent hfailures hnone
        cases err with
        | none =>
            exact .ready b' n hok hwaits (hnone.mp rfl) hsent hfailures
        | some err =>
            refine .unready _ n hok hwaits (fun hshows => ?_) hsent
              (congrArg (·.length + 1) hfailures)
            cases hnone.mpr hshows
  · have hno := hok
    unfold ApiServer.accepts at hno
    push Not at hno
    obtain ⟨text, hcreate⟩ := hno
    rw [initCRD_refused hcreate]
    exact .refused _ hok rfl rfl

-- ========================================================== all attempts

/-- The operator is ready only when it has been told not to create the
definition, or when the API server has accepted the definition and then
shown it as established, in answer to the last request. -/
theorem ready_established (srv : ApiServer) (create : Bool) (turns : Nat)
    (b : Boot) (h : loop (startTurn srv create) turns Boot.start = .inr b) :
    create = false ∧ b = Boot.start
      ∨ ∃ older n, srv.accepts older.length
        ∧ b.sent = List.replicate (n + 1) (.get crdName)
          ++ .create definition :: older
        ∧ srv.Shows (older.length + 1 + n) := by
  cases create with
  | false =>
      have hrule : Sum.elim (· = Boot.start) (· = Boot.start)
          (loop (startTurn srv false) turns Boot.start) :=
        loop_rule (fun s hs => hs) turns Boot.start rfl
      rw [h] at hrule
      exact Or.inl ⟨rfl, hrule⟩
  | true =>
      have hrule : Sum.elim (fun _ => True) (fun b : Boot => ∃ older n,
            srv.accepts older.length
            ∧ b.sent = List.replicate (n + 1) (.get crdName)
              ++ .create definition :: older
            ∧ srv.Shows (older.length + 1 + n))
          (loop (startTurn srv true) turns Boot.start) := by
        refine loop_rule (fun s _ => ?_) turns Boot.start trivial
        have hattempt := startTurn_attempt srv s
        generalize startTurn srv true s = o at hattempt ⊢
        cases hattempt with
        | refused => trivial
        | unready => trivial
        | ready b' n hok _ hshows hsent _ =>
            exact ⟨s.sent, n, hok, hsent, hshows⟩
      rw [h] at hrule
      exact Or.inr hrule

/-- The API server is down at first. Then the definition turns out to be
there already, and becomes established while it is polled. -/
def ApiServer.comingUp : ApiServer where
  create n _ :=
    if n = 0 then some (.other "connection refused") else some .alreadyExists
  get n _ :=
    if n < 4 then .ok [⟨.namesAccepted, .isTrue, "NoConflicts"⟩]
    else .ok [⟨.namesAccepted, .isTrue, "NoConflicts"⟩,
      ⟨.established, .isTrue, "InitialNamesAccepted"⟩]
  takes _ := 1

theorem ready_established_second :
    ∃ b, loop (startTurn .comingUp true) 2 Boot.start = .inr b
      ∧ ∃ older n, ApiServer.comingUp.accepts older.length
        ∧ b.sent = List.replicate (n + 1) (.get crdName)
          ++ .create definition :: older
        ∧ ApiServer.comingUp.Shows (older.length + 1 + n) := by
  have hends : (loop (startTurn .comingUp true) 2 Boot.start).isRight
      = true := by decide +kernel
  cases h : loop (startTurn .comingUp true) 2 Boot.start with
  | inl b =>
      rw [h] at hends
      cases hends
  | inr b =>
      refine ⟨b, rfl, ?_⟩
      rcases ready_established .comingUp true 2 b h with ⟨hno, -⟩ | hready
      · cases hno
      · exact hready

/-- If from the request with number `N` on the definition is accepted and
shown as established, the operator becomes ready: behind at most `N` failed
attempts and with `N + 2` requests at most, whatever the API server has
answered before. -/
theorem comes_up (srv : ApiServer) (N : Nat)
    (h : ∀ n, N ≤ n → srv.accepts n ∧ srv.Shows n) :
    ∃ b, loop (startTurn srv true) (N + 1) Boot.start = .inr b
      ∧ b.sent.length ≤ N + 2 ∧ b.failures.length ≤ N := by
  have hpolled : ∀ n, srv.poll n = .ok false → n < N := by
    intro n hpoll
    by_contra hle
    have hshows := (srv.poll_iff n).mpr (h n (by omega)).2
    cases hpoll.symm.trans hshows
  -- a failed attempt ends before the request `N`
  refine loop_total (I := fun b => b.sent.length ≤ N
      ∧ b.failures.length ≤ b.sent.length) (fun b => N - b.sent.length) ?_
    (N + 1) Boot.start ⟨Nat.zero_le _, Nat.le_refl _⟩ (by omega)
  rintro b ⟨hlen, hfail⟩
  have hattempt := startTurn_attempt srv b
  generalize startTurn srv true b = o at hattempt ⊢
  cases hattempt with
  | refused b' hno hsent hfailures =>
      have hlt : b.sent.length < N := by
        by_contra hle
        exact hno (h _ (by omega)).1
      have hlen' := congrArg List.length hsent
      rw [List.length_cons] at hlen'
      refine ⟨⟨?_, ?_⟩, ?_⟩ <;> omega
  | unready b' n hok hwaits hno hsent hfailures =>
      have hlt : b.sent.length + 1 + n < N := by
        by_contra hle
        exact hno (h _ (by omega)).2
      have hlen' := congrArg List.length hsent
      rw [List.length_append, List.length_replicate, List.length_cons]
        at hlen'
      refine ⟨⟨?_, ?_⟩, ?_⟩ <;> omega
  | ready b' n hok hwaits hshows hsent hfailures =>
      have hlen' := congrArg List.length hsent
      rw [List.length_append, List.length_replicate, List.length_cons]
        at hlen'
      refine ⟨?_, ?_⟩
      · cases n with
        | zero => omega
        | succ n =>
            have hlast := hpolled _ (hwaits n (by omega))
            omega
      · rw [hfailures]
        omega

theorem comes_up_polled :
    ∃ b, loop (startTurn .comingUp true) 5 Boot.start = .inr b
      ∧ b.sent.length ≤ 6 ∧ b.failures.length ≤ 4 := by
  refine comes_up .comingUp 4 fun n hn => ⟨fun text => ?_, ?_⟩
  · have hpos : n ≠ 0 := by omega
    show (if n = 0 then _ else _) ≠ _
    rw [if_neg hpos]
    nofun
  · exact ⟨_, if_neg (by omega), _, rfl, rfl⟩

end RssOperator
