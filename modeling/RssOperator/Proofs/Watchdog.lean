/-
When the watchdog ends the process.

# The two directions

The timer is started with a handler and stopped when the handler returns,
so it is never started twice and runs exactly while the controller waits
in `send` (`Watched.Kept`). If the controller waits for a minute, the
process is gone. If the timer goes off, the controller has waited for a
minute, on one Cluster with one event; and where time only passes while
there is no room, that Cluster has taken nothing off its channel in all
that time (`watchdog_iff`).

# A goroutine that is gone

A Cluster whose goroutine has returned, or is in a pass that does not come
back, takes nothing off its channel any more. The notification that finds
the channel full is then the last one that the controller handles, of
whichever resource, and the watchdog puts an end to it (`blocked_ends`).
-/
import Mathlib.Data.List.Induction
import RssOperator.Watchdog
import RssOperator.Proofs.Blocking
import RssOperator.Proofs.Delivery

namespace RssOperator

variable {k : Surroundings} {s s' : System} {n : Notice} {id : Nat}
  {rss : ReplicatedStatefulSet} {env : Env} {kube : Kube}
  {g g' : Goroutine} {is : List WorldStep} {ch : List ReplicatedStatefulSet}
  {w : Watched} {t : Nat}

-- ========================================================= the channels

/-- The goroutine comes to no `select` any more. -/
def Stage.isOver : Stage → Bool
  | looping | exited => true
  | starting _ | waiting | handling _ => false

namespace Goroutine.Turns

/-- Nobody but the controller puts anything on a channel. -/
theorem suffix (h : g.Turns env kube is g') : g'.eventCh <:+ g.eventCh := by
  cases h with
  | took event rest hstage hch =>
      rw [hch]
      exact List.suffix_cons event rest
  | idle | started | handled | ticked | hung | stopped =>
      exact List.suffix_refl _

theorem of_over (h : g.Turns env kube is g')
    (hover : g.stage.isOver = true) : g' = g := by
  cases h with
  | idle => rfl
  | started _ hstage | took _ _ hstage | handled _ hstage
  | ticked _ _ hstage | hung _ _ hstage | stopped hstage =>
      rw [hstage] at hover
      cases hover

end Goroutine.Turns

namespace System

/-- Besides what `Orderly` says: no channel holds more than it can, and
what the controller waits on is there. -/
structure Queued (s : System) : Prop extends s.Orderly where
  room : ∀ id g, s.clusters id = some g → g.eventCh.length ≤ eventCap
  awaited : ∀ id rss, s.sending = some (id, rss) →
    ∃ g, s.clusters id = some g

theorem queued_start : System.start.Queued where
  toOrderly := orderly_start
  room _ _ h := by cases h
  awaited _ _ h := by cases h

theorem Queued.crash (hs : s.Queued) : Queued { s with crashed := true } :=
  ⟨hs.toOrderly.crash, hs.room, hs.awaited⟩

theorem Queued.room_setCluster (hs : s.Queued)
    (hlen : g'.eventCh.length ≤ eventCap) (id' : Nat) (g : Goroutine)
    (hg : (s.setCluster id g').clusters id' = some g) :
    g.eventCh.length ≤ eventCap := by
  rw [lookup_setCluster] at hg
  split at hg
  · cases hg
    exact hlen
  · exact hs.room id' g hg

theorem Queued.setCluster (hs : s.Queued) (hg : s.clusters id = some g)
    (hlen : g'.eventCh.length ≤ eventCap) : (s.setCluster id g').Queued where
  toOrderly := hs.toOrderly.setCluster hg g'
  room := hs.room_setCluster hlen
  awaited id' rss h := by
    rw [lookup_setCluster]
    split
    · exact ⟨g', rfl⟩
    · exact hs.awaited id' rss h

theorem Queued.notify (hs : s.Queued) (hcrashed : s.crashed = false)
    (n : Notice) : (s.notify k n).Queued := by
  have hkept := @Orderly.notify k s hs.toOrderly hcrashed n
  rcases notify_cases k n hcrashed with
    ⟨hsame | hsame, -⟩ | ⟨err, call, next, hfree, hstep, -, heq⟩
  · rw [hsame]
    exact hs
  · rw [hsame]
    exact hs.crash
  · rw [heq] at hkept ⊢
    have hnobody : ∀ id rss (P : Prop), s.sending = some (id, rss) → P := by
      intro id rss P h
      rw [hfree] at h
      cases h
    cases hstep with
    | quiet | ignored | dropped | delete =>
        exact ⟨hkept, hs.room, fun id rss => hnobody id rss _⟩
    | new rss habsent =>
        exact ⟨hkept, hs.room_setCluster (Nat.zero_le _),
          fun id rss => hnobody id rss _⟩
    | update clus id hsyncs hphase hvalid hentry =>
        refine ⟨hkept, hs.room, fun id' rss h => ?_⟩
        cases h
        exact hs.created _ _ hentry

theorem Queued.send (hs : s.Queued) : s.send.Queued := by
  rcases @send_cases s with hsame | ⟨id, rss, g, -, hg, hroom, heq⟩
  · rw [hsame]
    exact hs
  · have hlen : (g.eventCh ++ [rss]).length ≤ eventCap := by
      have hlt := of_decide_eq_false hroom
      rw [List.length_append, List.length_singleton]
      omega
    rw [heq]
    exact ⟨(hs.toOrderly.setCluster hg _).updated,
      hs.room_setCluster hlen, fun _ _ h => by cases h⟩

theorem Queued.turn (hs : s.Queued) (hcrashed : s.crashed = false)
    (id : Nat) (t : Turn) : (s.turn k id t).Queued := by
  rcases turn_cases k id t hcrashed with
    ⟨hsame | hsame, -⟩ | ⟨g, g', is, hg, hturns, -, heq⟩
  · rw [hsame]
    exact hs
  · rw [hsame]
    exact hs.crash
  · rw [heq]
    exact hs.setCluster hg
      (Nat.le_trans hturns.suffix.length_le (hs.room id g hg))

theorem Queued.step (hs : s.Queued) (i : SystemStep) :
    (s.step k i).Queued := by
  unfold System.step
  cases hcrashed : s.crashed with
  | true => exact hs
  | false =>
      cases i with
      | notify n => exact hs.notify hcrashed n
      | send => exact hs.send
      | giveUp =>
          show s.giveUp.Queued
          rw [giveUp_eq hs.toOrderly]
          exact hs
      | turn id t => exact hs.turn hcrashed id t

-- =========================================================== the waiting

/-- The controller waits on a Cluster with this on its channel. -/
def WaitsOn (s : System) (id : Nat) (rss : ReplicatedStatefulSet)
    (ch : List ReplicatedStatefulSet) : Prop :=
  s.crashed = false ∧ s.sending = some (id, rss)
    ∧ ∃ g, s.clusters id = some g ∧ g.eventCh = ch

/-- What a step can be while the controller waits on a Cluster: the end of
the process, the `send` itself, or a turn of that Cluster at most. -/
inductive Waits (k : Surroundings) (s : System) (id : Nat)
    (rss : ReplicatedStatefulSet) (g : Goroutine) (s' : System) : Prop
  | ends (hgone : s' = { s with crashed := true })
  | sends (hroom : g.full = false) (hsending : s'.sending = none)
  | waits (g' : Goroutine) (is : List WorldStep)
      (hcrashed : s'.crashed = false)
      (hcontroller : s'.controller = s.controller)
      (hsending : s'.sending = some (id, rss))
      (hg : s'.clusters id = some g')
      (hturns : g.Turns (k.env id) (k.kube id) is g')

theorem step_waits (hs : s.Orderly) (hcrashed : s.crashed = false)
    (hsending : s.sending = some (id, rss)) (hg : s.clusters id = some g)
    (i : SystemStep) : Waits k s id rss g (s.step k i) := by
  have hstill : Waits k s id rss g s :=
    .waits g [] hcrashed rfl hsending hg .idle
  unfold System.step
  rw [hcrashed]
  cases i with
  | notify n =>
      show Waits k s id rss g (s.notify k n)
      unfold System.notify
      rw [hsending]
      exact hstill
  | send =>
      show Waits k s id rss g s.send
      rcases @send_cases s with hsame | ⟨id', rss', g₁, hto, hg₁, hroom, heq⟩
      · rw [hsame]
        exact hstill
      · cases hsending.symm.trans hto
        cases hg.symm.trans hg₁
        rw [heq]
        exact .sends hroom rfl
  | giveUp =>
      show Waits k s id rss g s.giveUp
      rw [giveUp_eq hs]
      exact hstill
  | turn id' t =>
      show Waits k s id rss g (s.turn k id' t)
      rcases turn_cases k id' t hcrashed with
        ⟨hsame | hsame, -⟩ | ⟨g₁, g', is, hg₁, hturns, -, heq⟩
      · rw [hsame]
        exact hstill
      · rw [hsame]
        exact .ends rfl
      · rw [heq]
        by_cases hid : id = id'
        · subst hid
          cases hg.symm.trans hg₁
          exact .waits g' is hcrashed rfl hsending
            ((lookup_setCluster _ _ _ _).trans (if_pos rfl)) hturns
        · exact .waits g [] hcrashed rfl hsending
            ((lookup_setCluster _ _ _ _).trans ((if_neg hid).trans hg)) .idle

/-- As long as the wait lasts, the channel does not grow. -/
theorem WaitsOn.step (hs : s.Orderly) (h : s.WaitsOn id rss ch)
    {i : SystemStep} (hcrashed : (s.step k i).crashed = false)
    (hwaits : (s.step k i).sending.isSome = true) :
    ∃ ch', ch' <:+ ch ∧ (s.step k i).WaitsOn id rss ch' := by
  obtain ⟨halive, hsending, g, hg, rfl⟩ := h
  cases @step_waits k s id rss g hs halive hsending hg i with
  | ends hgone =>
      rw [hgone] at hcrashed
      cases hcrashed
  | sends _ hnone =>
      rw [hnone] at hwaits
      cases hwaits
  | waits g' is _ _ hstill hg' hturns =>
      exact ⟨g'.eventCh, hturns.suffix, hcrashed, hstill, g', hg', rfl⟩

/-- Only a handler that begins makes the controller wait. -/
theorem sending_of_not_begins (hcrashed : s.crashed = false)
    (hfree : s.sending = none) {i : SystemStep}
    (hno : s.begins i = false) : (s.step k i).sending = none := by
  unfold System.step
  rw [hcrashed]
  cases i with
  | notify n =>
      rw [begins, hfree] at hno
      cases hno
  | send =>
      show s.send.sending = none
      rw [System.send, hfree]
      exact hfree
  | giveUp =>
      show s.giveUp.sending = none
      rw [System.giveUp, hfree]
      exact hfree
  | turn id t =>
      show (s.turn k id t).sending = none
      rcases turn_cases k id t hcrashed with
        ⟨hsame | hsame, -⟩ | ⟨_, _, _, -, -, -, hsame⟩
      all_goals
        rw [hsame]
        exact hfree

theorem begins_of_sending {i : SystemStep}
    (hwaits : s.sending.isSome = true) : s.begins i = false := by
  cases i with
  | notify n => exact Option.isNone_eq_false_iff.mpr hwaits
  | send | giveUp | turn => rfl

end System

-- ============================================================= the timer

/-- The timer runs exactly while the controller waits, there is no other
one, and it goes off within a minute. -/
structure PanicTimer.Fits (pt : PanicTimer) (now : Nat) (waits : Bool) :
    Prop where
  limit : pt.d = panicLimit
  text : pt.msg = panicText
  one : pt.lost = []
  runs : pt.t.isSome = waits
  due : ∀ t, pt.t = some t → now < t ∧ t ≤ now + panicLimit

namespace PanicTimer.Fits

variable {pt : PanicTimer} {now : Nat} {waits : Bool}

theorem off (h : pt.Fits now false) : pt.t = none :=
  Option.isNone_iff_eq_none.mp (Option.isSome_eq_false_iff.mp h.runs)

theorem stop (h : pt.Fits now waits) : pt.stop.Fits now false where
  limit := h.limit
  text := h.text
  one := h.one
  runs := rfl
  due _ ht := by cases ht

theorem start (h : pt.Fits now false) : (pt.start now).Fits now true where
  limit := h.limit
  text := h.text
  one := by rw [PanicTimer.start, h.off, h.one]; rfl
  runs := rfl
  due t ht := by
    have hpos : 0 < panicLimit := by decide
    cases ht
    rw [h.limit]
    omega

theorem rings_iff (h : pt.Fits now waits) (later : Nat) :
    pt.rings later = true ↔ ∃ t, pt.t = some t ∧ t ≤ later := by
  simp [PanicTimer.rings, h.one]

theorem wait (h : pt.Fits now waits) {d : Nat}
    (hquiet : pt.rings (now + d) = false) : pt.Fits (now + d) waits where
  limit := h.limit
  text := h.text
  one := h.one
  runs := h.runs
  due t ht := by
    have hno : ¬ t ≤ now + d := fun hle =>
      Bool.eq_false_iff.mp hquiet ((h.rings_iff _).mpr ⟨t, ht, hle⟩)
    have hdue := h.due t ht
    omega

end PanicTimer.Fits

namespace Watched

structure Kept (w : Watched) : Prop where
  queued : w.sys.Queued
  fits : w.sys.crashed = false →
    w.pt.Fits w.now w.sys.sending.isSome
  silent : w.sys.crashed = false → w.said = none

theorem kept_start : Watched.start.Kept where
  queued := System.queued_start
  fits _ := ⟨rfl, rfl, rfl, rfl, fun _ h => by cases h⟩
  silent _ := rfl

/-- The timer behind a step of the system. -/
theorem Kept.act_pt (hw : w.Kept) (hcrashed : w.sys.crashed = false)
    (i : SystemStep) : (w.act k i).pt =
      if (w.sys.step k i).sending.isSome then
        if w.sys.sending.isSome then w.pt else w.pt.start w.now
      else w.pt.stop := by
  have hfits := hw.fits hcrashed
  cases hsending : w.sys.sending with
  | some x =>
      have hno : w.sys.begins i = false :=
        System.begins_of_sending (by rw [hsending]; rfl)
      dsimp only [act]
      rw [hno, hsending]
      cases (w.sys.step k i).sending with
      | none => rfl
      | some => rfl
  | none =>
      rw [hsending] at hfits
      cases hbegins : w.sys.begins i with
      | true =>
          dsimp only [act]
          rw [hbegins, hsending]
          cases (w.sys.step k i).sending with
          | none =>
              show (w.pt.start w.now).stop = w.pt.stop
              rw [PanicTimer.start, hfits.off]
              rfl
          | some => rfl
      | false =>
          dsimp only [act]
          rw [hbegins, hsending,
            @System.sending_of_not_begins k w.sys hcrashed hsending i hbegins]
          show w.pt = w.pt.stop
          rw [PanicTimer.stop, ← hfits.off]

theorem Kept.act (hw : w.Kept) (hcrashed : w.sys.crashed = false)
    (i : SystemStep) : (w.act k i).Kept := by
  refine ⟨hw.queued.step i, fun _ => ?_, fun _ => hw.silent hcrashed⟩
  have hfits := hw.fits hcrashed
  rw [hw.act_pt hcrashed]
  show PanicTimer.Fits _ w.now (w.sys.step k i).sending.isSome
  cases (w.sys.step k i).sending.isSome with
  | false => exact hfits.stop
  | true =>
      cases hwaits : w.sys.sending.isSome with
      | true =>
          rw [hwaits] at hfits
          exact hfits
      | false =>
          rw [hwaits] at hfits
          exact hfits.start

theorem Kept.wait (hw : w.Kept) (hcrashed : w.sys.crashed = false)
    (d : Nat) : (w.wait d).Kept := by
  unfold Watched.wait
  cases hrings : w.pt.rings (w.now + d) with
  | true => exact ⟨hw.queued.crash, nofun, nofun⟩
  | false =>
      exact ⟨hw.queued, fun _ => (hw.fits hcrashed).wait hrings,
        fun _ => hw.silent hcrashed⟩

theorem Kept.step (hw : w.Kept) (i : WatchedStep) : (w.step k i).Kept := by
  unfold Watched.step
  cases hcrashed : w.sys.crashed with
  | true => exact hw
  | false =>
      cases i with
      | act i => exact hw.act hcrashed i
      | wait d => exact hw.wait hcrashed d

theorem Kept.run (hw : w.Kept) (steps : List WatchedStep) :
    (w.run k steps).Kept :=
  List.foldlRecOn steps (Watched.step k) hw fun _ hw i _ => hw.step i

theorem kept (k : Surroundings) (steps : List WatchedStep) :
    (Watched.start.run k steps).Kept := kept_start.run steps

-- ======================================================== the stretch

theorem run_append (w : Watched) (steps more : List WatchedStep) :
    w.run k (steps ++ more) = (w.run k steps).run k more :=
  List.foldl_append

theorem step_crashed (h : w.sys.crashed = true) (i : WatchedStep) :
    w.step k i = w := if_pos h

theorem step_act (h : w.sys.crashed = false) (i : SystemStep) :
    w.step k (.act i) = w.act k i := if_neg (Bool.eq_false_iff.mp h)

theorem step_quiet {d : Nat} (h : w.sys.crashed = false)
    (hquiet : w.pt.rings (w.now + d) = false) :
    w.step k (.wait d) = { w with now := w.now + d } :=
  (if_neg (Bool.eq_false_iff.mp h)).trans
    (if_neg (Bool.eq_false_iff.mp hquiet))

theorem step_rings {d : Nat} (h : w.sys.crashed = false)
    (hrings : w.pt.rings (w.now + d) = true) :
    w.step k (.wait d) = { w with
      sys := { w.sys with crashed := true }
      now := w.now + d
      said := some w.pt.msg } :=
  (if_neg (Bool.eq_false_iff.mp h)).trans (if_pos hrings)

theorem run_crashed (h : w.sys.crashed = true) (steps : List WatchedStep) :
    w.run k steps = w := by
  refine List.foldlRecOn (motive := fun w' => w' = w) steps
    (Watched.step k) rfl fun w' heq i _ => ?_
  rw [heq]
  exact step_crashed h i

theorem elapsed_cons (i : WatchedStep) (steps : List WatchedStep) :
    elapsed (i :: steps) = i.takes + elapsed steps := by
  rw [elapsed, List.map_cons, List.sum_cons, elapsed]

theorem elapsed_append (steps more : List WatchedStep) :
    elapsed (steps ++ more) = elapsed steps + elapsed more := by
  rw [elapsed, List.map_append, List.sum_append, elapsed, elapsed]

/-- The part of a run for which the timer has been running, and what the
Cluster had on its channel: no less than it has now. -/
structure Since (k : Surroundings) (steps : List WatchedStep) (t id : Nat)
    (rss : ReplicatedStatefulSet) (ch : List ReplicatedStatefulSet)
    (before during : List WatchedStep) : Prop where
  split : steps = before ++ during
  began : t = (Watched.start.run k before).now + panicLimit
  now : (Watched.start.run k steps).now
    = (Watched.start.run k before).now + elapsed during
  waits : Along (Watched.step k) (fun w _ => ∃ ch', ch <:+ ch'
      ∧ ch'.length ≤ eventCap ∧ w.sys.WaitsOn id rss ch')
    (Watched.start.run k before) during
  last : (Watched.start.run k steps).sys.WaitsOn id rss ch

variable {steps before during : List WatchedStep} {i : WatchedStep}
  {ch' : List ReplicatedStatefulSet}

theorem Since.extend (h : Since k steps t id rss ch before during)
    (hsuffix : ch' <:+ ch)
    (hnow : (Watched.start.run k (steps ++ [i])).now
      = (Watched.start.run k steps).now + i.takes)
    (hlast : (Watched.start.run k (steps ++ [i])).sys.WaitsOn id rss ch') :
    Since k (steps ++ [i]) t id rss ch' before (during ++ [i]) where
  split := by rw [h.split, List.append_assoc]
  began := h.began
  now := by
    rw [hnow, h.now, elapsed_append, ← Nat.add_assoc]
    rfl
  waits := by
    refine (along_append _ _ _).mpr ⟨?_, ?_, trivial⟩
    · refine Along.imp (fun w i hw => ?_) _ _ h.waits
      obtain ⟨ch₁, hch₁, hw⟩ := hw
      exact ⟨ch₁, hsuffix.trans hch₁, hw⟩
    · have hnow := h.last
      have hroom := (kept k steps).queued.room id
      rw [h.split, run_append] at hnow hroom
      obtain ⟨hcrashed, hsending, g, hg, rfl⟩ := hnow
      exact ⟨_, hsuffix, hroom g hg, hcrashed, hsending, g, hg, rfl⟩
  last := hlast

/-- The controller begins to wait. -/
theorem Since.begin (hlast : (Watched.start.run k steps).sys.WaitsOn id rss ch)
    (ht : t = (Watched.start.run k steps).now + panicLimit) :
    Since k steps t id rss ch steps [] where
  split := (List.append_nil steps).symm
  began := ht
  now := rfl
  waits := trivial
  last := hlast

theorem Kept.waitsOn (hw : w.Kept) (hcrashed : w.sys.crashed = false)
    (hwaits : w.sys.sending.isSome = true) :
    ∃ id rss ch, w.sys.WaitsOn id rss ch := by
  obtain ⟨⟨id, rss⟩, hsending⟩ := Option.isSome_iff_exists.mp hwaits
  obtain ⟨g, hg⟩ := hw.queued.awaited id rss hsending
  exact ⟨id, rss, g.eventCh, hcrashed, hsending, g, hg, rfl⟩

/-- A timer that runs has just been started or has been running before. -/
theorem Kept.timer_cases (hw : w.Kept)
    (hcrashed : (w.step k i).sys.crashed = false)
    (ht : (w.step k i).pt.t = some t) :
    t = (w.step k i).now + panicLimit
      ∨ w.sys.crashed = false ∧ w.pt.t = some t
        ∧ (w.step k i).now = w.now + i.takes
        ∧ ∀ id rss ch, w.sys.WaitsOn id rss ch →
          ∃ ch', ch' <:+ ch ∧ (w.step k i).sys.WaitsOn id rss ch' := by
  have hruns := ((hw.step i).fits hcrashed).runs
  rw [ht] at hruns
  cases halive : w.sys.crashed with
  | true =>
      rw [step_crashed halive, halive] at hcrashed
      cases hcrashed
  | false =>
      cases i with
      | act i =>
          rw [step_act halive] at hcrashed ht hruns ⊢
          have hwaits : (w.sys.step k i).sending.isSome = true := hruns.symm
          rw [hw.act_pt halive, hwaits, if_pos rfl] at ht
          cases hfirst : w.sys.sending.isSome with
          | false =>
              left
              rw [hfirst] at ht
              cases ht
              rw [(hw.fits halive).limit]
              rfl
          | true =>
              right
              rw [hfirst] at ht
              exact ⟨rfl, ht, rfl, fun id rss ch h =>
                h.step hw.queued.toOrderly hcrashed hwaits⟩
      | wait d =>
          right
          cases hrings : w.pt.rings (w.now + d) with
          | true =>
              rw [step_rings halive hrings] at hcrashed
              cases hcrashed
          | false =>
              rw [step_quiet halive hrings] at ht ⊢
              exact ⟨rfl, ht, rfl, fun id rss ch h =>
                ⟨ch, List.suffix_refl ch, h⟩⟩

/-- If the timer runs, it does so since the controller waits. -/
theorem since (hcrashed : (Watched.start.run k steps).sys.crashed = false)
    (ht : (Watched.start.run k steps).pt.t = some t) :
    ∃ id rss ch before during, Since k steps t id rss ch before during := by
  induction steps using List.reverseRecOn generalizing t with
  | nil => cases ht
  | append_singleton steps i ih =>
      have hkept := kept k (steps ++ [i])
      have hnext : Watched.start.run k (steps ++ [i])
          = (Watched.start.run k steps).step k i := run_append _ _ _
      have hwaits := (hkept.fits hcrashed).runs
      rw [ht] at hwaits
      rcases (kept k steps).timer_cases (hnext ▸ hcrashed) (hnext ▸ ht) with
        hnew | ⟨halive, ht, hnow, hlast⟩
      · obtain ⟨id, rss, ch, hon⟩ := hkept.waitsOn hcrashed hwaits.symm
        rw [← hnext] at hnew
        exact ⟨id, rss, ch, _, _, .begin hon hnew⟩
      · obtain ⟨id, rss, ch, before, during, hsince⟩ := ih halive ht
        obtain ⟨ch', hsuffix, hon⟩ := hlast id rss ch hsince.last
        rw [← hnext] at hnow hon
        exact ⟨id, rss, ch', before, _, hsince.extend hsuffix hnow hon⟩

-- ============================================================== the alarm

/-- Only the passing of time makes the timer go off. -/
theorem Kept.said_cases (hw : w.Kept) (hsilent : w.said = none)
    (hsaid : (w.step k i).said ≠ none) :
    w.sys.crashed = false ∧ ∃ d t, i = .wait d ∧ w.pt.t = some t
      ∧ t ≤ w.now + d := by
  cases halive : w.sys.crashed with
  | true =>
      rw [step_crashed halive] at hsaid
      exact absurd hsilent hsaid
  | false =>
      refine ⟨rfl, ?_⟩
      cases i with
      | act i =>
          rw [step_act halive] at hsaid
          exact absurd hsilent hsaid
      | wait d =>
          cases hrings : w.pt.rings (w.now + d) with
          | true =>
              obtain ⟨t, ht, hle⟩ := ((hw.fits halive).rings_iff _).mp hrings
              exact ⟨d, t, rfl, ht, hle⟩
          | false =>
              rw [step_quiet halive hrings] at hsaid
              exact absurd hsilent hsaid

theorem full_of_isHeldUp (hheld : s.isHeldUp = true)
    (h : s.WaitsOn id rss ch) : eventCap ≤ ch.length := by
  obtain ⟨-, hsending, g, hg, rfl⟩ := h
  simp only [System.isHeldUp, hsending, hg, Option.all_some] at hheld
  exact of_decide_eq_true hheld

/-- The timer goes off in a stretch of a minute in which the controller
waits on a Cluster that takes nothing off its channel. -/
theorem alarm_stretch (hprompt : Prompt k steps)
    (hsaid : (Watched.start.run k steps).said ≠ none) :
    ∃ before during after id rss ch, steps = before ++ during ++ after
      ∧ panicLimit ≤ elapsed during ∧ eventCap ≤ ch.length
      ∧ Along (Watched.step k) (fun w _ => w.sys.WaitsOn id rss ch)
        (Watched.start.run k before) during := by
  induction steps using List.reverseRecOn with
  | nil => exact absurd rfl hsaid
  | append_singleton steps i ih =>
      obtain ⟨hprompt, hheld, -⟩ := (along_append _ _ _).mp hprompt
      have hkept := kept k steps
      have hnext : Watched.start.run k (steps ++ [i])
          = (Watched.start.run k steps).step k i := run_append _ _ _
      by_cases hsilent : (Watched.start.run k steps).said = none
      · -- it goes off with this step
        obtain ⟨halive, d, t, rfl, ht, hle⟩ :=
          hkept.said_cases hsilent (hnext ▸ hsaid)
        obtain ⟨id, rss, ch, before, during, hsince⟩ := since halive ht
        have hlate := ((hkept.fits halive).due t ht).1
        have hfull := full_of_isHeldUp
          (hheld (show 0 < d by omega)) hsince.last
        have hlong : panicLimit ≤ elapsed (during ++ [.wait d]) := by
          have hbegan := hsince.began
          have hnow := hsince.now
          rw [elapsed_append]
          show panicLimit ≤ elapsed during + d
          omega
        refine ⟨before, during ++ [.wait d], [], id, rss, ch, ?_, hlong,
          hfull, (along_append _ _ _).mpr ⟨?_, ?_, trivial⟩⟩
        · rw [hsince.split, List.append_assoc, List.append_nil]
        · -- what is on the channel in the end was all there was room for
          refine Along.imp (fun w _ hw => ?_) _ _ hsince.waits
          obtain ⟨ch', hsuffix, hroom, hon⟩ := hw
          have heq : ch = ch' := hsuffix.eq_of_length_le
            (Nat.le_trans hroom hfull)
          rw [heq]
          exact hon
        · have hon := hsince.last
          rw [hsince.split, run_append] at hon
          exact hon
      · obtain ⟨before, during, after, id, rss, ch, hsplit, hrest⟩ :=
          ih hprompt hsilent
        refine ⟨before, during, after ++ [i], id, rss, ch, ?_, hrest⟩
        rw [hsplit, List.append_assoc]

theorem Kept.crashed_of_said {text : String} (hw : w.Kept)
    (hsaid : w.said = some text) : w.sys.crashed = true := by
  by_contra halive
  rw [hw.silent (eq_false_of_ne_true halive)] at hsaid
  cases hsaid

theorem Kept.alarm (during : List WatchedStep) : ∀ w : Watched, w.Kept →
    w.sys.crashed = false → w.pt.t = some t → t ≤ w.now + elapsed during →
    Along (Watched.step k) (fun w _ => w.sys.WaitsOn id rss ch) w during →
    (w.run k during).said = some panicText := by
  induction during with
  | nil =>
      intro w hw halive ht hle _
      have hlate := ((hw.fits halive).due t ht).1
      exact absurd hle (Nat.not_le.mpr hlate)
  | cons i rest ih =>
      intro w hw halive ht hle hwaits
      have hlate := ((hw.fits halive).due t ht).1
      show ((w.step k i).run k rest).said = some panicText
      obtain ⟨hon, hrest⟩ := hwaits
      cases i with
      | act i =>
          have hsame : t ≤ w.now + elapsed rest := by
            rw [elapsed_cons, WatchedStep.takes, Nat.zero_add] at hle
            exact hle
          cases rest with
          | nil => exact absurd hsame (Nat.not_le.mpr hlate)
          | cons j rest =>
              -- the wait goes on, so the timer does
              obtain ⟨halive', hsending', -⟩ := hrest.1
              refine ih _ (hw.step _) halive' ?_ ?_ hrest
              · rw [step_act halive] at hsending' ⊢
                have hsending : (w.sys.step k i).sending = some (id, rss) :=
                  hsending'
                rw [hw.act_pt halive, hsending, hon.2.1]
                exact ht
              · rw [step_act halive]
                exact hsame
      | wait d =>
          cases hrings : w.pt.rings (w.now + d) with
          | true =>
              rw [step_rings halive hrings, run_crashed rfl]
              exact congrArg some (hw.fits halive).text
          | false =>
              have hkept := @Kept.step k w hw (.wait d)
              rw [step_quiet halive hrings] at hrest hkept ⊢
              refine ih _ hkept halive ht ?_ hrest
              rw [elapsed_cons, ← Nat.add_assoc] at hle
              exact hle

/-- A minute of waiting makes the timer go off. -/
theorem Kept.alarm_of_waits (hw : w.Kept)
    (hlong : panicLimit ≤ elapsed during)
    (hwaits : Along (Watched.step k) (fun w _ => w.sys.WaitsOn id rss ch) w
      during) : (w.run k during).said = some panicText := by
  -- the timer runs where the stretch begins
  have hfirst : w.sys.WaitsOn id rss ch := by
    cases during with
    | nil => exact absurd hlong (by decide)
    | cons i rest => exact hwaits.1
  obtain ⟨halive, hsending, -⟩ := hfirst
  have hfits := hw.fits halive
  rw [hsending] at hfits
  obtain ⟨t, ht⟩ := Option.isSome_iff_exists.mp hfits.runs
  have hdue := (hfits.due t ht).2
  exact Kept.alarm during w hw halive ht (by omega) hwaits

/-- The controller waits, for good, with the event for a Cluster. -/
structure Stuck (c : Controller) (id : Nat) (rss : ReplicatedStatefulSet)
    (g : Goroutine) (w : Watched) : Prop where
  controller : w.sys.controller = c
  sending : w.sys.sending = some (id, rss)
  cluster : w.sys.clusters id = some g

variable {c : Controller}

theorem Stuck.step (h : w.Stuck c id rss g) (hw : w.Kept)
    (hfull : g.full = true) (hover : g.stage.isOver = true)
    (i : WatchedStep) : (w.step k i).Stuck c id rss g := by
  cases halive : w.sys.crashed with
  | true =>
      rw [step_crashed halive]
      exact h
  | false =>
      cases i with
      | act i =>
          rw [step_act halive]
          cases @System.step_waits k w.sys id rss g hw.queued.toOrderly
            halive h.sending h.cluster i with
          | ends hgone =>
              have hsys : (w.act k i).sys = { w.sys with crashed := true } :=
                hgone
              constructor
              all_goals rw [hsys]
              exacts [h.controller, h.sending, h.cluster]
          | sends hroom =>
              rw [hfull] at hroom
              cases hroom
          | waits g' is _ hsame hstill hg' hturns =>
              rw [hturns.of_over hover] at hg'
              exact ⟨hsame.trans h.controller, hstill, hg'⟩
      | wait d =>
          cases hrings : w.pt.rings (w.now + d) with
          | true =>
              rw [step_rings halive hrings]
              exact ⟨h.controller, h.sending, h.cluster⟩
          | false =>
              rw [step_quiet halive hrings]
              exact ⟨h.controller, h.sending, h.cluster⟩

theorem Stuck.run (hfull : g.full = true) (hover : g.stage.isOver = true)
    (more : List WatchedStep) : ∀ w : Watched, w.Kept →
      w.Stuck c id rss g → (w.run k more).Stuck c id rss g := by
  induction more with
  | nil => intro w _ h; exact h
  | cons i more ih =>
      intro w hw h
      exact ih _ (hw.step i) (h.step hw hfull hover i)

/-- A process that is not gone waits in all the time that passes. -/
theorem Stuck.along (hfull : g.full = true) (hover : g.stage.isOver = true)
    (more : List WatchedStep) : ∀ w : Watched, w.Kept →
      w.Stuck c id rss g → (w.run k more).sys.crashed = false →
      Along (Watched.step k) (fun w _ => w.sys.WaitsOn id rss g.eventCh) w
        more := by
  induction more with
  | nil => intro w _ _ _; trivial
  | cons i more ih =>
      intro w hw h halive
      refine ⟨⟨?_, h.sending, g, h.cluster, rfl⟩,
        ih _ (hw.step i) (h.step hw hfull hover i) halive⟩
      by_contra hgone
      rw [run_crashed (eq_true_of_ne_false hgone)] at halive
      exact hgone halive

end Watched

/-- The watchdog ends the process exactly if, for a minute, the controller
waits to send one event to one Cluster, and the Cluster takes nothing off
its channel. -/
theorem watchdog_iff (k : Surroundings) (steps : List WatchedStep)
    (hprompt : Watched.Prompt k steps) :
    (Watched.start.run k steps).said = some panicText ↔
      ∃ before during after id rss ch, steps = before ++ during ++ after
        ∧ panicLimit ≤ elapsed during ∧ eventCap ≤ ch.length
        ∧ Along (Watched.step k) (fun w _ => w.sys.WaitsOn id rss ch)
          (Watched.start.run k before) during := by
  constructor
  · intro hsaid
    refine Watched.alarm_stretch hprompt ?_
    rw [hsaid]
    exact nofun
  · rintro ⟨before, during, after, id, rss, ch, rfl, hlong, -, hwaits⟩
    have hkept := Watched.kept k before
    have hsaid := hkept.alarm_of_waits hlong hwaits
    rw [Watched.run_append, Watched.run_append]
    rw [Watched.run_crashed ((hkept.run during).crashed_of_said hsaid)]
    exact hsaid

theorem Watched.along_acts (is : List SystemStep) : ∀ w : Watched,
    Along (Watched.step k) (fun w i => 0 < i.takes → w.sys.isHeldUp = true)
      w (is.map .act) := by
  induction is with
  | nil => intro w; trivial
  | cons i is ih =>
      intro w
      exact ⟨fun hno => absurd hno (Nat.lt_irrefl 0), ih _⟩

/-- The setup fails, the report of it is lost, and the controller waits
with the hundred and first edit. -/
def editsAfterLoss : List WatchedStep :=
  (lostReport ++ (List.replicate 101 editSent).flatten).map .act

/-- It has waited for half a minute, and then for another. -/
theorem watchdog_iff_lost_report :
    let steps := editsAfterLoss ++ [.wait 30, .wait 30]
    (Watched.start.run .refusing steps).said = some panicText
      ∧ ∃ before during after id rss ch, steps = before ++ during ++ after
        ∧ panicLimit ≤ elapsed during ∧ eventCap ≤ ch.length
        ∧ Along (Watched.step .refusing)
          (fun w _ => w.sys.WaitsOn id rss ch)
          (Watched.start.run .refusing before) during := by
  intro steps
  have hsaid : (Watched.start.run .refusing steps).said = some panicText :=
    by decide +kernel
  have hprompt : Watched.Prompt .refusing steps := by
    refine (along_append _ _ _).mpr ⟨Watched.along_acts _ _, ?_, ?_, trivial⟩
    · exact fun _ => by decide +kernel
    · exact fun _ => by decide +kernel
  exact ⟨hsaid, (watchdog_iff .refusing steps hprompt).mp hsaid⟩

/-- The controller that waits on a Cluster whose goroutine is gone handles
no other notification, whatever happens, and in a minute the process is
gone. -/
theorem blocked_ends (k₀ k : Surroundings) (steps more : List WatchedStep)
    (id : Nat) (rss : ReplicatedStatefulSet) (g : Goroutine)
    (hsending : (Watched.start.run k₀ steps).sys.sending = some (id, rss))
    (hg : (Watched.start.run k₀ steps).sys.clusters id = some g)
    (hfull : g.full = true) (hover : g.stage.isOver = true) :
    let w := Watched.start.run k₀ steps
    (w.run k more).sys.controller = w.sys.controller
      ∧ (w.run k more).sys.sending = some (id, rss)
      ∧ (panicLimit ≤ elapsed more →
        (w.run k more).sys.crashed = true) := by
  intro w
  have hkept : w.Kept := Watched.kept k₀ steps
  have hstuck : w.Stuck w.sys.controller id rss g := ⟨rfl, hsending, hg⟩
  obtain ⟨hcontroller, hstill, -⟩ :=
    @Watched.Stuck.run k id rss g _ hfull hover more w hkept hstuck
  refine ⟨hcontroller, hstill, fun hlong => ?_⟩
  by_contra halive
  have hwaits := hstuck.along hfull hover more w hkept
    (eq_false_of_ne_true halive)
  exact halive ((hkept.run more).crashed_of_said
    (hkept.alarm_of_waits hlong hwaits))

/-- A minute in which another resource is added. -/
def minuteWithAdd : List WatchedStep :=
  [.wait 30, .act (.notify (.about .add
    { ReplicatedStatefulSet.wellFormed .none with name := "web" })),
    .wait 30]

/-- The operator is gone a minute behind the hundred and first edit, and the
resource that is added in the meantime is not handled. -/
theorem blocked_ends_lost_report :
    let w := Watched.start.run .refusing editsAfterLoss
    w.sys.crashed = false
      ∧ (w.run .refusing minuteWithAdd).sys.controller = w.sys.controller
      ∧ (w.run .refusing minuteWithAdd).sys.crashed = true := by
  have hsome : (Watched.start.run .refusing
      editsAfterLoss).sys.sending.map Prod.fst = some 0 := by decide +kernel
  have hcluster : ((Watched.start.run .refusing
      editsAfterLoss).sys.clusters 0).map
      (fun g => (g.full, g.stage.isOver)) = some (true, true) := by
    decide +kernel
  obtain ⟨⟨id, rss⟩, hsending, hid⟩ := Option.map_eq_some_iff.mp hsome
  obtain ⟨g, hg, hflags⟩ := Option.map_eq_some_iff.mp hcluster
  dsimp only at hid
  subst hid
  have hends := blocked_ends .refusing .refusing editsAfterLoss
    minuteWithAdd 0 rss g hsending hg (congrArg Prod.fst hflags)
    (congrArg Prod.snd hflags)
  exact ⟨by decide +kernel, hends.1, hends.2.2 (by decide)⟩

end RssOperator
