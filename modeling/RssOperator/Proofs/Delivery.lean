/-
What reaches a Cluster, in every interleaving.

# One goroutine at a time

`System.lean` interleaves the controller, the channels and the goroutines
of all Clusters. Seen from one of them there is nothing of that: its world
is the one that its own goroutine makes, one part after the other, from
the resource the controller created it with and the resources the
controller has sent since (`delivered_in_order`). So what is proved of a
loop by itself (`World.run`) is true of each loop of the operator, whatever
the others do.

# What is handed over

A resource is on its way from the call of the controller on: in the
controller's hand while the channel is full, on the channel, and in the
hand of the goroutine. None is lost, none is taken twice, none overtakes
another. In particular the second case of the `select` in `send` is never
taken: as long as the controller waits there it closes no channel, and it
does not send to a Cluster it has stopped.

# At rest

If nothing is on its way to a Cluster, its spec is that of the last
resource the controller handed over (`settled_spec`).
-/
import RssOperator.Lib.Trail
import RssOperator.Proofs.Blocking
import RssOperator.Proofs.Scaling

namespace RssOperator

variable {k : Surroundings} {s s' : System} {n : Notice} {id : Nat}
  {env : Env} {kube : Kube} {stopped : Bool} {g g' : Goroutine} {t : Turn}
  {i : SystemStep}

-- ======================================================= on its way

/-- The resources a step of the loop takes in. -/
def WorldStep.resources : WorldStep → List ReplicatedStatefulSet
  | .timer .. => []
  | .event rss | .restart rss => [rss]

def ClusterCall.resources (id : Nat) :
    ClusterCall → List ReplicatedStatefulSet
  | .new id' rss | .update id' rss => if id' = id then [rss] else []
  | .delete _ => []

/-- The resource the goroutine works on. -/
def Stage.inHand : Stage → List ReplicatedStatefulSet
  | .starting rss | .handling rss => [rss]
  | .waiting | .looping | .exited => []

def Goroutine.held (g : Goroutine) : List ReplicatedStatefulSet :=
  g.stage.inHand ++ g.eventCh

namespace System

/-- The resource the controller waits with. -/
def sendingTo (id : Nat) (s : System) : List ReplicatedStatefulSet :=
  match s.sending with
  | some (id', rss) => if id' = id then [rss] else []
  | none => []

/-- What the controller hands over to a Cluster in a step. -/
def hands (id : Nat) (s : System) : SystemStep → List ReplicatedStatefulSet
  | .notify n =>
      if s.crashed = true ∨ s.sending.isSome = true then []
      else
        match n.handle s.controller with
        | .ok r => r.call.elim [] (ClusterCall.resources id)
        | .error _ => []
  | .send | .giveUp | .turn .. => []

end System

-- =========================================================== what is done

/-- The part of the loop that a turn is. -/
def Goroutine.performs (g : Goroutine) : Turn → List WorldStep
  | .start =>
      match g.stage with
      | .starting rss => [.restart rss]
      | _ => []
  | .handle =>
      match g.stage with
      | .handling rss => [.event rss]
      | _ => []
  | .timer fuel poll =>
      match g.stage with
      | .waiting => [.timer fuel poll]
      | _ => []
  | .take | .stop => []

namespace System

/-- The part of the loop of a Cluster that a step is. A pass that panics
is none: the process is gone. -/
def performs (k : Surroundings) (id : Nat) (s : System) :
    SystemStep → List WorldStep
  | .turn id' t =>
      if s.crashed = true ∨ id' ≠ id then []
      else
        (s.clusters id).elim [] fun g =>
          if (g.turn (k.env id) (k.kube id) (s.isStopped id) t).isSome then
            g.performs t
          else []
  | .notify _ | .send | .giveUp => []

end System

-- ============================================================ one turn

def WorldStep.isRestart : WorldStep → Bool
  | .restart _ => true
  | .timer .. | .event _ => false

def Stage.isStarting : Stage → Bool
  | .starting _ => true
  | .waiting | .handling _ | .looping | .exited => false

/-- A cluster is set up once, and before anything else is done. The flags
say whether it is still to be done, before and after. -/
inductive SetsUp : Bool → List WorldStep → Bool → Prop
  | before : SetsUp true [] true
  | now (rss : ReplicatedStatefulSet) (is : List WorldStep)
      (his : ∀ i ∈ is, i.isRestart = false) :
      SetsUp true (.restart rss :: is) false
  | after (is : List WorldStep) (his : ∀ i ∈ is, i.isRestart = false) :
      SetsUp false is false

theorem SetsUp.nothing (new : Bool) : SetsUp new [] new := by
  cases new with
  | true => exact .before
  | false => exact .after [] (by simp)

theorem SetsUp.trans {a b c : Bool} {is is' : List WorldStep}
    (h : SetsUp a is b) (h' : SetsUp b is' c) : SetsUp a (is ++ is') c := by
  have hboth : ∀ {l l' : List WorldStep}, (∀ i ∈ l, i.isRestart = false) →
      (∀ i ∈ l', i.isRestart = false) →
      ∀ i ∈ l ++ l', i.isRestart = false :=
    fun hl hl' i hi => (List.mem_append.mp hi).elim (hl i) (hl' i)
  cases h with
  | before => exact h'
  | now rss is his =>
      cases h' with
      | after is' his' => exact .now rss _ (hboth his his')
  | after is his =>
      cases h' with
      | after is' his' => exact .after _ (hboth his his')

/-- At the `select`, or busy with an event. -/
def Stage.serves : Stage → Bool
  | .waiting | .handling _ => true
  | .starting _ | .looping | .exited => false

/-- A goroutine that takes events has not returned. -/
def Goroutine.Live (g : Goroutine) : Prop :=
  g.stage.serves = true → g.world.alive = true

theorem Goroutine.live_left (g : Goroutine) (w : World) :
    (g.left w).Live := by
  unfold Live left
  cases w.alive with
  | true => exact fun _ => rfl
  | false => exact nofun

theorem Goroutine.isStarting_left (g : Goroutine) (w : World) :
    (g.left w).stage.isStarting = false := by
  unfold left
  cases w.alive with
  | true => rfl
  | false => rfl

theorem Goroutine.held_left (g : Goroutine) (w : World) :
    (g.left w).held = g.eventCh := by
  unfold held left
  cases w.alive with
  | true => rfl
  | false => rfl

/-- What a turn can be, with the part of the loop that it is. -/
inductive Goroutine.Turns (env : Env) (kube : Kube) (g : Goroutine) :
    List WorldStep → Goroutine → Prop
  | idle : Turns env kube g [] g
  | started (rss : ReplicatedStatefulSet) (hstage : g.stage = .starting rss) :
      Turns env kube g [.restart rss] (g.left (launch env kube rss g.world))
  | took (rss : ReplicatedStatefulSet) (rest : List ReplicatedStatefulSet)
      (hstage : g.stage = .waiting) (hch : g.eventCh = rss :: rest) :
      Turns env kube g [] { g with stage := .handling rss, eventCh := rest }
  | handled (rss : ReplicatedStatefulSet)
      (hstage : g.stage = .handling rss) :
      Turns env kube g [.event rss]
        (g.left (eventBranch env kube rss g.world))
  | ticked (fuel : Nat) (poll : Poll) (hstage : g.stage = .waiting)
      (hret : (timerBranch env fuel poll g.world).alive = true) :
      Turns env kube g [.timer fuel poll]
        { g with
          world := timerBranch env fuel poll g.world
          stage := .waiting }
  | hung (fuel : Nat) (poll : Poll) (hstage : g.stage = .waiting) :
      Turns env kube g [.timer fuel poll]
        { g with
          world := timerBranch env fuel poll g.world
          stage := .looping }
  | stopped (hstage : g.stage = .waiting) :
      Turns env kube g [] { g with stage := .exited }

theorem Goroutine.turn_cases (h : g.turn env kube stopped t = some g') :
    g.Turns env kube (g.performs t) g' := by
  cases t with
  | start =>
      cases hstage : g.stage with
      | starting rss =>
          simp only [turn, hstage, Option.some.injEq] at h
          simp only [performs, hstage, ← h]
          exact .started rss hstage
      | waiting | handling | looping | exited =>
          simp only [turn, hstage, Option.some.injEq] at h
          simp only [performs, hstage, ← h]
          exact .idle
  | take =>
      cases hstage : g.stage with
      | waiting =>
          cases hch : g.eventCh with
          | nil =>
              simp only [turn, hstage, hch, Option.some.injEq] at h
              rw [← h]
              exact .idle
          | cons rss rest =>
              simp only [turn, hstage, hch, Option.some.injEq] at h
              rw [← h]
              exact .took rss rest hstage hch
      | starting | handling | looping | exited =>
          simp only [turn, hstage, Option.some.injEq] at h
          rw [← h]
          exact .idle
  | handle =>
      cases hstage : g.stage with
      | handling rss =>
          simp only [turn, hstage, Option.some.injEq] at h
          simp only [performs, hstage, ← h]
          exact .handled rss hstage
      | starting | waiting | looping | exited =>
          simp only [turn, hstage, Option.some.injEq] at h
          simp only [performs, hstage, ← h]
          exact .idle
  | timer fuel poll =>
      cases hstage : g.stage with
      | waiting =>
          simp only [performs, hstage]
          cases htick : tick env fuel poll g.world.sys with
          | ret errors s =>
              simp only [turn, hstage, htick, Option.some.injEq] at h
              rw [← h]
              refine .ticked fuel poll hstage ?_
              rw [timerBranch, htick]
              rfl
          | panicked s =>
              simp only [turn, hstage, htick] at h
              cases h
          | looping s =>
              simp only [turn, hstage, htick, Option.some.injEq] at h
              rw [← h]
              exact .hung fuel poll hstage
      | starting | handling | looping | exited =>
          simp only [turn, hstage, Option.some.injEq] at h
          simp only [performs, hstage, ← h]
          exact .idle
  | stop =>
      cases hstage : g.stage with
      | waiting =>
          simp only [turn, hstage, Option.some.injEq] at h
          rw [← h]
          split
          · exact .stopped hstage
          · exact .idle
      | starting | handling | looping | exited =>
          simp only [turn, hstage, Option.some.injEq] at h
          rw [← h]
          exact .idle

namespace Goroutine.Turns

variable {is : List WorldStep}

theorem live (h : g.Turns env kube is g') (hg : g.Live) : g'.Live := by
  cases h with
  | idle => exact hg
  | started => exact live_left _ _
  | took rss rest hstage => exact fun _ => hg (by rw [hstage]; rfl)
  | handled => exact live_left _ _
  | ticked fuel poll hstage hret => exact fun _ => hret
  | hung => exact nofun
  | stopped => exact nofun

/-- The world goes on as that of a loop by itself. -/
theorem world (h : g.Turns env kube is g') (hg : g.Live) :
    g'.world = is.foldl (WorldStep.step env kube) g.world := by
  cases h with
  | idle | started | took | stopped => rfl
  | handled rss hstage =>
      have halive : g.world.alive = true := hg (by rw [hstage]; rfl)
      exact (if_pos halive).symm
  | ticked fuel poll hstage | hung fuel poll hstage =>
      have halive : g.world.alive = true := hg (by rw [hstage]; rfl)
      exact (if_pos halive).symm

/-- What has been taken in is off the channel. -/
theorem held (h : g.Turns env kube is g') :
    g.held = is.flatMap WorldStep.resources ++ g'.held := by
  cases h with
  | idle => rfl
  | started rss hstage | handled rss hstage =>
      rw [held_left, Goroutine.held, hstage]
      rfl
  | took rss rest hstage hch =>
      rw [Goroutine.held, hstage, hch]
      rfl
  | ticked fuel poll hstage | hung fuel poll hstage | stopped hstage =>
      rw [Goroutine.held, hstage]
      rfl

theorem setsUp (h : g.Turns env kube is g') :
    SetsUp g.stage.isStarting is g'.stage.isStarting := by
  cases h with
  | idle => exact .nothing _
  | started rss hstage =>
      rw [hstage, isStarting_left]
      exact .now rss [] (by simp)
  | handled rss hstage =>
      rw [hstage, isStarting_left]
      exact .after _ (List.forall_mem_singleton.mpr rfl)
  | took rss rest hstage | stopped hstage =>
      rw [hstage]
      exact .after _ (by simp)
  | ticked fuel poll hstage | hung fuel poll hstage =>
      rw [hstage]
      exact .after _ (List.forall_mem_singleton.mpr rfl)

end Goroutine.Turns

-- ==================================================== seen from a Cluster

/-- A Cluster, if it is there, and what the controller waits to send to
it. -/
structure View where
  goroutine : Option Goroutine
  sending : List ReplicatedStatefulSet

def System.view (id : Nat) (s : System) : View :=
  ⟨s.clusters id, s.sendingTo id⟩

namespace View

/-- What is on its way to the Cluster, oldest first. -/
def held (v : View) : List ReplicatedStatefulSet :=
  v.goroutine.elim [] Goroutine.held ++ v.sending

/-- The world of the Cluster; `w` before it is created. -/
def world (w : World) (v : View) : World :=
  v.goroutine.elim w Goroutine.world

def Live (v : View) : Prop := ∀ g, v.goroutine = some g → g.Live

/-- The goroutine has not set the cluster up yet. -/
def isNew (v : View) : Bool :=
  v.goroutine.elim true fun g => g.stage.isStarting

/-- What a step can be for a Cluster, with what the controller hands over
and the part of its loop that it is. -/
inductive Step (env : Env) (kube : Kube) (w : World) :
    View → List ReplicatedStatefulSet → List WorldStep → View → Prop
  | idle (v : View) : Step env kube w v [] [] v
  | created (rss : ReplicatedStatefulSet) :
      Step env kube w ⟨none, []⟩ [rss] [] ⟨some ⟨w, .starting rss, []⟩, []⟩
  | called (g : Option Goroutine) (rss : ReplicatedStatefulSet) :
      Step env kube w ⟨g, []⟩ [rss] [] ⟨g, [rss]⟩
  | sent (g : Goroutine) (rss : ReplicatedStatefulSet) :
      Step env kube w ⟨some g, [rss]⟩ [] []
        ⟨some { g with eventCh := g.eventCh ++ [rss] }, []⟩
  | turned (g g' : Goroutine) (is : List WorldStep)
      (sending : List ReplicatedStatefulSet)
      (hturns : g.Turns env kube is g') :
      Step env kube w ⟨some g, sending⟩ [] is ⟨some g', sending⟩

variable {v v' : View} {w : World} {taken : List ReplicatedStatefulSet}
  {is : List WorldStep}

theorem Step.live (h : Step env kube w v taken is v') (hv : v.Live) :
    v'.Live := by
  cases h with
  | idle => exact hv
  | called => exact hv
  | created rss =>
      intro g hg
      cases hg
      exact nofun
  | sent g rss =>
      intro g' hg
      cases hg
      exact hv g rfl
  | turned g g' is sending hturns =>
      intro g₁ hg
      cases hg
      exact hturns.live (hv g rfl)

theorem Step.world (h : Step env kube w v taken is v') (hv : v.Live) :
    v'.world w = is.foldl (WorldStep.step env kube) (v.world w) := by
  cases h with
  | idle | created | called | sent => rfl
  | turned g g' is sending hturns => exact hturns.world (hv g rfl)

/-- What comes in is what goes out, and what is still on its way. -/
theorem Step.books (h : Step env kube w v taken is v') :
    v.held ++ taken = is.flatMap WorldStep.resources ++ v'.held := by
  cases h with
  | idle => exact List.append_nil _
  | created => rfl
  | called g rss => exact List.append_assoc _ _ _
  | sent g rss =>
      show (g.stage.inHand ++ g.eventCh ++ [rss]) ++ []
        = (g.stage.inHand ++ (g.eventCh ++ [rss])) ++ []
      rw [List.append_assoc g.stage.inHand]
  | turned g g' is sending hturns =>
      show (g.held ++ sending) ++ [] = _ ++ (g'.held ++ sending)
      rw [hturns.held, List.append_nil, List.append_assoc]

theorem Step.setsUp (h : Step env kube w v taken is v') :
    SetsUp v.isNew is v'.isNew := by
  cases h with
  | idle | called | sent | created => exact .nothing _
  | turned g g' is sending hturns => exact hturns.setsUp

end View

-- ========================================================== the invariant

/-- What holds along a run. -/
structure System.Orderly (s : System) : Prop extends s.Consistent where
  fresh : ∀ id, s.controller.created ≤ id → s.clusters id = none
  /-- The controller does not wait on a Cluster it has stopped. -/
  unstopped : ∀ id rss, s.sending = some (id, rss) → s.isStopped id = false

namespace System

theorem orderly_start : System.start.Orderly where
  toConsistent := consistent_start
  fresh _ _ := rfl
  unstopped _ _ h := by cases h

theorem sendingTo_none (h : s.sending = none) : s.sendingTo id = [] := by
  rw [sendingTo, h]

theorem sendingTo_controller (c : Controller) :
    sendingTo id { s with controller := c } = s.sendingTo id := rfl

theorem view_setCluster (id' : Nat) (g : Goroutine) :
    (s.setCluster id' g).view id
      = if id = id' then ⟨some g, s.sendingTo id⟩ else s.view id := by
  unfold view
  rw [lookup_setCluster]
  split <;> rfl

theorem Orderly.setCluster (hs : s.Orderly) (hg : s.clusters id = some g)
    (g' : Goroutine) : (s.setCluster id g').Orderly where
  toConsistent := hs.toConsistent.setCluster id g'
  fresh id' hid := by
    rw [lookup_setCluster]
    split
    · next heq =>
      subst heq
      rw [hs.fresh id' hid] at hg
      cases hg
    · exact hs.fresh id' hid
  unstopped := hs.unstopped

theorem Orderly.updated (hs : s.Orderly) : s.updated.Orderly where
  toConsistent := hs.toConsistent.updated
  fresh := hs.fresh
  unstopped _ _ h := by cases h

theorem Orderly.crash (hs : s.Orderly) : Orderly { s with crashed := true } :=
  ⟨⟨hs.registered, hs.created⟩, hs.fresh, hs.unstopped⟩

-- ======================================================= a notification

/-- A notification is not taken, ends the process, or is handled. -/
theorem notify_cases (k : Surroundings) (n : Notice)
    (hcrashed : s.crashed = false) :
    (s.notify k n = s ∨ s.notify k n = { s with crashed := true })
        ∧ (∀ id, s.hands id (.notify n) = [])
      ∨ ∃ err call next, s.sending = none ∧ s.controller.Step n call next
        ∧ (∀ id, s.hands id (.notify n)
            = call.elim [] (ClusterCall.resources id))
        ∧ s.notify k n = s.handled k ⟨err, call, next⟩ := by
  unfold System.notify hands
  dsimp only
  rw [hcrashed]
  cases hsending : s.sending with
  | some sending => exact Or.inl ⟨Or.inl rfl, fun _ => rfl⟩
  | none =>
      cases hr : n.handle s.controller with
      | error fault => exact Or.inl ⟨Or.inr rfl, fun _ => rfl⟩
      | ok r =>
          exact Or.inr ⟨r.err, r.call, r.next, rfl, handle_step hr,
            fun _ => rfl, rfl⟩

theorem Orderly.notify (hs : s.Orderly) (hcrashed : s.crashed = false)
    (n : Notice) : (s.notify k n).Orderly := by
  have hkept := @Consistent.notify k s hs.toConsistent n
  rcases notify_cases k n hcrashed with
    ⟨hsame | hsame, -⟩ | ⟨err, call, next, hfree, hstep, -, heq⟩
  · rw [hsame]
    exact hs
  · rw [hsame]
    exact hs.crash
  · rw [heq] at hkept ⊢
    have hnobody : ∀ id rss, s.sending = some (id, rss) →
        decide (id ∈ next.stopped) = false := by
      intro id rss h
      rw [hfree] at h
      cases h
    cases hstep with
    | quiet | ignored | dropped | delete =>
        exact ⟨hkept, hs.fresh, hnobody⟩
    | new rss habsent =>
        refine ⟨hkept, fun id hid => ?_, hnobody⟩
        have hlt : s.controller.created < id := hid
        refine (lookup_setCluster _ _ _ _).trans ?_
        rw [if_neg (by omega)]
        exact hs.fresh id (Nat.le_of_lt hlt)
    | update clus id hsyncs hphase hvalid hentry =>
        refine ⟨hkept, hs.fresh, fun id' rss h => ?_⟩
        cases h
        exact decide_eq_false (hs.registered.running _ id hentry)

theorem notify_seen (hs : s.Orderly) (hcrashed : s.crashed = false) :
    View.Step (k.env id) (k.kube id) (k.world id) (s.view id)
      (s.hands id (.notify n)) [] ((s.notify k n).view id) := by
  rcases notify_cases k n hcrashed with
    ⟨hsame | hsame, hhands⟩ | ⟨err, call, next, hfree, hstep, hhands, heq⟩
  · rw [hsame, hhands]
    exact .idle _
  · rw [hsame, hhands]
    exact .idle _
  · rw [heq, hhands]
    have hnone := @sendingTo_none s id hfree
    cases hstep with
    | quiet | ignored | dropped | delete => exact .idle _
    | new rss habsent =>
        show View.Step _ _ _ _
          (if s.controller.created = id then [rss] else []) []
          (System.view id (System.setCluster _ _ _))
        rw [view_setCluster]
        by_cases hid : s.controller.created = id
        · subst hid
          have hview : s.view s.controller.created = ⟨none, []⟩ := by
            rw [view, hnone, hs.fresh _ (Nat.le_refl _)]
          rw [if_pos rfl, if_pos rfl, hview, sendingTo_controller, hnone]
          exact .created rss
        · rw [if_neg hid, if_neg fun h => hid h.symm]
          exact .idle _
    | update clus id' hsyncs hphase hvalid hentry =>
        show View.Step _ _ _ ⟨_, s.sendingTo id⟩
          (if id' = id then [clus.cleaned] else []) []
          ⟨s.clusters id, if id' = id then [clus.cleaned] else []⟩
        rw [hnone]
        split
        · exact .called _ _
        · exact .idle _

-- ================================================= the other three steps

theorem send_cases :
    s.send = s
      ∨ ∃ id rss g, s.sending = some (id, rss) ∧ s.clusters id = some g
        ∧ g.full = false ∧ s.send = (s.setCluster id
            { g with eventCh := g.eventCh ++ [rss] }).updated := by
  unfold send
  cases hsending : s.sending with
  | none => exact Or.inl rfl
  | some sending =>
      obtain ⟨id, rss⟩ := sending
      dsimp only
      cases hg : s.clusters id with
      | none => exact Or.inl rfl
      | some g =>
          dsimp only
          split
          · exact Or.inl rfl
          · next hroom =>
            exact Or.inr ⟨id, rss, g, rfl, hg, eq_false_of_ne_true hroom,
              rfl⟩

theorem send_seen (w : World) :
    View.Step env kube w (s.view id) [] [] (s.send.view id) := by
  rcases @send_cases s with hsame | ⟨id', rss, g, hsending, hg, -, heq⟩
  · rw [hsame]
    exact .idle _
  · rw [heq, view, sendingTo, hsending]
    show View.Step _ _ _ ⟨_, if id' = id then [rss] else []⟩ _ _
      ⟨(s.setCluster id' _).clusters id, []⟩
    rw [lookup_setCluster]
    by_cases hid : id = id'
    · subst hid
      rw [if_pos rfl, if_pos rfl, hg]
      exact .sent g rss
    · rw [if_neg hid, if_neg fun h => hid h.symm]
      exact .idle _

/-- The second case of the `select` is never taken. -/
theorem giveUp_eq (hs : s.Orderly) : s.giveUp = s := by
  unfold giveUp
  cases hsending : s.sending with
  | none => rfl
  | some sending =>
      obtain ⟨id, rss⟩ := sending
      dsimp only
      rw [hs.unstopped id rss hsending]
      rfl

theorem performs_turn (hcrashed : s.crashed = false) (id id' : Nat) :
    s.performs k id' (.turn id t)
      = if id' = id then
          (s.clusters id).elim [] fun g =>
            if (g.turn (k.env id) (k.kube id) (s.isStopped id) t).isSome then
              g.performs t
            else []
        else [] := by
  unfold performs
  dsimp only
  rw [hcrashed]
  by_cases hid : id' = id
  · subst hid
    rw [if_neg (by simp), if_pos rfl]
  · rw [if_pos (Or.inr fun h => hid h.symm), if_neg hid]

/-- A turn changes nothing, ends the process, or is one of its
goroutine. -/
theorem turn_cases (k : Surroundings) (id : Nat) (t : Turn)
    (hcrashed : s.crashed = false) :
    (s.turn k id t = s ∨ s.turn k id t = { s with crashed := true })
        ∧ (∀ id', s.performs k id' (.turn id t) = [])
      ∨ ∃ g g' is, s.clusters id = some g
        ∧ g.Turns (k.env id) (k.kube id) is g'
        ∧ (∀ id', s.performs k id' (.turn id t)
            = if id' = id then is else [])
        ∧ s.turn k id t = s.setCluster id g' := by
  have hperforms := fun id' => @performs_turn k s t hcrashed id id'
  unfold System.turn
  cases hg : s.clusters id with
  | none =>
      refine Or.inl ⟨Or.inl rfl, fun id' => ?_⟩
      rw [hperforms, hg]
      exact ite_self _
  | some g =>
      dsimp only
      rw [hg] at hperforms
      simp only [Option.elim_some] at hperforms
      cases hturn : g.turn (k.env id) (k.kube id) (s.isStopped id) t with
      | none =>
          refine Or.inl ⟨Or.inr rfl, fun id' => ?_⟩
          rw [hperforms, hturn]
          exact ite_self _
      | some g' =>
          refine Or.inr ⟨g, g', g.performs t, rfl,
            Goroutine.turn_cases hturn, fun id' => ?_, rfl⟩
          rw [hperforms, hturn]
          rfl

theorem turn_seen (hcrashed : s.crashed = false) (id' : Nat) (w : World) :
    View.Step (k.env id) (k.kube id) w (s.view id) []
      (s.performs k id (.turn id' t)) ((s.turn k id' t).view id) := by
  rcases turn_cases k id' t hcrashed with
    ⟨hsame | hsame, hnone⟩ | ⟨g, g', is, hg, hturns, his, heq⟩
  · rw [hsame, hnone]
    exact .idle _
  · rw [hsame, hnone]
    exact .idle _
  · rw [heq, his, view_setCluster]
    split
    · next hid =>
      subst hid
      rw [view, hg]
      exact .turned g g' is _ hturns
    · exact .idle _

-- ================================================================ a step

theorem Orderly.step (hs : s.Orderly) (i : SystemStep) :
    (s.step k i).Orderly := by
  unfold System.step
  cases hcrashed : s.crashed with
  | true => exact hs
  | false =>
      cases i with
      | notify n => exact hs.notify hcrashed n
      | send =>
          show s.send.Orderly
          rcases @send_cases s with hsame | ⟨id, rss, g, -, hg, -, heq⟩
          · rw [hsame]
            exact hs
          · rw [heq]
            exact (hs.setCluster hg _).updated
      | giveUp =>
          show s.giveUp.Orderly
          rw [giveUp_eq hs]
          exact hs
      | turn id t =>
          show (s.turn k id t).Orderly
          rcases turn_cases k id t hcrashed with
            ⟨hsame | hsame, -⟩ | ⟨g, g', is, hg, -, -, heq⟩
          · rw [hsame]
            exact hs
          · rw [hsame]
            exact hs.crash
          · rw [heq]
            exact hs.setCluster hg g'

/-- Every step is one of those a Cluster sees. -/
theorem step_seen (hs : s.Orderly) (i : SystemStep) :
    View.Step (k.env id) (k.kube id) (k.world id) (s.view id)
      (s.hands id i) (s.performs k id i) ((s.step k i).view id) := by
  unfold System.step
  cases hcrashed : s.crashed with
  | true =>
      have hhands : s.hands id i = [] := by
        cases i with
        | notify n => exact if_pos (Or.inl hcrashed)
        | send | giveUp | turn => rfl
      have hperforms : s.performs k id i = [] := by
        cases i with
        | notify | send | giveUp => rfl
        | turn id' t => exact if_pos (Or.inl hcrashed)
      rw [hhands, hperforms]
      exact .idle _
  | false =>
      cases i with
      | notify n => exact notify_seen hs hcrashed
      | send => exact send_seen _
      | giveUp =>
          show View.Step _ _ _ _ [] [] (s.giveUp.view id)
          rw [giveUp_eq hs]
          exact .idle _
      | turn id' t => exact turn_seen hcrashed id' _

-- ================================================================== a run

/-- The resources the controller hands over to a Cluster in a run. -/
def handed (k : Surroundings) (id : Nat) (steps : List SystemStep) :
    List ReplicatedStatefulSet :=
  trail (System.step k) (System.hands id) System.start steps

/-- The parts of the loop of a Cluster that a run is made of. -/
def performed (k : Surroundings) (id : Nat) (steps : List SystemStep) :
    List WorldStep :=
  trail (System.step k) (System.performs k id) System.start steps

/-- What holds along a run, for one Cluster. -/
def Ordered (id : Nat) (s : System) : Prop := s.Orderly ∧ (s.view id).Live

theorem ordered_start : Ordered id System.start :=
  ⟨orderly_start, fun _ hg => by cases hg⟩

theorem ordered_step (k : Surroundings) (id : Nat) (s : System)
    (i : SystemStep) (hs : Ordered id s) : Ordered id (s.step k i) :=
  ⟨hs.1.step i, (step_seen hs.1 i).live hs.2⟩

theorem run_ordered (k : Surroundings) (id : Nat)
    (steps : List SystemStep) : Ordered id (System.start.run k steps) :=
  List.foldlRecOn steps (System.step k) ordered_start
    fun s hs i _ => ordered_step k id s i hs

theorem run_world (k : Surroundings) (id : Nat) (steps : List SystemStep) :
    ((System.start.run k steps).view id).world (k.world id)
      = (k.world id).run (k.env id) (k.kube id) (performed k id steps) :=
  trail_refines (ordered_step k id) (fun s => (s.view id).world (k.world id))
    (fun _ i hs => (step_seen hs.1 i).world hs.2) steps System.start
    ordered_start

theorem run_books (k : Surroundings) (id : Nat) (steps : List SystemStep) :
    handed k id steps
      = (performed k id steps).flatMap WorldStep.resources
        ++ ((System.start.run k steps).view id).held := by
  rw [performed, trail_flatMap]
  exact trail_books (ordered_step k id) (fun s => (s.view id).held)
    (fun _ i hs => (step_seen hs.1 i).books) steps System.start
    ordered_start

theorem run_setsUp (k : Surroundings) (id : Nat) (steps : List SystemStep) :
    SetsUp true (performed k id steps)
      ((System.start.run k steps).view id).isNew :=
  trail_leads (R := fun s is s' => SetsUp (s.view id).isNew is
      (s'.view id).isNew) (ordered_step k id)
    (fun _ => .nothing _) (fun _ _ _ _ _ h h' => h.trans h')
    (fun _ i hs => (step_seen hs.1 i).setsUp) steps System.start
    ordered_start

end System

/-- In every interleaving, the world of a Cluster is the one its own
goroutine makes by itself: it sets the cluster up once and first, and takes
in the resources the controller hands over, each once and in their order.
What it has not taken in is on its way. -/
theorem delivered_in_order (k : Surroundings) (steps : List SystemStep)
    (id : Nat) :
    let v := (System.start.run k steps).view id
    let done := System.performed k id steps
    v.world (k.world id) = (k.world id).run (k.env id) (k.kube id) done
      ∧ SetsUp true done v.isNew
      ∧ System.handed k id steps
        = done.flatMap WorldStep.resources ++ v.held :=
  ⟨System.run_world k id steps, System.run_setsUp k id steps,
    System.run_books k id steps⟩

-- ================================================================ at rest

section

variable {w : World} {is : List WorldStep} {rss : ReplicatedStatefulSet}

/-- A loop that has returned stays as it is. -/
theorem World.run_dead (his : ∀ i ∈ is, i.isRestart = false)
    (hdead : w.alive = false) : w.run env kube is = w := by
  induction is with
  | nil => rfl
  | cons i is ih =>
      obtain ⟨hi, his⟩ := List.forall_mem_cons.mp his
      have hstep : i.step env kube w = w := by
        cases i with
        | timer | event =>
            refine if_neg ?_
            rw [hdead]
            exact Bool.false_ne_true
        | restart => cases hi
      rw [World.run, List.foldl_cons, hstep]
      exact ih his

theorem eventBranch_adopts
    (h : (eventBranch env kube rss w).alive = true) :
    (eventBranch env kube rss w).sys.spec = rss.spec := by
  have hspec := handleUpdateEvent_spec env kube rss w
  unfold eventBranch at h ⊢
  cases hev : handleUpdateEvent env kube rss w with
  | mk err w₁ =>
      rw [hev] at h hspec
      cases err with
      | none => exact hspec.spec
      | some err => cases h

theorem World.alive_of_run (his : ∀ i ∈ is, i.isRestart = false)
    (halive : (w.run env kube is).alive = true) : w.alive = true := by
  rw [← Bool.not_eq_false]
  intro hdead
  rw [World.run_dead his hdead, hdead] at halive
  cases halive

/-- While it is not set up again, a loop that runs has the spec of the last
resource it has taken in. -/
theorem World.run_adopts (his : ∀ i ∈ is, i.isRestart = false)
    (hspec : w.sys.spec = rss.spec)
    (halive : (w.run env kube is).alive = true) :
    ∃ last, (rss :: is.flatMap WorldStep.resources).getLast? = some last
      ∧ (w.run env kube is).sys.spec = last.spec := by
  induction is generalizing w rss with
  | nil => exact ⟨rss, rfl, hspec⟩
  | cons i is ih =>
      have hw := World.alive_of_run his halive
      obtain ⟨hi, hrest⟩ := List.forall_mem_cons.mp his
      have hnext := World.alive_of_run (w := i.step env kube w) hrest halive
      cases i with
      | restart => cases hi
      | timer fuel poll =>
          refine ih hrest ?_ halive
          rw [show WorldStep.step env kube w (.timer fuel poll)
            = timerBranch env fuel poll w from if_pos hw]
          exact (tick_steady env fuel poll w.sys).1.trans hspec
      | event rss' =>
          have hstep : WorldStep.step env kube w (.event rss')
              = eventBranch env kube rss' w := if_pos hw
          rw [hstep] at hnext
          obtain ⟨last, hlast, heq⟩ := ih hrest
            (by rw [hstep]; exact eventBranch_adopts hnext) halive
          exact ⟨last, List.getLast?_cons_cons.trans hlast, heq⟩

theorem launch_running (h : (launch env kube rss w).alive = true) :
    (launch env kube rss w).sys.c.status.phase = .running := by
  unfold launch at h ⊢
  cases hsetup : setup env kube (w.handed rss) with
  | mk err w₁ =>
      rw [hsetup] at h
      cases err with
      | none =>
          exact (Steady.updateCRStatus env "initial"
            (w₁.sys.setPhase .running)).phase
      | some err => cases h

theorem everyStep_startsInStep (his : ∀ i ∈ is, i.isRestart = false) :
    ∀ w, EveryStep env kube World.startsInStep w is := by
  induction is with
  | nil => exact fun _ => trivial
  | cons i is ih =>
      obtain ⟨hi, hrest⟩ := List.forall_mem_cons.mp his
      intro w
      refine ⟨?_, ih hrest _⟩
      cases i with
      | timer | event => trivial
      | restart => cases hi

/-- A loop that has been set up once and runs: it has the spec of the last
resource it has taken in, and in phase `Running` the StatefulSet follows. -/
theorem World.run_settled (hsets : SetsUp true is false)
    (halive : (w.run env kube is).alive = true)
    (hstart : ∀ rss, (is.flatMap WorldStep.resources).head? = some rss →
      rss.status.phase = .running → w.sts = some rss.spec.getNumReplicas) :
    ∃ last, (is.flatMap WorldStep.resources).getLast? = some last
      ∧ (w.run env kube is).sys.spec = last.spec
      ∧ (w.run env kube is).InStep := by
  cases hsets with
  | now rss is his =>
      have hlaunched := World.alive_of_run
        (w := launch env kube rss w) his halive
      have hspec := launch_spec env kube rss w
      obtain ⟨hadopts, hsts⟩ := hspec.running (launch_running hlaunched)
      obtain ⟨last, hlast, heq⟩ := World.run_adopts his hadopts halive
      refine ⟨last, hlast, heq, EveryStep.invariant env kube
        (fun w i => WorldStep.step_inStep env kube) is _
        (everyStep_startsInStep his _) fun _ => ?_⟩
      show (launch env kube rss w).sts
        = some (launch env kube rss w).sys.spec.getNumReplicas
      rw [hadopts]
      rcases hsts with hmade | ⟨hphase, hsame⟩
      · exact hmade
      · rw [hsame]
        exact hstart rss rfl hphase

end

namespace System

variable {steps : List SystemStep}

/-- A goroutine that runs has set its cluster up. -/
theorem run_served (hg : (System.start.run k steps).clusters id = some g)
    (hserves : g.stage.serves = true) :
    g.world = (k.world id).run (k.env id) (k.kube id) (performed k id steps)
      ∧ g.world.alive = true
      ∧ SetsUp true (performed k id steps) false := by
  have hworld := run_world k id steps
  have hsets := run_setsUp k id steps
  have hlive := (run_ordered k id steps).2 g hg
  have hview : (System.start.run k steps).view id
      = ⟨some g, (System.start.run k steps).sendingTo id⟩ := by
    rw [view, hg]
  rw [hview] at hworld hsets
  have hnew : g.stage.isStarting = false := by
    cases hstage : g.stage with
    | starting =>
        rw [hstage] at hserves
        cases hserves
    | waiting | handling | looping | exited => rfl
  replace hsets : SetsUp true _ g.stage.isStarting := hsets
  rw [hnew] at hsets
  exact ⟨hworld, hlive hserves, hsets⟩

/-- A Cluster that runs, with nothing on its way to it. -/
theorem run_settled (hg : (System.start.run k steps).clusters id = some g)
    (hserves : g.stage.serves = true)
    (hheld : ((System.start.run k steps).view id).held = [])
    (hstart : ∀ rss, (handed k id steps).head? = some rss →
      rss.status.phase = .running →
        (k.world id).sts = some rss.spec.getNumReplicas) :
    ∃ last, (handed k id steps).getLast? = some last
      ∧ g.world.sys.spec = last.spec ∧ g.world.InStep := by
  obtain ⟨hworld, halive, hsets⟩ := run_served hg hserves
  have hbooks := run_books k id steps
  rw [hheld, List.append_nil] at hbooks
  rw [hworld] at halive ⊢
  rw [hbooks] at hstart ⊢
  exact World.run_settled hsets halive hstart

end System

/-- In every interleaving, while the goroutine of a Cluster runs and nothing
is on its way to it, its spec is that of the last resource the controller
handed over, and in phase `Running` the StatefulSet has its replica
count. A resource that was in phase `Running` when the Cluster was created
has to come with a StatefulSet that is in step with it. -/
theorem settled_spec (k : Surroundings) (steps : List SystemStep) (id : Nat)
    (g : Goroutine)
    (hg : (System.start.run k steps).clusters id = some g)
    (hserves : g.stage.serves = true)
    (hheld : ((System.start.run k steps).view id).held = [])
    (hstart : ∀ rss, (System.handed k id steps).head? = some rss →
      rss.status.phase = .running →
        (k.world id).sts = some rss.spec.getNumReplicas) :
    ∃ last, (System.handed k id steps).getLast? = some last
      ∧ g.world.sys.spec = last.spec
      ∧ (g.world.sys.c.status.phase = .running →
          g.world.sts = some last.spec.getNumReplicas) := by
  obtain ⟨last, hlast, hspec, hstep⟩ :=
    System.run_settled hg hserves hheld hstart
  refine ⟨last, hlast, hspec, fun hrun => ?_⟩
  rw [← hspec]
  exact hstep hrun

/-- A resource that is added and then edited, by way of a full round
through the channel. -/
theorem settled_spec_edited :
    let rss := ReplicatedStatefulSet.wellFormed .none
    let edited := { rss with spec := { rss.spec with replicas := some 5 } }
    let k : Surroundings :=
      ⟨fun _ => .deciding fun _ => true, fun _ => .obliging,
        fun _ => .fresh rss⟩
    let steps : List SystemStep :=
      [.notify ⟨.add, .rss rss, .stored String⟩, .turn 0 .start,
        .notify ⟨.update, .rss edited, .stored String⟩, .send,
        .turn 0 .take, .turn 0 .handle]
    ∃ g last, (System.start.run k steps).clusters 0 = some g
      ∧ (System.handed k 0 steps).getLast? = some last
      ∧ g.world.sys.spec = last.spec
      ∧ (g.world.sys.c.status.phase = .running →
          g.world.sts = some last.spec.getNumReplicas) := by
  intro rss edited k steps
  have hsome : ((System.start.run k steps).clusters 0).isSome = true := by
    decide +kernel
  have hhead : (System.handed k 0 steps).head?.any
      (fun rss => rss.status.phase = .none) = true := by decide +kernel
  obtain ⟨g, hg⟩ := Option.isSome_iff_exists.mp hsome
  have hserves : ((System.start.run k steps).clusters 0).any
      (fun g => g.stage.serves) = true := by decide +kernel
  have hheld : ((System.start.run k steps).view 0).held = [] := by
    decide +kernel
  rw [hg] at hserves
  obtain ⟨last, hlast⟩ := settled_spec k steps 0 g hg hserves hheld (by
    intro first hfirst hrun
    rw [hfirst, Option.any_some, hrun] at hhead
    cases hhead)
  exact ⟨g, last, hg, hlast⟩

end RssOperator
