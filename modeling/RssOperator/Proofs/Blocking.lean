/-
When the controller waits for a Cluster that nobody reads from.

# How it comes about

A goroutine that returns by itself leaves its Cluster in the map, with an
open `stopCh` and an `eventCh` that nobody empties any more. The failure it
reports keeps later notifications away from the Cluster, but only if the
report is stored: what the controller looks at is the status of the
resource it is notified of. If the report is lost, each notification is
sent on, and the hundred and first never returns (`lost_report_blocks`).

# When it does not

A state is blocked for one of two reasons, and each is a step taken in the
state before: a notification that is sent on to a Cluster whose goroutine
has returned and whose channel is full, or a goroutine that returns while
its channel is full and the controller waits on it. `never_blocked_iff`
says that there are no others.
-/
import RssOperator.System
import RssOperator.Proofs.Lifecycle

namespace RssOperator

variable {k : Surroundings} {s s' : System} {n : Notice} {id : Nat}
  {env : Env} {kube : Kube} {stopped : Bool} {g g' : Goroutine} {t : Turn}
  {r : EventResult}

-- ======================================================== the condition

/-- The controller waits for room on the channel of a Cluster whose
goroutine has returned and which is not stopped. -/
def System.Blocked (s : System) : Prop :=
  ∃ id rss g, s.sending = some (id, rss) ∧ s.clusters id = some g
    ∧ g.full = true ∧ g.stage.isExited = true ∧ s.isStopped id = false

/-- The turn does not end the goroutine by itself. -/
def Goroutine.Survives (env : Env) (kube : Kube) (g : Goroutine) :
    Turn → Prop
  | .start => ∀ rss, g.stage = .starting rss →
      (launch env kube rss g.world).alive = true
  | .handle => ∀ rss, g.stage = .handling rss →
      (eventBranch env kube rss g.world).alive = true
  | .take | .timer .. | .stop => True

/-- A notification for a Cluster that has returned and is full shows a
failure or a spec that is not valid, and no goroutine returns while its
channel is full and the controller waits on it. -/
def System.Minds (k : Surroundings) (s : System) : SystemStep → Prop
  | .notify n => s.crashed = false → s.sending = none →
      ∀ clus id g, n.syncs clus →
        s.controller.clusters.lookup clus.name = some id →
        s.clusters id = some g → g.full = true → g.stage.isExited = true →
          clus.status.phase = .failed ∨ ¬ clus.Valid
  | .turn id t => s.crashed = false →
      ∀ rss g, s.sending = some (id, rss) → s.clusters id = some g →
        g.full = true → s.isStopped id = false →
          g.Survives (k.env id) (k.kube id) t
  | .send | .giveUp => True

-- ============================================================ the turns

theorem Goroutine.isExited_left (w : World) :
    (g.left w).stage.isExited = !w.alive := by
  unfold left
  cases w.alive <;> rfl

/-- How a goroutine comes to have returned. -/
theorem Goroutine.turn_exited
    (h : g.turn env kube stopped t = some g')
    (hexited : g'.stage.isExited = true) :
    g' = g ∨ stopped = true
      ∨ ¬ g.Survives env kube t ∧ g'.eventCh = g.eventCh := by
  unfold turn at h
  split at h
  · split at h
    · next rss hstage =>
      cases h
      rw [isExited_left, Bool.not_eq_true'] at hexited
      right
      right
      refine ⟨?_, rfl⟩
      intro hsurvives
      rw [hsurvives rss hstage] at hexited
      cases hexited
    · cases h
      exact Or.inl rfl
  · split at h
    · cases h
      cases hexited
    · cases h
      exact Or.inl rfl
  · split at h
    · next rss hstage =>
      cases h
      rw [isExited_left, Bool.not_eq_true'] at hexited
      right
      right
      refine ⟨?_, rfl⟩
      intro hsurvives
      rw [hsurvives rss hstage] at hexited
      cases hexited
    · cases h
      exact Or.inl rfl
  · split at h
    · next hstage =>
      dsimp only at h
      split at h
      · cases h
        rw [hstage] at hexited
        cases hexited
      · cases h
      · cases h
        cases hexited
    · cases h
      exact Or.inl rfl
  · split at h
    · cases hs : stopped with
      | true => exact Or.inr (Or.inl rfl)
      | false =>
          rw [hs] at h
          cases h
          exact Or.inl rfl
    · cases h
      exact Or.inl rfl

/-- A turn that ends the goroutine. -/
theorem Goroutine.exited_of_not_survives
    (h : ¬ g.Survives env kube t) :
    ∃ g', g.turn env kube stopped t = some g'
      ∧ g'.stage.isExited = true ∧ g'.eventCh = g.eventCh := by
  have hleft : ∀ w : World, w.alive ≠ true →
      (g.left w).stage.isExited = true := by
    intro w hw
    rw [isExited_left, Bool.not_eq_true', ← Bool.not_eq_true]
    exact hw
  cases t with
  | start =>
      simp only [Survives, not_forall] at h
      obtain ⟨rss, hstage, hdead⟩ := h
      refine ⟨g.left (launch env kube rss g.world), ?_, hleft _ hdead, rfl⟩
      unfold turn
      rw [hstage]
  | handle =>
      simp only [Survives, not_forall] at h
      obtain ⟨rss, hstage, hdead⟩ := h
      refine ⟨g.left (eventBranch env kube rss g.world), ?_,
        hleft _ hdead, rfl⟩
      unfold turn
      rw [hstage]
  | take => exact absurd trivial h
  | timer => exact absurd trivial h
  | stop => exact absurd trivial h

-- =========================================================== the states

/-- What holds along a run: the map is as the controller keeps it, and
each Cluster in it has a goroutine. -/
structure System.Consistent (s : System) : Prop where
  registered : s.controller.Registered
  created : ∀ name id, s.controller.clusters.lookup name = some id →
    ∃ g, s.clusters id = some g

namespace System

theorem consistent_start : System.start.Consistent where
  registered := Controller.registered_new
  created _ _ h := by cases h

theorem lookup_setCluster (id id' : Nat) (g : Goroutine) (s : System) :
    (s.setCluster id g).clusters id'
      = if id' = id then some g else s.clusters id' :=
  Function.update_apply _ _ _ _

theorem Consistent.setCluster (hs : s.Consistent) (id : Nat)
    (g : Goroutine) : (s.setCluster id g).Consistent where
  registered := hs.registered
  created name id' h := by
    rw [lookup_setCluster]
    split
    · exact ⟨g, rfl⟩
    · exact hs.created name id' h

theorem Consistent.notify (hs : s.Consistent) (n : Notice) :
    (s.notify k n).Consistent := by
  unfold System.notify
  split
  · exact hs
  · split
    · exact ⟨hs.registered, hs.created⟩
    · next r hr =>
      have hstep := handle_step hr
      have hreg := hs.registered.step hstep
      obtain ⟨err, call, next⟩ := r
      dsimp only at hstep hreg ⊢
      cases hstep with
      | quiet => exact ⟨hreg, hs.created⟩
      | ignored => exact ⟨hreg, hs.created⟩
      | dropped clus _ =>
          refine ⟨hreg, ?_⟩
          intro name id h
          exact hs.created name id (Controller.lookup_of_erase h).2
      | new rss habsent =>
          refine ⟨hreg, ?_⟩
          intro name id h
          dsimp only [handled]
          rw [lookup_setCluster]
          split
          · exact ⟨_, rfl⟩
          · next hne =>
            rcases Controller.lookup_of_insert h with ⟨-, hid⟩ | ⟨-, h⟩
            · exact absurd hid hne
            · exact hs.created name id h
      | update => exact ⟨hs.registered, hs.created⟩
      | delete name id hentry =>
          refine ⟨hreg, ?_⟩
          intro name' id' h
          exact hs.created name' id' (Controller.lookup_of_erase h).2

theorem Consistent.updated (hs : s.Consistent) : s.updated.Consistent where
  registered := ⟨hs.registered.created, hs.registered.once,
    hs.registered.running, hs.registered.stopped⟩
  created := hs.created

theorem Consistent.step (hs : s.Consistent) (i : SystemStep) :
    (s.step k i).Consistent := by
  unfold System.step
  split
  · exact hs
  · split
    · exact hs.notify _
    · unfold System.send
      split
      · exact hs
      · split
        · exact hs
        · split
          · exact hs
          · exact (hs.setCluster _ _).updated
    · unfold System.giveUp
      split
      · exact hs
      · split
        · exact hs.updated
        · exact hs
    · unfold System.turn
      split
      · exact hs
      · split
        · exact ⟨hs.registered, hs.created⟩
        · exact hs.setCluster _ _

/-- The controller as it is when the handler it is in has returned. -/
def due (s : System) : Controller :=
  match s.sending with
  | none => s.controller
  | some _ => s.updated.controller

theorem due_of_sending_none (h : s.sending = none) :
    s.due = s.controller := by
  unfold due
  rw [h]

theorem due_of_sending {sending : Nat × ReplicatedStatefulSet}
    (h : s.sending = some sending) : s.due = s.updated.controller := by
  unfold due
  rw [h]

theorem due_handled (hsending : s.sending = none)
    (h : s.controller.Step n r.call r.next) :
    (s.handled k r).due = r.next := by
  obtain ⟨err, call, next⟩ := r
  dsimp only at h
  cases h with
  | quiet => exact due_of_sending_none hsending
  | ignored => exact due_of_sending_none hsending
  | dropped => exact due_of_sending_none hsending
  | new => exact due_of_sending_none hsending
  | update => rfl
  | delete => exact due_of_sending_none hsending

theorem due_send (s : System) : s.send.due = s.due := by
  unfold System.send
  cases hsending : s.sending with
  | none => rfl
  | some sending =>
      obtain ⟨id, rss⟩ := sending
      dsimp only
      cases s.clusters id with
      | none => rfl
      | some g =>
          dsimp only
          split
          · rfl
          · exact (due_of_sending hsending).symm

theorem due_giveUp (s : System) : s.giveUp.due = s.due := by
  unfold System.giveUp
  cases hsending : s.sending with
  | none => rfl
  | some sending =>
      obtain ⟨id, rss⟩ := sending
      dsimp only
      split
      · exact (due_of_sending hsending).symm
      · rfl

theorem due_turn (id : Nat) (t : Turn) (s : System) :
    (s.turn k id t).due = s.due := by
  unfold System.turn
  cases s.clusters id with
  | none => rfl
  | some g =>
      dsimp only
      cases g.turn (k.env id) (k.kube id) (s.isStopped id) t with
      | none => rfl
      | some g => rfl

/-- Only notifications that are handled change the controller. -/
theorem step_due (s : System) (i : SystemStep) :
    (s.step k i).due = s.due
      ∨ ∃ (n : Notice) (r : EventResult), n.handle s.due = .ok r
        ∧ (s.step k i).due = r.next := by
  unfold System.step
  split
  · exact Or.inl rfl
  · cases i with
    | notify n =>
        dsimp only
        unfold System.notify
        cases hsending : s.sending with
        | some sending => exact Or.inl rfl
        | none =>
            dsimp only
            cases hr : n.handle s.controller with
            | error e => exact Or.inl (due_of_sending_none hsending).symm
            | ok r =>
                rw [due_of_sending_none hsending]
                exact Or.inr ⟨n, r, hr,
                  due_handled hsending (handle_step hr)⟩
    | send => exact Or.inl (due_send s)
    | giveUp => exact Or.inl (due_giveUp s)
    | turn id t => exact Or.inl (due_turn id t s)

/-- The controller of an interleaving has a history of notifications of
its own: what the others do in between does not change it. -/
theorem run_history (k : Surroundings) (steps : List SystemStep) :
    ∀ (s : System) (h : History), s.due = h.now → h.fault = none →
      ∃ notices, (s.run k steps).due = (h.run notices).now
        ∧ (h.run notices).fault = none := by
  induction steps with
  | nil => intro s h heq hfault; exact ⟨[], heq, hfault⟩
  | cons i steps ih =>
      intro s h heq hfault
      rcases step_due s i with hsame | ⟨n, r, hr, hnext⟩
      · exact ih (s.step k i) h (hsame.trans heq) hfault
      · have hstep : (h.step n).now = r.next ∧ (h.step n).fault = none := by
          unfold History.step
          rw [hfault, ← heq]
          dsimp only
          rw [hr]
          exact ⟨rfl, rfl⟩
        obtain ⟨notices, hrun⟩ := ih (s.step k i) (h.step n)
          (hnext.trans hstep.1.symm) hstep.2
        exact ⟨n :: notices, hrun⟩

theorem not_blocked_of_sending (h : s.sending = none) : ¬ s.Blocked := by
  intro hblocked
  obtain ⟨id, rss, g, hsending, -⟩ := hblocked
  rw [h] at hsending
  cases hsending

/-- A notification blocks the controller if it is sent on to a Cluster
that has returned and is full. -/
theorem notify_not_blocked_iff (hs : s.Consistent)
    (hcrashed : s.crashed = false) (h : ¬ s.Blocked) :
    ¬ (s.notify k n).Blocked ↔ s.Minds k (.notify n) := by
  unfold System.notify
  cases hsending : s.sending with
  | some sending =>
      refine iff_of_true h ?_
      intro _ hnone
      rw [hsending] at hnone
      cases hnone
  | none =>
      dsimp only
      constructor
      · intro hfree _ _ clus id g hsyncs hentry hg hfull hexited
        by_contra hclear
        rw [not_or, not_not] at hclear
        obtain ⟨hphase, hvalid⟩ := hclear
        rw [handle_update hsyncs hphase hvalid hentry] at hfree
        refine hfree ⟨id, clus.cleaned, g, rfl, hg, hfull, hexited, ?_⟩
        exact decide_eq_false (hs.registered.running _ id hentry)
      · intro hminds
        split
        · exact not_blocked_of_sending rfl
        · next r hr =>
          have hstep := handle_step hr
          obtain ⟨err, call, next⟩ := r
          dsimp only at hstep ⊢
          cases hstep with
          | quiet => exact not_blocked_of_sending hsending
          | ignored => exact not_blocked_of_sending hsending
          | dropped => exact not_blocked_of_sending hsending
          | new => exact not_blocked_of_sending hsending
          | delete => exact not_blocked_of_sending hsending
          | update clus id hsyncs hphase hvalid hentry =>
              intro hblocked
              obtain ⟨id', rss, g, heq, hg, hfull, hexited, -⟩ := hblocked
              cases heq
              rcases hminds hcrashed hsending clus id g hsyncs hentry hg
                hfull hexited with hfailed | hinvalid
              · exact hphase hfailed
              · exact hinvalid hvalid

/-- A turn blocks the controller if it ends the goroutine the controller
waits on. -/
theorem turn_not_blocked_iff (hcrashed : s.crashed = false)
    (h : ¬ s.Blocked) :
    ¬ (s.turn k id t).Blocked ↔ s.Minds k (.turn id t) := by
  unfold System.turn
  cases hg : s.clusters id with
  | none =>
      refine iff_of_true h ?_
      intro _ rss g _ hg'
      rw [hg] at hg'
      cases hg'
  | some g =>
      dsimp only
      constructor
      · intro hfree _ rss g' hsending hg' hfull hopen
        rw [hg] at hg'
        cases hg'
        by_contra hdead
        obtain ⟨g', hturn, hexited, hch⟩ :=
          Goroutine.exited_of_not_survives hdead
        rw [hturn] at hfree
        refine hfree ⟨id, rss, g', hsending, ?_, ?_, hexited, hopen⟩
        · rw [lookup_setCluster, if_pos rfl]
        · unfold Goroutine.full
          rw [hch]
          exact hfull
      · intro hminds
        split
        · exact h
        · next g' hturn =>
          intro hblocked
          obtain ⟨id', rss, g₁, hsending, hg₁, hfull, hexited, hopen⟩ :=
            hblocked
          rw [lookup_setCluster] at hg₁
          split at hg₁
          · next hid =>
            subst hid
            cases hg₁
            rcases Goroutine.turn_exited hturn hexited with
              rfl | hstopped | ⟨hdead, hch⟩
            · exact h ⟨id', rss, g', hsending, hg, hfull, hexited, hopen⟩
            · exact Bool.false_ne_true (hopen.symm.trans hstopped)
            · refine hdead (hminds hcrashed rss g hsending hg ?_ hopen)
              unfold Goroutine.full at hfull ⊢
              rw [← hch]
              exact hfull
          · exact h ⟨id', rss, g₁, hsending, hg₁, hfull, hexited, hopen⟩

theorem step_not_blocked_iff (hs : s.Consistent) (h : ¬ s.Blocked)
    (i : SystemStep) : ¬ (s.step k i).Blocked ↔ s.Minds k i := by
  unfold System.step
  cases hcrashed : s.crashed with
  | true =>
      rw [if_pos rfl]
      refine iff_of_true h ?_
      cases i with
      | notify n =>
          intro hrunning
          rw [hcrashed] at hrunning
          cases hrunning
      | turn id t =>
          intro hrunning
          rw [hcrashed] at hrunning
          cases hrunning
      | send => trivial
      | giveUp => trivial
  | false =>
      rw [if_neg (by simp)]
      cases i with
      | notify n => exact notify_not_blocked_iff hs hcrashed h
      | turn id t => exact turn_not_blocked_iff hcrashed h
      | send =>
          refine iff_of_true ?_ trivial
          dsimp only
          unfold System.send
          split
          · exact h
          · split
            · exact h
            · split
              · exact h
              · exact not_blocked_of_sending rfl
      | giveUp =>
          refine iff_of_true ?_ trivial
          dsimp only
          unfold System.giveUp
          split
          · exact h
          · split
            · exact not_blocked_of_sending rfl
            · exact h

theorem always_not_blocked_iff (steps : List SystemStep) :
    ∀ s : System, s.Consistent → ¬ s.Blocked →
      (Always k (fun s => ¬ s.Blocked) s steps
        ↔ EveryMove k (System.Minds k) s steps) := by
  induction steps with
  | nil => intro s _ h; exact iff_of_true h trivial
  | cons i steps ih =>
      intro s hs h
      constructor
      · intro halways
        obtain ⟨-, hrest⟩ := halways
        have hnext : ¬ (s.step k i).Blocked := by
          cases steps with
          | nil => exact hrest
          | cons => exact hrest.1
        exact ⟨(step_not_blocked_iff hs h i).mp hnext,
          (ih _ (hs.step i) hnext).mp hrest⟩
      · intro hmoves
        obtain ⟨hminds, hrest⟩ := hmoves
        have hnext := (step_not_blocked_iff hs h i).mpr hminds
        exact ⟨h, (ih _ (hs.step i) hnext).mpr hrest⟩

end System

/-- In every interleaving of notifications, sends and turns of goroutines,
whatever Kubernetes answers, the controller never waits on a Cluster whose
goroutine has returned, exactly if no notification is sent on to such a
Cluster once its channel is full, and none returns while its channel is
full and the controller waits on it. -/
theorem never_blocked_iff (k : Surroundings) (steps : List SystemStep) :
    System.Always k (fun s => ¬ s.Blocked) .start steps
      ↔ System.EveryMove k (System.Minds k) .start steps :=
  System.always_not_blocked_iff steps .start System.consistent_start
    (System.not_blocked_of_sending rfl)

/-- The resource is accepted, its setup fails, and neither write of its
status gets through. -/
def lostReport : List SystemStep :=
  [.notify (.about .add (.wellFormed .none)), .turn 0 .start]

/-- A user edits the resource once, and the controller sends it on. -/
def editSent : List SystemStep :=
  [.notify (.about .update (.wellFormed .none)), .send]

/-- The API server takes no writes. -/
def Surroundings.refusing : Surroundings where
  env := fun _ => { Env.deciding fun _ => true with
    update := fun _ => some .conflict }
  kube := fun _ => .obliging
  world := fun _ => World.fresh (.wellFormed .none)

/-- The failure of the setup is not stored, so the edits that follow are
sent on, and the controller does not come back from the hundred and
first. -/
theorem lost_report_blocks :
    let s := System.start.run .refusing
      (lostReport ++ (List.replicate 101 editSent).flatten)
    s.Blocked ∧ s.crashed = false := by
  intro s
  refine ⟨?_, by decide +kernel⟩
  have hsending : s.sending.map Prod.fst = some 0 := by decide +kernel
  have hcluster : (s.clusters 0).map
      (fun g => (g.full, g.stage.isExited)) = some (true, true) := by
    decide +kernel
  obtain ⟨⟨id, rss⟩, hsent, hid⟩ := Option.map_eq_some_iff.mp hsending
  obtain ⟨g, hg, hflags⟩ := Option.map_eq_some_iff.mp hcluster
  dsimp only at hid
  subst hid
  exact ⟨0, rss, g, hsent, hg, congrArg Prod.fst hflags,
    congrArg Prod.snd hflags, by decide +kernel⟩

end RssOperator
