/-
An edit, from the informer to the application.

# The three parts

A resource that is edited reaches the loop of its Cluster in order and is
taken over there (Proofs/Delivery.lean). In phase `Running` the StatefulSet
then has the replica count of the edited spec (Proofs/Scaling.lean), and
two iterations behind the last fault the application meets that spec
(Proofs/Converging.lean). `edits_take_effect` puts the three together, in
the interleaved system: nothing in between is proved again.

# What is assumed

Of the past, little (`TakenOver`): the operator may have been through any
interleaving in which the API server, the commands and the pods did as they
liked, but a cluster that it found running at the start had the pods of its
spec. From a moment on at which nothing is on its way to the Cluster, the
commands and deletions of that Cluster oblige, Kubernetes runs and lists as
many pods as the StatefulSet asks for, and the application does as it is
told (`GoesOn`). Whatever the controller and the other Clusters do in the
meantime is left open.
-/
import RssOperator.Proofs.Converging
import RssOperator.Proofs.Delivery
import RssOperator.Proofs.Worlds

namespace RssOperator

variable {env : Env} {kube : Kube} {w : World} {is : List WorldStep}
  {k : Surroundings} {s : System} {id : Nat} {g : Goroutine} {fuel t : Nat}
  {polls : Nat → PodList} {ρ : Nat → Plant}

-- ==================================================== a loop by itself

/-- A new process knows of no members. -/
theorem launch_sound (rss : ReplicatedStatefulSet) (w : World) :
    (launch env kube rss w).sys.members.Sound := by
  have hpeers : SamePeers (w.handed rss).sys (launch env kube rss w).sys :=
    (SamePeers.frame env).launch rss w
  unfold Sys.members
  rw [hpeers]
  exact MemberSet.sound_empty

theorem World.run_sound (hsets : SetsUp true is false) :
    (w.run env kube is).sys.members.Sound := by
  cases hsets with
  | now rss is _ =>
      exact World.run_keeps (I := fun w => w.sys.members.Sound)
        (fun _ i hw => WorldStep.step_sound hw i) is (launch_sound rss w)

/-- Passes of the timer branch, and nothing in between. -/
def passes (fuel : Nat) (polls : Nat → PodList) (t : Nat) :
    List WorldStep :=
  (List.range t).map fun i => .timer fuel (.pods (polls i) [])

/-- Passes that return are the iterations of the main loop. -/
theorem World.run_passes (halive : w.alive = true)
    (hstart : (ρ 0).1 = w.sys)
    (hticked : ∀ i, i < t →
      (tick env fuel (.pods (polls i) []) (ρ i).1).state = (ρ (i + 1)).1)
    (hret : ∀ i, i < t →
      (tick env fuel (.pods (polls i) []) (ρ i).1).returned = true) :
    (w.run env kube (passes fuel polls t)).alive = true
      ∧ (w.run env kube (passes fuel polls t)).sys = (ρ t).1 := by
  induction t with
  | zero => exact ⟨halive, hstart.symm⟩
  | succ t ih =>
      obtain ⟨hrun, hsys⟩ := ih (fun i hi => hticked i (by omega))
        (fun i hi => hret i (by omega))
      have hlast : w.run env kube (passes fuel polls (t + 1))
          = timerBranch env fuel (.pods (polls t) [])
            (w.run env kube (passes fuel polls t)) := by
        unfold passes World.run at hrun ⊢
        rw [List.range_succ, List.map_append, List.foldl_append]
        exact if_pos hrun
      rw [hlast, timerBranch, hsys]
      exact ⟨hret t (by omega), hticked t (by omega)⟩

-- ==================================================== among the others

namespace System

/-- The parts of the loop of a Cluster that a run from `s` is made of. -/
def performedFrom (k : Surroundings) (id : Nat) (s : System)
    (steps : List SystemStep) : List WorldStep :=
  trail (System.step k) (System.performs k id) s steps

theorem run_world_from (hs : Ordered id s) (hg : s.clusters id = some g)
    (steps : List SystemStep) :
    ((s.run k steps).view id).world (k.world id)
      = g.world.run (k.env id) (k.kube id)
        (performedFrom k id s steps) := by
  have hnow : (s.view id).world (k.world id) = g.world := by
    rw [view, hg]
    rfl
  rw [← hnow]
  exact trail_refines (ordered_step k id)
    (fun s => (s.view id).world (k.world id))
    (fun _ i hs => (step_seen hs.1 i).world hs.2) steps s hs

end System

/-- After some interleaving the last resource handed to the Cluster has been
taken over, and the phase is `Running`. -/
structure TakenOver (k₀ : Surroundings) (id : Nat) (steps : List SystemStep)
    (g : Goroutine) (last : ReplicatedStatefulSet) : Prop where
  cluster : (System.start.run k₀ steps).clusters id = some g
  serves : g.stage.serves = true
  /-- Nothing is on its way to the Cluster. -/
  held : ((System.start.run k₀ steps).view id).held = []
  /-- A cluster that was running when its process was started had the pods
  of its spec. -/
  started : ∀ rss, (System.handed k₀ id steps).head? = some rss →
    rss.status.phase = .running →
      (k₀.world id).sts = some rss.spec.getNumReplicas
  latest : (System.handed k₀ id steps).getLast? = some last
  phase : g.world.sys.c.status.phase = .running

/-- The interleaving goes on from `s`, and all the Cluster does there is to
make passes in a world that obliges, with the pods of its StatefulSet. -/
structure GoesOn (k : Surroundings) (id : Nat) (s : System)
    (more : List SystemStep) (g : Goroutine) (fuel t : Nat)
    (names : List String) (polls : Nat → PodList) (ρ : Nat → Plant) : Prop
    extends Fair (k.env id) fuel t names polls ρ where
  pods : g.world.sts = some (names.length : Int)
  onlyPasses : s.performedFrom k id more = passes fuel polls t
  plant : (ρ 0).1 = g.world.sys

section

variable {k₀ : Surroundings} {steps more : List SystemStep}
  {last : ReplicatedStatefulSet} {names : List String}
  (hpast : TakenOver k₀ id steps g last)
  (hfuture : GoesOn k id (System.start.run k₀ steps) more g fuel t names
    polls ρ)
  (hspec : last.spec.Attainable)
include hpast hfuture hspec

/-- The passes are a recovery, to the spec of the last resource. -/
theorem GoesOn.recovers :
    (ρ 0).1.spec = last.spec
      ∧ Recovers (k.env id) fuel t names polls ρ
      ∧ (ρ 0).1.members.WellKeyed := by
  obtain ⟨last', hlatest, hadopted, hsize⟩ := System.run_settled
    hpast.cluster hpast.serves hpast.held hpast.started
  obtain rfl : last' = last :=
    Option.some.inj (hlatest.symm.trans hpast.latest)
  have hsame : (ρ 0).1.spec = last'.spec := by rw [hfuture.plant, hadopted]
  have hlen : (names.length : Int) = (ρ 0).1.spec.getNumReplicas := by
    rw [hfuture.plant]
    exact Option.some.inj (hfuture.pods.symm.trans (hsize hpast.phase))
  obtain ⟨hworld, -, hsets⟩ := System.run_served hpast.cluster hpast.serves
  refine ⟨hsame, ⟨hfuture.toFair, hsame ▸ hspec, hlen⟩, ?_⟩
  rw [hfuture.plant, hworld]
  exact (World.run_sound hsets).keyed

/-- An edit takes effect: two passes after the last resource has been taken
over, the application meets its spec, in every interleaving; with the third
one the status says so, and it is what the API server has if that grants
the updates and the operator's record of it was right before. -/
theorem edits_take_effect (ht : 2 ≤ t) :
    let w : World :=
      (((System.start.run k₀ steps).run k more).view id).world (k.world id)
    w.alive = true ∧ w.sys = (ρ t).1
      ∧ (names.countP fun p => ((ρ t).2 p).readAs last.spec = .primary)
        = last.spec.getNumPrimaries
      ∧ (∀ p ∈ names, (ρ t).2 p ≠ .stopped)
      ∧ (2 < t → w.sys.c.status.members.ready.Perm names
        ∧ w.sys.c.status.members.primary.Perm (names.filter fun p =>
            decide (((ρ t).2 p).readAs last.spec = .primary)))
      ∧ ((k.env id).Grants → g.world.sys.InSync →
          w.sys.stored.status = w.sys.c.status) := by
  intro w
  obtain ⟨hsame, hrec, hkeyed⟩ := hfuture.recovers hpast hspec
  obtain ⟨-, halive, -⟩ := System.run_served hpast.cluster hpast.serves
  -- the passes, of the loop by itself
  have hw : w = g.world.run (k.env id) (k.kube id)
      (passes fuel polls t) := by
    rw [← hfuture.onlyPasses]
    exact System.run_world_from (System.run_ordered k₀ id steps)
      hpast.cluster more
  obtain ⟨hrun, hsys⟩ := @World.run_passes (k.env id) (k.kube id) g.world
    fuel t polls ρ halive hfuture.plant
    (fun i hi => (hfuture.rounds i hi).ticked)
    (fun i hi => (hrec.leads hkeyed i hi).1)
  rw [← hw] at hrun hsys
  have hnow := (hrec.converged hkeyed).2 t ht (Nat.le_refl t)
  rw [← hsame]
  refine ⟨hrun, hsys, hnow.primaries, hnow.running, ?_, ?_⟩
  · -- the lists are those of the last pass
    intro hthird
    obtain ⟨t, rfl⟩ : ∃ u, t = u + 1 := ⟨t - 1, by omega⟩
    obtain ⟨hready, -, hprimary, -⟩ := hrec.lists hkeyed t (by omega)
      (by omega)
    rw [hsys]
    exact ⟨hready ▸ hfuture.listed t (by omega), hprimary⟩
  · intro hgrants hsync
    obtain ⟨t, rfl⟩ : ∃ u, t = u + 1 := ⟨t - 1, by omega⟩
    rw [hsys]
    exact hrec.publishes hkeyed hgrants (hfuture.plant ▸ hsync) t (by omega)

end

-- ============================================================ an example

def WorldStep.isPass (fuel : Nat) (pods : PodList) : WorldStep → Bool
  | .timer f (.pods running pending) =>
      decide (f = fuel ∧ running.pods = pods.pods ∧ pending = [])
  | .timer _ .failed | .event _ | .restart _ => false

theorem WorldStep.eq_of_isPass {pods : PodList} {i : WorldStep}
    (h : i.isPass fuel pods = true) : i = .timer fuel (.pods pods []) := by
  cases i with
  | timer f poll =>
      cases poll with
      | failed => cases h
      | pods running pending =>
          obtain ⟨rfl, heq, rfl⟩ := of_decide_eq_true h
          cases running
          cases heq
          rfl
  | event | restart => cases h

theorem passes_of_all {pods : PodList} (hlen : is.length = t)
    (hall : is.all (WorldStep.isPass fuel pods) = true) :
    is = passes fuel (fun _ => pods) t := by
  rw [passes, List.map_const', List.length_range]
  exact List.eq_replicate_iff.mpr ⟨hlen, fun i hi =>
    WorldStep.eq_of_isPass (List.all_eq_true.mp hall i hi)⟩

namespace Promoted

/-- A resource is added and its cluster set up; then a second primary is
asked for. -/
def steps : List SystemStep :=
  let rss := ReplicatedStatefulSet.wellFormed .none
  let edited := { ReplicatedStatefulSet.wellFormed .running with
    spec := { rss.spec with primaries := some 2 } }
  [.notify ⟨.add, .rss rss, .stored String⟩, .turn 0 .start,
    .notify ⟨.update, .rss edited, .stored String⟩, .send, .turn 0 .take,
    .turn 0 .handle]

/-- In between another resource is added. -/
def more : List SystemStep :=
  let rss := ReplicatedStatefulSet.wellFormed .none
  [.turn 0 (.timer 9 (.pods .three [])),
    .notify ⟨.add, .rss { rss with name := "web" }, .stored String⟩,
    .turn 0 (.timer 9 (.pods .three [])), .turn 1 .start,
    .turn 0 (.timer 9 (.pods .three []))]

def before : Surroundings :=
  ⟨fun _ => .deciding fun _ => true, fun _ => .obliging,
    fun _ => .fresh (.wellFormed .none)⟩

/-- The pods are stopped until they are started, in the first pass. -/
def world : Env :=
  .answering fun n call pod =>
    if call ≠ .status then .exitsZero ""
    else if n < 9 then .exits 7
    else if pod = "db-2" then .exitsZero "" else .exits 8

def after : Surroundings := { before with env := fun _ => world }

def cluster : Option Goroutine := (System.start.run before steps).clusters 0

def plant : Nat → Plant :=
  Plant.after world 9 .three
    (cluster.elim (Sys.start (.wellFormed .none)) fun g => g.world.sys,
      fun _ => .stopped)

theorem world_obliging : world.Obliging := by
  refine Env.answering_obliging fun n pod => ?_
  split
  · decide
  · split <;> decide

theorem passes_more : (System.start.run before steps).performedFrom after 0
    more = passes 9 (fun _ => .three) 3 :=
  passes_of_all (by decide +kernel) (by decide +kernel)

theorem rounds : ∀ i, i < 3 →
    Round world 9 .three (plant i) (plant (i + 1)) :=
  Plant.rounds_after (by decide +kernel)

theorem attainable : ∀ last ∈ (System.handed before 0 steps).getLast?,
    last.spec.Attainable := by
  have hall : (System.handed before 0 steps).getLast?.all (fun last =>
      last.spec.paused = false ∧ 0 < last.spec.getNumReplicas
        ∧ 1 ≤ last.spec.getNumPrimaries
        ∧ last.spec.getNumReplicas ≤ last.spec.getNumPrimaries + 1
        ∧ (last.spec.commands .secondary).isSome = true) = true := by
    decide +kernel
  intro last hlast
  rw [Option.mem_def.mp hlast, Option.all_some] at hall
  obtain ⟨hactive, hreplicas, hprimaries, hroom, hsecondary⟩ :=
    of_decide_eq_true hall
  exact ⟨hactive, hreplicas, hprimaries, hroom, Or.inr hsecondary⟩

theorem first_none (rss : ReplicatedStatefulSet)
    (h : (System.handed before 0 steps).head? = some rss) :
    rss.status.phase = .none := by
  have hall : (System.handed before 0 steps).head?.all
      (fun rss => rss.status.phase = .none) = true := by decide +kernel
  rw [h] at hall
  exact of_decide_eq_true hall

/-- The Cluster, taken over, with its three pods and its record right. -/
theorem takenOver : ∃ g last, TakenOver before 0 steps g last
    ∧ last.spec.getNumPrimaries = 2
    ∧ GoesOn after 0 (System.start.run before steps) more g 9 3
      PodList.three.names (fun _ => .three) plant
    ∧ g.world.sys.InSync := by
  have hsome : cluster.isSome = true := by decide +kernel
  obtain ⟨g, hg⟩ := Option.isSome_iff_exists.mp hsome
  have hat : cluster.all (fun g => g.stage.serves = true
      ∧ g.world.sys.c.status.phase = .running
      ∧ g.world.sts = some (PodList.three.names.length : Int)
      ∧ g.world.sys.c.rss.status = g.world.sys.stored.status
      ∧ g.world.sys.c.shared = false) = true := by
    decide +kernel
  have hplant : (plant 0).1 = cluster.elim (Sys.start (.wellFormed .none))
      fun g => g.world.sys := Plant.after_zero _ _
  rw [hg] at hat hplant
  obtain ⟨hserves, hphase, hsts, hrecord, hown⟩ := of_decide_eq_true hat
  have hhanded : (System.handed before 0 steps).getLast?.isSome = true := by
    decide +kernel
  have htwo : (System.handed before 0 steps).getLast?.all
      (fun last => last.spec.getNumPrimaries = 2) = true := by
    decide +kernel
  obtain ⟨last, hlast⟩ := Option.isSome_iff_exists.mp hhanded
  rw [hlast] at htwo
  refine ⟨g, last, ⟨hg, hserves, by decide +kernel, ?_, hlast, hphase⟩,
    of_decide_eq_true htwo,
    ⟨⟨world_obliging, by decide, fun _ _ => .refl _, rounds⟩, hsts,
      passes_more, hplant⟩, ⟨hrecord, hown⟩⟩
  intro rss hfirst hrunning
  rw [first_none rss hfirst] at hrunning
  cases hrunning

end Promoted

/-- After three passes, with another Cluster set up in between, there are
two primaries, and the server has the status of the Cluster. -/
theorem edits_take_effect_promoted :
    ∃ last, (System.handed Promoted.before 0 Promoted.steps).getLast?
        = some last
      ∧ last.spec.getNumPrimaries = 2
      ∧ (PodList.three.names.countP fun p =>
          ((Promoted.plant 3).2 p).readAs last.spec = .primary)
        = last.spec.getNumPrimaries
      ∧ (Promoted.plant 3).1.stored.status
        = (Promoted.plant 3).1.c.status := by
  obtain ⟨g, last, hpast, htwo, hfuture, hsync⟩ := Promoted.takenOver
  obtain ⟨-, hsys, hprimaries, -, -, hpublished⟩ :=
    edits_take_effect hpast hfuture
      (Promoted.attainable last hpast.latest) (by decide)
  have hstored := hpublished (fun _ => rfl) hsync
  rw [hsys] at hstored
  exact ⟨last, hpast.latest, htwo, hprimaries, hstored⟩

end RssOperator
