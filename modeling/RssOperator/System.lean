/-
The controller and the goroutines of its Clusters, interleaved.

# Who does what

The controller handles one notification at a time. `Update` puts the
resource on the Cluster's `eventCh`, which holds a hundred; when it is full
the controller waits, in `send`, for room or for `stopCh` to be closed.
Each Cluster has a goroutine of its own. It sets the cluster up and then
takes, in its `select`, an event, the timer or the closing of `stopCh`.

# Where they interleave

A step is one of: a notification, up to the `send` it may end in; either
case of the `select` in `send`, with what the handler does behind it; or
one turn of a goroutine. Taking an event off the channel and handling it
are two steps, so the channel may fill up again while the event is handled.
What the handlers do is the model of `Update.lean`, each Cluster with the
answers of its own surroundings.

# Ways out

A goroutine returns if the setup fails, if an event cannot be handled, or
if it finds `stopCh` closed. A pass of the timer branch that panics takes
the process with it, and one that does not come back leaves the goroutine
where it is.
-/
import RssOperator.Controller
import RssOperator.Update

namespace RssOperator

-- =========================================================== goroutines

/-- Where the goroutine of a Cluster is. -/
inductive Stage where
  /-- It has not set the cluster up yet. -/
  | starting (rss : ReplicatedStatefulSet)
  /-- At the `select` of `run`. -/
  | waiting
  /-- Busy with an event it has taken. -/
  | handling (rss : ReplicatedStatefulSet)
  /-- In a pass that does not come back. -/
  | looping
  | exited

def Stage.isExited : Stage → Bool
  | exited => true
  | _ => false

/-- The capacity of `eventCh`. -/
def eventCap : Nat := 100

/-- A Cluster: its goroutine and its `eventCh`, oldest event first. -/
structure Goroutine where
  world : World
  stage : Stage
  eventCh : List ReplicatedStatefulSet

def Goroutine.full (g : Goroutine) : Bool :=
  decide (eventCap ≤ g.eventCh.length)

/-- A turn of a goroutine. -/
inductive Turn where
  | start
  | take
  | handle
  | timer (fuel : Nat) (poll : Poll)
  | stop

/-- After a part of the goroutine that may have returned. -/
def Goroutine.left (g : Goroutine) (w : World) : Goroutine :=
  { g with world := w, stage := if w.alive then .waiting else .exited }

/-- One turn; a turn whose time has not come changes nothing. Without a
result the process is gone. -/
def Goroutine.turn (env : Env) (kube : Kube) (stopped : Bool)
    (g : Goroutine) : Turn → Option Goroutine
  | .start =>
      match g.stage with
      | .starting rss => some (g.left (launch env kube rss g.world))
      | _ => some g
  | .take =>
      match g.stage, g.eventCh with
      | .waiting, rss :: rest =>
          some { g with stage := .handling rss, eventCh := rest }
      | _, _ => some g
  | .handle =>
      match g.stage with
      | .handling rss => some (g.left (eventBranch env kube rss g.world))
      | _ => some g
  | .timer fuel poll =>
      match g.stage with
      | .waiting =>
          let w := timerBranch env fuel poll g.world
          match tick env fuel poll g.world.sys with
          | .ret _ _ => some { g with world := w }
          | .panicked _ => none
          | .looping _ => some { g with world := w, stage := .looping }
      | _ => some g
  | .stop =>
      match g.stage with
      | .waiting => some (if stopped then { g with stage := .exited } else g)
      | _ => some g

-- =============================================================== system

/-- What Kubernetes has and answers, for each Cluster. -/
structure Surroundings where
  env : Nat → Env
  kube : Nat → Kube
  world : Nat → World

structure System where
  controller : Controller
  clusters : Nat → Option Goroutine
  /-- The controller waits in `send`, on this Cluster with this event. -/
  sending : Option (Nat × ReplicatedStatefulSet)
  crashed : Bool

def System.start : System := ⟨.new, fun _ => none, none, false⟩

inductive SystemStep where
  | notify (n : Notice)
  /-- The first case of the `select` in `send`. -/
  | send
  /-- The second one. -/
  | giveUp
  | turn (id : Nat) (t : Turn)

namespace System

def setCluster (id : Nat) (g : Goroutine) (s : System) : System :=
  { s with clusters := Function.update s.clusters id (some g) }

/-- `close(c.stopCh)` has been called. -/
def isStopped (s : System) (id : Nat) : Bool :=
  decide (id ∈ s.controller.stopped)

/-- A handler, up to the call it may wait in. `Update` is counted when it
has returned. -/
def handled (k : Surroundings) (r : EventResult) (s : System) : System :=
  match r.call with
  | some (.update id rss) => { s with sending := some (id, rss) }
  | some (.new id rss) =>
      { s with controller := r.next }.setCluster id
        ⟨k.world id, .starting rss, []⟩
  | some (.delete _) | none => { s with controller := r.next }

/-- `Update` returns, and `clustersModified` is incremented. -/
def updated (s : System) : System :=
  { s with
    controller := { s.controller with
      metrics := s.controller.metrics.incModified }
    sending := none }

def notify (k : Surroundings) (n : Notice) (s : System) : System :=
  match s.sending with
  | some _ => s
  | none =>
      match n.handle s.controller with
      | .error _ => { s with crashed := true }
      | .ok r => s.handled k r

def send (s : System) : System :=
  match s.sending with
  | none => s
  | some (id, rss) =>
      match s.clusters id with
      | none => s
      | some g =>
          if g.full then s
          else
            (s.setCluster id { g with eventCh := g.eventCh ++ [rss] }).updated

def giveUp (s : System) : System :=
  match s.sending with
  | none => s
  | some (id, _) => if s.isStopped id then s.updated else s

def turn (k : Surroundings) (id : Nat) (t : Turn) (s : System) : System :=
  match s.clusters id with
  | none => s
  | some g =>
      match g.turn (k.env id) (k.kube id) (s.isStopped id) t with
      | none => { s with crashed := true }
      | some g => s.setCluster id g

def step (k : Surroundings) (s : System) (i : SystemStep) : System :=
  if s.crashed then s
  else
    match i with
    | .notify n => s.notify k n
    | .send => s.send
    | .giveUp => s.giveUp
    | .turn id t => s.turn k id t

def run (k : Surroundings) (s : System) (steps : List SystemStep) : System :=
  steps.foldl (System.step k) s

/-- Every state of a run has `P`. -/
def Always (k : Surroundings) (P : System → Prop) :
    System → List SystemStep → Prop
  | s, [] => P s
  | s, i :: steps => P s ∧ Always k P (s.step k i) steps

/-- Every step of a run is taken in a state, with `P`. -/
def EveryMove (k : Surroundings) (P : System → SystemStep → Prop) :
    System → List SystemStep → Prop
  | _, [] => True
  | s, i :: steps => P s i ∧ EveryMove k P (s.step k i) steps

end System

end RssOperator
