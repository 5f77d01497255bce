/-
The main loop of a cluster, from `Cluster.run` (`cluster.go`).

# One iteration

`tick` is the timer branch: poll the pods, report what they are, and
unless some are still pending reconcile, replicate and, if that failed,
reconcile again over the same list of pods. None of the errors of this
package is a `fatalError` (its constructor has no caller outside the
tests), so the check that follows the iteration never ends the loop.

# Runs

A run is a list of inputs: a poll with the number of turns the loops of
`replicate` may take, or a `Modify` event. Of the event's handler only
its effect on the cluster loop is kept here: the resource is replaced,
the status may change, the members are not touched. A run stops where a
call panics or is still looping.
-/
import RssOperator.Replicate

namespace RssOperator

-- ======================================================= one iteration

/-- What a poll of the pods gives. -/
inductive Poll where
  | failed
  | pods (running : PodList) (pending : List Pod)

/-- Reconcile, replicate, and reconcile again if that failed. -/
def reconcileBranch (env : Env) (fuel : Nat) (running : PodList) (s : Sys) :
    Outcome Sys (List Err) :=
  (reconcile env running s).andThen fun reconciled s =>
    let errors := appendAllNonNil [] reconciled
    if errors = [] then
      (replicate env fuel s).andThen fun replicated s =>
        let errors := appendAllNonNil errors replicated
        if errors = [] then .ret errors s
        else
          (reconcile env running s).andThen fun again s =>
            .ret (appendAllNonNil errors again) s
    else .ret errors s

/-- All pods were stopped. -/
def podsStopped (s : Sys) : Outcome Sys (List Err) := .ret [] (s.setPeers ∅)

/-- All pods died. -/
def podsDead (env : Env) (s : Sys) : Outcome Sys (List Err) :=
  match mergeMembers env ∅ s with
  | none => .panicked s
  | some s => .ret [] s

/-- No pod runs. -/
def noPodsBranch (env : Env) (s : Sys) : Outcome Sys (List Err) :=
  if s.spec.getNumReplicas = 0 then podsStopped s else podsDead env s

/-- Note how many pods there were when all of them were there. -/
def noteRestoreReplicas (env : Env) (running : PodList) (s : Sys) : Sys :=
  if (running.pods.length : Int) = s.spec.getNumReplicas then
    (updateCRStatus env "mainloop" (s.mapStatus fun st =>
      { st with restoreReplicas := running.pods.length })).2
  else s

/-- One pass of the timer branch of `run`. -/
def tick (env : Env) (fuel : Nat) (poll : Poll) (s : Sys) :
    Outcome Sys (List Err) :=
  if s.spec.paused then
    .ret [] (s.mapStatus fun st => { st with controlPaused := true })
  else
    let s := s.mapStatus fun st => { st with controlPaused := false }
    match poll with
    | .failed => .ret [] s
    | .pods running pending =>
        let s := updateMemberStatus env running.names s
        if pending ≠ [] then .ret [] s
        else if running.pods = [] then noPodsBranch env s
        else
          reconcileBranch env fuel running (noteRestoreReplicas env running s)

-- ================================================================ runs

/-- What the main loop is given next. -/
inductive Input where
  | timer (fuel : Nat) (poll : Poll)
  | modify (rss : ReplicatedStatefulSet) (status : ClusterStatus)

/-- One turn of the main loop. -/
def Input.step (env : Env) (s : Sys) : Input → Outcome Sys Unit
  | .timer fuel poll =>
      (tick env fuel poll s).andThen fun _ s => .ret () s
  | .modify rss status =>
      .ret () (s.mapCluster fun c =>
        { c with rss := rss, status := status, shared := false })

/-- A run of the main loop. -/
def run (env : Env) : List Input → Sys → Outcome Sys Unit
  | [], s => .ret () s
  | i :: is, s => (i.step env s).andThen fun _ s => run env is s

/-- What the main loop calls, one at a time. -/
inductive RunStep where
  | reconcile (pods : PodList)
  | replicate (fuel : Nat)
  | recover
  | podsDead
  | podsStopped
  | modify (rss : ReplicatedStatefulSet) (status : ClusterStatus)

def RunStep.step (env : Env) (s : Sys) : RunStep → Outcome Sys (List Err)
  | .reconcile pods => RssOperator.reconcile env pods s
  | .replicate fuel => RssOperator.replicate env fuel s
  | .recover =>
      .ret (RssOperator.recover env s).1 (RssOperator.recover env s).2
  | .podsDead => RssOperator.podsDead env s
  | .podsStopped => RssOperator.podsStopped s
  | .modify rss status =>
      .ret [] (s.mapCluster fun c =>
        { c with rss := rss, status := status, shared := false })

/-- The calls of the main loop in any order. -/
def runSteps (env : Env) : List RunStep → Sys → Outcome Sys Unit
  | [], s => .ret () s
  | i :: is, s => (i.step env s).andThen fun _ s => runSteps env is s

/-- A cluster loop at its start: no peers are known and no call has been
made. -/
def Sys.start (rss : ReplicatedStatefulSet) : Sys where
  c := { rss := rss, status := rss.status, peers := none, shared := false }
  stored := rss
  execs := 0
  orders := 0
  calls := 0
  trace := []

-- ====================================================== concrete inputs

/-- A command that runs and ends with exit code 0. -/
def ExecAnswer.exitsZero (stdout : String) : ExecAnswer where
  setup := none
  pod := .ok ["app"]
  executor := none
  stdout := stdout
  stderr := ""
  stream := .exitedZero

/-- A command that runs and ends with another exit code. -/
def ExecAnswer.exits (code : Nat) : ExecAnswer where
  setup := none
  pod := .ok ["app"]
  executor := none
  stdout := ""
  stderr := ""
  stream := .failed s!"command terminated with exit code {code}"

/-- A world in which everything but the commands works, and maps are
visited as they are stored. -/
def Env.answering (exec : Nat → Call → String → ExecAnswer) : Env where
  exec := exec
  order := fun _ => Order.stored String
  delete := fun _ _ => none
  tag := fun _ _ => none
  update := fun _ => none
  get := fun _ => .error .notFound
  now := fun _ => "now"
  grow := fun _ => true

/-- A world that answers the `n`-th command by `b n`. -/
def Env.deciding (b : Nat → Bool) : Env :=
  .answering fun n _ _ => if b n then .exitsZero "" else .exits 1

/-- A resource that asks for `replicas` pods and `primaries` primaries and
configures all commands. -/
def ReplicatedStatefulSet.sized (replicas primaries : Int) :
    ReplicatedStatefulSet where
  name := "db"
  nameSpace := "default"
  spec :=
    { replicas := some replicas
      primaries := some primaries
      paused := false
      commands := fun _ => some ⟨["run"]⟩
      tls := none }
  status := .empty

/-- Three pods. -/
def PodList.three : PodList where
  pods := [⟨"db-0", "default"⟩, ⟨"db-1", "default"⟩, ⟨"db-2", "default"⟩]
  nodup := by decide

end RssOperator
