/-
Creation, `Modify` events and restarts, from `cluster.go`: what the
operator does to the StatefulSet.

# The world of a cluster loop

The cluster loop never looks at the StatefulSet while it polls pods.
Two of its parts do: `create`, which makes it with the replica count of
the spec, and `handleUpdateEvent`, which patches the count when an event
brings a spec that differs from the one in memory. `World` adds to a
cluster loop the replica count of its StatefulSet, the record of how it
was changed (newest first), and whether the loop takes inputs at all.

# Whose status

An event replaces `c.rss`, status included, and leaves `c.status` alone.
The guard against scaling up from zero with too few pods reads
`c.rss.Status.RestoreReplicas`, that is, the number the event carries;
the number the loop keeps is `c.status.RestoreReplicas`. The guard converts
it to `int32`. The loop only writes lengths of lists of pods, but an event
may carry any number, and one of more than 32 bits wraps around.

# Steps

A step is a pass of the timer branch, a `Modify` event with the resource
it carries, or the start of an operator process, which is handed the
resource as the API server lists it. Neither resource is tied to what
the loop wrote before: users edit the spec, writes get lost, and events
are late. An operator that is killed in the middle of a step starts
again from whatever it had written by then, which is one more resource
it may be handed.
-/
import RssOperator.Run

namespace RssOperator

-- ============================================================== errors

/-- What ends the loop or keeps it from starting, one constructor a
format string. -/
inductive LoopErr where
  | getSts (name cause : String)
  | creatingPatch (cause : String)
  | updateSts (name cause : String)
  | createdCluster
  | unexpectedPhase (phase : ClusterPhase)
  | tls (cause : String)
  | clusterPhase (phase : ClusterPhase) (cause : String)
  | internalService (cause : String)
  | emptyConfig (cause : String)
  | emptyConfigFile (cause : String)
  | stsDefinition (cause : String)
  | creatingSts (cause : String)
deriving DecidableEq, Repr

def ClusterPhase.text : ClusterPhase → String
  | none => ""
  | creating => "Creating"
  | running => "Running"
  | paused => "Paused"
  | failed => "Failed"
  | other text => text

def LoopErr.text : LoopErr → String
  | getSts name cause => "fail to get sts (" ++ name ++ "): " ++ cause
  | creatingPatch cause => "error creating patch: " ++ cause
  | updateSts name cause =>
      "fail to update the sts (" ++ name ++ "): " ++ cause
  | createdCluster => "cluster failed to be created"
  | unexpectedPhase phase => "unexpected cluster phase: " ++ phase.text
  | tls cause => cause
  | clusterPhase phase cause =>
      "cluster create: failed to update cluster phase (" ++ phase.text
        ++ "): " ++ cause
  | internalService cause =>
      "synchronizing internal service failed: " ++ cause
  | emptyConfig cause =>
      "generating empty config secret failed: " ++ cause
  | emptyConfigFile cause => "creating empty config file failed: " ++ cause
  | stsDefinition cause =>
      "creating statefulset definition failed: " ++ cause
  | creatingSts cause => "creating statefulset failed: " ++ cause

-- =============================================================== world

/-- The answers to the requests of one `create`. A secret that exists
already is no failure. -/
structure CreateAnswer where
  service : Option String
  emptyConfig : Option String
  secret : Option String
  definition : Option String
  sts : Option String

/-- The answers to the requests of one `handleUpdateEvent`. -/
structure UpdateAnswer where
  get : Option ApiErr
  patchdata : Option String
  patch : Option ApiErr

/-- What Kubernetes answers outside the cluster loop, by the number of
the start or event that asks. -/
structure Kube where
  tls : Nat → Option String
  create : Nat → CreateAnswer
  update : Nat → UpdateAnswer

/-- A change of the StatefulSet's replica count, and the loop's own
`RestoreReplicas` when it was made. -/
structure Resize where
  old : Int
  new : Int
  restoreReplicas : Int
deriving DecidableEq, Repr

/-- A cluster loop and its StatefulSet. -/
structure World where
  sys : Sys
  /-- The replica count of the StatefulSet, once there is one. -/
  sts : Option Int
  resizes : List Resize
  /-- `Patch` requests sent for the StatefulSet so far. -/
  patches : Nat
  /-- Starts and events so far. -/
  requests : Nat
  /-- The loop takes inputs. -/
  alive : Bool

def World.mapSys (f : Sys → Sys) (w : World) : World :=
  { w with sys := f w.sys }

/-- The name of the StatefulSet. -/
def prefixedName (name : String) : String := "rss-" ++ name

def Sys.setPhase (phase : ClusterPhase) (s : Sys) : Sys :=
  s.mapStatus fun st => { st with phase := phase }

def Sys.setReason (reason : String) (s : Sys) : Sys :=
  s.mapStatus fun st => { st with reason := reason }

-- ======================================================= Modify events

/-- The part of the spec whose change is acted on. -/
def isSpecEqual (s₁ s₂ : ClusterSpec) : Bool :=
  s₁.getNumReplicas == s₂.getNumReplicas && s₁.paused == s₂.paused
    && s₁.getNumPrimaries == s₂.getNumPrimaries

/-- The conversion `int32(n)`. -/
def int32 (n : Int) : Int := n.bmod (2 ^ 32)

/-- Why a replica count is refused. -/
def tooLowMsg (rss : ReplicatedStatefulSet) : String :=
  "Replica count (" ++ toString rss.spec.getNumReplicas ++ ") for "
    ++ prefixedName rss.name ++ " is too low (should be "
    ++ toString rss.status.restoreReplicas ++ " or higher)"

/-- A replica count that would scale up from zero with too few pods: the
loop pauses and the StatefulSet stays as it is. -/
def refuseReplicas (env : Env) (rss : ReplicatedStatefulSet) (s : Sys) :
    Sys :=
  (updateCRStatus env "modify"
    ((s.setPhase .paused).setReason (tooLowMsg rss))).2

/-- A replica count that is accepted ends a pause. -/
def acceptReplicas (env : Env) (s : Sys) : Sys :=
  if s.c.status.phase = .paused then
    (updateCRStatus env "modify"
      ((s.setPhase .running).setReason "Replica count is consistent")).2
  else s

/-- Patch the replica count of the StatefulSet from `old` to `new`. A
request is sent even if there is nothing to change. -/
def patchSts (answer : UpdateAnswer) (name : String) (old new : Int)
    (w : World) : Option LoopErr × World :=
  match answer.patchdata with
  | some cause => (some (.creatingPatch cause), w)
  | none =>
      let w := { w with patches := w.patches + 1 }
      match answer.patch with
      | some err => (some (.updateSts (prefixedName name) err.text), w)
      | none =>
          if old = new then (none, w)
          else
            (none, { w with
              sts := some new
              resizes :=
                ⟨old, new, w.sys.c.status.restoreReplicas⟩ :: w.resizes })

/-- `c.handleUpdateEvent(event)` for an event that carries `rss`. -/
def handleUpdateEvent (env : Env) (kube : Kube)
    (rss : ReplicatedStatefulSet) (w : World) : Option LoopErr × World :=
  let oldSpec := w.sys.spec
  let answer := kube.update w.requests
  let w := { w with
    sys := w.sys.mapCluster fun c => { c with rss := rss, shared := false }
    requests := w.requests + 1 }
  if isSpecEqual rss.spec oldSpec then (none, w)
  else
    match answer.get, w.sts with
    | some err, _ => (some (.getSts (prefixedName rss.name) err.text), w)
    | none, none =>
        (some (.getSts (prefixedName rss.name) ApiErr.notFound.text), w)
    | none, some replicas =>
        if replicas = rss.spec.getNumReplicas then
          patchSts answer rss.name replicas replicas w
        else if replicas = 0
            ∧ rss.spec.getNumReplicas < int32 rss.status.restoreReplicas then
          (none, w.mapSys (refuseReplicas env rss))
        else
          patchSts answer rss.name replicas rss.spec.getNumReplicas
            (w.mapSys (acceptReplicas env))

-- ======================================================= start, setup

/-- `c.create()`. -/
def create (env : Env) (kube : Kube) (w : World) :
    Option LoopErr × World :=
  let answer := kube.create w.requests
  match updateCRStatus env "create" (w.sys.setPhase .creating) with
  | (some err, s) =>
      (some (.clusterPhase .creating err.text), { w with sys := s })
  | (none, s) =>
      let w := { w with sys := s }
      match answer.service, answer.emptyConfig, answer.secret,
          answer.definition, answer.sts, w.sts with
      | some cause, _, _, _, _, _ => (some (.internalService cause), w)
      | none, some cause, _, _, _, _ => (some (.emptyConfig cause), w)
      | none, none, some cause, _, _, _ => (some (.emptyConfigFile cause), w)
      | none, none, none, some cause, _, _ => (some (.stsDefinition cause), w)
      | none, none, none, none, some cause, _ =>
          (some (.creatingSts cause), w)
      | none, none, none, none, none, some _ =>
          (some (.creatingSts "already exists"), w)
      | none, none, none, none, none, none =>
          (none, { w with sts := some s.spec.getNumReplicas })

/-- `c.setup()`. -/
def setup (env : Env) (kube : Kube) (w : World) : Option LoopErr × World :=
  let secured (next : Option LoopErr × World) : Option LoopErr × World :=
    if isSecureClient w.sys.spec.tls then
      match kube.tls w.requests with
      | some cause => (some (.tls cause), w)
      | none => next
    else next
  match w.sys.c.status.phase with
  | .none => secured (create env kube w)
  | .creating => (some .createdCluster, w)
  | .running => secured (none, w)
  | phase => (some (.unexpectedPhase phase), w)

/-- A new process: it knows the resource it is handed and nothing of the
members. -/
def World.handed (rss : ReplicatedStatefulSet) (w : World) : World :=
  { w with
    sys := { w.sys with
      c := { rss := rss, status := rss.status, peers := none,
             shared := false }
      stored := rss } }

/-- The goroutine of `New`, up to the loop of `run`. -/
def launch (env : Env) (kube : Kube) (rss : ReplicatedStatefulSet)
    (w : World) : World :=
  match setup env kube (w.handed rss) with
  | (some err, w) =>
      { w with
        sys :=
          if w.sys.c.status.phase = .failed then w.sys
          else (updateCRStatus env "setup"
            ((w.sys.setReason err.text).setPhase .failed)).2
        requests := w.requests + 1
        alive := false }
  | (none, w) =>
      { w with
        sys := (updateCRStatus env "initial" (w.sys.setPhase .running)).2
        requests := w.requests + 1
        alive := true }

-- =============================================================== steps

/-- What happens next to a cluster. -/
inductive WorldStep where
  | timer (fuel : Nat) (poll : Poll)
  | event (rss : ReplicatedStatefulSet)
  | restart (rss : ReplicatedStatefulSet)

/-- The event branch of `run`: a handler that fails ends the loop. -/
def eventBranch (env : Env) (kube : Kube) (rss : ReplicatedStatefulSet)
    (w : World) : World :=
  match handleUpdateEvent env kube rss w with
  | (none, w) => w
  | (some err, w) =>
      { w with
        sys := (reportFailedStatus env (w.sys.setReason err.text)).2
        alive := false }

/-- The timer branch of `run`: a pass that panics or does not come back
ends the loop. -/
def timerBranch (env : Env) (fuel : Nat) (poll : Poll) (w : World) :
    World :=
  let o := tick env fuel poll w.sys
  { w with sys := o.state, alive := o.returned }

def WorldStep.step (env : Env) (kube : Kube) (w : World) :
    WorldStep → World
  | .timer fuel poll => if w.alive then timerBranch env fuel poll w else w
  | .event rss => if w.alive then eventBranch env kube rss w else w
  | .restart rss => launch env kube rss w

/-- A run, through any number of operator processes. -/
def World.run (env : Env) (kube : Kube) (w : World)
    (steps : List WorldStep) : World :=
  steps.foldl (WorldStep.step env kube) w

/-- Every step of a run meets the condition `C` in the state it is taken
in. -/
def EveryStep (env : Env) (kube : Kube) (C : World → WorldStep → Prop) :
    World → List WorldStep → Prop
  | _, [] => True
  | w, i :: is => C w i ∧ EveryStep env kube C (i.step env kube w) is

/-- A resource nobody has handled yet. -/
def World.fresh (rss : ReplicatedStatefulSet) : World where
  sys := Sys.start rss
  sts := none
  resizes := []
  patches := 0
  requests := 0
  alive := false

-- ====================================================== concrete inputs

/-- Kubernetes does what it is asked to. -/
def Kube.obliging : Kube where
  tls := fun _ => none
  create := fun _ => ⟨none, none, none, none, none⟩
  update := fun _ => ⟨none, none, none⟩

/-- The resource as the API server stores it, after a user has edited
its spec. -/
def World.edited (spec : ClusterSpec) (w : World) : ReplicatedStatefulSet :=
  { w.sys.stored with spec := spec }

end RssOperator
