/-
Setting a cluster up, one request at a time, with other processes around.

# The goroutine of `New`

`launch` (Update.lean) is this goroutine up to its loop, in one go. Here it
stops at every request it sends: to read the TLS secret, to announce the
phase `Creating`, to look for the service and to create or update it, to
create the secret and the StatefulSet, and to write the phase it ends in. A
`Point` says which request is next. A request may be refused by the server,
or not be sent because what it would carry cannot be built.

# Around it

A resource may be set up by several processes at a time: one that is
killed, or that has lost its lease and not noticed, and the next one. Each
starts with a version of the resource it has been notified of, which need
not be the last. Between any two requests a user may edit the resource,
and others may write or remove the objects. The copies of the resource and
the writes to it are those of Versions.lean.
-/
import RssOperator.Update
import RssOperator.Versions

namespace RssOperator

-- ============================================================== points

/-- What `create` leaves behind, in the order it does. -/
inductive Object where
  /-- The phase `Creating` in the resource. -/
  | phase
  | service
  | secret
  | sts
deriving DecidableEq, Repr

/-- Why a request fails. -/
inductive Trouble where
  /-- What it would carry cannot be built. -/
  | unbuilt (cause : String)
  | refused (err : ApiErr)

def Trouble.text : Trouble → String
  | unbuilt cause => cause
  | refused err => err.text

/-- The request the goroutine sends next. -/
inductive Point where
  | tls
  | phase
  | getService
  | createService
  /-- With the `ResourceVersion` that was read. -/
  | updateService (version : Nat)
  | secret
  | sts
  /-- The one that reports the failure. -/
  | failing (err : LoopErr)
  /-- The one at the start of `run`. -/
  | initial
  /-- In the loop of `run`. -/
  | running
  /-- It has returned, or its process has been killed. -/
  | gone

/-- `c.setup()`, up to its first request. -/
def Point.first (tls : Option TLSPolicy) (phase : ClusterPhase) : Point :=
  let secured (next : Point) : Point :=
    if isSecureClient tls then .tls else next
  match phase with
  | .none => secured .phase
  | .creating => .failing .createdCluster
  | .running => secured .initial
  | phase => .failing (.unexpectedPhase phase)

/-- The error of a `Holder.write`. A write that is not of the current
version is a conflict. -/
def Holder.writeErr (trouble : Option Trouble)
    (store : VersionStore ReplicatedStatefulSet) (h : Holder) :
    Option String :=
  if h.held.value.status = h.status then none
  else
    match trouble with
    | some t => some t.text
    | none =>
        if h.held.version = store.version then none
        else some ApiErr.conflict.text

-- =============================================================== state

/-- A resource, the objects made for it, and the goroutines that set it
up. -/
structure Creation where
  versions : Versions
  points : Nat → Option Point
  /-- The version of the service. -/
  service : Option Nat
  secret : Bool
  /-- The replica count of the StatefulSet. -/
  sts : Option Int
  /-- What has been made, by which goroutine, newest first. -/
  made : List (Nat × Object)

namespace Creation

/-- A resource as a user has created it. -/
def fresh (rss : ReplicatedStatefulSet) : Creation :=
  ⟨.created rss, fun _ => none, none, false, none, []⟩

def move (id : Nat) (p : Point) (s : Creation) : Creation :=
  { s with points := Function.update s.points id (some p) }

def make (id : Nat) (o : Object) (s : Creation) : Creation :=
  { s with made := (id, o) :: s.made }

/-- `c.updateCRStatus(..)` with the given status. -/
def updateCRStatus (id : Nat) (h : Holder) (status : ClusterStatus)
    (trouble : Option Trouble) (s : Creation) : Option String × Creation :=
  let h := { h with status := status }
  let w := h.write trouble.isSome s.versions.store
  (h.writeErr trouble s.versions.store,
    { s with versions := { s.versions with store := w.1 }.setHolder id w.2 })

def announcePhase (id : Nat) (h : Holder) (trouble : Option Trouble)
    (s : Creation) : Creation :=
  match s.updateCRStatus id h { h.status with phase := .creating }
      trouble with
  | (some cause, s) =>
      s.move id (.failing (.clusterPhase .creating
        (Err.statusUpdate "create" cause).text))
  | (none, s) => (s.make id .phase).move id .getService

/-- `k8sutil.CreateOrUpdateService(..)`: its `Get`. -/
def getService (id : Nat) (trouble : Option Trouble) (s : Creation) :
    Creation :=
  let create := s.move id .createService
  match trouble with
  | some (.refused .notFound) => create
  | some t =>
      s.move id (.failing (.internalService
        ("retrieving service object failed: " ++ t.text)))
  | none =>
      match s.service with
      | none => create
      | some version => s.move id (.updateService version)

/-- Its `Create`. -/
def createService (id : Nat) (trouble : Option Trouble) (s : Creation) :
    Creation :=
  let fail (cause : String) : Creation :=
    s.move id (.failing (.internalService
      ("creating service object failed: " ++ cause)))
  match trouble, s.service with
  | some t, _ => fail t.text
  | none, some _ => fail "already exists"
  | none, none =>
      ({ s with service := some 0 }.make id .service).move id .secret

/-- Its `Update`. It does not mind if the service is gone. -/
def updateService (id version : Nat) (trouble : Option Trouble)
    (s : Creation) : Creation :=
  let fail (cause : String) : Creation :=
    s.move id (.failing (.internalService
      ("updating service object failed: " ++ cause)))
  let done (s : Creation) : Creation := (s.make id .service).move id .secret
  match trouble, s.service with
  | some (.refused .notFound), _ => done s
  | some t, _ => fail t.text
  | none, none => done s
  | none, some current =>
      if version = current then done { s with service := some (current + 1) }
      else fail ApiErr.conflict.text

/-- A secret that exists already will do. -/
def createSecret (id : Nat) (trouble : Option Trouble) (s : Creation) :
    Creation :=
  match trouble with
  | some (.unbuilt cause) => s.move id (.failing (.emptyConfig cause))
  | some (.refused err) => s.move id (.failing (.emptyConfigFile err.text))
  | none => ({ s with secret := true }.make id .secret).move id .sts

def createSts (id : Nat) (h : Holder) (trouble : Option Trouble)
    (s : Creation) : Creation :=
  match trouble, s.sts with
  | some (.unbuilt cause), _ => s.move id (.failing (.stsDefinition cause))
  | some (.refused err), _ => s.move id (.failing (.creatingSts err.text))
  | none, some _ => s.move id (.failing (.creatingSts "already exists"))
  | none, none =>
      ({ s with sts := some h.held.value.spec.getNumReplicas }.make id
        .sts).move id .initial

/-- What `New` does about a setup that has failed. -/
def reportSetup (id : Nat) (h : Holder) (err : LoopErr)
    (trouble : Option Trouble) (s : Creation) : Creation :=
  if h.status.phase = .failed then s.move id .gone
  else
    (s.updateCRStatus id h
      { h.status with reason := err.text, phase := .failed }
      trouble).2.move id .gone

/-- One request of a goroutine, with the trouble it meets. -/
def act (id : Nat) (trouble : Option Trouble) (s : Creation) : Creation :=
  match s.versions.holders id, s.points id with
  | some h, some .tls =>
      match trouble with
      | some t => s.move id (.failing (.tls t.text))
      | none =>
          s.move id (if h.status.phase = .none then .phase else .initial)
  | some h, some .phase => s.announcePhase id h trouble
  | some _, some .getService => s.getService id trouble
  | some _, some .createService => s.createService id trouble
  | some _, some (.updateService version) =>
      s.updateService id version trouble
  | some _, some .secret => s.createSecret id trouble
  | some h, some .sts => s.createSts id h trouble
  | some h, some (.failing err) => s.reportSetup id h err trouble
  | some h, some .initial =>
      (s.updateCRStatus id h { h.status with phase := .running }
        trouble).2.move id .running
  | _, _ => s

-- =============================================================== steps

end Creation

/-- What a loop does to its copies. It never has the empty phase. -/
def VersionStep.ofLoop (id : Nat) : VersionStep → Bool
  | .assign id' status _ => decide (id' = id ∧ status.phase ≠ .none)
  | .take id' | .write id' _ | .fetch id' => decide (id' = id)
  | .edit _ | .start .. | .deliver .. => false

inductive CreationStep where
  /-- A process starts with a version of the resource. -/
  | launch (id version : Nat)
  | act (id : Nat) (trouble : Option Trouble)
  /-- A process is killed. -/
  | kill (id : Nat)
  /-- A loop reads or writes the resource. -/
  | loop (id : Nat) (i : VersionStep)
  | deliver (id version : Nat) (status : ClusterStatus)
  | edit (spec : ClusterSpec)
  /-- Somebody else writes the service. -/
  | touchService
  /-- Somebody else removes an object. -/
  | remove (o : Object)

namespace Creation

def remove (s : Creation) : Object → Creation
  | .phase => s
  | .service => { s with service := none }
  | .secret => { s with secret := false }
  | .sts => { s with sts := none }

def launch (id version : Nat) (s : Creation) : Creation :=
  match s.points id with
  | some _ => s
  | none =>
      let status := (s.versions.store.contents version).status
      match s.versions.notified version status with
      | none => s
      | some copy =>
          { s with
            versions := s.versions.step (.start id version status) }.move id
              (.first copy.value.spec.tls status.phase)

/-- One step; a step whose time has not come changes nothing. -/
def step (s : Creation) : CreationStep → Creation
  | .launch id version => s.launch id version
  | .act id trouble => s.act id trouble
  | .kill id =>
      match s.points id with
      | none => s
      | some _ => s.move id .gone
  | .loop id i =>
      match s.points id with
      | some .running =>
          if i.ofLoop id then { s with versions := s.versions.step i } else s
      | _ => s
  | .deliver id version status =>
      { s with versions := s.versions.step (.deliver id version status) }
  | .edit spec => { s with versions := s.versions.step (.edit spec) }
  | .touchService => { s with service := s.service.map (· + 1) }
  | .remove o => s.remove o

def run (s : Creation) (steps : List CreationStep) : Creation :=
  steps.foldl Creation.step s

end Creation

end RssOperator
