/-
The controller: informer notifications, and the Clusters it creates,
updates and deletes (`pkg/controller`).

# What it keeps

`c.clusters` maps the name of a resource to its Cluster. A Cluster is
known here by its number, in the order of creation. Besides the map, what
matters of a Cluster is whether its `stopCh` is closed: a second `close`
ends the process.

# Calls

Handling an event makes at most one call: `New`, or `Update` or `Delete`
of the Cluster found in the map. It is part of the result. What `Update`
does to the Cluster is not looked at here.

# Metrics

The metrics are variables of the package. Handling an event moves them,
so they are kept with the controller. The gauge is a whole number here.

# Before the type of the event

A failed status and an invalid spec are dealt with before the type of the
event is looked at, so a deletion may end there too.
-/
import RssOperator.Run
import RssOperator.Validate

namespace RssOperator

-- =============================================================== events

/-- `kwatch.EventType`. -/
inductive EventType where
  | added | modified | deleted
deriving DecidableEq, Repr

def EventType.text : EventType → String
  | added => "ADDED"
  | modified => "MODIFIED"
  | deleted => "DELETED"

/-- What handling an event returns, and the informer's handlers log. -/
inductive ControllerErr where
  | ignoringFailed (name : String)
  | invalidSpec (err : ValidateErr)
  | createdBefore (name : String) (type : EventType)
  | neverCreated (name : String) (type : EventType)
deriving DecidableEq, Repr

def ControllerErr.text : ControllerErr → String
  | ignoringFailed name =>
      "Ignoring failed cluster (" ++ name ++ "). Please delete its CR"
  | invalidSpec err => "Invalid cluster spec: " ++ err.text
  | createdBefore name type =>
      "Unsafe state. Cluster (" ++ name
        ++ ") was created before but we received event (" ++ type.text
        ++ ")"
  | neverCreated name type =>
      "Unsafe state. Cluster (" ++ name
        ++ ") was never created but we received event (" ++ type.text ++ ")"

-- =========================================================== controller

/-- The metrics of `metrics.go`. -/
structure Metrics where
  /-- A gauge: the clusters managed by the controller. -/
  clustersTotal : Int := 0
  clustersCreated : Nat := 0
  clustersDeleted : Nat := 0
  clustersModified : Nat := 0
  clustersFailed : Nat := 0
deriving DecidableEq, Repr

namespace Metrics

/-- `clustersFailed.Inc()`. -/
def incFailed (m : Metrics) : Metrics :=
  { m with clustersFailed := m.clustersFailed + 1 }

/-- `clustersCreated.Inc()` and `clustersTotal.Inc()`. -/
def incCreated (m : Metrics) : Metrics :=
  { m with
    clustersCreated := m.clustersCreated + 1
    clustersTotal := m.clustersTotal + 1 }

/-- `clustersModified.Inc()`. -/
def incModified (m : Metrics) : Metrics :=
  { m with clustersModified := m.clustersModified + 1 }

/-- `clustersDeleted.Inc()` and `clustersTotal.Dec()`. -/
def incDeleted (m : Metrics) : Metrics :=
  { m with
    clustersDeleted := m.clustersDeleted + 1
    clustersTotal := m.clustersTotal - 1 }

end Metrics

structure Controller where
  /-- The Cluster of each name. -/
  clusters : GoMap String Nat
  /-- How many Clusters have been created; the next one's number. -/
  created : Nat
  /-- The Clusters whose `stopCh` is closed. -/
  stopped : List Nat
  metrics : Metrics

/-- `controller.New(cfg)`. -/
def Controller.new : Controller := ⟨∅, 0, [], {}⟩

/-- A call on a Cluster. -/
inductive ClusterCall where
  | new (id : Nat) (rss : ReplicatedStatefulSet)
  | update (id : Nat) (rss : ReplicatedStatefulSet)
  | delete (id : Nat)

/-- The error an event ends with, the call it makes, and the controller
after it. -/
structure EventResult where
  err : Option ControllerErr
  call : Option ClusterCall
  next : Controller

/-- `c.clusters[clus.Name].Delete()`, and the entry is removed. -/
def Controller.retire (name : String) (id : Nat) (c : Controller) :
    Except Fault EventResult :=
  if id ∈ c.stopped then .error .closeOfClosedChannel
  else .ok ⟨none, some (.delete id),
    { c with
      clusters := c.clusters.erase name
      stopped := id :: c.stopped
      metrics := c.metrics.incDeleted }⟩

/-- `c.handleClusterEvent(event)`. -/
def handleClusterEvent (o : Order String) (type : EventType)
    (clus : ReplicatedStatefulSet) (c : Controller) :
    Except Fault EventResult :=
  if clus.status.phase = .failed then
    let c := { c with metrics := c.metrics.incFailed }
    if type = .deleted then
      .ok ⟨none, none,
        { c with clusters := c.clusters.erase clus.name }⟩
    else .ok ⟨some (.ignoringFailed clus.name), none, c⟩
  else
    let clus := clus.cleaned
    match clus.validate o with
    | .error fault => .error fault
    | .ok (some err) => .ok ⟨some (.invalidSpec err), none, c⟩
    | .ok none =>
        match type, c.clusters.lookup clus.name with
        | .added, some _ =>
            .ok ⟨some (.createdBefore clus.name type), none, c⟩
        | .added, none =>
            .ok ⟨none, some (.new c.created clus),
              { c with
                clusters := c.clusters.insert clus.name c.created
                created := c.created + 1
                metrics := c.metrics.incCreated }⟩
        | .modified, some id =>
            .ok ⟨none, some (.update id clus),
              { c with metrics := c.metrics.incModified }⟩
        | .deleted, some id => c.retire clus.name id
        | _, none => .ok ⟨some (.neverCreated clus.name type), none, c⟩

-- ============================================================= informer

/-- What the informer hands over: a resource, the last known state of one
whose deletion was missed, or something else. -/
inductive InformerObject where
  | rss (clus : ReplicatedStatefulSet)
  | tombstone (obj : Option ReplicatedStatefulSet)
  | other

/-- `c.syncEtcdClus(clus)`: whether it is an addition is decided by the
map. -/
def syncEtcdClus (o : Order String) (clus : ReplicatedStatefulSet)
    (c : Controller) : Except Fault EventResult :=
  let type : EventType :=
    if (c.clusters.lookup clus.name).isSome then .modified else .added
  handleClusterEvent o type clus c

/-- `c.onAddEtcdClus(obj)`. -/
def onAddEtcdClus (o : Order String) (obj : InformerObject)
    (c : Controller) : Except Fault EventResult :=
  match obj with
  | .rss clus => syncEtcdClus o clus c
  | _ => .error .unknownObject

/-- `c.onUpdateEtcdClus(oldObj, newObj)`; the old object is not read. -/
def onUpdateEtcdClus (o : Order String) (newObj : InformerObject)
    (c : Controller) : Except Fault EventResult :=
  match newObj with
  | .rss clus => syncEtcdClus o clus c
  | _ => .error .unknownObject

/-- The resource a deletion is about. -/
def InformerObject.deleted : InformerObject → Option ReplicatedStatefulSet
  | .rss clus => some clus
  | .tombstone obj => obj
  | .other => none

/-- `c.onDeleteEtcdClus(obj)`. -/
def onDeleteEtcdClus (o : Order String) (obj : InformerObject)
    (c : Controller) : Except Fault EventResult :=
  match obj.deleted with
  | some clus => handleClusterEvent o .deleted clus c
  | none => .error .unknownObject

inductive NoticeKind where
  | add | update | delete
deriving DecidableEq, Repr

/-- A notification. `order` is the order of the labels, should they be
looked at. -/
structure Notice where
  kind : NoticeKind
  obj : InformerObject
  order : Order String

def Notice.handle (n : Notice) (c : Controller) : Except Fault EventResult :=
  match n.kind with
  | .add => onAddEtcdClus n.order n.obj c
  | .update => onUpdateEtcdClus n.order n.obj c
  | .delete => onDeleteEtcdClus n.order n.obj c

-- ============================================================== history

/-- What the controller has come to, and the calls it has made on the
way, newest first, each with the controller that made it. -/
structure History where
  now : Controller
  calls : List (Controller × ClusterCall)
  fault : Option Fault

/-- The history before the first notification. -/
def History.start : History := ⟨.new, [], none⟩

/-- After a fault there is no process to notify. -/
def History.step (h : History) (n : Notice) : History :=
  match h.fault with
  | some _ => h
  | none =>
      match n.handle h.now with
      | .error fault => { h with fault := some fault }
      | .ok r =>
          { now := r.next
            calls := match r.call with
              | none => h.calls
              | some call => (h.now, call) :: h.calls
            fault := none }

def History.run (h : History) (notices : List Notice) : History :=
  notices.foldl History.step h

-- ====================================================== concrete inputs

/-- A resource that is well formed. -/
def ReplicatedStatefulSet.wellFormed (phase : ClusterPhase) :
    ReplicatedStatefulSet :=
  { ReplicatedStatefulSet.sized 3 1 with
    spec := { (ReplicatedStatefulSet.sized 3 1).spec with
      containers := [{ name := "app", image := "image" }] }
    status := { ClusterStatus.empty with phase := phase } }

end RssOperator
