/-
The status record and its way to the API server: the condition
operations of `status.go`, `updateCRStatus`, `updateMemberStatus` and
`reportFailedStatus` of `cluster.go`, and `util.Retry`.

# What a failed write leaves behind

`updateCRStatus` assigns `c.status` to the resource it holds before it
sends it, through the pointer `c.rss` itself. When the API server
refuses, the resource is not replaced, so the operator's record of the
server's status is already the new one. `updateCRStatus` below keeps
that order of writes.
-/
import RssOperator.Cluster

namespace RssOperator

-- ========================================================== conditions

/-- Write consecutive cells of an array, as seen through a slice of
it. -/
def writeCells {α : Type} (pos : Nat) : List α → List α → List α
  | [], cells => cells
  | v :: vals, cells => writeCells (pos + 1) vals (cells.set pos v)

namespace Cluster

def setStatus (st : ClusterStatus) (c : Cluster) : Cluster :=
  { c with status := st }

/-- An in-place write to the array of `c.status.Conditions`, as seen by
the other slice of it. -/
def writeShared (pos : Nat) (vals : List ClusterCondition) (c : Cluster) :
    Cluster :=
  if c.shared then
    { c with rss := { c.rss with status := { c.rss.status with
        conditions := writeCells pos vals c.rss.status.conditions } } }
  else c

def setConditions (cs : List ClusterCondition) (c : Cluster) : Cluster :=
  c.setStatus { c.status with conditions := cs }

/-- `setClusterCondition`; `moved` says that an append had to allocate
a new array. -/
def setClusterCondition (moved : Bool) (new : ClusterCondition)
    (c : Cluster) : Cluster :=
  let cs := c.status.conditions
  match getClusterCondition cs new.type with
  | none =>
      if moved then { c.setConditions (cs ++ [new]) with shared := false }
      else (c.writeShared cs.length [new]).setConditions (cs ++ [new])
  | some pos =>
      match cs[pos]? with
      | none => c
      | some cp =>
          if cp.status = new.status ∧ cp.reason = new.reason
              ∧ cp.message = new.message then c
          else (c.writeShared pos [new]).setConditions (cs.set pos new)

/-- `ClearCondition`: the cells behind the position move down by one. -/
def clearCondition (t : ClusterConditionType) (c : Cluster) : Cluster :=
  let cs := c.status.conditions
  match getClusterCondition cs t with
  | none => c
  | some pos =>
      (c.writeShared pos (cs.drop (pos + 1))).setConditions
        (cs.eraseIdx pos)

end Cluster

namespace Sys

def mapCluster (f : Cluster → Cluster) (s : Sys) : Sys :=
  { s with c := f s.c }

def mapStatus (f : ClusterStatus → ClusterStatus) (s : Sys) : Sys :=
  s.mapCluster fun c => c.setStatus (f c.status)

/-- Set a condition now. -/
def setCondition (env : Env) (t : ClusterConditionType)
    (reason message : String) (s : Sys) : Sys :=
  let new := newClusterCondition t .isTrue reason message (env.now s.calls)
  { s.mapCluster (Cluster.setClusterCondition (env.grow s.calls) new) with
    calls := s.calls + 1 }

def setScalingUpCondition (env : Env) (fromSize toSize : Int) (s : Sys) :
    Sys :=
  s.setCondition env .scaling "Scaling up" (scalingMsg fromSize toSize)

def setScalingDownCondition (env : Env) (fromSize toSize : Int) (s : Sys) :
    Sys :=
  s.setCondition env .scaling "Scaling down" (scalingMsg fromSize toSize)

def setRecoveringCondition (env : Env) (s : Sys) : Sys :=
  (s.setCondition env .recovering "Disaster recovery"
    "Majority is down. Recovering from backup").mapCluster
      (Cluster.clearCondition .available)

def setUpgradingCondition (env : Env) (toVersion : String) (s : Sys) : Sys :=
  s.setCondition env .upgrading "Cluster upgrading"
    ("upgrading to " ++ toVersion)

def setReadyCondition (env : Env) (s : Sys) : Sys :=
  s.setCondition env .available "Cluster available" ""

end Sys

-- ====================================================== updateCRStatus

/-- Write the status to the API server if it differs from what the
operator believes is stored there. The label of the caller is part of
the error. -/
def updateCRStatus (env : Env) (caller : String) (s : Sys) :
    Option Err × Sys :=
  if s.c.rss.status = s.c.status then (none, s)
  else
    -- the resource in memory changes before it is sent
    let rss := { s.c.rss with status := s.c.status }
    match env.update s.calls with
    | some err =>
        let s' := s.mapCluster fun c => { c with rss := rss, shared := true }
        (some (.statusUpdate caller err.text),
          s'.called (.update s.c.status (some err)))
    | none =>
        -- the server answers with a fresh copy of what it stored
        let s' := s.mapCluster fun c =>
          { c with rss := rss, shared := false }
        (none, { s'.called (.update s.c.status none) with stored := rss })

/-- The lists of member names in the status. -/
def updateMemberStatus (env : Env) (running : List String) (s : Sys) :
    Sys :=
  let ms := s.members.rangeEntries (s.order env)
  let names (p : Member → Bool) :=
    (ms.filter fun e => p e.2).map fun e => e.2.name
  let present (m : Member) : Bool := running.contains m.name
  let ready (m : Member) : Bool := present m && !m.appFailed
  let s := s.ranged 1
  let s := s.mapStatus fun st => { st with
    replicas := running.length
    members :=
      { ready := running
        failed := names fun m => present m && m.appFailed
        unready := names fun m => !present m
        primary := names fun m => ready m && m.appRunning && m.appPrimary
        secondary := names fun m =>
          ready m && m.appRunning && !m.appPrimary } }
  (updateCRStatus env "updateMemberStatus" s).2

-- ================================================== reportFailedStatus

/-- `util.Retry` for a function that returns no error: call `f` until it
says it is done, once and then at most `maxRetries` times more. The
result says whether it was. -/
def retry (f : Sys → Bool × Sys) : Nat → Sys → Bool × Sys
  | 0, s => f s
  | maxRetries + 1, s =>
      match f s with
      | (true, s') => (true, s')
      | (false, s') => retry f maxRetries s'

/-- One attempt of `reportFailedStatus`. -/
def reportFailed (env : Env) (s : Sys) : Bool × Sys :=
  let s := s.mapStatus fun st => { st with phase := .failed }
  match updateCRStatus env "failed" s with
  | (none, s) => (true, s)
  | (some err, s) =>
      if isNotFound err then (true, s)
      else if !isConflict err then (false, s)
      else
        match env.get s.calls with
        | .error e => (e == .notFound, s.called (.get (some e)))
        | .ok rss =>
            (false, (s.mapCluster fun c =>
              { c with rss := rss, shared := false }).called (.get none))

/-- Report the failure, for as long as it takes. -/
def reportFailedStatus (env : Env) (s : Sys) : Bool × Sys :=
  retry (reportFailed env) (2 ^ 63 - 1) s

end RssOperator
