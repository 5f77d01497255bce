/-
Membership reconciliation, from `pkg/cluster/reconcile.go`: merge the
pods that run into `peers`, ask each of them for its status, clean up
the members that failed, and report.

Both loops range over the member set and write through the entry they
visit. The model folds over the visited keys and reads the member when
its turn comes.
-/
import RssOperator.Status

namespace RssOperator

-- ================================================================ pods

/-- What the operator reads from a pod. -/
structure Pod where
  name : String
  nameSpace : String
deriving DecidableEq, Repr

/-- A list of pods of one namespace; their names differ. -/
structure PodList where
  pods : List Pod
  nodup : (pods.map Pod.name).Nodup

def PodList.names (l : PodList) : List String := l.pods.map Pod.name

def newMember (rss : ReplicatedStatefulSet) (name nameSpace : String) :
    Member where
  name := name
  nameSpace := if nameSpace = "" then rss.nameSpace else nameSpace
  securePeer := isSecurePeer rss.spec.tls
  secureClient := isSecureClient rss.spec.tls

def podsToMemberSet (rss : ReplicatedStatefulSet) (pods : List Pod) :
    MemberSet :=
  pods.foldl
    (fun members pod => members.add
      { newMember rss pod.name pod.nameSpace with online := true }) ∅

-- ============================================================= recover

/-- One turn of `recover`. -/
def recoverMember (env : Env) (acc : List Err × Sys) (k : String) :
    List Err × Sys :=
  let (errors, s) := acc
  match s.members.lookup k with
  | none => acc
  | some m =>
      if m.appFailed && decide (1 < m.failures) then
        let errors := errors ++ [.deletionAfterFailures m.name m.failures]
        let (err, s) := deleteMember env k s
        (appendNonNil errors err, (tagAppMember env k false s).2)
      else if !m.online then acc
      else if m.appFailed then
        match stopAppMember env k s with
        | (none, s) => (errors, s)
        | (some err, s) =>
            let errors := errors ++ [.deletionAfterStop m.name err.text]
            let (err, s) := deleteMember env k s
            (appendNonNil errors err, s)
      else acc

/-- Clean up failed members: stop the application, delete the pod if
that fails or has failed before. -/
def recover (env : Env) (s : Sys) : List Err × Sys :=
  (s.members.range (s.order env)).foldl (recoverMember env)
    ([], s.ranged 1)

-- ============================================================== status

/-- The flags after a status check that came back with `rc`. -/
def Member.noteStatus (rc : Int) (m : Member) : Member :=
  if rc = 0 then { m with appRunning := true, appPrimary := false }
  else if rc = 7 then { m with appRunning := false, appPrimary := false }
  else if rc = 8 then { m with appPrimary := true, appRunning := true }
  else { m with appRunning := true, appFailed := true }

/-- Exit code and error of a status check, with 0 read as 8 where no
`secondary` command is configured. -/
def remapStatus (spec : ClusterSpec) (r : Executed) : Int × Option Err :=
  if r.rc = 0 ∧ (spec.commands .secondary).isNone then (8, some .remapped)
  else (r.rc, r.err)

/-- The error list after a status check of `m`. -/
def statusErrors (m : Member) (rc : Int) (err : Option Err)
    (errors : List Err) : List Err :=
  if rc = 0 then errors
  else if rc = 7 then
    if m.appRunning then appendNonNil errors err else errors
  else if rc = 8 then
    if m.appRunning && !m.appPrimary then appendNonNil errors err
    else errors
  else appendNonNil errors err

/-- One turn of the status loop. -/
def checkMember (env : Env) (acc : List Err × Sys) (k : String) :
    List Err × Sys :=
  let (errors, s) := acc
  match s.members.lookup k with
  | none => acc
  | some m =>
      if m.appFailed || !m.online then acc
      else
        let (r, s) := execute env .status k m.name s
        let (rc, err) := remapStatus s.spec r
        let s := s.update k (Member.noteStatus rc)
        let errors := statusErrors m rc err errors
        if (m.noteStatus rc).appFailed then
          (errors, (tagAppMember env k false s).2)
        else (errors, s)

-- =========================================================== reconcile

/-- The condition a reconciliation ends with. -/
def reportCondition (env : Env) (errors : List Err) (s : Sys) : Sys :=
  let active := s.members.activeMembers
  let replicas := s.spec.getNumReplicas
  if replicas < active then s.setScalingDownCondition env active replicas
  else if active < replicas then s.setScalingUpCondition env active replicas
  else if 0 < errors.length then s.setRecoveringCondition env
  else s.setReadyCondition env

/-- The membership merge of `reconcile`, on a map that is made if it is
still nil. -/
def mergeMembers (env : Env) (running : MemberSet) (s : Sys) :
    Option Sys :=
  (s.members.reconcile running s.spec.getNumReplicas
      (env.order s.orders) (env.order (s.orders + 1))
      (env.order (s.orders + 2))).map
    fun ms => (s.setPeers ms).ranged 3

/-- The status loop. -/
def checkMembers (env : Env) (s : Sys) : List Err × Sys :=
  (s.members.range (s.order env)).foldl (checkMember env) ([], s.ranged 1)

/-- The report a reconciliation ends with. -/
def reportReconciled (env : Env) (errors : List Err) (s : Sys) : Sys :=
  let s := reportCondition env errors s
  let s := s.mapStatus fun st => { st with replicas := s.members.size }
  (updateCRStatus env "reconcile" s).2

/-- `c.reconcile(pods)`. -/
def reconcile (env : Env) (pods : PodList) (s : Sys) :
    Outcome Sys (List Err) :=
  let running := podsToMemberSet s.c.rss pods.pods
  match mergeMembers env running s with
  | none => .panicked s
  | some s =>
      let (errors, s) := checkMembers env s
      let (recovered, s) := recover env s
      let errors := appendAllNonNil errors recovered
      .ret errors (reportReconciled env errors s)

end RssOperator
