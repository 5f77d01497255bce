/-
The state of one cluster loop and the calls by which it touches the
world (`pkg/cluster`: `cluster.go`, `exec.go`, `error.go`, and the
per-member operations of `replicate.go` and `reconcile.go`).

# The system

`Cluster` is the struct of the source: the custom resource it holds,
its own status record and `peers`, which is nil until the first
reconciliation. `Sys` puts it into its surroundings: the resource
stored in the API server, three counters that number the calls made so
far, and the trace of those calls, newest first. A trace entry for a
command or a deletion keeps the member set as it was when the call was
made; "the member had these flags when the command was issued" is then
a fact about one entry.

# The environment

`Env` answers calls by their number: the n-th command, the n-th `range`
over a map, the n-th of all other calls. Quantifying over `Env` is
quantifying over every sequence of command results, every pattern of
API failures and every iteration order.

# Sharing

`newCluster.Status = c.status` copies a struct, so the two condition
slices have one backing array until the API server hands back a fresh
object. `shared` records that, and the condition operations write to
both sides while it is set. Whether an `append` moved the slice to a new
array depends on its capacity, which the environment decides (`grow`).
-/
import RssOperator.Lib.Loop
import RssOperator.Member
import RssOperator.Exec

namespace RssOperator

-- ============================================================== errors

/-- The errors of the API client that the operator tells apart. -/
inductive ApiErr where
  | notFound
  | conflict
  | other (text : String)
deriving DecidableEq, Repr

def ApiErr.text : ApiErr → String
  | notFound => "not found"
  | conflict => "conflict"
  | other text => text

/-- The error values of the cluster loop, one constructor a format
string. -/
inductive Err where
  | api (e : ApiErr)
  | application (action : CommandKey) (pod cause : String)
  | remapped
  | noKnownPeers
  | noSeedPeers
  | noFurtherPeers
  | noPrimaries
  | waitingForStop (n : Int)
  | waitingForPods (n : Int)
  | bootstrapping (cause : String)
  | bootstrappingFrom (seeds version : Nat) (cause : String)
  | deletionAfterFailures (pod : String) (failures : Nat)
  | deletionAfterStop (pod cause : String)
  | couldNotDelete (pod extra : String)
  | statusUpdate (caller cause : String)
deriving DecidableEq, Repr

def Err.text : Err → String
  | api e => e.text
  | application action pod cause =>
      "Application " ++ action.text ++ " on pod " ++ pod ++ " failed: "
        ++ cause
  | remapped => "remapped from 0"
  | noKnownPeers => "No known peers"
  | noSeedPeers => "No seed peers available"
  | noFurtherPeers => "No further peers available"
  | noPrimaries => "No primaries remaining"
  | waitingForStop n =>
      "Waiting for " ++ toString n ++ " peers to be stopped"
  | waitingForPods n =>
      "Waiting for " ++ toString n
        ++ " additional peer containers to be available before seeding"
  | bootstrapping cause => "Bootstrapping failed: " ++ cause
  | bootstrappingFrom seeds version cause =>
      "Bootstrapping from " ++ toString seeds
        ++ " possible seeds with version " ++ toString version
        ++ " failed: " ++ cause
  | deletionAfterFailures pod failures =>
      pod ++ " deletion after " ++ toString failures ++ " failures"
  | deletionAfterStop pod cause =>
      pod ++ " deletion after stop failure: " ++ cause
  | couldNotDelete pod extra =>
      "reconcile: could not delete pod " ++ pod ++ "%!(EXTRA " ++ extra
        ++ ")"
  | statusUpdate caller cause =>
      caller ++ ": failed to update CR status: " ++ cause

/-- `apierrors.IsNotFound`: an API status error itself, not an error
whose text embeds one. -/
def isNotFound : Err → Bool
  | .api .notFound => true
  | _ => false

/-- `apierrors.IsConflict`. -/
def isConflict : Err → Bool
  | .api .conflict => true
  | _ => false

def appendNonNil (errors : List Err) : Option Err → List Err
  | none => errors
  | some err => if err.text = "" then errors else errors ++ [err]

def appendAllNonNil (errors other : List Err) : List Err :=
  other.foldl (fun errors err => appendNonNil errors (some err)) errors

/-- The text of `combineErrors`, as `%v` prints it. -/
def combineErrors (errors : List Err) : String :=
  if errors = [] then "<nil>"
  else "[" ++ String.intercalate ", " (errors.map Err.text) ++ "]"

-- ===================================================== calls and traces

/-- A command as the operator issues it. A start knows whether the
member is to be a primary, which its key does not always tell. -/
inductive Call where
  | status
  | sequence
  | stop
  | start (key : CommandKey) (asPrimary : Bool)
deriving DecidableEq, Repr

def Call.action : Call → CommandKey
  | status => .status
  | sequence => .sequence
  | stop => .stop
  | start key _ => key

/-- One call to the world, with the member set it was made on where the
call is about a member. -/
inductive Event where
  /-- A command on the pod of the member under `key`. -/
  | exec (call : Call) (key pod : String) (args : List String)
      (peers : MemberSet) (answer : ExecAnswer)
  /-- A deletion of the pod of the member under `key`. -/
  | delete (key : String) (peers : MemberSet) (ok : Bool)
  /-- A patch of the active-member label. -/
  | tag (key : String) (online ok : Bool)
  /-- An `Update` of the resource, with the status it carries. -/
  | update (status : ClusterStatus) (err : Option ApiErr)
  /-- A `Get` of the resource. -/
  | get (err : Option ApiErr)

/-- What the world answers. -/
structure Env where
  exec : Nat → Call → String → ExecAnswer
  order : Nat → Order String
  delete : Nat → String → Option String
  tag : Nat → String → Option String
  update : Nat → Option ApiErr
  get : Nat → Except ApiErr ReplicatedStatefulSet
  now : Nat → String
  grow : Nat → Bool

-- =============================================================== state

/-- The in-memory state of the cluster loop. -/
structure Cluster where
  rss : ReplicatedStatefulSet
  status : ClusterStatus
  peers : Option MemberSet
  /-- `rss.Status.Conditions` and `status.Conditions` are slices of one
  array. -/
  shared : Bool

/-- The cluster loop in its surroundings. -/
structure Sys where
  c : Cluster
  /-- The resource as the API server stores it. -/
  stored : ReplicatedStatefulSet
  /-- Commands run so far. -/
  execs : Nat
  /-- `range` loops run so far. -/
  orders : Nat
  /-- All other calls made so far. -/
  calls : Nat
  trace : List Event

namespace Sys

/-- The member set; a nil map reads as an empty one. -/
def members (s : Sys) : MemberSet := s.c.peers.getD ∅

def spec (s : Sys) : ClusterSpec := s.c.rss.spec

def setPeers (ms : MemberSet) (s : Sys) : Sys :=
  { s with c := { s.c with peers := some ms } }

/-- Write through the pointer of the member under `k`. -/
def update (k : String) (f : Member → Member) (s : Sys) : Sys :=
  { s with c := { s.c with peers := s.c.peers.map (GoMap.modify k f) } }

/-- The order of the next `range` loop. -/
def order (env : Env) (s : Sys) : Order String := env.order s.orders

/-- `n` more `range` loops have been run. -/
def ranged (n : Nat) (s : Sys) : Sys := { s with orders := s.orders + n }

/-- A call that is answered from the third counter. -/
def called (e : Event) (s : Sys) : Sys :=
  { s with calls := s.calls + 1, trace := e :: s.trace }

end Sys

-- ============================================================ commands

/-- Host names of the current primaries, in visiting order. -/
def appendPrimaries (rss : ReplicatedStatefulSet) (peers : MemberSet)
    (o : Order String) (cmd : List String) : List String :=
  (peers.rangeEntries o).foldl
    (fun cmd e =>
      if e.2.online && e.2.appPrimary then
        cmd ++ [e.2.name ++ "." ++ rss.serviceName]
      else cmd) cmd

/-- Result of `Cluster.execute`. -/
structure Executed where
  stdout : String
  stderr : String
  err : Option Err
  rc : Int

/-- `c.execute(action, podName, silent)` for the member under `k`. -/
def execute (env : Env) (call : Call) (k podName : String) (s : Sys) :
    Executed × Sys :=
  let cmd := ((s.spec.commands call.action).map (·.command)).getD []
  let args := appendPrimaries s.c.rss s.members (s.order env) cmd
  let answer := env.exec s.execs call podName
  let r := execWithOptions "" answer
  let s' := { s.ranged 1 with
    execs := s.execs + 1
    trace := .exec call k podName args s.members answer :: s.trace }
  match r.err with
  | some err =>
      (⟨r.stdout, r.stderr, some (.application call.action podName err),
        parseExitCode (some err)⟩, s')
  | none => (⟨r.stdout, r.stderr, none, 0⟩, s')

/-- Patch the active-member label of a pod. Its callers drop the
error. -/
def tagAppMember (env : Env) (k : String) (online : Bool) (s : Sys) :
    Option String × Sys :=
  let err := env.tag s.calls k
  (err, s.called (.tag k online err.isNone))

/-- Which command starts a member. -/
def startCommand (spec : ClusterSpec) (asPrimary : Bool) (primaries : Int) :
    CommandKey :=
  if asPrimary && primaries == 0 then
    if (spec.commands .seed).isSome then .seed else .primary
  else if !asPrimary then
    if (spec.commands .secondary).isSome then .secondary else .primary
  else .primary

/-- Start the application on the member under `k`. -/
def startAppMember (env : Env) (k : String) (asPrimary : Bool) (s : Sys) :
    Option Err × Sys :=
  match s.members.lookup k with
  | none => (none, s)
  | some m =>
      let action := startCommand s.spec asPrimary s.members.appPrimaries
      let (r, s₁) := execute env (.start action asPrimary) k m.name s
      match r.err with
      | some err => (some err, s₁.update k Member.noteFailure)
      | none =>
          let s₂ := s₁.update k (Member.noteStarted asPrimary)
          (none, (tagAppMember env k true s₂).2)

/-- Stop the application on the member under `k`. -/
def stopAppMember (env : Env) (k : String) (s : Sys) : Option Err × Sys :=
  match s.members.lookup k with
  | none => (none, s)
  | some m =>
      let (_, s₁) := tagAppMember env k false s
      let (r, s₂) := execute env .stop k m.name s₁
      match r.err with
      | some err => (some err, s₂.update k Member.noteFailure)
      | none => (none, s₂.update k Member.noteStopped)

/-- Delete the pod of the member under `k`. -/
def deleteMember (env : Env) (k : String) (s : Sys) : Option Err × Sys :=
  match s.members.lookup k with
  | none => (none, s)
  | some m =>
      match env.delete s.calls m.name with
      | some extra =>
          (some (.couldNotDelete m.name extra),
            s.called (.delete k s.members false))
      | none =>
          (none, (s.called (.delete k s.members true)).update k
            Member.offline)

end RssOperator
