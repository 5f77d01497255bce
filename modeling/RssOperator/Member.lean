/-
Members and member sets, from `pkg/util/member.go`.

# Keys and names

A `MemberSet` is a Go `map[string]*Member`. Nothing in the type ties
the key of an entry to the `Name` in the member it points to, and the
source uses both: `range` loops write through the pointer of the entry
they visit, while `result[m.Name]` looks a second entry up by name. The
model keeps the two apart: an entry is identified by its key, and a
lookup by name that finds nothing is a nil dereference.

# Counters

`SEQ` and `Failures` are `uint64`. `SEQ` is only ever compared and
copied; `Failures` is incremented, modulo `2 ^ 64`. The counting
functions return `int32` in the source and `Int` here: a set with
`2 ^ 31` entries has no counterpart in the cluster, whose own replica
count is an `int32`.
-/
import Mathlib.Algebra.Ring.Nat
import RssOperator.Lib.GoMap

namespace RssOperator

-- ============================================================= members

structure Member where
  name : String
  nameSpace : String := ""
  seq : Nat := 0
  failures : Nat := 0
  online : Bool := false
  appPrimary : Bool := false
  appRunning : Bool := false
  appFailed : Bool := false
  securePeer : Bool := false
  secureClient : Bool := false
deriving DecidableEq, Repr

namespace Member

/-- The field-by-field copy of the source. It leaves out the namespace
and the two TLS flags, which come back as zero values. -/
def copy (m : Member) : Member where
  name := m.name
  online := m.online
  appPrimary := m.appPrimary
  appRunning := m.appRunning
  appFailed := m.appFailed
  failures := m.failures
  seq := m.seq

/-- Note that the pod is gone. The failure count stays. -/
def offline (m : Member) : Member :=
  { m with
    online := false, appPrimary := false, appRunning := false,
    appFailed := false, seq := 0 }

/-- What a failed start or stop command leaves behind. -/
def noteFailure (m : Member) : Member :=
  { m with appFailed := true, failures := (m.failures + 1) % 2 ^ 64 }

/-- What a successful start command leaves behind. -/
def noteStarted (asPrimary : Bool) (m : Member) : Member :=
  { m with appPrimary := asPrimary, appRunning := true, appFailed := false }

/-- What a successful stop command leaves behind. -/
def noteStopped (m : Member) : Member :=
  { m with appPrimary := false, appRunning := false, appFailed := false }

/-- Counted by `AppPrimaries`. -/
def isPrimary (m : Member) : Bool := m.online && m.appPrimary && m.appRunning

/-- Counted by `AppMembers`. -/
def isRunning (m : Member) : Bool := m.online && m.appRunning

/-- Considered by the two functions that choose a member to start. -/
def eligible (m : Member) : Bool :=
  m.online && !m.appFailed && !m.appPrimary

end Member

-- =========================================================== addresses

/-- What comes before the last dash. -/
def beforeLastDash : List Char → Option (List Char)
  | [] => none
  | c :: s =>
      match beforeLastDash s with
      | some front => some (c :: front)
      | none => if c = '-' then some [] else none

/-- The set a member's name says it belongs to; a name without a dash is a
panic. -/
def clusterNameFromMemberName (mn : String) : Option String :=
  (beforeLastDash mn.toList).map String.ofList

def scheme (secure : Bool) : String := if secure then "https" else "http"

namespace Member

def addr (m : Member) : Option String :=
  (clusterNameFromMemberName m.name).map fun set =>
    m.name ++ "." ++ set ++ "." ++ m.nameSpace ++ ".svc"

def clientScheme (m : Member) : String := scheme m.secureClient

def peerScheme (m : Member) : String := scheme m.securePeer

def clientURL (m : Member) : Option String :=
  m.addr.map fun addr => m.clientScheme ++ "://" ++ addr ++ ":2379"

def peerURL (m : Member) : Option String :=
  m.addr.map fun addr => m.peerScheme ++ "://" ++ addr ++ ":2380"

def listenClientURL (m : Member) : String :=
  m.clientScheme ++ "://0.0.0.0:2379"

def listenPeerURL (m : Member) : String :=
  m.peerScheme ++ "://0.0.0.0:2380"

end Member

-- ========================================================= member sets

abbrev MemberSet : Type := GoMap String Member

namespace MemberSet

def appPrimaries (ms : MemberSet) : Int := ms.count Member.isPrimary

def appMembers (ms : MemberSet) : Int := ms.count Member.isRunning

def activeMembers (ms : MemberSet) : Int := ms.count Member.online

def copy (ms : MemberSet) : MemberSet := ms.mapVals fun _ m => m.copy

/-- `Add`: a member goes in under its own name. -/
def add (m : Member) (ms : MemberSet) : MemberSet := ms.insert m.name m

/-- `NewMemberSet`. -/
def ofMembers (ms : List Member) : MemberSet :=
  ms.foldl (fun set m => set.add m) ∅

/-- The members of `ms` that are not members of `other`. -/
def diff (ms other : MemberSet) : MemberSet :=
  ms.filterKeys fun n => (other.lookup n).isNone

/-- As `diff`, and those on whose presence the two sets disagree. -/
def diffExtended (ms other : MemberSet) : MemberSet :=
  ms.filterKeys fun n =>
    match other.lookup n, ms.lookup n with
    | none, _ => true
    | some o, some m => o.online != m.online
    | some _, none => false

-- =========================================================== reconcile

/-- First loop of `Reconcile`: members nobody knew about. -/
def addAppeared (running result : MemberSet) (n : String) : MemberSet :=
  match result.lookup n, running.lookup n with
  | none, some appeared => result.insert n appeared.copy
  | _, _ => result

/-- Second loop: `result[m.Name].Online = true`. -/
def markOnline (newMembers : MemberSet) (result : Option MemberSet)
    (n : String) : Option MemberSet := do
  let result ← result
  let m ← newMembers.lookup n
  let _ ← result.lookup m.name
  return result.modify m.name fun m => { m with online := true }

/-- Third loop. The entries of `lostMembers` are the very pointers of
`result`, so the member is read from `result` when it is visited. -/
def markLost (running : MemberSet) (max : Int) (result : Option MemberSet)
    (n : String) : Option MemberSet := do
  let result ← result
  let m ← result.lookup n
  match result.lookup m.name with
  | none =>
      if (running.size : Int) ≤ max then
        return result.insert m.name m.copy.offline
      else none
  | some _ => return result.modify m.name Member.offline

/-- `ms.Reconcile(running, max)`: new members come in, known members
that run are online, known members that do not are offline. The three
orders are those of its three `range` loops; `none` is a nil
dereference. -/
def reconcile (ms running : MemberSet) (max : Int)
    (appeared new lost : Order String) : Option MemberSet :=
  let result := (running.range appeared).foldl (addAppeared running) ms.copy
  let lostMembers := result.diff running
  let newMembers := running.diffExtended ms
  let result :=
    (newMembers.range new).foldl (markOnline newMembers) (some result)
  (lostMembers.range lost).foldl (markLost running max) result

end MemberSet

end RssOperator
