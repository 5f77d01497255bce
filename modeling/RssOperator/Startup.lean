/-
How the operator comes up.

# `util.Retry`

A function is called until it says it is done or fails, once and then at
most `maxRetries` times more, with a tick of a `time.Ticker` in between. A
ticker sends on a channel that holds one tick, and drops those that find it
full. Times are in seconds. `retry` of Status.lean is what is left of it
where neither the time nor an error matters.

# The resource definition

Before it watches anything, the operator makes sure that the API server
knows the custom resource: it creates the definition, unless there is one,
and polls until one of its conditions settles the matter. `Start` does this
over and over, half a minute apart, and reports that it is ready when it
has got through. What the API server answers is a function of the number of
requests it has had before.
-/
import RssOperator.Api
import RssOperator.Lib.Loop

namespace RssOperator

-- ================================================================ retry

/-- A `time.Ticker`. -/
structure Ticker where
  interval : Nat
  began : Nat
  /-- The ticks that are over: received, or dropped. -/
  gone : Nat

def newTicker (interval now : Nat) : Ticker := ⟨interval, now, 0⟩

/-- `<-tick.C`: the tick that waits in the channel, or the next one. The
time is the one at which it is received. -/
def Ticker.receive (now : Nat) (tick : Ticker) : Nat × Ticker :=
  let due := (now - tick.began) / tick.interval
  if tick.gone < due then (now, { tick with gone := due })
  else (tick.began + (tick.gone + 1) * tick.interval,
    { tick with gone := tick.gone + 1 })

namespace Util

inductive RetryErr (ε : Type) where
  | limit (maxRetries : Int)
  /-- The function has failed. -/
  | cause (err : ε)
  /-- `RetryError`. -/
  | stillFailing (n : Int)

def RetryErr.text : RetryErr String → String
  | limit n => "maxRetries (" ++ toString n ++ ") should be > 0"
  | cause err => err
  | stillFailing n => "still failing after " ++ toString n ++ " retries"

/-- `ConditionFunc`, with the time a call takes. -/
abbrev ConditionFunc (σ ε : Type) : Type := σ → Except ε Bool × Nat × σ

/-- How a `Retry` ends, and when its calls have been made. -/
structure Retried (σ ε : Type) where
  err : Option (RetryErr ε)
  state : σ
  now : Nat
  starts : List Nat

variable {σ ε : Type}

/-- The loop of `Retry`, with that many retries left. -/
def retryLoop (f : ConditionFunc σ ε) (maxRetries : Int) :
    Nat → Nat → Ticker → σ → Retried σ ε
  | left, now, tick, s =>
      let call := f s
      let back := now + call.2.1
      match call.1 with
      | .error err => ⟨some (.cause err), call.2.2, back, [now]⟩
      | .ok true => ⟨none, call.2.2, back, [now]⟩
      | .ok false =>
          match left with
          | 0 => ⟨some (.stillFailing maxRetries), call.2.2, back, [now]⟩
          | left + 1 =>
              let next := tick.receive back
              let rest := retryLoop f maxRetries left next.1 next.2 call.2.2
              { rest with starts := now :: rest.starts }

/-- `Retry`. The ticker cannot be made for an interval of zero. -/
def retry (interval : Nat) (maxRetries : Int) (f : ConditionFunc σ ε)
    (now : Nat) (s : σ) : Retried σ ε :=
  if maxRetries ≤ 0 then ⟨some (.limit maxRetries), s, now, []⟩
  else retryLoop f maxRetries maxRetries.toNat now (newTicker interval now) s

end Util

-- ================================================== the API extensions

/-- `CustomResourceDefinition`, as far as the operator sets it. -/
structure CustomResourceDefinition where
  name : String
  group : String
  version : String
  scope : String
  plural : String
  kind : String
  shortNames : List String
deriving DecidableEq

inductive CrdConditionType where
  | established
  | namesAccepted
  | other (text : String)
deriving DecidableEq

structure CrdCondition where
  type : CrdConditionType
  status : ConditionStatus
  reason : String

inductive CreateErr where
  | alreadyExists
  | other (text : String)
deriving DecidableEq

inductive CrdRequest where
  | create (crd : CustomResourceDefinition)
  | get (name : String)
deriving DecidableEq

/-- What the API server answers, by how many requests it has had, and how
long it takes. -/
structure ApiServer where
  create : Nat → CustomResourceDefinition → Option CreateErr
  get : Nat → String → Except String (List CrdCondition)
  takes : Nat → Nat

/-- The start of an operator: its requests and the errors it has logged,
latest first. -/
structure Boot where
  sent : List CrdRequest
  failures : List String
  now : Nat

def Boot.start : Boot := ⟨[], [], 0⟩

def Boot.send (r : CrdRequest) (b : Boot) : Boot :=
  { b with sent := r :: b.sent }

-- ============================================================ the names

namespace ReplicatedStatefulSet

def resourceKind : String := "ReplicatedStatefulSet"
def resourcePlural : String := "replicatedstatefulsets"
def resourceShort : String := "rss"
def groupName : String := "clusterlabs.org"
def groupVersion : String := "v1alpha1"
def crdName : String := resourcePlural ++ "." ++ groupName

end ReplicatedStatefulSet

/-- The definition that `CreateCRD` sends. -/
def newCRD (crdName rkind rplural shortName : String) :
    CustomResourceDefinition where
  name := crdName
  group := ReplicatedStatefulSet.groupName
  version := ReplicatedStatefulSet.groupVersion
  scope := "Namespaced"
  plural := rplural
  kind := rkind
  shortNames := if shortName.length ≠ 0 then [shortName] else []

def createCRD (srv : ApiServer) (crdName rkind rplural shortName : String)
    (b : Boot) : Option String × Boot :=
  let crd := newCRD crdName rkind rplural shortName
  (match srv.create b.sent.length crd with
    | none | some .alreadyExists => none
    | some (.other text) => some text,
    { b.send (.create crd) with now := b.now + srv.takes b.sent.length })

/-- The loop over the conditions in `WaitCRDReady`: the first one that
settles the matter does. -/
def crdReady : List CrdCondition → Except String Bool
  | [] => .ok false
  | cond :: rest =>
      match cond.type with
      | .established =>
          if cond.status = .isTrue then .ok true else crdReady rest
      | .namesAccepted =>
          if cond.status = .isFalse then
            .error ("Name conflict: " ++ cond.reason)
          else crdReady rest
      | .other _ => crdReady rest

/-- One poll of `WaitCRDReady`. -/
def pollCRD (srv : ApiServer) (crdName : String) :
    Util.ConditionFunc Boot String := fun b =>
  (srv.get b.sent.length crdName >>= crdReady, srv.takes b.sent.length,
    b.send (.get crdName))

def waitCRDReady (srv : ApiServer) (crdName : String) (b : Boot) :
    Option String × Boot :=
  let r := Util.retry 5 20 (pollCRD srv crdName) b.now b
  (r.err.map fun err => "wait CRD created failed: " ++ err.text,
    { r.state with now := r.now })

-- ============================================================ the start

open ReplicatedStatefulSet in
def initCRD (srv : ApiServer) (b : Boot) : Option String × Boot :=
  match createCRD srv crdName resourceKind resourcePlural resourceShort b with
  | (some err, b) => (some ("Failed to create CRD: " ++ err), b)
  | (none, b) => waitCRDReady srv crdName b

/-- `initResource`; `create` is `Config.CreateCRD`. -/
def initResource (srv : ApiServer) (create : Bool) (b : Boot) :
    Option String × Boot :=
  if create then
    let r := initCRD srv b
    (r.1.map ("fail to init CRD: " ++ ·), r.2)
  else (none, b)

def initRetryWaitTime : Nat := 30

/-- One turn of the loop of `Start`. The loop ends where the operator says
that it is ready and runs the informer. -/
def startTurn (srv : ApiServer) (create : Bool) (b : Boot) : Boot ⊕ Boot :=
  match initResource srv create b with
  | (none, b) => .inr b
  | (some err, b) =>
      .inl { b with
        failures := err :: b.failures
        now := b.now + initRetryWaitTime }

end RssOperator
