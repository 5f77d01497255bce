/-
The custom resource: what a user writes (`ClusterSpec`) and what the
operator reports (`ClusterStatus`), from
`pkg/apis/clusterlabs/v1alpha1`.

# What is modelled

Of the spec, the fields that the control loop reads: the two counts,
`paused`, the configured commands and the TLS policy (read by
`newMember`); those that only the controller looks at: the containers
(`Validate`) and the resource requests (`Cleanup`); and those that the
generated objects are made from (`StatefulSet`). Of the status, every
field the control loop writes. What is copied into a generated object and
read by nobody (a toleration, the source of a user's volume) is its text.

# Counts

`*int32` fields are `Option Int`. The getters only compare and copy the
value they are given, so nothing here can leave the 32-bit range.

# Enumerations

Phases, condition types and condition statuses are strings in the source,
and a stored status may hold any. What is not one of the constants of the
source is the `other` of its type.
-/
import Mathlib.Algebra.Ring.Int.Defs
import Mathlib.Algebra.Ring.Nat
import RssOperator.Lib.GoMap

namespace RssOperator

-- ============================================================ commands

/-- The command keys the operator looks up in `Spec.Pod.Commands`. -/
inductive CommandKey where
  | status | sequence | stop | seed | primary | secondary
deriving DecidableEq, Repr

/-- The key as it is written in the resource. -/
def CommandKey.text : CommandKey → String
  | status => "status"
  | sequence => "sequence"
  | stop => "stop"
  | seed => "seed"
  | primary => "primary"
  | secondary => "secondary"

/-- One configured command. Its timeout only reaches the transport. -/
structure ReplicationCommand where
  command : List String
deriving DecidableEq, Repr

-- ================================================================ spec

structure MemberSecret where
  peerSecret : String
  serverSecret : String
deriving DecidableEq, Repr

structure StaticTLS where
  member : Option MemberSecret
  operatorSecret : String
deriving DecidableEq, Repr

structure TLSPolicy where
  static : Option StaticTLS
deriving DecidableEq, Repr

/-- `IsSecureClient` on a possibly nil policy. -/
def isSecureClient (tp : Option TLSPolicy) : Bool :=
  match tp.bind TLSPolicy.static with
  | none => false
  | some st => st.operatorSecret != ""

/-- `IsSecurePeer` on a possibly nil policy. -/
def isSecurePeer (tp : Option TLSPolicy) : Bool :=
  match (tp.bind TLSPolicy.static).bind StaticTLS.member with
  | none => false
  | some m => m.peerSecret != ""

/-- Where the value of an environment variable comes from: a field of the
pod, or one of the other sources. -/
inductive EnvVarSource where
  | fieldRef (apiVersion fieldPath : String)
  | other (text : String)
deriving DecidableEq, Repr

structure EnvVar where
  name : String
  value : String := ""
  valueFrom : Option EnvVarSource := none
deriving DecidableEq, Repr

structure VolumeMount where
  name : String
  readOnly : Bool
  mountPath : String
  subPath : String := ""
deriving DecidableEq, Repr

/-- What is in a volume: fields of the pod, each with the path of its file,
a secret, or one of the other sources. -/
inductive VolumeSource where
  | downwardAPI (items : List (String × String))
  | secret (secretName : String)
  | other (text : String)
deriving DecidableEq, Repr

structure Volume where
  name : String
  source : VolumeSource
deriving DecidableEq, Repr

/-- What is read or changed of a `v1.Container`. -/
structure Container where
  name : String
  image : String
  env : List EnvVar := []
  volumeMounts : List VolumeMount := []
deriving DecidableEq, Repr

/-- `intstr.IntOrString`. -/
inductive IntOrString where
  | int (value : Int)
  | str (value : String)
deriving DecidableEq, Repr

structure ServicePort where
  name : String
  port : Int
  targetPort : IntOrString
deriving DecidableEq, Repr

/-- One required term of a pod anti-affinity: no pod is put where, by the
topology key, a pod with these labels is. -/
structure PodAffinityTerm where
  matchLabels : GoMap String String
  topologyKey : String

/-- `v1.Affinity`: the user's own, or the one the operator makes. -/
inductive Affinity where
  | own (text : String)
  | podAntiAffinity (required : List PodAffinityTerm)

/-- `Spec.Pod`, but for its commands and containers, which are fields of
`ClusterSpec`. -/
structure PodPolicy where
  antiAffinity : Bool := false
  automountServiceAccountToken : Option Bool := none
  volumes : List Volume := []
  volumeClaimTemplates : List String := []
  securityContext : Option String := none

/-- The part of the spec the operator reads. -/
structure ClusterSpec where
  replicas : Option Int
  primaries : Option Int
  paused : Bool
  commands : CommandKey → Option ReplicationCommand
  tls : Option TLSPolicy
  /-- `Pod.Commands` is a map, and not nil. -/
  hasCommands : Bool := true
  nil_commands : hasCommands = false → ∀ key, commands key = none := by
    simp
  containers : List Container := []
  /-- `Resources.Requests`, quantities by the name of the resource. -/
  requests : Option (GoMap String String) := none
  pod : PodPolicy := {}
  chaosLevel : Option Int := none
  servicePorts : Option (List ServicePort) := none
  nodeSelector : GoMap String String := ∅
  serviceAccountName : String := ""
  secrets : List String := []
  affinity : Option Affinity := none
  tolerations : List String := []

def minClusterSize : Int := 3

namespace ClusterSpec

/-- How many pods the user asks for, with the defaults filled in. -/
def getNumReplicas (c : ClusterSpec) : Int :=
  match c.replicas with
  | none => minClusterSize
  | some r =>
      if r < 0 then 0
      else if 0 < r ∧ r < minClusterSize then minClusterSize
      else r

/-- How many of them are to be primaries. Zero is let through. -/
def getNumPrimaries (c : ClusterSpec) : Int :=
  let replicas := c.getNumReplicas
  match c.primaries with
  | none => replicas
  | some p =>
      if p < 0 then 1
      else if replicas < p then replicas
      else p

end ClusterSpec

-- ============================================================== status

inductive ClusterPhase where
  | none | creating | running | paused | failed
  | other (text : String)
deriving DecidableEq, Repr

/-- The types the operator sets; a stored condition may be of any. -/
inductive ClusterConditionType where
  | available | recovering | scaling | upgrading
  | other (text : String)
deriving DecidableEq, Repr

/-- `v1.ConditionStatus`. -/
inductive ConditionStatus where
  | isTrue | isFalse | unknown
  | other (text : String)
deriving DecidableEq, Repr

structure ClusterCondition where
  type : ClusterConditionType
  status : ConditionStatus
  lastUpdateTime : String
  lastTransitionTime : String
  reason : String
  message : String
deriving DecidableEq, Repr

structure MembersStatus where
  ready : List String
  unready : List String
  primary : List String
  secondary : List String
  failed : List String
deriving DecidableEq, Repr

structure ClusterStatus where
  phase : ClusterPhase
  reason : String
  controlPaused : Bool
  conditions : List ClusterCondition
  replicas : Int
  restoreReplicas : Int
  members : MembersStatus
deriving DecidableEq, Repr

/-- The zero value of the status of a resource nobody has handled. -/
def ClusterStatus.empty : ClusterStatus where
  phase := .none
  reason := ""
  controlPaused := false
  conditions := []
  replicas := 0
  restoreReplicas := 0
  members := ⟨[], [], [], [], []⟩

/-- Position of the first condition of a type. -/
def getClusterCondition (conditions : List ClusterCondition)
    (t : ClusterConditionType) : Option Nat :=
  conditions.findIdx? fun c => decide (t = c.type)

def newClusterCondition (condType : ClusterConditionType)
    (status : ConditionStatus) (reason message now : String) :
    ClusterCondition where
  type := condType
  status := status
  lastUpdateTime := now
  lastTransitionTime := now
  reason := reason
  message := message

def scalingMsg (fromSize toSize : Int) : String :=
  s!"Current cluster size: {fromSize}, desired cluster size: {toSize}"

-- ============================================================ resource

/-- The custom resource as the operator holds it. -/
structure ReplicatedStatefulSet where
  name : String
  nameSpace : String
  spec : ClusterSpec
  status : ClusterStatus
  labels : GoMap String String := ∅
  uid : String := ""
  annotations : Option (GoMap String String) := none

structure OwnerReference where
  apiVersion : String
  kind : String
  name : String
  uid : String
  controller : Option Bool
deriving DecidableEq, Repr

/-- The reference from a generated object to its resource. -/
def ReplicatedStatefulSet.asOwner (rss : ReplicatedStatefulSet) :
    OwnerReference where
  apiVersion := "clusterlabs.org/v1alpha1"
  kind := "ReplicatedStatefulSet"
  name := rss.name
  uid := rss.uid
  controller := some true

/-- The governing service of the StatefulSet. -/
def ReplicatedStatefulSet.serviceName (rss : ReplicatedStatefulSet) :
    String :=
  rss.name ++ "-svc"

end RssOperator
