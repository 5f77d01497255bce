/-
The objects the operator makes for a resource: the StatefulSet with its pod
template, the governing Service and the Secret with the manifest of the rule
files (`pkg/cluster/statefulset.go`), and the labels and selectors they are
found by (`pkg/util/k8sutil/k8sutil.go`).

# Order

Maps are merged and their keys collected in `range` loops. A function with
several of them takes its orders from a numbered family. `sort.Strings` and
`sort.Sort` are any routines that sort (`Sorter`); the second one is not
stable.

# What is given

Marshalling to YAML and JSON and SHA-256 are functions from data to bytes
(`Codecs`), the first two with an error. What a label may be called is asked
of a function as well: a selector made from a set with a key or value that
is refused selects everything.

# Slices

`append` to the volumes and mounts of the resource may write behind the end
of its own slices. Nobody looks there, so the lists are values here.
-/
import Mathlib.Data.String.Basic
import RssOperator.Lib.Sort
import RssOperator.Update

namespace RssOperator

-- ============================================================== labels

def clusterNameLabel : String := "rss-cluster"

def labelsForCluster (clusterName : String) : GoMap String String :=
  ((∅ : GoMap String String).insert "rss-operator-managed" "true").insert
    "app" clusterName

/-- The first map wins. -/
def mergeLabels (o o' : Order String)
    (labels otherLabels : GoMap String String) : GoMap String String :=
  GoMap.copyInto o' labels (GoMap.copyInto o otherLabels ∅)

/-- The labels have every pair of the selector. -/
def selects (selector labels : GoMap String String) : Bool :=
  selector.entries.all fun e => labels.lookup e.1 == some e.2

structure PodSpec where
  volumes : List Volume
  containers : List Container
  securityContext : Option String
  serviceAccountName : String
  nodeSelector : GoMap String String
  tolerations : List String
  affinity : Option Affinity
  terminationGracePeriodSeconds : Int
  automountServiceAccountToken : Option Bool := none

structure PodTemplateSpec where
  labels : GoMap String String
  annotations : GoMap String String
  ownerReferences : List OwnerReference
  spec : PodSpec

/-- The anti-affinity of the members of a cluster. -/
def clusterAntiAffinity (clusterName : String) : Affinity :=
  .podAntiAffinity
    [{ matchLabels := (∅ : GoMap String String).insert clusterNameLabel
        clusterName
       topologyKey := "kubernetes.io/hostname" }]

def applyPodSpecPolicy (clusterName : String) (podSpec : PodSpec)
    (policy : Option PodPolicy) : PodSpec :=
  match policy with
  | none => podSpec
  | some policy =>
      let podSpec :=
        if policy.antiAffinity then
          { podSpec with affinity := some (clusterAntiAffinity clusterName) }
        else podSpec
      match policy.automountServiceAccountToken with
      | none => podSpec
      | some mount =>
          { podSpec with automountServiceAccountToken := some mount }

def podInfoVolume : Volume where
  name := "podinfo"
  source := .downwardAPI
    [("labels", "metadata.labels"), ("annotations", "metadata.annotations")]

def podInfoMount : VolumeMount where
  name := "podinfo"
  readOnly := false
  mountPath := "/etc/podinfo"

def secretVolume (s : String) : Volume where
  name := "secret-" ++ s
  source := .secret s

def secretMount (s : String) : VolumeMount where
  name := "secret-" ++ s
  readOnly := true
  mountPath := "/etc/rss/secrets/" ++ s

/-- What is added to the environment of every container. -/
def operatorEnv (cluster : ReplicatedStatefulSet) : List EnvVar :=
  [{ name := "SERVICE_NAME", value := cluster.serviceName },
    { name := "POD_NAME"
      valueFrom := some (.fieldRef "v1" "metadata.name") },
    { name := "POD_NAMESPACE"
      valueFrom := some (.fieldRef "v1" "metadata.namespace") }]
  ++ match cluster.spec.chaosLevel with
    | none => []
    | some level =>
        if 0 < level then
          [{ name := "CHAOS_LEVEL", value := toString level },
            { name := "CHAOS_MODULO", value := toString (20 - level) }]
        else []

/-- Add and mount a secret. -/
def addSecret (acc : List Volume × List VolumeMount) (s : String) :
    List Volume × List VolumeMount :=
  (acc.1 ++ [secretVolume s], acc.2 ++ [secretMount s])

/-- One turn of the loop over the containers. The mounts are those of the
container, the volumes those of the pod. -/
def addContainer (cluster : ReplicatedStatefulSet)
    (acc : List Volume × List Container) (container : Container) :
    List Volume × List Container :=
  let (volumes, mounts) := cluster.spec.secrets.foldl addSecret
    (acc.1 ++ [podInfoVolume], container.volumeMounts ++ [podInfoMount])
  (volumes, acc.2 ++ [{ container with
    env := container.env ++ operatorEnv cluster
    volumeMounts := mounts }])

def makePodSpec (cluster : ReplicatedStatefulSet) : PodSpec :=
  let (volumes, containers) := cluster.spec.containers.foldl
    (addContainer cluster) (cluster.spec.pod.volumes, [])
  applyPodSpecPolicy cluster.name
    { volumes := volumes
      containers := containers
      securityContext := cluster.spec.pod.securityContext
      serviceAccountName := cluster.spec.serviceAccountName
      nodeSelector := cluster.spec.nodeSelector
      tolerations := cluster.spec.tolerations
      affinity := cluster.spec.affinity
      terminationGracePeriodSeconds := 600 }
    (some cluster.spec.pod)

-- ========================================================= StatefulSet

inductive PodManagementPolicy where
  | orderedReady | parallel
deriving DecidableEq, Repr

inductive UpdateStrategy where
  | rollingUpdate | onDelete
deriving DecidableEq, Repr

structure StatefulSetSpec where
  serviceName : String
  replicas : Int
  podManagementPolicy : PodManagementPolicy
  volumeClaimTemplates : List String
  updateStrategy : UpdateStrategy
  template : PodTemplateSpec

structure StatefulSet where
  labels : GoMap String String
  name : String
  annotations : Option (GoMap String String)
  ownerReferences : List OwnerReference
  spec : StatefulSetSpec

/-- `makeStatefulSetSpec`, whose error is always nil. -/
def makeStatefulSetSpec (os : Nat → Order String)
    (cluster : ReplicatedStatefulSet) : Except String StatefulSetSpec :=
  .ok
    { serviceName := cluster.serviceName
      replicas := cluster.spec.getNumReplicas
      podManagementPolicy := .parallel
      volumeClaimTemplates := cluster.spec.pod.volumeClaimTemplates
      updateStrategy := .onDelete
      template :=
        { labels := mergeLabels (os 0) (os 1)
            (labelsForCluster cluster.name) cluster.labels
          annotations := cluster.annotations.getD ∅
          ownerReferences := [cluster.asOwner]
          spec := makePodSpec cluster } }

/-- The StatefulSet of a resource. Of an older one, the annotations and the
field that must not be changed are kept. -/
def makeStatefulSet (os : Nat → Order String)
    (cluster : ReplicatedStatefulSet) (old : Option StatefulSet) :
    Except String StatefulSet :=
  match makeStatefulSetSpec os cluster with
  | .error err => .error ("make StatefulSet spec: " ++ err)
  | .ok spec =>
      let statefulset : StatefulSet :=
        { labels := mergeLabels (os 2) (os 3)
            (labelsForCluster cluster.name) cluster.labels
          name := prefixedName cluster.name
          annotations := cluster.annotations
          ownerReferences := [cluster.asOwner]
          spec := spec }
      match old with
      | none => .ok statefulset
      | some old =>
          .ok { statefulset with
            annotations := old.annotations
            spec := { spec with
              podManagementPolicy := old.spec.podManagementPolicy } }

-- ========================================================== rule files

abbrev Bytes : Type := List UInt8

structure ConfigMap where
  nameSpace : String
  name : String
  data : GoMap String String

structure ConfigMapReference where
  key : String
  checksum : String
deriving DecidableEq, Repr

/-- The functions that are not this program's. -/
structure Codecs where
  yaml : List (String × String) → Except String Bytes
  sha256 : Bytes → Bytes
  json : List ConfigMapReference → Except String Bytes

/-- `%x` of bytes. -/
def hex (b : Bytes) : String :=
  .ofList (b.flatMap fun x =>
    [(x.toNat / 16).digitChar, (x.toNat % 16).digitChar])

/-- Where a ConfigMap is found. -/
def ConfigMap.key (cm : ConfigMap) : String :=
  cm.nameSpace ++ "/" ++ cm.name

/-- The routines that sort. -/
structure Sorts where
  strings : Sorter String id
  items : Sorter ConfigMapReference ConfigMapReference.key

/-- The characters of ASCII text. -/
def bytesOf (text : String) : Bytes :=
  text.toList.map fun c => .ofNat c.toNat

/-- Codecs that write one string behind the other. -/
def Codecs.plain : Codecs where
  yaml m := .ok (m.flatMap fun e => bytesOf e.1 ++ bytesOf e.2)
  sha256 := id
  json items :=
    .ok (items.flatMap fun item => bytesOf item.key ++ bytesOf item.checksum)

def Sorts.insertion : Sorts where
  strings := .insertion id
  items := .insertion ConfigMapReference.key

end RssOperator
