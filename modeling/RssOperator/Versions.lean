/-
The custom resource on the API server, its versions, and the copies of it
on the operator's side.

# The server

It accepts an update if the `resourceVersion` in it is the current one,
and answers with the object it has stored. A user's edit replaces the
spec.

# The operator

An operator's loop writes the whole resource, though it only means to
write the status (`updateCRStatus`). What it writes is `c.rss`, a copy it
has from the controller at its start, from a `Modify` event, from the
answer to its last write, or from a `Get`. The controller hands on the
version it is notified of, which may be any that has been, after `Cleanup`.

The objects are handed around as pointers, and a loop changes the status
in them, so the status of a copy that is delivered may be anything. There
may be several loops for one resource, one after the other or at a time.

# Steps

Users, the controller and the loops take turns in any order; between any
two reads and writes of a loop anything may happen. `Proofs/Versions.lean`
shows that whatever a loop does to `c.rss` is made of these steps.
-/
import RssOperator.Lib.VersionStore
import RssOperator.Validate

namespace RssOperator

open VersionStore (Copy)

/-- What a loop knows of the resource: `c.rss`, `c.status`, and the events
it has not taken yet. -/
structure Holder where
  held : Copy ReplicatedStatefulSet
  status : ClusterStatus
  eventCh : List (Copy ReplicatedStatefulSet)

/-- The resource, the spec as a user last made it, and the loops. -/
structure Versions where
  store : VersionStore ReplicatedStatefulSet
  edited : ClusterSpec
  holders : Nat → Option Holder

inductive VersionStep where
  /-- A user changes the spec. -/
  | edit (spec : ClusterSpec)
  /-- A loop is started with a version of the resource. -/
  | start (id version : Nat) (status : ClusterStatus)
  /-- A `Modify` event with a version of the resource is sent to it. -/
  | deliver (id version : Nat) (status : ClusterStatus)
  /-- It takes the next event. -/
  | take (id : Nat)
  /-- It changes its status, or the one of the resource in memory. -/
  | assign (id : Nat) (status held : ClusterStatus)
  /-- `updateCRStatus`. The server may refuse for reasons of its own. -/
  | write (id : Nat) (refused : Bool)
  /-- It gets the resource from the server. -/
  | fetch (id : Nat)

/-- What the controller hands on when it is notified of a version. -/
def Versions.notified (v : Versions) (version : Nat)
    (status : ClusterStatus) : Option (Copy ReplicatedStatefulSet) :=
  if version ≤ v.store.version then
    some ⟨version,
      { (v.store.contents version).cleaned with status := status }⟩
  else none

/-- `c.updateCRStatus(..)`. -/
def Holder.write (refused : Bool)
    (store : VersionStore ReplicatedStatefulSet) (h : Holder) :
    VersionStore ReplicatedStatefulSet × Holder :=
  if h.held.value.status = h.status then (store, h)
  else
    let rss := { h.held.value with status := h.status }
    match if refused then none else store.swap h.held.version rss with
    | none => (store, { h with held := ⟨h.held.version, rss⟩ })
    | some store =>
        (store, { h with held := ⟨store.version, store.current⟩ })

namespace Versions

/-- A resource as a user has created it. -/
def created (rss : ReplicatedStatefulSet) : Versions :=
  ⟨.start rss, rss.spec, fun _ => none⟩

def setHolder (id : Nat) (h : Holder) (v : Versions) : Versions :=
  { v with holders := Function.update v.holders id (some h) }

/-- One step; a step that cannot be taken changes nothing. -/
def step (v : Versions) : VersionStep → Versions
  | .edit spec =>
      { v with
        store := v.store.put { v.store.current with spec := spec }
        edited := spec }
  | .start id version status =>
      match v.notified version status with
      | none => v
      | some copy => v.setHolder id ⟨copy, copy.value.status, []⟩
  | .deliver id version status =>
      match v.holders id, v.notified version status with
      | some h, some copy =>
          v.setHolder id { h with eventCh := h.eventCh ++ [copy] }
      | _, _ => v
  | .take id =>
      match v.holders id with
      | some ⟨_, status, copy :: rest⟩ =>
          v.setHolder id ⟨copy, status, rest⟩
      | _ => v
  | .assign id status held =>
      match v.holders id with
      | none => v
      | some h => v.setHolder id
          { h with
            held := ⟨h.held.version, { h.held.value with status := held }⟩
            status := status }
  | .write id refused =>
      match v.holders id with
      | none => v
      | some h =>
          let (store, h) := h.write refused v.store
          { v with store := store }.setHolder id h
  | .fetch id =>
      match v.holders id with
      | none => v
      | some h => v.setHolder id
          { h with held := ⟨v.store.version, v.store.current⟩ }

def run (v : Versions) (steps : List VersionStep) : Versions :=
  steps.foldl Versions.step v

end Versions

end RssOperator
