/-
The poll of the pods, from `pollPods` and `podOwner` (`cluster.go`).

# Whose pods

The pods are listed by the label of the cluster. A pod counts if one of
its owner references is the custom resource itself or the StatefulSet,
and the StatefulSet is looked up for every pod that has an owner. The
lookup's error is logged and nothing else: `podOwner` can only answer yes
or no, and it goes on with the object it got, which after an error is
empty.

# Answers

A `Reads` holds what the API server answers during one poll: the list,
and the UID of the StatefulSet or an error for each of the lookups, by
their number.
-/
import RssOperator.Run

namespace RssOperator

-- ================================================================ reads

/-- `v1.PodPhase`. -/
inductive PodPhase where
  | pending | running | succeeded | failed | unknown
deriving DecidableEq, Repr

/-- A pod as the API server lists it: `owners` are the UIDs of its owner
references. -/
structure ListedPod where
  pod : Pod
  owners : List String
  phase : PodPhase
deriving DecidableEq, Repr

/-- A list of pods of one namespace; their names differ. -/
structure ListedPods where
  items : List ListedPod
  nodup : (items.map fun p => p.pod.name).Nodup

/-- What the API server answers during one poll. -/
structure Reads where
  list : Except String ListedPods
  sts : Nat → Except String String

/-- The UID of the object that comes with an answer. -/
def stsUID : Except String String → String
  | .ok uid => uid
  | .error _ => ""

-- ============================================================= podOwner

/-- `c.podOwner(pod)`, where `uid` is the UID of `c.rss` and `sts` the
answer to the lookup. -/
def podOwner (uid : String) (sts : Except String String) (p : ListedPod) :
    Bool :=
  p.owners.any fun owner => owner == uid || owner == stsUID sts

-- ============================================================= pollPods

/-- The loop of `pollPods`: how many lookups were made, and the pods so
far. -/
structure Polled where
  lookups : Nat
  running : List Pod
  pending : List Pod
deriving DecidableEq, Repr

/-- One turn of the loop. -/
def pollStep (uid : String) (sts : Nat → Except String String)
    (acc : Polled) (p : ListedPod) : Polled :=
  if p.owners.length < 1 then acc
  else
    let next := { acc with lookups := acc.lookups + 1 }
    if !podOwner uid (sts acc.lookups) p then next
    else
      match p.phase with
      | .running => { next with running := acc.running ++ [p.pod] }
      | .pending => { next with pending := acc.pending ++ [p.pod] }
      | _ => next

/-- The pods of a list, sorted into running and pending. -/
def pollItems (uid : String) (sts : Nat → Except String String)
    (items : List ListedPod) : Polled :=
  items.foldl (pollStep uid sts) ⟨0, [], []⟩

/-- `c.pollPods()`. -/
def pollPods (uid : String) (reads : Reads) :
    Except String (List Pod × List Pod) :=
  match reads.list with
  | .error err => .error ("failed to list running pods: " ++ err)
  | .ok l =>
      let polled := pollItems uid reads.sts l.items
      .ok (polled.running, polled.pending)

-- =========================================================== the result

/-- The running pods are some of the listed ones, in their order. -/
theorem running_foldl_pollStep (uid : String)
    (sts : Nat → Except String String) :
    ∀ (items : List ListedPod) (acc : Polled),
      ∃ pods, (items.foldl (pollStep uid sts) acc).running
          = acc.running ++ pods
        ∧ pods.Sublist (items.map ListedPod.pod) := by
  intro items
  induction items with
  | nil => intro acc; exact ⟨[], by simp, List.Sublist.refl []⟩
  | cons p items ih =>
      intro acc
      obtain ⟨pods, heq, hsub⟩ := ih (pollStep uid sts acc p)
      have hstep : (pollStep uid sts acc p).running = acc.running
          ∨ (pollStep uid sts acc p).running = acc.running ++ [p.pod] := by
        unfold pollStep
        dsimp only
        split
        · exact Or.inl rfl
        · split
          · exact Or.inl rfl
          · split
            · exact Or.inr rfl
            · exact Or.inl rfl
            · exact Or.inl rfl
      rcases hstep with hsame | hmore
      · exact ⟨pods, by rw [List.foldl_cons, heq, hsame], hsub.cons _⟩
      · refine ⟨p.pod :: pods, ?_, hsub.cons_cons _⟩
        rw [List.foldl_cons, heq, hmore, List.append_assoc]
        rfl

theorem running_pollItems (uid : String)
    (sts : Nat → Except String String) (items : List ListedPod) :
    (pollItems uid sts items).running.Sublist
      (items.map ListedPod.pod) := by
  obtain ⟨pods, heq, hsub⟩ :=
    running_foldl_pollStep uid sts items ⟨0, [], []⟩
  unfold pollItems
  rw [heq]
  exact hsub

/-- The running pods a poll finds. -/
def ListedPods.running (uid : String) (sts : Nat → Except String String)
    (l : ListedPods) : PodList where
  pods := (pollItems uid sts l.items).running
  nodup := by
    have hsub := (running_pollItems uid sts l.items).map Pod.name
    rw [List.map_map] at hsub
    exact l.nodup.sublist hsub

/-- The pending pods a poll finds. -/
def ListedPods.pending (uid : String) (sts : Nat → Except String String)
    (l : ListedPods) : List Pod :=
  (pollItems uid sts l.items).pending

/-- What the main loop makes of a poll. -/
def Reads.poll (uid : String) (reads : Reads) : Poll :=
  match reads.list with
  | .error _ => .failed
  | .ok l => .pods (l.running uid reads.sts) (l.pending uid reads.sts)

/-- The poll the main loop goes by is the result of `pollPods`. -/
theorem poll_pollPods (uid : String) (reads : Reads) :
    match pollPods uid reads, reads.poll uid with
    | .error _, .failed => True
    | .ok (running, pending), .pods l pending' =>
        l.pods = running ∧ pending' = pending
    | _, _ => False := by
  unfold pollPods Reads.poll
  cases reads.list with
  | error err => trivial
  | ok l => exact ⟨rfl, rfl⟩

/-- A read of the poll failed: the list, or a lookup that was made. -/
def Reads.fails (uid : String) (reads : Reads) : Prop :=
  match reads.list with
  | .error _ => True
  | .ok l => ∃ n < (pollItems uid reads.sts l.items).lookups, ∃ err,
      reads.sts n = .error err

end RssOperator
