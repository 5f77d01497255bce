/-
The lists of member names in the status, and the order they come in.

# Two calls

`updateMemberStatus` sorts the members into four lists by appending their
names while it ranges over the member set, and `updateCRStatus` compares
the result with the last one by deep equality, order included. Two calls
over the same members and the same pods may range in different orders, so
a list with two names in it can come out in two ways, and the second call
then sends a status that says what the first one said.

A list is the same in every order exactly if all the names in it are the
same (`GoMap.collect_stable_iff`). In a member set whose keys are the
names of its members that is a list of at most one name.
-/
import RssOperator.Proofs.StatusWrites

namespace RssOperator

variable {env : Env} {s : Sys}

-- ======================================================= the four lists

/-- The lists of the status that the members are sorted into. -/
inductive MemberList where
  | unready | failed | primary | secondary
deriving DecidableEq, Repr

/-- A member goes into the list. -/
def MemberList.takes (running : List String) : MemberList → Member → Bool
  | unready, m => !running.contains m.name
  | failed, m => running.contains m.name && m.appFailed
  | primary, m =>
      (running.contains m.name && !m.appFailed) && m.appRunning
        && m.appPrimary
  | secondary, m =>
      (running.contains m.name && !m.appFailed) && m.appRunning
        && !m.appPrimary

/-- The names in a list, collected in the order `o`. -/
def MemberList.names (running : List String) (o : Order String)
    (ms : MemberSet) (l : MemberList) : List String :=
  GoMap.collect (l.takes running) Member.name o ms

/-- What `updateMemberStatus` makes of the status. -/
def ClusterStatus.listing (running : List String) (o : Order String)
    (ms : MemberSet) (st : ClusterStatus) : ClusterStatus :=
  { st with
    replicas := running.length
    members :=
      { ready := running
        failed := MemberList.names running o ms .failed
        unready := MemberList.names running o ms .unready
        primary := MemberList.names running o ms .primary
        secondary := MemberList.names running o ms .secondary } }

/-- The state `updateMemberStatus` hands to `updateCRStatus`. -/
def Sys.listed (env : Env) (running : List String) (s : Sys) : Sys :=
  (s.ranged 1).mapStatus
    (ClusterStatus.listing running (s.order env) s.members)

theorem updateMemberStatus_eq (running : List String) (s : Sys) :
    updateMemberStatus env running s
      = (updateCRStatus env "updateMemberStatus" (s.listed env running)).2 :=
  rfl

-- ============================================================ one call

/-- The status after a write, whatever the answer. -/
theorem updateCRStatus_status (caller : String) (s : Sys) :
    (updateCRStatus env caller s).2.c.status = s.c.status := by
  by_cases heq : s.c.rss.status = s.c.status
  · rw [updateCRStatus_equal caller heq]
  · rw [updateCRStatus_differ caller heq]
    rfl

/-- The record after a write, whatever the answer. -/
theorem updateCRStatus_record (caller : String) (s : Sys) :
    (updateCRStatus env caller s).2.c.rss.status = s.c.status := by
  by_cases heq : s.c.rss.status = s.c.status
  · rw [updateCRStatus_equal caller heq]
    exact heq
  · rw [updateCRStatus_differ caller heq]
    rfl

theorem updateCRStatus_peers (caller : String) (s : Sys) :
    (updateCRStatus env caller s).2.c.peers = s.c.peers
      ∧ (updateCRStatus env caller s).2.orders = s.orders := by
  by_cases heq : s.c.rss.status = s.c.status
  · rw [updateCRStatus_equal caller heq]
    exact ⟨rfl, rfl⟩
  · rw [updateCRStatus_differ caller heq]
    exact ⟨rfl, rfl⟩

theorem updateMemberStatus_status (running : List String) (s : Sys) :
    (updateMemberStatus env running s).c.status
      = s.c.status.listing running (env.order s.orders) s.members := by
  rw [updateMemberStatus_eq, updateCRStatus_status]
  rfl

theorem updateMemberStatus_record (running : List String) (s : Sys) :
    (updateMemberStatus env running s).c.rss.status
      = (updateMemberStatus env running s).c.status := by
  rw [updateMemberStatus_eq, updateCRStatus_record, updateCRStatus_status]

theorem updateMemberStatus_peers (running : List String) (s : Sys) :
    (updateMemberStatus env running s).members = s.members
      ∧ (updateMemberStatus env running s).orders = s.orders + 1 := by
  rw [updateMemberStatus_eq]
  obtain ⟨hpeers, horders⟩ := @updateCRStatus_peers env
    "updateMemberStatus" (s.listed env running)
  refine ⟨?_, horders⟩
  unfold Sys.members
  rw [hpeers]
  rfl

/-- A call sends an update exactly if the status it arrives at is not the
one on record. -/
theorem updateMemberStatus_since (running : List String) (s : Sys) :
    s.since (updateMemberStatus env running s) = []
      ↔ s.c.rss.status
        = s.c.status.listing running (env.order s.orders) s.members := by
  rw [updateMemberStatus_eq]
  constructor
  · intro h
    by_contra hne
    rw [updateCRStatus_differ _ hne] at h
    have htrace : s.since ((s.listed env running).wrote
        (env.update (s.listed env running).calls))
        = [.update _ _] := Sys.since_eq rfl
    rw [htrace] at h
    cases h
  · intro heq
    rw [updateCRStatus_equal _ heq]
    exact Sys.since_eq rfl

-- =========================================================== two calls

/-- Two calls in a row leave the same status, and the second sends no
update if the first one's was accepted. -/
def WritesOnce (env : Env) (running : List String) (s : Sys) : Prop :=
  let s₁ := updateMemberStatus env running s
  let s₂ := updateMemberStatus env running s₁
  s₂.c.status = s₁.c.status
    ∧ (env.update s.calls = none → s₁.since s₂ = [])

theorem writesOnce_iff (running : List String) (s : Sys) :
    WritesOnce env running s
      ↔ s.c.status.listing running (env.order (s.orders + 1)) s.members
        = s.c.status.listing running (env.order s.orders) s.members := by
  have hstatus := @updateMemberStatus_status env running s
  obtain ⟨hms, horders⟩ := @updateMemberStatus_peers env running s
  have hagain := @updateMemberStatus_status env running
    (updateMemberStatus env running s)
  rw [hms, horders, hstatus] at hagain
  have htwice : (s.c.status.listing running (env.order s.orders)
      s.members).listing running (env.order (s.orders + 1)) s.members
      = s.c.status.listing running (env.order (s.orders + 1)) s.members :=
    rfl
  rw [htwice] at hagain
  unfold WritesOnce
  dsimp only
  rw [hagain, hstatus, updateMemberStatus_since,
    updateMemberStatus_record, hms, horders, hstatus, htwice]
  constructor
  · intro h
    exact h.1
  · intro h
    exact ⟨h, fun _ => h.symm⟩

/-- The status is the same in two orders exactly if the four lists are. -/
theorem listing_eq_iff {running : List String} {o o' : Order String}
    {ms : MemberSet} {st : ClusterStatus} :
    st.listing running o ms = st.listing running o' ms
      ↔ ∀ l : MemberList, l.names running o ms = l.names running o' ms := by
  constructor
  · intro h l
    have hmembers := congrArg ClusterStatus.members h
    cases l with
    | unready => exact congrArg MembersStatus.unready hmembers
    | failed => exact congrArg MembersStatus.failed hmembers
    | primary => exact congrArg MembersStatus.primary hmembers
    | secondary => exact congrArg MembersStatus.secondary hmembers
  · intro h
    unfold ClusterStatus.listing
    rw [h .failed, h .unready, h .primary, h .secondary]

/-- The world in which the two calls range in the orders `o` and `o'`. -/
def Env.ranging (n : Nat) (o o' : Order String) : Env :=
  { Env.deciding fun _ => true with
    order := fun i => if i = n then o else o' }

/-- No write without change: whatever the orders, two calls over the same
members and the same pods leave the same status and the second sends
nothing, exactly if no two members with different names go into the same
list. -/
theorem updateMemberStatus_stable_iff (running : List String) (s : Sys) :
    (∀ env, WritesOnce env running s)
      ↔ ∀ (l : MemberList) k m k' m', s.members.lookup k = some m →
          s.members.lookup k' = some m' → l.takes running m = true →
          l.takes running m' = true → m.name = m'.name := by
  have horders : (∀ env, WritesOnce env running s)
      ↔ ∀ (l : MemberList) (o o' : Order String),
        l.names running o s.members = l.names running o' s.members := by
    constructor
    · intro h l o o'
      have hone := (writesOnce_iff running s).mp
        (h (.ranging s.orders o' o))
      have hne : s.orders + 1 ≠ s.orders := by omega
      have hlists := listing_eq_iff.mp hone l
      simpa [Env.ranging, hne] using hlists
    · intro h env
      apply (writesOnce_iff running s).mpr
      apply listing_eq_iff.mpr
      intro l
      exact h l _ _
  rw [horders]
  constructor
  · intro h l
    exact GoMap.collect_stable_iff.mp (h l)
  · intro h l
    exact GoMap.collect_stable_iff.mpr (h l)

/-- Two pods that the poll does not find. The names come out in the order
of the loop, so the second call sends the same report again. -/
theorem updateMemberStatus_rewrites :
    let ms : MemberSet := ((∅ : MemberSet).add { name := "db-0" }).add
      { name := "db-1" }
    let s := (Sys.start (.sized 3 1)).setPeers ms
    let env : Env := .ranging 0 (.stored String)
      ((Order.stored String).deferring fun k => decide (k = "db-1"))
    let s₁ := updateMemberStatus env [] s
    let s₂ := updateMemberStatus env [] s₁
    s₁.c.status.members.unready ≠ s₂.c.status.members.unready
      ∧ (s₁.since s₂).length = 1 ∧ ¬ WritesOnce env [] s := by
  intro ms s env
  have hlists : (updateMemberStatus env [] s).c.status.members.unready
      ≠ (updateMemberStatus env [] (updateMemberStatus env []
        s)).c.status.members.unready := by
    decide +kernel
  refine ⟨hlists, by decide +kernel, ?_⟩
  intro h
  exact hlists (congrArg (fun st => st.members.unready) h.1).symm

end RssOperator
