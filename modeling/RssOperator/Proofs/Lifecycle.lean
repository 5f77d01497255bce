/-
The life of a Cluster, as the controller has it.

# One step

`Controller.Step` says what handling a notification can do to the map and
which call it can make, and `handle_step` that it does nothing else. The
rest follows from that relation.

# The protocol

`Controller.Registered` ties the map to the Clusters: what is in the map
has been created, is in it once, and has an open `stopCh`. Every
notification keeps it. So a Cluster is deleted at most once and not
updated afterwards, over every history (`lifecycle`).

# Deletions that do not delete

The failed status and the invalid spec are looked at first. A deletion
that is answered there leaves the Cluster running: with a failed status
its entry is dropped all the same, with an invalid spec even the entry
stays (`delete_retires_iff`).
-/
import RssOperator.Controller
import RssOperator.Proofs.Validate

namespace RssOperator

variable {c c' : Controller} {n : Notice} {o : Order String}
  {clus : ReplicatedStatefulSet} {type : EventType} {r : EventResult}
  {call : Option ClusterCall}

-- ============================================================= one step

/-- The resource a notification deletes. -/
def Notice.deletes (n : Notice) (clus : ReplicatedStatefulSet) : Prop :=
  n.kind = .delete ∧ n.obj.deleted = some clus

/-- The resource a notification adds or updates. -/
def Notice.syncs (n : Notice) (clus : ReplicatedStatefulSet) : Prop :=
  n.kind ≠ .delete ∧ n.obj = .rss clus

/-- What handling a notification does. -/
inductive Controller.Step (n : Notice) (c : Controller) :
    Option ClusterCall → Controller → Prop
  | quiet : Step n c none c
  /-- A failed resource is added or updated. -/
  | ignored : Step n c none { c with metrics := c.metrics.incFailed }
  /-- A failed resource is deleted. -/
  | dropped (clus : ReplicatedStatefulSet) (hdeletes : n.deletes clus)
      (hphase : clus.status.phase = .failed) :
      Step n c none
        { c with
          clusters := c.clusters.erase clus.name
          metrics := c.metrics.incFailed }
  | new (rss : ReplicatedStatefulSet)
      (habsent : c.clusters.lookup rss.name = none) :
      Step n c (some (.new c.created rss))
        { c with
          clusters := c.clusters.insert rss.name c.created
          created := c.created + 1
          metrics := c.metrics.incCreated }
  | update (clus : ReplicatedStatefulSet) (id : Nat)
      (hsyncs : n.syncs clus) (hphase : clus.status.phase ≠ .failed)
      (hvalid : clus.Valid)
      (hentry : c.clusters.lookup clus.name = some id) :
      Step n c (some (.update id clus.cleaned))
        { c with metrics := c.metrics.incModified }
  | delete (name : String) (id : Nat)
      (hentry : c.clusters.lookup name = some id) :
      Step n c (some (.delete id))
        { c with
          clusters := c.clusters.erase name
          stopped := id :: c.stopped
          metrics := c.metrics.incDeleted }

theorem handleClusterEvent_step
    (htype : type = .deleted → n.deletes clus)
    (hsyncs : type ≠ .deleted → n.syncs clus)
    (h : handleClusterEvent o type clus c = .ok r) :
    c.Step n r.call r.next := by
  unfold handleClusterEvent at h
  split at h
  · next hphase =>
    dsimp only at h
    split at h
    · next hdeleted =>
      cases h
      exact .dropped clus (htype hdeleted) hphase
    · cases h
      exact .ignored
  · next hphase =>
    dsimp only at h
    split at h
    · cases h
    · cases h
      exact .quiet
    · next hok =>
      rw [ReplicatedStatefulSet.validate_cleaned] at hok
      split at h
      · cases h
        exact .quiet
      · next habsent =>
        cases h
        exact .new clus.cleaned habsent
      · next id hentry =>
        cases h
        exact .update clus id (hsyncs (by simp)) hphase
          (ReplicatedStatefulSet.validate_ok_iff.mp hok) hentry
      · next id hentry =>
        unfold Controller.retire at h
        split at h
        · cases h
        · cases h
          exact .delete clus.cleaned.name id hentry
      · cases h
        exact .quiet

theorem syncEtcdClus_step (hsyncs : n.syncs clus)
    (h : syncEtcdClus o clus c = .ok r) : c.Step n r.call r.next := by
  unfold syncEtcdClus at h
  refine handleClusterEvent_step ?_ (fun _ => hsyncs) h
  intro htype
  split at htype
  · cases htype
  · cases htype

theorem handle_step (h : n.handle c = .ok r) : c.Step n r.call r.next := by
  unfold Notice.handle onAddEtcdClus onUpdateEtcdClus onDeleteEtcdClus at h
  split at h
  · next hkind =>
    split at h
    · next clus hobj =>
      exact syncEtcdClus_step ⟨by rw [hkind]; simp, hobj⟩ h
    · cases h
  · next hkind =>
    split at h
    · next clus hobj =>
      exact syncEtcdClus_step ⟨by rw [hkind]; simp, hobj⟩ h
    · cases h
  · next hkind =>
    split at h
    · next clus hobj =>
      exact handleClusterEvent_step (fun _ => ⟨hkind, hobj⟩)
        (fun htype => absurd rfl htype) h
    · cases h

-- ======================================================== what is in it

/-- What is in the map has been created, is in it once, and can still be
stopped. -/
structure Controller.Registered (c : Controller) : Prop where
  created : ∀ name id, c.clusters.lookup name = some id → id < c.created
  once : ∀ name name' id, c.clusters.lookup name = some id →
    c.clusters.lookup name' = some id → name = name'
  running : ∀ name id, c.clusters.lookup name = some id → id ∉ c.stopped
  stopped : ∀ id ∈ c.stopped, id < c.created

namespace Controller

theorem registered_new : Controller.new.Registered where
  created _ _ h := by cases h
  once _ _ _ h := by cases h
  running _ _ h := by cases h
  stopped _ h := by cases h

/-- An entry that is left after a removal. -/
theorem lookup_of_erase {name name' : String} {id : Nat}
    (h : (c.clusters.erase name).lookup name' = some id) :
    name' ≠ name ∧ c.clusters.lookup name' = some id := by
  by_cases heq : name' = name
  · subst heq
    rw [AList.lookup_erase] at h
    cases h
  · rw [AList.lookup_erase_ne heq] at h
    exact ⟨heq, h⟩

/-- An entry of the map with one more Cluster in it. -/
theorem lookup_of_insert {name name' : String} {id new : Nat}
    (h : (c.clusters.insert name new).lookup name' = some id) :
    name' = name ∧ id = new
      ∨ name' ≠ name ∧ c.clusters.lookup name' = some id := by
  by_cases heq : name' = name
  · subst heq
    rw [AList.lookup_insert] at h
    exact Or.inl ⟨rfl, (Option.some.inj h).symm⟩
  · rw [AList.lookup_insert_ne heq] at h
    exact Or.inr ⟨heq, h⟩

theorem Registered.step (hc : c.Registered) (h : c.Step n call c') :
    c'.Registered := by
  cases h with
  | quiet => exact hc
  | ignored => exact ⟨hc.created, hc.once, hc.running, hc.stopped⟩
  | update => exact ⟨hc.created, hc.once, hc.running, hc.stopped⟩
  | dropped name =>
      exact
        { created := fun name' id h =>
            hc.created name' id (lookup_of_erase h).2
          once := fun name' name'' id h h' => hc.once name' name'' id
            (lookup_of_erase h).2 (lookup_of_erase h').2
          running := fun name' id h =>
            hc.running name' id (lookup_of_erase h).2
          stopped := hc.stopped }
  | new rss habsent =>
      refine ⟨?_, ?_, ?_, ?_⟩
      · intro name id h
        rcases lookup_of_insert h with ⟨-, rfl⟩ | ⟨-, h⟩
        · exact Nat.lt_succ_self _
        · exact Nat.lt_succ_of_lt (hc.created name id h)
      · intro name name' id h h'
        rcases lookup_of_insert h with ⟨rfl, rfl⟩ | ⟨-, h⟩
        · rcases lookup_of_insert h' with ⟨rfl, -⟩ | ⟨-, h'⟩
          · rfl
          · exact absurd (hc.created name' _ h') (Nat.lt_irrefl _)
        · rcases lookup_of_insert h' with ⟨-, rfl⟩ | ⟨-, h'⟩
          · exact absurd (hc.created name _ h) (Nat.lt_irrefl _)
          · exact hc.once name name' id h h'
      · intro name id h
        rcases lookup_of_insert h with ⟨-, rfl⟩ | ⟨-, h⟩
        · intro hmem
          exact absurd (hc.stopped _ hmem) (Nat.lt_irrefl _)
        · exact hc.running name id h
      · intro id hid
        exact Nat.lt_succ_of_lt (hc.stopped id hid)
  | delete name id hentry =>
      refine ⟨?_, ?_, ?_, ?_⟩
      · intro name' id' h
        exact hc.created name' id' (lookup_of_erase h).2
      · intro name' name'' id' h h'
        exact hc.once name' name'' id' (lookup_of_erase h).2
          (lookup_of_erase h').2
      · intro name' id' h
        obtain ⟨hne, hkept⟩ := lookup_of_erase h
        intro hmem
        rcases List.mem_cons.mp hmem with rfl | hmem
        · exact hne (hc.once name' name id' hkept hentry)
        · exact hc.running name' id' hkept hmem
      · intro id' hid
        rcases List.mem_cons.mp hid with rfl | hid
        · exact hc.created name id' hentry
        · exact hc.stopped id' hid

end Controller

-- =============================================================== faults

theorem validate_fault {fault : Fault}
    (h : clus.validate o = .error fault) : fault = .nilPointer := by
  unfold ReplicatedStatefulSet.validate at h
  dsimp only at h
  split at h
  · cases h
  · next tp _ =>
    unfold TLSPolicy.validate at h
    split at h
    · cases h
    · split at h
      · split at h
        · cases h
          rfl
        · cases h
      · split at h
        · cases h
        · cases h

/-- A channel is closed twice only if a Cluster in the map is stopped. -/
theorem handleClusterEvent_close
    (h : handleClusterEvent o type clus c = .error .closeOfClosedChannel) :
    ∃ name id, c.clusters.lookup name = some id ∧ id ∈ c.stopped := by
  unfold handleClusterEvent at h
  split at h
  · dsimp only at h
    split at h
    · cases h
    · cases h
  · dsimp only at h
    split at h
    · next fault hfault =>
      cases h
      cases validate_fault hfault
    · cases h
    · split at h
      · cases h
      · cases h
      · cases h
      · next id hentry =>
        unfold Controller.retire at h
        split at h
        · next hstopped => exact ⟨_, id, hentry, hstopped⟩
        · cases h
      · cases h

theorem Controller.Registered.handle_ne (hc : c.Registered) (n : Notice) :
    n.handle c ≠ .error .closeOfClosedChannel := by
  intro h
  have hstopped : ∃ name id, c.clusters.lookup name = some id
      ∧ id ∈ c.stopped := by
    unfold Notice.handle onAddEtcdClus onUpdateEtcdClus onDeleteEtcdClus
      syncEtcdClus at h
    split at h
    · split at h
      · exact handleClusterEvent_close h
      · cases h
    · split at h
      · exact handleClusterEvent_close h
      · cases h
    · split at h
      · exact handleClusterEvent_close h
      · cases h
  obtain ⟨name, id, hentry, hid⟩ := hstopped
  exact hc.running name id hentry hid

-- ============================================================== history

namespace History

variable {h : History}

/-- The two ways a history goes on. -/
theorem step_cases (h : History) (n : Notice) :
    (h.step n).now = h.now ∧ (h.step n).calls = h.calls
        ∧ (h.fault ≠ none ∧ (h.step n).fault = h.fault
          ∨ h.fault = none ∧ ∃ fault, n.handle h.now = .error fault
            ∧ (h.step n).fault = some fault)
      ∨ h.fault = none ∧ ∃ r, n.handle h.now = .ok r
        ∧ h.step n = { now := r.next
                       calls := match r.call with
                         | none => h.calls
                         | some call => (h.now, call) :: h.calls
                       fault := none } := by
  unfold step
  cases hfault : h.fault with
  | some fault => exact Or.inl ⟨rfl, rfl, Or.inl ⟨by simp, hfault⟩⟩
  | none =>
      dsimp only
      cases hn : n.handle h.now with
      | error fault =>
          exact Or.inl ⟨rfl, rfl, Or.inr ⟨rfl, fault, rfl, rfl⟩⟩
      | ok r => exact Or.inr ⟨rfl, r, rfl, rfl⟩

/-- The protocol between the controller and the Clusters. -/
structure Lifecycle (h : History) : Prop where
  /-- After a `Delete` there is no other and no `Update`. -/
  deleted_last : h.calls.Pairwise fun later earlier =>
    ∀ id, earlier.2 = .delete id →
      later.2 ≠ .delete id ∧ ∀ rss, later.2 ≠ .update id rss
  /-- `New` is called for names that have no entry. -/
  new_absent : ∀ e ∈ h.calls, ∀ id rss, e.2 = .new id rss →
    e.1.clusters.lookup rss.name = none
  /-- No channel is closed twice. -/
  closed_once : h.fault ≠ some .closeOfClosedChannel

/-- What a history keeps: the protocol, and that the Clusters deleted so
far are the stopped ones. -/
structure Kept (h : History) : Prop extends h.Lifecycle where
  registered : h.now.Registered
  deleted : ∀ e ∈ h.calls, ∀ id, e.2 = .delete id → id ∈ h.now.stopped

theorem kept_start : History.start.Kept where
  deleted_last := .nil
  new_absent _ h := by cases h
  closed_once := by intro h; cases h
  registered := Controller.registered_new
  deleted _ h := by cases h

/-- A call on a Cluster of the map. -/
theorem Kept.fresh (hk : h.Kept) {name : String} {id : Nat}
    (hentry : h.now.clusters.lookup name = some id) :
    ∀ e ∈ h.calls, e.2 ≠ .delete id := by
  intro e he hdelete
  exact hk.registered.running name id hentry (hk.deleted e he id hdelete)

/-- A call that respects the protocol. -/
theorem Kept.called (hk : h.Kept) {call : ClusterCall} {next : Controller}
    (hreg : next.Registered)
    (hlast : ∀ e ∈ h.calls, ∀ id, e.2 = .delete id →
      call ≠ .delete id ∧ ∀ rss, call ≠ .update id rss)
    (hnew : ∀ id rss, call = .new id rss →
      h.now.clusters.lookup rss.name = none)
    (hstopped : ∀ id, id ∈ h.now.stopped ∨ call = .delete id →
      id ∈ next.stopped) :
    Kept ⟨next, (h.now, call) :: h.calls, none⟩ where
  deleted_last := List.pairwise_cons.mpr ⟨hlast, hk.deleted_last⟩
  new_absent := List.forall_mem_cons.mpr ⟨hnew, hk.new_absent⟩
  closed_once := by intro hfault; cases hfault
  registered := hreg
  deleted := by
    intro e he id hdelete
    rcases List.mem_cons.mp he with rfl | he
    · exact hstopped id (Or.inr hdelete)
    · exact hstopped id (Or.inl (hk.deleted e he id hdelete))

theorem Kept.step (hk : h.Kept) (n : Notice) : (h.step n).Kept := by
  rcases step_cases h n with ⟨hnow, hcalls, hfault⟩ | ⟨hfault, r, hr, heq⟩
  · refine ⟨⟨?_, ?_, ?_⟩, ?_, ?_⟩
    · rw [hcalls]
      exact hk.deleted_last
    · rw [hcalls]
      exact hk.new_absent
    · rcases hfault with ⟨-, hsame⟩ | ⟨-, fault, hn, hfault⟩
      · rw [hsame]
        exact hk.closed_once
      · rw [hfault]
        intro hclose
        cases hclose
        exact hk.registered.handle_ne n hn
    · rw [hnow]
      exact hk.registered
    · rw [hnow, hcalls]
      exact hk.deleted
  · have hstep := handle_step hr
    have hreg := hk.registered.step hstep
    rw [heq]
    obtain ⟨err, call, next⟩ := r
    dsimp only at hstep hreg ⊢
    cases hstep with
    | quiet =>
        exact ⟨⟨hk.deleted_last, hk.new_absent, by simp⟩, hreg, hk.deleted⟩
    | ignored =>
        exact ⟨⟨hk.deleted_last, hk.new_absent, by simp⟩, hreg, hk.deleted⟩
    | dropped name =>
        exact ⟨⟨hk.deleted_last, hk.new_absent, by simp⟩, hreg, hk.deleted⟩
    | new rss habsent =>
        apply hk.called hreg
        · intro e _ id _
          exact ⟨by simp, by simp⟩
        · intro id rss' hcall
          cases hcall
          exact habsent
        · intro id hid
          exact hid.resolve_right (by simp)
    | update clus id _ _ _ hentry =>
        apply hk.called hreg
        · intro e he id' hdelete
          refine ⟨by simp, ?_⟩
          intro rss' hcall
          cases hcall
          exact hk.fresh hentry e he hdelete
        · intro id' rss' hcall
          cases hcall
        · intro id' hid
          exact hid.resolve_right (by simp)
    | delete name id hentry =>
        apply hk.called hreg
        · intro e he id' hdelete
          refine ⟨?_, by simp⟩
          intro hcall
          cases hcall
          exact hk.fresh hentry e he hdelete
        · intro id' rss' hcall
          cases hcall
        · intro id' hid
          rcases hid with hid | hcall
          · exact List.mem_cons_of_mem _ hid
          · cases hcall
            exact List.mem_cons_self

theorem Kept.run (notices : List Notice) :
    ∀ {h : History}, h.Kept → (h.run notices).Kept := by
  induction notices with
  | nil => intro h hk; exact hk
  | cons n notices ih => intro h hk; exact ih (hk.step n)

end History

/-- Over every sequence of notifications each Cluster is deleted at most
once and not updated afterwards, no channel is closed twice, and a Cluster
is created only for a name that has none. -/
theorem lifecycle (notices : List Notice) :
    (History.start.run notices).Lifecycle :=
  (History.kept_start.run notices).toLifecycle

-- ============================================================ deletions

/-- The name has no Cluster any more, and the one it had is stopped. -/
structure Retired (c : Controller) (clus : ReplicatedStatefulSet)
    (c' : Controller) : Prop where
  entry : c'.clusters.lookup clus.name = none
  stopped : ∀ id, c.clusters.lookup clus.name = some id → id ∈ c'.stopped

/-- A resource whose name has no Cluster gets a new one. -/
theorem syncEtcdClus_new (habsent : c.clusters.lookup clus.name = none)
    (hphase : clus.status.phase ≠ .failed) (hvalid : clus.Valid) :
    syncEtcdClus o clus c
      = .ok ⟨none, some (.new c.created clus.cleaned),
          { c with
            clusters := c.clusters.insert clus.name c.created
            created := c.created + 1
            metrics := c.metrics.incCreated }⟩ := by
  have hok := (ReplicatedStatefulSet.validate_ok_iff (o := o)).mpr hvalid
  have habsent' : c.clusters.lookup clus.cleaned.name = none := habsent
  unfold syncEtcdClus handleClusterEvent
  rw [habsent, if_neg hphase]
  dsimp only
  rw [ReplicatedStatefulSet.validate_cleaned, hok, habsent']
  rfl

/-- One whose name has a Cluster is sent on to it. -/
theorem handle_update {id : Nat} (hsyncs : n.syncs clus)
    (hphase : clus.status.phase ≠ .failed) (hvalid : clus.Valid)
    (hentry : c.clusters.lookup clus.name = some id) :
    n.handle c = .ok ⟨none, some (.update id clus.cleaned),
      { c with metrics := c.metrics.incModified }⟩ := by
  obtain ⟨hkind, hobj⟩ := hsyncs
  have hsync : syncEtcdClus n.order clus c
      = .ok ⟨none, some (.update id clus.cleaned),
        { c with metrics := c.metrics.incModified }⟩ := by
    have hok :=
      (ReplicatedStatefulSet.validate_ok_iff (o := n.order)).mpr hvalid
    have hentry' : c.clusters.lookup clus.cleaned.name = some id := hentry
    unfold syncEtcdClus handleClusterEvent
    rw [hentry, if_neg hphase]
    dsimp only
    rw [ReplicatedStatefulSet.validate_cleaned, hok, hentry']
    rfl
  unfold Notice.handle onAddEtcdClus onUpdateEtcdClus
  rw [hobj]
  cases hk : n.kind with
  | add => exact hsync
  | update => exact hsync
  | delete => exact absurd hk hkind

/-- A deletion that gets as far as the Cluster, or finds none. -/
def Retirable (c : Controller) (clus : ReplicatedStatefulSet) : Prop :=
  c.clusters.lookup clus.name = none
    ∨ clus.status.phase ≠ .failed ∧ clus.Valid

/-- The deletion of a failed resource: nobody is stopped. -/
theorem handleClusterEvent_failed (o : Order String)
    (hphase : clus.status.phase = .failed) (c : Controller) :
    handleClusterEvent o .deleted clus c
      = .ok ⟨none, none,
          { c with
            clusters := c.clusters.erase clus.name
            metrics := c.metrics.incFailed }⟩ := by
  unfold handleClusterEvent
  rw [if_pos hphase]
  rfl

/-- The deletion of an invalid one ends before its Cluster is looked
up. -/
theorem handleClusterEvent_invalid (hphase : clus.status.phase ≠ .failed)
    (hinvalid : ¬ clus.Valid)
    (h : handleClusterEvent o .deleted clus c = .ok r) : r.next = c := by
  unfold handleClusterEvent at h
  rw [if_neg hphase] at h
  dsimp only at h
  rw [ReplicatedStatefulSet.validate_cleaned] at h
  split at h
  · cases h
  · cases h
    rfl
  · next hok =>
    exact absurd (ReplicatedStatefulSet.validate_ok_iff.mp hok) hinvalid

/-- The deletion of a valid one. -/
theorem handleClusterEvent_valid (o : Order String)
    (hphase : clus.status.phase ≠ .failed) (hvalid : clus.Valid)
    (c : Controller) :
    handleClusterEvent o .deleted clus c
      = match c.clusters.lookup clus.name with
        | some id => c.retire clus.name id
        | none => .ok ⟨some (.neverCreated clus.name .deleted), none, c⟩ := by
  have hok := (ReplicatedStatefulSet.validate_ok_iff (o := o)).mpr hvalid
  have hname : clus.cleaned.name = clus.name := rfl
  unfold handleClusterEvent
  rw [if_neg hphase]
  dsimp only
  rw [ReplicatedStatefulSet.validate_cleaned, hok, hname]
  cases c.clusters.lookup clus.name with
  | none => rfl
  | some id => rfl

/-- A name that has no Cluster to stop. -/
theorem Retired.of_absent {c' : Controller}
    (habsent : c.clusters.lookup clus.name = none)
    (hentry : c'.clusters.lookup clus.name = none) : Retired c clus c' := by
  refine ⟨hentry, ?_⟩
  intro id hid
  rw [habsent] at hid
  cases hid

/-- A valid resource that has not failed is retired. -/
theorem retired_of_valid (hc : c.Registered)
    (hphase : clus.status.phase ≠ .failed) (hvalid : clus.Valid)
    (h : handleClusterEvent o .deleted clus c = .ok r) :
    Retired c clus r.next := by
  rw [handleClusterEvent_valid o hphase hvalid] at h
  cases hentry : c.clusters.lookup clus.name with
  | none =>
      rw [hentry] at h
      cases h
      exact .of_absent hentry hentry
  | some id =>
      rw [hentry] at h
      dsimp only at h
      unfold Controller.retire at h
      rw [if_neg (hc.running _ id hentry)] at h
      cases h
      refine ⟨AList.lookup_erase _ _, ?_⟩
      intro id' hid
      rw [hentry] at hid
      cases hid
      exact List.mem_cons_self

theorem retired_iff (hc : c.Registered)
    (h : handleClusterEvent o .deleted clus c = .ok r) :
    Retired c clus r.next ↔ Retirable c clus := by
  unfold Retirable
  by_cases hfailed : clus.status.phase = .failed
  · -- the entry is dropped and nobody is stopped
    rw [handleClusterEvent_failed o hfailed] at h
    cases h
    constructor
    · intro hret
      left
      cases hentry : c.clusters.lookup clus.name with
      | none => rfl
      | some id =>
          exact absurd (hret.stopped id hentry) (hc.running _ id hentry)
    · intro h
      exact .of_absent (h.resolve_right fun h => h.1 hfailed)
        (AList.lookup_erase _ _)
  · by_cases hvalid : clus.Valid
    · exact iff_of_true (retired_of_valid hc hfailed hvalid h)
        (Or.inr ⟨hfailed, hvalid⟩)
    · have hsame := handleClusterEvent_invalid hfailed hvalid h
      rw [hsame]
      constructor
      · intro hret
        exact Or.inl hret.entry
      · intro h
        have hnone := h.resolve_right fun h => hvalid h.2
        exact .of_absent hnone hnone

/-- Every deletion that is handled goes from a controller, with a
resource, to a controller with `P`. -/
def EveryDelete
    (P : Controller → ReplicatedStatefulSet → Controller → Prop) :
    History → List Notice → Prop
  | _, [] => True
  | h, n :: notices =>
      (∀ clus, n.deletes clus → (h.step n).fault = none →
        P h.now clus (h.step n).now)
      ∧ EveryDelete P (h.step n) notices

/-- Every Cluster that has not been stopped is the one its name has. -/
def History.OneOpen (h : History) : Prop :=
  ∀ e ∈ h.calls, ∀ id rss, e.2 = .new id rss → id ∉ h.now.stopped →
    h.now.clusters.lookup rss.name = some id

theorem handle_of_deletes (h : n.deletes clus) (c : Controller) :
    n.handle c = handleClusterEvent n.order .deleted clus c := by
  obtain ⟨hkind, hobj⟩ := h
  unfold Notice.handle onDeleteEtcdClus
  rw [hkind, hobj]

/-- A step without a fault has handled its notification. -/
theorem History.step_handled {h : History}
    (hok : (h.step n).fault = none) :
    ∃ r, n.handle h.now = .ok r ∧ (h.step n).now = r.next := by
  rcases step_cases h n with ⟨-, -, hfault⟩ | ⟨-, r, hr, heq⟩
  · rcases hfault with ⟨hbefore, hsame⟩ | ⟨-, fault, -, hfault⟩
    · exact absurd (hsame.symm.trans hok) hbefore
    · rw [hok] at hfault
      cases hfault
  · refine ⟨r, hr, ?_⟩
    rw [heq]

theorem everyDelete_retired_iff (notices : List Notice) :
    ∀ h : History, h.Kept →
      (EveryDelete Retired h notices
        ↔ EveryDelete (fun c clus _ => Retirable c clus) h notices) := by
  induction notices with
  | nil => intro h _; exact Iff.rfl
  | cons n notices ih =>
      intro h hk
      refine and_congr ?_ (ih (h.step n) (hk.step n))
      refine forall_congr' fun clus => forall_congr' fun hdeletes =>
        forall_congr' fun hok => ?_
      obtain ⟨r, hr, hnext⟩ := History.step_handled hok
      rw [handle_of_deletes hdeletes] at hr
      rw [hnext]
      exact retired_iff hk.registered hr

namespace History

theorem OneOpen.step {h : History} (ho : h.OneOpen)
    (hret : ∀ clus, n.deletes clus → (h.step n).fault = none →
      Retired h.now clus (h.step n).now) :
    (h.step n).OneOpen := by
  rcases step_cases h n with ⟨hnow, hcalls, -⟩ | ⟨hfault, r, hr, heq⟩
  · unfold OneOpen
    rw [hnow, hcalls]
    exact ho
  · have hstep := handle_step hr
    rw [heq] at hret ⊢
    obtain ⟨err, call, next⟩ := r
    dsimp only at hstep hret ⊢
    cases hstep with
    | quiet => exact ho
    | ignored => exact ho
    | dropped clus hdeletes =>
        intro e he id rss hcall hopen
        have hentry := ho e he id rss hcall hopen
        by_cases hname : rss.name = clus.name
        · rw [hname] at hentry
          exact absurd ((hret clus hdeletes rfl).stopped id hentry) hopen
        · exact (AList.lookup_erase_ne hname).trans hentry
    | new rss habsent =>
        intro e he id rss' hcall hopen
        rcases List.mem_cons.mp he with rfl | he
        · cases hcall
          exact AList.lookup_insert _
        · have hentry := ho e he id rss' hcall hopen
          have hname : rss'.name ≠ rss.name := by
            intro hname
            rw [hname, habsent] at hentry
            cases hentry
          exact (AList.lookup_insert_ne hname).trans hentry
    | update clus id _ _ _ _ =>
        intro e he id' rss' hcall hopen
        rcases List.mem_cons.mp he with rfl | he
        · cases hcall
        · exact ho e he id' rss' hcall hopen
    | delete name id hentry =>
        intro e he id' rss' hcall hopen
        rcases List.mem_cons.mp he with rfl | he
        · cases hcall
        · have hentry' := ho e he id' rss' hcall
            (fun hmem => hopen (List.mem_cons_of_mem _ hmem))
          have hname : rss'.name ≠ name := by
            intro hname
            rw [hname, hentry] at hentry'
            cases hentry'
            exact hopen List.mem_cons_self
          exact (AList.lookup_erase_ne hname).trans hentry'

theorem OneOpen.run (notices : List Notice) :
    ∀ {h : History}, h.OneOpen → EveryDelete Retired h notices →
      (h.run notices).OneOpen := by
  induction notices with
  | nil => intro h ho _; exact ho
  | cons n notices ih =>
      intro h ho hret
      exact ih (ho.step hret.1) hret.2

end History

/-- Over every sequence of notifications, each deletion that is handled
retires the Cluster of its name, exactly if each of them finds no Cluster
or comes with a status that is not failed and a spec that is valid. Then
no two open Clusters ever have one name. -/
theorem delete_retires_iff (notices : List Notice) :
    (EveryDelete Retired .start notices
        ↔ EveryDelete (fun c clus _ => Retirable c clus) .start notices)
      ∧ (EveryDelete Retired .start notices →
        (History.start.run notices).OneOpen) := by
  refine ⟨everyDelete_retired_iff notices _ History.kept_start, ?_⟩
  intro hret
  refine History.OneOpen.run notices ?_ hret
  intro e he
  cases he

/-- A notification about a resource. -/
def Notice.about (kind : NoticeKind) (rss : ReplicatedStatefulSet) :
    Notice :=
  ⟨kind, .rss rss, .stored String⟩

/-- A resource whose containers have been edited away. -/
def ReplicatedStatefulSet.emptied : ReplicatedStatefulSet :=
  { ReplicatedStatefulSet.wellFormed .running with
    spec := { (ReplicatedStatefulSet.wellFormed .running).spec with
      containers := [] } }

/-- A resource is accepted, edited to an invalid one, deleted and created
again: its old Cluster runs on and takes the new resource for an update.
If it is deleted as a failed one instead, the old Cluster is forgotten
while it runs, and there are two of one name. -/
theorem delete_leaves_running :
    let accepted := Notice.about .add (.wellFormed .none)
    let invalid := [accepted, .about .update .emptied,
      .about .delete .emptied]
    let failed := [accepted, .about .delete (.wellFormed .failed)]
    let h := History.start.run invalid
    let h' := History.start.run failed
    h.fault = none ∧ h.now.clusters.lookup "db" = some 0
      ∧ h.now.stopped = [] ∧ (h.step accepted).now.created = 1
      ∧ h'.fault = none ∧ h'.now.clusters.lookup "db" = none
      ∧ (h'.step accepted).now.clusters.lookup "db" = some 1
      ∧ (h'.step accepted).now.stopped = []
      ∧ ¬ EveryDelete Retired .start invalid
      ∧ ¬ EveryDelete Retired .start failed := by
  intro accepted invalid failed h h'
  have hentry : h.now.clusters.lookup "db" = some 0 := by decide +kernel
  have hfault : h.fault = none := by decide +kernel
  have hstopped : h'.now.stopped = [] := by decide +kernel
  have hfault' : h'.fault = none := by decide +kernel
  refine ⟨hfault, hentry, by decide +kernel, by decide +kernel, hfault',
    by decide +kernel, by decide +kernel, by decide +kernel, ?_, ?_⟩
  · intro hret
    have hnone := (hret.2.2.1 .emptied ⟨rfl, rfl⟩ hfault).entry
    change h.now.clusters.lookup "db" = none at hnone
    rw [hentry] at hnone
    cases hnone
  · intro hret
    have hid := (hret.2.1 (.wellFormed .failed) ⟨rfl, rfl⟩ hfault').stopped 0
      (by decide +kernel)
    change 0 ∈ h'.now.stopped at hid
    rw [hstopped] at hid
    cases hid

end RssOperator
