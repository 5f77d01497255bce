/-
The gauge of managed clusters, against the map it is to count.

# What moves them

An addition moves both up and a deletion moves both down. A failed
resource is looked at before the type of the event: its deletion removes
the entry of its name, and the gauge stays. So the gauge is ahead of the
map by the number of Clusters that were dropped that way
(`History.gauge_run`), and it is never behind. No later event makes up for
a drop.

# The result

The gauge is exact after every event exactly if no deletion of a failed
resource finds an entry (`gauge_exact_iff`).
-/
import RssOperator.Proofs.Lifecycle

namespace RssOperator

variable {c c' : Controller} {n : Notice} {clus : ReplicatedStatefulSet}
  {call : Option ClusterCall}

-- ========================================================= one event

/-- The gauge shows the number of entries. -/
def Controller.GaugeExact (c : Controller) : Prop :=
  c.metrics.clustersTotal = c.clusters.size

/-- The notification removes the entry of a failed resource. -/
def Notice.drops (n : Notice) (c : Controller) : Bool :=
  match n.kind, n.obj.deleted with
  | .delete, some clus =>
      decide (clus.status.phase = .failed)
        && (c.clusters.lookup clus.name).isSome
  | _, _ => false

theorem Notice.drops_of_deletes (h : n.deletes clus) (c : Controller) :
    n.drops c = (decide (clus.status.phase = .failed)
      && (c.clusters.lookup clus.name).isSome) := by
  unfold Notice.drops
  rw [h.1, h.2]

/-- A notification that drops deletes a failed resource. -/
theorem Notice.deletes_of_drops (h : n.drops c = true) :
    ∃ clus, n.deletes clus ∧ clus.status.phase = .failed := by
  unfold Notice.drops at h
  split at h
  · next clus hkind hobj =>
    simp only [Bool.and_eq_true, decide_eq_true_eq] at h
    exact ⟨clus, ⟨hkind, hobj⟩, h.1⟩
  · cases h

/-- The deletion of a failed resource. -/
theorem handle_failed (hdeletes : n.deletes clus)
    (hphase : clus.status.phase = .failed) :
    n.handle c = .ok ⟨none, none,
      { c with
        clusters := c.clusters.erase clus.name
        metrics := c.metrics.incFailed }⟩ := by
  rw [handle_of_deletes hdeletes]
  exact handleClusterEvent_failed n.order hphase c

/-- The gauge gets ahead of the map by a drop, and by nothing else. -/
theorem handle_gauge {r : EventResult} (h : n.handle c = .ok r) :
    r.next.metrics.clustersTotal - r.next.clusters.size
      = c.metrics.clustersTotal - c.clusters.size
        + (n.drops c).toNat := by
  by_cases hfailed : ∃ clus, n.deletes clus ∧ clus.status.phase = .failed
  · obtain ⟨clus, hdeletes, hphase⟩ := hfailed
    have hsize := GoMap.size_erase clus.name c.clusters
    rw [handle_failed hdeletes hphase] at h
    cases h
    rw [Notice.drops_of_deletes hdeletes, hphase, decide_eq_true rfl,
      Bool.true_and]
    dsimp only [Metrics.incFailed]
    omega
  · have hdrops : n.drops c = false := by
      cases hd : n.drops c with
      | false => rfl
      | true => exact absurd (Notice.deletes_of_drops hd) hfailed
    rw [hdrops, Bool.toNat_false]
    have hstep := handle_step h
    obtain ⟨err, call, next⟩ := r
    dsimp only at hstep ⊢
    cases hstep with
    | quiet => omega
    | ignored =>
        dsimp only [Metrics.incFailed]
        omega
    | dropped clus hdeletes hphase =>
        exact absurd ⟨clus, hdeletes, hphase⟩ hfailed
    | new rss habsent =>
        have hsize := GoMap.size_insert habsent c.created
        dsimp only [Metrics.incCreated]
        omega
    | update clus id _ _ _ hentry =>
        dsimp only [Metrics.incModified]
        omega
    | delete name id hentry =>
        have hsize := GoMap.size_erase name c.clusters
        rw [hentry] at hsize
        simp only [Option.isSome_some, Bool.toNat_true] at hsize
        dsimp only [Metrics.incDeleted]
        omega

-- ============================================================ histories

namespace History

/-- The next notification is handled, and drops. -/
def drops (h : History) (n : Notice) : Bool :=
  h.fault.isNone && n.drops h.now

/-- How far the gauge is ahead of the map. -/
def ahead (h : History) : Int :=
  h.now.metrics.clustersTotal - h.now.clusters.size

theorem ahead_step (h : History) (n : Notice) :
    (h.step n).ahead = h.ahead + (h.drops n).toNat := by
  unfold ahead drops
  rcases step_cases h n with ⟨hnow, -, hfault⟩ | ⟨hfault, r, hr, heq⟩
  · have hnone : (h.fault.isNone && n.drops h.now) = false := by
      rcases hfault with ⟨hbefore, -⟩ | ⟨hbefore, fault, hn, -⟩
      · rw [Option.isNone_eq_false_iff.mpr (Option.isSome_iff_ne_none.mpr
          hbefore), Bool.false_and]
      · cases hd : n.drops h.now with
        | false => rw [Bool.and_false]
        | true =>
            -- such a deletion is answered without a fault
            obtain ⟨clus, hdeletes, hphase⟩ := Notice.deletes_of_drops hd
            rw [handle_failed hdeletes hphase] at hn
            cases hn
    rw [hnow, hnone]
    simp
  · rw [heq, hfault]
    exact handle_gauge hr

/-- The drops of a sequence of notifications. -/
def countDrops (h : History) : List Notice → Nat
  | [] => 0
  | n :: notices => (h.drops n).toNat + (h.step n).countDrops notices

/-- The gauge shows the entries of the map and, besides, every Cluster
that has been dropped. -/
theorem gauge_run (notices : List Notice) : ∀ h : History,
    (h.run notices).ahead = h.ahead + h.countDrops notices := by
  induction notices with
  | nil =>
      intro h
      exact (Int.add_zero _).symm
  | cons n notices ih =>
      intro h
      show ((h.step n).run notices).ahead = _
      rw [ih, ahead_step, countDrops]
      omega

theorem countDrops_append (first later : List Notice) : ∀ h : History,
    h.countDrops (first ++ later)
      = h.countDrops first + (h.run first).countDrops later := by
  induction first with
  | nil =>
      intro h
      exact (Nat.zero_add _).symm
  | cons n first ih =>
      intro h
      show (h.drops n).toNat + (h.step n).countDrops (first ++ later) = _
      rw [ih, countDrops]
      show _ = _ + ((h.step n).run first).countDrops later
      omega

theorem gaugeExact_iff (notices : List Notice) :
    (start.run notices).now.GaugeExact ↔ start.countDrops notices = 0 := by
  have hrun := gauge_run notices start
  have hstart : start.ahead = 0 := rfl
  rw [hstart] at hrun
  unfold ahead at hrun
  unfold Controller.GaugeExact
  omega

end History

/-- Over every sequence of notifications the gauge is exact after each of
them exactly if no failed resource is deleted whose name has a Cluster. -/
theorem gauge_exact_iff (notices : List Notice) :
    (∀ k, (History.start.run (notices.take k)).now.GaugeExact)
      ↔ History.start.countDrops notices = 0 := by
  constructor
  · intro h
    have hall := h notices.length
    rw [List.take_length] at hall
    exact (History.gaugeExact_iff notices).mp hall
  · intro hnone k
    have hsplit := History.countDrops_append (notices.take k)
      (notices.drop k) .start
    rw [List.take_append_drop] at hsplit
    exact (History.gaugeExact_iff _).mpr (by omega)

/-- A resource is accepted, fails and is deleted: the map is empty and the
gauge shows one. -/
theorem gauge_keeps_dropped :
    let notices := [Notice.about .add (.wellFormed .none),
      .about .delete (.wellFormed .failed)]
    let h := History.start.run notices
    h.fault = none ∧ h.now.clusters.size = 0
      ∧ h.now.metrics.clustersTotal = 1 := by
  refine ⟨?_, ?_, ?_⟩ <;> decide +kernel

end RssOperator
