/-
Edits of the spec survive the operator's writes.

# Why

Each copy of the resource on the operator's side was made from the version
it names: the controller changes a spec by `Cleanup` only, and a loop not
at all (`SpecOf`). That is kept by every step, in every order
(`Versions.Kept`). A write is accepted if the copy names the current
version, so its spec is the current one, cleaned up or not, and the current
one is what the user made it, cleaned up or not (`user_edits_kept`).

# The loop

`RssMove` lists what a loop can do to `c.rss`: change the status in it,
write it, get it. A step of the loop begins with what it is handed
(`event_simulated`, `restart_simulated`) and is made of such moves
(`worldStep_moves`), and each of them is a step of the interleaving
(`RssMove.simulated`), provided that the server answers as it is assumed
to.
-/
import RssOperator.Proofs.Phases
import RssOperator.Proofs.Validate
import RssOperator.Versions

namespace RssOperator

open VersionStore (Copy)

-- ================================================================ specs

/-- As it was, or cleaned up. -/
def CleanedOf (spec spec' : ClusterSpec) : Prop :=
  spec' = spec ∨ spec' = spec.cleanup

theorem CleanedOf.trans {spec spec' spec'' : ClusterSpec}
    (h : CleanedOf spec spec') (h' : CleanedOf spec' spec'') :
    CleanedOf spec spec'' := by
  rcases h' with rfl | rfl
  · exact h
  · right
    rcases h with rfl | rfl
    · rfl
    · exact spec.cleanup_cleanup

/-- The copy has the spec of the resource, as it was or cleaned up. -/
def SpecOf (rss copy : ReplicatedStatefulSet) : Prop :=
  CleanedOf rss.spec copy.spec

-- ============================================================ invariant

/-- The copies of a loop were made from the versions they name. -/
structure Holder.Kept (store : VersionStore ReplicatedStatefulSet)
    (h : Holder) : Prop where
  held : h.held.Of SpecOf store
  eventCh : ∀ copy ∈ h.eventCh, copy.Of SpecOf store

/-- So were all copies, and the current spec is the user's. -/
structure Versions.Kept (v : Versions) : Prop where
  current : CleanedOf v.edited v.store.current.spec
  holders : ∀ id h, v.holders id = some h → h.Kept v.store

theorem Holder.Kept.put {store : VersionStore ReplicatedStatefulSet}
    {h : Holder} (hk : h.Kept store) (rss : ReplicatedStatefulSet) :
    h.Kept (store.put rss) where
  held := hk.held.put rss
  eventCh copy hcopy := (hk.eventCh copy hcopy).put rss

namespace Versions

variable {v : Versions} {id : Nat} {h : Holder}

theorem lookup_setHolder (id id' : Nat) (h : Holder) (v : Versions) :
    (v.setHolder id h).holders id'
      = if id' = id then some h else v.holders id' :=
  Function.update_apply _ _ _ _

theorem Kept.setHolder (hk : v.Kept) (hh : h.Kept v.store) (id : Nat) :
    (v.setHolder id h).Kept where
  current := hk.current
  holders id' h' hid := by
    rw [lookup_setHolder] at hid
    split at hid
    · cases hid
      exact hh
    · exact hk.holders id' h' hid

theorem notified_of {version : Nat} {status : ClusterStatus}
    {copy : Copy ReplicatedStatefulSet}
    (h : v.notified version status = some copy) :
    copy.Of SpecOf v.store := by
  unfold notified at h
  split at h
  · next hknown =>
    cases h
    exact ⟨hknown, Or.inr rfl⟩
  · cases h

/-- A write keeps everything, and the spec is still the user's. -/
theorem Kept.write (hk : v.Kept) (hid : v.holders id = some h)
    (refused : Bool) : (v.step (.write id refused)).Kept := by
  have hh := hk.holders id h hid
  unfold step
  dsimp only
  rw [hid]
  dsimp only
  unfold Holder.write
  split
  · exact hk.setHolder hh id
  · dsimp only
    split
    · -- refused: only the status in memory has changed
      apply hk.setHolder
      exact ⟨⟨hh.held.known, hh.held.made⟩, hh.eventCh⟩
    · next store hswap =>
      have hswap : v.store.swap h.held.version
          { h.held.value with status := h.status } = some store := by
        split at hswap
        · cases hswap
        · exact hswap
      obtain ⟨hspec, rfl⟩ := hh.held.swap hswap
      have hput : Versions.Kept { v with
          store := v.store.put
            { h.held.value with status := h.status } } := by
        refine ⟨?_, ?_⟩
        · rw [VersionStore.current_put]
          exact hk.current.trans hspec
        · intro id' h' hid'
          exact (hk.holders id' h' hid').put _
      apply hput.setHolder
      refine ⟨Copy.Of.fetched ?_, (hh.put _).eventCh⟩
      exact Or.inl rfl

theorem Kept.step (hk : v.Kept) (i : VersionStep) : (v.step i).Kept := by
  cases i with
  | edit spec =>
      refine ⟨?_, ?_⟩
      · show CleanedOf spec (v.store.put _).current.spec
        rw [VersionStore.current_put]
        exact Or.inl rfl
      · intro id h hid
        exact (hk.holders id h hid).put _
  | start id version status =>
      unfold Versions.step
      dsimp only
      split
      · exact hk
      · next copy hcopy =>
        exact hk.setHolder ⟨notified_of hcopy, by simp⟩ id
  | deliver id version status =>
      unfold Versions.step
      dsimp only
      split
      · next h copy hid hcopy =>
        have hh := hk.holders id h hid
        apply hk.setHolder
        refine ⟨hh.held, ?_⟩
        intro copy' hmem
        rcases List.mem_append.mp hmem with hmem | hmem
        · exact hh.eventCh copy' hmem
        · rw [List.mem_singleton.mp hmem]
          exact notified_of hcopy
      · exact hk
  | take id =>
      unfold Versions.step
      dsimp only
      split
      · next held status copy rest hid =>
        have hh := hk.holders id _ hid
        exact hk.setHolder ⟨hh.eventCh copy List.mem_cons_self,
          fun copy' hmem => hh.eventCh copy' (List.mem_cons_of_mem _ hmem)⟩
          id
      · exact hk
  | assign id status held =>
      unfold Versions.step
      dsimp only
      split
      · exact hk
      · next h hid =>
        have hh := hk.holders id h hid
        apply hk.setHolder
        exact ⟨⟨hh.held.known, hh.held.made⟩, hh.eventCh⟩
  | write id refused =>
      cases hid : v.holders id with
      | none =>
          unfold Versions.step
          dsimp only
          rw [hid]
          exact hk
      | some h => exact hk.write hid refused
  | fetch id =>
      unfold Versions.step
      dsimp only
      split
      · exact hk
      · next h hid =>
        have hh := hk.holders id h hid
        apply hk.setHolder
        refine ⟨Copy.Of.fetched ?_, hh.eventCh⟩
        exact Or.inl rfl

theorem Kept.run (steps : List VersionStep) :
    ∀ {v : Versions}, v.Kept → (v.run steps).Kept := by
  induction steps with
  | nil => intro v hk; exact hk
  | cons i steps ih => intro v hk; exact ih (hk.step i)

theorem kept_created (rss : ReplicatedStatefulSet) :
    (Versions.created rss).Kept where
  current := Or.inl rfl
  holders _ _ h := by cases h

end Versions

/-- In every interleaving of edits, deliveries and the reads and writes of
any number of loops, the stored spec is the one the user last made it, but
for the memory request that `Cleanup` fills in. -/
theorem user_edits_kept (rss : ReplicatedStatefulSet)
    (steps : List VersionStep) :
    let v := (Versions.created rss).run steps
    v.store.current.spec = v.edited
      ∨ v.store.current.spec = v.edited.cleanup :=
  ((Versions.kept_created rss).run steps).current

-- ============================================================= the loop

/-- What a loop does to the resource it holds. -/
inductive RssMove (env : Env) (s : Sys) : Sys → Prop
  /-- Nothing, or a change of the status in it. -/
  | assigns {s' : Sys}
      (hrss : s'.c.rss = { s.c.rss with status := s'.c.rss.status }) :
      RssMove env s s'
  | writes (caller : String) : RssMove env s (updateCRStatus env caller s).2
  | fetches {s' : Sys} {rss : ReplicatedStatefulSet}
      (hget : env.get s.calls = .ok rss) (hrss : s'.c.rss = rss)
      (hstatus : s'.c.status = s.c.status) : RssMove env s s'

/-- Any number of moves. -/
abbrev RssMoves (env : Env) : Sys → Sys → Prop :=
  Relation.ReflTransGen (RssMove env)

section Moves

variable {env : Env} {kube : Kube} {s s' : Sys} {w : World}

theorem RssMoves.same (h : s'.c.rss = s.c.rss) : RssMoves env s s' := by
  refine Relation.ReflTransGen.single (.assigns ?_)
  rw [h]

theorem Cluster.rss_writeShared (pos : Nat) (vals : List ClusterCondition)
    (c : Cluster) :
    (c.writeShared pos vals).rss
      = { c.rss with status := (c.writeShared pos vals).rss.status } := by
  unfold writeShared
  split
  · rfl
  · rfl

theorem Cluster.rss_setClusterCondition (moved : Bool)
    (new : ClusterCondition) (c : Cluster) :
    (c.setClusterCondition moved new).rss
      = { c.rss with status := (c.setClusterCondition moved new).rss.status } := by
  unfold setClusterCondition
  dsimp only
  split
  · split
    · rfl
    · exact c.rss_writeShared _ _
  · split
    · rfl
    · split
      · rfl
      · exact c.rss_writeShared _ _

theorem Cluster.rss_clearCondition (t : ClusterConditionType)
    (c : Cluster) :
    (c.clearCondition t).rss
      = { c.rss with status := (c.clearCondition t).rss.status } := by
  unfold clearCondition
  dsimp only
  split
  · rfl
  · exact c.rss_writeShared _ _

theorem RssMoves.frame (env : Env) : Frame env (RssMoves env) where
  refl _ := .refl
  trans := Relation.ReflTransGen.trans
  start _ _ _ _ := .same rfl
  stop _ _ _ := .same rfl
  sequence _ _ _ := .same rfl
  status _ _ _ := .same rfl
  update _ _ _ := .same rfl
  setPeers _ _ := .same rfl
  ranged _ _ := .same rfl
  tagged _ _ _ _ := .same rfl
  deleted _ _ _ _ := .same rfl
  setCondition _ _ _ s :=
    .single (.assigns (s.c.rss_setClusterCondition _ _))
  clearCondition t s := .single (.assigns (s.c.rss_clearCondition t))
  resized _ _ := .same rfl
  updateCRStatus caller _ := .single (.writes caller)

theorem RssMoves.worldFrame (env : Env) :
    WorldFrame env (RssMoves env) where
  refl _ := .refl
  trans := Relation.ReflTransGen.trans
  mapStatus _ _ := .same rfl
  updateCRStatus caller _ := .single (.writes caller)
  missed _ _ _ := .same rfl
  fetched _ _ hget := .single (.fetches hget rfl rfl)

/-- The state in which a step of a loop begins: what it is handed, the
controller has cleaned up. -/
def WorldStep.entry (w : World) : WorldStep → Sys
  | .timer .. => w.sys
  | .event rss => if w.alive then w.sys.took rss else w.sys
  | .restart rss => (w.handed rss).sys

/-- Every step of the loop is made of moves. -/
theorem worldStep_moves (w : World) (i : WorldStep) :
    RssMoves env (i.entry w) (i.step env kube w).sys := by
  cases i with
  | timer fuel poll =>
      unfold WorldStep.step
      dsimp only
      split
      · exact (RssMoves.frame env).tick (fun _ _ _ => .same rfl) fuel poll
          w.sys
      · exact .refl
  | event rss =>
      unfold WorldStep.step WorldStep.entry
      dsimp only
      split
      · exact (RssMoves.worldFrame env).eventBranch rss w
      · exact .refl
  | restart rss => exact (RssMoves.worldFrame env).launch rss w

end Moves

-- =========================================================== refinement

/-- The loop's part of a state is what its model has. -/
structure Holder.Shows (h : Holder) (s : Sys) : Prop where
  held : h.held.value = s.c.rss
  status : h.status = s.c.status

/-- The steps a loop takes by itself. -/
def VersionStep.isOf (id : Nat) : VersionStep → Prop
  | .assign id' .. | .write id' _ | .fetch id' => id' = id
  | _ => False

/-- A write of the model is the one of the loop, if the server accepts no
other than those of the current version. -/
theorem Holder.Shows.write {env : Env} {s : Sys} {h : Holder}
    {store : VersionStore ReplicatedStatefulSet} (hshows : h.Shows s)
    (hswap : env.update s.calls = none → h.held.version = store.version)
    (caller : String) :
    (h.write (env.update s.calls).isSome store).2.Shows
      (updateCRStatus env caller s).2 := by
  obtain ⟨hheld, hstatus⟩ := hshows
  unfold Holder.write
  rw [hheld, hstatus]
  by_cases heq : s.c.rss.status = s.c.status
  · rw [if_pos heq, updateCRStatus_equal caller heq]
    exact ⟨hheld, hstatus⟩
  · rw [if_neg heq, updateCRStatus_differ caller heq]
    cases hupdate : env.update s.calls with
    | some err => exact ⟨rfl, rfl⟩
    | none =>
        have haccepted : store.swap h.held.version
            { s.c.rss with status := s.c.status }
            = some (store.put { s.c.rss with status := s.c.status }) :=
          if_pos (hswap hupdate)
        simp only [Option.isSome_none, Bool.false_eq_true, if_false,
          haccepted]
        exact ⟨VersionStore.current_put _ _, rfl⟩

section Simulation

variable {env : Env} {s s' : Sys} {w : World} {v : Versions} {id : Nat}
  {h : Holder}

/-- Each move of a loop is a step of the interleaving, if the server also
answers a `Get` with the current contents. -/
theorem RssMove.simulated (hmove : RssMove env s s')
    (hid : v.holders id = some h) (hshows : h.Shows s)
    (hswap : env.update s.calls = none →
      h.held.version = v.store.version)
    (hcurrent : ∀ rss, env.get s.calls = .ok rss →
      v.store.current = rss) :
    ∃ i h', i.isOf id ∧ (v.step i).holders id = some h' ∧ h'.Shows s' := by
  cases hmove with
  | assigns hrss =>
      let held : Copy ReplicatedStatefulSet :=
        ⟨h.held.version, { h.held.value with status := s'.c.rss.status }⟩
      refine ⟨.assign id s'.c.status s'.c.rss.status,
        ⟨held, s'.c.status, h.eventCh⟩, rfl, ?_, ?_, rfl⟩
      · simp [Versions.step, hid, Versions.lookup_setHolder, held]
      · rw [hrss, ← hshows.held]
  | writes caller =>
      refine ⟨.write id (env.update s.calls).isSome, _, rfl, ?_,
        hshows.write hswap caller⟩
      simp [Versions.step, hid, Versions.lookup_setHolder]
  | fetches hget hrss hstatus =>
      refine ⟨.fetch id,
        { h with held := ⟨v.store.version, v.store.current⟩ }, rfl, ?_, ?_,
        ?_⟩
      · simp [Versions.step, hid, Versions.lookup_setHolder]
      · rw [hrss]
        exact hcurrent _ hget
      · rw [hstatus]
        exact hshows.status

/-- A loop that handles an event has taken it. -/
theorem event_simulated {copy : Copy ReplicatedStatefulSet}
    {rest : List (Copy ReplicatedStatefulSet)}
    (hid : v.holders id = some h) (hch : h.eventCh = copy :: rest)
    (hshows : h.Shows w.sys) (halive : w.alive = true) :
    ∃ h', (v.step (.take id)).holders id = some h'
      ∧ h'.Shows ((WorldStep.event copy.value).entry w) := by
  obtain ⟨held, status, eventCh⟩ := h
  cases hch
  refine ⟨⟨copy, status, rest⟩, ?_, ?_⟩
  · simp [Versions.step, hid, Versions.lookup_setHolder]
  · unfold WorldStep.entry
    dsimp only
    rw [if_pos halive]
    exact ⟨rfl, hshows.status⟩

/-- A loop that starts has been handed what the controller was notified
of. -/
theorem restart_simulated {copy : Copy ReplicatedStatefulSet}
    {version : Nat} {status : ClusterStatus}
    (hcopy : v.notified version status = some copy) :
    ∃ h', (v.step (.start id version status)).holders id = some h'
      ∧ h'.Shows ((WorldStep.restart copy.value).entry w) := by
  refine ⟨⟨copy, copy.value.status, []⟩, ?_, rfl, rfl⟩
  simp [Versions.step, hcopy, Versions.lookup_setHolder]

end Simulation

end RssOperator
