/-
A cluster is created once, if at all.

# One winner

Before anything is made, the phase `Creating` is written to the resource,
with the version a goroutine was started with. The server takes such a
write from one goroutine only: the copy it comes from still has the empty
phase and is the current version, and no write ever brings the empty phase
back. What is made after that is made by that goroutine, in the order of
the source, and nothing twice (`created_once`).

# Shape of the argument

- `Creation.Step` says what a step can be, as far as the copies, the points
  and the record are concerned; `step_cases` that it is nothing else.
- `Point.Fits` says what a goroutine at a point can rely on: which version
  its copy is of, or how far the record has got. `Creation.Inv` has that
  for every goroutine, and every step keeps it.

# No second try

A goroutine that is killed or fails between the phase and the StatefulSet
is the last one that could make it. The ones after it find the phase
`Creating` or `Failed` and give up, and no loop is ever run
(`half_made_stays`).
-/
import RssOperator.Creation
import RssOperator.Proofs.Versions

namespace RssOperator

open VersionStore (Copy)

variable {s s' : Creation} {id : Nat} {h : Holder} {p p' : Point}
  {trouble : Option Trouble}

-- ========================================================== what is made

/-- All that `create` leaves behind, newest first. -/
def Object.plan : List Object := [.sts, .secret, .service, .phase]

/-- The record of a goroutine that has all but `d` of it. -/
def madeBy (id d : Nat) : List (Nat × Object) :=
  (Object.plan.drop d).map (Prod.mk id)

/-- The StatefulSet has been made. -/
def Creation.StsMade (s : Creation) : Prop :=
  Object.sts ∈ s.made.map Prod.snd

/-- What the phases of a loop stand for. -/
def ClusterPhase.hasRun (phase : ClusterPhase) : Prop :=
  phase = .running ∨ phase = .paused

-- ======================================================== what a step is

/-- A goroutine gets on without making anything. -/
inductive Point.Passes (o : Option Holder) : Point → Point → Prop
  | creates (h : Holder) (ho : o = some h) (hphase : h.status.phase = .none) :
      Passes o .tls .phase
  | resumes (h : Holder) (ho : o = some h)
      (hphase : h.status.phase ≠ .none) : Passes o .tls .initial
  | finds (p : Point) (hp : p = .createService ∨ ∃ v, p = .updateService v) :
      Passes o .getService p
  | fails (p : Point) (err : LoopErr) (hp : p ≠ .gone) :
      Passes o p (.failing err)
  | ends (p : Point) : Passes o p .gone

/-- It makes something. -/
inductive Point.Makes : Point → Object → Point → Prop
  | service (p : Point) (hp : p = .createService ∨ ∃ v, p = .updateService v) :
      Makes p .service .secret
  | secret : Makes .secret .secret .sts
  | sts : Makes .sts .sts .initial

/-- It writes a phase, and gets on whatever comes of it. -/
inductive Point.Writes : Point → ClusterPhase → Point → Prop
  | failed (err : LoopErr) : Writes (.failing err) .failed .gone
  | running : Writes .initial .running .running

/-- The controller does not touch the status. -/
theorem Versions.status_notified {v : Versions} {version : Nat}
    {status : ClusterStatus} {copy : Copy ReplicatedStatefulSet}
    (h : v.notified version status = some copy) :
    copy.value.status = status := by
  unfold notified at h
  split at h
  · cases h
    rfl
  · cases h

namespace Creation

/-- The copies after an `updateCRStatus`. -/
def written (id : Nat) (h : Holder) (status : ClusterStatus)
    (refused : Bool) (s : Creation) : Versions :=
  let w := { h with status := status }.write refused s.versions.store
  { s.versions with store := w.1 }.setHolder id w.2

/-- What a step can be. The objects are in the record. -/
inductive Step (s s' : Creation) : Prop
  | same (hversions : s'.versions = s.versions)
      (hpoints : s'.points = s.points) (hmade : s'.made = s.made)
  | edits (spec : ClusterSpec)
      (hversions : s'.versions = s.versions.step (.edit spec))
      (hpoints : s'.points = s.points) (hmade : s'.made = s.made)
  | delivers (id version : Nat) (status : ClusterStatus)
      (hversions : s'.versions
        = s.versions.step (.deliver id version status))
      (hpoints : s'.points = s.points) (hmade : s'.made = s.made)
  | loops (id : Nat) (i : VersionStep) (hat : s.points id = some .running)
      (hi : i.ofLoop id = true) (hversions : s'.versions = s.versions.step i)
      (hpoints : s'.points = s.points) (hmade : s'.made = s.made)
  | launches (id version : Nat) (copy : Copy ReplicatedStatefulSet)
      (hfree : s.points id = none)
      (hcopy : s.versions.notified version
        (s.versions.store.contents version).status = some copy)
      (hversions : s'.versions
        = s.versions.setHolder id ⟨copy, copy.value.status, []⟩)
      (hpoints : s'.points = Function.update s.points id
        (some (.first copy.value.spec.tls copy.value.status.phase)))
      (hmade : s'.made = s.made)
  | passes (id : Nat) (p p' : Point) (hat : s.points id = some p)
      (hnext : Point.Passes (s.versions.holders id) p p')
      (hversions : s'.versions = s.versions)
      (hpoints : s'.points = Function.update s.points id (some p'))
      (hmade : s'.made = s.made)
  | writes (id : Nat) (h : Holder) (p p' : Point) (status : ClusterStatus)
      (refused : Bool) (hholder : s.versions.holders id = some h)
      (hat : s.points id = some p)
      (hnext : Point.Writes p status.phase p')
      (hversions : s'.versions = s.written id h status refused)
      (hpoints : s'.points = Function.update s.points id (some p'))
      (hmade : s'.made = s.made)
  /-- The phase `Creating` is not written. -/
  | yields (id : Nat) (h : Holder) (refused : Bool) (err : LoopErr)
      (hholder : s.versions.holders id = some h)
      (hat : s.points id = some .phase)
      (hundone : refused = true ∨ h.held.version ≠ s.versions.store.version)
      (hversions : s'.versions = s.written id h
        { h.status with phase := .creating } refused)
      (hpoints : s'.points
        = Function.update s.points id (some (.failing err)))
      (hmade : s'.made = s.made)
  /-- It is written. -/
  | claims (id : Nat) (h : Holder) (refused : Bool)
      (hholder : s.versions.holders id = some h)
      (hat : s.points id = some .phase)
      (hdone : h.held.value.status = { h.status with phase := .creating }
        ∨ refused = false ∧ h.held.version = s.versions.store.version)
      (hversions : s'.versions = s.written id h
        { h.status with phase := .creating } refused)
      (hpoints : s'.points
        = Function.update s.points id (some .getService))
      (hmade : s'.made = (id, .phase) :: s.made)
  | makes (id : Nat) (p p' : Point) (o : Object)
      (hat : s.points id = some p) (hnext : Point.Makes p o p')
      (hversions : s'.versions = s.versions)
      (hpoints : s'.points = Function.update s.points id (some p'))
      (hmade : s'.made = (id, o) :: s.made)

theorem announcePhase_cases (hholder : s.versions.holders id = some h)
    (hat : s.points id = some .phase) :
    Step s (s.announcePhase id h trouble) := by
  unfold announcePhase updateCRStatus
  dsimp only
  cases herr : { h with
      status := { h.status with phase := .creating } }.writeErr trouble
        s.versions.store with
  | some cause =>
      refine .yields id h trouble.isSome _ hholder hat ?_ rfl rfl rfl
      cases trouble with
      | some t => exact Or.inl rfl
      | none =>
          refine Or.inr fun hversion => ?_
          unfold Holder.writeErr at herr
          dsimp only at herr
          rw [if_pos hversion, ite_self] at herr
          cases herr
  | none =>
      refine .claims id h trouble.isSome hholder hat ?_ rfl rfl rfl
      unfold Holder.writeErr at herr
      split at herr
      · next hsame => exact Or.inl hsame
      · cases trouble with
        | some t => cases herr
        | none =>
            dsimp only at herr
            split at herr
            · next hversion => exact Or.inr ⟨rfl, hversion⟩
            · cases herr

theorem getService_cases (hat : s.points id = some .getService) :
    Step s (s.getService id trouble) := by
  have hcreate : Step s (s.move id .createService) :=
    .passes id _ _ hat (.finds _ (Or.inl rfl)) rfl rfl rfl
  unfold getService
  dsimp only
  split
  · exact hcreate
  · exact .passes id _ _ hat (.fails _ _ nofun) rfl rfl rfl
  · split
    · exact hcreate
    · exact .passes id _ _ hat (.finds _ (Or.inr ⟨_, rfl⟩)) rfl rfl rfl

theorem createService_cases (hat : s.points id = some .createService) :
    Step s (s.createService id trouble) := by
  unfold createService
  dsimp only
  split
  · exact .passes id _ _ hat (.fails _ _ nofun) rfl rfl rfl
  · exact .passes id _ _ hat (.fails _ _ nofun) rfl rfl rfl
  · exact .makes id _ _ _ hat (.service _ (Or.inl rfl)) rfl rfl rfl

theorem updateService_cases {version : Nat}
    (hat : s.points id = some (.updateService version)) :
    Step s (s.updateService id version trouble) := by
  have hnext : Point.Makes (.updateService version) .service .secret :=
    .service _ (Or.inr ⟨version, rfl⟩)
  unfold updateService
  dsimp only
  split
  · exact .makes id _ _ _ hat hnext rfl rfl rfl
  · exact .passes id _ _ hat (.fails _ _ nofun) rfl rfl rfl
  · exact .makes id _ _ _ hat hnext rfl rfl rfl
  · split
    · exact .makes id _ _ _ hat hnext rfl rfl rfl
    · exact .passes id _ _ hat (.fails _ _ nofun) rfl rfl rfl

theorem createSecret_cases (hat : s.points id = some .secret) :
    Step s (s.createSecret id trouble) := by
  unfold createSecret
  split
  · exact .passes id _ _ hat (.fails _ _ nofun) rfl rfl rfl
  · exact .passes id _ _ hat (.fails _ _ nofun) rfl rfl rfl
  · exact .makes id _ _ _ hat .secret rfl rfl rfl

theorem createSts_cases (h : Holder) (hat : s.points id = some .sts) :
    Step s (s.createSts id h trouble) := by
  unfold createSts
  split
  · exact .passes id _ _ hat (.fails _ _ nofun) rfl rfl rfl
  · exact .passes id _ _ hat (.fails _ _ nofun) rfl rfl rfl
  · exact .passes id _ _ hat (.fails _ _ nofun) rfl rfl rfl
  · exact .makes id _ _ _ hat .sts rfl rfl rfl

theorem reportSetup_cases {err : LoopErr}
    (hholder : s.versions.holders id = some h)
    (hat : s.points id = some (.failing err)) :
    Step s (s.reportSetup id h err trouble) := by
  unfold reportSetup
  split
  · exact .passes id _ _ hat (.ends _) rfl rfl rfl
  · exact .writes id h _ _ _ _ hholder hat (.failed _) rfl rfl rfl

theorem act_cases (id : Nat) (trouble : Option Trouble) (s : Creation) :
    Step s (s.act id trouble) := by
  unfold act
  split
  · next h hholder hat =>
    split
    · exact .passes id _ _ hat (.fails _ _ nofun) rfl rfl rfl
    · split
      · next hphase =>
        exact .passes id _ _ hat (.creates h hholder hphase) rfl rfl rfl
      · next hphase =>
        exact .passes id _ _ hat (.resumes h hholder hphase) rfl rfl rfl
  · next h hholder hat => exact announcePhase_cases hholder hat
  · next hat => exact getService_cases hat
  · next hat => exact createService_cases hat
  · next hat => exact updateService_cases hat
  · next hat => exact createSecret_cases hat
  · next h _ hat => exact createSts_cases h hat
  · next h err hholder hat => exact reportSetup_cases hholder hat
  · next h hholder hat =>
    exact .writes id h _ _ _ _ hholder hat .running rfl rfl rfl
  · exact .same rfl rfl rfl

theorem step_cases (s : Creation) (i : CreationStep) :
    Step s (s.step i) := by
  cases i with
  | launch id version =>
      show Step s (s.launch id version)
      unfold launch
      split
      · exact .same rfl rfl rfl
      · next hfree =>
        dsimp only
        split
        · exact .same rfl rfl rfl
        · next copy hcopy =>
          refine .launches id version copy hfree hcopy ?_ ?_ rfl
          · show Versions.step s.versions (.start id version _) = _
            unfold Versions.step
            dsimp only
            rw [hcopy]
          · rw [Versions.status_notified hcopy]
            rfl
  | act id trouble => exact act_cases id trouble s
  | kill id =>
      unfold step
      dsimp only
      split
      · exact .same rfl rfl rfl
      · next p hat => exact .passes id p _ hat (.ends _) rfl rfl rfl
  | loop id i =>
      unfold step
      dsimp only
      split
      · next hat =>
        split
        · next hi => exact .loops id i hat hi rfl rfl rfl
        · exact .same rfl rfl rfl
      · exact .same rfl rfl rfl
  | deliver id version status =>
      exact .delivers id version status rfl rfl rfl
  | edit spec => exact .edits spec rfl rfl rfl
  | touchService => exact .same rfl rfl rfl
  | remove o =>
      show Step s (s.remove o)
      cases o with
      | phase | service | secret | sts => exact .same rfl rfl rfl

end Creation

-- ========================================================== the invariant

/-- A goroutine that has not changed its copy since it was started. -/
structure Holder.Unchanged (store : VersionStore ReplicatedStatefulSet)
    (h : Holder) : Prop where
  known : h.held.version ≤ store.version
  status : h.held.value.status = h.status
  read : (store.contents h.held.version).status = h.status

/-- What a goroutine at a point can rely on. -/
def Point.Fits (id : Nat) (s : Creation) : Point → Prop
  | .tls => ∀ h, s.versions.holders id = some h →
      h.Unchanged s.versions.store
        ∧ (h.status.phase ≠ .none → s.StsMade)
  | .phase => ∀ h, s.versions.holders id = some h →
      h.Unchanged s.versions.store ∧ h.status.phase = .none
  | .getService | .createService | .updateService _ => s.made = madeBy id 3
  | .secret => s.made = madeBy id 2
  | .sts => s.made = madeBy id 1
  | .initial => s.StsMade
  | .running => s.StsMade ∧ ∀ h, s.versions.holders id = some h →
      h.status.phase ≠ .none
  | .failing _ | .gone => True

/-- What holds of the resource and the record. -/
structure Creation.Core (s : Creation) : Prop where
  pristine : s.versions.store.current.status.phase = .none → s.made = []
  plan : ∃ id d, s.made = madeBy id d
  ran : ∀ v, v ≤ s.versions.store.version →
    (s.versions.store.contents v).status.phase.hasRun → s.StsMade

structure Creation.Inv (s : Creation) : Prop extends s.Core where
  fits : ∀ id p, s.points id = some p → p.Fits id s

namespace Creation

theorem owner_of_mem {d : Nat} {e : Nat × Object} (he : e ∈ madeBy id d) :
    e.1 = id := by
  obtain ⟨o, -, rfl⟩ := List.mem_map.mp he
  rfl

theorem phase_mem_madeBy {d : Nat} (hd : d < 4) :
    (id, Object.phase) ∈ madeBy id d := by
  have hplan : ∀ d < 4, Object.phase ∈ Object.plan.drop d := by decide
  exact List.mem_map_of_mem (hplan d hd)

/-- The record says whose it is. -/
theorem madeBy_inj {id' d d' : Nat} (hd : d < 4)
    (h : madeBy id d = madeBy id' d') : id = id' :=
  owner_of_mem (h ▸ phase_mem_madeBy hd)

theorem madeBy_ne_nil {d : Nat} (hd : d < 4) : madeBy id d ≠ [] :=
  List.ne_nil_of_mem (phase_mem_madeBy hd)

theorem StsMade.of_suffix (h : s.StsMade) (hmade : s.made <:+ s'.made) :
    s'.StsMade := by
  obtain ⟨o, ho, heq⟩ := List.mem_map.mp h
  exact List.mem_map.mpr ⟨o, hmade.mem ho, heq⟩

/-- The record is as it was, or has an entry that is no concern of a
goroutine. -/
structure KeepsMade (id : Nat) (l l' : List (Nat × Object)) : Prop where
  suffix : l <:+ l'
  spared : l' = l ∨ ∀ d, d < 4 → l ≠ madeBy id d

theorem KeepsMade.refl (l : List (Nat × Object)) : KeepsMade id l l :=
  ⟨List.suffix_refl l, Or.inl rfl⟩

end Creation

open Creation

/-- What others do is no concern of a goroutine. -/
theorem Point.Fits.keep (hfits : p.Fits id s)
    (hholders : ∀ h', s'.versions.holders id = some h' →
      ∃ h, s.versions.holders id = some h ∧ h'.held = h.held
        ∧ h'.status = h.status)
    (hstore : s.versions.store.Extends s'.versions.store)
    (hmade : KeepsMade id s.made s'.made) : p.Fits id s' := by
  have hunchanged : ∀ {h h' : Holder}, h'.held = h.held →
      h'.status = h.status → h.Unchanged s.versions.store →
      h'.Unchanged s'.versions.store := by
    intro h h' hheld hstatus hun
    refine ⟨?_, ?_, ?_⟩
    · rw [hheld]
      exact Nat.le_trans hun.known hstore.version
    · rw [hheld, hstatus]
      exact hun.status
    · rw [hheld, hstatus, hstore.contents _ hun.known]
      exact hun.read
  have hown : ∀ d, d < 4 → s.made = madeBy id d → s'.made = madeBy id d := by
    intro d hd heq
    rcases hmade.spared with hsame | hnot
    · rw [hsame, heq]
    · exact absurd heq (hnot d hd)
  cases p with
  | tls =>
      intro h' hh'
      obtain ⟨h, hh, hheld, hstatus⟩ := hholders h' hh'
      obtain ⟨hun, hsts⟩ := hfits h hh
      refine ⟨hunchanged hheld hstatus hun, fun hphase => ?_⟩
      exact (hsts (hstatus ▸ hphase)).of_suffix hmade.suffix
  | phase =>
      intro h' hh'
      obtain ⟨h, hh, hheld, hstatus⟩ := hholders h' hh'
      obtain ⟨hun, hphase⟩ := hfits h hh
      exact ⟨hunchanged hheld hstatus hun, hstatus ▸ hphase⟩
  | getService | createService | updateService =>
      exact hown 3 (by decide) hfits
  | secret => exact hown 2 (by decide) hfits
  | sts => exact hown 1 (by decide) hfits
  | initial => exact StsMade.of_suffix hfits hmade.suffix
  | running =>
      refine ⟨StsMade.of_suffix hfits.1 hmade.suffix, fun h' hh' => ?_⟩
      obtain ⟨h, hh, -, hstatus⟩ := hholders h' hh'
      rw [hstatus]
      exact hfits.2 h hh
  | failing | gone => trivial

/-- A write to the resource that brings no empty phase back, and no phase
of a loop before its time. -/
theorem Creation.Core.put {rss : ReplicatedStatefulSet} (hs : s.Core)
    (hnone : rss.status.phase = .none → s.made = [])
    (hran : rss.status.phase.hasRun → s.StsMade)
    (hstore : s'.versions.store = s.versions.store.put rss)
    (hmade : s'.made = s.made) : s'.Core where
  pristine := by
    rw [hstore, VersionStore.current_put, hmade]
    exact hnone
  plan := by
    rw [hmade]
    exact hs.plan
  ran v hv hphase := by
    refine StsMade.of_suffix (s := s) ?_ (hmade ▸ List.suffix_refl _)
    rw [hstore] at hv hphase
    rcases VersionStore.contents_put_cases hv with hnew | ⟨hle, hold⟩
    · rw [hnew] at hphase
      exact hran hphase
    · rw [hold] at hphase
      exact hs.ran v hle hphase

theorem Creation.Core.same (hs : s.Core)
    (hstore : s'.versions.store = s.versions.store)
    (hmade : s'.made = s.made) : s'.Core where
  pristine := by
    rw [hstore, hmade]
    exact hs.pristine
  plan := by
    rw [hmade]
    exact hs.plan
  ran v hv hphase := by
    rw [hstore] at hv hphase
    exact (hs.ran v hv hphase).of_suffix (hmade ▸ List.suffix_refl _)

-- ============================================================= one step

theorem Holder.write_accepted {store : VersionStore ReplicatedStatefulSet}
    (hdiff : h.held.value.status ≠ h.status)
    (hversion : h.held.version = store.version) :
    h.write false store
      = (store.put { h.held.value with status := h.status },
        { h with
          held := ⟨store.version + 1,
            { h.held.value with status := h.status }⟩ }) := by
  have hswap : store.swap h.held.version
      { h.held.value with status := h.status }
      = some (store.put { h.held.value with status := h.status }) :=
    if_pos hversion
  rw [Holder.write, if_neg hdiff]
  simp only [Bool.false_eq_true, if_false, hswap, VersionStore.current_put,
    VersionStore.version_put]

theorem Holder.write_refused {refused : Bool}
    {store : VersionStore ReplicatedStatefulSet}
    (hdiff : h.held.value.status ≠ h.status)
    (hno : refused = true ∨ h.held.version ≠ store.version) :
    h.write refused store
      = (store, { h with
        held := ⟨h.held.version,
          { h.held.value with status := h.status }⟩ }) := by
  rw [Holder.write, if_neg hdiff]
  cases refused with
  | true => rfl
  | false =>
      have hversion := hno.resolve_left Bool.false_ne_true
      have hswap : store.swap h.held.version
          { h.held.value with status := h.status } = none :=
        if_neg hversion
      simp only [Bool.false_eq_true, if_false, hswap]

/-- A write is not sent, or is the current contents from then on. -/
theorem Holder.write_cases (refused : Bool)
    (store : VersionStore ReplicatedStatefulSet) (h : Holder) :
    ((h.write refused store).1 = store
      ∨ refused = false ∧ h.held.version = store.version
        ∧ (h.write refused store).1
          = store.put { h.held.value with status := h.status })
      ∧ (h.write refused store).2.status = h.status := by
  by_cases hdiff : h.held.value.status = h.status
  · rw [Holder.write, if_pos hdiff]
    exact ⟨Or.inl rfl, rfl⟩
  · by_cases hyes : refused = false ∧ h.held.version = store.version
    · obtain ⟨rfl, hversion⟩ := hyes
      rw [Holder.write_accepted hdiff hversion]
      exact ⟨Or.inr ⟨rfl, hversion, rfl⟩, rfl⟩
    · have hno : refused = true ∨ h.held.version ≠ store.version := by
        cases refused with
        | true => exact Or.inl rfl
        | false => exact Or.inr fun hversion => hyes ⟨rfl, hversion⟩
      rw [Holder.write_refused hdiff hno]
      exact ⟨Or.inl rfl, rfl⟩

namespace Creation

variable {status : ClusterStatus} {refused : Bool}

theorem written_store (id : Nat) (h : Holder) (status : ClusterStatus)
    (refused : Bool) (s : Creation) :
    (s.written id h status refused).store = s.versions.store
      ∨ refused = false ∧ h.held.version = s.versions.store.version
        ∧ (s.written id h status refused).store
          = s.versions.store.put { h.held.value with status := status } :=
  ({ h with status := status }.write_cases refused s.versions.store).1

theorem written_extends :
    s.versions.store.Extends (s.written id h status refused).store := by
  rcases s.written_store id h status refused with hsame | ⟨-, -, hput⟩
  · rw [hsame]
    exact .refl _
  · rw [hput]
    exact VersionStore.extends_put _ _

theorem written_holder :
    ∃ h', (s.written id h status refused).holders id = some h'
      ∧ h'.status = status := by
  refine ⟨_, ?_,
    ({ h with status := status }.write_cases refused s.versions.store).2⟩
  exact (Versions.lookup_setHolder _ _ _ _).trans (if_pos rfl)

theorem written_others {id' : Nat} (hne : id' ≠ id) :
    (s.written id h status refused).holders id'
      = s.versions.holders id' :=
  (Versions.lookup_setHolder _ _ _ _).trans (if_neg hne)

theorem Core.written (hs : s.Core) (hphase : status.phase ≠ .none)
    (hran : status.phase.hasRun → s.StsMade)
    (hversions : s'.versions = s.written id h status refused)
    (hmade : s'.made = s.made) : s'.Core := by
  rcases s.written_store id h status refused with hsame | ⟨-, -, hput⟩
  · exact hs.same (by rw [hversions, hsame]) hmade
  · exact hs.put (fun hnone => absurd hnone hphase) hran
      (by rw [hversions, hput]) hmade

/-- A goroutine moves, and the others stay where they are. -/
theorem Inv.of_moved (hs : s.Inv) (hcore : s'.Core)
    (hpoints : s'.points = Function.update s.points id (some p))
    (hfits : p.Fits id s')
    (hothers : ∀ id', id' ≠ id →
      s'.versions.holders id' = s.versions.holders id')
    (hstore : s.versions.store.Extends s'.versions.store)
    (hmade : ∀ id', id' ≠ id → KeepsMade id' s.made s'.made) : s'.Inv where
  toCore := hcore
  fits id' p' hat := by
    rw [hpoints, Function.update_apply] at hat
    split at hat
    · next heq =>
      subst heq
      cases hat
      exact hfits
    · next hne =>
      refine (hs.fits id' p' hat).keep (fun h' hh' => ?_) hstore
        (hmade id' hne)
      rw [hothers id' hne] at hh'
      exact ⟨h', hh', rfl, rfl⟩

/-- What a loop does to the copies: it writes the status it has, and never
has the empty phase. -/
theorem loop_versions {v : Versions} {i : VersionStep}
    (hi : i.ofLoop id = true)
    (hphase : ∀ h, v.holders id = some h → h.status.phase ≠ .none) :
    ((v.step i).store = v.store
        ∨ ∃ rss, rss.status.phase ≠ .none
          ∧ (v.step i).store = v.store.put rss)
      ∧ (∀ id', id' ≠ id → (v.step i).holders id' = v.holders id')
      ∧ ∀ h, (v.step i).holders id = some h → h.status.phase ≠ .none := by
  have hset : ∀ {v' : Versions} {h' : Holder}, v'.holders = v.holders →
      h'.status.phase ≠ .none →
      (∀ id', id' ≠ id → (v'.setHolder id h').holders id' = v.holders id')
        ∧ ∀ h, (v'.setHolder id h').holders id = some h →
          h.status.phase ≠ .none := by
    intro v' h' hsame hh'
    refine ⟨fun id' hne => ?_, fun h hh => ?_⟩
    · rw [Versions.lookup_setHolder, if_neg hne, hsame]
    · rw [Versions.lookup_setHolder, if_pos rfl] at hh
      cases hh
      exact hh'
  cases i with
  | edit | start | deliver => cases hi
  | assign id' status held =>
      obtain ⟨rfl, hstatus⟩ := of_decide_eq_true hi
      unfold Versions.step
      dsimp only
      cases hh : v.holders id' with
      | none => exact ⟨Or.inl rfl, fun _ _ => rfl, hphase⟩
      | some h => exact ⟨Or.inl rfl, hset rfl hstatus⟩
  | take id' =>
      obtain rfl : id' = id := of_decide_eq_true hi
      unfold Versions.step
      dsimp only
      split
      · next held status copy rest hh =>
        have hstatus : status.phase ≠ .none := hphase _ hh
        exact ⟨Or.inl rfl, hset rfl hstatus⟩
      · exact ⟨Or.inl rfl, fun _ _ => rfl, hphase⟩
  | write id' refused =>
      obtain rfl : id' = id := of_decide_eq_true hi
      unfold Versions.step
      dsimp only
      cases hh : v.holders id' with
      | none => exact ⟨Or.inl rfl, fun _ _ => rfl, hphase⟩
      | some h =>
          have hown := hphase h hh
          obtain ⟨hstore, hstatus⟩ := h.write_cases refused v.store
          refine ⟨?_, hset rfl (by rw [hstatus]; exact hown)⟩
          rcases hstore with hsame | ⟨-, -, hput⟩
          · exact Or.inl hsame
          · exact Or.inr ⟨_, hown, hput⟩
  | fetch id' =>
      obtain rfl : id' = id := of_decide_eq_true hi
      unfold Versions.step
      dsimp only
      cases hh : v.holders id' with
      | none => exact ⟨Or.inl rfl, fun _ _ => rfl, hphase⟩
      | some h => exact ⟨Or.inl rfl, hset rfl (hphase h hh)⟩

theorem deliver_versions (v : Versions) (id id' version : Nat)
    (status : ClusterStatus) :
    (v.step (.deliver id version status)).store = v.store
      ∧ ∀ h', (v.step (.deliver id version status)).holders id' = some h' →
        ∃ h, v.holders id' = some h ∧ h'.held = h.held
          ∧ h'.status = h.status := by
  unfold Versions.step
  dsimp only
  split
  · next h copy hh hcopy =>
    refine ⟨rfl, fun h' hh' => ?_⟩
    rw [Versions.lookup_setHolder] at hh'
    split at hh'
    · next heq =>
      subst heq
      cases hh'
      exact ⟨h, hh, rfl, rfl⟩
    · exact ⟨h', hh', rfl, rfl⟩
  · exact ⟨rfl, fun h' hh' => ⟨h', hh', rfl, rfl⟩⟩

/-- A goroutine starts with what it can rely on. -/
theorem fits_first {version : Nat} {copy : Copy ReplicatedStatefulSet}
    (hs : s.Core)
    (hcopy : s.versions.notified version
      (s.versions.store.contents version).status = some copy)
    (hversions : s'.versions
      = s.versions.setHolder id ⟨copy, copy.value.status, []⟩)
    (hmade : s'.made = s.made) :
    (Point.first copy.value.spec.tls copy.value.status.phase).Fits id s' := by
  have hstatus := Versions.status_notified hcopy
  have hknown : version ≤ s.versions.store.version
      ∧ copy.version = version := by
    unfold Versions.notified at hcopy
    split at hcopy
    · next hle =>
      cases hcopy
      exact ⟨hle, rfl⟩
    · cases hcopy
  have hholder : ∀ h, s'.versions.holders id = some h →
      h.Unchanged s'.versions.store
        ∧ h.status.phase = copy.value.status.phase := by
    intro h hh
    rw [hversions, Versions.lookup_setHolder, if_pos rfl] at hh
    cases hh
    rw [hversions]
    refine ⟨⟨?_, rfl, ?_⟩, rfl⟩
    · exact hknown.2 ▸ hknown.1
    · exact (congrArg (fun v => (s.versions.store.contents v).status)
        hknown.2).trans hstatus.symm
  have hsts : copy.value.status.phase = .running → s'.StsMade := by
    intro hrunning
    refine (hs.ran version hknown.1 (Or.inl ?_)).of_suffix
      (hmade ▸ List.suffix_refl _)
    rw [← hstatus, hrunning]
  cases hphase : copy.value.status.phase with
  | none =>
      rw [hphase] at hholder
      unfold Point.first
      dsimp only
      split
      · intro h hh
        obtain ⟨hun, hnone⟩ := hholder h hh
        exact ⟨hun, fun hne => absurd hnone hne⟩
      · exact hholder
  | running =>
      unfold Point.first
      dsimp only
      split
      · exact fun h hh => ⟨(hholder h hh).1, fun _ => hsts hphase⟩
      · exact hsts hphase
  | creating | paused | failed | other => trivial

/-- Who writes the phase `Creating` is the first one. -/
theorem Inv.claimed (hs : s.Inv) (hholder : s.versions.holders id = some h)
    (hat : s.points id = some .phase)
    (hdone : h.held.value.status = { h.status with phase := .creating }
      ∨ refused = false ∧ h.held.version = s.versions.store.version) :
    s.made = [] ∧ (s.written id h { h.status with phase := .creating }
      refused).store = s.versions.store.put { h.held.value with
        status := { h.status with phase := .creating } } := by
  obtain ⟨hun, hnone⟩ := hs.fits id _ hat h hholder
  have hdiff : h.held.value.status
      ≠ { h.status with phase := .creating } := by
    intro heq
    rw [hun.status] at heq
    rw [heq] at hnone
    cases hnone
  obtain ⟨rfl, hversion⟩ := hdone.resolve_left hdiff
  refine ⟨hs.pristine ?_, congrArg Prod.fst (Holder.write_accepted
    (h := { h with status := { h.status with phase := .creating } }) hdiff
    hversion)⟩
  rw [VersionStore.current, ← hversion, hun.read]
  exact hnone

/-- Who makes something goes on with its own record. -/
theorem Inv.making {o : Object} (hs : s.Inv) (hat : s.points id = some p)
    (hnext : Point.Makes p o p') (hmade : s'.made = (id, o) :: s.made) :
    ∃ d, d < 3 ∧ s.made = madeBy id (d + 1) ∧ s'.made = madeBy id d
      ∧ p'.Fits id s' := by
  have hfits := hs.fits id p hat
  cases hnext with
  | service p hp =>
      have hbefore : s.made = madeBy id 3 := by
        rcases hp with rfl | ⟨v, rfl⟩
        · exact hfits
        · exact hfits
      rw [hbefore] at hmade
      exact ⟨2, by decide, hbefore, hmade, hmade⟩
  | secret =>
      have hbefore : s.made = madeBy id 2 := hfits
      rw [hbefore] at hmade
      exact ⟨1, by decide, hbefore, hmade, hmade⟩
  | sts =>
      have hbefore : s.made = madeBy id 1 := hfits
      refine ⟨0, by decide, hbefore, ?_, ?_⟩
      · rw [hmade, hbefore]
        rfl
      · show Object.sts ∈ s'.made.map Prod.snd
        rw [hmade]
        exact List.mem_cons_self

theorem Inv.step (hs : s.Inv) (hstep : Step s s') : s'.Inv := by
  have hspares : ∀ {id' : Nat}, s'.made = s.made →
      KeepsMade id' s.made s'.made := fun h => by rw [h]; exact .refl _
  cases hstep with
  | same hversions hpoints hmade =>
      refine ⟨hs.toCore.same (by rw [hversions]) hmade, fun id p hat => ?_⟩
      rw [hpoints] at hat
      refine (hs.fits id p hat).keep (fun h hh => ?_)
        (by rw [hversions]; exact .refl _) (hspares hmade)
      rw [hversions] at hh
      exact ⟨h, hh, rfl, rfl⟩
  | edits spec hversions hpoints hmade =>
      refine ⟨@Core.put s s' { s.versions.store.current with spec := spec }
        hs.toCore hs.pristine (hs.ran _ (Nat.le_refl _))
        (by rw [hversions]; rfl) hmade, fun id p hat => ?_⟩
      rw [hpoints] at hat
      refine (hs.fits id p hat).keep (fun h hh => ?_)
        (by rw [hversions]; exact VersionStore.extends_put _ _)
        (hspares hmade)
      rw [hversions] at hh
      exact ⟨h, hh, rfl, rfl⟩
  | delivers id version status hversions hpoints hmade =>
      have hdeliver := fun id' =>
        deliver_versions s.versions id id' version status
      rw [← hversions] at hdeliver
      refine ⟨hs.toCore.same (hdeliver id).1 hmade, fun id' p hat => ?_⟩
      rw [hpoints] at hat
      exact (hs.fits id' p hat).keep (hdeliver id').2
        (by rw [(hdeliver id').1]; exact .refl _) (hspares hmade)
  | loops id i hat hi hversions hpoints hmade =>
      obtain ⟨hsts, hphase⟩ := hs.fits id _ hat
      obtain ⟨hstore, hothers, hown⟩ := loop_versions hi hphase
      rw [← hversions] at hstore hothers hown
      have hsts' := hsts.of_suffix (hmade ▸ List.suffix_refl _ :
        s.made <:+ s'.made)
      have hmoved : s'.points
          = Function.update s.points id (some .running) := by
        rw [hpoints, ← hat, Function.update_eq_self]
      rcases hstore with hsame | ⟨rss, hrss, hput⟩
      · exact hs.of_moved (hs.toCore.same hsame hmade) hmoved
          ⟨hsts', hown⟩ hothers (by rw [hsame]; exact .refl _)
          (fun _ _ => hspares hmade)
      · exact hs.of_moved (hs.toCore.put (fun hnone => absurd hnone hrss)
          (fun _ => hsts) hput hmade) hmoved ⟨hsts', hown⟩ hothers
          (by rw [hput]; exact VersionStore.extends_put _ _)
          (fun _ _ => hspares hmade)
  | launches id version copy hfree hcopy hversions hpoints hmade =>
      refine hs.of_moved (hs.toCore.same (by rw [hversions]; rfl) hmade)
        hpoints (fits_first hs.toCore hcopy hversions hmade)
        (fun id' hne => ?_) (by rw [hversions]; exact .refl _)
        (fun _ _ => hspares hmade)
      rw [hversions, Versions.lookup_setHolder, if_neg hne]
  | passes id p p' hat hnext hversions hpoints hmade =>
      have hfits := hs.fits id p hat
      have hnow : p'.Fits id s := by
        cases hnext with
        | creates h hh hphase =>
            intro h' hh'
            rw [hh] at hh'
            cases hh'
            exact ⟨(hfits h hh).1, hphase⟩
        | resumes h hh hphase => exact (hfits h hh).2 hphase
        | finds p' hp' =>
            rcases hp' with rfl | ⟨v, rfl⟩
            · exact hfits
            · exact hfits
        | fails | ends => trivial
      refine hs.of_moved (hs.toCore.same (by rw [hversions]) hmade) hpoints
        (hnow.keep (fun h hh => ?_) (by rw [hversions]; exact .refl _)
          (hspares hmade)) (fun _ _ => by rw [hversions])
        (by rw [hversions]; exact .refl _) (fun _ _ => hspares hmade)
      rw [hversions] at hh
      exact ⟨h, hh, rfl, rfl⟩
  | writes id h p p' status refused hholder hat hnext hversions hpoints
      hmade =>
      have hfits := hs.fits id p hat
      have hsuffix : s.made <:+ s'.made := hmade ▸ List.suffix_refl _
      obtain ⟨h', hholder', hstatus⟩ :=
        @written_holder s id h status refused
      rw [← hversions] at hholder'
      generalize hphase : status.phase = phase at hnext
      have hfacts : phase ≠ .none ∧ (phase.hasRun → s.StsMade)
          ∧ p'.Fits id s' := by
        cases hnext with
        | failed =>
            refine ⟨by decide, ?_, trivial⟩
            rintro (hno | hno) <;> cases hno
        | running =>
            refine ⟨by decide, fun _ => hfits, hfits.of_suffix hsuffix,
              fun h₁ hh₁ => ?_⟩
            rw [hholder'] at hh₁
            cases hh₁
            rw [hstatus, hphase]
            decide
      subst hphase
      exact hs.of_moved
        (hs.toCore.written hfacts.1 hfacts.2.1 hversions hmade) hpoints
        hfacts.2.2 (fun id' hne => by rw [hversions, written_others hne])
        (by rw [hversions]; exact written_extends)
        (fun _ _ => hspares hmade)
  | yields id h refused err hholder hat hundone hversions hpoints hmade =>
      have hstore : s'.versions.store = s.versions.store := by
        rw [hversions]
        rcases s.written_store id h _ refused with
          hsame | ⟨hrefused, hversion, -⟩
        · exact hsame
        · rcases hundone with hun | hun
          · rw [hrefused] at hun
            cases hun
          · exact absurd hversion hun
      exact hs.of_moved (hs.toCore.same hstore hmade) hpoints trivial
        (fun id' hne => by rw [hversions, written_others hne])
        (by rw [hstore]; exact .refl _) (fun _ _ => hspares hmade)
  | claims id h refused hholder hat hdone hversions hpoints hmade =>
      obtain ⟨hnil, hput⟩ := hs.claimed hholder hat hdone
      rw [← hversions] at hput
      rw [hnil] at hmade
      refine hs.of_moved ⟨fun hphase => ?_, ⟨id, 3, hmade⟩,
        fun v hv hran => ?_⟩ hpoints hmade
        (fun id' hne => by rw [hversions, written_others hne])
        (by rw [hput]; exact VersionStore.extends_put _ _)
        (fun id' hne => ?_)
      · rw [hput, VersionStore.current_put] at hphase
        cases hphase
      · rw [hput] at hv hran
        rcases VersionStore.contents_put_cases hv with hnew | ⟨hle, hold⟩
        · rw [hnew] at hran
          rcases hran with hno | hno <;> cases hno
        · rw [hold] at hran
          have hsts := hs.ran v hle hran
          rw [StsMade, hnil] at hsts
          cases hsts
      · rw [hnil]
        exact ⟨List.nil_suffix, Or.inr fun d hd heq =>
          madeBy_ne_nil hd heq.symm⟩
  | makes id p p' o hat hnext hversions hpoints hmade =>
      obtain ⟨d, hd, hbefore, hafter, hfits⟩ := hs.making hat hnext hmade
      have hsuffix : s.made <:+ s'.made := hmade ▸ List.suffix_cons _ _
      refine hs.of_moved ⟨fun hnone => ?_, ⟨id, d, hafter⟩,
        fun v hv hran => ?_⟩ hpoints hfits (fun _ _ => by rw [hversions])
        (by rw [hversions]; exact .refl _)
        (fun id' hne => ⟨hsuffix, Or.inr fun d' hd' heq => ?_⟩)
      · rw [hversions] at hnone
        have hnil := hs.pristine hnone
        rw [hbefore] at hnil
        exact absurd hnil (madeBy_ne_nil (by omega))
      · rw [hversions] at hv hran
        exact (hs.ran v hv hran).of_suffix hsuffix
      · rw [hbefore] at heq
        exact hne (madeBy_inj (by omega) heq).symm

-- ================================================================= a run

theorem written_eq (hholder : s.versions.holders id = some h) :
    s.written id h status refused = s.versions.run
      [.assign id status h.held.value.status, .write id refused] := by
  simp only [Versions.run, List.foldl_cons, List.foldl_nil, Versions.step,
    hholder, Versions.lookup_setHolder, if_true]
  unfold written Versions.setHolder
  simp only [Function.update_idem]

/-- The copies go through an interleaving of Versions.lean. -/
theorem Step.versions (hstep : Step s s') :
    ∃ is, s'.versions = s.versions.run is := by
  cases hstep with
  | same hversions | passes _ _ _ _ _ hversions
  | makes _ _ _ _ _ _ hversions => exact ⟨[], hversions⟩
  | edits spec hversions => exact ⟨[.edit spec], hversions⟩
  | delivers id version status hversions =>
      exact ⟨[.deliver id version status], hversions⟩
  | loops id i _ _ hversions => exact ⟨[i], hversions⟩
  | launches id version copy _ hcopy hversions =>
      refine ⟨[.start id version
        (s.versions.store.contents version).status], hversions.trans ?_⟩
      simp only [Versions.run, List.foldl_cons, List.foldl_nil,
        Versions.step, hcopy]
  | writes id h _ _ _ _ hholder _ _ hversions
  | yields id h _ _ hholder _ _ hversions
  | claims id h _ hholder _ _ hversions =>
      exact ⟨_, hversions.trans (written_eq hholder)⟩

/-- The user's edits are kept here, too. -/
theorem run_kept (rss : ReplicatedStatefulSet)
    (steps : List CreationStep) :
    ((fresh rss).run steps).versions.Kept :=
  List.foldlRecOn (motive := fun s : Creation => s.versions.Kept) steps
    Creation.step (Versions.kept_created rss) fun s hs i _ => by
      obtain ⟨is, heq⟩ := (s.step_cases i).versions
      rw [heq]
      exact hs.run is

theorem inv_fresh {rss : ReplicatedStatefulSet}
    (hphase : rss.status.phase = .none) : (fresh rss).Inv where
  pristine _ := rfl
  plan := ⟨0, 4, rfl⟩
  ran v _ hran := by
    have hnone : rss.status.phase.hasRun := hran
    rw [hphase] at hnone
    rcases hnone with hno | hno <;> cases hno
  fits _ _ hat := by cases hat

theorem Inv.run (hs : s.Inv) (steps : List CreationStep) :
    (s.run steps).Inv :=
  List.foldlRecOn steps Creation.step hs
    fun s hs i _ => hs.step (s.step_cases i)

/-- After a goroutine that is gone in the middle, nothing more is made. -/
theorem Inv.stuck {d : Nat} (hs : s.Inv) (hgone : s.points id = some .gone)
    (hmade : s.made = madeBy id d) (hd : d < 4) (hstep : Step s s') :
    s'.points id = some .gone ∧ s'.made = s.made := by
  have hother : ∀ {id' : Nat} {p p' : Point}, s.points id' = some p →
      (p = .gone → p' = .gone) →
      s'.points = Function.update s.points id' (some p') →
      s'.points id = some .gone := by
    intro id' p p' hat hkeeps hpoints
    rw [hpoints, Function.update_apply]
    split
    · next heq =>
      subst heq
      rw [hgone] at hat
      cases hat
      rw [hkeeps rfl]
    · exact hgone
  cases hstep with
  | same _ hpoints hsame | edits _ _ hpoints hsame
  | delivers _ _ _ _ hpoints hsame | loops _ _ _ _ _ hpoints hsame =>
      exact ⟨hpoints ▸ hgone, hsame⟩
  | launches id' version copy hfree hcopy hversions hpoints hsame =>
      refine ⟨?_, hsame⟩
      rw [hpoints, Function.update_apply, if_neg ?_]
      · exact hgone
      · rintro rfl
        rw [hgone] at hfree
        cases hfree
  | passes id' p p' hat hnext hversions hpoints hsame =>
      refine ⟨hother hat (fun hp => ?_) hpoints, hsame⟩
      subst hp
      cases hnext with
      | fails _ err hno => exact absurd rfl hno
      | ends => rfl
  | writes id' h p p' status refused _ hat hnext hversions hpoints hsame =>
      refine ⟨hother hat (fun hp => ?_) hpoints, hsame⟩
      generalize status.phase = phase at hnext
      subst hp
      cases hnext
  | yields id' h refused err hholder hat hundone hversions hpoints hsame =>
      exact ⟨hother hat nofun hpoints, hsame⟩
  | claims id' h refused hholder hat hdone hversions hpoints _ =>
      -- the record is not empty
      have hnil := (hs.claimed hholder hat hdone).1
      rw [hmade] at hnil
      exact absurd hnil (madeBy_ne_nil hd)
  | makes id' p p' o hat hnext hversions hpoints hgrown =>
      -- the record would be that of a goroutine that is not gone
      obtain ⟨d', hd', hbefore, -⟩ := hs.making hat hnext hgrown
      obtain rfl : id = id' := madeBy_inj hd (hmade.symm.trans hbefore)
      rw [hgone] at hat
      cases hat
      cases hnext with
      | service _ hp => rcases hp with hno | ⟨v, hno⟩ <;> cases hno

theorem Inv.run_stuck {d : Nat} (hs : s.Inv)
    (hgone : s.points id = some .gone) (hmade : s.made = madeBy id d)
    (hd : d < 4) (steps : List CreationStep) :
    (s.run steps).Inv ∧ (s.run steps).points id = some .gone
      ∧ (s.run steps).made = madeBy id d := by
  refine List.foldlRecOn (motive := fun s : Creation => s.Inv
      ∧ s.points id = some .gone ∧ s.made = madeBy id d) steps
    Creation.step ⟨hs, hgone, hmade⟩ fun s hs i _ => ?_
  obtain ⟨hs, hgone, hmade⟩ := hs
  have hstep := s.step_cases i
  obtain ⟨hgone', hsame⟩ := hs.stuck hgone hmade hd hstep
  exact ⟨hs.step hstep, hgone', hsame.trans hmade⟩

end Creation

/-- However many processes set a cluster up, whichever versions of the
resource they start with and wherever they are killed: what is made is made
by one of them, in order and once, a loop is run only for a cluster whose
StatefulSet has been made, and no edit of the user is lost. -/
theorem created_once (rss : ReplicatedStatefulSet)
    (hphase : rss.status.phase = .none) (steps : List CreationStep) :
    let s := (Creation.fresh rss).run steps
    (∃ id d, s.made = madeBy id d)
      ∧ (∀ id, s.points id = some .running → s.StsMade)
      ∧ (∀ v, v ≤ s.versions.store.version →
        (s.versions.store.contents v).status.phase.hasRun → s.StsMade)
      ∧ CleanedOf s.versions.edited s.versions.store.current.spec := by
  have hs := (Creation.inv_fresh hphase).run steps
  exact ⟨hs.plan, fun id hat => (hs.fits id _ hat).1, hs.ran,
    (Creation.run_kept rss steps).current⟩

/-- Two processes are started with the same version. The second one meets a
conflict, whatever it tries. -/
theorem created_once_raced :
    let s := (Creation.fresh (.sized 3 1)).run
      [.launch 0 0, .launch 1 0, .act 0 none, .act 1 none, .act 0 none,
        .act 0 none, .act 1 none, .act 0 none, .act 0 none, .act 0 none]
    s.made.length = 4 ∧ s.sts = some 3
      ∧ (∃ id d, s.made = madeBy id d)
      ∧ (∀ id, s.points id = some .running → s.StsMade) := by
  intro s
  have honce := created_once (.sized 3 1) rfl
    [.launch 0 0, .launch 1 0, .act 0 none, .act 1 none, .act 0 none,
      .act 0 none, .act 1 none, .act 0 none, .act 0 none, .act 0 none]
  exact ⟨by decide, by decide, honce.1, honce.2.1⟩

/-- A goroutine that is gone after it has announced the creation, and
before it has made the StatefulSet, is the last one: nothing more is made,
whatever processes are started afterwards, and none of them runs a loop. -/
theorem half_made_stays (rss : ReplicatedStatefulSet)
    (hphase : rss.status.phase = .none) (steps more : List CreationStep)
    (id : Nat)
    (hgone : ((Creation.fresh rss).run steps).points id = some .gone)
    (hclaimed : (id, .phase) ∈ ((Creation.fresh rss).run steps).made)
    (hnot : (id, .sts) ∉ ((Creation.fresh rss).run steps).made) :
    let s := (Creation.fresh rss).run steps
    let s' := s.run more
    s'.made = s.made ∧ (∀ id', s'.points id' ≠ some .running)
      ∧ ∀ v, v ≤ s'.versions.store.version →
        ¬ (s'.versions.store.contents v).status.phase.hasRun := by
  intro s s'
  have hs : s.Inv := (Creation.inv_fresh hphase).run steps
  obtain ⟨owner, d, hmade⟩ := hs.plan
  have howner : (id, Object.phase) ∈ madeBy owner d := hmade ▸ hclaimed
  obtain rfl : id = owner := Creation.owner_of_mem howner
  have hd : d < 4 := by
    by_contra hge
    have hnil : Object.plan.drop d = [] :=
      List.drop_eq_nil_of_le (Nat.le_of_not_lt hge)
    rw [madeBy, hnil] at howner
    cases howner
  have hsts : ∀ e ∈ madeBy id d, e.2 ≠ Object.sts := by
    rintro ⟨id', o⟩ he rfl
    obtain rfl : id' = id := Creation.owner_of_mem he
    exact hnot (hmade ▸ he : _ ∈ s.made)
  obtain ⟨hs', -, hmade'⟩ := hs.run_stuck hgone hmade hd more
  have hnone : ¬ s'.StsMade := by
    intro h
    obtain ⟨e, he, heq⟩ := List.mem_map.mp h
    exact hsts e (hmade' ▸ he : e ∈ madeBy id d) heq
  exact ⟨hmade'.trans hmade.symm, fun id' hat => hnone (hs'.fits id' _ hat).1,
    fun v hv hran => hnone (hs'.ran v hv hran)⟩

/-- A process is killed before it makes the StatefulSet; the next one marks
the cluster as failed. -/
theorem half_made_stays_killed :
    let s := (Creation.fresh (.sized 3 1)).run
      [.launch 0 0, .act 0 none, .act 0 none, .act 0 none, .act 0 none,
        .kill 0]
    let s' := s.run [.launch 1 1, .act 1 none, .launch 2 2, .act 2 none]
    s'.made = s.made ∧ s'.versions.store.current.status.phase = .failed
      ∧ ∀ id', s'.points id' ≠ some .running := by
  intro s s'
  have hstays := half_made_stays (.sized 3 1) rfl
    [.launch 0 0, .act 0 none, .act 0 none, .act 0 none, .act 0 none,
      .kill 0]
    [.launch 1 1, .act 1 none, .launch 2 2, .act 2 none] 0 rfl (by decide)
    (by decide)
  exact ⟨hstays.1, rfl, hstays.2.1⟩

end RssOperator
