/-
A goroutine that is left alone does what `launch` says.

# Two models of one function

Update.lean has the goroutine of `New` in one go, with the outcome of
`CreateOrUpdateService` and of the other requests as answers. Creation.lean
has it request by request. When nobody else does anything between two
requests, and the goroutine was started with the current version, the
requests add up to `launch`, for the answers that sum them up
(`launch_in_one_go`).

# The simulation

`Mirrors` ties the copy and the status of the goroutine to the state of the
loop, and the two StatefulSets. It survives every request. What is left of
the one-go function at a point is what the goroutine gets to from there
(`Gets`); the lemmas go backwards, from the StatefulSet to the first
request.
-/
import RssOperator.Proofs.Creation
import RssOperator.Proofs.StatusWrites

namespace RssOperator

variable {s s' : Creation} {id : Nat} {h : Holder} {p : Point} {w : World}
  {f : Point → Option Trouble} {env : Env} {kube : Kube}
  {r : Option LoopErr × World}

-- ======================================================= being left alone

namespace Creation

/-- The next request of a goroutine; `f` is the trouble each meets. -/
def advance (f : Point → Option Trouble) (id : Nat) (s : Creation) :
    Creation :=
  (s.points id).elim s fun p => s.act id (f p)

/-- It sends requests, and nobody else does anything. -/
abbrev Advances (f : Point → Option Trouble) (id : Nat) :
    Creation → Creation → Prop :=
  Relation.ReflTransGen fun s s' => s' = s.advance f id

theorem advance_eq (hat : s.points id = some p) :
    s.advance f id = s.act id (f p) := by
  rw [advance, hat, Option.elim_some]

/-- The goroutine is where the loop is. -/
structure Mirrors (id : Nat) (s : Creation) (w : World) (h : Holder) :
    Prop where
  holder : s.versions.holders id = some h
  shows_ : h.Shows w.sys
  current : h.held.version = s.versions.store.version
  sts : s.sts = w.sts

theorem Mirrors.same (hs : Mirrors id s w h)
    (hversions : s'.versions = s.versions) (hsts : s'.sts = s.sts) :
    Mirrors id s' w h where
  holder := by rw [hversions]; exact hs.holder
  shows_ := hs.shows_
  current := by rw [hversions]; exact hs.current
  sts := hsts.trans hs.sts

/-- The goroutine gets to the end of what is left, and agrees with it. -/
def Gets (f : Point → Option Trouble) (id : Nat) (s : Creation)
    (r : Option LoopErr × World) : Prop :=
  ∃ s' h, Advances f id s s' ∧ Mirrors id s' r.2 h
    ∧ s'.points id = some (r.1.elim .initial .failing)

theorem Gets.head (h : Gets f id (s.advance f id) r) : Gets f id s r := by
  obtain ⟨s', h', hadv, hrest⟩ := h
  exact ⟨s', h', .head rfl hadv, hrest⟩

theorem points_move (id : Nat) (p : Point) (s : Creation) :
    (s.move id p).points id = some p :=
  Function.update_self _ _ _

/-- A request that fails is the last one. -/
theorem Mirrors.fails {err : LoopErr} (hs : Mirrors id s w h)
    (hadv : s.advance f id = s.move id (.failing err)) :
    Gets f id s (some err, w) := by
  refine ⟨_, h, .single rfl, ?_, ?_⟩
  · rw [hadv]
    exact hs.same rfl rfl
  · rw [hadv]
    exact points_move _ _ _

end Creation

open Creation

-- ========================================================== the answers

def Trouble.unbuilt? : Trouble → Option String
  | unbuilt cause => some cause
  | refused _ => none

def Trouble.refused? : Trouble → Option String
  | unbuilt _ => none
  | refused err => some err.text

def Trouble.isNotFound : Trouble → Bool
  | refused .notFound => true
  | _ => false

def createServiceErr (f : Point → Option Trouble) (service : Option Nat) :
    Option String :=
  ((f .createService).map Trouble.text
    <|> service.map fun _ => "already exists").map
      ("creating service object failed: " ++ ·)

def updateServiceErr (f : Point → Option Trouble) (version : Nat) :
    Option String :=
  ((f (.updateService version)).filter fun t => !t.isNotFound).map
    fun t => "updating service object failed: " ++ t.text

/-- What `CreateOrUpdateService` returns, by itself. -/
def serviceErr (f : Point → Option Trouble) (service : Option Nat) :
    Option String :=
  if (f .getService).any Trouble.isNotFound then createServiceErr f service
  else
    (f .getService).map (fun t =>
      "retrieving service object failed: " ++ t.text)
        <|> service.elim (createServiceErr f service) (updateServiceErr f)

/-- The answers to the requests of one `create`. -/
def CreateAnswer.met (f : Point → Option Trouble) (service : Option Nat) :
    CreateAnswer where
  service := serviceErr f service
  emptyConfig := (f .secret).bind Trouble.unbuilt?
  secret := (f .secret).bind Trouble.refused?
  definition := (f .sts).bind Trouble.unbuilt?
  sts := (f .sts).bind Trouble.refused?

/-- The error of `create`, behind its first request. -/
def CreateAnswer.err (answer : CreateAnswer) (sts : Option Int) :
    Option LoopErr :=
  answer.service.map .internalService
    <|> answer.emptyConfig.map .emptyConfig
    <|> answer.secret.map .emptyConfigFile
    <|> answer.definition.map .stsDefinition
    <|> answer.sts.map .creatingSts
    <|> sts.map fun _ => .creatingSts "already exists"

def World.created (w : World) : World :=
  { w with sts := some w.sys.spec.getNumReplicas }

/-- The end of `create`. -/
def World.creates (err : Option LoopErr) (w : World) :
    Option LoopErr × World :=
  (err, if err.isSome then w else w.created)

theorem create_eq (w : World) :
    create env kube w
      = let r := updateCRStatus env "create" (w.sys.setPhase .creating)
        r.1.elim ({ w with sys := r.2 }.creates
            ((kube.create w.requests).err w.sts)) fun err =>
          (some (.clusterPhase .creating err.text), { w with sys := r.2 })
    := by
  unfold create
  dsimp only
  cases updateCRStatus env "create" (w.sys.setPhase .creating) with
  | mk err s =>
      cases err with
      | some err => rfl
      | none =>
          obtain ⟨service, emptyConfig, secret, definition, sts⟩ :=
            kube.create w.requests
          unfold World.creates CreateAnswer.err World.created
          cases service with
          | some => rfl
          | none =>
              cases emptyConfig with
              | some => rfl
              | none =>
                  cases secret with
                  | some => rfl
                  | none =>
                      cases definition with
                      | some => rfl
                      | none =>
                          cases sts with
                          | some => rfl
                          | none => cases hsts : w.sts <;> simp

-- ====================================================== request by request

namespace Creation

/-- The errors from the StatefulSet on. -/
def stsErr (f : Point → Option Trouble) (sts : Option Int) :
    Option LoopErr :=
  ((f .sts).bind Trouble.unbuilt?).map .stsDefinition
    <|> ((f .sts).bind Trouble.refused?).map .creatingSts
    <|> sts.map fun _ => .creatingSts "already exists"

theorem Mirrors.sts_gets (hs : Mirrors id s w h)
    (hat : s.points id = some .sts) :
    Gets f id s (w.creates (stsErr f w.sts)) := by
  have hadv : s.advance f id = s.createSts id h (f .sts) := by
    simp only [advance_eq hat, act, hs.holder, hat]
  unfold stsErr
  unfold createSts at hadv
  rw [hs.sts] at hadv
  cases hf : f .sts with
  | some t =>
      rw [hf] at hadv
      cases t with
      | unbuilt cause => exact hs.fails hadv
      | refused err => exact hs.fails hadv
  | none =>
      rw [hf] at hadv
      cases hsts : w.sts with
      | some n =>
          rw [hsts] at hadv
          exact hs.fails hadv
      | none =>
          rw [hsts] at hadv
          refine ⟨_, h, .single rfl, ?_, ?_⟩
          · rw [hadv]
            refine ⟨hs.holder, hs.shows_, hs.current, ?_⟩
            show some h.held.value.spec.getNumReplicas = _
            rw [hs.shows_.held]
            rfl
          · rw [hadv]
            exact points_move _ _ _

/-- The errors from the secret on. -/
def secretErr (f : Point → Option Trouble) (sts : Option Int) :
    Option LoopErr :=
  ((f .secret).bind Trouble.unbuilt?).map .emptyConfig
    <|> ((f .secret).bind Trouble.refused?).map .emptyConfigFile
    <|> stsErr f sts

theorem Mirrors.secret_gets (hs : Mirrors id s w h)
    (hat : s.points id = some .secret) :
    Gets f id s (w.creates (secretErr f w.sts)) := by
  have hadv : s.advance f id = s.createSecret id (f .secret) := by
    simp only [advance_eq hat, act, hs.holder, hat]
  unfold createSecret at hadv
  unfold secretErr
  cases hf : f .secret with
  | some t =>
      rw [hf] at hadv
      cases t with
      | unbuilt cause => exact hs.fails hadv
      | refused err => exact hs.fails hadv
  | none =>
      rw [hf] at hadv
      refine Gets.head (Mirrors.sts_gets (h := h) ?_ ?_)
      · rw [hadv]
        exact hs.same rfl rfl
      · rw [hadv]
        exact points_move _ _ _

/-- A request for the service that is done. -/
theorem Mirrors.serves (hs : Mirrors id s w h) {service : Option Nat}
    (hadv : s.advance f id
      = ({ s with service := service }.make id .service).move id .secret) :
    Gets f id s (w.creates (secretErr f w.sts)) := by
  refine Gets.head (Mirrors.secret_gets (h := h) ?_ ?_)
  · rw [hadv]
    exact hs.same rfl rfl
  · rw [hadv]
    exact points_move _ _ _

theorem Mirrors.createService_gets (hs : Mirrors id s w h)
    (hat : s.points id = some .createService) :
    Gets f id s (w.creates ((createServiceErr f s.service).map
      .internalService <|> secretErr f w.sts)) := by
  have hadv : s.advance f id
      = s.createService id (f .createService) := by
    simp only [advance_eq hat, act, hs.holder, hat]
  unfold createService at hadv
  unfold createServiceErr
  cases hf : f .createService with
  | some t =>
      rw [hf] at hadv
      exact hs.fails hadv
  | none =>
      rw [hf] at hadv
      cases hservice : s.service with
      | some version =>
          rw [hservice] at hadv
          exact hs.fails hadv
      | none =>
          rw [hservice] at hadv
          exact hs.serves hadv

theorem Mirrors.updateService_gets {version : Nat} (hs : Mirrors id s w h)
    (hat : s.points id = some (.updateService version))
    (hservice : s.service = some version) :
    Gets f id s (w.creates ((updateServiceErr f version).map
      .internalService <|> secretErr f w.sts)) := by
  have hadv : s.advance f id
      = s.updateService id version (f (.updateService version)) := by
    simp only [advance_eq hat, act, hs.holder, hat]
  unfold updateService at hadv
  rw [hservice] at hadv
  unfold updateServiceErr
  cases hf : f (.updateService version) with
  | none =>
      rw [hf] at hadv
      dsimp only at hadv
      rw [if_pos rfl] at hadv
      exact hs.serves hadv
  | some t =>
      rw [hf] at hadv
      cases t with
      | unbuilt cause => exact hs.fails hadv
      | refused err =>
          cases err with
          | notFound =>
              have hserved : s.advance f id = ({ s with
                  service := s.service }.make id .service).move id
                    .secret := hadv
              exact hs.serves hserved
          | conflict => exact hs.fails hadv
          | other text => exact hs.fails hadv

/-- Where the objects leave the goroutine. -/
theorem Mirrors.objects_get (hs : Mirrors id s w h)
    (hat : s.points id = some .getService) :
    Gets f id s (w.creates ((CreateAnswer.met f s.service).err w.sts)) := by
  have hadv : s.advance f id = s.getService id (f .getService) := by
    simp only [advance_eq hat, act, hs.holder, hat]
  have hcreates : s.advance f id = s.move id .createService →
      Gets f id s (w.creates ((createServiceErr f s.service).map
        .internalService <|> secretErr f w.sts)) := by
    intro heq
    refine Gets.head ?_
    rw [heq]
    exact Mirrors.createService_gets (hs.same rfl rfl) (points_move _ _ _)
  show Gets f id s (w.creates ((serviceErr f s.service).map
    .internalService <|> secretErr f w.sts))
  unfold getService at hadv
  unfold serviceErr
  cases hf : f .getService with
  | none =>
      rw [hf] at hadv
      cases hservice : s.service with
      | none =>
          rw [hservice] at hadv hcreates
          exact hcreates hadv
      | some version =>
          rw [hservice] at hadv
          refine Gets.head ?_
          rw [hadv]
          exact Mirrors.updateService_gets (hs.same rfl rfl)
            (points_move _ _ _) hservice
  | some t =>
      rw [hf] at hadv
      cases t with
      | unbuilt cause => exact hs.fails hadv
      | refused err =>
          cases err with
          | notFound => exact hcreates hadv
          | conflict => exact hs.fails hadv
          | other text => exact hs.fails hadv

/-- The two writes of the status are one. -/
theorem Mirrors.writes {trouble : Option Trouble} (hs : Mirrors id s w h)
    (caller : String) (g : ClusterStatus → ClusterStatus)
    (henv : env.update w.sys.calls
      = trouble.map fun t => .other t.text) :
    let r := s.updateCRStatus id h (g h.status) trouble
    let o := RssOperator.updateCRStatus env caller (w.sys.mapStatus g)
    o.1 = r.1.map (Err.statusUpdate caller)
      ∧ ∃ h', Mirrors id r.2 { w with sys := o.2 } h' := by
  intro r o
  have hstatus : g h.status = (w.sys.mapStatus g).c.status :=
    congrArg g hs.shows_.status
  have hshows : { h with status := g h.status }.Shows
      (w.sys.mapStatus g) := ⟨hs.shows_.held, hstatus⟩
  have hcalls : env.update (w.sys.mapStatus g).calls
      = trouble.map fun t => .other t.text := henv
  have hwrite := @Holder.Shows.write env _ _ s.versions.store hshows
    (fun _ => hs.current) caller
  rw [hcalls, Option.isSome_map] at hwrite
  have hmirrors : ∀ h', (Holder.write trouble.isSome s.versions.store
      { h with status := g h.status }) = h' →
      h'.2.held.version = h'.1.version →
      Mirrors id r.2 { w with sys := o.2 } h'.2 := by
    rintro h' rfl hversion
    exact ⟨(Versions.lookup_setHolder _ _ _ _).trans (if_pos rfl), hwrite,
      hversion, hs.sts⟩
  by_cases heq : h.held.value.status = g h.status
  · have hsame : (w.sys.mapStatus g).c.rss.status
        = (w.sys.mapStatus g).c.status := by
      rw [← hstatus, ← heq, hs.shows_.held]
      rfl
    refine ⟨?_, _, hmirrors _ (if_pos heq) hs.current⟩
    show o.1 = ({ h with status := g h.status }.writeErr trouble
      s.versions.store).map _
    unfold Holder.writeErr
    rw [if_pos heq]
    exact congrArg Prod.fst (updateCRStatus_equal caller hsame)
  · have hdiffer : (w.sys.mapStatus g).c.rss.status
        ≠ (w.sys.mapStatus g).c.status := by
      rw [← hstatus]
      show w.sys.c.rss.status ≠ _
      rw [← hs.shows_.held]
      exact heq
    have ho : o.1 = (env.update (w.sys.mapStatus g).calls).map fun err =>
        Err.statusUpdate caller err.text :=
      congrArg Prod.fst (updateCRStatus_differ caller hdiffer)
    rw [ho, hcalls]
    show _ = ({ h with status := g h.status }.writeErr trouble
      s.versions.store).map _ ∧ _
    unfold Holder.writeErr
    rw [if_neg heq]
    cases trouble with
    | some t =>
        exact ⟨rfl, _, hmirrors _ (Holder.write_refused heq (Or.inl rfl))
          hs.current⟩
    | none =>
        refine ⟨?_, _, hmirrors _ (Holder.write_accepted heq hs.current)
          rfl⟩
        dsimp only
        rw [if_pos hs.current]
        rfl

theorem Mirrors.phase_gets (hs : Mirrors id s w h)
    (hat : s.points id = some .phase)
    (henv : env.update w.sys.calls
      = (f .phase).map fun t => .other t.text)
    (hkube : kube.create w.requests = .met f s.service) :
    Gets f id s (create env kube w) := by
  have hadv : s.advance f id = s.announcePhase id h (f .phase) := by
    simp only [advance_eq hat, act, hs.holder, hat]
  obtain ⟨hres, h', hmirrors⟩ := hs.writes "create"
    (fun st => { st with phase := .creating }) henv
  rw [create_eq]
  refine Gets.head ?_
  rw [hadv]
  unfold announcePhase
  dsimp only
  show Gets f id _ (Option.elim (RssOperator.updateCRStatus env "create"
    (w.sys.mapStatus _)).1 _ _)
  rw [hres]
  have hservice : (s.updateCRStatus id h
      { h.status with phase := .creating } (f .phase)).2.service
      = s.service := rfl
  cases hr : s.updateCRStatus id h { h.status with phase := .creating }
      (f .phase) with
  | mk err s₁ =>
      rw [hr] at hmirrors hservice
      cases err with
      | some cause =>
          exact ⟨_, h', .refl, hmirrors.same rfl rfl, points_move _ _ _⟩
      | none =>
          rw [hkube, ← hservice]
          have hnext : Mirrors id ((s₁.make id .phase).move id .getService)
              _ h' := hmirrors.same rfl rfl
          exact hnext.objects_get (points_move _ _ _)

end Creation

-- ============================================================= the setup

/-- The part of `setup` that reads the TLS secret. -/
def World.secured (kube : Kube) (next : Option LoopErr × World)
    (w : World) : Option LoopErr × World :=
  if isSecureClient w.sys.spec.tls then
    (kube.tls w.requests).elim next fun cause => (some (.tls cause), w)
  else next

theorem setup_creates (hphase : w.sys.c.status.phase = .none) :
    setup env kube w = w.secured kube (create env kube w) := by
  unfold setup World.secured
  rw [hphase]
  cases kube.tls w.requests with
  | some cause => rfl
  | none => rfl

theorem setup_resumes (hphase : w.sys.c.status.phase = .running) :
    setup env kube w = w.secured kube (none, w) := by
  unfold setup World.secured
  rw [hphase]
  cases kube.tls w.requests with
  | some cause => rfl
  | none => rfl

/-- It lets `setup` go on. -/
def World.passesTls (f : Point → Option Trouble) (w : World) : Prop :=
  isSecureClient w.sys.spec.tls = true → f .tls = none

theorem World.secured_of_passes {next : Option LoopErr × World}
    (htls : kube.tls w.requests = (f .tls).map Trouble.text)
    (hpasses : w.passesTls f) : w.secured kube next = next := by
  unfold World.secured
  split
  · next hsecure =>
    rw [htls, hpasses hsecure]
    rfl
  · rfl

theorem World.secured_of_not {next : Option LoopErr × World}
    (htls : kube.tls w.requests = (f .tls).map Trouble.text)
    (hnot : ¬ w.passesTls f) : ∃ t, f .tls = some t
      ∧ isSecureClient w.sys.spec.tls = true
      ∧ w.secured kube next = (some (.tls t.text), w) := by
  obtain ⟨hsecure, hsome⟩ := Classical.not_imp.mp hnot
  obtain ⟨t, ht⟩ := Option.ne_none_iff_exists'.mp hsome
  refine ⟨t, ht, hsecure, ?_⟩
  rw [World.secured, if_pos hsecure, htls, ht]
  rfl

namespace Creation

theorem Mirrors.secured_gets {next : Option LoopErr × World}
    (hs : Mirrors id s w h)
    (hat : s.points id
      = some (if isSecureClient w.sys.spec.tls then .tls else p))
    (hp : p = if w.sys.c.status.phase = .none then .phase else .initial)
    (htls : kube.tls w.requests = (f .tls).map Trouble.text)
    (hnext : w.passesTls f → ∀ s', Mirrors id s' w h →
      s'.points id = some p → s'.service = s.service → Gets f id s' next) :
    Gets f id s (w.secured kube next) := by
  have hadv : isSecureClient w.sys.spec.tls = true → s.advance f id
      = (f .tls).elim (s.move id p)
        fun t => s.move id (.failing (.tls t.text)) := by
    intro hsecure
    rw [if_pos hsecure] at hat
    simp only [advance_eq hat, act, hs.holder, hat, hs.shows_.status, hp]
    cases f .tls with
    | none => rfl
    | some t => rfl
  by_cases hpasses : w.passesTls f
  · rw [World.secured_of_passes htls hpasses]
    cases hsecure : isSecureClient w.sys.spec.tls with
    | false =>
        rw [hsecure, if_neg Bool.false_ne_true] at hat
        exact hnext hpasses s hs hat rfl
    | true =>
        refine Gets.head ?_
        rw [hadv hsecure, hpasses hsecure]
        exact hnext hpasses _ (hs.same rfl rfl) (points_move _ _ _) rfl
  · obtain ⟨t, ht, hsecure, heq⟩ := World.secured_of_not htls hpasses
    rw [heq]
    refine hs.fails ?_
    rw [hadv hsecure, ht]
    rfl

theorem Mirrors.setup_gets (hs : Mirrors id s w h)
    (hat : s.points id
      = some (.first w.sys.spec.tls w.sys.c.status.phase))
    (htls : kube.tls w.requests = (f .tls).map Trouble.text)
    (hkube : kube.create w.requests = .met f s.service)
    (henv : w.sys.c.status.phase = .none → w.passesTls f →
      env.update w.sys.calls = (f .phase).map fun t => .other t.text) :
    Gets f id s (setup env kube w) := by
  cases hphase : w.sys.c.status.phase with
  | none =>
      rw [setup_creates hphase]
      rw [hphase] at hat
      refine hs.secured_gets hat (by rw [if_pos hphase]) htls
        fun hpasses s' hs' hat' hservice => ?_
      rw [← hservice] at hkube
      exact hs'.phase_gets hat' (henv hphase hpasses) hkube
  | running =>
      rw [setup_resumes hphase]
      rw [hphase] at hat
      refine hs.secured_gets hat (by rw [if_neg (by rw [hphase]; decide)])
        htls fun _ s' hs' hat' _ => ?_
      exact ⟨s', h, .refl, hs', hat'⟩
  | creating | paused | failed | other =>
      rw [hphase] at hat
      refine ⟨s, h, .refl, ?_, ?_⟩
      · simp only [setup, hphase]
        exact hs
      · simp only [hat, setup, hphase]
        rfl

end Creation

-- ============================================================ the launch

theorem updateCRStatus_congr {env' : Env} {sys : Sys} {caller : String}
    (h : env.update sys.calls = env'.update sys.calls) :
    updateCRStatus env caller sys = updateCRStatus env' caller sys := by
  unfold updateCRStatus
  rw [h]

/-- Nothing of the world counts in `setup` but the answer to its write, if
there is one. -/
theorem setup_congr {env' : Env}
    (htls : kube.tls w.requests = (f .tls).map Trouble.text)
    (h : w.sys.c.status.phase = .none → w.passesTls f →
      env.update w.sys.calls = env'.update w.sys.calls) :
    setup env kube w = setup env' kube w := by
  cases hphase : w.sys.c.status.phase with
  | none =>
      rw [setup_creates hphase, setup_creates hphase]
      by_cases hpasses : w.passesTls f
      · have hcreate : create env kube w = create env' kube w := by
          have hupdate : updateCRStatus env "create"
              (w.sys.setPhase .creating) = updateCRStatus env' "create"
                (w.sys.setPhase .creating) :=
            updateCRStatus_congr (h hphase hpasses)
          unfold create
          rw [hupdate]
        rw [hcreate]
      · obtain ⟨t, ht, -, heq⟩ := World.secured_of_not htls hpasses
        obtain ⟨t', ht', -, heq'⟩ := World.secured_of_not htls hpasses
        obtain rfl : t = t' := Option.some.inj (ht.symm.trans ht')
        rw [heq, heq']
  | running => rw [setup_resumes hphase, setup_resumes hphase]
  | creating | paused | failed | other => simp only [setup, hphase]

/-- `setup` writes to the resource at most once. -/
theorem setup_calls (hstatus : w.sys.c.rss.status = w.sys.c.status)
    (htls : kube.tls w.requests = (f .tls).map Trouble.text) :
    w.sys.c.status.phase = .none ∧ w.passesTls f
        ∧ (setup env kube w).2.sys.calls = w.sys.calls + 1
      ∨ ¬ (w.sys.c.status.phase = .none ∧ w.passesTls f)
        ∧ (setup env kube w).2.sys.calls = w.sys.calls := by
  by_cases hto : w.sys.c.status.phase = .none ∧ w.passesTls f
  · refine Or.inl ⟨hto.1, hto.2, ?_⟩
    have hdiffer : (w.sys.setPhase .creating).c.rss.status
        ≠ (w.sys.setPhase .creating).c.status := by
      intro heq
      have hphase : w.sys.c.rss.status.phase = .creating :=
        congrArg ClusterStatus.phase heq
      rw [hstatus, hto.1] at hphase
      cases hphase
    rw [setup_creates hto.1, World.secured_of_passes htls hto.2, create_eq,
      updateCRStatus_differ "create" hdiffer]
    dsimp only
    cases env.update (w.sys.setPhase .creating).calls with
    | some err => rfl
    | none =>
        show (World.creates _ _).2.sys.calls = _
        unfold World.creates
        dsimp only
        split <;> rfl
  · refine Or.inr ⟨hto, ?_⟩
    cases hphase : w.sys.c.status.phase with
    | none =>
        obtain ⟨t, -, -, heq⟩ := World.secured_of_not htls fun hpasses =>
          hto ⟨hphase, hpasses⟩
        rw [setup_creates hphase, heq]
    | running =>
        rw [setup_resumes hphase]
        by_cases hpasses : w.passesTls f
        · rw [World.secured_of_passes htls hpasses]
        · obtain ⟨t, -, -, heq⟩ := World.secured_of_not htls hpasses
          rw [heq]
    | creating | paused | failed | other => simp only [setup, hphase]

namespace Creation

/-- The last request, and where it leaves the goroutine. -/
theorem Gets.ends {rss : ReplicatedStatefulSet}
    (hgets : Gets f id s (setup env kube (w.handed rss)))
    (henv : env.update (setup env kube (w.handed rss)).2.sys.calls
      = (f ((setup env kube (w.handed rss)).1.elim .initial
          .failing)).map fun t => .other t.text) :
    ∃ s' h', Advances f id s s'
      ∧ Mirrors id s' (RssOperator.launch env kube rss w) h'
      ∧ s'.points id = some
        (if (RssOperator.launch env kube rss w).alive then .running
          else .gone) := by
  obtain ⟨s₁, h₁, hadv, hs₁, hat⟩ := hgets
  unfold RssOperator.launch
  cases hr : setup env kube (w.handed rss) with
  | mk err w₁ =>
      rw [hr] at hs₁ hat henv
      cases err with
      | none =>
          obtain ⟨-, h', hs'⟩ := hs₁.writes "initial"
            (fun st => { st with phase := .running }) henv
          have hnext : s₁.advance f id = (s₁.updateCRStatus id h₁
              { h₁.status with phase := .running }
              (f .initial)).2.move id .running := by
            simp only [advance_eq hat, Option.elim_none, act, hs₁.holder,
              hat]
          refine ⟨_, h', hadv.tail rfl, ?_, ?_⟩
          · rw [hnext]
            exact ⟨hs'.holder, hs'.shows_, hs'.current, hs'.sts⟩
          · rw [hnext]
            exact points_move _ _ _
      | some err =>
          have hnext : s₁.advance f id
              = s₁.reportSetup id h₁ err (f (.failing err)) := by
            simp only [advance_eq hat, Option.elim_some, act, hs₁.holder,
              hat]
          unfold reportSetup at hnext
          rw [hs₁.shows_.status] at hnext
          by_cases hfailed : w₁.sys.c.status.phase = .failed
          · rw [if_pos hfailed] at hnext
            refine ⟨_, h₁, hadv.tail rfl, ?_, ?_⟩
            · rw [hnext]
              dsimp only
              rw [if_pos hfailed]
              exact ⟨hs₁.holder, hs₁.shows_, hs₁.current, hs₁.sts⟩
            · rw [hnext]
              exact points_move _ _ _
          · obtain ⟨-, h', hs'⟩ := hs₁.writes "setup" (fun st =>
              { st with reason := err.text, phase := .failed }) henv
            rw [if_neg hfailed, ← hs₁.shows_.status] at hnext
            refine ⟨_, h', hadv.tail rfl, ?_, ?_⟩
            · rw [hnext]
              dsimp only
              rw [if_neg hfailed]
              exact ⟨hs'.holder, hs'.shows_, hs'.current, hs'.sts⟩
            · rw [hnext]
              exact points_move _ _ _

end Creation

-- ========================================================= the whole of it

/-- The answer to a write of the resource. -/
def Trouble.told (t : Trouble) : ApiErr := .other t.text

/-- The answers of Kubernetes that sum up what the requests meet. -/
def Kube.meeting (f : Point → Option Trouble) (service : Option Nat) :
    Kube :=
  { Kube.obliging with
    tls := fun _ => (f .tls).map Trouble.text
    create := fun _ => .met f service }

/-- All writes of the resource meet the same. -/
def Env.telling (trouble : Option Trouble) : Env :=
  { Env.deciding fun _ => true with update := fun _ => trouble.map Trouble.told }

/-- The same for the writes of the resource: `setup` sends at most one, that
of the phase, and the one behind it is the last. -/
def Env.meeting (f : Point → Option Trouble) (service : Option Nat)
    (w : World) : Env :=
  let r := setup (.telling (f .phase)) (.meeting f service) w
  { Env.deciding fun _ => true with
    update := fun n =>
      if n = r.2.sys.calls then
        (f (r.1.elim .initial .failing)).map Trouble.told
      else (f .phase).map Trouble.told }

/-- `setup` meets what it would if all writes were those of the phase. -/
theorem setup_meeting (f : Point → Option Trouble) (service : Option Nat)
    (w : World) (hstatus : w.sys.c.rss.status = w.sys.c.status) :
    (w.sys.c.status.phase = .none → w.passesTls f →
      (Env.meeting f service w).update w.sys.calls
        = (f .phase).map Trouble.told)
    ∧ setup (.meeting f service w) (.meeting f service) w
      = setup (.telling (f .phase)) (.meeting f service) w := by
  have hfirst : w.sys.c.status.phase = .none → w.passesTls f →
      (Env.meeting f service w).update w.sys.calls
        = (f .phase).map Trouble.told := by
    intro hphase hpasses
    rcases @setup_calls w f (.telling (f .phase)) (.meeting f service)
      hstatus rfl with ⟨-, -, hcalls⟩ | ⟨hno, -⟩
    · refine if_neg ?_
      rw [hcalls]
      omega
    · exact absurd ⟨hphase, hpasses⟩ hno
  exact ⟨hfirst, setup_congr rfl hfirst⟩

/-- A goroutine that is started with the current version and left alone
does what `launch` does with the answers that sum up what its requests
meet: the copy, the status and the StatefulSet are the same in the end, and
it is in the loop or has returned. -/
theorem launch_in_one_go (s : Creation) (id : Nat) (w : World)
    (f : Point → Option Trouble) (hfree : s.points id = none)
    (hsts : s.sts = w.sts) :
    let rss := s.versions.store.current.cleaned
    let env := Env.meeting f s.service (w.handed rss)
    let kube := Kube.meeting f s.service
    ∃ s' h', Advances f id (s.step (.launch id s.versions.store.version)) s'
      ∧ Mirrors id s' (launch env kube rss w) h'
      ∧ s'.points id = some
        (if (launch env kube rss w).alive then .running else .gone) := by
  intro rss env kube
  have hnotified : s.versions.notified s.versions.store.version
      (s.versions.store.contents s.versions.store.version).status
      = some ⟨s.versions.store.version, rss⟩ := if_pos (Nat.le_refl _)
  let h : Holder := ⟨⟨s.versions.store.version, rss⟩, rss.status, []⟩
  have hstart : s.step (.launch id s.versions.store.version)
      = { s with versions := s.versions.setHolder id h }.move id
        (.first rss.spec.tls rss.status.phase) := by
    simp only [Creation.step, Creation.launch, hfree, Versions.step,
      hnotified]
    rfl
  have hmirrors : Mirrors id (s.step (.launch id s.versions.store.version))
      (w.handed rss) h := by
    rw [hstart]
    exact ⟨(Versions.lookup_setHolder _ _ _ _).trans (if_pos rfl),
      ⟨rfl, rfl⟩, rfl, hsts⟩
  have hat : (s.step (.launch id s.versions.store.version)).points id
      = some (.first rss.spec.tls rss.status.phase) := by
    rw [hstart]
    exact points_move _ _ _
  have hservice : (s.step (.launch id s.versions.store.version)).service
      = s.service := by
    rw [hstart]
    rfl
  obtain ⟨hfirst, hsame⟩ := setup_meeting f s.service (w.handed rss) rfl
  refine Gets.ends (hmirrors.setup_gets hat rfl ?_ hfirst) ?_
  · rw [hservice]
    rfl
  · rw [hsame]
    exact if_pos rfl

/-- A new resource, set up without trouble: it is in the loop. -/
theorem launch_in_one_go_fresh :
    let s := Creation.fresh (.sized 3 1)
    let w := World.fresh (.sized 3 1)
    let rss := s.versions.store.current.cleaned
    let env := Env.meeting (fun _ => none) s.service (w.handed rss)
    let kube := Kube.meeting (fun _ => none) s.service
    s.points 0 = none ∧ s.sts = w.sts
      ∧ (launch env kube rss w).alive = true
      ∧ ∃ s' h', Advances (fun _ => none) 0
          (s.step (.launch 0 s.versions.store.version)) s'
        ∧ Mirrors 0 s' (launch env kube rss w) h'
        ∧ s'.points 0 = some
          (if (launch env kube rss w).alive then .running else .gone) :=
  ⟨rfl, rfl, by decide +kernel, launch_in_one_go (.fresh (.sized 3 1)) 0
    (.fresh (.sized 3 1)) (fun _ => none) rfl rfl⟩

end RssOperator
