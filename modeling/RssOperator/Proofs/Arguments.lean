/-
The arguments of a command.

# Two predicates

`appendPrimaries` names the members that are online and marked as a
primary; `AppPrimaries` counts those that also run. They are the same
members because a primary runs, which every entry satisfies at all times
(`Member.Sound`).

# What is on record

A command goes on record with the members it was issued on. That its
arguments were built from them and from the resource in memory is a fact
about the places that issue commands, and a frame (`Issued`); that the
members were sound is a fact about the moves of the loop
(`Move.foundSound`). Neither needs the other, and together they say what
every command of every run receives (`commands_receive_primaries`).
-/
import RssOperator.Proofs.Phases
import RssOperator.Proofs.Survivors

namespace RssOperator

variable {env : Env} {kube : Kube} {s s' : Sys} {rss : ReplicatedStatefulSet}
  {ms : MemberSet} {e : Event}

-- ===================================================== what is received

/-- The configured command; a key without an entry reads as none. -/
def ClusterSpec.command (spec : ClusterSpec) (key : CommandKey) :
    List String :=
  ((spec.commands key).map (·.command)).getD []

/-- The address under which a primary is named. -/
def Member.host (rss : ReplicatedStatefulSet) (m : Member) : String :=
  m.name ++ "." ++ rss.serviceName

/-- The command `cmd` followed by one argument for each member that
`AppPrimaries` counts, and no other. -/
def ReceivesPrimaries (rss : ReplicatedStatefulSet) (ms : MemberSet)
    (cmd args : List String) : Prop :=
  ∃ added, args = cmd ++ added ∧ added.Nodup
    ∧ (added.length : Int) = ms.appPrimaries
    ∧ ∀ a, a ∈ added ↔ ∃ k m, ms.lookup k = some m ∧ m.isPrimary = true
        ∧ m.host rss = a

/-- Nothing is added while there is no primary. -/
theorem ReceivesPrimaries.of_none {cmd args : List String}
    (h : ReceivesPrimaries rss ms cmd args) (hzero : ms.appPrimaries = 0) :
    args = cmd := by
  obtain ⟨added, rfl, -, hlen, -⟩ := h
  have hnil : added = [] := List.length_eq_zero_iff.mp (by omega)
  rw [hnil, List.append_nil]

theorem appendPrimaries_eq (rss : ReplicatedStatefulSet) (ms : MemberSet)
    (o : Order String) (cmd : List String) :
    appendPrimaries rss ms o cmd
      = cmd ++ GoMap.collect (fun m => m.online && m.appPrimary)
          (Member.host rss) o ms := by
  have hfold : ∀ (l : List (String × Member)) (cmd : List String),
      l.foldl (fun cmd e =>
          if e.2.online && e.2.appPrimary then
            cmd ++ [e.2.name ++ "." ++ rss.serviceName]
          else cmd) cmd
        = cmd ++ ((l.filter fun e => e.2.online && e.2.appPrimary).map
            fun e => e.2.host rss) := by
    intro l
    induction l with
    | nil => intro cmd; simp
    | cons e l ih =>
        intro cmd
        rw [List.foldl_cons, ih]
        cases he : e.2.online && e.2.appPrimary with
        | true =>
            rw [if_pos rfl, List.filter_cons_of_pos (by simp [he]),
              List.map_cons, List.append_assoc]
            rfl
        | false =>
            rw [if_neg Bool.false_ne_true,
              List.filter_cons_of_neg (by simp [he])]
  exact hfold _ cmd

/-- On a sound set the two predicates agree. -/
theorem Member.Sound.isPrimary_eq {k : String} {m : Member}
    (h : m.Sound k) : m.isPrimary = (m.online && m.appPrimary) := by
  unfold Member.isPrimary
  cases hp : m.appPrimary with
  | false => simp
  | true => simp [h.primary hp]

theorem Member.host_inj {m m' : Member} :
    m.host rss = m'.host rss ↔ m.name = m'.name := by
  unfold host
  simp

theorem MemberSet.Sound.receives (h : ms.Sound) (o : Order String)
    (cmd : List String) :
    ReceivesPrimaries rss ms cmd (appendPrimaries rss ms o cmd) := by
  refine ⟨_, appendPrimaries_eq rss ms o cmd, ?_, ?_, ?_⟩
  · refine GoMap.nodup_collect ?_ o
    intro k m k' m' hm hm' heq
    rw [← (h k m hm).name, ← (h k' m' hm').name]
    exact Member.host_inj.mp heq
  · rw [GoMap.length_collect]
    exact congrArg Nat.cast (GoMap.count_congr fun k m hm =>
      (h k m hm).isPrimary_eq.symm)
  · intro a
    rw [GoMap.mem_collect]
    constructor
    · rintro ⟨k, m, hm, hp, ha⟩
      exact ⟨k, m, hm, (h k m hm).isPrimary_eq.trans hp, ha⟩
    · rintro ⟨k, m, hm, hp, ha⟩
      exact ⟨k, m, hm, (h k m hm).isPrimary_eq.symm.trans hp, ha⟩

-- ====================================================== how it is built

/-- A command whose arguments were built from its members and from `rss`;
a seed command was issued while there was no primary. The answer is one
of `env`. -/
def Event.issuedFrom (env : Env) (rss : ReplicatedStatefulSet) (e : Event) :
    Prop :=
  ∀ call k pod args peers a, e = .exec call k pod args peers a →
    (∃ o, args = appendPrimaries rss peers o (rss.spec.command call.action))
      ∧ (∃ i, a = env.exec i call pod)
      ∧ (call.action = .seed → peers.appPrimaries = 0)

theorem Event.issuedFrom_of_quiet (h : e.quiet = true) :
    e.issuedFrom env rss := by
  rintro call k pod args peers a rfl
  cases h

theorem Event.issuedFrom_delete (k : String) (peers : MemberSet)
    (ok : Bool) : Event.issuedFrom env rss (.delete k peers ok) := by
  intro call k' pod args peers' a he
  cases he

theorem Event.issuedFrom.congr {rss' : ReplicatedStatefulSet}
    (hspec : rss'.spec = rss.spec) (hname : rss'.name = rss.name)
    (h : e.issuedFrom env rss') : e.issuedFrom env rss := by
  intro call k pod args peers a he
  obtain ⟨⟨o, hargs⟩, hrest⟩ := h call k pod args peers a he
  refine ⟨⟨o, ?_⟩, hrest⟩
  rw [hargs, appendPrimaries_eq, appendPrimaries_eq, hspec]
  unfold Member.host ReplicatedStatefulSet.serviceName
  rw [hname]

/-- The spec and the name of the resource stay, and every command is built
from them. -/
structure Issued (env : Env) (s s' : Sys) : Prop where
  spec : s'.c.rss.spec = s.c.rss.spec
  name : s'.c.rss.name = s.c.rss.name
  logs : Logs (Event.issuedFrom env s.c.rss) s s'

namespace Issued

theorem silent (hspec : s'.c.rss.spec = s.c.rss.spec)
    (hname : s'.c.rss.name = s.c.rss.name)
    (htrace : s'.trace = s.trace) : Issued env s s' :=
  ⟨hspec, hname, .same htrace⟩

theorem one (hspec : s'.c.rss.spec = s.c.rss.spec)
    (hname : s'.c.rss.name = s.c.rss.name)
    (htrace : s'.trace = e :: s.trace) (he : e.issuedFrom env s.c.rss) :
    Issued env s s' := by
  refine ⟨hspec, hname, [e], htrace, ?_⟩
  intro e' he'
  rw [List.mem_singleton.mp he']
  exact he

theorem trans {s₁ s₂ s₃ : Sys} (h : Issued env s₁ s₂)
    (h' : Issued env s₂ s₃) : Issued env s₁ s₃ :=
  ⟨h'.spec.trans h.spec, h'.name.trans h.name,
    h.logs.trans (h'.logs.mono fun _ he => he.congr h.spec h.name)⟩

/-- A command is built from what is in memory. -/
theorem ran (call : Call) (k pod : String) (s : Sys)
    (hseed : call.action = .seed → s.members.appPrimaries = 0) :
    Issued env s (s.ran env call k pod) := by
  refine one rfl rfl rfl ?_
  intro call' k' pod' args peers a he
  injection he with hcall _ hpod hargs hpeers ha
  subst hcall hpod hpeers
  exact ⟨⟨s.order env, hargs.symm⟩, ⟨s.execs, ha.symm⟩, hseed⟩

/-- The `seed` key is picked only while there is no primary. -/
theorem startCall_seed {asPrimary : Bool}
    (h : (s.startCall asPrimary).action = .seed) :
    s.members.appPrimaries = 0 := by
  by_contra hne
  exact startCommand_ne_seed asPrimary (fun _ => hne) h

/-- What runs no command and renames nothing. -/
theorem of_quiet (h : Quiet s s') (hname : s'.c.rss.name = s.c.rss.name) :
    Issued env s s' := by
  obtain ⟨es, htrace, hall⟩ := h.trace
  exact ⟨h.spec, hname, es, htrace, fun e he =>
    Event.issuedFrom_of_quiet (hall e he)⟩

theorem updateCRStatus (caller : String) (s : Sys) :
    Issued env s (updateCRStatus env caller s).2 := by
  refine of_quiet (Quiet.updateCRStatus caller s) ?_
  by_cases heq : s.c.rss.status = s.c.status
  · rw [updateCRStatus_equal caller heq]
  · rw [updateCRStatus_differ caller heq]
    rfl

theorem writeShared_name (pos : Nat) (vals : List ClusterCondition)
    (c : Cluster) : (c.writeShared pos vals).rss.name = c.rss.name := by
  unfold Cluster.writeShared
  split <;> rfl

theorem setClusterCondition_name (moved : Bool) (new : ClusterCondition)
    (c : Cluster) :
    (c.setClusterCondition moved new).rss.name = c.rss.name := by
  unfold Cluster.setClusterCondition
  dsimp only
  split
  · split
    · rfl
    · exact writeShared_name _ _ c
  · split
    · rfl
    · split
      · rfl
      · exact writeShared_name _ _ c

theorem clearCondition_name (t : ClusterConditionType) (c : Cluster) :
    (c.clearCondition t).rss.name = c.rss.name := by
  unfold Cluster.clearCondition
  dsimp only
  split
  · rfl
  · exact writeShared_name _ _ c

theorem frame (env : Env) : Frame env (Issued env) where
  refl _ := .silent rfl rfl rfl
  trans := trans
  start _ k pod s := ran _ k pod s fun h => startCall_seed h
  stop k pod s := ran .stop k pod s nofun
  sequence k pod s := ran .sequence k pod s nofun
  status k pod s := ran .status k pod s nofun
  update _ _ _ := .silent rfl rfl rfl
  setPeers _ _ := .silent rfl rfl rfl
  ranged _ _ := .silent rfl rfl rfl
  tagged _ _ _ _ := .one rfl rfl rfl (Event.issuedFrom_of_quiet rfl)
  deleted _ _ _ _ := .one rfl rfl rfl (Event.issuedFrom_delete _ _ _)
  setCondition t reason message s :=
    .of_quiet (Quiet.setCondition t reason message s)
      (setClusterCondition_name _ _ s.c)
  clearCondition t s := by
    obtain ⟨hpeers, hspec⟩ := Cluster.clearCondition_frame t s.c
    exact .of_quiet (Quiet.mapCluster s hpeers hspec)
      (clearCondition_name t s.c)
  resized _ _ := .silent rfl rfl rfl
  updateCRStatus := updateCRStatus

theorem tick (env : Env) (fuel : Nat) (poll : Poll) (s : Sys) :
    Issued env s (tick env fuel poll s).state :=
  (frame env).tick (fun _ _ _ => .silent rfl rfl rfl) fuel poll s

end Issued

-- ================================================= the members it found

/-- The members, and those every command and deletion found, are sound. -/
def Sys.FoundSound (s : Sys) : Prop :=
  s.members.Sound ∧ ∀ e ∈ s.trace, ∀ ms, e.found = some ms → ms.Sound

theorem Event.found_of_quiet (h : e.quiet = true) : e.found = none := by
  cases e with
  | exec => cases h
  | delete => cases h
  | tag => rfl
  | update => rfl
  | get => rfl

/-- What a step puts on record has found the members as they were. -/
theorem Act.found {G : Event → Prop} (hact : Act env G s s') :
    ∃ es, s'.trace = es ++ s.trace
      ∧ ∀ e ∈ es, ∀ ms, e.found = some ms → ms = s.members := by
  have hone : ∀ {e : Event}, s'.trace = e :: s.trace →
      e.found = some s.members →
      ∃ es, s'.trace = es ++ s.trace
        ∧ ∀ e ∈ es, ∀ ms, e.found = some ms → ms = s.members := by
    intro e htrace hfound
    refine ⟨[e], htrace, fun e' he' ms hms => ?_⟩
    rw [List.mem_singleton.mp he', hfound] at hms
    exact (Option.some.inj hms).symm
  cases hact with
  | quiet hq =>
      obtain ⟨q, htrace, hall⟩ := hq.trace
      refine ⟨q, htrace, fun e he ms hms => ?_⟩
      rw [Event.found_of_quiet (hall e he)] at hms
      cases hms
  | command _ _ _ htrace _ => exact hone htrace rfl
  | detect _ _ _ _ _ htrace _ => exact hone htrace rfl
  | delete _ _ _ _ _ htrace _ => exact hone htrace rfl

theorem Act.foundSound {G : Event → Prop} (hact : Act env G s s')
    (hs : s.FoundSound) : s'.FoundSound := by
  refine ⟨hact.sound hs.1, ?_⟩
  obtain ⟨es, htrace, hfound⟩ := hact.found
  intro e he ms hms
  rw [htrace] at he
  rcases List.mem_append.mp he with he | he
  · rw [hfound e he ms hms]
    exact hs.1
  · exact hs.2 e he ms hms

theorem Move.foundSound (hmove : Move env s s') (hs : s.FoundSound) :
    s'.FoundSound := by
  refine ⟨hmove.sound hs.1, ?_⟩
  cases hmove with
  | act h => exact (h.foundSound hs).2
  | merge h =>
      unfold mergeMembers at h
      obtain ⟨ms, -, rfl⟩ := Option.map_eq_some_iff.mp h
      exact hs.2
  | clear => exact hs.2
  | modify _ htrace =>
      rw [htrace]
      exact hs.2

-- ================================================================ runs

/-- Entries that are no commands. -/
theorem Logs.worldFrame (env : Env) :
    WorldFrame env (Logs (fun e => e.quiet = true)) where
  refl _ := .same rfl
  trans := .trans
  mapStatus _ _ := .same rfl
  updateCRStatus caller s := (@Quiet.updateCRStatus env caller s).trace
  missed _ _ _ := ⟨[_], rfl, by simp [Event.quiet]⟩
  fetched _ _ _ := ⟨[_], rfl, by simp [Event.quiet]⟩

/-- A step outside the timer issues no command. -/
theorem WorldStep.step_quiet (w : World) {i : WorldStep}
    (hi : ∀ fuel poll, i ≠ .timer fuel poll) :
    Logs (fun e => e.quiet = true) w.sys (i.step env kube w).sys := by
  cases i with
  | timer fuel poll => exact absurd rfl (hi fuel poll)
  | event rss =>
      unfold WorldStep.step
      dsimp only
      split
      · exact ((Logs.worldFrame env).eventBranch rss w : _)
      · exact .same rfl
  | restart rss => exact ((Logs.worldFrame env).launch rss w : _)

theorem WorldStep.step_foundSound {w : World} (hw : w.sys.FoundSound)
    (i : WorldStep) : (i.step env kube w).sys.FoundSound := by
  have hquiet : (∀ fuel poll, i ≠ .timer fuel poll) →
      (i.step env kube w).sys.FoundSound := by
    intro hi
    refine ⟨i.step_sound hw.1, ?_⟩
    intro e he ms hms
    rcases (step_quiet w hi).mem_trace e he with he | hq
    · exact hw.2 e he ms hms
    · rw [Event.found_of_quiet hq] at hms
      cases hms
  cases i with
  | timer fuel poll =>
      unfold WorldStep.step
      dsimp only
      split
      · exact Moves.keep (I := Sys.FoundSound)
          (fun _ _ hs hmove => hmove.foundSound hs)
          (tick_moves fuel poll w.sys) hw
      · exact hw
  | event rss => exact hquiet nofun
  | restart rss => exact hquiet nofun

/-- Every command of a step was built from the resource in memory. -/
theorem WorldStep.step_issued (w : World) (i : WorldStep) :
    ∀ e ∈ w.sys.since (i.step env kube w).sys,
      e.issuedFrom env w.sys.c.rss := by
  have hquiet : (∀ fuel poll, i ≠ .timer fuel poll) →
      ∀ e ∈ w.sys.since (i.step env kube w).sys,
        e.issuedFrom env w.sys.c.rss :=
    fun hi e he =>
      Event.issuedFrom_of_quiet ((step_quiet w hi).mem_since e he)
  cases i with
  | timer fuel poll =>
      unfold WorldStep.step
      dsimp only
      split
      · exact (Issued.tick env fuel poll w.sys).logs.mem_since
      · intro e he
        have hnil : w.sys.since w.sys = [] := Sys.since_eq rfl
        rw [hnil] at he
        cases he
  | event rss => exact hquiet nofun
  | restart rss => exact hquiet nofun

/-- What a step hands to every command it runs. -/
def HandsPrimaries (env : Env) (kube : Kube) (w : World) (i : WorldStep) :
    Prop :=
  ∀ call k pod args peers a,
    .exec call k pod args peers a ∈ w.sys.since (i.step env kube w).sys →
    ReceivesPrimaries w.sys.c.rss peers (w.sys.spec.command call.action) args
      ∧ (call.action = .seed → args = w.sys.spec.command call.action)

theorem handsPrimaries {w : World} (hw : w.sys.FoundSound) (i : WorldStep) :
    HandsPrimaries env kube w i := by
  intro call k pod args peers a he
  obtain ⟨⟨o, hargs⟩, -, hseed⟩ :=
    i.step_issued w _ he call k pod args peers a rfl
  have hsound : peers.Sound := by
    have hmem := List.mem_of_mem_take he
    exact (WorldStep.step_foundSound hw i).2 _ hmem peers rfl
  have hreceives : ReceivesPrimaries w.sys.c.rss peers
      (w.sys.spec.command call.action) args := by
    rw [hargs]
    exact hsound.receives o _
  exact ⟨hreceives, fun hkey => hreceives.of_none (hseed hkey)⟩

/-- Commands receive exactly the current primaries. In every run, whatever
the answers and the orders: the arguments that would be built in the state
it has come to, for any key and in any order, and those of every command it
has issued on the way, are the configured command followed by one argument
for each member that `AppPrimaries` counts at that moment and no other; a
seed command gets none. -/
theorem commands_receive_primaries (env : Env) (kube : Kube)
    (rss : ReplicatedStatefulSet) (steps : List WorldStep) :
    let w := (World.fresh rss).run env kube steps
    (∀ key o, ReceivesPrimaries w.sys.c.rss w.sys.members
        (w.sys.spec.command key)
        (appendPrimaries w.sys.c.rss w.sys.members o
          (w.sys.spec.command key)))
      ∧ EveryStep env kube (HandsPrimaries env kube) (World.fresh rss)
          steps := by
  have hfresh : (World.fresh rss).sys.FoundSound := by
    refine ⟨MemberSet.sound_empty, fun e he => ?_⟩
    cases he
  have hstep : ∀ (w : World) i, w.sys.FoundSound →
      (WorldStep.step env kube w i).sys.FoundSound :=
    fun _ i hw => i.step_foundSound hw
  intro w
  refine ⟨fun key o => ?_, ?_⟩
  · have hw : w.sys.FoundSound := World.run_keeps
      (I := fun w => w.sys.FoundSound) hstep steps hfresh
    exact hw.1.receives o _
  · have hall : ∀ (steps : List WorldStep) (w : World), w.sys.FoundSound →
        EveryStep env kube (HandsPrimaries env kube) w steps := by
      intro steps
      induction steps with
      | nil => intro w _; trivial
      | cons i is ih =>
          intro w hw
          exact ⟨handsPrimaries hw i, ih _ (hstep w i hw)⟩
    exact hall steps _ hfresh

end RssOperator
