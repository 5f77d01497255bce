/-
Replication, from `pkg/cluster/replicate.go`: seed the application on
one member, promote or demote until the number of primaries is right,
start secondaries on the rest.

# Stages

`replicate` of the source is one function. It is cut here at its blank
lines: two guards, detection, seeding, the promotion loop, the demotion
loop, the secondary loop, and the end that cleans up if anything went
wrong. Each stage is a definition of its own, and `replicate` runs them
in the source's order with its early returns.

# Loops

The three `for` loops test a count and choose a member afresh each
time, so nothing but the model of the loop body says that they end.
They are `loop`s with an explicit number of turns (`fuel`), and
`Outcome.looping` is a call that has not come back yet.
-/
import RssOperator.Reconcile

namespace RssOperator

-- ============================================================ choosing

/-- One step of `chooseSeeds`: the list so far, and the next member. -/
def seedStep (best : List (String × Member)) (e : String × Member) :
    List (String × Member) :=
  if !e.2.online || e.2.appFailed then best
  else if e.2.appPrimary then best
  else
    match best with
    | [] => [e]
    | b :: _ => if b.2.seq < e.2.seq then [e] else best ++ [e]

/-- The members to try as seeds. -/
def chooseSeeds (peers : Option MemberSet) (o : Order String) :
    Except Err (List (String × Member)) :=
  match peers with
  | none => .error .noKnownPeers
  | some ms =>
      match (ms.rangeEntries o).foldl seedStep [] with
      | [] => .error .noSeedPeers
      | seeds => .ok seeds

/-- One step of `chooseMember`. -/
def memberStep (best : Option (String × Member)) (e : String × Member) :
    Option (String × Member) :=
  if !e.2.online || e.2.appFailed then best
  else if e.2.appPrimary then best
  else
    match best with
    | none => some e
    | some b =>
        if b.2.seq < e.2.seq then some e
        else if e.2.name < b.2.name then some e
        else best

/-- The member to start next. -/
def chooseMember (peers : Option MemberSet) (o : Order String) :
    Except Err (String × Member) :=
  match peers with
  | none => .error .noKnownPeers
  | some ms =>
      match (ms.rangeEntries o).foldl memberStep none with
      | none => .error .noFurtherPeers
      | some best => .ok best

/-- The scan of `chooseCurrentPrimary`, which an offline primary ends
early. -/
def scanPrimaries (best : Option (String × Member)) :
    List (String × Member) → Option (String × Member)
  | [] => best
  | e :: rest =>
      if !e.2.appPrimary || e.2.appFailed then scanPrimaries best rest
      else if !e.2.online then some e
      else
        match best with
        | none => scanPrimaries (some e) rest
        | some b =>
            if b.2.name < e.2.name then scanPrimaries (some e) rest
            else scanPrimaries best rest

/-- The primary to stop next. -/
def chooseCurrentPrimary (peers : Option MemberSet) (o : Order String) :
    Except Err (String × Member) :=
  match peers with
  | none => .error .noKnownPeers
  | some ms =>
      match scanPrimaries none (ms.rangeEntries o) with
      | none => .error .noPrimaries
      | some best => .ok best

-- =========================================================== detection

/-- One turn of `detectMembers`. The parsed number is assigned even when
it comes with an error. -/
def detectMember (env : Env) (o : Outcome Sys Unit) (k : String) :
    Outcome Sys Unit :=
  o.andThen fun _ s =>
    match s.members.lookup k with
    | none => .ret () s
    | some m =>
        if !m.online then .ret () s
        else
          let (r, s) := execute env .sequence k m.name s
          match r.err with
          | some _ => .ret () s
          | none =>
              match s.members.lookup m.name with
              | none => .panicked s
              | some _ =>
                  let stdout := trimSpace r.stdout.toList
                  if stdout = [] then .ret () s
                  else .ret () (s.update m.name fun m =>
                    { m with seq := (parseUint64 stdout).1 })

/-- Read the sequence number of every online member. -/
def detectMembers (env : Env) (s : Sys) : Outcome Sys Unit :=
  (s.members.range (s.order env)).foldl (detectMember env)
    (.ret () (s.ranged 1))

/-- Detection, unless both counts are right already. -/
def detectStage (env : Env) (s : Sys) : Outcome Sys Unit :=
  if s.members.appPrimaries ≠ s.spec.getNumPrimaries
      ∨ s.members.appMembers ≠ s.spec.getNumReplicas then
    detectMembers env s
  else .ret () s

-- ============================================================= seeding

/-- Try the seeds in turn until there is a primary. -/
def seedLoop (env : Env) :
    List (String × Member) → List Err → Sys → List Err × Sys
  | [], errors, s => (errors, s)
  | seed :: seeds, errors, s =>
      let (err, s) := startAppMember env seed.1 true s
      let errors := appendNonNil errors err
      if s.members.appPrimaries ≠ 0 then (errors, s)
      else seedLoop env seeds errors s

/-- Seeding. The result is what `replicate` returns early with; without
one, the errors of failed seeds are dropped. -/
def seedStage (env : Env) (s : Sys) : Option (List Err) × Sys :=
  if s.members.appPrimaries = 0 then
    match chooseSeeds s.c.peers (s.order env) with
    | .error err => (some [.bootstrapping err.text], s.ranged 1)
    | .ok seeds =>
        let (errors, s) := seedLoop env seeds [] (s.ranged 1)
        if s.members.appPrimaries = 0 then
          let version := (seeds.head?.map fun e => e.2.seq).getD 0
          (some [.bootstrappingFrom seeds.length version
            (combineErrors errors)], s)
        else (none, s)
  else (none, s)

-- =============================================================== loops

/-- One turn of `for c.peers.AppPrimaries() < primaries`. -/
def promoteTurn (env : Env) (primaries : Int) (st : Sys × List Err) :
    (Sys × List Err) ⊕ (Sys × List Err) :=
  let (s, errors) := st
  if s.members.appPrimaries < primaries then
    match chooseMember s.c.peers (s.order env) with
    | .error err => .inr (s.ranged 1, appendNonNil errors (some err))
    | .ok seed =>
        let (err, s) := startAppMember env seed.1 true (s.ranged 1)
        let errors := appendNonNil errors err
        if s.members.appPrimaries = 0 then .inr (s, errors)
        else .inl (s, errors)
  else .inr (s, errors)

/-- One turn of `for c.peers.AppPrimaries() > primaries`. -/
def demoteTurn (env : Env) (primaries : Int) (st : Sys × List Err) :
    (Sys × List Err) ⊕ (Sys × List Err) :=
  let (s, errors) := st
  if primaries < s.members.appPrimaries then
    match chooseCurrentPrimary s.c.peers (s.order env) with
    | .error err => .inr (s.ranged 1, appendNonNil errors (some err))
    | .ok seed =>
        let (err, s) := stopAppMember env seed.1 (s.ranged 1)
        .inl (s, appendNonNil errors err)
  else .inr (s, errors)

/-- One turn of `for c.peers.AppMembers() < replicas`. -/
def secondaryTurn (env : Env) (replicas : Int) (st : Sys × List Err) :
    (Sys × List Err) ⊕ (Sys × List Err) :=
  let (s, errors) := st
  if s.members.appMembers < replicas then
    match chooseMember s.c.peers (s.order env) with
    | .error err => .inr (s.ranged 1, appendNonNil errors (some err))
    | .ok seed =>
        let (err, s) := startAppMember env seed.1 false (s.ranged 1)
        .inl (s, appendNonNil errors err)
  else .inr (s, errors)

/-- A loop stage: skipped once there are errors, else run for at most
`fuel` turns. -/
def loopStage (turn : Sys × List Err → (Sys × List Err) ⊕ (Sys × List Err))
    (fuel : Nat) (errors : List Err) (s : Sys) : Outcome Sys (List Err) :=
  if errors = [] then
    match loop turn fuel (s, errors) with
    | .inl (s, _) => .looping s
    | .inr (s, errors) => .ret errors s
  else .ret errors s

-- =========================================================== replicate

/-- The end of `replicate`: clean up unless all went well. -/
def finishStage (env : Env) (errors : List Err) (s : Sys) :
    Outcome Sys (List Err) :=
  if errors = [] ∧ 0 < s.spec.getNumReplicas then .ret errors s
  else
    let (recovered, s) := recover env s
    .ret (appendAllNonNil errors recovered) s

/-- `replicate` once there is a primary: the three loops and the end. -/
def sizeStages (env : Env) (fuel : Nat) (replicas primaries : Int)
    (s : Sys) : Outcome Sys (List Err) :=
  (loopStage (promoteTurn env primaries) fuel [] s).andThen fun errors s =>
  (loopStage (demoteTurn env primaries) fuel errors s).andThen fun errors s =>
  (loopStage (secondaryTurn env replicas) fuel errors s).andThen
    (finishStage env)

/-- `replicate` after its two guards. -/
def replicateStages (env : Env) (fuel : Nat) (s : Sys) :
    Outcome Sys (List Err) :=
  let replicas := s.spec.getNumReplicas
  let primaries := s.spec.getNumPrimaries
  (detectStage env s).andThen fun _ s =>
    match seedStage env s with
    | (some errors, s) => .ret errors s
    | (none, s) => sizeStages env fuel replicas primaries s

/-- `replicate` up to its deferred status update. -/
def replicateBody (env : Env) (fuel : Nat) (s : Sys) :
    Outcome Sys (List Err) :=
  let replicas := s.spec.getNumReplicas
  let primaries := s.spec.getNumPrimaries
  if replicas < s.members.appMembers then
    .ret [.waitingForStop (s.members.appMembers - primaries)] s
  else if s.members.appPrimaries = 0
      ∧ s.members.activeMembers ≠ replicas then
    .ret [.waitingForPods (replicas - s.members.activeMembers)] s
  else replicateStages env fuel s

/-- `c.replicate()`. -/
def replicate (env : Env) (fuel : Nat) (s : Sys) :
    Outcome Sys (List Err) :=
  (replicateBody env fuel s).andThen fun errors s =>
    .ret errors (updateCRStatus env "replicate" s).2

end RssOperator
