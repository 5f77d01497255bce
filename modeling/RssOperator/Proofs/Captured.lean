/-
What `ExecWithOptions` has captured when it returns: everything that was
written to either stream, once, whatever the chunks and the interleaving.

# Why closing early loses nothing

The read ends are closed as soon as the error has arrived, and at that time
a reader may still have data in its hand. But the error is sent only after
`Stream` has returned, so no write is going on any more (`Sound.written`),
and a reader looks at its pipe again only after it has stored what it had,
so it ends with nothing in its hand (`Sound.ended`). No write ever fails
(`Sound.no_abort`).

# Why it returns

A state in which nobody can move is one where the call has returned
(`Sound.progress`), and every action lowers what is left to do
(`Sound.step`), so no run is longer than what there is to write allows.
-/
import RssOperator.Capture
import RssOperator.Exec

namespace RssOperator.Capture

variable {α ε : Type} {serial : Bool} {fd : Fd} {p : Pipe α}
  {script₀ script : List (Fd × List α)} {chunk : List α} {s s' : State α}

/-- The chunks for a stream, one after the other. -/
def written (fd : Fd) (script : List (Fd × List α)) : List α :=
  ((script.filter fun e => e.1 = fd).map fun e => e.2).flatten

@[simp] theorem written_nil : written fd ([] : List (Fd × List α)) = [] := rfl

theorem written_cons (fd' : Fd) :
    written fd ((fd', chunk) :: script)
      = if fd' = fd then chunk ++ written fd script
        else written fd script := by
  unfold written
  rw [List.filter_cons]
  by_cases hfd : fd' = fd
  · simp [hfd]
  · simp [hfd]

/-- What is to be written, with a step for the beginning of each write. -/
def scriptCost (script : List (Fd × List α)) : Nat :=
  (script.map fun e => Pipe.writeCost e.2 + 1).sum

@[simp] theorem scriptCost_cons (e : Fd × List α) :
    scriptCost (e :: script) = Pipe.writeCost e.2 + 1 + scriptCost script :=
  List.sum_cons

/-- The chunk comes off the front of what its stream is to get. -/
theorem written_nextChunk (fd' : Fd) {script rest : List (Fd × List α)}
    (h : nextChunk serial fd script = some (chunk, rest)) :
    written fd' script
        = (if fd = fd' then chunk else []) ++ written fd' rest
      ∧ scriptCost script = Pipe.writeCost chunk + 1 + scriptCost rest := by
  induction script generalizing rest with
  | nil => cases h
  | cons e script ih =>
      obtain ⟨fd₁, chunk₁⟩ := e
      unfold nextChunk at h
      split at h
      · next hfd =>
        cases h
        rw [hfd, written_cons, scriptCost_cons]
        by_cases hfd' : fd = fd'
        · simp [hfd']
        · simp [hfd']
      split at h
      · cases h
      -- another goroutine's chunk stays where it is
      · next hfd _ =>
        obtain ⟨⟨next, rest₁⟩, hnext, heq⟩ := Option.map_eq_some_iff.mp h
        obtain ⟨rfl, rfl⟩ := Prod.mk.inj heq
        obtain ⟨hw, hcost⟩ := ih hnext
        rw [written_cons, written_cons, hw, scriptCost_cons,
          scriptCost_cons, hcost]
        refine ⟨?_, by omega⟩
        by_cases hfd' : fd = fd'
        · have hne : fd₁ ≠ fd' := fun h => hfd (h.trans hfd'.symm)
          rw [if_neg hne, if_neg hne]
        · rw [if_neg hfd', List.nil_append, List.nil_append]

-- =========================================================== invariant

/-- The caller has closed the read end of a stream. -/
def MainStage.hasClosed : MainStage → Fd → Bool
  | .waiting, _ | .received, _ => false
  | .closedStderr, fd => fd = .stderr
  | .closedBoth, _ | .returned, _ => true

/-- Where the call can be, given everything it is to write. -/
structure Sound (script₀ : List (Fd × List α)) (s : State α) : Prop where
  books : ∀ fd,
    (s.pipe fd).content ++ written fd s.script = written fd script₀
  written : s.exec ≠ .streaming →
    s.script = [] ∧ ∀ fd, (s.pipe fd).offered = none
  handed : s.main = .waiting ↔ s.exec = .streaming ∨ s.exec = .returned
  closed : ∀ fd, (s.pipe fd).closed = s.main.hasClosed fd
  ended : ∀ fd, (s.pipe fd).ended = true →
    (s.pipe fd).closed = true ∧ (s.pipe fd).hand = none
  finished : s.main = .returned →
    s.exec = .done ∧ ∀ fd, (s.pipe fd).ended = true

theorem Sound.start (script : List (Fd × List α)) :
    Sound script (start script) where
  books _ := rfl
  written h := absurd rfl h
  handed := ⟨fun _ => .inl rfl, fun _ => rfl⟩
  closed _ := rfl
  ended _ h := nomatch h
  finished h := nomatch h

namespace Sound

variable (h : Sound script₀ s)
include h

/-- Who writes has not closed anything. -/
theorem waiting (hexec : s.exec = .streaming) : s.main = .waiting :=
  h.handed.mpr (.inl hexec)

theorem streaming_of_offered (hoffered : (s.pipe fd).offered ≠ none) :
    s.exec = .streaming :=
  by_contra fun hexec => hoffered ((h.written hexec).2 fd)

/-- No write meets a closed end. -/
theorem no_abort : (s.pipe fd).abort = none := by
  cases habort : (s.pipe fd).abort with
  | none => rfl
  | some p =>
      obtain ⟨hclosed, data, hdata⟩ := Pipe.abort_eq_some habort
      have hoffered : (s.pipe fd).offered ≠ none := by simp [hdata]
      have hexec := h.streaming_of_offered hoffered
      rw [h.closed fd, h.waiting hexec] at hclosed
      cases hclosed

/-- A step of one pipe. -/
theorem setPipe
    (hbooks : p.content ++ Capture.written fd script
      = (s.pipe fd).content ++ Capture.written fd s.script)
    (hothers : ∀ fd', fd' ≠ fd →
      Capture.written fd' script = Capture.written fd' s.script)
    (hwritten : s.exec ≠ .streaming →
      script = s.script ∧ p.offered = (s.pipe fd).offered)
    (hclosed : p.closed = (s.pipe fd).closed)
    (hended : p.ended = true → p.closed = true ∧ p.hand = none)
    (hstays : (s.pipe fd).ended = true → p.ended = true) :
    Sound script₀ { s.setPipe fd p with script := script } where
  books := by
    refine Function.forall_update_iff s.pipe
      (p := fun fd' q => q.content ++ Capture.written fd' script
        = Capture.written fd' script₀) |>.mpr
      ⟨hbooks.trans (h.books fd), fun fd' hfd => ?_⟩
    rw [hothers fd' hfd]
    exact h.books fd'
  written hexec := by
    obtain ⟨hscript, hoffered⟩ := h.written hexec
    obtain ⟨hsame, hp⟩ := hwritten hexec
    refine ⟨hsame.trans hscript, ?_⟩
    exact Function.forall_update_iff s.pipe
      (p := fun _ q => q.offered = none) |>.mpr
      ⟨hp.trans (hoffered fd), fun fd' _ => hoffered fd'⟩
  handed := h.handed
  closed :=
    Function.forall_update_iff s.pipe
      (p := fun fd' q => q.closed = s.main.hasClosed fd') |>.mpr
      ⟨hclosed.trans (h.closed fd), fun fd' _ => h.closed fd'⟩
  ended :=
    Function.forall_update_iff s.pipe
      (p := fun _ q => q.ended = true → q.closed = true ∧ q.hand = none)
      |>.mpr ⟨hended, fun fd' _ => h.ended fd'⟩
  finished hmain := by
    obtain ⟨hexec, hall⟩ := h.finished hmain
    refine ⟨hexec, ?_⟩
    exact Function.forall_update_iff s.pipe (p := fun _ q => q.ended = true)
      |>.mpr ⟨hstays (hall fd), fun fd' _ => hall fd'⟩

end Sound

-- ============================================================= measure

def ExecStage.cost : ExecStage → Nat
  | .streaming => 3 | .returned => 2 | .sent => 1 | .done => 0

def MainStage.cost : MainStage → Nat
  | .waiting => 4 | .received => 3 | .closedStderr => 2 | .closedBoth => 1
  | .returned => 0

/-- The steps that can still be taken at most. -/
def cost (s : State α) : Nat :=
  scriptCost s.script + (s.pipe .stdout).cost + (s.pipe .stderr).cost
    + s.exec.cost + s.main.cost

theorem cost_setPipe
    (hlt : p.cost + scriptCost script
      < (s.pipe fd).cost + scriptCost s.script) :
    cost { s.setPipe fd p with script := script } < cost s := by
  dsimp only [cost, State.setPipe]
  cases fd with
  | stdout =>
      rw [Function.update_self, Function.update_of_ne (by decide)]
      omega
  | stderr =>
      rw [Function.update_self, Function.update_of_ne (by decide)]
      omega

theorem cost_close {main : MainStage} (hlt : main.cost < s.main.cost) :
    cost { s.setPipe fd (s.pipe fd).close with main := main } < cost s := by
  have hpipe : ∀ fd', ((s.setPipe fd (s.pipe fd).close).pipe fd').cost
      = (s.pipe fd').cost :=
    Function.forall_update_iff s.pipe
      (p := fun fd' q => q.cost = (s.pipe fd').cost) |>.mpr
      ⟨rfl, fun _ _ => rfl⟩
  dsimp only [cost]
  rw [hpipe, hpipe]
  dsimp only [State.setPipe]
  omega

-- =============================================================== steps

namespace Sound

variable (h : Sound script₀ s)
include h

theorem write (ha : apply serial (.write fd) s = some s') :
    Sound script₀ s' ∧ cost s' < cost s := by
  obtain ⟨hguard, ha⟩ := Option.ite_none_right_eq_some.mp ha
  obtain ⟨⟨chunk, script⟩, hnext, ha⟩ := Option.bind_eq_some_iff.mp ha
  obtain ⟨p, hp, rfl⟩ := Option.map_eq_some_iff.mp ha
  obtain ⟨hwritten, hcost⟩ := written_nextChunk fd hnext
  rw [if_pos rfl] at hwritten
  obtain ⟨-, hp'⟩ := Pipe.write_eq_some hp
  constructor
  · apply h.setPipe
    · rw [Pipe.content_write hp, List.append_assoc, hwritten]
    · intro fd' hfd
      have hother := (written_nextChunk fd' hnext).1
      rw [if_neg hfd.symm, List.nil_append] at hother
      exact hother.symm
    · exact fun hexec => absurd hguard.1 hexec
    · rw [hp']
    · rw [hp']
      exact h.ended fd
    · rw [hp']
      exact id
  · apply cost_setPipe
    rw [Pipe.cost_write hp, hcost]
    omega

theorem transfer (ha : apply serial (.transfer fd) s = some s') :
    Sound script₀ s' ∧ cost s' < cost s := by
  obtain ⟨p, hp, rfl⟩ := Option.map_eq_some_iff.mp ha
  obtain ⟨data, hdata, -, hended, hp'⟩ := Pipe.transfer_eq_some hp
  have hoffered : (s.pipe fd).offered ≠ none := by simp [hdata]
  have hexec := h.streaming_of_offered hoffered
  constructor
  · apply h.setPipe
    · rw [Pipe.content_transfer hp]
    · exact fun _ _ => rfl
    · exact fun hne => absurd hexec hne
    · rw [hp']
    · rw [hp', hended]
      exact fun h => nomatch h
    · rw [hended]
      exact fun h => nomatch h
  · apply cost_setPipe
    have hlt := Pipe.cost_transfer (by decide) hp
    omega

theorem store (ha : apply serial (.store fd) s = some s') :
    Sound script₀ s' ∧ cost s' < cost s := by
  obtain ⟨p, hp, rfl⟩ := Option.map_eq_some_iff.mp ha
  obtain ⟨data, hdata, hp'⟩ := Pipe.store_eq_some hp
  constructor
  · apply h.setPipe
    · rw [Pipe.content_store hp]
    · exact fun _ _ => rfl
    · exact fun _ => ⟨rfl, by rw [hp']⟩
    · rw [hp']
    · rw [hp']
      exact fun hended => ⟨(h.ended fd hended).1, rfl⟩
    · rw [hp']
      exact id
  · apply cost_setPipe
    have hlt := Pipe.cost_store hp
    omega

theorem quit (ha : apply serial (.quit fd) s = some s') :
    Sound script₀ s' ∧ cost s' < cost s := by
  obtain ⟨p, hp, rfl⟩ := Option.map_eq_some_iff.mp ha
  obtain ⟨hclosed, hhand, -, hp'⟩ := Pipe.quit_eq_some hp
  constructor
  · apply h.setPipe
    · rw [hp']
      rfl
    · exact fun _ _ => rfl
    · exact fun _ => ⟨rfl, by rw [hp']⟩
    · rw [hp']
    · rw [hp']
      exact fun _ => ⟨hclosed, hhand⟩
    · rw [hp']
      exact fun _ => rfl
  · apply cost_setPipe
    have hlt := Pipe.cost_quit hp
    omega

theorem streamReturns (ha : apply serial .streamReturns s = some s') :
    Sound script₀ s' ∧ cost s' < cost s := by
  obtain ⟨hguard, ha⟩ := Option.ite_none_right_eq_some.mp ha
  obtain ⟨hexec, hscript, hidle⟩ := hguard
  obtain rfl := Option.some.inj ha
  have hmain := h.waiting hexec
  have hoffered : ∀ fd, (s.pipe fd).offered = none := by
    intro fd
    unfold State.writing at hidle
    cases fd with
    | stdout => simp_all
    | stderr => simp_all
  refine ⟨{ h with
    written := fun _ => ⟨List.isEmpty_iff.mp hscript, hoffered⟩
    handed := ⟨fun _ => .inr rfl, fun _ => hmain⟩
    finished := fun hret => nomatch hmain.symm.trans hret }, ?_⟩
  unfold cost
  rw [hexec]
  dsimp only [ExecStage.cost]
  omega

theorem handOver (ha : apply serial .handOver s = some s') :
    Sound script₀ s' ∧ cost s' < cost s := by
  obtain ⟨hguard, ha⟩ := Option.ite_none_right_eq_some.mp ha
  obtain ⟨hexec, hmain⟩ := hguard
  obtain rfl := Option.some.inj ha
  have hclosed := h.closed
  rw [hmain] at hclosed
  refine ⟨{ h with
    written := fun _ => h.written (by simp [hexec])
    handed := by simp
    closed := hclosed
    finished := fun hret => nomatch hret }, ?_⟩
  unfold cost
  rw [hexec, hmain]
  dsimp only [ExecStage.cost, MainStage.cost]
  omega

theorem execDone (ha : apply serial .execDone s = some s') :
    Sound script₀ s' ∧ cost s' < cost s := by
  obtain ⟨hexec, ha⟩ := Option.ite_none_right_eq_some.mp ha
  obtain rfl := Option.some.inj ha
  have hhanded := h.handed
  rw [hexec] at hhanded
  refine ⟨{ h with
    written := fun _ => h.written (by simp [hexec])
    handed := by simpa using hhanded
    finished := fun hret => ⟨rfl, (h.finished hret).2⟩ }, ?_⟩
  unfold cost
  rw [hexec]
  dsimp only [ExecStage.cost]
  omega

/-- The caller closes a read end and goes on. -/
theorem close {main : MainStage} (hwaiting : s.main ≠ .waiting)
    (hwaiting' : main ≠ .waiting) (hreturned : main ≠ .returned)
    (hclosed : main.hasClosed fd = true)
    (hothers : ∀ fd', fd' ≠ fd →
      main.hasClosed fd' = s.main.hasClosed fd') :
    Sound script₀
      { s.setPipe fd (s.pipe fd).close with main := main } where
  books :=
    Function.forall_update_iff s.pipe
      (p := fun fd' q => q.content ++ Capture.written fd' s.script
        = Capture.written fd' script₀) |>.mpr
      ⟨h.books fd, fun fd' _ => h.books fd'⟩
  written hexec := by
    obtain ⟨hscript, hoffered⟩ := h.written hexec
    refine ⟨hscript, ?_⟩
    exact Function.forall_update_iff s.pipe
      (p := fun _ q => q.offered = none) |>.mpr
      ⟨hoffered fd, fun fd' _ => hoffered fd'⟩
  handed :=
    ⟨fun hmain => absurd hmain hwaiting',
      fun hexec => absurd (h.handed.mpr hexec) hwaiting⟩
  closed :=
    Function.forall_update_iff s.pipe
      (p := fun fd' q => q.closed = main.hasClosed fd') |>.mpr
      ⟨hclosed.symm,
        fun fd' hfd => (h.closed fd').trans (hothers fd' hfd).symm⟩
  ended :=
    Function.forall_update_iff s.pipe
      (p := fun _ q => q.ended = true → q.closed = true ∧ q.hand = none)
      |>.mpr ⟨fun hended => ⟨rfl, (h.ended fd hended).2⟩,
        fun fd' _ => h.ended fd'⟩
  finished hmain := absurd hmain hreturned

theorem closeStderr (ha : apply serial .closeStderr s = some s') :
    Sound script₀ s' ∧ cost s' < cost s := by
  obtain ⟨hmain, ha⟩ := Option.ite_none_right_eq_some.mp ha
  obtain rfl := Option.some.inj ha
  constructor
  · apply h.close
    · simp [hmain]
    · simp
    · simp
    · rfl
    · intro fd' hfd
      simp [hmain, MainStage.hasClosed, hfd]
  · apply cost_close
    rw [hmain]
    decide

theorem closeStdout (ha : apply serial .closeStdout s = some s') :
    Sound script₀ s' ∧ cost s' < cost s := by
  obtain ⟨hmain, ha⟩ := Option.ite_none_right_eq_some.mp ha
  obtain rfl := Option.some.inj ha
  constructor
  · apply h.close
    · simp [hmain]
    · simp
    · simp
    · rfl
    · intro fd' hfd
      cases fd' with
      | stdout => exact absurd rfl hfd
      | stderr => rw [hmain]; rfl
  · apply cost_close
    rw [hmain]
    decide

theorem finish (ha : apply serial .finish s = some s') :
    Sound script₀ s' ∧ cost s' < cost s := by
  obtain ⟨hguard, ha⟩ := Option.ite_none_right_eq_some.mp ha
  obtain ⟨hmain, hexec, hstdout, hstderr⟩ := hguard
  obtain rfl := Option.some.inj ha
  have hclosed := h.closed
  rw [hmain] at hclosed
  refine ⟨{ h with
    handed := by simp [hexec]
    closed := hclosed
    finished := fun _ => ⟨hexec, fun fd => by cases fd <;> assumption⟩ }, ?_⟩
  unfold cost
  rw [hmain]
  dsimp only [MainStage.cost]
  omega

/-- Every action keeps the books and leaves less to do. -/
theorem step {a : Action} (ha : apply serial a s = some s') :
    Sound script₀ s' ∧ cost s' < cost s := by
  cases a with
  | write fd => exact h.write ha
  | transfer fd => exact h.transfer ha
  | store fd => exact h.store ha
  | abort fd =>
      obtain ⟨p, hp, -⟩ := Option.map_eq_some_iff.mp ha
      exact nomatch h.no_abort.symm.trans hp
  | quit fd => exact h.quit ha
  | streamReturns => exact h.streamReturns ha
  | handOver => exact h.handOver ha
  | execDone => exact h.execDone ha
  | closeStderr => exact h.closeStderr ha
  | closeStdout => exact h.closeStdout ha
  | finish => exact h.finish ha

end Sound

-- ============================================================ progress

/-- A reader whose end is closed stores what it has and ends. -/
theorem reader_progress (hclosed : (s.pipe fd).closed = true)
    (hended : (s.pipe fd).ended = false) :
    ∃ a s', apply serial a s = some s' := by
  obtain ⟨p, hp⟩ | ⟨p, hp⟩ := Pipe.quit_or_store hclosed hended
  · exact ⟨.quit fd, _, Option.map_eq_some_iff.mpr ⟨p, hp, rfl⟩⟩
  · exact ⟨.store fd, _, Option.map_eq_some_iff.mpr ⟨p, hp, rfl⟩⟩

namespace Sound

variable (h : Sound script₀ s)
include h

/-- The executor can go on as long as it streams. -/
theorem streaming_progress (hexec : s.exec = .streaming) :
    ∃ a s', apply serial a s = some s' := by
  by_cases hidle : ∀ fd, (s.pipe fd).offered = none
  · have hwriting : s.writing = false := by
      unfold State.writing
      rw [hidle, hidle]
      rfl
    cases hscript : s.script with
    | nil =>
        refine ⟨.streamReturns, _, if_pos ⟨hexec, ?_, ?_⟩⟩
        · rw [hscript]; rfl
        · rw [hwriting]; decide
    | cons e script =>
        refine ⟨.write e.1, { s.setPipe e.1 { s.pipe e.1 with
          offered := some e.2 } with script := script }, ?_⟩
        refine Option.ite_none_right_eq_some.mpr
          ⟨⟨hexec, by simp [hwriting]⟩, ?_⟩
        simp [hscript, nextChunk, Pipe.write, hidle]
  · obtain ⟨fd, hfd⟩ := not_forall.mp hidle
    have hended : (s.pipe fd).ended = false := by
      refine Bool.eq_false_iff.mpr fun hended => ?_
      have hclosed := (h.ended fd hended).1
      rw [h.closed, h.waiting hexec] at hclosed
      cases hclosed
    obtain ⟨p, hp⟩ | ⟨p, hp⟩ := Pipe.transfer_or_store hfd hended bufSize
    · exact ⟨.transfer fd, _, Option.map_eq_some_iff.mpr ⟨p, hp, rfl⟩⟩
    · exact ⟨.store fd, _, Option.map_eq_some_iff.mpr ⟨p, hp, rfl⟩⟩

/-- Somebody can move until the call returns. -/
theorem progress (hmain : s.main ≠ .returned) :
    ∃ a s', apply serial a s = some s' := by
  cases hm : s.main with
  | waiting =>
      rcases h.handed.mp hm with hexec | hexec
      · exact h.streaming_progress hexec
      · exact ⟨.handOver, _, if_pos ⟨hexec, hm⟩⟩
  | received => exact ⟨.closeStderr, _, if_pos hm⟩
  | closedStderr => exact ⟨.closeStdout, _, if_pos hm⟩
  | closedBoth =>
      have hclosed : ∀ fd, (s.pipe fd).closed = true := by
        intro fd
        rw [h.closed, hm]
        rfl
      have hhanded := mt h.handed.mpr (by simp [hm])
      cases hexec : s.exec with
      | streaming => exact absurd (.inl hexec) hhanded
      | returned => exact absurd (.inr hexec) hhanded
      | sent => exact ⟨.execDone, _, if_pos hexec⟩
      | done =>
          by_cases hended : ∀ fd, (s.pipe fd).ended = true
          · exact ⟨.finish, _, if_pos ⟨hm, hexec, hended _, hended _⟩⟩
          · obtain ⟨fd, hfd⟩ := not_forall.mp hended
            exact reader_progress (hclosed fd) (Bool.eq_false_iff.mpr hfd)
  | returned => exact absurd hm hmain

/-- Everything is stored when the call returns. -/
theorem stored (hmain : s.main = .returned) (fd : Fd) :
    (s.pipe fd).stored = Capture.written fd script₀ := by
  obtain ⟨hexec, hended⟩ := h.finished hmain
  obtain ⟨hscript, hoffered⟩ := h.written (by simp [hexec])
  have hhand := (h.ended fd (hended fd)).2
  have hbooks := h.books fd
  rwa [hscript, written_nil, List.append_nil,
    Pipe.content_of_idle hhand (hoffered fd)] at hbooks

end Sound

-- ================================================================ runs

theorem runs_sound {as : List Action}
    (h : runs (apply serial) as (start script) = some s) : Sound script s :=
  runs_keep (I := Sound script) (fun _ _ _ ha hs => (hs.step ha).1) h
    (Sound.start script)

theorem result_of_returned (options : Options α ε) {as : List Action}
    (h : runs (apply serial) as (start script) = some s)
    (hmain : s.main = .returned) :
    result options s = some (options.output (written .stdout script),
      options.output (written .stderr script), options.err) := by
  unfold result
  rw [if_pos hmain, (runs_sound h).stored hmain,
    (runs_sound h).stored hmain]

/-- `streamCommand` is what such a call computes, with the bytes of each
stream read as text. -/
theorem result_streamCommand {a : ExecAnswer}
    {options : Options α (Option String)} (decode : List α → String)
    (hpreserve : options.preserveWhitespace = true)
    (hexecutor : a.executor = none)
    (hstdout : decode (written .stdout script) = a.stdout)
    (hstderr : decode (written .stderr script) = a.stderr)
    (herr : options.err = a.stream.err) {as : List Action}
    (h : runs (apply serial) as (start script) = some s)
    (hmain : s.main = .returned) :
    (result options s).map (fun r => ⟨decode r.1, decode r.2.1, r.2.2⟩)
      = some (streamCommand a) := by
  have houtput : ∀ stored, options.output stored = stored :=
    fun stored => if_pos hpreserve
  rw [result_of_returned options h hmain, houtput, houtput,
    Option.map_some, hstdout, hstderr, herr]
  unfold streamCommand
  rw [hexecutor]

/-- Whatever the chunks and whoever moves when: the call returns, after a
bounded number of steps, and with all that was written to each stream. -/
theorem output_captured (options : Options α ε)
    (script : List (Fd × List α)) (as : List Action) (s : State α)
    (h : runs (apply options.serial) as (start script) = some s) :
    (∀ captured, result options s = some captured →
      captured = (options.output (written .stdout script),
        options.output (written .stderr script), options.err))
    ∧ (result options s = none →
        ∃ a s', apply options.serial a s = some s')
    ∧ as.length ≤ cost (start script) := by
  refine ⟨fun captured hcaptured => ?_, fun hnone => ?_, ?_⟩
  · by_cases hmain : s.main = .returned
    · rw [result_of_returned options h hmain] at hcaptured
      exact (Option.some.inj hcaptured).symm
    · unfold result at hcaptured
      rw [if_neg hmain] at hcaptured
      cases hcaptured
  · refine (runs_sound h).progress fun hmain => ?_
    rw [result_of_returned options h hmain] at hnone
    cases hnone
  · exact runs_bounded (I := Sound script) (fun _ _ _ ha hs => hs.step ha) h
      (Sound.start script)

/-- A sequence number in two chunks, the second of which the reader holds
when its end is closed. -/
theorem output_captured_sequence :
    let options : Options Char (Option String) :=
      ⟨true, true, trimSpace, none⟩
    let script := [(Fd.stdout, ['1']), (.stderr, ['?']), (.stdout, ['7'])]
    let as : List Action :=
      [.write .stdout, .transfer .stdout, .write .stderr, .store .stdout,
        .transfer .stderr, .write .stdout, .transfer .stdout,
        .streamReturns, .handOver, .closeStderr, .closeStdout, .execDone,
        .store .stderr, .store .stdout, .quit .stdout, .quit .stderr,
        .finish]
    ∃ s, runs (apply true) as (start script) = some s
      ∧ ∃ captured, result options s = some captured
        ∧ captured = (['1', '7'], ['?'], none) := by
  intro options script as
  obtain ⟨s, hs⟩ : ∃ s, runs (apply true) as (start script) = some s :=
    ⟨_, rfl⟩
  have hmain : s.main = .returned := by
    cases hs
    rfl
  have hresult := result_of_returned options hs hmain
  exact ⟨s, hs, _, hresult,
    (output_captured options script as s hs).1 _ hresult⟩

end RssOperator.Capture
