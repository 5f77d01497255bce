/-
The goroutines of `ExecWithOptions` and `GetOutput`
(`pkg/util/k8sutil/exec_util.go`), from the creation of the two pipes to the
return.

# Who takes part

The executor runs in a goroutine of its own, which hands its error over on a
channel and is then done with the wait group. It writes chunks to the two
pipes, either one write at a time or from one goroutine for each stream.
Each `GetOutput` reads its pipe into a buffer. The caller takes the error
from the channel, closes the read end of stderr and then that of stdout,
waits for the other three and returns.

# What is assumed

`io.Pipe` is the synchronous pipe of `Lib.Pipe`, with reads of at most 1024
bytes. `Stream` returns only after its writes have returned
(`Action.streamReturns`). The bytes and the error are of any type.
-/
import RssOperator.Lib.Pipe
import Mathlib.Logic.Function.Basic

namespace RssOperator

/-- The two streams of a command. -/
inductive Fd where
  | stdout | stderr
deriving DecidableEq, Repr

namespace Capture

/-- What a call is made with, and how `Stream` will end. -/
structure Options (α ε : Type) where
  /-- The executor writes one chunk after the other, to whichever stream. -/
  serial : Bool
  preserveWhitespace : Bool
  /-- `strings.TrimSpace` -/
  trimSpace : List α → List α
  err : ε

/-- What is returned for a buffer. -/
def Options.output {α ε : Type} (options : Options α ε) (stored : List α) :
    List α :=
  if options.preserveWhitespace then stored else options.trimSpace stored

/-- How far the goroutine of the executor is. -/
inductive ExecStage where
  | streaming
  /-- `Stream` has returned, the error is to be sent. -/
  | returned
  | sent
  /-- `wg.Done` has been called. -/
  | done
deriving DecidableEq, Repr

/-- How far the caller is. -/
inductive MainStage where
  /-- It waits for the error. -/
  | waiting
  | received
  | closedStderr
  /-- It waits for the others. -/
  | closedBoth
  | returned
deriving DecidableEq, Repr

/-- The chunks that are still to be written and where everybody is. -/
structure State (α : Type) where
  script : List (Fd × List α)
  pipe : Fd → Pipe α
  exec : ExecStage
  main : MainStage

variable {α ε : Type}

/-- The goroutines have been started. -/
def start (script : List (Fd × List α)) : State α :=
  ⟨script, fun _ => {}, .streaming, .waiting⟩

/-- The size of the buffer in `GetOutput`. -/
def bufSize : Nat := 1024

inductive Action where
  /-- The executor begins to write its next chunk to a stream. -/
  | write (fd : Fd)
  /-- The write meets the `Read` of `GetOutput`. -/
  | transfer (fd : Fd)
  /-- `GetOutput` writes to its buffer. -/
  | store (fd : Fd)
  /-- The write fails because the read end is closed. -/
  | abort (fd : Fd)
  /-- The `Read` fails because of it, and `GetOutput` is done. -/
  | quit (fd : Fd)
  | streamReturns
  /-- The error goes over the channel. -/
  | handOver
  | execDone
  | closeStderr
  | closeStdout
  /-- `wg.Wait` returns, and so does the call. -/
  | finish
deriving DecidableEq, Repr

/-- The next chunk for a stream, and the chunks without it. -/
def nextChunk (serial : Bool) (fd : Fd) :
    List (Fd × List α) → Option (List α × List (Fd × List α))
  | [] => none
  | (fd', chunk) :: script =>
      if fd' = fd then some (chunk, script)
      else if serial then none
      else (nextChunk serial fd script).map fun (next, rest) =>
        (next, (fd', chunk) :: rest)

/-- A write is going on. -/
def State.writing (s : State α) : Bool :=
  (s.pipe .stdout).offered.isSome || (s.pipe .stderr).offered.isSome

def State.setPipe (fd : Fd) (p : Pipe α) (s : State α) : State α :=
  { s with pipe := Function.update s.pipe fd p }

/-- What an action leaves, if it can be taken. -/
def apply (serial : Bool) : Action → State α → Option (State α)
  | .write fd, s =>
      if s.exec = .streaming ∧ ¬ (serial ∧ s.writing) then
        (nextChunk serial fd s.script).bind fun (chunk, script) =>
          ((s.pipe fd).write chunk).map fun p =>
            { s.setPipe fd p with script := script }
      else none
  | .transfer fd, s =>
      ((s.pipe fd).transfer bufSize).map fun p => s.setPipe fd p
  | .store fd, s => (s.pipe fd).store.map fun p => s.setPipe fd p
  | .abort fd, s =>
      -- the copy ends with its first failed write
      (s.pipe fd).abort.map fun p => { s.setPipe fd p with
        script := s.script.filter fun e => e.1 ≠ fd }
  | .quit fd, s => (s.pipe fd).quit.map fun p => s.setPipe fd p
  | .streamReturns, s =>
      if s.exec = .streaming ∧ s.script.isEmpty ∧ ¬ s.writing then
        some { s with exec := .returned }
      else none
  | .handOver, s =>
      if s.exec = .returned ∧ s.main = .waiting then
        some { s with exec := .sent, main := .received }
      else none
  | .execDone, s =>
      if s.exec = .sent then some { s with exec := .done } else none
  | .closeStderr, s =>
      if s.main = .received then
        some { s.setPipe .stderr (s.pipe .stderr).close with
          main := .closedStderr }
      else none
  | .closeStdout, s =>
      if s.main = .closedStderr then
        some { s.setPipe .stdout (s.pipe .stdout).close with
          main := .closedBoth }
      else none
  | .finish, s =>
      if s.main = .closedBoth ∧ s.exec = .done ∧ (s.pipe .stdout).ended
          ∧ (s.pipe .stderr).ended then
        some { s with main := .returned }
      else none

/-- What the call returns, once it does. -/
def result (options : Options α ε) (s : State α) :
    Option (List α × List α × ε) :=
  if s.main = .returned then
    some (options.output (s.pipe .stdout).stored,
      options.output (s.pipe .stderr).stored, options.err)
  else none

end Capture

end RssOperator
