/-
The watchdog of the controller.

# What it watches

The informer calls one handler at a time. `syncEtcdClus` and
`onDeleteEtcdClus` start a timer before they handle the event and stop it
when they have handled it; a timer that goes off panics, and the process is
gone. The only place where a handler waits is `send`, so a timer that is
left running belongs to a wait there.

# Time

The clock is in seconds and moves by itself, between the steps of the
system: what the controller and the goroutines do takes no time, and
waiting takes as much as it takes. Whether time may pass while a `send` has
room is left to the run; a run in which it does not is `Prompt`.
-/
import RssOperator.Lib.Trail
import RssOperator.System

namespace RssOperator

-- ============================================================= the timer

/-- `panicTimer`: the timer that `t` points to is given by when it goes
off. -/
structure PanicTimer where
  d : Nat
  msg : String
  t : Option Nat
  /-- Timers that were started and that `t` points to no more. Nobody can
  stop these. -/
  lost : List Nat

def newPanicTimer (d : Nat) (msg : String) : PanicTimer := ⟨d, msg, none, []⟩

namespace PanicTimer

def start (now : Nat) (pt : PanicTimer) : PanicTimer :=
  { pt with t := some (now + pt.d), lost := pt.t.toList ++ pt.lost }

def stop (pt : PanicTimer) : PanicTimer := { pt with t := none }

/-- Some timer has gone off. -/
def rings (now : Nat) (pt : PanicTimer) : Bool :=
  (pt.t.toList ++ pt.lost).any fun t => decide (t ≤ now)

end PanicTimer

/-- `time.Minute`, in seconds. -/
def panicLimit : Nat := 60

def panicText : String :=
  "unexpected long blocking (> 1 Minute) when handling cluster event"

-- ========================================================== under watch

/-- The system with a clock and the timer. -/
structure Watched where
  sys : System
  now : Nat
  pt : PanicTimer
  /-- What the timer has panicked with. -/
  said : Option String

def Watched.start : Watched :=
  ⟨.start, 0, newPanicTimer panicLimit panicText, none⟩

inductive WatchedStep where
  | act (i : SystemStep)
  /-- Time passes. -/
  | wait (d : Nat)

def WatchedStep.takes : WatchedStep → Nat
  | act _ => 0
  | wait d => d

/-- The time that a part of a run takes. -/
def elapsed (steps : List WatchedStep) : Nat :=
  (steps.map WatchedStep.takes).sum

/-- The step begins with a call of a handler. The informer makes none while
the last one has not returned. -/
def System.begins (s : System) : SystemStep → Bool
  | .notify _ => s.sending.isNone
  | .send | .giveUp | .turn .. => false

/-- A `send` that the controller waits in has no room. -/
def System.isHeldUp (s : System) : Bool :=
  s.sending.all fun x => (s.clusters x.1).all Goroutine.full

namespace Watched

/-- A step of the system. A handler that began with it or was under way has
returned if the controller does not wait behind it. -/
def act (k : Surroundings) (i : SystemStep) (w : Watched) : Watched :=
  let sys := w.sys.step k i
  let pt := if w.sys.begins i then w.pt.start w.now else w.pt
  let returned := (w.sys.begins i || w.sys.sending.isSome)
    && sys.sending.isNone
  { w with sys := sys, pt := if returned then pt.stop else pt }

def wait (d : Nat) (w : Watched) : Watched :=
  if w.pt.rings (w.now + d) then
    { w with
      sys := { w.sys with crashed := true }
      now := w.now + d
      said := some w.pt.msg }
  else { w with now := w.now + d }

def step (k : Surroundings) (w : Watched) (i : WatchedStep) : Watched :=
  if w.sys.crashed then w
  else
    match i with
    | .act i => w.act k i
    | .wait d => w.wait d

def run (k : Surroundings) (w : Watched) (steps : List WatchedStep) :
    Watched :=
  steps.foldl (Watched.step k) w

/-- Time does not pass while a `send` has room. -/
def Prompt (k : Surroundings) (steps : List WatchedStep) : Prop :=
  Along (Watched.step k)
    (fun w i => 0 < i.takes → w.sys.isHeldUp = true) .start steps

end Watched

end RssOperator
