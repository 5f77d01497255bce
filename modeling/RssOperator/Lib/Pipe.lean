/-
Synchronous pipes between concurrent processes, as in Go's `io.Pipe`.

# Schedules

What several processes do is a list of actions, each one step of one of
them; which lists are possible is up to `apply`, which says of an action
whether it can be taken and what it leaves. A statement about every list is
one about every interleaving. An invariant is proved once for each action
(`runs_keep`), and a measure that every action lowers bounds the length of
a run (`runs_bounded`).

# A pipe

A write hands its data over to reads and returns when all of it is taken. A
read takes at most `size` symbols of the write that is going on. The reader
here puts what it has taken into a buffer before it reads again, and stops
reading when its end is closed.

Nothing is lost on the way: what was stored, what the reader has in its
hand and what the writer still offers is at all times what was written
(`content`). Only a write to a closed end drops something.
-/
import Mathlib.Tactic.Basic

-- =========================================================== schedules

section Schedules

variable {σ α : Type} {apply : α → σ → Option σ}

/-- The state after some actions, if each could be taken in its turn. -/
def runs (apply : α → σ → Option σ) : List α → σ → Option σ
  | [], s => some s
  | a :: as, s => (apply a s).bind (runs apply as)

theorem runs_cons {a : α} {as : List α} {s s' : σ}
    (h : runs apply (a :: as) s = some s') :
    ∃ s₁, apply a s = some s₁ ∧ runs apply as s₁ = some s' :=
  Option.bind_eq_some_iff.mp h

/-- What every action keeps, every run keeps. -/
theorem runs_keep {I : σ → Prop}
    (hstep : ∀ a s s', apply a s = some s' → I s → I s') {as : List α} :
    ∀ {s s' : σ}, runs apply as s = some s' → I s → I s' := by
  induction as with
  | nil =>
      intro s s' h hs
      rw [← Option.some.inj h]
      exact hs
  | cons a as ih =>
      intro s s' h hs
      obtain ⟨s₁, ha, has⟩ := runs_cons h
      exact ih has (hstep a s s₁ ha hs)

/-- Runs end if every action lowers a measure. -/
theorem runs_bounded {I : σ → Prop} {μ : σ → Nat}
    (hstep : ∀ a s s', apply a s = some s' → I s → I s' ∧ μ s' < μ s)
    {as : List α} :
    ∀ {s s' : σ}, runs apply as s = some s' → I s → as.length ≤ μ s := by
  induction as with
  | nil => intro s s' _ _; exact Nat.zero_le _
  | cons a as ih =>
      intro s s' h hs
      obtain ⟨s₁, ha, has⟩ := runs_cons h
      obtain ⟨hs₁, hlt⟩ := hstep a s s₁ ha hs
      have hle := ih has hs₁
      rw [List.length_cons]
      omega

end Schedules

-- =============================================================== pipes

/-- A pipe with its writer and its reader. -/
structure Pipe (α : Type) where
  /-- What the write that is going on has not handed over yet. -/
  offered : Option (List α) := none
  /-- What the reader has read and not stored yet. -/
  hand : Option (List α) := none
  stored : List α := []
  /-- The read end is closed. -/
  closed : Bool := false
  /-- The reader is gone. -/
  ended : Bool := false

namespace Pipe

variable {α : Type} {p p' : Pipe α} {chunk : List α} {size : Nat}

/-- What is left of a write; a write of nothing is done. -/
def remaining : List α → Option (List α)
  | [] => none
  | data => some data

/-- The writer begins to write, unless it still does. -/
def write (chunk : List α) (p : Pipe α) : Option (Pipe α) :=
  match p.offered with
  | none => some { p with offered := some chunk }
  | some _ => none

/-- A write meets a read. Also an empty one does. -/
def transfer (size : Nat) (p : Pipe α) : Option (Pipe α) :=
  match p.offered, p.hand, p.ended with
  | some data, none, false =>
      some { p with
        offered := remaining (data.drop size)
        hand := some (data.take size) }
  | _, _, _ => none

/-- The reader stores what it has read. -/
def store (p : Pipe α) : Option (Pipe α) :=
  match p.hand with
  | some data => some { p with hand := none, stored := p.stored ++ data }
  | none => none

/-- The reader finds its end closed. -/
def quit (p : Pipe α) : Option (Pipe α) :=
  match p.closed, p.hand, p.ended with
  | true, none, false => some { p with ended := true }
  | _, _, _ => none

/-- A write to a closed end fails. -/
def abort (p : Pipe α) : Option (Pipe α) :=
  match p.closed, p.offered with
  | true, some _ => some { p with offered := none }
  | _, _ => none

def close (p : Pipe α) : Pipe α := { p with closed := true }

-- ============================================================ inversion

theorem write_eq_some (h : p.write chunk = some p') :
    p.offered = none ∧ p' = { p with offered := some chunk } := by
  unfold write at h
  split at h
  · next hnone => exact ⟨hnone, (Option.some.inj h).symm⟩
  · cases h

theorem transfer_eq_some (h : p.transfer size = some p') :
    ∃ data, p.offered = some data ∧ p.hand = none ∧ p.ended = false
      ∧ p' = { p with
          offered := remaining (data.drop size)
          hand := some (data.take size) } := by
  unfold transfer at h
  split at h
  · next data hoffered hhand hended =>
    exact ⟨data, hoffered, hhand, hended, (Option.some.inj h).symm⟩
  · cases h

theorem store_eq_some (h : p.store = some p') :
    ∃ data, p.hand = some data
      ∧ p' = { p with hand := none, stored := p.stored ++ data } := by
  unfold store at h
  split at h
  · next data hhand => exact ⟨data, hhand, (Option.some.inj h).symm⟩
  · cases h

theorem quit_eq_some (h : p.quit = some p') :
    p.closed = true ∧ p.hand = none ∧ p.ended = false
      ∧ p' = { p with ended := true } := by
  unfold quit at h
  split at h
  · next hclosed hhand hended =>
    exact ⟨hclosed, hhand, hended, (Option.some.inj h).symm⟩
  · cases h

theorem abort_eq_some (h : p.abort = some p') :
    p.closed = true ∧ ∃ data, p.offered = some data := by
  unfold abort at h
  split at h
  · next data hclosed hoffered => exact ⟨hclosed, data, hoffered⟩
  · cases h

-- ============================================================= content

/-- Everything that has been written to the pipe. -/
def content (p : Pipe α) : List α :=
  p.stored ++ p.hand.getD [] ++ p.offered.getD []

theorem getD_remaining (data : List α) : (remaining data).getD [] = data := by
  cases data with
  | nil => rfl
  | cons a data => rfl

theorem content_write (h : p.write chunk = some p') :
    p'.content = p.content ++ chunk := by
  obtain ⟨hnone, rfl⟩ := write_eq_some h
  unfold content
  rw [hnone, Option.getD_none, List.append_nil]
  rfl

theorem content_transfer (h : p.transfer size = some p') :
    p'.content = p.content := by
  obtain ⟨data, hoffered, hhand, -, rfl⟩ := transfer_eq_some h
  unfold content
  rw [hoffered, hhand]
  dsimp only
  rw [getD_remaining, Option.getD_some, Option.getD_some, Option.getD_none,
    List.append_nil, List.append_assoc, List.take_append_drop]

theorem content_store (h : p.store = some p') :
    p'.content = p.content := by
  obtain ⟨data, hhand, rfl⟩ := store_eq_some h
  unfold content
  rw [hhand]
  dsimp only
  rw [Option.getD_none, Option.getD_some, List.append_nil]

/-- All of it is stored once nobody has any of it any more. -/
theorem content_of_idle (hhand : p.hand = none) (hoffered : p.offered = none) :
    p.content = p.stored := by
  unfold content
  rw [hhand, hoffered, Option.getD_none, List.append_nil, List.append_nil]

-- ============================================================ progress

/-- A write that is going on goes on, or the reader stores first. -/
theorem transfer_or_store (hoffered : p.offered ≠ none)
    (hended : p.ended = false) (size : Nat) :
    (∃ p', p.transfer size = some p') ∨ ∃ p', p.store = some p' := by
  obtain ⟨data, hdata⟩ := Option.ne_none_iff_exists'.mp hoffered
  cases hhand : p.hand with
  | none =>
      left
      unfold transfer
      rw [hdata, hhand, hended]
      exact ⟨_, rfl⟩
  | some held =>
      right
      unfold store
      rw [hhand]
      exact ⟨_, rfl⟩

/-- A reader that finds its end closed ends, or stores first. -/
theorem quit_or_store (hclosed : p.closed = true) (hended : p.ended = false) :
    (∃ p', p.quit = some p') ∨ ∃ p', p.store = some p' := by
  cases hhand : p.hand with
  | none =>
      left
      unfold quit
      rw [hclosed, hhand, hended]
      exact ⟨_, rfl⟩
  | some held =>
      right
      unfold store
      rw [hhand]
      exact ⟨_, rfl⟩

-- ============================================================= measure

/-- The steps a write of some data can take at most. -/
def writeCost (data : List α) : Nat := 2 * (data.length + 1)

/-- The steps a pipe can still take at most without another write. -/
def cost (p : Pipe α) : Nat :=
  p.offered.elim 0 writeCost + p.hand.elim 0 (fun _ => 1)
    + if p.ended then 0 else 1

theorem cost_write (h : p.write chunk = some p') :
    p'.cost = p.cost + writeCost chunk := by
  obtain ⟨hnone, rfl⟩ := write_eq_some h
  unfold cost
  rw [hnone]
  dsimp only [Option.elim_some, Option.elim_none]
  omega

/-- A hand-over shortens the write or finishes it. -/
theorem cost_transfer (hsize : 0 < size) (h : p.transfer size = some p') :
    p'.cost < p.cost := by
  obtain ⟨data, hoffered, hhand, -, rfl⟩ := transfer_eq_some h
  unfold cost
  rw [hoffered, hhand]
  dsimp only [Option.elim_some, Option.elim_none]
  cases hrest : data.drop size with
  | nil =>
      unfold remaining writeCost
      dsimp only [Option.elim_none]
      omega
  | cons a rest =>
      have hlen := congrArg List.length hrest
      rw [List.length_drop, List.length_cons] at hlen
      unfold remaining writeCost
      dsimp only [Option.elim_some]
      rw [List.length_cons]
      omega

theorem cost_store (h : p.store = some p') : p'.cost < p.cost := by
  obtain ⟨data, hhand, rfl⟩ := store_eq_some h
  unfold cost
  rw [hhand]
  dsimp only [Option.elim_some, Option.elim_none]
  omega

theorem cost_quit (h : p.quit = some p') : p'.cost < p.cost := by
  obtain ⟨-, -, hended, rfl⟩ := quit_eq_some h
  unfold cost
  rw [hended]
  dsimp only
  simp

end Pipe
