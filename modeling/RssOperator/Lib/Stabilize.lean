/-
Rounds that lead to a set of states and keep to it.

# Rounds

`R` says what one round may do. A system stabilizes if every run that
starts in `P` is in `Q` from the `n`-th round on, whatever the rounds do in
between. `P` is what may be left behind by a fault; it need not be kept.

# The stair

The rule is a stair of sets: each round leads one step down, and the last
set is not left (`stabilizes_of_stair`). What every round keeps is the stair
of one step (`stabilizes_of_kept`).
-/
import Mathlib.Tactic.Basic

variable {σ : Type}

/-- `ρ` is a run of `t` rounds. -/
def Rounds (R : σ → σ → Prop) (t : Nat) (ρ : Nat → σ) : Prop :=
  ∀ i, i < t → R (ρ i) (ρ (i + 1))

/-- From `P`, every run is in `Q` from the `n`-th round on. -/
def Stabilizes (R : σ → σ → Prop) (n : Nat) (P Q : σ → Prop) : Prop :=
  ∀ t ρ, Rounds R t ρ → P (ρ 0) → ∀ i, n ≤ i → i ≤ t → Q (ρ i)

variable {R : σ → σ → Prop} {n : Nat} {P Q : σ → Prop}

/-- What one round keeps holds from the start on. -/
theorem stabilizes_of_kept (hstay : ∀ s s', P s → R s s' → P s') :
    Stabilizes R 0 P P := by
  intro t ρ hρ hs i _ hi
  induction i with
  | zero => exact hs
  | succ i ih => exact hstay _ _ (ih (Nat.zero_le i) (by omega)) (hρ i hi)

/-- Every round leads down one step of a stair, and the last step is not
left. -/
theorem stabilizes_of_stair (S : Nat → σ → Prop)
    (hdown : ∀ i, i < n → ∀ s s', S i s → R s s' → S (i + 1) s')
    (hstay : ∀ s s', S n s → R s s' → S n s') :
    Stabilizes R n (S 0) (S n) := by
  intro t ρ hρ hs
  have hstair : ∀ i, i ≤ n → i ≤ t → S i (ρ i) := by
    intro i
    induction i with
    | zero => intro _ _; exact hs
    | succ i ih =>
        intro hi ht
        exact hdown i hi _ _ (ih (by omega) (by omega)) (hρ i ht)
  intro i hi
  induction hi with
  | refl => exact hstair n (Nat.le_refl n)
  | step _ ih => exact fun ht => hstay _ _ (ih (by omega)) (hρ _ ht)
