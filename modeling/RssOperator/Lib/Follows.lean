/-
A state that is not the program's, and changes with what the program has
put on record.

# The setting

A program acts on something it does not hold: a machine it sends commands
to, a store behind a network. All it has is its record of what it did and
was answered. `Follows` says that the hidden state can have gone from `r`
to `r'` while the record was written; `step` says what an entry of the
record may have done to it. Between two entries, and before the first and
behind the last, the state may change by itself, within a `Drift`.

# Rules

A record is read in parts (`follows_append`), and an entry is found in one
of them (`split_of_append`). What every entry and every drift keeps, the
whole record keeps: a relation (`Follows.leads`), or a property that holds
at the start (`Follows.keeps`).
-/
import Mathlib.Tactic.Basic

variable {ε ρ κ : Type}

-- =============================================================== drift

/-- What a state may do by itself. -/
structure Drift (ρ : Type) where
  may : ρ → ρ → Prop
  refl : ∀ r, may r r
  trans : ∀ {r₁ r₂ r₃}, may r₁ r₂ → may r₂ r₃ → may r₁ r₃

namespace Drift

/-- A state that nobody but the program changes. -/
def none : Drift ρ := ⟨Eq, fun _ => rfl, Eq.trans⟩

/-- A state that may lose `x` by itself, and never comes to it. -/
def losing (x : ρ) : Drift ρ :=
  ⟨fun r r' => r' = x → r = x, fun _ h => h, fun h h' hx => h (h' hx)⟩

/-- Many states, each of which drifts. -/
def pointwise (D : Drift ρ) : Drift (κ → ρ) :=
  ⟨fun r r' => ∀ k, D.may (r k) (r' k), fun _ _ => D.refl _,
    fun h h' k => D.trans (h k) (h' k)⟩

end Drift

-- ============================================================= follows

/-- The state goes from `r` to `r'` along a record, newest entry
first. -/
inductive Follows (step : ε → ρ → ρ → Prop) (D : Drift ρ) :
    List ε → ρ → ρ → Prop
  | nil {r r' : ρ} : D.may r r' → Follows step D [] r r'
  | cons {e : ε} {es : List ε} {r r₁ r₂ r' : ρ} :
      Follows step D es r r₁ → step e r₁ r₂ → D.may r₂ r' →
      Follows step D (e :: es) r r'

section Rules

variable {step : ε → ρ → ρ → Prop} {D : Drift ρ} {es es' : List ε}
  {e : ε} {r r' r'' : ρ}

theorem follows_nil : Follows step D [] r r' ↔ D.may r r' :=
  ⟨fun | .nil h => h, .nil⟩

theorem follows_one :
    Follows step D [e] r r'
      ↔ ∃ r₁ r₂, D.may r r₁ ∧ step e r₁ r₂ ∧ D.may r₂ r' := by
  constructor
  · rintro (_ | ⟨hnil, hstep, hdrift⟩)
    exact ⟨_, _, follows_nil.mp hnil, hstep, hdrift⟩
  · rintro ⟨r₁, r₂, hbefore, hstep, hafter⟩
    exact .cons (.nil hbefore) hstep hafter

theorem Follows.drift (h : Follows step D es r r') (h' : D.may r' r'') :
    Follows step D es r r'' := by
  cases h with
  | nil hdrift => exact .nil (D.trans hdrift h')
  | cons hes hstep hdrift => exact .cons hes hstep (D.trans hdrift h')

theorem follows_append :
    Follows step D (es ++ es') r r''
      ↔ ∃ r', Follows step D es' r r' ∧ Follows step D es r' r'' := by
  induction es generalizing r'' with
  | nil =>
      constructor
      · intro h
        exact ⟨r'', h, .nil (D.refl _)⟩
      · rintro ⟨r', h, hnil⟩
        exact h.drift (follows_nil.mp hnil)
  | cons e es ih =>
      constructor
      · rintro (_ | ⟨h, hstep, hdrift⟩)
        obtain ⟨r', h', hes⟩ := ih.mp h
        exact ⟨r', h', .cons hes hstep hdrift⟩
      · rintro ⟨r', h', (_ | ⟨hes, hstep, hdrift⟩)⟩
        exact .cons (ih.mpr ⟨r', h', hes⟩) hstep hdrift

/-- An entry of a record in two parts is in one of them. -/
theorem split_of_append {front back newer older : List ε}
    (h : front ++ back = newer ++ e :: older) :
    (∃ mid, front = newer ++ e :: mid ∧ older = mid ++ back)
      ∨ ∃ mid, back = mid ++ e :: older ∧ newer = front ++ mid := by
  rcases List.append_eq_append_iff.mp h with
    ⟨mid, hnewer, hback⟩ | ⟨mid, hfront, hrest⟩
  · exact Or.inr ⟨mid, hback, hnewer⟩
  · cases mid with
    | nil => exact Or.inr ⟨[], hrest.symm, by simpa using hfront.symm⟩
    | cons x mid =>
        injection hrest with hx hmid
        exact Or.inl ⟨mid, by rw [hfront, hx], hmid⟩

/-- What every entry and every drift keeps, a record keeps. -/
theorem Follows.leads {R : ρ → ρ → Prop}
    (htrans : ∀ {r₁ r₂ r₃}, R r₁ r₂ → R r₂ r₃ → R r₁ r₃)
    (hdrift : ∀ r r', D.may r r' → R r r')
    (hstep : ∀ e ∈ es, ∀ r r', step e r r' → R r r')
    (h : Follows step D es r r') : R r r' := by
  induction h with
  | nil h => exact hdrift _ _ h
  | @cons e es r r₁ r₂ r' _ hone hlast ih =>
      have hbefore : R r r₁ :=
        ih fun e' he' => hstep e' (List.mem_cons_of_mem _ he')
      exact htrans (htrans hbefore
        (hstep e List.mem_cons_self r₁ r₂ hone)) (hdrift r₂ r' hlast)

theorem Follows.mono {step' : ε → ρ → ρ → Prop}
    (hstep : ∀ e r r', step e r r' → step' e r r')
    (h : Follows step D es r r') : Follows step' D es r r' := by
  induction h with
  | nil h => exact .nil h
  | cons _ hone hlast ih => exact .cons ih (hstep _ _ _ hone) hlast

/-- An invariant along a record. What an entry keeps may depend on the
part of the record that is older. -/
theorem Follows.keeps {I : ρ → Prop}
    (hdrift : ∀ r r', I r → D.may r r' → I r')
    (hstep : ∀ newer e older r₁ r₂, es = newer ++ e :: older →
      Follows step D older r r₁ → I r₁ → step e r₁ r₂ → I r₂)
    (h : Follows step D es r r') (hr : I r) : I r' := by
  induction h with
  | nil h => exact hdrift _ _ hr h
  | @cons e es r r₁ r₂ r' hes hone hlast ih =>
      have hbefore : I r₁ := by
        refine ih (fun newer e' older r₃ r₄ heq => ?_) hr
        exact hstep (e :: newer) e' older r₃ r₄ (by rw [heq]; rfl)
      exact hdrift _ _ (hstep [] e es r₁ r₂ rfl hes hbefore hone) hlast

end Rules
