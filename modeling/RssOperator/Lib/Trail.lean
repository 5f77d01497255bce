/-
What a run leaves behind.

# Trails

A machine takes inputs one at a time, and each step may be labelled with a
number of entries: what was read, what was done, what was passed on. The
trail of a run is all of them, in order.

# Two uses

What one step and its labels have to do with each other holds of a run and
its trail, if it can be put together (`trail_leads`). If the labels are
steps of another machine, and a function of the state follows it, then that
function of the last state is where the other machine gets along the trail
(`trail_refines`). Inputs without a label are steps that the other machine
does not see.

What is taken in is kept for a while and given away in the order it came:
if one step keeps the books, so does a run (`trail_books`). What has come
in is what has gone out, followed by what is still there.

# Along a run

`Along` says of a run that each of its steps is taken in a state that has a
property. Runs that follow one another are taken apart by `along_append`.
-/
import Mathlib.Tactic.Basic
import Mathlib.Data.List.Basic

variable {σ ι α β γ : Type} {step : σ → ι → σ}

/-- The labels along a run. -/
def trail (step : σ → ι → σ) (label : σ → ι → List β) : σ → List ι → List β
  | _, [] => []
  | s, i :: is => label s i ++ trail step label (step s i) is

theorem trail_flatMap (label : σ → ι → List β) (f : β → List γ) :
    ∀ (is : List ι) (s : σ), (trail step label s is).flatMap f
      = trail step (fun s i => (label s i).flatMap f) s is := by
  intro is
  induction is with
  | nil => intro s; rfl
  | cons i is ih =>
      intro s
      rw [trail, trail, List.flatMap_append, ih]

section

variable {I : σ → Prop} (hI : ∀ s i, I s → I (step s i))
include hI

/-- What is true of one step and its labels, and can be put together, is
true of a run and its trail. -/
theorem trail_leads {label : σ → ι → List β} {R : σ → List β → σ → Prop}
    (hnil : ∀ s, R s [] s)
    (htrans : ∀ s l s' l' s'', R s l s' → R s' l' s'' → R s (l ++ l') s'')
    (h : ∀ s i, I s → R s (label s i) (step s i)) :
    ∀ (is : List ι) (s : σ), I s →
      R s (trail step label s is) (is.foldl step s) := by
  intro is
  induction is with
  | nil => intro s _; exact hnil s
  | cons i is ih =>
      intro s hs
      exact htrans _ _ _ _ _ (h s i hs) (ih _ (hI s i hs))

/-- A machine that another one follows, some steps of it aside. -/
theorem trail_refines {label : σ → ι → List β} {next : α → β → α}
    (view : σ → α)
    (h : ∀ s i, I s → view (step s i) = (label s i).foldl next (view s)) :
    ∀ (is : List ι) (s : σ), I s → view (is.foldl step s)
      = (trail step label s is).foldl next (view s) := by
  refine trail_leads hI (R := fun s l s' => view s' = l.foldl next (view s))
    (fun _ => rfl) (fun s l s' l' s'' h h' => ?_) h
  rw [h', h, List.foldl_append]

/-- First in, first out, and nothing lost. -/
theorem trail_books {taken given : σ → ι → List β} (held : σ → List β)
    (h : ∀ s i, I s → held s ++ taken s i = given s i ++ held (step s i)) :
    ∀ (is : List ι) (s : σ), I s → held s ++ trail step taken s is
      = trail step given s is ++ held (is.foldl step s) := by
  intro is
  induction is with
  | nil => intro s _; exact List.append_nil _
  | cons i is ih =>
      intro s hs
      rw [List.foldl_cons, trail, trail, List.append_assoc,
        ← ih _ (hI s i hs), ← List.append_assoc, ← List.append_assoc,
        h s i hs]

end

-- ======================================================== along a run

/-- Every step of a run is taken where `C` says. -/
def Along (step : σ → ι → σ) (C : σ → ι → Prop) : σ → List ι → Prop
  | _, [] => True
  | s, i :: is => C s i ∧ Along step C (step s i) is

theorem along_append {C : σ → ι → Prop} (is js : List ι) (s : σ) :
    Along step C s (is ++ js)
      ↔ Along step C s is ∧ Along step C (is.foldl step s) js := by
  induction is generalizing s with
  | nil => simp only [List.nil_append, Along, true_and, List.foldl_nil]
  | cons i is ih =>
      rw [List.cons_append, Along, Along, List.foldl_cons, ih, and_assoc]

theorem Along.imp {C D : σ → ι → Prop} (h : ∀ s i, C s i → D s i) :
    ∀ (is : List ι) (s : σ), Along step C s is → Along step D s is := by
  intro is
  induction is with
  | nil => intro s _; trivial
  | cons i is ih =>
      intro s hs
      exact ⟨h s i hs.1, ih _ hs.2⟩
