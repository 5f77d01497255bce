/-
A scan that keeps the best element so far.

# The scan

`pick beats` is one step: the first element is kept, and a later one takes
its place if it beats it. Nothing is asked of `beats`. If it is not an
order, which element the scan ends with depends on the order in which they
come.

# Which one it ends with

One of them, if there is any (`foldl_pick_mem`, `foldl_pick_none`). An
element that beats all others and is beaten by none of them is it
(`foldl_pick_champion`). An element that comes last is it if it beats
whatever comes before (`foldl_pick_last`), and an element that is beaten by
the last one is not (`foldl_pick_last_ne`).
-/
import Mathlib.Data.List.Basic

namespace RunningBest

variable {α : Type} (beats : α → α → Prop) [DecidableRel beats]

/-- One step of the scan. -/
def pick (best : Option α) (e : α) : Option α :=
  match best with
  | none => some e
  | some b => if beats e b then some e else some b

variable {beats} {l : List α} {e t : α}

@[simp] theorem pick_none (e : α) : pick beats none e = some e := rfl

theorem pick_some (b e : α) :
    pick beats (some b) e = if beats e b then some e else some b := rfl

/-- A step keeps what it has or takes what it sees. -/
theorem pick_cases (best : Option α) (e : α) :
    pick beats best e = best ∨ pick beats best e = some e := by
  cases best with
  | none => exact Or.inr rfl
  | some b =>
      rw [pick_some]
      split
      · exact Or.inr rfl
      · exact Or.inl rfl

theorem pick_ne_none (best : Option α) (e : α) :
    pick beats best e ≠ none := by
  cases best with
  | none => simp
  | some b =>
      rw [pick_some]
      split <;> simp

/-- The scan ends with the element it started from or with one it has
seen. -/
theorem foldl_pick_some :
    ∀ best, l.foldl (pick beats) best = some e → best = some e ∨ e ∈ l := by
  induction l with
  | nil => intro best h; exact Or.inl h
  | cons a l ih =>
      intro best h
      rcases ih _ h with hbest | hmem
      · rcases @pick_cases _ beats _ best a with hkeep | htake
        · exact Or.inl (hkeep.symm.trans hbest)
        · rw [htake] at hbest
          cases hbest
          exact Or.inr List.mem_cons_self
      · exact Or.inr (List.mem_cons_of_mem _ hmem)

theorem foldl_pick_mem (h : l.foldl (pick beats) none = some e) : e ∈ l := by
  rcases foldl_pick_some none h with hnone | hmem
  · cases hnone
  · exact hmem

theorem foldl_pick_ne_none :
    ∀ {best}, best ≠ none → l.foldl (pick beats) best ≠ none := by
  induction l with
  | nil => intro best h; exact h
  | cons a l ih => intro best _; exact ih (pick_ne_none best a)

theorem foldl_pick_none : l.foldl (pick beats) none = none ↔ l = [] := by
  cases l with
  | nil => simp
  | cons a l =>
      constructor
      · intro h
        rw [List.foldl_cons] at h
        exact absurd h (foldl_pick_ne_none (pick_ne_none none a))
      · intro h
        cases h

-- ================================================================== last

/-- An element that beats all others before it is the one. -/
theorem foldl_pick_last (h : ∀ b ∈ l, beats e b) :
    (l ++ [e]).foldl (pick beats) none = some e := by
  rw [List.foldl_append, List.foldl_cons, List.foldl_nil]
  cases hb : l.foldl (pick beats) none with
  | none => rfl
  | some b => rw [pick_some, if_pos (h b (foldl_pick_mem hb))]

/-- An element that is beaten by the last one is not. -/
theorem foldl_pick_last_ne (hne : e ≠ t) (h : beats e t) :
    (l ++ [e]).foldl (pick beats) none ≠ some t := by
  rw [List.foldl_append, List.foldl_cons, List.foldl_nil]
  intro hlast
  cases hb : l.foldl (pick beats) none with
  | none =>
      rw [hb, pick_none] at hlast
      exact hne (Option.some.inj hlast)
  | some b =>
      rw [hb, pick_some] at hlast
      split at hlast
      · exact hne (Option.some.inj hlast)
      · next hno =>
        cases hlast
        exact hno h

-- ============================================================== champion

/-- Nobody who comes later beats the element the scan has. -/
theorem foldl_pick_stays (h : ∀ b ∈ l, b ≠ t → ¬ beats b t) :
    l.foldl (pick beats) (some t) = some t := by
  induction l with
  | nil => rfl
  | cons a l ih =>
      have hstep : pick beats (some t) a = some t := by
        rw [pick_some]
        split
        · next hbeats =>
          by_cases hat : a = t
          · rw [hat]
          · exact absurd hbeats (h a List.mem_cons_self hat)
        · rfl
      rw [List.foldl_cons, hstep]
      exact ih fun b hb => h b (List.mem_cons_of_mem _ hb)

/-- An element that beats all others and is beaten by none is the one,
wherever it comes. -/
theorem foldl_pick_champion (ht : t ∈ l)
    (hwins : ∀ b ∈ l, b ≠ t → beats t b)
    (hnever : ∀ b ∈ l, b ≠ t → ¬ beats b t) :
    l.foldl (pick beats) none = some t := by
  -- whatever the scan has when it comes to `t` is `t` or is beaten by it
  have hscan : ∀ (l : List α) (best : Option α), t ∈ l →
      (∀ b ∈ l, b ≠ t → beats t b ∧ ¬ beats b t) →
      (∀ b, best = some b → b ≠ t → beats t b) →
      l.foldl (pick beats) best = some t := by
    intro l
    induction l with
    | nil => intro best ht; cases ht
    | cons a l ih =>
        intro best ht hl hbest
        rw [List.foldl_cons]
        by_cases hat : a = t
        · subst hat
          have hstep : pick beats best a = some a := by
            cases best with
            | none => rfl
            | some b =>
                rw [pick_some]
                split
                · rfl
                · next hno =>
                  by_cases hba : b = a
                  · rw [hba]
                  · exact absurd (hbest b rfl hba) hno
          rw [hstep]
          exact foldl_pick_stays fun b hb hne =>
            (hl b (List.mem_cons_of_mem _ hb) hne).2
        · have ht : t ∈ l := by
            rcases List.mem_cons.mp ht with h | h
            · exact absurd h.symm hat
            · exact h
          refine ih _ ht
            (fun b hb => hl b (List.mem_cons_of_mem _ hb)) ?_
          intro b hb hne
          rcases @pick_cases _ beats _ best a with hkeep | htake
          · rw [hkeep] at hb
            exact hbest b hb hne
          · rw [htake] at hb
            cases hb
            exact (hl a List.mem_cons_self hat).1
  refine hscan l none ht ?_ ?_
  · intro b hb hne
    exact ⟨hwins b hb hne, hnever b hb hne⟩
  · intro b hb
    cases hb

end RunningBest
