/-
The first occurrence of a word in a text.

`FirstOccurrence w before s sub` says that `s` is `before`, `w` and `sub`,
and that `w` occurs nowhere further to the front. A search from the front
finds it step by step: it is right here (`FirstOccurrence.of_prefix`) or
one element further (`FirstOccurrence.cons_iff`).

A word is borderless if no end of it is also a front of it, so that two
occurrences cannot overlap. Such a word, joined to a text without it, first
occurs where it was joined (`Borderless.firstOccurrence`).
-/
import Mathlib.Data.List.Infix

namespace Search

variable {α : Type} {w before s sub text rest : List α} {c : α}

/-- The text `s` is `before`, `w` and `sub`, and `w` does not start further
to the front. -/
structure FirstOccurrence (w before s sub : List α) : Prop where
  split : s = before ++ w ++ sub
  first : ∀ i < before.length, ¬ w <+: s.drop i

namespace FirstOccurrence

/-- In a text that starts with the word. -/
theorem of_prefix (h : w <+: s) :
    (∃ before, FirstOccurrence w before s sub) ↔ s = w ++ sub := by
  constructor
  · rintro ⟨before, hsplit, hfirst⟩
    cases before with
    | nil => exact hsplit
    | cons b before => exact absurd h (hfirst 0 (by simp))
  · intro hs
    exact ⟨[], hs, by simp⟩

/-- In a text that does not. -/
theorem cons_iff (h : ¬ w <+: c :: s) :
    (∃ before, FirstOccurrence w before (c :: s) sub)
      ↔ ∃ before, FirstOccurrence w before s sub := by
  constructor
  · rintro ⟨before, hsplit, hfirst⟩
    cases before with
    | nil => exact absurd ⟨sub, hsplit.symm⟩ h
    | cons b before =>
        obtain ⟨-, hs⟩ := List.cons.inj hsplit
        refine ⟨before, hs, fun i hi => ?_⟩
        exact hfirst (i + 1) (by simpa using hi)
  · rintro ⟨before, hsplit, hfirst⟩
    refine ⟨c :: before, congrArg (c :: ·) hsplit, fun i hi => ?_⟩
    cases i with
    | zero => exact h
    | succ i => exact hfirst i (by simpa using hi)

end FirstOccurrence

-- ========================================================== borderless

/-- No end of the word but all of it is a front of it. -/
def Borderless (w : List α) : Prop :=
  ∀ i < w.length, 0 < i → ¬ w.drop i <+: w

/-- A word that occurs at the front of `text ++ w ++ rest` is in `text`, or
one of its ends is the front of the word that was joined. -/
theorem Borderless.not_prefix (hw : Borderless w) (htext : text ≠ [])
    (hno : ¬ w <+: text) : ¬ w <+: text ++ w ++ rest := by
  intro h
  rw [List.append_assoc] at h
  by_cases hlen : w.length ≤ text.length
  · exact hno (List.prefix_of_prefix_length_le h (List.prefix_append _ _)
      hlen)
  -- now the occurrence ends inside the word that was joined
  · obtain ⟨u, hu⟩ := List.prefix_of_prefix_length_le
      (List.prefix_append text (w ++ rest)) h (by omega)
    have hlength : text.length + u.length = w.length := by
      rw [← List.length_append, hu]
    have hpos := List.length_pos_iff.mpr htext
    have hdrop : w.drop text.length = u := by
      rw [← hu, List.drop_left]
    have hfront : u <+: w := by
      rw [← hu, List.prefix_append_right_inj, hu] at h
      exact List.prefix_of_prefix_length_le h (List.prefix_append w rest)
        (by omega)
    refine hw text.length (by omega) hpos ?_
    rw [hdrop]
    exact hfront

/-- Joining creates no earlier occurrence. -/
theorem Borderless.firstOccurrence (hw : Borderless w)
    (hno : ¬ w <:+: text) :
    FirstOccurrence w text (text ++ w ++ rest) rest := by
  refine ⟨rfl, fun i hi => ?_⟩
  have hdrop : (text ++ w ++ rest).drop i = text.drop i ++ w ++ rest := by
    rw [List.append_assoc, List.drop_append_of_le_length (by omega),
      List.append_assoc]
  rw [hdrop]
  refine hw.not_prefix ?_ ?_
  · rw [ne_eq, List.drop_eq_nil_iff]
    omega
  · intro h
    exact hno (h.isInfix.trans (List.drop_suffix i text).isInfix)

end Search
