/-
Decimal numerals as strings: when the order of the strings is the order of
the numbers.

Strings are compared from the front, so `"10" < "9"`. Numerals with the same
number of digits compare like their values (`toString_lt_iff`). The
induction takes digits off the end, where a list with one more element is
compared by its front first and by its last element if the fronts are the
same (`concat_lt_concat_iff`).
-/
import Mathlib.Data.List.Basic
import Mathlib.Data.String.Basic

namespace Decimal

-- ================================================================= lists

theorem append_lt_append_iff (l : List Char) {a b : List Char} :
    l ++ a < l ++ b ↔ a < b := by
  induction l with
  | nil => rfl
  | cons c l ih =>
      rw [List.cons_append, List.cons_append, List.cons_lt_cons_iff, ih]
      simp

theorem concat_lt_concat_iff {a b : Char} :
    ∀ {xs ys : List Char}, xs.length = ys.length →
      (xs ++ [a] < ys ++ [b] ↔ xs < ys ∨ xs = ys ∧ a < b) := by
  intro xs
  induction xs with
  | nil =>
      intro ys hlen
      cases ys with
      | nil =>
          show [a] < [b] ↔ _
          rw [List.cons_lt_cons_iff]
          simp
      | cons y ys => cases hlen
  | cons x xs ih =>
      intro ys hlen
      cases ys with
      | nil => cases hlen
      | cons y ys =>
          have hlen : xs.length = ys.length := by simpa using hlen
          rw [List.cons_append, List.cons_append, List.cons_lt_cons_iff,
            List.cons_lt_cons_iff, ih hlen, List.cons.injEq]
          tauto

-- ================================================================ digits

theorem toDigits_of_ge {n : Nat} (h : 10 ≤ n) :
    Nat.toDigits 10 n = Nat.toDigits 10 (n / 10) ++ [(n % 10).digitChar] := by
  have hlast : n % 10 < 10 := Nat.mod_lt n (by decide)
  rw [← Nat.toDigits_of_lt_base hlast,
    Nat.toDigits_append_toDigits (by decide) (by omega) hlast,
    Nat.div_add_mod]

theorem digitChar_lt_iff {i j : Nat} (hi : i < 10) (hj : j < 10) :
    i.digitChar < j.digitChar ↔ i < j := by
  have hall : ∀ i j : Fin 10,
      (i : Nat).digitChar < (j : Nat).digitChar ↔ i < j := by decide
  exact hall ⟨i, hi⟩ ⟨j, hj⟩

theorem toDigits_inj {i j : Nat} :
    Nat.toDigits 10 i = Nat.toDigits 10 j ↔ i = j := by
  constructor
  · intro h
    have hval := congrArg (fun ds => Nat.ofDigitChars 10 ds 0) h
    simpa only [Nat.ofDigitChars_toDigits (b := 10) (by decide) (by decide)]
      using hval
  · intro h
    rw [h]

theorem toDigits_lt_iff (i : Nat) :
    ∀ j, (Nat.toDigits 10 i).length = (Nat.toDigits 10 j).length →
      (Nat.toDigits 10 i < Nat.toDigits 10 j ↔ i < j) := by
  induction i using Nat.strong_induction_on with
  | _ i ih =>
    intro j hlen
    have hone : ∀ n : Nat, (Nat.toDigits 10 n).length ≤ 1 ↔ n < 10 := by
      intro n
      rw [Nat.length_toDigits_le_iff (by decide) (by decide), Nat.pow_one]
    by_cases hi : i < 10
    · have hj : j < 10 := by
        rw [← hone, ← hlen, hone]
        exact hi
      rw [Nat.toDigits_of_lt_base hi, Nat.toDigits_of_lt_base hj,
        List.cons_lt_cons_iff, digitChar_lt_iff hi hj]
      simp
    · have hj : ¬ j < 10 := by
        rw [← hone, ← hlen, hone]
        exact hi
      rw [toDigits_of_ge (by omega), toDigits_of_ge (n := j) (by omega)]
        at hlen ⊢
      have hlen : (Nat.toDigits 10 (i / 10)).length
          = (Nat.toDigits 10 (j / 10)).length := by simpa using hlen
      rw [concat_lt_concat_iff hlen, ih (i / 10) (by omega) _ hlen,
        toDigits_inj, digitChar_lt_iff (Nat.mod_lt i (by decide))
          (Nat.mod_lt j (by decide))]
      omega

-- ============================================================== numerals

/-- How many digits the numeral has. -/
def width (n : Nat) : Nat := (Nat.toDigits 10 n).length

theorem toString_inj {i j : Nat} : toString i = toString j ↔ i = j := by
  rw [← String.toList_inj, Nat.toString_eq_ofList_toDigits,
    Nat.toString_eq_ofList_toDigits, String.toList_ofList,
    String.toList_ofList, toDigits_inj]

/-- Numerals of the same width are ordered like the numbers. -/
theorem toString_lt_iff {i j : Nat} (h : width i = width j) :
    toString i < toString j ↔ i < j := by
  rw [String.lt_iff, Nat.toString_eq_ofList_toDigits,
    Nat.toString_eq_ofList_toDigits, String.toList_ofList,
    String.toList_ofList, toDigits_lt_iff i j h]

/-- A common front does not matter. -/
theorem string_append_lt_iff (front : String) {a b : String} :
    front ++ a < front ++ b ↔ a < b := by
  rw [String.lt_iff, String.lt_iff, String.toList_append,
    String.toList_append, append_lt_append_iff]

example : toString 10 < toString 9 := by decide

end Decimal
