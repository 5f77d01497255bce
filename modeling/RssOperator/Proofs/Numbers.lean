/-
What `strconv.ParseUint` makes of a string.

The loop looks at one character at a time, so a number that does not fit
ends it before it has seen what follows. `frontVal` is the number a string
begins with, and that alone decides about a range error; the rest of the
string decides between a number and a malformed one (`parseUint_eq`).
-/
import Mathlib.Data.List.TakeWhile
import RssOperator.Exec

namespace RssOperator

variable {s t rest : List Char} {n : Nat}

-- ============================================================== digits

theorem digitsVal_eq_some (h : digitsVal t = some n) :
    t ≠ [] ∧ ∀ c ∈ t, isDigit c = true := by
  unfold digitsVal at h
  split at h
  · cases h
  · next hok =>
    rw [Bool.or_eq_true, not_or, List.isEmpty_iff, Bool.not_eq_true',
      Bool.not_eq_false, List.all_eq_true] at hok
    exact hok

theorem exists_digitsVal (hne : t ≠ []) (hall : ∀ c ∈ t, isDigit c = true) :
    ∃ n, digitsVal t = some n := by
  unfold digitsVal
  rw [if_neg]
  · exact ⟨_, rfl⟩
  · rw [Bool.or_eq_true, not_or, List.isEmpty_iff, Bool.not_eq_true',
      Bool.not_eq_false, List.all_eq_true]
    exact ⟨hne, hall⟩

-- =========================================================== the front

/-- The number after `s`, if it is `n` before. -/
def readOn (n : Nat) (s : List Char) : Nat :=
  s.foldl (fun n c => n * 10 + digitVal c) n

/-- A number does not get smaller with more digits. -/
theorem le_readOn (s : List Char) : ∀ n, n ≤ readOn n s := by
  induction s with
  | nil => intro n; exact Nat.le_refl n
  | cons c s ih =>
      intro n
      have hnext := ih (n * 10 + digitVal c)
      show n ≤ readOn (n * 10 + digitVal c) s
      omega

theorem readOn_append (n : Nat) (s t : List Char) :
    readOn n (s ++ t) = readOn (readOn n s) t := List.foldl_append

/-- The number a string begins with. -/
def frontVal (s : List Char) : Nat := readOn 0 (s.takeWhile isDigit)

theorem takeWhile_digits (h : ∀ c ∈ t, isDigit c = true) :
    t.takeWhile isDigit = t :=
  List.takeWhile_eq_self_iff.mpr h

theorem digitsVal_eq_frontVal (h : digitsVal t = some n) : n = frontVal t := by
  have hall := (digitsVal_eq_some h).2
  unfold digitsVal at h
  split at h
  · cases h
  · cases h
    rw [frontVal, takeWhile_digits hall]
    rfl

/-- A front of digits is part of the number a string begins with. -/
theorem frontVal_le_append (h : ∀ c ∈ t, isDigit c = true)
    (rest : List Char) : frontVal t ≤ frontVal (t ++ rest) := by
  unfold frontVal
  rw [List.takeWhile_append_of_pos h, takeWhile_digits h, readOn_append]
  exact le_readOn _ _

-- ============================================================= the loop

theorem parseUintLoop_eq (s : List Char) : ∀ n, n < 2 ^ 64 →
    parseUintLoop n s
      = if 2 ^ 64 ≤ readOn n (s.takeWhile isDigit) then
          (2 ^ 64 - 1, some .outOfRange)
        else if s.all isDigit then (readOn n s, none)
        else (0, some .malformed) := by
  induction s with
  | nil =>
      intro n hn
      exact (if_neg (Nat.not_le.mpr hn)).symm
  | cons c s ih =>
      intro n hn
      unfold parseUintLoop
      cases hc : isDigit c with
      | false =>
          rw [List.takeWhile_cons_of_neg (by rw [hc]; exact nofun),
            List.all_cons, hc]
          exact (if_neg (Nat.not_le.mpr hn)).symm
      | true =>
          rw [List.takeWhile_cons_of_pos hc, List.all_cons, hc]
          show (if 2 ^ 64 ≤ n * 10 + digitVal c then _ else _)
            = if 2 ^ 64 ≤ readOn (n * 10 + digitVal c) _ then _ else _
          by_cases hlarge : 2 ^ 64 ≤ n * 10 + digitVal c
          · rw [if_pos hlarge,
              if_pos (Nat.le_trans hlarge (le_readOn _ _))]
          · rw [if_neg hlarge, ih _ (Nat.not_le.mp hlarge)]
            rfl

/-- All `ParseUint` does. -/
theorem parseUint_eq (s : List Char) :
    parseUint s = if 2 ^ 64 ≤ frontVal s then
        (2 ^ 64 - 1, some .outOfRange)
      else (digitsVal s).elim (0, some .malformed) fun n => (n, none) := by
  unfold parseUint digitsVal
  cases s with
  | nil => rfl
  | cons c s =>
      rw [List.isEmpty_cons, if_neg Bool.false_ne_true,
        parseUintLoop_eq _ 0 (by decide), Bool.false_or]
      cases (c :: s).all isDigit with
      | true => rfl
      | false => rfl

theorem parseUint_of_overlong (h : 2 ^ 64 ≤ frontVal s) :
    parseUint s = (2 ^ 64 - 1, some .outOfRange) :=
  (parseUint_eq s).trans (if_pos h)

theorem parseUint_of_malformed (h : digitsVal s = none)
    (hfront : ¬ 2 ^ 64 ≤ frontVal s) : parseUint s = (0, some .malformed) := by
  rw [parseUint_eq, if_neg hfront, h]
  rfl

theorem parseUint_of_digits (h : digitsVal s = some n) :
    parseUint s = if n < 2 ^ 64 then (n, none)
      else (2 ^ 64 - 1, some .outOfRange) := by
  rw [parseUint_eq, h, ← digitsVal_eq_frontVal h]
  by_cases hn : n < 2 ^ 64
  · rw [if_pos hn, if_neg (Nat.not_le.mpr hn)]
    rfl
  · rw [if_neg hn, if_pos (Nat.not_lt.mp hn)]

example : parseUint "18446744073709551616abc".toList
    = (2 ^ 64 - 1, some .outOfRange) := by decide +kernel

end RssOperator
