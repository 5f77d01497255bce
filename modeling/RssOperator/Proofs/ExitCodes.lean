/-
The exit code in the text of an error.

The executor writes a phrase and a number at the end of its message, and
`parseExitCode` looks for the phrase and reads what follows. The phrase
does not overlap itself, so a text in front of it changes nothing unless it
has the phrase in it (`Borderless.firstOccurrence`). What follows is read as
an integer of 32 bits to the end of the text (`parseInt32_eq_some_iff`), and
anything else is exit code 1, which `reconcile` takes for a failure
(`appFailed_noteStatus_iff`).
-/
import RssOperator.Lib.Search
import RssOperator.Proofs.Durations
import RssOperator.Reconcile

namespace RssOperator

open Search

variable {w s sub : List Char} {n : Nat} {k : Int}

-- ============================================================== search

theorem afterFirst_eq_some_iff : afterFirst w s = some sub
    ↔ ∃ before, FirstOccurrence w before s sub := by
  induction s with
  | nil =>
      by_cases hw : w = []
      · subst hw
        rw [FirstOccurrence.of_prefix (List.prefix_refl [])]
        show some [] = some sub ↔ _
        rw [Option.some.injEq]
        rfl
      · refine iff_of_false ?_ ?_
        · simp [afterFirst, hw]
        · rintro ⟨before, hsplit, -⟩
          have hnil := List.append_eq_nil_iff.mp hsplit.symm
          exact hw (List.append_eq_nil_iff.mp hnil.1).2
  | cons c s ih =>
      unfold afterFirst
      by_cases hw : w <+: c :: s
      · rw [if_pos (List.isPrefixOf_iff_prefix.mpr hw),
          FirstOccurrence.of_prefix hw, Option.some.injEq]
        obtain ⟨rest, hrest⟩ := hw
        rw [← hrest, List.drop_left, List.append_cancel_left_eq]
      · rw [if_neg (fun h => hw (List.isPrefixOf_iff_prefix.mp h)), ih,
          FirstOccurrence.cons_iff hw]

theorem afterFirst_eq_none_iff : afterFirst w s = none ↔ ¬ w <:+: s := by
  induction s with
  | nil => simp [afterFirst, List.infix_nil]
  | cons c s ih =>
      unfold afterFirst
      rw [List.infix_cons_iff]
      by_cases hw : w <+: c :: s
      · rw [if_pos (List.isPrefixOf_iff_prefix.mpr hw)]
        simp [hw]
      · rw [if_neg (fun h => hw (List.isPrefixOf_iff_prefix.mp h)), ih]
        simp [hw]

-- ============================================================= numbers

theorem parseInt32_eq (s : List Char) :
    parseInt32 s = (digitsVal (splitSign s).2).bind fun n =>
      if (splitSign s).1 then if n ≤ 2 ^ 31 then some (-(n : Int)) else none
      else if n < 2 ^ 31 then some (n : Int) else none := by
  unfold parseInt32
  split
  next neg digits hsign =>
    have hsplit : splitSign s = (neg, digits) := hsign
    rw [hsplit]
    cases digitsVal digits with
    | none => rfl
    | some n => rfl

/-- The integers of 32 bits. -/
def IsInt32 (k : Int) : Prop := -2 ^ 31 ≤ k ∧ k < 2 ^ 31

/-- What `ParseInt` reads: an optionally signed decimal integer that fits,
with nothing behind it. -/
theorem parseInt32_eq_some_iff :
    parseInt32 s = some k ↔ IsDecimal s k ∧ IsInt32 k := by
  rw [isDecimal_iff_splitSign, parseInt32_eq, Option.bind_eq_some_iff]
  unfold IsInt32
  cases hneg : (splitSign s).1 with
  | true =>
      simp only [if_true, Option.ite_none_right_eq_some, Option.some.injEq]
      constructor
      · rintro ⟨n, hn, hle, rfl⟩
        exact ⟨⟨n, hn, rfl⟩, by omega, by omega⟩
      · rintro ⟨⟨n, hn, rfl⟩, hlow, hhigh⟩
        exact ⟨n, hn, by omega, rfl⟩
  | false =>
      simp only [Bool.false_eq_true, if_false, Option.ite_none_right_eq_some,
        Option.some.injEq]
      constructor
      · rintro ⟨n, hn, hlt, rfl⟩
        exact ⟨⟨n, hn, rfl⟩, by omega, by omega⟩
      · rintro ⟨⟨n, hn, rfl⟩, hlow, hhigh⟩
        exact ⟨n, hn, by omega, rfl⟩

theorem digitsVal_toDigits (n : Nat) :
    digitsVal (Nat.toDigits 10 n) = some n := by
  have hall : ∀ c ∈ Nat.toDigits 10 n, isDigit c = true := by
    intro c hc
    have hdigit := Nat.isDigit_of_mem_toDigits (by decide) (by decide) hc
    rw [Char.isDigit, Bool.and_eq_true] at hdigit
    rw [isDigit, Bool.and_eq_true, decide_eq_true_eq, decide_eq_true_eq]
    simpa [Char.le_def] using hdigit
  -- the same fold with the factors the other way round
  have hval : (Nat.toDigits 10 n).foldl (fun n c => n * 10 + digitVal c) 0
      = Nat.ofDigitChars 10 (Nat.toDigits 10 n) 0 := by
    unfold Nat.ofDigitChars digitVal
    simp only [Nat.mul_comm]
  unfold digitsVal
  rw [if_neg, hval, Nat.ofDigitChars_toDigits (by decide) (by decide)]
  rw [Bool.or_eq_true, not_or, List.isEmpty_iff, Bool.not_eq_true',
    Bool.not_eq_false, List.all_eq_true]
  exact ⟨Nat.toDigits_ne_nil, hall⟩

theorem isDecimal_toString (k : Int) :
    IsDecimal (toString k).toList k := by
  cases k with
  | ofNat n =>
      refine ⟨Nat.toDigits 10 n, n, digitsVal_toDigits n, Or.inl ⟨?_, rfl⟩⟩
      show (toString n).toList = _
      rw [Nat.toString_eq_ofList_toDigits, String.toList_ofList]
  | negSucc n =>
      refine ⟨Nat.toDigits 10 (n + 1), n + 1, digitsVal_toDigits (n + 1),
        Or.inr (Or.inr ⟨?_, rfl⟩)⟩
      show ("-" ++ toString (n + 1)).toList = _
      rw [String.toList_append, Nat.toString_eq_ofList_toDigits]
      exact congrArg ('-' :: ·) String.toList_ofList

-- ========================================================== exit codes

/-- What the executor writes in front of the exit code. -/
def exitPhrase : String := "command terminated with exit code "

theorem borderless_exitPhrase : Borderless exitPhrase.toList := by
  unfold Borderless
  decide +kernel

/-- What `reconcile` takes for a member that is well. -/
def healthyCodes : List Int := [0, 7, 8]

theorem appFailed_noteStatus_iff {m : Member} {rc : Int} :
    (m.noteStatus rc).appFailed = true
      ↔ m.appFailed = true ∨ rc ∉ healthyCodes := by
  unfold Member.noteStatus healthyCodes
  by_cases h0 : rc = 0
  · simp [h0]
  · by_cases h7 : rc = 7
    · simp [h7]
    · by_cases h8 : rc = 8
      · simp [h8]
      · simp [h0, h7, h8]

theorem parseExitCode_of_first {str : String} {before : List Char}
    (h : FirstOccurrence exitPhrase.toList before str.toList sub) :
    parseExitCode (some str) = (parseInt32 sub).getD 1 := by
  unfold parseExitCode
  dsimp only
  rw [← exitPhrase, afterFirst_eq_some_iff.mpr ⟨before, h⟩]

theorem parseExitCode_of_absent {str : String}
    (h : ¬ exitPhrase.toList <:+: str.toList) :
    parseExitCode (some str) = 1 := by
  unfold parseExitCode
  dsimp only
  rw [← exitPhrase, afterFirst_eq_none_iff.mpr h]

/-- The message of the executor is read back, and a text that is not such a
message is exit code 1, so that a member whose status check ends with it is
a failed one. -/
theorem parseExitCode_inverts (text str : String) (k : Int) :
    (IsInt32 k → ¬ exitPhrase.toList <:+: text.toList →
        parseExitCode (some (text ++ exitPhrase ++ toString k)) = k)
      ∧ (¬ exitPhrase.toList <:+: str.toList
          ∨ (∃ before sub,
              FirstOccurrence exitPhrase.toList before str.toList sub
              ∧ ¬ ∃ k, IsDecimal sub k ∧ IsInt32 k) →
        parseExitCode (some str) = 1
          ∧ parseExitCode (some str) ∉ healthyCodes
          ∧ ∀ m : Member,
            (m.noteStatus (parseExitCode (some str))).appFailed = true) := by
  constructor
  · intro hk htext
    have hfirst : FirstOccurrence exitPhrase.toList text.toList
        (text ++ exitPhrase ++ toString k).toList (toString k).toList := by
      rw [String.toList_append, String.toList_append]
      exact borderless_exitPhrase.firstOccurrence htext
    rw [parseExitCode_of_first hfirst,
      parseInt32_eq_some_iff.mpr ⟨isDecimal_toString k, hk⟩]
    rfl
  · intro hstr
    have hone : parseExitCode (some str) = 1 := by
      rcases hstr with habsent | ⟨before, sub, hfirst, hno⟩
      · exact parseExitCode_of_absent habsent
      · rw [parseExitCode_of_first hfirst]
        cases hsub : parseInt32 sub with
        | none => rfl
        | some k => exact absurd ⟨k, parseInt32_eq_some_iff.mp hsub⟩ hno
    have hunwell : parseExitCode (some str) ∉ healthyCodes := by
      rw [hone]
      decide
    exact ⟨hone, hunwell,
      fun m => appFailed_noteStatus_iff.mpr (Or.inr hunwell)⟩

/-- A status of 7, and a command that was never run. -/
theorem parseExitCode_inverts_seven :
    parseExitCode (some "db-0: command terminated with exit code 7") = 7
      ∧ parseExitCode (some "container not found") = 1 :=
  ⟨(parseExitCode_inverts "db-0: " "" 7).1 ⟨by decide, by decide⟩
      (by decide +kernel),
    ((parseExitCode_inverts "" "container not found" 0).2
      (Or.inl (by decide +kernel))).1⟩

end RssOperator
