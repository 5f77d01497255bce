/-
What `parseDuration` makes of a string.

# Texts

A duration is written part by part, each a run of digits and a letter, with
a `T` before the hours (`Renders`). Every part may be left out. Two texts
that begin alike begin with the same item (`Item.IsText.unique`): the run of
digits ends at the letter, and the letters are different. So what the
pattern takes, item by item, is the longest front of the string that is a
duration (`greedy_items`), and no other one has the same text
(`flatMap_inj`).

# Numbers

A part counts with its number, or with zero if that does not fit 64 bits
(`usable`). A string that is a decimal integer begins with no part and
counts as seconds. If it begins with no part and with a number of more than
64 bits, it counts as the largest number of seconds, whatever follows
(`BeginsOverlong`). `ReadsAs` is the sum before it is wrapped around, and
`parseDuration_readsAs` says that this is all the code does.

# What follows

A duration whose sum fits is read as that sum
(`parseDuration_inverts`). A string that is no duration is read as its
longest front all the same, so it is taken for zero only if that counts
nothing and there is no overlong number instead
(`parseDuration_rejects_iff`). The sign and the order of two results
are those of the sums, until they go round (`parseDuration_wraps_iff`).
-/
import Mathlib.Logic.Function.Basic
import RssOperator.Duration
import RssOperator.Proofs.Numbers

namespace RssOperator

variable {s t rest : List Char} {n : Nat} {k : Int}

-- ============================================================== digits

/-- The number a part counts with. -/
def usable (n : Nat) : Nat := if n < 2 ^ 63 then n else 0

/-- A digit is no sign. -/
theorem splitSign_cons {c : Char} (hc : isDigit c = true) (s : List Char) :
    splitSign (c :: s) = (false, c :: s) := by
  unfold splitSign
  split
  · next heq =>
    cases heq
    cases hc
  · next heq =>
    cases heq
    cases hc
  · rfl

theorem splitSign_append (h : digitsVal t = some n) (rest : List Char) :
    splitSign (t ++ rest) = (false, t ++ rest) := by
  obtain ⟨hne, hall⟩ := digitsVal_eq_some h
  cases t with
  | nil => exact absurd rfl hne
  | cons c t => exact splitSign_cons (hall c List.mem_cons_self) _

theorem splitSign_digits (h : digitsVal t = some n) :
    splitSign t = (false, t) := by
  have hfront := splitSign_append h []
  rwa [List.append_nil] at hfront

/-- `atoi`, by what `ParseUint` makes of the digits. -/
theorem atoi_eq {un : Nat} {err : Option NumError}
    (h : parseUint (splitSign s).2 = (un, err)) :
    atoi s = if err = some .malformed then (0, false)
      else if (splitSign s).1 then
        if un ≤ 2 ^ 63 then (-(un : Int), true) else (-2 ^ 63, false)
      else if un < 2 ^ 63 then ((un : Int), true)
      else (2 ^ 63 - 1, false) := by
  unfold atoi
  dsimp only
  rw [h]

theorem atoi_unsigned (hs : splitSign s = (false, t))
    (h : digitsVal t = some n) :
    atoi s = if n < 2 ^ 63 then ((n : Int), true)
      else (2 ^ 63 - 1, false) := by
  have hparse := parseUint_of_digits h
  have hdigits : (splitSign s).2 = t := by rw [hs]
  rw [← hdigits] at hparse
  by_cases hn : n < 2 ^ 64
  · rw [if_pos hn] at hparse
    rw [atoi_eq hparse, hs]
    rfl
  · rw [if_neg hn] at hparse
    rw [atoi_eq hparse, hs, if_neg (by omega : ¬ n < 2 ^ 63)]
    rfl

theorem parseInt64_text (h : digitsVal t = some n) (u : Char) :
    (parseInt64 (t ++ [u])).toInt = usable n := by
  unfold parseInt64 usable
  rw [if_neg (by simp), List.dropLast_concat,
    atoi_unsigned (splitSign_digits h) h]
  by_cases hn : n < 2 ^ 63
  · rw [if_pos hn, if_pos hn]
    exact Int64.toInt_ofInt_of_le (by omega) (by omega)
  · rw [if_neg hn, if_neg hn]
    rfl

-- =============================================================== items

/-- What a duration is written with. -/
inductive Item where
  | part (p : Part)
  | separator
deriving DecidableEq

/-- The items in the order of the pattern. -/
def items : List Item :=
  [.part .years, .part .months, .part .days, .separator, .part .hours,
    .part .minutes, .part .seconds]

namespace Item

def regex : Item → Regex Char Part
  | part p => p.regex
  | separator => .sat (· == 'T')

/-- A number with its letter, or the separator. -/
def IsText : Item → List Char → Prop
  | part p, t => ∃ ds n, digitsVal ds = some n ∧ t = ds ++ [p.unit]
  | separator, t => t = ['T']

/-- The match of an item. -/
def found (i : Item) (t rest : List Char) : Regex.Match Char Part :=
  ⟨t, fun p => if i = part p then some t else none, rest⟩

variable {i j : Item}

theorem isDigit_unit (p : Part) : isDigit p.unit = false := by
  cases p <;> decide

theorem unit_inj {p q : Part} (h : p.unit = q.unit) : p = q := by
  revert h
  cases p <;> cases q <;> decide

theorem IsText.ne_nil (h : i.IsText t) : t ≠ [] := by
  cases i with
  | part p =>
      obtain ⟨ds, n, -, rfl⟩ := h
      simp
  | separator =>
      rw [show t = ['T'] from h]
      simp

/-- A run of digits with a letter behind it is cut in one way. -/
theorem run_inj {ds ds' : List Char} {u u' : Char} {rest rest' : List Char}
    (hds : ∀ c ∈ ds, isDigit c = true) (hu : isDigit u = false)
    (hds' : ∀ c ∈ ds', isDigit c = true) (hu' : isDigit u' = false)
    (h : ds ++ u :: rest = ds' ++ u' :: rest') :
    ds = ds' ∧ u = u' ∧ rest = rest' := by
  have htake : ∀ {ds : List Char} {u : Char} {rest : List Char},
      (∀ c ∈ ds, isDigit c = true) → isDigit u = false →
      (ds ++ u :: rest).takeWhile isDigit = ds := by
    intro ds u rest hds hu
    rw [List.takeWhile_append_of_pos hds,
      List.takeWhile_cons_of_neg (by rw [hu]; simp), List.append_nil]
  have heq : ds = ds' := by
    rw [← htake hds hu, h, htake hds' hu']
  subst heq
  rw [List.append_cancel_left_eq] at h
  injection h with hu hrest
  exact ⟨rfl, hu, hrest⟩

theorem digit_ne_unit (p : Part) (c : Char) (hc : isDigit c = true) :
    (c == p.unit) = false := by
  rw [beq_eq_false_iff_ne]
  rintro rfl
  rw [isDigit_unit] at hc
  cases hc

theorem unit_stops (p : Part) (rest : List Char) (c : Char)
    (hc : (p.unit :: rest).head? = some c) : isDigit c = false := by
  obtain rfl := Option.some.inj hc
  exact isDigit_unit p

/-- Two texts that begin alike. -/
theorem IsText.unique {t' rest' : List Char} (h : i.IsText t)
    (h' : j.IsText t') (heq : t ++ rest = t' ++ rest') :
    i = j ∧ t = t' ∧ rest = rest' := by
  have hmixed : ∀ {p : Part} {t rest rest' : List Char},
      (part p).IsText t → t ++ rest ≠ 'T' :: rest' := by
    rintro p t rest rest' ⟨ds, n, hds, rfl⟩ heq
    obtain ⟨hne, hall⟩ := digitsVal_eq_some hds
    cases ds with
    | nil => exact hne rfl
    | cons c ds =>
        injection heq with hc _
        have hdigit := hall c List.mem_cons_self
        rw [hc] at hdigit
        revert hdigit
        decide
  cases i with
  | part p =>
      cases j with
      | part q =>
          obtain ⟨ds, n, hds, rfl⟩ := h
          obtain ⟨ds', n', hds', rfl⟩ := h'
          rw [List.append_assoc, List.append_assoc] at heq
          obtain ⟨rfl, hunit, hrest⟩ := run_inj (digitsVal_eq_some hds).2
            (isDigit_unit p) (digitsVal_eq_some hds').2 (isDigit_unit q) heq
          obtain rfl := unit_inj hunit
          exact ⟨rfl, rfl, hrest⟩
      | separator =>
          rw [show t' = ['T'] from h'] at heq
          exact absurd heq (hmixed h)
  | separator =>
      rw [show t = ['T'] from h] at heq ⊢
      cases j with
      | part q => exact absurd heq.symm (hmixed h')
      | separator =>
          rw [show t' = ['T'] from h'] at heq ⊢
          injection heq with _ heq
          exact ⟨rfl, rfl, heq⟩

/-- An item matches its texts, in front of anything. -/
theorem first_text (h : i.IsText t) (rest : List Char) :
    i.regex.first (t ++ rest) = some (i.found t rest) := by
  cases i with
  | part p =>
      obtain ⟨ds, n, hds, rfl⟩ := h
      obtain ⟨hne, hall⟩ := digitsVal_eq_some hds
      have hunit : (.sat (· == p.unit) : Regex Char Part).first
          (p.unit :: rest) = some ⟨[p.unit], fun _ => none, rest⟩ :=
        Regex.first_sat_cons (beq_self_eq_true p.unit)
      show (Regex.group p _).first _ = _
      rw [Regex.first_group, List.append_assoc,
        show [p.unit] ++ rest = p.unit :: rest from rfl,
        Regex.first_plus_sat (digit_ne_unit p) hall (unit_stops p rest),
        if_neg hne, hunit]
      unfold found Regex.Match.capture
      simp only [Option.map_some, Item.part.injEq, eq_comm]
  | separator =>
      rw [show t = ['T'] from h]
      rfl

/-- And nothing else. -/
theorem first_some {m : Regex.Match Char Part}
    (h : i.regex.first s = some m) :
    ∃ t rest, i.IsText t ∧ s = t ++ rest := by
  cases i with
  | part p =>
      have hall : ∀ c ∈ s.takeWhile isDigit, isDigit c = true :=
        fun c hc => List.mem_takeWhile_imp hc
      have hstop : ∀ c, (s.dropWhile isDigit).head? = some c →
          isDigit c = false := by
        intro c hc
        have hnot := List.head?_dropWhile_not isDigit s
        rw [hc] at hnot
        exact hnot
      rw [show (part p).regex = .group p _ from rfl, Regex.first_group,
        ← List.takeWhile_append_dropWhile (p := isDigit) (l := s),
        Regex.first_plus_sat (digit_ne_unit p) hall hstop] at h
      split at h
      · cases h
      · next hne =>
        obtain ⟨m', hm', -⟩ := Option.map_eq_some_iff.mp h
        obtain ⟨m'', hm'', -⟩ := Option.map_eq_some_iff.mp hm'
        obtain ⟨c, rest, hrest, hc⟩ := Regex.first_sat_some hm''
        obtain rfl := beq_iff_eq.mp hc
        obtain ⟨n, hn⟩ := exists_digitsVal hne hall
        refine ⟨_, rest, ⟨_, n, hn, rfl⟩, ?_⟩
        rw [List.append_assoc, List.singleton_append, ← hrest,
          List.takeWhile_append_dropWhile]
  | separator =>
      obtain ⟨c, rest, rfl, hc⟩ := Regex.first_sat_some h
      obtain rfl := beq_iff_eq.mp hc
      exact ⟨['T'], rest, rfl, rfl⟩

theorem first_none (h : i.regex.first s = none) (ht : i.IsText t) :
    s ≠ t ++ rest := by
  rintro rfl
  rw [first_text ht] at h
  cases h

end Item

-- ==================================================== the longest front

/-- Each item is left out or written with a text of its own. -/
def Written (w : Item → List Char) : Prop := ∀ i, w i = [] ∨ i.IsText (w i)

/-- A text that is not empty begins with one of its items. -/
theorem flatMap_front {w : Item → List Char} (hw : Written w) :
    ∀ {is : List Item}, is.flatMap w ≠ [] →
      ∃ j ∈ is, j.IsText (w j) ∧ ∃ more, is.flatMap w = w j ++ more := by
  intro is
  induction is with
  | nil => intro h; exact absurd rfl h
  | cons i is ih =>
      intro hne
      rw [List.flatMap_cons] at hne ⊢
      rcases hw i with hi | hi
      · rw [hi, List.nil_append] at hne ⊢
        obtain ⟨j, hj, htext, hmore⟩ := ih hne
        exact ⟨j, List.mem_cons_of_mem i hj, htext, hmore⟩
      · exact ⟨i, List.mem_cons_self, hi, _, rfl⟩

/-- An item that comes earlier is not what a text begins with. -/
theorem flatMap_ne {w : Item → List Char} (hw : Written w) {i : Item}
    {is : List Item} (hi : i ∉ is) (ht : i.IsText t)
    (h : is.flatMap w ++ s = t ++ rest) : is.flatMap w = [] := by
  by_contra hne
  obtain ⟨j, hj, htext, more, hmore⟩ := flatMap_front hw hne
  rw [hmore, List.append_assoc] at h
  obtain ⟨rfl, -, -⟩ := htext.unique ht h
  exact hi hj

/-- A text is written in one way. -/
theorem flatMap_inj {w w' : Item → List Char} (hw : Written w)
    (hw' : Written w') : ∀ {is : List Item}, is.Nodup →
      is.flatMap w = is.flatMap w' → ∀ i ∈ is, w i = w' i := by
  intro is
  induction is with
  | nil => intro _ _ i hi; cases hi
  | cons i is ih =>
      intro hnd h
      obtain ⟨hi, hnd⟩ := List.nodup_cons.mp hnd
      rw [List.flatMap_cons, List.flatMap_cons] at h
      have hboth : w i = w' i ∧ is.flatMap w = is.flatMap w' := by
        rcases hw i with hnil | htext
        · rcases hw' i with hnil' | htext'
          · rw [hnil, hnil'] at h
            exact ⟨hnil.trans hnil'.symm, h⟩
          · rw [hnil, List.nil_append] at h
            have hempty := @flatMap_ne [] _ _ w hw i is hi htext'
              (by rw [List.append_nil, h])
            rw [hempty] at h
            exact absurd (List.append_eq_nil_iff.mp h.symm).1 htext'.ne_nil
        · rcases hw' i with hnil' | htext'
          · rw [hnil', List.nil_append] at h
            have hempty := @flatMap_ne [] _ _ w' hw' i is hi htext
              (by rw [List.append_nil, h])
            rw [hempty] at h
            exact absurd (List.append_eq_nil_iff.mp h).1 htext.ne_nil
          · obtain ⟨-, hsame, hrest⟩ := htext.unique htext' h
            exact ⟨hsame, hrest⟩
      intro j hj
      rcases List.mem_cons.mp hj with rfl | hj
      · exact hboth.1
      · exact ih hnd hboth.2 j hj

/-- What the pattern takes of a string: a text of its items, no shorter than
any other front of the string, with the groups noted. -/
structure Takes (is : List Item) (s : List Char)
    (m : Regex.Match Char Part) (w : Item → List Char) : Prop where
  written : Written w
  absent : ∀ i, i ∉ is → w i = []
  text : m.text = is.flatMap w
  rest : s = is.flatMap w ++ m.rest
  groups : ∀ p, m.groups p
    = if w (.part p) = [] then none else some (w (.part p))
  longest : ∀ w', Written w' → ∀ rest', s = is.flatMap w' ++ rest' →
    (is.flatMap w').length ≤ (is.flatMap w).length

/-- The item that comes first is there. -/
theorem Takes.present {i : Item} {is : List Item} {w : Item → List Char}
    {m : Regex.Match Char Part} (h : Takes is rest m w) (hi : i ∉ is)
    (ht : i.IsText t) :
    Takes (i :: is) (t ++ rest) ((i.found t rest).append m)
      (Function.update w i t) := by
  have hself : Function.update w i t i = t := Function.update_self ..
  have hother : ∀ j, j ≠ i → Function.update w i t j = w j :=
    fun j hj => Function.update_of_ne hj ..
  have htail : is.flatMap (Function.update w i t) = is.flatMap w := by
    refine List.flatMap_congr fun j hj => hother j ?_
    rintro rfl
    exact hi hj
  have hwi : w i = [] := h.absent i hi
  refine ⟨fun j => ?_, fun j hj => ?_, ?_, ?_, fun p => ?_, ?_⟩
  · by_cases hj : j = i
    · subst hj
      rw [hself]
      exact Or.inr ht
    · rw [hother j hj]
      exact h.written j
  · rw [List.mem_cons, not_or] at hj
    rw [hother j hj.1]
    exact h.absent j hj.2
  · rw [List.flatMap_cons, hself, htail, ← h.text]
    rfl
  · rw [List.flatMap_cons, hself, htail, List.append_assoc]
    exact congrArg _ h.rest
  · show (m.groups p).or _ = _
    rw [h.groups p]
    by_cases hp : i = .part p
    · subst hp
      rw [hself, hwi, if_pos rfl, if_neg ht.ne_nil]
      exact if_pos rfl
    · rw [hother _ (Ne.symm hp)]
      split
      · exact if_neg hp
      · rfl
  · intro w' hw' rest' hs
    rw [List.flatMap_cons, List.flatMap_cons, hself, htail,
      List.length_append, List.length_append]
    rw [List.flatMap_cons] at hs
    rcases hw' i with hnil | htext
    · rw [hnil, List.nil_append] at hs
      rw [hnil, flatMap_ne hw' hi ht hs.symm]
      exact Nat.zero_le _
    · rw [List.append_assoc] at hs
      obtain ⟨-, hsame, hrest⟩ := ht.unique htext hs
      have hle := h.longest w' hw' rest' hrest
      rw [← hsame]
      omega

/-- It is not there. -/
theorem Takes.missing {i : Item} {is : List Item} {w : Item → List Char}
    {m : Regex.Match Char Part} (h : Takes is s m w) (hi : i ∉ is)
    (hnone : i.regex.first s = none) :
    Takes (i :: is) s ((Regex.Match.nothing s).append m) w := by
  have hwi : w i = [] := h.absent i hi
  have hcons : (i :: is).flatMap w = is.flatMap w := by
    rw [List.flatMap_cons, hwi, List.nil_append]
  refine ⟨h.written, fun j hj => ?_, ?_, ?_, fun p => ?_, ?_⟩
  · rw [List.mem_cons, not_or] at hj
    exact h.absent j hj.2
  · rw [hcons]
    exact h.text
  · rw [hcons]
    exact h.rest
  · show (m.groups p).or none = _
    rw [Option.or_none, h.groups p]
  · intro w' hw' rest' hs
    rw [hcons]
    rw [List.flatMap_cons] at hs ⊢
    rcases hw' i with hnil | htext
    · rw [hnil, List.nil_append] at hs ⊢
      exact h.longest w' hw' rest' hs
    · rw [List.append_assoc] at hs
      exact absurd hs (Item.first_none hnone htext)

theorem greedy_items (is : List Item) (hnd : is.Nodup) :
    ∀ s : List Char,
      ∃ w, Takes is s (Regex.greedy (is.map Item.regex) s) w := by
  induction is with
  | nil =>
      intro s
      refine ⟨fun _ => [], fun _ => Or.inl rfl, fun _ _ => rfl, rfl, rfl,
        fun _ => rfl, fun _ _ _ _ => Nat.le_refl _⟩
  | cons i is ih =>
      intro s
      obtain ⟨hi, hnd⟩ := List.nodup_cons.mp hnd
      show ∃ w, Takes (i :: is) s
        (((i.regex.first s).getD (.nothing s)).append (Regex.greedy
          (is.map Item.regex) ((i.regex.first s).getD (.nothing s)).rest)) w
      cases hfirst : i.regex.first s with
      | none =>
          obtain ⟨w, hw⟩ := ih hnd s
          exact ⟨w, hw.missing hi hfirst⟩
      | some m =>
          obtain ⟨t, rest, ht, rfl⟩ := Item.first_some hfirst
          obtain rfl := Option.some.inj
            ((Item.first_text ht rest).symm.trans hfirst)
          obtain ⟨w, hw⟩ := ih hnd rest
          exact ⟨_, hw.present hi ht⟩

-- ============================================================ durations

/-- The numbers `n` of the parts, written down: every part that is not
zero and any of the others, with any number of leading zeros. -/
structure Renders (n : Part → Nat) (w : Item → List Char) : Prop where
  part : ∀ p, (w (.part p) = [] ∧ n p = 0)
    ∨ ∃ ds, digitsVal ds = some (n p) ∧ w (.part p) = ds ++ [p.unit]
  separator : w .separator = [] ∨ w .separator = ['T']

/-- The string. -/
def durationText (w : Item → List Char) : List Char := items.flatMap w

/-- A front of `s` that is a duration, and none that is one is longer. -/
structure LongestFront (s : List Char) (n : Part → Nat)
    (w : Item → List Char) : Prop where
  renders : Renders n w
  front : ∃ rest, s = durationText w ++ rest
  longest : ∀ n' w' rest', Renders n' w' → s = durationText w' ++ rest' →
    (durationText w').length ≤ (durationText w).length

/-- The parts of a duration. -/
def Part.all : List Part :=
  [.years, .months, .days, .hours, .minutes, .seconds]

/-- A part in nanoseconds: the year has 365 days and the month 30. -/
def Part.nanoseconds : Part → Nat
  | years => 365 * 24 * 3600 * 10 ^ 9
  | months => 30 * 24 * 3600 * 10 ^ 9
  | days => 24 * 3600 * 10 ^ 9
  | hours => 3600 * 10 ^ 9
  | minutes => 60 * 10 ^ 9
  | seconds => 10 ^ 9

def totalNanoseconds (n : Part → Nat) : Nat :=
  (Part.all.map fun p => n p * p.nanoseconds).sum

/-- The sum of what counts. -/
def countedNanoseconds (n : Part → Nat) : Nat :=
  totalNanoseconds fun p => usable (n p)

theorem sum_parts (f : Part → Nat) :
    (Part.all.map f).sum = f .years + f .months + f .days + f .hours
      + f .minutes + f .seconds := by
  simp only [Part.all, List.map_cons, List.map_nil, List.sum_cons,
    List.sum_nil, Nat.add_zero, Nat.add_assoc]

theorem Renders.written {n : Part → Nat} {w : Item → List Char}
    (h : Renders n w) : Written w := by
  intro i
  cases i with
  | part p =>
      rcases h.part p with ⟨hnil, -⟩ | ⟨ds, hds, htext⟩
      · exact Or.inl hnil
      · exact Or.inr ⟨ds, n p, hds, htext⟩
  | separator => exact h.separator

theorem Written.renders {w : Item → List Char} (h : Written w) :
    ∃ n, Renders n w := by
  have hpart : ∀ p, ∃ n, (w (.part p) = [] ∧ n = 0)
      ∨ ∃ ds, digitsVal ds = some n ∧ w (.part p) = ds ++ [p.unit] := by
    intro p
    rcases h (.part p) with hnil | ⟨ds, n, hds, htext⟩
    · exact ⟨0, Or.inl ⟨hnil, rfl⟩⟩
    · exact ⟨n, Or.inr ⟨ds, hds, htext⟩⟩
  obtain ⟨n, hn⟩ := Classical.skolem.mp hpart
  exact ⟨n, hn, h .separator⟩

/-- What is written tells the numbers. -/
theorem Renders.unique {n n' : Part → Nat} {w : Item → List Char}
    (h : Renders n w) (h' : Renders n' w) : n = n' := by
  funext p
  rcases h.part p with ⟨hnil, hzero⟩ | ⟨ds, hds, htext⟩
  · rcases h'.part p with ⟨-, hzero'⟩ | ⟨ds', -, htext'⟩
    · rw [hzero, hzero']
    · rw [hnil] at htext'
      simp at htext'
  · rcases h'.part p with ⟨hnil', -⟩ | ⟨ds', hds', htext'⟩
    · rw [hnil'] at htext
      simp at htext
    · rw [htext] at htext'
      obtain rfl := List.append_cancel_right htext'
      exact Option.some.inj (hds.symm.trans hds')

theorem mem_items (i : Item) : i ∈ items := by
  cases i with
  | part p => cases p <;> decide
  | separator => decide

/-- Nothing written, nothing counted. -/
theorem Renders.zero {n : Part → Nat} {w : Item → List Char}
    (h : Renders n w) (hnil : durationText w = []) : n = fun _ => 0 := by
  refine h.unique ⟨fun p => Or.inl ⟨?_, rfl⟩, h.separator⟩
  exact List.flatMap_eq_nil_iff.mp hnil _ (mem_items _)

/-- The pattern takes the longest front. -/
theorem takes_longest (s : List Char) :
    ∃ m w n, durationRegex.search s = some m ∧ Takes items s m w
      ∧ LongestFront s n w := by
  obtain ⟨w, hw⟩ := greedy_items items (by decide) s
  obtain ⟨n, hn⟩ := hw.written.renders
  refine ⟨_, w, n, Regex.search_of_first (Regex.first_concat_opt
    (items.map Item.regex) s), hw, hn, ⟨_, hw.rest⟩, ?_⟩
  intro n' w' rest' hn' hs
  exact hw.longest w' hn'.written rest' hs

/-- There is one longest front. -/
theorem LongestFront.unique {n n' : Part → Nat} {w w' : Item → List Char}
    (h : LongestFront s n w) (h' : LongestFront s n' w') : w = w' := by
  obtain ⟨rest, hrest⟩ := h.front
  obtain ⟨rest', hrest'⟩ := h'.front
  have hlen : (durationText w).length = (durationText w').length :=
    Nat.le_antisymm (h'.longest n w rest h.renders hrest)
      (h.longest n' w' rest' h'.renders hrest')
  have htext := (List.append_inj (hrest.symm.trans hrest') hlen).1
  funext i
  exact flatMap_inj h.renders.written h'.renders.written (by decide) htext i
    (mem_items i)

-- ============================================================ integers

/-- The string is a decimal integer. -/
def IsDecimal (s : List Char) (k : Int) : Prop :=
  ∃ ds n, digitsVal ds = some n
    ∧ (s = ds ∧ k = n ∨ s = '+' :: ds ∧ k = n ∨ s = '-' :: ds ∧ k = -n)

/-- The nearest integer of 64 bits. -/
def clamp64 (k : Int) : Int := max (-2 ^ 63) (min k (2 ^ 63 - 1))

theorem isDecimal_iff_splitSign :
    IsDecimal s k ↔ ∃ n, digitsVal (splitSign s).2 = some n
      ∧ k = if (splitSign s).1 then -(n : Int) else n := by
  constructor
  · rintro ⟨ds, n, hds, hcase⟩
    rcases hcase with ⟨rfl, rfl⟩ | ⟨rfl, rfl⟩ | ⟨rfl, rfl⟩
    · rw [splitSign_digits hds]
      exact ⟨n, hds, rfl⟩
    · exact ⟨n, hds, rfl⟩
    · exact ⟨n, hds, rfl⟩
  · rintro ⟨n, hds, rfl⟩
    refine ⟨_, n, hds, ?_⟩
    unfold splitSign
    split
    · exact Or.inr (Or.inl ⟨rfl, rfl⟩)
    · exact Or.inr (Or.inr ⟨rfl, rfl⟩)
    · exact Or.inl ⟨rfl, rfl⟩

/-- The string begins with a number of more than 64 bits, with a minus sign
before it (`neg`) or without one. -/
def BeginsOverlong (s : List Char) (neg : Bool) : Prop :=
  ∃ ds rest n, digitsVal ds = some n ∧ 2 ^ 64 ≤ n
    ∧ (s = ds ++ rest ∧ neg = false ∨ s = '+' :: (ds ++ rest) ∧ neg = false
      ∨ s = '-' :: (ds ++ rest) ∧ neg = true)

theorem overlong_iff_front :
    2 ^ 64 ≤ frontVal s ↔ ∃ ds rest n, digitsVal ds = some n
      ∧ 2 ^ 64 ≤ n ∧ s = ds ++ rest := by
  constructor
  · intro h
    have hne : s.takeWhile isDigit ≠ [] := by
      intro hnil
      rw [frontVal, hnil] at h
      exact absurd h (by decide)
    have hall : ∀ c ∈ s.takeWhile isDigit, isDigit c = true :=
      fun _ => List.mem_takeWhile_imp
    obtain ⟨n, hn⟩ := exists_digitsVal hne hall
    refine ⟨_, s.dropWhile isDigit, n, hn, ?_,
      List.takeWhile_append_dropWhile.symm⟩
    rw [digitsVal_eq_frontVal hn, frontVal, takeWhile_digits hall]
    exact h
  · rintro ⟨ds, rest, n, hds, hn, rfl⟩
    rw [digitsVal_eq_frontVal hds] at hn
    exact Nat.le_trans hn (frontVal_le_append (digitsVal_eq_some hds).2 rest)

theorem beginsOverlong_iff {neg : Bool} :
    BeginsOverlong s neg
      ↔ 2 ^ 64 ≤ frontVal (splitSign s).2 ∧ (splitSign s).1 = neg := by
  rw [overlong_iff_front]
  constructor
  · rintro ⟨ds, rest, n, hds, hn, hcase⟩
    rcases hcase with ⟨rfl, rfl⟩ | ⟨rfl, rfl⟩ | ⟨rfl, rfl⟩
    · rw [splitSign_append hds]
      exact ⟨⟨ds, rest, n, hds, hn, rfl⟩, rfl⟩
    · exact ⟨⟨ds, rest, n, hds, hn, rfl⟩, rfl⟩
    · exact ⟨⟨ds, rest, n, hds, hn, rfl⟩, rfl⟩
  · rintro ⟨⟨ds, rest, n, hds, hn, hsplit⟩, rfl⟩
    refine ⟨ds, rest, n, hds, hn, ?_⟩
    unfold splitSign at hsplit ⊢
    split at hsplit
    · exact Or.inr (Or.inl ⟨congrArg _ hsplit, rfl⟩)
    · exact Or.inr (Or.inr ⟨congrArg _ hsplit, rfl⟩)
    · exact Or.inl ⟨hsplit, rfl⟩

theorem atoi_overlong {neg : Bool} (h : BeginsOverlong s neg) :
    (atoi s).1 = if neg then -2 ^ 63 else 2 ^ 63 - 1 := by
  obtain ⟨hfront, rfl⟩ := beginsOverlong_iff.mp h
  rw [atoi_eq (parseUint_of_overlong hfront)]
  cases (splitSign s).1 with
  | true => rfl
  | false => rfl

theorem atoi_decimal (h : IsDecimal s k) : (atoi s).1 = clamp64 k := by
  obtain ⟨n, hds, rfl⟩ := isDecimal_iff_splitSign.mp h
  have hparse := parseUint_of_digits hds
  by_cases hn : n < 2 ^ 64
  · rw [if_pos hn] at hparse
    rw [atoi_eq hparse, if_neg nofun]
    unfold clamp64
    cases (splitSign s).1 with
    | true =>
        simp only [if_true]
        split
        · show -(n : Int) = _
          omega
        · show (-2 ^ 63 : Int) = _
          omega
    | false =>
        simp only [Bool.false_eq_true, if_false]
        split
        · show (n : Int) = _
          omega
        · show (2 ^ 63 - 1 : Int) = _
          omega
  · rw [if_neg hn] at hparse
    rw [atoi_eq hparse, if_neg (by decide)]
    unfold clamp64
    cases (splitSign s).1 with
    | true =>
        show (-2 ^ 63 : Int) = max _ (min (-(n : Int)) _)
        omega
    | false =>
        show (2 ^ 63 - 1 : Int) = max _ (min (n : Int) _)
        omega

/-- What is no integer and does not begin with too many digits. -/
theorem atoi_other (h : ∀ k, ¬ IsDecimal s k)
    (hno : ∀ neg, ¬ BeginsOverlong s neg) : (atoi s).1 = 0 := by
  have hnone : digitsVal (splitSign s).2 = none := by
    cases hval : digitsVal (splitSign s).2 with
    | none => rfl
    | some n =>
        exact absurd (isDecimal_iff_splitSign.mpr ⟨n, hval, rfl⟩) (h _)
  have hfront : ¬ 2 ^ 64 ≤ frontVal (splitSign s).2 :=
    fun hle => hno _ (beginsOverlong_iff.mpr ⟨hle, rfl⟩)
  rw [atoi_eq (parseUint_of_malformed hnone hfront)]
  rfl

theorem atoi_range (s : List Char) :
    -2 ^ 63 ≤ (atoi s).1 ∧ (atoi s).1 < 2 ^ 63 := by
  by_cases hover : ∃ neg, BeginsOverlong s neg
  · obtain ⟨neg, hneg⟩ := hover
    rw [atoi_overlong hneg]
    cases neg with
    | true => decide
    | false => decide
  · by_cases h : ∃ k, IsDecimal s k
    · obtain ⟨k, hk⟩ := h
      rw [atoi_decimal hk]
      unfold clamp64
      omega
    · rw [atoi_other (fun k hk => h ⟨k, hk⟩)
        fun neg hneg => hover ⟨neg, hneg⟩]
      decide

/-- There is no letter in an integer. -/
theorem IsDecimal.no_letter (h : IsDecimal s k) :
    ∀ c ∈ s, isDigit c = true ∨ c = '+' ∨ c = '-' := by
  obtain ⟨ds, n, hds, hcase⟩ := h
  have hall := (digitsVal_eq_some hds).2
  intro c hc
  rcases hcase with ⟨rfl, -⟩ | ⟨rfl, -⟩ | ⟨rfl, -⟩
  · exact Or.inl (hall c hc)
  · rcases List.mem_cons.mp hc with rfl | hc
    · exact Or.inr (Or.inl rfl)
    · exact Or.inl (hall c hc)
  · rcases List.mem_cons.mp hc with rfl | hc
    · exact Or.inr (Or.inr rfl)
    · exact Or.inl (hall c hc)

/-- There is one in every item. -/
theorem Item.IsText.letter {i : Item} (h : i.IsText t) :
    ∃ c ∈ t, isDigit c = false ∧ c ≠ '+' ∧ c ≠ '-' := by
  cases i with
  | part p =>
      obtain ⟨ds, n, -, rfl⟩ := h
      refine ⟨p.unit, by simp, Item.isDigit_unit p, ?_⟩
      cases p <;> decide
  | separator =>
      rw [show t = ['T'] from h]
      exact ⟨'T', by simp, by decide, by decide, by decide⟩

/-- So no front of an integer is a duration but the empty one. -/
theorem IsDecimal.front_nil {w : Item → List Char} (h : IsDecimal s k)
    (hw : Written w) (hs : s = durationText w ++ rest) :
    durationText w = [] := by
  by_contra hne
  obtain ⟨j, -, htext, more, hmore⟩ := flatMap_front hw hne
  obtain ⟨c, hc, hdigit, hplus, hminus⟩ := htext.letter
  have hmem : c ∈ s := by
    rw [hs, show durationText w = w j ++ more from hmore]
    simp [hc]
  rcases h.no_letter c hmem with hd | hp | hm
  · rw [hdigit] at hd
    cases hd
  · exact hplus hp
  · exact hminus hm

-- ============================================================ what is read

/-- The nanoseconds a string is read as, before they are wrapped around. -/
inductive ReadsAs (s : List Char) : Int → Prop
  | integer {k : Int} (h : IsDecimal s k) : ReadsAs s (clamp64 k * 10 ^ 9)
  /-- No part at the front, but a number that is too large. -/
  | overlong {n : Part → Nat} {w : Item → List Char} {neg : Bool}
      (hint : ∀ k, ¬ IsDecimal s k) (h : LongestFront s n w)
      (hnil : durationText w = []) (hover : BeginsOverlong s neg) :
      ReadsAs s ((if neg then -2 ^ 63 else 2 ^ 63 - 1) * 10 ^ 9)
  | parts {n : Part → Nat} {w : Item → List Char}
      (hint : ∀ k, ¬ IsDecimal s k) (h : LongestFront s n w)
      (hno : durationText w = [] → ∀ neg, ¬ BeginsOverlong s neg) :
      ReadsAs s (countedNanoseconds n)

theorem exists_readsAs (s : List Char) : ∃ v, ReadsAs s v := by
  by_cases h : ∃ k, IsDecimal s k
  · obtain ⟨k, hk⟩ := h
    exact ⟨_, .integer hk⟩
  · have hint : ∀ k, ¬ IsDecimal s k := fun k hk => h ⟨k, hk⟩
    obtain ⟨m, w, n, -, -, hlong⟩ := takes_longest s
    by_cases hover : durationText w = [] ∧ ∃ neg, BeginsOverlong s neg
    · obtain ⟨hnil, neg, hneg⟩ := hover
      exact ⟨_, .overlong hint hlong hnil hneg⟩
    · exact ⟨_, .parts hint hlong
        fun hnil neg hneg => hover ⟨hnil, neg, hneg⟩⟩

/-- The sum of the source, in wrapped-around nanoseconds. -/
theorem toInt_sum (years months days hours minutes seconds : Int64) :
    (years * 24 * 365 * hour + months * 30 * 24 * hour + days * 24 * hour
        + hours * hour + minutes * minute + seconds * second).toInt
      = (years.toInt * Part.nanoseconds .years
        + months.toInt * Part.nanoseconds .months
        + days.toInt * Part.nanoseconds .days
        + hours.toInt * Part.nanoseconds .hours
        + minutes.toInt * Part.nanoseconds .minutes
        + seconds.toInt * Part.nanoseconds .seconds).bmod (2 ^ 64) := by
  have hhour : hour.toInt = 3600000000000 := by decide +kernel
  have hminute : minute.toInt = 60000000000 := by decide +kernel
  have hsecond : second.toInt = 1000000000 := by decide +kernel
  have h24 : (24 : Int64).toInt = 24 := by decide +kernel
  have h365 : (365 : Int64).toInt = 365 := by decide +kernel
  have h30 : (30 : Int64).toInt = 30 := by decide +kernel
  simp only [Int64.toInt_add, Int64.toInt_mul, hhour, hminute, hsecond, h24,
    h365, h30, Int.bmod_add_bmod, Int.add_bmod_bmod, Int.bmod_mul_bmod]
  congr 1
  simp only [Part.nanoseconds]
  omega

theorem parseInt64_part {n : Part → Nat} {w : Item → List Char}
    (h : Renders n w) (p : Part) :
    (parseInt64 (w (.part p))).toInt = usable (n p) := by
  rcases h.part p with ⟨hnil, hzero⟩ | ⟨ds, hds, htext⟩
  · rw [hnil, hzero]
    rfl
  · rw [htext, parseInt64_text hds]

/-- The numbers a string is read as, and the sum it is read as. -/
theorem parseDuration_sum (str : String) :
    ∃ n w, LongestFront str.toList n w
      ∧ (parseDuration (some str)).toInt
        = ((if durationText w = [] then (atoi str.toList).1 * 10 ^ 9
            else countedNanoseconds n) : Int).bmod
          (2 ^ 64) := by
  obtain ⟨m, w, n, hsearch, htakes, hlong⟩ := takes_longest str.toList
  have hgroup : ∀ p, m.group p = w (.part p) := by
    intro p
    unfold Regex.Match.group
    rw [htakes.groups p]
    split
    · next hnil => exact hnil.symm
    · rfl
  have hpart : ∀ p, (parseInt64 (m.group p)).toInt = usable (n p) := by
    intro p
    rw [hgroup p]
    exact parseInt64_part hlong.renders p
  have htext : m.text = durationText w := htakes.text
  refine ⟨n, w, hlong, ?_⟩
  unfold parseDuration
  dsimp only
  rw [hsearch, Option.getD_some, toInt_sum, hpart, hpart, hpart, hpart,
    hpart, htext]
  by_cases hnil : durationText w = []
  · rw [if_pos hnil, if_pos hnil, hlong.renders.zero hnil,
      Int64.toInt_ofInt_of_le (atoi_range _).1 (atoi_range _).2]
    simp [usable, Part.nanoseconds]
  · rw [if_neg hnil, if_neg hnil, hpart]
    unfold countedNanoseconds totalNanoseconds
    rw [sum_parts]
    simp only [Int.natCast_add, Int.natCast_mul]

/-- All `parseDuration` does. -/
theorem parseDuration_readsAs {str : String} {v : Int}
    (h : ReadsAs str.toList v) :
    (parseDuration (some str)).toInt = v.bmod (2 ^ 64) := by
  obtain ⟨n, w, hlong, hsum⟩ := parseDuration_sum str
  rw [hsum]
  cases h with
  | integer hk =>
      obtain ⟨rest, hrest⟩ := hlong.front
      rw [if_pos (hk.front_nil hlong.renders.written hrest),
        atoi_decimal hk]
  | overlong hint hlong' hnil hover =>
      obtain rfl := hlong.unique hlong'
      rw [if_pos hnil, atoi_overlong hover]
  | parts hint hlong' hno =>
      obtain rfl := hlong.unique hlong'
      obtain rfl := hlong.renders.unique hlong'.renders
      split
      · next hnil =>
        rw [atoi_other hint (hno hnil), hlong.renders.zero hnil]
        rfl
      · rfl

-- ========================================================== round trips

/-- At least one part is written. -/
def Counts (w : Item → List Char) : Prop := ∃ p, w (.part p) ≠ []

theorem Counts.ne_nil {w : Item → List Char} (h : Counts w) :
    durationText w ≠ [] := by
  obtain ⟨p, hp⟩ := h
  exact fun hnil => hp (List.flatMap_eq_nil_iff.mp hnil _ (mem_items _))

/-- A duration is its own longest front. -/
theorem Renders.longest {n : Part → Nat} {w : Item → List Char}
    (h : Renders n w) : LongestFront (durationText w) n w := by
  refine ⟨h, ⟨[], (List.append_nil _).symm⟩, fun n' w' rest' _ heq => ?_⟩
  have hlen := congrArg List.length heq
  rw [List.length_append] at hlen
  omega

theorem Renders.readsAs {n : Part → Nat} {w : Item → List Char}
    (h : Renders n w) (hw : Counts w) :
    ReadsAs (durationText w) (countedNanoseconds n) := by
  refine .parts (fun k hk => hw.ne_nil ?_) h.longest
    fun hnil => absurd hnil hw.ne_nil
  exact hk.front_nil h.written (List.append_nil _).symm

theorem Renders.parse {n : Part → Nat} {w : Item → List Char}
    (h : Renders n w) (hw : Counts w) :
    (parseDuration (some (String.ofList (durationText w)))).toInt
      = (countedNanoseconds n : Int).bmod (2 ^ 64) := by
  refine parseDuration_readsAs ?_
  rw [String.toList_ofList]
  exact h.readsAs hw

theorem part_le_sum (f : Part → Nat) (p : Part) :
    f p ≤ (Part.all.map f).sum := by
  rw [sum_parts]
  cases p <;> omega

/-- Every part of a sum that fits counts. -/
theorem countedNanoseconds_eq {n : Part → Nat}
    (h : totalNanoseconds n < 2 ^ 63) :
    countedNanoseconds n = totalNanoseconds n := by
  have husable : ∀ p, usable (n p) = n p := by
    intro p
    have hpos : 0 < p.nanoseconds := by cases p <;> decide
    have hle : n p * p.nanoseconds ≤ totalNanoseconds n :=
      part_le_sum (fun p => n p * p.nanoseconds) p
    have hmul := Nat.le_mul_of_pos_right (n p) hpos
    exact if_pos (by omega)
  unfold countedNanoseconds
  simp only [husable]

theorem bmod_of_fits {v : Int} (hlow : -2 ^ 63 ≤ v) (hhigh : v < 2 ^ 63) :
    v.bmod (2 ^ 64) = v :=
  Int.bmod_eq_of_le (by omega) (by omega)

/-- `parseDuration` reads what was written: the numbers of the parts in any
rendering with one part at least, if their sum fits 64 bits, and any decimal
integer as seconds, if those fit. -/
theorem parseDuration_inverts :
    (∀ n w, Renders n w → Counts w → totalNanoseconds n < 2 ^ 63 →
      (parseDuration (some (String.ofList (durationText w)))).toInt
        = totalNanoseconds n)
    ∧ ∀ s k, IsDecimal s k → -2 ^ 63 ≤ k * 10 ^ 9 → k * 10 ^ 9 < 2 ^ 63 →
      (parseDuration (some (String.ofList s))).toInt = k * 10 ^ 9 := by
  constructor
  · intro n w hn hw hfits
    rw [hn.parse hw, countedNanoseconds_eq hfits]
    exact bmod_of_fits (by omega) (by omega)
  · intro s k hk hlow hhigh
    have hclamp : clamp64 k = k := by
      unfold clamp64
      omega
    have hreads : ReadsAs (String.ofList s).toList (k * 10 ^ 9) := by
      rw [String.toList_ofList]
      exact hclamp ▸ ReadsAs.integer hk
    rw [parseDuration_readsAs hreads]
    exact bmod_of_fits hlow hhigh

/-- One hour and a half, and no other part. -/
def Part.hourAndAHalf : Part → Nat
  | hours => 1
  | minutes => 30
  | years | months | days | seconds => 0

/-- The same, with a `T` and a leading zero. -/
def Item.hourAndAHalf : Item → List Char
  | .separator => ['T']
  | .part .hours => ['0', '1', 'h']
  | .part .minutes => ['3', '0', 'm']
  | .part _ => []

theorem renders_hourAndAHalf :
    Renders Part.hourAndAHalf Item.hourAndAHalf where
  part p := by
    cases p with
    | hours => exact Or.inr ⟨['0', '1'], by decide, rfl⟩
    | minutes => exact Or.inr ⟨['3', '0'], by decide, rfl⟩
    | years | months | days | seconds => exact Or.inl ⟨rfl, rfl⟩
  separator := Or.inr rfl

theorem parseDuration_inverts_hourAndAHalf :
    (parseDuration (some "T01h30m")).toInt = 90 * 60 * 10 ^ 9
      ∧ (parseDuration (some "-5")).toInt = -5 * 10 ^ 9 :=
  ⟨parseDuration_inverts.1 Part.hourAndAHalf Item.hourAndAHalf
      renders_hourAndAHalf ⟨.hours, by decide⟩ (by decide),
    parseDuration_inverts.2 ['-', '5'] (-5)
      ⟨['5'], 5, by decide, Or.inr (Or.inr ⟨rfl, rfl⟩)⟩ (by decide)
      (by decide)⟩

example : parseDuration (some "1Y02M3DT04h5m6s")
    = ((365 + 2 * 30 + 3) * 24 + 4) * hour + 5 * minute + 6 * second := by
  decide +kernel

-- ========================================================== other strings

/-- The string is a duration, as a whole. -/
def WellFormed (s : List Char) : Prop :=
  ∃ n w, Renders n w ∧ Counts w ∧ s = durationText w

/-- The string is taken for zero, and the callers use their defaults. -/
structure Rejects (str : String) : Prop where
  zero : parseDuration (some str) = 0
  timeout : commandTimeout (some str) = 10 * minute
  interval : reconcileInterval (some str) = minute

theorem rejects_iff {str : String} :
    Rejects str ↔ (parseDuration (some str)).toInt = 0 := by
  constructor
  · intro h
    rw [h.zero]
    rfl
  · intro h
    have hzero : parseDuration (some str) = 0 := Int64.toInt_inj.mp h
    refine ⟨hzero, ?_, ?_⟩
    · unfold commandTimeout
      rw [hzero]
      rfl
    · unfold reconcileInterval
      rw [hzero]
      rfl

theorem bmod_eq_zero_iff {v : Nat} :
    (v : Int).bmod (2 ^ 64) = 0 ↔ v % 2 ^ 64 = 0 := by
  rw [Int.bmod_def]
  split <;> omega

/-- A string that is neither a duration nor an integer, by its longest front
that is a duration. -/
theorem rejects_iff_front {str : String} {n : Part → Nat}
    {w : Item → List Char} (hint : ∀ k, ¬ IsDecimal str.toList k)
    (hlong : LongestFront str.toList n w) :
    Rejects str ↔ countedNanoseconds n % 2 ^ 64 = 0
      ∧ (durationText w = [] → ¬ BeginsOverlong str.toList false) := by
  rw [rejects_iff]
  by_cases hover : durationText w = [] ∧ ∃ neg, BeginsOverlong str.toList neg
  · obtain ⟨hnil, neg, hneg⟩ := hover
    have hzero : countedNanoseconds n = 0 := by
      rw [hlong.renders.zero hnil]
      rfl
    rw [parseDuration_readsAs (.overlong hint hlong hnil hneg), hzero]
    cases neg with
    | true =>
        -- the smallest number of seconds goes round to zero
        refine iff_of_true (by decide) ⟨rfl, fun _ hno => ?_⟩
        have hsign := (beginsOverlong_iff.mp hneg).2
        rw [(beginsOverlong_iff.mp hno).2] at hsign
        cases hsign
    | false => exact iff_of_false (by decide) fun h => h.2 hnil hneg
  · have hno : durationText w = [] → ∀ neg, ¬ BeginsOverlong str.toList neg :=
      fun hnil neg hneg => hover ⟨hnil, neg, hneg⟩
    rw [parseDuration_readsAs (.parts hint hlong hno), bmod_eq_zero_iff]
    exact (and_iff_left fun hnil => hno hnil false).symm

/-- A string that is neither a duration nor an integer is rejected exactly
if its longest front that is a duration counts nothing, up to a multiple
of 64 bits, and, where that front is empty, the string does not begin with
a number of more than 64 bits without a minus sign. -/
theorem parseDuration_rejects_iff (str : String) :
    (¬ WellFormed str.toList → (∀ k, ¬ IsDecimal str.toList k) →
        Rejects str)
      ↔ WellFormed str.toList ∨ (∃ k, IsDecimal str.toList k)
        ∨ ∀ n w, LongestFront str.toList n w →
          countedNanoseconds n % 2 ^ 64 = 0
            ∧ (durationText w = [] →
              ¬ BeginsOverlong str.toList false) := by
  constructor
  · intro h
    by_cases hform : WellFormed str.toList
    · exact Or.inl hform
    · by_cases hint : ∃ k, IsDecimal str.toList k
      · exact Or.inr (Or.inl hint)
      · have hint' : ∀ k, ¬ IsDecimal str.toList k :=
          fun k hk => hint ⟨k, hk⟩
        refine Or.inr (Or.inr fun n w hlong => ?_)
        exact (rejects_iff_front hint' hlong).mp (h hform hint')
  · intro h hform hint
    rcases h with h | ⟨k, hk⟩ | h
    · exact absurd h hform
    · exact absurd hk (hint k)
    · obtain ⟨m, w, n, -, -, hlong⟩ := takes_longest str.toList
      exact (rejects_iff_front hint hlong).mpr (h n w hlong)

/-- Nothing is left of a duration. -/
theorem WellFormed.search_rest (h : WellFormed s) :
    (durationRegex.search s).map Regex.Match.rest = some [] := by
  obtain ⟨n, w, hn, -, rfl⟩ := h
  obtain ⟨m, w', n', hsearch, htakes, hlong⟩ := takes_longest (durationText w)
  obtain rfl := hn.longest.unique hlong
  have hrest := htakes.rest
  rw [hsearch, Option.map_some]
  exact congrArg some (List.self_eq_append_right.mp hrest)

/-- Milliseconds are read as minutes. -/
theorem parseDuration_milliseconds :
    ¬ WellFormed "500ms".toList ∧ (∀ k, ¬ IsDecimal "500ms".toList k)
      ∧ parseDuration (some "500ms") = 500 * minute
      ∧ commandTimeout (some "500ms") = 500 * minute
      ∧ reconcileInterval (some "500ms") = 500 * minute
      ∧ ¬ Rejects "500ms" := by
  have hparse : parseDuration (some "500ms") = 500 * minute := by
    decide +kernel
  refine ⟨fun h => ?_, fun k hk => ?_, hparse, by decide +kernel,
    by decide +kernel, fun h => ?_⟩
  · have hrest := h.search_rest
    revert hrest
    decide +kernel
  · have hletter := hk.no_letter 'm' (by decide +kernel)
    revert hletter
    decide
  · have hzero := hparse.symm.trans h.zero
    revert hzero
    decide +kernel

-- ======================================================== going round

/-- How often a sum has gone round. -/
def laps (v : Int) : Int := (v + 2 ^ 63) / 2 ^ 64

theorem bmod_eq_laps (v : Int) : v.bmod (2 ^ 64) = v - 2 ^ 64 * laps v := by
  rw [Int.bmod_def]
  unfold laps
  split <;> omega

theorem bmod_nonneg_iff {v : Int} :
    0 ≤ v.bmod (2 ^ 64) ↔ v % 2 ^ 64 < 2 ^ 63 := by
  rw [Int.bmod_def]
  split <;> omega

/-- The result of a string without a minus sign is not negative exactly if
what the string is read as has not gone round to the negative half. A larger
number for one part of a duration does not make the result smaller exactly
if the sum grows by 64 bits for every time it goes round more often. -/
theorem parseDuration_wraps_iff (str : String) (n : Part → Nat) (p : Part)
    (v : Nat) :
    (('-' ∉ str.toList → 0 ≤ (parseDuration (some str)).toInt)
      ↔ '-' ∈ str.toList
        ∨ ∀ v, ReadsAs str.toList v → v % 2 ^ 64 < 2 ^ 63)
    ∧ ∀ w w', Renders n w → Counts w →
      Renders (Function.update n p v) w' → Counts w' →
      ((n p ≤ v →
          (parseDuration (some (String.ofList (durationText w)))).toInt
            ≤ (parseDuration (some (String.ofList (durationText w')))).toInt)
        ↔ v < n p
          ∨ 2 ^ 64 * (laps (countedNanoseconds (Function.update n p v))
                - laps (countedNanoseconds n))
              ≤ (countedNanoseconds (Function.update n p v) : Int)
                - countedNanoseconds n) := by
  constructor
  · by_cases hminus : '-' ∈ str.toList
    · exact ⟨fun _ => Or.inl hminus, fun _ h => absurd hminus h⟩
    · constructor
      · intro h
        refine Or.inr fun v hv => ?_
        rw [← bmod_nonneg_iff, ← parseDuration_readsAs hv]
        exact h hminus
      · intro h _
        obtain ⟨v, hv⟩ := exists_readsAs str.toList
        rw [parseDuration_readsAs hv, bmod_nonneg_iff]
        exact h.resolve_left hminus v hv
  · intro w w' hn hw hn' hw'
    rw [hn.parse hw, hn'.parse hw', bmod_eq_laps, bmod_eq_laps]
    constructor
    · intro h
      by_cases hlt : v < n p
      · exact Or.inl hlt
      · have hle := h (by omega)
        exact Or.inr (by omega)
    · intro h hle
      rcases h with h | h
      · omega
      · omega

/-- 290 years are read as such, 300 years as a negative number, and a number
that is too large as nothing, or as minus one second if there is no unit
behind it. -/
theorem parseDuration_goes_round :
    '-' ∉ "300Y".toList ∧ (parseDuration (some "300Y")).toInt < 0
      ∧ (parseDuration (some "300Y")).toInt
        < (parseDuration (some "290Y")).toInt
      ∧ parseDuration (some "99999999999999999999s") = 0
      ∧ parseDuration (some "99999999999999999999abc") = -second := by
  refine ⟨by decide +kernel, by decide +kernel, by decide +kernel,
    by decide +kernel, by decide +kernel⟩

end RssOperator
