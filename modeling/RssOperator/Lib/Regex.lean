/-
Regular expressions with groups, matched the way a backtracking matcher
does.

# Preference

`results r s` are all ways to match a front of `s`, in the order in which
they are preferred: an optional part is taken rather than left out, a run
is taken as long as it goes, and the choices of the first part of a
sequence come before those of the second. A matcher returns the first one
(`first`), at the leftmost place where there is one (`search`).

# Optional parts in a row

A sequence of optional parts is never taken back: whatever an earlier part
has taken, the later ones can always be left out. So the preferred match is
found by one pass over the parts (`first_concat_opt`), each of which takes
what it prefers (`greedy`).

# A run and its end

A run of one kind of symbols that has to be followed by a symbol of another
kind matches in at most one way, the run as a whole
(`first_plus_sat`).
-/
import Mathlib.Data.List.TakeWhile

/-- A regular expression over the symbols `α`, with groups named by `ι`. -/
inductive Regex (α ι : Type) where
  /-- Matches nothing but the empty list. -/
  | empty
  /-- One symbol. -/
  | sat (p : α → Bool)
  /-- One or more symbols, `[p]+`. -/
  | plus (p : α → Bool)
  | seq (r r' : Regex α ι)
  /-- `r?` -/
  | opt (r : Regex α ι)
  | group (i : ι) (r : Regex α ι)

namespace Regex

variable {α ι : Type}

/-- One way to match a front of a list. A group that took no part has
caught nothing. -/
structure Match (α ι : Type) where
  text : List α
  groups : ι → Option (List α)
  rest : List α

namespace Match

/-- The empty match. -/
def nothing (s : List α) : Match α ι := ⟨[], fun _ => none, s⟩

/-- One match behind another. -/
def append (m m' : Match α ι) : Match α ι :=
  ⟨m.text ++ m'.text, fun i => (m'.groups i).or (m.groups i), m'.rest⟩

/-- Behind a match without groups only the text is added. -/
theorem append_mk (t s : List α) (m : Match α ι) :
    (⟨t, fun _ => none, s⟩ : Match α ι).append m
      = { m with text := t ++ m.text } := by
  unfold append
  simp only [Option.or_none]

/-- Note what was matched as caught by `i`. -/
def capture [DecidableEq ι] (i : ι) (m : Match α ι) : Match α ι :=
  { m with groups := fun j => if j = i then some m.text else m.groups j }

/-- What a group has caught. -/
def group (i : ι) (m : Match α ι) : List α := (m.groups i).getD []

end Match

-- ============================================================ matching

/-- The fronts of a list that are runs of `p`, the longest first. -/
def runs (p : α → Bool) : List α → List (Match α ι)
  | [] => []
  | a :: s =>
      if p a then
        (runs p s).map (fun m => { m with text := a :: m.text })
          ++ [⟨[a], fun _ => none, s⟩]
      else []

/-- All matches at the front of a list, the preferred ones first. -/
def results [DecidableEq ι] : Regex α ι → List α → List (Match α ι)
  | empty, s => [.nothing s]
  | sat _, [] => []
  | sat p, a :: s => if p a then [⟨[a], fun _ => none, s⟩] else []
  | plus p, s => runs p s
  | seq r r', s =>
      (r.results s).flatMap fun m => (r'.results m.rest).map m.append
  | opt r, s => r.results s ++ [.nothing s]
  | group i r, s => (r.results s).map (Match.capture i)

variable [DecidableEq ι]

/-- The preferred match at the front. -/
def first (r : Regex α ι) (s : List α) : Option (Match α ι) :=
  (r.results s).head?

/-- The preferred match at the leftmost place that has one. -/
def search (r : Regex α ι) : List α → Option (Match α ι)
  | [] => r.first []
  | a :: s => (r.first (a :: s)).or (search r s)

/-- Several expressions in a row. -/
def concat (rs : List (Regex α ι)) : Regex α ι := rs.foldr seq empty

variable {r r' : Regex α ι} {s : List α} {m m' : Match α ι}

theorem search_of_first (h : r.first s = some m) : r.search s = some m := by
  cases s with
  | nil => exact h
  | cons a s =>
      unfold search
      rw [h]
      rfl

theorem first_seq (h : r.first s = some m)
    (h' : r'.first m.rest = some m') :
    (seq r r').first s = some (m.append m') := by
  obtain ⟨ms, hms⟩ := List.head?_eq_some_iff.mp h
  obtain ⟨ms', hms'⟩ := List.head?_eq_some_iff.mp h'
  show ((r.results s).flatMap fun m =>
    (r'.results m.rest).map m.append).head? = _
  rw [hms, List.flatMap_cons, hms']
  rfl

theorem first_opt :
    (opt r).first s = some ((r.first s).getD (.nothing s)) := by
  show (r.results s ++ [Match.nothing s]).head?
    = some ((r.results s).head?.getD (.nothing s))
  cases r.results s with
  | nil => rfl
  | cons m ms => rfl

theorem first_group (i : ι) :
    (group i r).first s = (r.first s).map (Match.capture i) :=
  List.head?_map

theorem first_sat_cons {p : α → Bool} {a : α} (ha : p a = true) :
    (sat p : Regex α ι).first (a :: s)
      = some ⟨[a], fun _ => none, s⟩ := by
  show (if p a then [_] else []).head? = _
  rw [ha]
  rfl

theorem first_sat_some {p : α → Bool}
    (h : (sat p : Regex α ι).first s = some m) :
    ∃ a t, s = a :: t ∧ p a = true := by
  cases s with
  | nil => cases h
  | cons a t =>
      refine ⟨a, t, rfl, ?_⟩
      cases ha : p a with
      | true => rfl
      | false =>
          have hnone : (sat p : Regex α ι).first (a :: t) = none := by
            show (if p a then [_] else []).head? = _
            rw [ha]
            rfl
          rw [hnone] at h
          cases h

-- ====================================================== optional parts

/-- Take the preferred match of each expression that has one. -/
def greedy : List (Regex α ι) → List α → Match α ι
  | [], s => .nothing s
  | r :: rs, s =>
      let m := (r.first s).getD (.nothing s)
      m.append (greedy rs m.rest)

theorem first_concat_opt (rs : List (Regex α ι)) :
    ∀ s : List α, (concat (rs.map opt)).first s = some (greedy rs s) := by
  induction rs with
  | nil => intro s; rfl
  | cons r rs ih =>
      intro s
      exact first_seq first_opt (ih _)

-- ==================================================== a run and its end

omit [DecidableEq ι] in
/-- Nothing is run through where no `p` comes first. -/
theorem runs_of_head {p : α → Bool} {t : List α}
    (ht : ∀ a, t.head? = some a → p a = false) :
    runs p t = ([] : List (Match α ι)) := by
  cases t with
  | nil => rfl
  | cons a t =>
      unfold runs
      rw [ht a rfl]
      rfl

/-- The way a run from a `p` on is matched: first the runs that go on, then
the `p` alone. -/
theorem results_plus_cons {p : α → Bool} {r : Regex α ι} {a : α}
    (ha : p a = true) (t : List α) :
    (seq (plus p) r).results (a :: t)
      = (((seq (plus p) r).results t).map fun m =>
          { m with text := a :: m.text })
        ++ (r.results t).map fun m => { m with text := [a] ++ m.text } := by
  have hlonger : ((runs p t).map
      (fun m => { m with text := a :: m.text })).flatMap
        (fun m => (r.results m.rest).map m.append)
      = ((seq (plus p) r).results t).map
          fun m => { m with text := a :: m.text } := by
    show _ = ((runs p t).flatMap _).map _
    rw [List.flatMap_map, List.map_flatMap]
    simp only [List.map_map]
    rfl
  have hshort : [(⟨[a], fun _ => none, t⟩ : Match α ι)].flatMap
        (fun m => (r.results m.rest).map m.append)
      = (r.results t).map fun m => { m with text := [a] ++ m.text } := by
    rw [List.flatMap_singleton]
    exact congrArg (fun f => List.map f _) (funext (Match.append_mk _ _))
  show (runs p (a :: t)).flatMap _ = _
  unfold runs
  rw [if_pos ha, List.flatMap_append, hlonger, hshort]

/-- The way a run of `p` with a `q` behind it is matched. -/
theorem results_plus_sat {p q : α → Bool}
    (hpq : ∀ a, p a = true → q a = false) {t : List α}
    (ht : ∀ a, t.head? = some a → p a = false) :
    ∀ {run : List α}, (∀ a ∈ run, p a = true) →
      (seq (plus p) (sat q) : Regex α ι).results (run ++ t)
        = if run = [] then []
          else ((sat q : Regex α ι).results t).map fun m =>
            { m with text := run ++ m.text } := by
  intro run
  induction run with
  | nil =>
      intro _
      show (runs p t).flatMap _ = _
      rw [runs_of_head ht]
      rfl
  | cons a run ih =>
      intro hrun
      have htail := ih fun b hb => hrun b (List.mem_cons_of_mem _ hb)
      rw [List.cons_append, results_plus_cons (hrun a List.mem_cons_self),
        htail, if_neg (List.cons_ne_nil a run)]
      cases run with
      | nil => rfl
      | cons b run =>
          -- a shorter run has another `p` behind it
          have hb := hpq b (hrun b (by simp))
          have hnone : (sat q : Regex α ι).results (b :: run ++ t) = [] := by
            show (if q b then _ else []) = []
            rw [hb]
            rfl
          rw [hnone, if_neg (List.cons_ne_nil b run), List.map_nil,
            List.append_nil, List.map_map]
          rfl

/-- A run of `p` with a `q` behind it. -/
theorem first_plus_sat {p q : α → Bool}
    (hpq : ∀ a, p a = true → q a = false) {run t : List α}
    (hrun : ∀ a ∈ run, p a = true)
    (ht : ∀ a, t.head? = some a → p a = false) :
    (seq (plus p) (sat q) : Regex α ι).first (run ++ t)
      = if run = [] then none
        else ((sat q : Regex α ι).first t).map fun m =>
          { m with text := run ++ m.text } := by
  unfold first
  rw [results_plus_sat hpq ht hrun]
  split
  · rfl
  · exact List.head?_map

end Regex
