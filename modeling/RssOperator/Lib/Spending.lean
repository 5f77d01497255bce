/-
Resources that are spent once each.

# `Spends`

A process starts with a set `A` of resources, uses those of the list
`spent`, and has at most the set `B` left. `Spends A spent B` says that
nothing is used twice, that what is used was there, and that nothing used
is left. It composes, because what the second part uses was left by the
first and so was not used by it.

# Loops

A loop whose every turn spends something ends, as the resources it starts
with are finitely many (`ends_of_spending`). The measure is their number.
-/
import Mathlib.Data.Set.Card
import RssOperator.Lib.Loop

variable {κ : Type} {A B C : Set κ} {l l' : List κ} {k : κ}

/-- From `A`, what is in `spent` is used once each, and `B` is left. -/
structure Spends (A : Set κ) (spent : List κ) (B : Set κ) : Prop where
  nodup : spent.Nodup
  had : ∀ k ∈ spent, k ∈ A
  left : ∀ k ∈ B, k ∈ A ∧ k ∉ spent

namespace Spends

theorem refl (A : Set κ) : Spends A [] A where
  nodup := List.nodup_nil
  had _ h := absurd h List.not_mem_nil
  left _ hk := ⟨hk, List.not_mem_nil⟩

/-- One resource is used. -/
theorem one (hk : k ∈ A) (hleft : ∀ k' ∈ B, k' ∈ A ∧ k' ≠ k) :
    Spends A [k] B where
  nodup := List.nodup_singleton k
  had _ hk' := List.mem_singleton.mp hk' ▸ hk
  left k' hk' :=
    ⟨(hleft k' hk').1, fun h => (hleft k' hk').2 (List.mem_singleton.mp h)⟩

/-- First some are used and then, of those left, some more. -/
theorem trans (h : Spends A l B) (h' : Spends B l' C) :
    Spends A (l' ++ l) C where
  nodup := by
    refine List.nodup_append.mpr ⟨h'.nodup, h.nodup, ?_⟩
    intro k hk k₁ hk₁ heq
    exact (h.left k (h'.had k hk)).2 (heq ▸ hk₁)
  had k hk := by
    rcases List.mem_append.mp hk with hk | hk
    · exact (h.left k (h'.had k hk)).1
    · exact h.had k hk
  left k hk := by
    obtain ⟨hB, hl'⟩ := h'.left k hk
    obtain ⟨hA, hl⟩ := h.left k hB
    refine ⟨hA, fun hmem => ?_⟩
    rcases List.mem_append.mp hmem with hmem | hmem
    · exact hl' hmem
    · exact hl hmem

/-- Whoever spends has less. -/
theorem ncard_lt (h : Spends A l B) (hfin : A.Finite) (hne : l ≠ []) :
    B.ncard < A.ncard := by
  obtain ⟨k, hk⟩ := List.exists_mem_of_ne_nil l hne
  have hsub : B ⊆ A := fun k hk => (h.left k hk).1
  refine Set.ncard_lt_ncard ⟨hsub, fun hle => ?_⟩ hfin
  exact (h.left k (hle (h.had k hk))).2 hk

end Spends

/-- A loop that spends something in every turn ends. -/
theorem ends_of_spending {σ α : Type} {body : σ → σ ⊕ α} (A : σ → Set κ)
    (hfin : ∀ s, (A s).Finite)
    (hbody : ∀ s s', body s = .inl s' →
      ∃ l, l ≠ [] ∧ Spends (A s) l (A s')) (s : σ) : Ends body s := by
  obtain ⟨a, ha⟩ := @ends_of_measure σ α body (fun _ => True)
    (fun s => (A s).ncard) (fun s s' _ h => by
      obtain ⟨l, hne, hspends⟩ := hbody s s' h
      exact ⟨trivial, hspends.ncard_lt (hfin s) hne⟩) s trivial
  exact ⟨_, a, ha⟩
