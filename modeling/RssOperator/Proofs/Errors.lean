/-
Which errors reach the list a pass returns.

`appendNonNil` drops an error whose text is empty. None of the errors a
pass makes itself has an empty text, so each of them stays on the list,
also when `run` appends one list to another; a list that comes out empty
then means that the call it is from reported nothing.
-/
import RssOperator.Proofs.Choose

namespace RssOperator

-- =============================================================== texts

private theorem append_ne_empty {a : String} (b : String) (h : a ≠ "") :
    a ++ b ≠ "" := by
  intro hab
  have hchars := congrArg String.toList hab
  rw [String.toList_append] at hchars
  apply h
  apply String.toList_injective
  rw [(List.append_eq_nil_iff.mp hchars).1]
  rfl

private theorem append_ne_empty' (a : String) {b : String} (h : b ≠ "") :
    a ++ b ≠ "" := by
  intro hab
  have hchars := congrArg String.toList hab
  rw [String.toList_append] at hchars
  apply h
  apply String.toList_injective
  rw [(List.append_eq_nil_iff.mp hchars).2]
  rfl

namespace Err

/-- A failed command is reported with its name in front. -/
theorem text_application (action : CommandKey) (pod cause : String) :
    (application action pod cause).text ≠ "" := by
  show _ ++ cause ≠ ""
  apply append_ne_empty
  apply append_ne_empty'
  decide

/-- A member that has failed too often is reported with a fixed text behind.
-/
theorem text_deletionAfterFailures (pod : String) (failures : Nat) :
    (deletionAfterFailures pod failures).text ≠ "" := by
  show _ ++ " failures" ≠ ""
  apply append_ne_empty'
  decide

theorem text_deletionAfterStop (pod cause : String) :
    (deletionAfterStop pod cause).text ≠ "" := by
  show _ ++ cause ≠ ""
  apply append_ne_empty
  apply append_ne_empty'
  decide

end Err

/-- The errors of the functions that choose a member. -/
theorem chooseMember_text {peers : Option MemberSet} {o : Order String}
    {err : Err} (h : chooseMember peers o = .error err) : err.text ≠ "" := by
  unfold chooseMember at h
  split at h
  · cases h
    decide
  · split at h
    · cases h
      decide
    · cases h

theorem chooseCurrentPrimary_text {peers : Option MemberSet}
    {o : Order String} {err : Err}
    (h : chooseCurrentPrimary peers o = .error err) : err.text ≠ "" := by
  unfold chooseCurrentPrimary at h
  split at h
  · cases h
    decide
  · split at h
    · cases h
      decide
    · cases h

-- =============================================================== lists

/-- What is on the list: what was, and the new error if it has a text. -/
theorem mem_appendNonNil {errors : List Err} {err : Option Err} {e : Err} :
    e ∈ appendNonNil errors err
      ↔ e ∈ errors ∨ err = some e ∧ e.text ≠ "" := by
  cases err with
  | none => simp [appendNonNil]
  | some e' =>
      unfold appendNonNil
      dsimp only
      split
      · next hempty =>
        constructor
        · exact Or.inl
        · intro h
          rcases h with h | ⟨heq, htext⟩
          · exact h
          · cases heq
            exact absurd hempty htext
      · next htext =>
        rw [List.mem_append, List.mem_singleton]
        constructor
        · intro h
          rcases h with h | rfl
          · exact Or.inl h
          · exact Or.inr ⟨rfl, htext⟩
        · intro h
          rcases h with h | ⟨heq, _⟩
          · exact Or.inl h
          · exact Or.inr (Option.some.inj heq).symm

/-- The same for a whole list of new errors. -/
theorem mem_appendAllNonNil {e : Err} {other : List Err} :
    ∀ {errors : List Err}, e ∈ appendAllNonNil errors other
      ↔ e ∈ errors ∨ e ∈ other ∧ e.text ≠ "" := by
  unfold appendAllNonNil
  induction other with
  | nil => intro errors; simp
  | cons e' other ih =>
      intro errors
      rw [List.foldl_cons, ih, mem_appendNonNil, Option.some.injEq,
        List.mem_cons]
      constructor
      · intro h
        rcases h with (h | ⟨rfl, ht⟩) | ⟨h, ht⟩
        · exact Or.inl h
        · exact Or.inr ⟨Or.inl rfl, ht⟩
        · exact Or.inr ⟨Or.inr h, ht⟩
      · intro h
        rcases h with h | ⟨rfl | h, ht⟩
        · exact Or.inl (Or.inl h)
        · exact Or.inl (Or.inr ⟨rfl, ht⟩)
        · exact Or.inr ⟨h, ht⟩

/-- The list `run` tests is empty if no error of the call has a text. -/
theorem appendAllNonNil_nil {errors : List Err} :
    appendAllNonNil [] errors = [] ↔ ∀ e ∈ errors, e.text = "" := by
  rw [List.eq_nil_iff_forall_not_mem]
  constructor
  · intro h e he
    by_contra ht
    exact h e (mem_appendAllNonNil.mpr (Or.inr ⟨he, ht⟩))
  · intro h e he
    rcases mem_appendAllNonNil.mp he with he | ⟨he, ht⟩
    · cases he
    · exact ht (h e he)

/-- An error with a text ends a list that is not empty. -/
theorem appendNonNil_ne_nil {errors : List Err} {e : Err}
    (ht : e.text ≠ "") : appendNonNil errors (some e) ≠ [] :=
  List.ne_nil_of_mem (mem_appendNonNil.mpr (Or.inr ⟨rfl, ht⟩))

end RssOperator
