import ManagementShell.Order
import Mathlib.Data.Char
import Mathlib.Data.List.Induction
import Mathlib.Data.List.Lex

/-
This file shows that texts are in a linear order and that sorting keeps the elements of a list and
puts them in order.
-/

namespace ManagementShell

variable {α : Type}

section

variable {precedes : α → α → Bool}

theorem insertSorted_perm (added : α) (elements : List α) :
    (insertSorted precedes added elements).Perm (added :: elements) := by
  induction elements with
  | nil => exact .refl _
  | cons first rest inductionHypothesis =>
      unfold insertSorted
      split
      · exact .refl _
      · exact (inductionHypothesis.cons first).trans (.swap added first rest)

/-- Sorting is the insertion of one element after the other. -/
theorem sort_concat (elements : List α) (last : α) :
    sort precedes (elements ++ [last]) = insertSorted precedes last (sort precedes elements) := by
  simp [sort]

theorem sort_perm (elements : List α) : (sort precedes elements).Perm elements := by
  induction elements using List.reverseRecOn with
  | nil => exact .refl _
  | append_singleton elements last inductionHypothesis =>
      rw [sort_concat]
      exact (insertSorted_perm last _).trans
        ((inductionHypothesis.cons last).trans (List.perm_append_singleton last elements).symm)

theorem mem_sort {element : α} {elements : List α} :
    element ∈ sort precedes elements ↔ element ∈ elements := (sort_perm elements).mem_iff

section

variable (asymmetric : ∀ first second, precedes first second = true → precedes second first = false)
  (transitive : ∀ first second third, precedes first second = true →
    precedes second third = true → precedes first third = true)
include asymmetric transitive

theorem insertSorted_pairwise (added : α) {elements : List α}
    (sorted : elements.Pairwise fun first second => precedes second first = false) :
    (insertSorted precedes added elements).Pairwise
      fun first second => precedes second first = false := by
  induction elements with
  | nil => exact List.pairwise_singleton _ _
  | cons first rest inductionHypothesis =>
      obtain ⟨later, restSorted⟩ := List.pairwise_cons.mp sorted
      unfold insertSorted
      split
      · rename_i before
        refine List.pairwise_cons.mpr ⟨fun element member => ?_, sorted⟩
        rcases List.mem_cons.mp member with rfl | isLater
        · exact asymmetric _ _ before
        · refine Bool.eq_false_iff.mpr fun earlier => ?_
          exact Bool.false_ne_true
            ((later element isLater).symm.trans (transitive _ _ _ earlier before))
      · rename_i notBefore
        refine List.pairwise_cons.mpr ⟨fun element member => ?_, inductionHypothesis restSorted⟩
        rcases List.mem_cons.mp ((insertSorted_perm added rest).mem_iff.mp member) with rfl | isLater
        · simpa using notBefore
        · exact later element isLater

/-- After sorting, no element precedes one that stands before it. -/
theorem sort_pairwise (elements : List α) :
    (sort precedes elements).Pairwise fun first second => precedes second first = false := by
  induction elements using List.reverseRecOn with
  | nil => exact .nil
  | append_singleton elements last inductionHypothesis =>
      rw [sort_concat]
      exact insertSorted_pairwise asymmetric transitive last inductionHypothesis

/-- If of two different elements one precedes the other, it does not matter in which order they are
before they are sorted. -/
theorem sort_eq_of_perm
    (total : ∀ first second, precedes first second = false → precedes second first = false →
      first = second) {first second : List α} (perm : first.Perm second) :
    sort precedes first = sort precedes second :=
  List.Perm.eq_of_pairwise (fun _ _ _ _ notAfter notBefore => total _ _ notBefore notAfter)
    (sort_pairwise asymmetric transitive first) (sort_pairwise asymmetric transitive second)
    ((sort_perm first).trans (perm.trans (sort_perm second).symm))

end

end

/-- A text precedes another in the lexicographic order of the codes of their characters. -/
theorem Text.precedes_iff_lt {first second : Text} : first.precedes second = true ↔ first < second := by
  induction first generalizing second with
  | nil => cases second <;> simp [precedes]
  | cons character rest inductionHypothesis =>
      cases second with
      | nil => simp [precedes]
      | cons other others =>
          rw [precedes, List.cons_lt_cons_iff, ← inductionHypothesis]
          simp [Char.lt_def, UInt32.lt_iff_toNat_lt]

/-- Rows are in the lexicographic order of their cells. -/
theorem Text.rowPrecedes_iff_lt {first second : List Text} :
    rowPrecedes first second = true ↔ first < second := by
  induction first generalizing second with
  | nil => cases second <;> simp [rowPrecedes]
  | cons cell rest inductionHypothesis =>
      cases second with
      | nil => simp [rowPrecedes]
      | cons other others =>
          rw [rowPrecedes, List.cons_lt_cons_iff, ← inductionHypothesis, ← precedes_iff_lt]
          simp

theorem sort_rows_eq_of_perm {first second : List (List Text)} (perm : first.Perm second) :
    sort Text.rowPrecedes first = sort Text.rowPrecedes second := by
  refine sort_eq_of_perm (fun first second before => ?_) (fun first second third before after => ?_)
    (fun first second notBefore notAfter => ?_) perm
  · rw [Bool.eq_false_iff, ne_eq, Text.rowPrecedes_iff_lt]
    exact lt_asymm (Text.rowPrecedes_iff_lt.mp before)
  · rw [Text.rowPrecedes_iff_lt] at before after ⊢
    exact before.trans after
  · rw [Bool.eq_false_iff, ne_eq, Text.rowPrecedes_iff_lt, not_lt] at notBefore notAfter
    exact le_antisymm notAfter notBefore

end ManagementShell
