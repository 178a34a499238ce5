import Mathlib.Algebra.Group.Action.Defs
import Mathlib.Algebra.Order.BigOperators.Group.List
import Mathlib.Algebra.Order.Ring.Nat
import Mathlib.Data.List.Sort

/-!
# Trimmed means

A sorted list with its first and its last elements dropped.  As long as no more elements than that
lie below a bound, what is left does not; and a mean lies where its elements do.
-/

universe u

namespace Trimmed

variable {α : Type u}

/-- What is left of a list without its first and its last `k` elements. -/
def middle (k : ℕ) (l : List α) : List α := (l.drop k).take (l.length - k - k)

theorem length_middle {l : List α} {k : ℕ} (room : k + k ≤ l.length) :
    (middle k l).length = l.length - k - k := by
  rw [middle, List.length_take, List.length_drop]
  omega

section Bounds

variable [LinearOrder α] {l : List α} {low high x : α} {k : ℕ}

theorem low_le_of_mem_drop (sorted : l.Pairwise (· ≤ ·)) (few : l.countP (· < low) ≤ k)
    (member : x ∈ l.drop k) : low ≤ x := by
  induction l generalizing k with
  | nil => simp at member
  | cons a rest ih =>
      rcases List.pairwise_cons.mp sorted with ⟨least, sortedRest⟩
      by_cases below : a < low
      · rw [List.countP_cons_of_pos (by simpa using below)] at few
        cases k with
        | zero => omega
        | succ k => exact ih sortedRest (Nat.le_of_succ_le_succ few) member
      · -- the first element is not below, so none is
        rcases List.mem_cons.mp (List.mem_of_mem_drop member) with rfl | later
        · exact le_of_not_gt below
        · exact (le_of_not_gt below).trans (least x later)

theorem le_high_of_mem_take (sorted : l.Pairwise (· ≤ ·)) (few : l.countP (high < ·) ≤ k)
    (member : x ∈ l.take (l.length - k)) : x ≤ high := by
  induction l with
  | nil => simp at member
  | cons a rest ih =>
      rcases List.pairwise_cons.mp sorted with ⟨least, sortedRest⟩
      by_cases above : high < a
      · -- then all of them are above, and none is taken
        have all : (a :: rest).countP (high < ·) = (a :: rest).length := by
          rw [List.countP_eq_length]
          intro y inList
          rcases List.mem_cons.mp inList with rfl | later
          · exact decide_eq_true above
          · exact decide_eq_true (above.trans_le (least y later))
        rw [show (a :: rest).length - k = 0 by omega] at member
        simp at member
      · rw [List.countP_cons_of_neg (by simpa using above)] at few
        by_cases room : k ≤ rest.length
        · rw [List.length_cons, Nat.succ_sub room, List.take_succ_cons] at member
          rcases List.mem_cons.mp member with rfl | later
          · exact le_of_not_gt above
          · exact ih sortedRest few later
        · rw [List.length_cons, Nat.sub_eq_zero_of_le (by omega)] at member
          simp at member

theorem middle_bounds (sorted : l.Pairwise (· ≤ ·)) (room : k + k ≤ l.length)
    (fewBelow : l.countP (· < low) ≤ k) (fewAbove : l.countP (high < ·) ≤ k)
    (member : x ∈ middle k l) : low ≤ x ∧ x ≤ high := by
  refine ⟨low_le_of_mem_drop sorted fewBelow (List.mem_of_mem_take member), ?_⟩
  apply le_high_of_mem_take sorted fewAbove
  rw [middle, List.take_drop] at member
  have taken := List.mem_of_mem_drop member
  rwa [show k + (l.length - k - k) = l.length - k by omega] at taken

end Bounds

/-- The mean of some naturals, cut off, lies between their bounds. -/
theorem mean_between {l : List ℕ} {low high : ℕ} (nonempty : 0 < l.length)
    (bounds : ∀ x ∈ l, low ≤ x ∧ x ≤ high) :
    low ≤ l.sum / l.length ∧ l.sum / l.length ≤ high := by
  have least : l.length • low ≤ l.sum := List.card_nsmul_le_sum l low fun x member =>
    (bounds x member).1
  have most : l.sum ≤ l.length • high := List.sum_le_card_nsmul l high fun x member =>
    (bounds x member).2
  rw [smul_eq_mul] at least most
  constructor
  · rw [Nat.le_div_iff_mul_le nonempty, Nat.mul_comm]
    exact least
  · exact Nat.div_le_of_le_mul most

end Trimmed
