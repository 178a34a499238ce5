import Mathlib.Tactic.Ring
import Mathlib.Tactic.Linarith
import Mathlib.Algebra.Order.Ring.Int

/-!
# Linear blends in fixed point

Two values are weighed with a fraction `t` of `one` and with what is left of it, and the sum is
divided by `one`.  The blend lies between the values and moves from the first to the second as the
fraction grows.
-/

namespace Blend

universe u

section Weighted

variable {R : Type u} [CommRing R]

/-- Two values weighed with `one - t` and with `t`. -/
def weighted (one t low high : R) : R := low * (one - t) + high * t

theorem weighted_one (one low high : R) : weighted one one low high = high * one := by
  unfold weighted
  ring

theorem weighted_zero (one low high : R) : weighted one 0 low high = low * one := by
  unfold weighted
  ring

variable [LinearOrder R] [IsStrictOrderedRing R] {one t s low high : R}

theorem weighted_between (nonneg : 0 ≤ t) (small : t ≤ one) :
    min low high * one ≤ weighted one t low high ∧
      weighted one t low high ≤ max low high * one := by
  have rest : 0 ≤ one - t := sub_nonneg.mpr small
  constructor
  · calc
      min low high * one = min low high * (one - t) + min low high * t := by ring
      _ ≤ low * (one - t) + high * t :=
        add_le_add (mul_le_mul_of_nonneg_right (min_le_left _ _) rest)
          (mul_le_mul_of_nonneg_right (min_le_right _ _) nonneg)
  · calc
      low * (one - t) + high * t ≤ max low high * (one - t) + max low high * t :=
        add_le_add (mul_le_mul_of_nonneg_right (le_max_left _ _) rest)
          (mul_le_mul_of_nonneg_right (le_max_right _ _) nonneg)
      _ = max low high * one := by ring

/-- Toward the greater of the two values. -/
theorem weighted_mono (order : low ≤ high) (less : s ≤ t) :
    weighted one s low high ≤ weighted one t low high := by
  have moved : weighted one t low high - weighted one s low high = (high - low) * (t - s) := by
    unfold weighted
    ring
  have gain : 0 ≤ (high - low) * (t - s) :=
    mul_nonneg (sub_nonneg.mpr order) (sub_nonneg.mpr less)
  linarith

/-- Toward the lesser of the two values. -/
theorem weighted_anti (order : high ≤ low) (less : s ≤ t) :
    weighted one t low high ≤ weighted one s low high := by
  have moved : weighted one s low high - weighted one t low high = (low - high) * (t - s) := by
    unfold weighted
    ring
  have loss : 0 ≤ (low - high) * (t - s) :=
    mul_nonneg (sub_nonneg.mpr order) (sub_nonneg.mpr less)
  linarith

end Weighted

/-! ### Truncation toward zero -/

section Truncated

variable {one t s low high : ℤ}

theorem tdiv_mono {a b c : ℤ} (positive : 0 < c) (order : a ≤ b) : a.tdiv c ≤ b.tdiv c := by
  rcases le_or_gt 0 a with nonneg | negative
  · rw [Int.tdiv_eq_ediv_of_nonneg nonneg, Int.tdiv_eq_ediv_of_nonneg (nonneg.trans order)]
    exact Int.ediv_le_ediv positive order
  · rcases le_or_gt 0 b with bNonneg | bNegative
    · have below : a.tdiv c ≤ 0 := by
        have magnitude := Int.tdiv_nonneg (neg_nonneg.mpr negative.le) positive.le
        rw [Int.neg_tdiv] at magnitude
        exact neg_nonneg.mp magnitude
      exact below.trans (Int.tdiv_nonneg bNonneg positive.le)
    · have magnitude := Int.ediv_le_ediv positive (neg_le_neg order)
      rw [← Int.tdiv_eq_ediv_of_nonneg (neg_nonneg.mpr bNegative.le),
        ← Int.tdiv_eq_ediv_of_nonneg (neg_nonneg.mpr negative.le), Int.neg_tdiv,
        Int.neg_tdiv] at magnitude
      exact neg_le_neg_iff.mp magnitude

/-- The blend truncated toward zero. -/
def truncated (one t low high : ℤ) : ℤ := (weighted one t low high).tdiv one

theorem truncated_between (positive : 0 < one) (nonneg : 0 ≤ t) (small : t ≤ one) :
    min low high ≤ truncated one t low high ∧ truncated one t low high ≤ max low high := by
  rcases @weighted_between ℤ _ _ _ one t low high nonneg small with ⟨above, below⟩
  have least := tdiv_mono positive above
  have most := tdiv_mono positive below
  rw [Int.mul_tdiv_cancel _ positive.ne'] at least most
  exact ⟨least, most⟩

theorem truncated_mono (positive : 0 < one) (order : low ≤ high) (less : s ≤ t) :
    truncated one s low high ≤ truncated one t low high :=
  tdiv_mono positive (weighted_mono order less)

theorem truncated_anti (positive : 0 < one) (order : high ≤ low) (less : s ≤ t) :
    truncated one t low high ≤ truncated one s low high :=
  tdiv_mono positive (weighted_anti order less)

theorem truncated_zero (positive : 0 < one) : truncated one 0 low high = low := by
  rw [truncated, weighted_zero, Int.mul_tdiv_cancel _ positive.ne']

theorem truncated_one (positive : 0 < one) : truncated one one low high = high := by
  rw [truncated, weighted_one, Int.mul_tdiv_cancel _ positive.ne']

end Truncated

/-! ### The fraction -/

/-- How far into a gap of a given width, in units of `one`. -/
def fraction (one depth width : ℕ) : ℕ := one * depth / width

section Fraction

variable {one depth deeper width : ℕ}

theorem fraction_lt (positive : 0 < one) (inside : depth < width) :
    fraction one depth width < one := by
  apply (Nat.div_lt_iff_lt_mul (Nat.zero_lt_of_lt inside)).mpr
  exact Nat.mul_lt_mul_of_pos_left inside positive

theorem fraction_full (gap : 0 < width) : fraction one width width = one :=
  Nat.mul_div_cancel one gap

theorem fraction_mono (less : depth ≤ deeper) :
    fraction one depth width ≤ fraction one deeper width :=
  Nat.div_le_div_right (Nat.mul_le_mul_left one less)

theorem fraction_eq_zero_iff (gap : 0 < width) :
    fraction one depth width = 0 ↔ one * depth < width := by
  rw [fraction, Nat.div_eq_zero_iff]
  omega

end Fraction

end Blend
