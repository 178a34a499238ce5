import Mathlib.Algebra.Order.Field.Power
import Mathlib.Algebra.Order.Field.Rat
import Mathlib.Data.Rat.Floor
import Mathlib.Tactic.FieldSimp
import Mathlib.Tactic.Linarith
import Mathlib.Tactic.Positivity
import Mathlib.Tactic.Ring

/-!
# Rounding to nearest, ties to even

A floating-point number with `p + 1` significant bits is an integer below `2 ^ (p + 1)` in
magnitude, scaled by a power of two.  A number of at least `2 ^ p` units is rounded to the nearest
integer number of units, and no such floating-point number is nearer.  A format that bounds the
exponents holds some of these numbers: when the rounded number is one of them, it is the nearest
one of the format.
-/

namespace Rounding

/-- The integer nearest to a number, the even one of two that are equally near. -/
structure NearestEven (x : ℚ) (n : ℤ) : Prop where
  near : |x - n| ≤ 1 / 2
  even : |x - n| = 1 / 2 → n % 2 = 0

section Integer

variable {x : ℚ} {n : ℤ}

theorem one_le_distance {n k : ℤ} (differ : k ≠ n) : (1 : ℚ) ≤ |(n : ℚ) - k| := by
  have apart : n - k ≠ 0 := sub_ne_zero.mpr differ.symm
  have whole : (1 : ℤ) ≤ |n - k| := Int.one_le_abs apart
  calc
    (1 : ℚ) = ((1 : ℤ) : ℚ) := by norm_num
    _ ≤ ((|n - k| : ℤ) : ℚ) := Int.cast_le.mpr whole
    _ = |(n : ℚ) - k| := by push_cast; rfl

theorem NearestEven.other (nearest : NearestEven x n) {k : ℤ} (differ : k ≠ n) :
    1 / 2 ≤ |x - k| := by
  have apart := one_le_distance differ
  have split : |(n : ℚ) - k| ≤ |(n : ℚ) - x| + |x - k| := abs_sub_le _ _ _
  have near := nearest.near
  rw [abs_sub_comm] at near
  linarith

theorem NearestEven.le (nearest : NearestEven x n) (k : ℤ) : |x - n| ≤ |x - k| := by
  by_cases same : k = n
  · rw [same]
  · exact nearest.near.trans (nearest.other same)

/-- Another integer is as near only at a tie. -/
theorem NearestEven.tie (nearest : NearestEven x n) {k : ℤ} (differ : k ≠ n)
    (same : |x - k| = |x - n|) : n % 2 = 0 := by
  apply nearest.even
  apply le_antisymm nearest.near
  rw [← same]
  exact nearest.other differ

theorem NearestEven.ge_of_ge (nearest : NearestEven x n) {a : ℤ} (above : (a : ℚ) ≤ x) : a ≤ n := by
  by_contra below
  have cast : (n : ℚ) + 1 ≤ a := by exact_mod_cast not_le.mp below
  have near := abs_le.mp nearest.near
  linarith

theorem NearestEven.le_of_le (nearest : NearestEven x n) {b : ℤ} (below : x ≤ (b : ℚ)) : n ≤ b := by
  by_contra above
  have cast : (b : ℚ) + 1 ≤ n := by exact_mod_cast not_le.mp above
  have near := abs_le.mp nearest.near
  linarith

theorem nearestEven_self (n : ℤ) : NearestEven n n := by
  constructor
  · norm_num
  · intro tie
    norm_num at tie

theorem nearestEven_down {q : ℤ} {t : ℚ} (nonneg : 0 ≤ t)
    (low : t < 1 / 2 ∨ (t = 1 / 2 ∧ q % 2 = 0)) : NearestEven (q + t) q := by
  have distance : |(q : ℚ) + t - q| = t := by rw [add_sub_cancel_left, abs_of_nonneg nonneg]
  constructor
  · rw [distance]
    rcases low with low | ⟨tie, _⟩ <;> linarith
  · intro tie
    rw [distance] at tie
    rcases low with low | ⟨_, even⟩
    · linarith
    · exact even

theorem nearestEven_up {q : ℤ} {t : ℚ} (small : t < 1)
    (high : 1 / 2 < t ∨ (t = 1 / 2 ∧ q % 2 = 1)) : NearestEven (q + t) (q + 1) := by
  have distance : |(q : ℚ) + t - ((q + 1 : ℤ) : ℚ)| = 1 - t := by
    have value : (q : ℚ) + t - ((q + 1 : ℤ) : ℚ) = -(1 - t) := by
      push_cast
      ring
    rw [value, abs_neg, abs_of_nonneg (by linarith)]
  constructor
  · rw [distance]
    rcases high with high | ⟨tie, _⟩ <;> linarith
  · intro tie
    rw [distance] at tie
    rcases high with high | ⟨_, odd⟩
    · linarith
    · omega

/-- Rounding an integer with a tail below it by dropping its low `s + 1` bits. -/
theorem nearestEven_of_shift {sig q r s : ℕ} {tail : ℚ} (parts : sig = 2 ^ (s + 1) * q + r)
    (small : r < 2 ^ (s + 1)) (tailNonneg : 0 ≤ tail) (tailSmall : tail < 1) :
    NearestEven ((sig + tail) / 2 ^ (s + 1))
      (if 2 ^ s < r ∨ (r = 2 ^ s ∧ (tail ≠ 0 ∨ q % 2 = 1)) then q + 1 else q : ℕ) := by
  have half : (0 : ℚ) < 2 * 2 ^ s := by positivity
  have value : ((sig : ℚ) + tail) / 2 ^ (s + 1) = (q : ℤ) + (r + tail) / (2 * 2 ^ s) := by
    rw [parts]
    push_cast
    field_simp
    ring
  have castSmall : (r : ℚ) + 1 ≤ 2 * 2 ^ s := by
    rw [← pow_succ']
    exact_mod_cast small
  have middle : (1 / 2 : ℚ) = 2 ^ s / (2 * 2 ^ s) := by field_simp
  rw [value]
  split
  · next up =>
      rw [Nat.cast_succ]
      apply nearestEven_up
      · rw [div_lt_one half]
        linarith
      rw [middle, div_lt_div_iff_of_pos_right half, div_left_inj' half.ne']
      rcases up with above | ⟨tie, inexact | odd⟩
      · left
        have castAbove : (2 : ℚ) ^ s < r := by exact_mod_cast above
        linarith
      · left
        have castTie : (r : ℚ) = 2 ^ s := by exact_mod_cast tie
        have positive : 0 < tail := lt_of_le_of_ne tailNonneg inexact.symm
        linarith
      · have castTie : (r : ℚ) = 2 ^ s := by exact_mod_cast tie
        rcases tailNonneg.eq_or_lt with exact | positive
        · right
          refine ⟨?_, by omega⟩
          linarith
        · left
          linarith
  · next down =>
      apply nearestEven_down (by positivity)
      rw [middle, div_lt_div_iff_of_pos_right half, div_left_inj' half.ne']
      rcases Nat.lt_or_ge r (2 ^ s) with below | above
      · left
        have castBelow : (r : ℚ) + 1 ≤ 2 ^ s := by exact_mod_cast below
        linarith
      · right
        have tie : r = 2 ^ s := by omega
        have castTie : (r : ℚ) = 2 ^ s := by exact_mod_cast tie
        have rest : ¬(tail ≠ 0 ∨ q % 2 = 1) := fun high => down (.inr ⟨tie, high⟩)
        simp only [ne_eq, not_or, not_not] at rest
        refine ⟨?_, by omega⟩
        linarith

end Integer

/-! ### The numbers of a format -/

/-- An integer of at most `p + 1` bits, scaled by a power of two. -/
def Representable (p : ℕ) (c : ℚ) : Prop :=
  ∃ k e : ℤ, |k| < 2 ^ (p + 1) ∧ c = k * 2 ^ e

section Format

variable {p : ℕ} {c : ℚ}

theorem Representable.neg (number : Representable p c) : Representable p (-c) := by
  rcases number with ⟨k, e, bound, rfl⟩
  refine ⟨-k, e, ?_, ?_⟩
  · rwa [abs_neg]
  · push_cast
    ring

theorem two_zpow_split {e E : ℤ} (order : E ≤ e) :
    (2 : ℚ) ^ e = ((2 ^ (e - E).toNat : ℤ) : ℚ) * 2 ^ E := by
  have total : e = ((e - E).toNat : ℤ) + E := by omega
  conv_lhs => rw [total, zpow_add₀ two_ne_zero, zpow_natCast]
  push_cast
  rfl

/-- A number of the format is a whole number of units, or smaller than every number that is
rounded to that unit. -/
theorem Representable.grid (number : Representable p c) (E : ℤ) :
    (∃ k : ℤ, c = k * 2 ^ E) ∨ |c| < 2 ^ p * 2 ^ E := by
  rcases number with ⟨k, e, bound, rfl⟩
  by_cases order : E ≤ e
  · left
    refine ⟨k * 2 ^ (e - E).toNat, ?_⟩
    rw [two_zpow_split order]
    push_cast
    ring
  · right
    have finer : e + 1 ≤ E := by omega
    have castBound : |(k : ℚ)| < 2 ^ (p + 1) := by exact_mod_cast bound
    rw [abs_mul, abs_of_pos (zpow_pos two_pos e : (0 : ℚ) < 2 ^ e)]
    calc
      |(k : ℚ)| * 2 ^ e < 2 ^ (p + 1) * 2 ^ e :=
        mul_lt_mul_of_pos_right castBound (zpow_pos two_pos e)
      _ = 2 ^ p * 2 ^ (e + 1) := by
        rw [zpow_add_one₀ two_ne_zero]
        ring
      _ ≤ 2 ^ p * 2 ^ E := by
        apply mul_le_mul_of_nonneg_left (zpow_le_zpow_right₀ one_le_two finer)
        positivity

variable {x : ℚ} {n E : ℤ}

theorem distance_scaled (x : ℚ) (k E : ℤ) :
    |x * 2 ^ E - k * 2 ^ E| = |x - k| * 2 ^ E := by
  rw [← sub_mul, abs_mul, abs_of_pos (zpow_pos two_pos E : (0 : ℚ) < 2 ^ E)]

/-- No number of the format is nearer than the rounded one, and one that is as near is passed over
for an even number of units. -/
theorem NearestEven.nearest (nearest : NearestEven x n) (normal : 2 ^ p ≤ x)
    (number : Representable p c) :
    |x * 2 ^ E - n * 2 ^ E| ≤ |x * 2 ^ E - c| ∧
      (|x * 2 ^ E - c| = |x * 2 ^ E - n * 2 ^ E| → c ≠ n * 2 ^ E → n % 2 = 0) := by
  have unit : (0 : ℚ) < 2 ^ E := zpow_pos two_pos E
  rcases number.grid E with ⟨k, rfl⟩ | below
  · rw [distance_scaled, distance_scaled]
    refine ⟨mul_le_mul_of_nonneg_right (nearest.le k) unit.le, ?_⟩
    intro same differ
    refine nearest.tie (k := k) ?_ (mul_right_cancel₀ unit.ne' same)
    rintro rfl
    exact differ rfl
  · have least := nearest.le (2 ^ p)
    push_cast at least
    rw [abs_of_nonneg (sub_nonneg.mpr normal)] at least
    have scaled : |x * 2 ^ E - n * 2 ^ E| ≤ (x - 2 ^ p) * 2 ^ E := by
      rw [distance_scaled]
      exact mul_le_mul_of_nonneg_right least unit.le
    have further : (x - 2 ^ p) * 2 ^ E < |x * 2 ^ E - c| := by
      calc
        (x - 2 ^ p) * 2 ^ E = x * 2 ^ E - 2 ^ p * 2 ^ E := by ring
        _ < x * 2 ^ E - |c| := by linarith
        _ ≤ x * 2 ^ E - c := by linarith [le_abs_self c]
        _ ≤ |x * 2 ^ E - c| := le_abs_self _
    have strict := scaled.trans_lt further
    exact ⟨strict.le, fun same _ => absurd same strict.ne'⟩

end Format

/-! ### Truncation -/

/-- The integer part, toward zero. -/
def truncate (v : ℚ) : ℤ := if 0 ≤ v then ⌊v⌋ else ⌈v⌉

theorem truncate_of_nonneg {v : ℚ} (nonneg : 0 ≤ v) : truncate v = ⌊v⌋ := if_pos nonneg

theorem truncate_neg {v : ℚ} (nonneg : 0 ≤ v) : truncate (-v) = -⌊v⌋ := by
  unfold truncate
  split
  · next also =>
      have zero : v = 0 := le_antisymm (neg_nonneg.mp also) nonneg
      simp [zero]
  · exact Int.ceil_neg

/-- The number nearest to `n` between two bounds. -/
def saturate (low high n : ℤ) : ℤ := max low (min high n)

end Rounding
