import Mathlib.Algebra.Order.Ring.Int
import Mathlib.Algebra.Order.Ring.Abs
import Mathlib.Tactic.Common

/-!
# Division to the nearest

`closest n d` is the quotient `n / d` rounded to the nearest number, upward between two.  A count
of units `s` that is converted to units of `r`, at most half as long, is recovered by the
conversion back, and so is the difference of two such counts.
-/

namespace DivRound

/-- `n / d` to the nearest. -/
def closest (n d : ℕ) : ℕ := (n + d / 2) / d

/-- No multiple of `d` is nearer to `n` than `q` times `d`. -/
def Nearest (n d q : ℕ) : Prop :=
  ∀ m : ℕ, |(q * d : ℤ) - n| ≤ |(m * d : ℤ) - n|

section Bounds

variable {n m d q : ℕ}

theorem closest_mul_le (n d : ℕ) : closest n d * d ≤ n + d / 2 :=
  Nat.div_mul_le_self _ _

theorem lt_closest_mul (positive : 0 < d) : n + d / 2 < closest n d * d + d := by
  have step := Nat.lt_mul_div_succ (n + d / 2) positive
  rwa [Nat.mul_comm, Nat.add_mul, Nat.one_mul] at step

theorem closest_eq (low : q * d ≤ n + d / 2) (high : n + d / 2 < q * d + d) : closest n d = q := by
  apply Nat.div_eq_of_lt_le low
  rwa [Nat.add_mul, Nat.one_mul]

theorem closest_zero (positive : 0 < d) : closest 0 d = 0 :=
  closest_eq (by omega) (by omega)

theorem closest_mono (d : ℕ) (order : n ≤ m) : closest n d ≤ closest m d :=
  Nat.div_le_div_right (Nat.add_le_add_right order _)

theorem closest_lt_iff {bound : ℕ} (positive : 0 < d) :
    closest n d < bound ↔ n + d / 2 < bound * d :=
  Nat.div_lt_iff_lt_mul positive

end Bounds

/-! ### The nearest quotients -/

section Nearest

variable {n d q : ℕ}

theorem Nearest.below (nearest : Nearest n d q) (positive : 0 < d) :
    2 * n ≤ 2 * (q * d) + d := by
  have next := nearest (q + 1)
  have shift : ((q + 1 : ℕ) * d : ℤ) = ((q * d : ℕ) : ℤ) + d := by
    push_cast
    rw [Int.add_mul, Int.one_mul]
  rw [shift, ← Int.natCast_mul] at next
  generalize q * d = p at next ⊢
  grind

theorem nearest_of_near (low : 2 * (q * d) ≤ 2 * n + d) (high : 2 * n ≤ 2 * (q * d) + d) :
    Nearest n d q := by
  intro m
  have apart : m = q ∨ q * d + d ≤ m * d ∨ m * d + d ≤ q * d := by
    rcases Nat.lt_trichotomy m q with less | same | more
    · have step := Nat.mul_le_mul_right d (Nat.succ_le_of_lt less)
      rw [Nat.succ_mul] at step
      exact .inr (.inr step)
    · exact .inl same
    · have step := Nat.mul_le_mul_right d (Nat.succ_le_of_lt more)
      rw [Nat.succ_mul] at step
      exact .inr (.inl step)
  rw [← Int.natCast_mul, ← Int.natCast_mul]
  rcases apart with same | above | below
  · rw [same]
  · generalize q * d = p at low high above ⊢
    generalize m * d = other at above ⊢
    grind
  · generalize q * d = p at low high below ⊢
    generalize m * d = other at below ⊢
    grind

theorem closest_nearest (positive : 0 < d) : Nearest n d (closest n d) := by
  have low := closest_mul_le n d
  have high := @lt_closest_mul n d positive
  exact nearest_of_near (by omega) (by omega)

end Nearest

/-! ### There and back -/

section Conversion

variable {j k r s : ℕ}

/-- What is converted to units that are at most half as long is recovered from a difference. -/
theorem closest_sub_closest (positive : 0 < r) (fine : 2 * r ≤ s) (j k : ℕ) :
    closest ((closest ((j + k) * s) r - closest (k * s) r) * r) s = j := by
  have order : closest (k * s) r ≤ closest ((j + k) * s) r :=
    closest_mono r (Nat.mul_le_mul_right s (Nat.le_add_left k j))
  have low := closest_mul_le ((j + k) * s) r
  have high := @lt_closest_mul ((j + k) * s) r positive
  have low' := closest_mul_le (k * s) r
  have high' := @lt_closest_mul (k * s) r positive
  have down : closest (k * s) r * r ≤ closest ((j + k) * s) r * r := Nat.mul_le_mul_right r order
  generalize closest ((j + k) * s) r = total at low high order down ⊢
  rw [Nat.add_mul] at low high
  apply closest_eq
  · rw [Nat.sub_mul]
    omega
  · rw [Nat.sub_mul]
    omega

theorem closest_closest (positive : 0 < r) (fine : 2 * r ≤ s) (j : ℕ) :
    closest (closest (j * s) r * r) s = j := by
  have difference := closest_sub_closest positive fine j 0
  rwa [Nat.add_zero, Nat.zero_mul, closest_zero positive, Nat.sub_zero] at difference

end Conversion

end DivRound
