import Mathlib.Algebra.Order.Ring.Nat
import Mathlib.Tactic.Common

/-!
# The lowest set bit

The index of the lowest set bit of a number is the exponent of the largest power of two that
divides it.  Numbers put together bit by bit are divided by the powers of two that divide all of
them.
-/

/-- The index of the lowest set bit among the low `width` ones, or `width`. -/
def lowBit (width n : ℕ) : ℕ :=
  match width with
  | 0 => 0
  | width + 1 => if n % 2 = 1 then 0 else lowBit width (n / 2) + 1

namespace LowBit

variable {width n : ℕ}

theorem two_pow_dvd_iff (some : ¬2 ^ width ∣ n) (k : ℕ) : 2 ^ k ∣ n ↔ k ≤ lowBit width n := by
  induction width generalizing n k with
  | zero => exact absurd (Nat.one_dvd n) some
  | succ width ih =>
      unfold lowBit
      split
      · next odd =>
          cases k with
          | zero => simp
          | succ k =>
              have even : ¬2 ^ (k + 1) ∣ n := by
                intro divides
                have two := Nat.dvd_trans (Dvd.intro_left (2 ^ k) (Nat.pow_succ ..).symm) divides
                omega
              simp [even]
      · next notOdd =>
          have half : n = 2 * (n / 2) := by omega
          have some' : ¬2 ^ width ∣ n / 2 := by
            intro divides
            apply some
            rw [half, Nat.pow_succ']
            exact Nat.mul_dvd_mul_left 2 divides
          cases k with
          | zero => simp
          | succ k =>
              rw [Nat.succ_le_succ_iff, ← ih some' k]
              nth_rewrite 1 [half]
              rw [Nat.pow_succ', Nat.mul_dvd_mul_iff_left (by decide)]

theorem two_pow_dvd_or {a b k : ℕ} : 2 ^ k ∣ a ||| b ↔ 2 ^ k ∣ a ∧ 2 ^ k ∣ b := by
  simp only [Nat.dvd_iff_mod_eq_zero, Nat.or_mod_two_pow, Nat.or_eq_zero_iff]

end LowBit
