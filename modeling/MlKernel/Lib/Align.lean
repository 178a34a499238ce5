import Mathlib.Algebra.Ring.Nat
import Mathlib.Tactic.Common

/-!
# Rounding up to a multiple

`Align.up x a` is the least multiple of `a` that is not below `x`.  On machine
words of width `w` the rounding is done with a mask, which agrees with `up` for
powers of two that leave room above `x`.
-/

namespace Align

/-- `x` rounded up to a multiple of `a`. -/
def up (x a : ℕ) : ℕ := (x + (a - 1)) / a * a

theorem dvd_up (x a : ℕ) : a ∣ up x a :=
  Nat.dvd_mul_left a _

theorem le_up (x : ℕ) {a : ℕ} (positive : 0 < a) : x ≤ up x a := by
  have := Nat.div_add_mod (x + (a - 1)) a
  have := Nat.mod_lt (x + (a - 1)) positive
  rw [up, Nat.mul_comm]
  omega

theorem up_le_of_dvd {x a multiple : ℕ} (positive : 0 < a) (dvd : a ∣ multiple)
    (le : x ≤ multiple) : up x a ≤ multiple := by
  rcases dvd with ⟨quotient, rfl⟩
  have : (x + (a - 1)) / a ≤ quotient := by
    rw [Nat.div_le_iff_le_mul positive, Nat.mul_comm quotient a]
    omega
  calc up x a ≤ quotient * a := Nat.mul_le_mul_right a this
    _ = a * quotient := Nat.mul_comm quotient a

theorem up_mono {x y : ℕ} (a : ℕ) (le : x ≤ y) : up x a ≤ up y a :=
  Nat.mul_le_mul_right a (Nat.div_le_div_right (by omega))

/-- `ALIGN(x, a)` on words of width `w`. -/
def upMask (w x a : ℕ) : ℕ := (x + (a - 1)) % 2 ^ w &&& (2 ^ w - 1 - (a - 1))

/-- Clearing the low `k` bits of a word rounds it down. -/
theorem and_mask {w k x : ℕ} (le : k ≤ w) (lt : x < 2 ^ w) :
    x &&& (2 ^ w - 1 - (2 ^ k - 1)) = x / 2 ^ k * 2 ^ k := by
  have positive : 0 < 2 ^ k := Nat.two_pow_pos k
  have smaller : 2 ^ k - 1 < 2 ^ w :=
    Nat.lt_of_lt_of_le (by omega) (Nat.pow_le_pow_right Nat.two_pos le)
  have mask : 2 ^ w - 1 - (2 ^ k - 1) = 2 ^ w - (2 ^ k - 1 + 1) := by omega
  rw [mask, ← Nat.shiftRight_eq_div_pow, ← Nat.shiftLeft_eq]
  apply Nat.eq_of_testBit_eq
  intro bit
  rw [Nat.testBit_and, Nat.testBit_two_pow_sub_succ smaller, Nat.testBit_two_pow_sub_one,
    Nat.testBit_shiftLeft, Nat.testBit_shiftRight]
  rcases Nat.lt_or_ge bit k with low | high
  · simp [low, Nat.not_le.mpr low]
  · rcases Nat.lt_or_ge bit w with inside | outside
    · have : k + (bit - k) = bit := by omega
      simp [high, inside, this, Nat.not_lt.mpr high]
    · have : k + (bit - k) = bit := by omega
      have : x.testBit bit = false :=
        Nat.testBit_lt_two_pow (Nat.lt_of_lt_of_le lt (Nat.pow_le_pow_right Nat.two_pos outside))
      simp [*]

/-- Where the word has no room above `x`, the rounding wraps to zero. -/
theorem upMask_eq_up_mod {w k x : ℕ} (le : k ≤ w) (word : x < 2 ^ w) :
    upMask w x (2 ^ k) = up x (2 ^ k) % 2 ^ w := by
  have positive : 0 < 2 ^ k := Nat.two_pow_pos k
  have smaller : 2 ^ k ≤ 2 ^ w := Nat.pow_le_pow_right Nat.two_pos le
  have fits : (x + (2 ^ k - 1)) % 2 ^ w < 2 ^ w := Nat.mod_lt _ (by omega)
  rw [upMask, and_mask le fits, up]
  rcases Nat.lt_or_ge (x + (2 ^ k - 1)) (2 ^ w) with room | wraps
  · have below : (x + (2 ^ k - 1)) / 2 ^ k * 2 ^ k < 2 ^ w :=
      Nat.lt_of_le_of_lt (Nat.div_mul_le_self _ _) room
    rw [Nat.mod_eq_of_lt room, Nat.mod_eq_of_lt below]
  · have low : (x + (2 ^ k - 1)) % 2 ^ w < 2 ^ k := by
      rw [Nat.mod_eq_sub_mod wraps, Nat.mod_eq_of_lt (by omega)]
      omega
    rw [Nat.div_eq_of_lt low, Nat.zero_mul]
    have power : 2 ^ w = 2 ^ k * 2 ^ (w - k) := by
      rw [← Nat.pow_add, Nat.add_sub_cancel' le]
    have quotient : (x + (2 ^ k - 1)) / 2 ^ k = 2 ^ (w - k) := by
      apply Nat.div_eq_of_lt_le
      · rw [Nat.mul_comm, ← power]
        exact wraps
      · rw [Nat.succ_mul, Nat.mul_comm, ← power]
        omega
    rw [quotient, Nat.mul_comm, ← power, Nat.mod_self]

theorem upMask_eq_up {w x a : ℕ} (power : a.isPowerOfTwo) (room : x + a ≤ 2 ^ w) :
    upMask w x a = up x a := by
  rcases power with ⟨k, rfl⟩
  have positive : 0 < 2 ^ k := Nat.two_pow_pos k
  have le : k ≤ w := by
    apply (Nat.pow_le_pow_iff_right Nat.one_lt_two).mp
    omega
  rw [upMask, Nat.mod_eq_of_lt (by omega), and_mask le (by omega), up]

end Align
