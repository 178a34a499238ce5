import MlKernel.Isp.Codec
import Mathlib.Algebra.Ring.Nat

/-!
# Words in memory

What is read back where words and half words were written, and the numbers that masks, shifts and
fields side by side stand for.
-/

namespace MlKernel.Isp

/-! ### Fields of a word -/

/-- Fields that do not overlap add up, as far as the word goes. -/
theorem or_shift_toNat_mod {low high k : UInt32} {bits : ℕ} (shift : k.toNat = bits)
    (few : bits < 32) (small : low.toNat < 2 ^ bits) :
    (low ||| high <<< k).toNat = low.toNat + high.toNat % 2 ^ (32 - bits) * 2 ^ bits := by
  have whole : 2 ^ 32 = 2 ^ (32 - bits) * 2 ^ bits := by
    rw [← Nat.pow_add, Nat.sub_add_cancel (Nat.le_of_lt few)]
  rw [UInt32.toNat_or, UInt32.toNat_shiftLeft, shift, Nat.mod_eq_of_lt few, Nat.shiftLeft_eq, whole,
    Nat.mul_mod_mul_right, Nat.or_comm, Nat.mul_comm _ (2 ^ bits),
    ← Nat.two_pow_add_eq_or_of_lt small, Nat.add_comm]

theorem or_shift_toNat {low high k : UInt32} {bits : ℕ} (shift : k.toNat = bits) (few : bits < 32)
    (small : low.toNat < 2 ^ bits) (fits : high.toNat * 2 ^ bits < 2 ^ 32) :
    (low ||| high <<< k).toNat = low.toNat + high.toNat * 2 ^ bits := by
  have whole : 2 ^ 32 = 2 ^ (32 - bits) * 2 ^ bits := by
    rw [← Nat.pow_add, Nat.sub_add_cancel (Nat.le_of_lt few)]
  rw [whole] at fits
  rw [or_shift_toNat_mod shift few small, Nat.mod_eq_of_lt (Nat.lt_of_mul_lt_mul_right fits)]

theorem low_bits (v mask : UInt32) {bits : ℕ} (isMask : mask.toNat = 2 ^ bits - 1) :
    (v &&& mask).toNat = v.toNat % 2 ^ bits := by
  rw [UInt32.toNat_and, isMask, Nat.and_two_pow_sub_one_eq_mod]

theorem high_bits (v k : UInt32) {bits : ℕ} (shift : k.toNat = bits) (few : bits < 32) :
    (v >>> k).toNat = v.toNat / 2 ^ bits := by
  rw [UInt32.toNat_shiftRight, shift, Nat.mod_eq_of_lt few, Nat.shiftRight_eq_div_pow]

/-! ### Bytes and words -/

theorem arIspGetLe32_toNat (p : Bytes) (offset : ℕ) :
    (arIspGetLe32 p offset).toNat = (p offset).toNat + (p (offset + 1)).toNat * 2 ^ 8 +
      (p (offset + 2)).toNat * 2 ^ 16 + (p (offset + 3)).toNat * 2 ^ 24 := by
  have b0 : (p offset).toUInt32.toNat < 2 ^ 8 := (p offset).toNat_lt
  have b1 : (p (offset + 1)).toUInt32.toNat < 2 ^ 8 := (p (offset + 1)).toNat_lt
  have b2 : (p (offset + 2)).toUInt32.toNat < 2 ^ 8 := (p (offset + 2)).toNat_lt
  have b3 : (p (offset + 3)).toUInt32.toNat < 2 ^ 8 := (p (offset + 3)).toNat_lt
  have two := @or_shift_toNat (p offset).toUInt32 (p (offset + 1)).toUInt32 8 8 rfl (by omega) b0
    (by omega)
  have three := @or_shift_toNat _ (p (offset + 2)).toUInt32 16 16 rfl (by omega)
    (by rw [two]; omega) (by omega)
  have four := @or_shift_toNat _ (p (offset + 3)).toUInt32 24 24 rfl (by omega)
    (by rw [three, two]; omega) (by omega)
  rw [arIspGetLe32, four, three, two]
  rfl

theorem arIspGetLe32_congr {p q : Bytes} {offset : ℕ}
    (same : ∀ cell, offset ≤ cell → cell < offset + 4 → p cell = q cell) :
    arIspGetLe32 p offset = arIspGetLe32 q offset := by
  unfold arIspGetLe32
  rw [same offset (by omega) (by omega), same (offset + 1) (by omega) (by omega),
    same (offset + 2) (by omega) (by omega), same (offset + 3) (by omega) (by omega)]

theorem arIspPutLe32_byte {j : ℕ} (inside : j < 4) (offset : ℕ) (v : UInt32) (memory : Bytes) :
    (arIspPutLe32 offset v memory (offset + j)).toNat = v.toNat / 2 ^ (8 * j) % 2 ^ 8 := by
  rcases j with _ | _ | _ | _ | j
  · simp [arIspPutLe32, Fills.put]
  · simp [arIspPutLe32, Fills.put, Nat.shiftRight_eq_div_pow]
  · simp [arIspPutLe32, Fills.put, Nat.shiftRight_eq_div_pow]
  · simp [arIspPutLe32, Fills.put, Nat.shiftRight_eq_div_pow]
  · omega

theorem arIspGetLe32_putLe32 (offset : ℕ) (v : UInt32) (memory : Bytes) :
    arIspGetLe32 (arIspPutLe32 offset v memory) offset = v := by
  have small : v.toNat < 2 ^ 32 := v.toNat_lt
  have byte (j : ℕ) (inside : j < 4) := arIspPutLe32_byte inside offset v memory
  have b0 := byte 0 (by decide)
  apply UInt32.toNat_inj.mp
  rw [Nat.add_zero] at b0
  rw [arIspGetLe32_toNat, b0, byte 1 (by decide), byte 2 (by decide), byte 3 (by decide)]
  omega

theorem arIspGetLe32_putLe32_of_ne {offset other : ℕ} (v : UInt32) (memory : Bytes)
    (apart : other + 4 ≤ offset ∨ offset + 4 ≤ other) :
    arIspGetLe32 (arIspPutLe32 offset v memory) other = arIspGetLe32 memory other := by
  apply arIspGetLe32_congr
  intro cell low high
  exact (putLe32_fills offset v).frame memory cell (by omega)

theorem arIspPutLe16_bytes (offset : ℕ) (v : UInt16) (memory : Bytes) :
    (arIspPutLe16 offset v memory offset).toNat = v.toNat % 2 ^ 8 ∧
      (arIspPutLe16 offset v memory (offset + 1)).toNat = v.toNat / 2 ^ 8 := by
  have small : v.toNat < 2 ^ 16 := v.toNat_lt
  constructor
  · simp [arIspPutLe16, Fills.put]
  · have byte : (arIspPutLe16 offset v memory (offset + 1)).toNat = v.toNat / 2 ^ 8 % 2 ^ 8 := by
      simp [arIspPutLe16, Fills.put, Nat.shiftRight_eq_div_pow]
    omega

/-- Two half words make up the word that starts with the first one. -/
theorem arIspGetLe32_putLe16 (offset : ℕ) (h0 h1 : UInt16) (memory : Bytes) :
    (arIspGetLe32 (arIspPutLe16 (offset + 2) h1 (arIspPutLe16 offset h0 memory)) offset).toNat =
      h0.toNat + h1.toNat * 2 ^ 16 := by
  have low := arIspPutLe16_bytes offset h0 memory
  have high := arIspPutLe16_bytes (offset + 2) h1 (arIspPutLe16 offset h0 memory)
  have kept (cell : ℕ) (below : cell < offset + 2) :=
    (putLe16_fills (offset + 2) h1).frame (arIspPutLe16 offset h0 memory) cell (.inl below)
  rw [arIspGetLe32_toNat, kept offset (by omega), kept (offset + 1) (by omega), low.1, low.2,
    high.1, high.2]
  omega

theorem arIspGetLe32_putLe16_of_ne {offset other : ℕ} (v : UInt16) (memory : Bytes)
    (apart : other + 4 ≤ offset ∨ offset + 2 ≤ other) :
    arIspGetLe32 (arIspPutLe16 offset v memory) other = arIspGetLe32 memory other := by
  apply arIspGetLe32_congr
  intro cell low high
  exact (putLe16_fills offset v).frame memory cell (by omega)

end MlKernel.Isp
