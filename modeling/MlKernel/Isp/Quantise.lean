import Mathlib.Algebra.Order.Floor.Semifield
import MlKernel.Isp.BandWalk

/-!
# Gains in fixed point

The lens-shading grid and the colour matrix are stored as float32 and fetched by the block in fixed
point.  Both decoders cut the magnitude off in units of their own and limit it to their field; they
differ in what they make of the sign.
-/

namespace MlKernel.Isp

open Binary32

def arIspLscQ : ℕ := 11
def arIspCcmQ : ℕ := 8
def arIspCcmMagMax : UInt32 := 0x7fff
def arIspCcmSign : UInt32 := 0x8000
def arIspF32Sign : UInt32 := 0x80000000

/-- The magnitude of a float with `q` fractional bits, within the limit of its field. -/
def f32Magnitude (q : ℕ) (limit bits : UInt32) : UInt32 :=
  let mant := arIspF32Mant bits
  let shift := arIspF32MantBits - q - arIspF32Exp bits
  if 32 ≤ shift then 0
  else if shift ≤ 0 then limit
  else
    let scaled := mant >>> UInt32.ofNat shift.toNat
    if limit < scaled then limit else scaled

/-- A gain of the lens-shading grid; the sign bit makes it zero. -/
def arIspF32Scale (bits : UInt32) : UInt16 :=
  if bits &&& arIspF32Sign ≠ 0 then 0 else (f32Magnitude arIspLscQ 0xffff bits).toUInt16

/-- A coefficient of the colour matrix, in sign and magnitude. -/
def arIspF32Q8sm (bits : UInt32) : UInt16 :=
  if bits &&& ~~~arIspF32Sign = 0 then 0
  else
    let mag := f32Magnitude arIspCcmQ arIspCcmMagMax bits
    if bits &&& arIspF32Sign ≠ 0 then (arIspCcmSign ||| mag).toUInt16 else mag.toUInt16

/-! ### The magnitude -/

section Magnitude

variable {bits limit : UInt32} {q : ℕ}

theorem f32Magnitude_toNat_fields : (f32Magnitude q limit bits).toNat =
    if biased bits + q ≤ 118 then 0
    else if 150 ≤ biased bits + q then limit.toNat
    else min limit.toNat ((2 ^ 23 + fraction bits) / 2 ^ (150 - q - biased bits)) := by
  have shift : arIspF32MantBits - q - arIspF32Exp bits = 150 - (q : ℤ) - biased bits := by
    rw [arIspF32Exp_eq, arIspF32MantBits]
    omega
  have low : 32 ≤ 150 - (q : ℤ) - biased bits ↔ biased bits + q ≤ 118 := by omega
  have high : 150 - (q : ℤ) - biased bits ≤ 0 ↔ 150 ≤ biased bits + q := by omega
  simp only [f32Magnitude, shift, low, high]
  by_cases isLow : biased bits + q ≤ 118
  · simp only [if_pos isLow]
    rfl
  by_cases isHigh : 150 ≤ biased bits + q
  · simp only [if_neg isLow, if_pos isHigh]
  · simp only [if_neg isLow, if_neg isHigh]
    have places : (150 - (q : ℤ) - biased bits).toNat = 150 - q - biased bits := by omega
    have shifted := arIspF32Mant_shiftRight bits (by omega : 150 - q - biased bits < 32)
    rw [places]
    split
    · next exceeds =>
        rw [UInt32.lt_iff_toNat_lt, shifted] at exceeds
        exact (Nat.min_eq_left exceeds.le).symm
    · next within =>
        rw [UInt32.lt_iff_toNat_lt, shifted, Nat.not_lt] at within
        rw [shifted, Nat.min_eq_right within]

/-- The decoders cut off towards zero, as far as the field goes. -/
theorem f32Magnitude_toNat (few : q ≤ 22) (field : limit.toNat < 2 ^ 23) :
    (f32Magnitude q limit bits).toNat = min limit.toNat ⌊|value bits| * 2 ^ q⌋₊ := by
  have small : fraction bits < 2 ^ 23 := Nat.mod_lt _ (by decide)
  rw [f32Magnitude_toNat_fields, abs_value]
  by_cases subnormal : biased bits = 0
  · have least : ⌊(significand bits : ℚ) * 2 ^ exponent bits * 2 ^ q⌋₊ = 0 := by
      rw [Nat.floor_eq_zero]
      have mantissa : (significand bits : ℚ) < 2 ^ 24 := by exact_mod_cast significand_lt bits
      have units : (2 : ℚ) ^ q ≤ 2 ^ 22 := pow_le_pow_right₀ one_le_two few
      simp only [exponent, subnormal, if_true]
      calc
        (significand bits : ℚ) * 2 ^ (-149 : ℤ) * 2 ^ q
            ≤ 2 ^ 24 * 2 ^ (-149 : ℤ) * 2 ^ 22 := by gcongr
        _ < 1 := by norm_num
    rw [if_pos (by omega), least, Nat.min_zero]
  have scaled : (significand bits : ℚ) * 2 ^ exponent bits * 2 ^ q =
      ((2 ^ 23 + fraction bits : ℕ) : ℚ) * 2 ^ ((biased bits + q : ℕ) - 150 : ℤ) := by
    have weight : ((biased bits + q : ℕ) - 150 : ℤ) = biased bits - 150 + q := by omega
    simp only [significand, exponent, subnormal, if_false]
    rw [weight, zpow_add₀ two_ne_zero, zpow_natCast, mul_assoc]
  have down (places : ℕ) (weight : ((biased bits + q : ℕ) - 150 : ℤ) = -(places : ℤ)) :
      ⌊(significand bits : ℚ) * 2 ^ exponent bits * 2 ^ q⌋₊ =
        (2 ^ 23 + fraction bits) / 2 ^ places := by
    rw [scaled, weight, zpow_neg, zpow_natCast, ← div_eq_mul_inv]
    exact_mod_cast Nat.floor_div_eq_div (K := ℚ) (2 ^ 23 + fraction bits) (2 ^ places)
  split
  · next low =>
      rw [down (150 - (biased bits + q)) (by omega)]
      have power : 2 ^ 32 ≤ 2 ^ (150 - (biased bits + q)) :=
        Nat.pow_le_pow_right (by decide) (by omega)
      rw [Nat.div_eq_of_lt (by omega), Nat.min_zero]
  · split
    · next high =>
        rcases Nat.exists_eq_add_of_le high with ⟨up, sum⟩
        have weight : ((biased bits + q : ℕ) - 150 : ℤ) = up := by omega
        have grown : 2 ^ 23 ≤ (2 ^ 23 + fraction bits) * 2 ^ up :=
          (Nat.le_add_right _ _).trans (Nat.le_mul_of_pos_right _ (Nat.two_pow_pos up))
        have floor : ⌊(significand bits : ℚ) * 2 ^ exponent bits * 2 ^ q⌋₊ =
            (2 ^ 23 + fraction bits) * 2 ^ up := by
          rw [scaled, weight, zpow_natCast]
          exact_mod_cast Nat.floor_natCast (R := ℚ) ((2 ^ 23 + fraction bits) * 2 ^ up)
        rw [floor, Nat.min_eq_left (by omega)]
    · rw [down (150 - q - biased bits) (by omega)]

/-- What the block reads of a decoded magnitude: within one unit below it, as far as the field
goes. -/
theorem truncated_within {v : ℚ} (nonneg : 0 ≤ v) (q most : ℕ) :
    ((min most ⌊v * 2 ^ q⌋₊ : ℕ) : ℚ) / 2 ^ q ≤ v ∧
      (v * 2 ^ q < most + 1 → v - 1 / 2 ^ q < ((min most ⌊v * 2 ^ q⌋₊ : ℕ) : ℚ) / 2 ^ q) := by
  have unit : (0 : ℚ) < 2 ^ q := by positivity
  have scaledNonneg : 0 ≤ v * 2 ^ q := by positivity
  have floor := Nat.floor_le scaledNonneg
  have next := Nat.lt_floor_add_one (v * 2 ^ q)
  constructor
  · rw [div_le_iff₀ unit]
    exact (Nat.cast_le.mpr (Nat.min_le_right _ _)).trans floor
  · intro inField
    have fits : ⌊v * 2 ^ q⌋₊ ≤ most := by
      apply Nat.lt_succ_iff.mp
      apply (Nat.floor_lt scaledNonneg).mpr
      push_cast
      exact inField
    rw [Nat.min_eq_right fits, lt_div_iff₀ unit, sub_mul, one_div, inv_mul_cancel₀ unit.ne']
    linarith

/-! ### The signs -/

theorem sign_eq_zero_iff (bits : UInt32) : bits &&& arIspF32Sign = 0 ↔ ¬IsNegative bits :=
  signBit_eq_zero_iff bits

theorem arIspF32Scale_toNat (bits : UInt32) : (arIspF32Scale bits).toNat =
    if IsNegative bits then 0 else min (2 ^ 16 - 1) ⌊value bits * 2 ^ arIspLscQ⌋₊ := by
  by_cases negative : IsNegative bits
  · have sign := (sign_eq_zero_iff bits).not.mpr (not_not.mpr negative)
    simp [arIspF32Scale, sign, negative]
  · have sign := (sign_eq_zero_iff bits).mpr negative
    have magnitude : (f32Magnitude arIspLscQ 0xffff bits).toNat = _ :=
      f32Magnitude_toNat (by decide) (by decide)
    rw [abs_of_nonneg (value_nonneg negative)] at magnitude
    have fits : (f32Magnitude arIspLscQ 0xffff bits).toNat < 2 ^ 16 := by
      rw [magnitude]
      exact (Nat.min_le_left _ _).trans_lt (by decide)
    simp only [arIspF32Scale, sign, ne_eq, not_true, if_false, negative, UInt32.toNat_toUInt16]
    rw [Nat.mod_eq_of_lt fits, magnitude]
    rfl

/-- How the block reads a coefficient of the matrix. -/
def ccmCoefficient (word : ℕ) : ℚ :=
  (if word / 2 ^ 15 % 2 = 1 then -1 else 1) * ((word % 2 ^ 15 : ℕ) : ℚ) / 2 ^ arIspCcmQ

theorem ccmCoefficient_q8sm (bits : UInt32) : ccmCoefficient (arIspF32Q8sm bits).toNat =
    signOf (IsNegative bits) *
      (((min (2 ^ 15 - 1) ⌊|value bits| * 2 ^ arIspCcmQ⌋₊ : ℕ) : ℚ) / 2 ^ arIspCcmQ) := by
  have magnitude : (f32Magnitude arIspCcmQ arIspCcmMagMax bits).toNat = _ :=
    f32Magnitude_toNat (by decide) (by decide)
  have fits : (f32Magnitude arIspCcmQ arIspCcmMagMax bits).toNat < 2 ^ 15 := by
    rw [magnitude]
    exact (Nat.min_le_left _ _).trans_lt (by decide)
  have limit : arIspCcmMagMax.toNat = 2 ^ 15 - 1 := rfl
  rw [limit] at magnitude
  by_cases zero : bits &&& ~~~arIspF32Sign = 0
  · have isZero : IsZero bits := by
      have low : (bits &&& ~~~arIspF32Sign).toNat = bits.toNat % 2 ^ 31 := by
        rw [UInt32.toNat_and]
        exact Nat.and_two_pow_sub_one_eq_mod _ 31
      rw [zero] at low
      exact low.symm
    simp [arIspF32Q8sm, zero, isZero.value_eq, ccmCoefficient]
  · by_cases negative : IsNegative bits
    · have sign := (sign_eq_zero_iff bits).not.mpr (not_not.mpr negative)
      have word : (arIspCcmSign ||| f32Magnitude arIspCcmQ arIspCcmMagMax bits).toUInt16.toNat =
          2 ^ 15 + (f32Magnitude arIspCcmQ arIspCcmMagMax bits).toNat := by
        rw [UInt32.toNat_toUInt16, UInt32.toNat_or, Nat.or_comm]
        have sum := Nat.or_two_pow_eq_add_of_lt fits
        have small : (f32Magnitude arIspCcmQ arIspCcmMagMax bits).toNat + 2 ^ 15 < 2 ^ 16 := by
          omega
        have top : arIspCcmSign.toNat = 2 ^ 15 := rfl
        rw [top, sum, Nat.mod_eq_of_lt small, Nat.add_comm]
      simp only [arIspF32Q8sm, zero, sign, ne_eq, not_false_eq_true, if_true, if_false, word,
        ccmCoefficient, signOf, negative]
      have signBit :
          (2 ^ 15 + (f32Magnitude arIspCcmQ arIspCcmMagMax bits).toNat) / 2 ^ 15 % 2 = 1 := by
        omega
      have low : (2 ^ 15 + (f32Magnitude arIspCcmQ arIspCcmMagMax bits).toNat) % 2 ^ 15 =
          (f32Magnitude arIspCcmQ arIspCcmMagMax bits).toNat := by
        omega
      rw [if_pos signBit, low, magnitude, mul_div_assoc]
    · have sign := (sign_eq_zero_iff bits).mpr negative
      simp only [arIspF32Q8sm, zero, sign, ne_eq, not_true, if_false, ccmCoefficient, signOf,
        negative, UInt32.toNat_toUInt16]
      have small : (f32Magnitude arIspCcmQ arIspCcmMagMax bits).toNat % 2 ^ 16 =
          (f32Magnitude arIspCcmQ arIspCcmMagMax bits).toNat := by
        omega
      have signBit : ¬(f32Magnitude arIspCcmQ arIspCcmMagMax bits).toNat / 2 ^ 15 % 2 = 1 := by
        omega
      rw [small, if_neg signBit, Nat.mod_eq_of_lt fits, magnitude, mul_div_assoc]

end Magnitude

end MlKernel.Isp
