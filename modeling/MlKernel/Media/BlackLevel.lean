import MlKernel.Isp.Words
import MlKernel.Isp.BandWalk
import Mathlib.Algebra.Order.Floor.Semifield

/-!
# The black level

The tuning file holds five calibration entries and a ladder with a pair of gains for each.  Two
neighbouring entries are mixed with a weight in Q16, the four lanes are laid out twice in a block
of registers, and the bounds of the ladder are decoded from their binary32 patterns.
-/

namespace MlKernel.Media

open MlKernel.Isp

/-! ### The tuning file -/

def arIspBlcBlobLadder : ℕ := 0x34
def arIspBlcBlobTable : ℕ := 0xb4
def arIspBlcEntries : ℕ := 5
def arIspBlcGroupOff : ℕ := 0x10
def arIspBlcEntrySize : ℕ := 0x20

structure Firmware where
  size : ℕ
  data : Bytes

/-- A float32 as a truncated unsigned integer. -/
def arCvispF32ToU32 (bits : UInt32) : UInt32 :=
  let mant := arIspF32Mant bits
  let exp := arIspF32Exp bits
  if bits &&& (0x80000000 : UInt32) ≠ 0 ∨ exp < 0 then 0
  else if 30 < exp then 0xffffffff
  else if arIspF32MantBits ≤ exp then mant <<< UInt32.ofNat (exp - arIspF32MantBits).toNat
  else mant >>> UInt32.ofNat (arIspF32MantBits - exp).toNat

/-- The first gain of pair `k`. -/
def blcFirst (data : Bytes) (k : ℕ) : UInt32 :=
  arCvispF32ToU32 (arIspGetLe32 data (arIspBlcBlobLadder + k * 8))

/-- The second gain of pair `k`. -/
def blcSecond (data : Bytes) (k : ℕ) : UInt32 :=
  arCvispF32ToU32 (arIspGetLe32 data (arIspBlcBlobLadder + k * 8 + 4))

/-- Two groups of values, by lane. -/
@[ext] structure BlcEntry where
  scale : ℕ → UInt32
  level : ℕ → UInt32

def arIspBlcEntry (data : Bytes) (index : ℕ) : BlcEntry where
  scale i := arIspGetLe32 data (arIspBlcBlobTable + index * arIspBlcEntrySize + 4 * i)
  level i :=
    arIspGetLe32 data (arIspBlcBlobTable + index * arIspBlcEntrySize + arIspBlcGroupOff + 4 * i)

/-! ### The register block -/

def arIspBlcBank : ℕ := 0x4200
def arIspBlcBlock : ℕ := 0x40
def arIspBlcRegScale : ℕ := 0x00
def arIspBlcRegScaleAlt : ℕ := 0x10
def arIspBlcRegLevel : ℕ := 0x20
def arIspBlcRegLevelAlt : ℕ := 0x30
def arIspBlcLane : ℕ := 4
def arIspBlcScaleShift : UInt32 := 6
def arIspBlcBlendOne : UInt32 := 65536

/-- `blend` is the low value's weight in Q16. -/
def arIspBlcMix (lo hi blend : UInt32) : UInt32 :=
  let sum := lo.toUInt64 * blend.toUInt64 + hi.toUInt64 * (arIspBlcBlendOne - blend).toUInt64
  (sum / arIspBlcBlendOne.toUInt64).toUInt32

def blcFillLane (lo hi : BlcEntry) (blend : UInt32) (block : Bytes) (i : ℕ) : Bytes :=
  let scale := arIspBlcMix (lo.scale i) (hi.scale i) blend
  let level := arIspBlcMix (lo.level i) (hi.level i) blend
  let scale := scale <<< arIspBlcScaleShift
  let block := arIspPutLe32 (arIspBlcRegScale + 4 * i) scale block
  let block := arIspPutLe32 (arIspBlcRegScaleAlt + 4 * i) scale block
  let block := arIspPutLe32 (arIspBlcRegLevel + 4 * i) level block
  arIspPutLe32 (arIspBlcRegLevelAlt + 4 * i) level block

def arIspBlcFill (block : Bytes) (lo hi : BlcEntry) (blend : UInt32) : Bytes :=
  (List.range arIspBlcLane).foldl (blcFillLane lo hi blend) block

/-! ### The selection -/

/-- The walk up the ladder: the last pair that the gain has passed. -/
def blcWalk (data : Bytes) (gain : UInt32) : (remaining i sel : ℕ) → ℕ
  | 0, _, sel => sel
  | remaining + 1, i, sel =>
      if gain < blcSecond data i then sel else blcWalk data gain remaining (i + 1) i

def blcSel (data : Bytes) (gain : UInt32) : ℕ := blcWalk data gain (arIspBlcEntries - 1) 0 0

/-- The low entry's weight between two bounds. -/
def blcBlend (gain boundLo boundHi : UInt32) : UInt32 :=
  if gain ≤ boundLo ∨ boundHi ≤ boundLo then arIspBlcBlendOne
  else if boundHi ≤ gain then 0
  else
    arIspBlcBlendOne -
      (((gain - boundLo).toUInt64 * arIspBlcBlendOne.toUInt64) /
        (boundHi - boundLo).toUInt64).toUInt32

/-- The registers that are written; none of them leaves the replayed constants. -/
def arCvispBlcApply (blc : Bool) (fw : Option Firmware) (blcGain : UInt32) (block : Bytes) :
    List (ℕ × UInt32) :=
  if blc then
    match fw with
    | none => []
    | some fw =>
        if fw.size < arIspBlcBlobTable + arIspBlcEntries * arIspBlcEntrySize then []
        else
          let sel := blcSel fw.data blcGain
          let blend := blcBlend blcGain (blcSecond fw.data sel) (blcFirst fw.data (sel + 1))
          let block := arIspBlcFill block (arIspBlcEntry fw.data sel)
            (arIspBlcEntry fw.data (sel + 1)) blend
          (List.range (arIspBlcBlock / 4)).map fun j =>
            (arIspBlcBank + 4 * j, arIspGetLe32 block (4 * j))
  else []

/-! ### The bounds of the ladder -/

section Bound

open Binary32

variable {bits : UInt32}

theorem arCvispF32ToU32_negative (negative : IsNegative bits) : arCvispF32ToU32 bits = 0 := by
  have sign : bits &&& 0x80000000 ≠ 0 := fun zero =>
    (signBit_eq_zero_iff bits).mp zero negative
  rw [arCvispF32ToU32, if_pos (.inl sign)]

/-- The decoder by the exponent field. -/
theorem arCvispF32ToU32_toNat (plus : ¬IsNegative bits) :
    (arCvispF32ToU32 bits).toNat =
      if biased bits ≤ 126 then 0
      else if 157 < biased bits then 2 ^ 32 - 1
      else if 150 ≤ biased bits then (2 ^ 23 + fraction bits) * 2 ^ (biased bits - 150)
      else (2 ^ 23 + fraction bits) / 2 ^ (150 - biased bits) := by
  have low : (biased bits : ℤ) - 127 < 0 ↔ biased bits ≤ 126 := by omega
  have high : 30 < (biased bits : ℤ) - 127 ↔ 157 < biased bits := by omega
  have whole : (23 : ℤ) ≤ (biased bits : ℤ) - 127 ↔ 150 ≤ biased bits := by omega
  simp only [arCvispF32ToU32, arIspF32Exp_eq, arIspF32MantBits, ne_eq,
    (signBit_eq_zero_iff bits).mpr plus, not_true_eq_false, false_or, low, high, whole]
  generalize biased bits = e
  by_cases isLow : e ≤ 126
  · simp only [if_pos isLow]
    rfl
  by_cases isHigh : 157 < e
  · simp only [if_neg isLow, if_pos isHigh]
    rfl
  by_cases isWhole : 150 ≤ e
  · simp only [if_neg isLow, if_neg isHigh, if_pos isWhole]
    rcases Nat.exists_eq_add_of_le isWhole with ⟨up, rfl⟩
    have places : (((150 + up : ℕ) : ℤ) - 127 - 23).toNat = up := by omega
    rw [places, Nat.add_sub_cancel_left]
    exact arIspF32Mant_shiftLeft bits (by omega)
  · simp only [if_neg isLow, if_neg isHigh, if_neg isWhole]
    have places : (23 - ((e : ℤ) - 127)).toNat = 150 - e := by omega
    rw [places]
    exact arIspF32Mant_shiftRight bits (by omega)

/-- A bound is truncated, as far as its exponent is decoded. -/
theorem arCvispF32ToU32_floor (plus : ¬IsNegative bits) (decoded : biased bits ≤ 157) :
    (arCvispF32ToU32 bits).toNat = ⌊value bits⌋₊ := by
  have high : ¬157 < biased bits := Nat.not_lt.mpr decoded
  rw [arCvispF32ToU32_toNat plus, if_neg high]
  split
  · next low =>
      have step : (2 : ℚ) ^ ((biased bits : ℤ) - 149) ≤ 2 ^ (-23 : ℤ) :=
        zpow_le_zpow_right₀ one_le_two (by omega)
      have below : value bits < 1 := by
        calc
          value bits < 2 ^ 23 * 2 ^ ((biased bits : ℤ) - 149) := value_lt_next plus
          _ ≤ 2 ^ 23 * 2 ^ (-23 : ℤ) := mul_le_mul_of_nonneg_left step (by positivity)
          _ = 1 := by norm_num
      exact (Nat.floor_eq_zero.mpr below).symm
  · next notLow =>
      have normal : biased bits ≠ 0 := by omega
      rw [value_of_nonneg plus]
      simp only [significand, exponent, normal, if_false]
      split
      · next whole =>
          have power : (2 : ℚ) ^ ((biased bits : ℤ) - 150) =
              ((2 ^ (biased bits - 150) : ℕ) : ℚ) := by
            rw [Nat.cast_pow, Nat.cast_ofNat, ← zpow_natCast, Nat.cast_sub whole]
            rfl
          rw [power, ← Nat.cast_mul, Nat.floor_natCast]
      · next part =>
          have power : (2 : ℚ) ^ ((biased bits : ℤ) - 150) =
              (((2 ^ (150 - biased bits) : ℕ) : ℚ))⁻¹ := by
            rw [Nat.cast_pow, Nat.cast_ofNat, ← zpow_natCast, ← zpow_neg,
              Nat.cast_sub (by omega : biased bits ≤ 150)]
            congr 1
            omega
          rw [power, ← div_eq_mul_inv, Nat.floor_div_eq_div]

theorem truncated_eq_decoded (plus : ¬IsNegative bits) (decoded : biased bits ≤ 157) :
    truncated bits = (arCvispF32ToU32 bits).toNat := by
  rw [arCvispF32ToU32_floor plus decoded, truncated_of_nonneg plus,
    Int.natCast_floor_eq_floor (value_nonneg plus)]

/-- The decoder truncates, but a negative number is 0 and one from 2^31 on the largest. -/
theorem arCvispF32ToU32_truncated (bits : UInt32) :
    ((arCvispF32ToU32 bits).toNat : ℤ) =
      if truncated bits < 2 ^ 31 then max 0 (truncated bits) else 2 ^ 32 - 1 := by
  by_cases minus : IsNegative bits
  · have low := truncated_nonpos minus
    rw [arCvispF32ToU32_negative minus, if_pos (by omega), max_eq_left low]
    rfl
  by_cases decoded : biased bits ≤ 157
  · have below : value bits < 2 ^ 31 := by
      calc
        value bits < 2 ^ 23 * 2 ^ ((biased bits : ℤ) - 149) := value_lt_next minus
        _ ≤ 2 ^ 23 * 2 ^ (8 : ℤ) :=
          mul_le_mul_of_nonneg_left (zpow_le_zpow_right₀ one_le_two (by omega)) (by positivity)
        _ = 2 ^ 31 := by norm_num
    have short : truncated bits < 2 ^ 31 := by
      rw [truncated_of_nonneg minus]
      exact Int.floor_lt.mpr (by exact_mod_cast below)
    rw [if_pos short, truncated_eq_decoded minus decoded, max_eq_right (Int.natCast_nonneg _)]
  · have least : (2 : ℚ) ^ 31 ≤ value bits := by
      calc
        (2 : ℚ) ^ 31 = 2 ^ 23 * 2 ^ (8 : ℤ) := by norm_num
        _ ≤ 2 ^ 23 * 2 ^ ((biased bits : ℤ) - 150) :=
          mul_le_mul_of_nonneg_left (zpow_le_zpow_right₀ one_le_two (by omega)) (by positivity)
        _ ≤ value bits := le_value_of_biased minus (by omega)
    have reached : (2 ^ 31 : ℤ) ≤ truncated bits := by
      rw [truncated_of_nonneg minus]
      exact Int.le_floor.mpr (by exact_mod_cast least)
    have saturated : (arCvispF32ToU32 bits).toNat = 2 ^ 32 - 1 := by
      rw [arCvispF32ToU32_toNat minus, if_neg (by omega), if_pos (by omega)]
    rw [saturated, if_neg (by omega)]
    rfl

end Bound

/-! ### The registers -/

/-- The entry that is loaded, lane by lane. -/
def blcMixed (lo hi : BlcEntry) (blend : UInt32) : BlcEntry where
  scale i := arIspBlcMix (lo.scale i) (hi.scale i) blend
  level i := arIspBlcMix (lo.level i) (hi.level i) blend

/-- Two groups of scales, shifted into their place, and two of levels. -/
def blcWord (e : BlcEntry) (j : ℕ) : UInt32 :=
  if j < 8 then e.scale (j % 4) <<< arIspBlcScaleShift else e.level (j % 4)

def blcBank (e : BlcEntry) : List (ℕ × UInt32) :=
  (List.range 16).map fun j => (arIspBlcBank + 4 * j, blcWord e j)

theorem getLe32_putLe32_word (i j : ℕ) (v : UInt32) (block : Bytes) :
    arIspGetLe32 (arIspPutLe32 (4 * i) v block) (4 * j) =
      if j = i then v else arIspGetLe32 block (4 * j) := by
  split
  · next same =>
      subst same
      exact arIspGetLe32_putLe32 (4 * j) v block
  · next other => exact arIspGetLe32_putLe32_of_ne v block (by omega)

theorem blcFillLane_word (lo hi : BlcEntry) (blend : UInt32) (block : Bytes) (i j : ℕ) :
    arIspGetLe32 (blcFillLane lo hi blend block i) (4 * j) =
      if j = i + 12 ∨ j = i + 8 then (blcMixed lo hi blend).level i
      else if j = i + 4 ∨ j = i then (blcMixed lo hi blend).scale i <<< arIspBlcScaleShift
      else arIspGetLe32 block (4 * j) := by
  have levelAlt : arIspBlcRegLevelAlt + 4 * i = 4 * (i + 12) := by
    unfold arIspBlcRegLevelAlt
    omega
  have levelOff : arIspBlcRegLevel + 4 * i = 4 * (i + 8) := by
    unfold arIspBlcRegLevel
    omega
  have scaleAlt : arIspBlcRegScaleAlt + 4 * i = 4 * (i + 4) := by
    unfold arIspBlcRegScaleAlt
    omega
  have scaleOff : arIspBlcRegScale + 4 * i = 4 * i := Nat.zero_add (4 * i)
  simp only [blcFillLane, levelAlt, levelOff, scaleAlt, scaleOff, getLe32_putLe32_word, blcMixed]
  grind

/-- The lanes that have been filled so far. -/
theorem fillLanes_word (lo hi : BlcEntry) (blend : UInt32) (block : Bytes) {lanes j : ℕ}
    (few : lanes ≤ 4) (inside : j < 16) (filled : j % 4 < lanes) :
    arIspGetLe32 ((List.range lanes).foldl (blcFillLane lo hi blend) block) (4 * j) =
      blcWord (blcMixed lo hi blend) j := by
  induction lanes with
  | zero => exact absurd filled (Nat.not_lt_zero _)
  | succ lanes ih =>
      rw [List.range_succ, List.foldl_append, List.foldl_cons, List.foldl_nil, blcFillLane_word,
        blcWord]
      rcases Nat.lt_or_eq_of_le (Nat.le_of_lt_succ filled) with earlier | last
      · rw [if_neg (by omega), if_neg (by omega), ih (by omega) earlier, blcWord]
      · subst last
        by_cases upper : j < 8
        · rw [if_neg (by omega), if_pos (by omega), if_pos upper]
        · rw [if_pos (by omega), if_neg upper]

theorem arIspBlcFill_word (block : Bytes) (lo hi : BlcEntry) (blend : UInt32) {j : ℕ}
    (inside : j < 16) :
    arIspGetLe32 (arIspBlcFill block lo hi blend) (4 * j) = blcWord (blcMixed lo hi blend) j :=
  fillLanes_word lo hi blend block (Nat.le_refl 4) inside (Nat.mod_lt j (by decide))

/-! ### The mix -/

theorem mixed_sum_le {lo hi weight top : ℕ} (least : lo ≤ top) (most : hi ≤ top)
    (small : weight ≤ 65536) : lo * weight + hi * (65536 - weight) ≤ top * 65536 := by
  calc
    lo * weight + hi * (65536 - weight) ≤ top * weight + top * (65536 - weight) :=
      Nat.add_le_add (Nat.mul_le_mul_right _ least) (Nat.mul_le_mul_right _ most)
    _ = top * 65536 := by rw [← Nat.mul_add, Nat.add_sub_cancel' small]

theorem arIspBlcMix_toNat (lo hi : UInt32) {blend : UInt32} (small : blend.toNat ≤ 65536) :
    (arIspBlcMix lo hi blend).toNat =
      (lo.toNat * blend.toNat + hi.toNat * (65536 - blend.toNat)) / 65536 := by
  have loSmall : lo.toNat < 2 ^ 32 := lo.toNat_lt
  have hiSmall : hi.toNat < 2 ^ 32 := hi.toNat_lt
  have rest : (arIspBlcBlendOne - blend).toNat = 65536 - blend.toNat := by
    rw [UInt32.toNat_sub_of_le]
    · rfl
    · exact UInt32.le_iff_toNat_le.mpr small
  have bound := @mixed_sum_le lo.toNat hi.toNat blend.toNat (2 ^ 32 - 1) (by omega) (by omega) small
  have one : arIspBlcBlendOne.toUInt64.toNat = 65536 := rfl
  simp only [arIspBlcMix, UInt64.toNat_toUInt32, UInt64.toNat_div, UInt64.toNat_add,
    UInt64.toNat_mul, UInt32.toNat_toUInt64, rest, one]
  generalize lo.toNat * blend.toNat = share at bound ⊢
  generalize hi.toNat * (65536 - blend.toNat) = share' at bound ⊢
  omega

/-- The low value's weight is what the fraction leaves of one. -/
theorem arIspBlcMix_truncated (lo hi : UInt32) {blend : UInt32} (small : blend.toNat ≤ 65536) :
    ((arIspBlcMix lo hi blend).toNat : ℤ) =
      Blend.truncated 65536 ((65536 - blend.toNat : ℕ) : ℤ) lo.toNat hi.toNat := by
  have rest : (65536 : ℤ) - ((65536 - blend.toNat : ℕ) : ℤ) = (blend.toNat : ℤ) := by omega
  rw [arIspBlcMix_toNat lo hi small, Blend.truncated, Blend.weighted, rest,
    Int.tdiv_eq_ediv_of_nonneg]
  · simp
  · exact Int.add_nonneg (Int.mul_nonneg (Int.natCast_nonneg _) (Int.natCast_nonneg _))
      (Int.mul_nonneg (Int.natCast_nonneg _) (Int.natCast_nonneg _))

theorem arIspBlcMix_between (lo hi : UInt32) {blend : UInt32} (small : blend.toNat ≤ 65536) :
    min lo.toNat hi.toNat ≤ (arIspBlcMix lo hi blend).toNat ∧
      (arIspBlcMix lo hi blend).toNat ≤ max lo.toNat hi.toNat := by
  have between := @Blend.truncated_between 65536 ((65536 - blend.toNat : ℕ) : ℤ) lo.toNat hi.toNat
    (by decide) (by omega) (by omega)
  rw [← arIspBlcMix_truncated lo hi small] at between
  omega

theorem arIspBlcMix_zero (lo hi : UInt32) : arIspBlcMix lo hi 0 = hi := by
  apply UInt32.toNat_inj.mp
  rw [arIspBlcMix_toNat lo hi (by decide)]
  simp

theorem arIspBlcMix_one (lo hi : UInt32) : arIspBlcMix lo hi arIspBlcBlendOne = lo := by
  apply UInt32.toNat_inj.mp
  rw [arIspBlcMix_toNat lo hi (by decide)]
  simp [arIspBlcBlendOne]

theorem blcMixed_zero (lo hi : BlcEntry) : blcMixed lo hi 0 = hi := by
  apply BlcEntry.ext
  · exact funext fun i => arIspBlcMix_zero (lo.scale i) (hi.scale i)
  · exact funext fun i => arIspBlcMix_zero (lo.level i) (hi.level i)

theorem blcMixed_one (lo hi : BlcEntry) : blcMixed lo hi arIspBlcBlendOne = lo := by
  apply BlcEntry.ext
  · exact funext fun i => arIspBlcMix_one (lo.scale i) (hi.scale i)
  · exact funext fun i => arIspBlcMix_one (lo.level i) (hi.level i)

/-! ### The weight -/

theorem blcBlend_low {gain boundLo boundHi : UInt32} (inside : gain ≤ boundLo) :
    blcBlend gain boundLo boundHi = arIspBlcBlendOne :=
  if_pos (.inl inside)

theorem blcBlend_high {gain boundLo boundHi : UInt32} (gap : boundLo < boundHi)
    (inside : boundHi ≤ gain) : blcBlend gain boundLo boundHi = 0 := by
  have past : ¬(gain ≤ boundLo ∨ boundHi ≤ boundLo) := by
    rw [UInt32.le_iff_toNat_le, UInt32.le_iff_toNat_le]
    rw [UInt32.lt_iff_toNat_lt] at gap
    rw [UInt32.le_iff_toNat_le] at inside
    omega
  rw [blcBlend, if_neg past, if_pos inside]

/-- Inside a gap the high entry's weight is the fraction of the gap that is passed. -/
theorem blcBlend_gap {gain boundLo boundHi : UInt32} (above : boundLo < gain)
    (below : gain < boundHi) :
    (blcBlend gain boundLo boundHi).toNat =
      65536 - Blend.fraction 65536 (gain.toNat - boundLo.toNat)
        (boundHi.toNat - boundLo.toNat) := by
  have depth := UInt32.lt_iff_toNat_lt.mp above
  have rest := UInt32.lt_iff_toNat_lt.mp below
  have inside : ¬(gain ≤ boundLo ∨ boundHi ≤ boundLo) := by
    rw [UInt32.le_iff_toNat_le, UInt32.le_iff_toNat_le]
    omega
  have short : ¬boundHi ≤ gain := UInt32.not_le.mpr below
  have scaled : (gain - boundLo).toUInt64 * arIspBlcBlendOne.toUInt64 =
      (gain - boundLo).toUInt64 <<< 16 := by
    apply UInt64.toNat_inj.mp
    rw [UInt64.toNat_mul, UInt64.toNat_shiftLeft, Nat.shiftLeft_eq]
    rfl
  have quotient := @gapQuotient_toNat gain boundHi boundLo 16 (by decide) above below
  have less : Blend.fraction 65536 (gain.toNat - boundLo.toNat)
      (boundHi.toNat - boundLo.toNat) < 65536 :=
    Blend.fraction_lt (by decide) (by omega)
  rw [blcBlend, if_neg inside, if_neg short, scaled, UInt32.toNat_sub_of_le, quotient]
  · rfl
  · rw [UInt32.le_iff_toNat_le, quotient]
    exact Nat.le_of_lt less

theorem blcBlend_le (gain boundLo boundHi : UInt32) :
    (blcBlend gain boundLo boundHi).toNat ≤ 65536 := by
  by_cases low : gain ≤ boundLo ∨ boundHi ≤ boundLo
  · rw [blcBlend, if_pos low]
    exact Nat.le_refl 65536
  · rcases not_or.mp low with ⟨above, -⟩
    by_cases high : boundHi ≤ gain
    · rw [blcBlend, if_neg low, if_pos high]
      exact Nat.zero_le 65536
    · rw [blcBlend_gap (UInt32.not_le.mp above) (UInt32.not_le.mp high)]
      exact Nat.sub_le 65536 _

end MlKernel.Media
