import MlKernel.Isp.Ladder
import MlKernel.Isp.SoftFloatCorrect
import MlKernel.Lib.Binary32Order
import MlKernel.Lib.Blend
import Mathlib.Data.Nat.Bitwise

/-!
# The band walks

A walk stops at the first band whose high edge the abscissa does not exceed, or at the last band.
The integer walk compares truncated Q16 edges, the binary32 walk compares patterns, and the two
stop at the same band.
-/

namespace MlKernel.Isp

open Binary32 Rounding

/-! ### Where a walk stops -/

section Bands

variable {count band : ℕ} {reaches other : ℕ → Bool}

theorem bandOf_le (count : ℕ) (reaches : ℕ → Bool) : bandOf count reaches ≤ count - 1 := by
  have bound := @List.findIdx_le_length _ reaches (List.range (count - 1))
  rwa [List.length_range] at bound

theorem bandOf_before (before : band < bandOf count reaches) : reaches band = false := by
  have missed := List.not_of_lt_findIdx before
  rwa [List.getElem_range] at missed

theorem bandOf_reaches (inside : bandOf count reaches + 1 < count) :
    reaches (bandOf count reaches) = true := by
  have short : bandOf count reaches < (List.range (count - 1)).length := by
    rw [List.length_range]
    omega
  have found : reaches ((List.range (count - 1))[bandOf count reaches]) = true :=
    List.findIdx_getElem
  rwa [List.getElem_range] at found

/-- The walk stops at the one band that it can stop at. -/
theorem bandOf_eq (inside : band ≤ count - 1) (before : ∀ j, j < band → reaches j = false)
    (stops : band + 1 < count → reaches band = true) : bandOf count reaches = band := by
  rcases Nat.lt_trichotomy (bandOf count reaches) band with below | same | above
  · have missed := before _ below
    rw [@bandOf_reaches count reaches (by omega)] at missed
    cases missed
  · exact same
  · have bound := bandOf_le count reaches
    have missed := bandOf_before above
    rw [stops (by omega)] at missed
    cases missed

theorem bandOf_congr (same : ∀ j, j + 1 < count → reaches j = other j) :
    bandOf count reaches = bandOf count other := by
  apply bandOf_eq (bandOf_le count other)
  · intro j before
    have bound := bandOf_le count other
    rw [same j (by omega)]
    exact bandOf_before before
  · intro inside
    rw [same _ inside]
    exact bandOf_reaches inside

end Bands

/-! ### The fraction of a gap -/

/-- The 64-bit quotient of the walks, where the abscissa is in the gap. -/
theorem gapQuotient_toNat {scalar lo prevHi : UInt32} {shift : UInt64} (few : shift.toNat ≤ 31)
    (above : prevHi < scalar) (below : scalar < lo) :
    (((scalar - prevHi).toUInt64 <<< shift) / (lo - prevHi).toUInt64).toUInt32.toNat =
      Blend.fraction (2 ^ shift.toNat) (scalar.toNat - prevHi.toNat)
        (lo.toNat - prevHi.toNat) := by
  have gap := UInt32.lt_trans above below
  have depth := UInt32.lt_iff_toNat_lt.mp above
  have rest := UInt32.lt_iff_toNat_lt.mp below
  have small : scalar.toNat - prevHi.toNat < 2 ^ 32 := by
    have bound := scalar.toNat_lt
    omega
  have unit : 2 ^ shift.toNat ≤ 2 ^ 31 := Nat.pow_le_pow_right (by decide) few
  have room : (scalar.toNat - prevHi.toNat) * 2 ^ shift.toNat < 2 ^ 64 := by
    calc
      (scalar.toNat - prevHi.toNat) * 2 ^ shift.toNat < 2 ^ 32 * 2 ^ 31 :=
        Nat.mul_lt_mul_of_lt_of_le small unit (by decide)
      _ < 2 ^ 64 := by decide
  have less : Blend.fraction (2 ^ shift.toNat) (scalar.toNat - prevHi.toNat)
      (lo.toNat - prevHi.toNat) < 2 ^ shift.toNat :=
    Blend.fraction_lt (Nat.two_pow_pos _) (by omega)
  rw [UInt64.toNat_toUInt32, UInt64.toNat_div, UInt64.toNat_shiftLeft, UInt32.toNat_toUInt64,
    UInt32.toNat_toUInt64, UInt32.toNat_sub_of_le _ _ (UInt32.le_of_lt above),
    UInt32.toNat_sub_of_le _ _ (UInt32.le_of_lt gap), Nat.mod_eq_of_lt (by omega : _ < 64),
    Nat.shiftLeft_eq, Nat.mod_eq_of_lt room, Nat.mul_comm]
  exact Nat.mod_eq_of_lt (less.trans_le (unit.trans (by decide)))

/-! ### The edge decoder -/

theorem arIspF32Mant_toNat (bits : UInt32) :
    (arIspF32Mant bits).toNat = 2 ^ 23 + fraction bits := by
  have small : fraction bits < 2 ^ 23 := Nat.mod_lt _ (by decide)
  have low : (bits &&& 0x7fffff).toNat = fraction bits := by
    rw [UInt32.toNat_and]
    exact low23 bits.toNat
  rw [arIspF32Mant, UInt32.toNat_or, low]
  exact (Nat.or_two_pow_eq_add_of_lt small).trans (Nat.add_comm _ _)

theorem arIspF32Exp_eq (bits : UInt32) : arIspF32Exp bits = biased bits - 127 := by
  have field : ((bits >>> 23) &&& 0xff).toNat = biased bits := by
    rw [UInt32.toNat_and, UInt32.toNat_shiftRight]
    change bits.toNat >>> 23 &&& 0xff = _
    rw [Nat.shiftRight_eq_div_pow]
    exact Nat.and_two_pow_sub_one_eq_mod _ 8
  rw [arIspF32Exp, field]

theorem signBit_eq_zero_iff (bits : UInt32) : bits &&& 0x80000000 = 0 ↔ ¬IsNegative bits := by
  have small : bits.toNat < 2 ^ 32 := bits.toNat_lt
  have bit : bits.toNat &&& 2 ^ 31 = bits.toNat / 2 ^ 31 % 2 * 2 ^ 31 := by
    rw [Nat.and_two_pow, Nat.toNat_testBit]
  rw [← UInt32.toNat_inj, UInt32.toNat_and]
  change bits.toNat &&& 2 ^ 31 = 0 ↔ _
  unfold IsNegative
  omega

theorem arIspF32Mant_shiftLeft (bits : UInt32) {up : ℕ} (few : up ≤ 8) :
    (arIspF32Mant bits <<< UInt32.ofNat up).toNat = (2 ^ 23 + fraction bits) * 2 ^ up := by
  have small : fraction bits < 2 ^ 23 := Nat.mod_lt _ (by decide)
  have bound : (2 ^ 23 + fraction bits) * 2 ^ up < 2 ^ 24 * 2 ^ 8 := by
    apply Nat.mul_lt_mul_of_lt_of_le (by omega) _ (by omega)
    exact Nat.pow_le_pow_right (by omega) few
  rw [UInt32.toNat_shiftLeft, arIspF32Mant_toNat, UInt32.toNat_ofNat', Nat.shiftLeft_eq,
    Nat.mod_eq_of_lt (by omega : up < 2 ^ 32), Nat.mod_eq_of_lt (by omega : up < 32)]
  exact Nat.mod_eq_of_lt bound

theorem arIspF32Mant_shiftRight (bits : UInt32) {down : ℕ} (few : down < 32) :
    (arIspF32Mant bits >>> UInt32.ofNat down).toNat = (2 ^ 23 + fraction bits) / 2 ^ down := by
  rw [UInt32.toNat_shiftRight, arIspF32Mant_toNat, UInt32.toNat_ofNat',
    Nat.shiftRight_eq_div_pow, Nat.mod_eq_of_lt (by omega : down < 2 ^ 32),
    Nat.mod_eq_of_lt few]

/-- The decoder by the exponent field. -/
theorem arIspF32Q16_toNat {bits : UInt32} (plus : ¬IsNegative bits) :
    (arIspF32Q16 bits).toNat =
      if biased bits ≤ 102 then 0
      else if 142 < biased bits then 2 ^ 32 - 1
      else if 134 ≤ biased bits then (2 ^ 23 + fraction bits) * 2 ^ (biased bits - 134)
      else (2 ^ 23 + fraction bits) / 2 ^ (134 - biased bits) := by
  have shift : arIspF32MantBits - arIspLadderQ - arIspF32Exp bits = 134 - (biased bits : ℤ) := by
    rw [arIspF32Exp_eq, arIspF32MantBits, arIspLadderQ]
    omega
  have low : 32 ≤ 134 - (biased bits : ℤ) ↔ biased bits ≤ 102 := by omega
  have high : 134 - (biased bits : ℤ) < -8 ↔ 142 < biased bits := by omega
  have whole : 134 - (biased bits : ℤ) ≤ 0 ↔ 134 ≤ biased bits := by omega
  simp only [arIspF32Q16, shift, ne_eq, (signBit_eq_zero_iff bits).mpr plus, not_true_eq_false,
    if_false, low, high, whole]
  generalize biased bits = e
  by_cases isLow : e ≤ 102
  · simp only [if_pos isLow]
    rfl
  by_cases isHigh : 142 < e
  · simp only [if_neg isLow, if_pos isHigh]
    rfl
  by_cases isWhole : 134 ≤ e
  · simp only [if_neg isLow, if_neg isHigh, if_pos isWhole]
    rcases Nat.exists_eq_add_of_le isWhole with ⟨up, rfl⟩
    have places : (-(134 - ((134 + up : ℕ) : ℤ))).toNat = up := by omega
    rw [places, Nat.add_sub_cancel_left]
    exact arIspF32Mant_shiftLeft bits (by omega)
  · simp only [if_neg isLow, if_neg isHigh, if_neg isWhole]
    have places : (134 - (e : ℤ)).toNat = 134 - e := by omega
    rw [places]
    exact arIspF32Mant_shiftRight bits (by omega)

/-- A number with a leading one, in units of Q16. -/
theorem value_q16 {bits : UInt32} (plus : ¬IsNegative bits) (normal : biased bits ≠ 0) :
    value bits * 2 ^ 16 = ((2 ^ 23 + fraction bits : ℕ) : ℚ) * 2 ^ ((biased bits : ℤ) - 134) := by
  have weight : (biased bits : ℤ) - 134 = biased bits - 150 + 16 := by omega
  have units : (2 : ℚ) ^ (16 : ℤ) = 2 ^ 16 := zpow_natCast 2 16
  rw [value_of_nonneg plus, weight, zpow_add₀ two_ne_zero, units]
  simp only [significand, exponent, normal, if_false]
  ring

theorem value_q16_lt_one {bits : UInt32} (plus : ¬IsNegative bits) (low : biased bits ≤ 102) :
    value bits * 2 ^ 16 < 1 := by
  calc
    value bits * 2 ^ 16 < 2 ^ 23 * 2 ^ ((biased bits : ℤ) - 149) * 2 ^ 16 :=
      mul_lt_mul_of_pos_right (value_lt_next plus) (by positivity)
    _ ≤ 2 ^ 23 * 2 ^ (-47 : ℤ) * 2 ^ 16 := by
      gcongr
      · exact one_le_two
      · omega
    _ ≤ 1 := by norm_num

theorem le_value_q16 {bits : UInt32} (plus : ¬IsNegative bits) (high : 142 < biased bits) :
    2 ^ 32 ≤ value bits * 2 ^ 16 := by
  have most : (2 : ℚ) ^ (9 : ℤ) ≤ 2 ^ ((biased bits : ℤ) - 134) :=
    zpow_le_zpow_right₀ one_le_two (by omega)
  have least : (2 : ℚ) ^ 23 ≤ ((2 ^ 23 + fraction bits : ℕ) : ℚ) := by
    exact_mod_cast Nat.le_add_right (2 ^ 23) (fraction bits)
  rw [value_q16 plus (by omega)]
  calc
    (2 : ℚ) ^ 32 = 2 ^ 23 * 2 ^ (9 : ℤ) := by norm_num
    _ ≤ _ := mul_le_mul least most (by positivity) (by positivity)

/-- The decoder is the floor, as far as the Q16 range goes. -/
theorem le_arIspF32Q16_iff {bits : UInt32} (plus : ¬IsNegative bits) {q : ℕ} (small : q < 2 ^ 32) :
    q ≤ (arIspF32Q16 bits).toNat ↔ (q : ℚ) ≤ value bits * 2 ^ 16 := by
  rw [arIspF32Q16_toNat plus]
  split
  · next low =>
      have below := value_q16_lt_one plus low
      have nonneg := value_nonneg plus
      rw [Nat.le_zero]
      constructor
      · rintro rfl
        simp [nonneg]
      · intro under
        have none : (q : ℚ) < ((1 : ℕ) : ℚ) := by
          push_cast
          linarith
        exact Nat.lt_one_iff.mp (Nat.cast_lt.mp none)
  · next notLow =>
      have exact := value_q16 plus (by omega)
      split
      · next high =>
          have cast : (q : ℚ) ≤ ((2 ^ 32 : ℕ) : ℚ) := Nat.cast_le.mpr small.le
          push_cast at cast
          exact iff_of_true (by omega) (cast.trans (le_value_q16 plus high))
      · split
        · next whole =>
            rcases Nat.exists_eq_add_of_le whole with ⟨up, field⟩
            have weight : (biased bits : ℤ) - 134 = up := by omega
            rw [exact, weight, zpow_natCast, field, Nat.add_sub_cancel_left]
            norm_cast
        · next part =>
            have weight : (biased bits : ℤ) - 134 = -((134 - biased bits : ℕ) : ℤ) := by omega
            have unit : (0 : ℚ) < 2 ^ (134 - biased bits) := by positivity
            rw [exact, weight, zpow_neg, zpow_natCast, Nat.le_div_iff_mul_le (Nat.two_pow_pos _),
              ← div_eq_mul_inv, le_div_iff₀ unit]
            norm_cast

/-! ### The abscissa in binary32 -/

/-- The abscissa that the binary32 walk compares. -/
def abscissaF32 (gainQ16 : UInt32) : ArF32 := arF32ScaleDown (arF32FromS32 gainQ16.toInt32) 16

theorem toInt32_toInt {word : UInt32} (small : word.toNat < 2 ^ 31) :
    word.toInt32.toInt = word.toNat := by
  have signed : word.toInt32.toInt = (word.toNat : ℤ).bmod (2 ^ 32) :=
    BitVec.toInt_eq_toNat_bmod word.toBitVec
  rw [signed, Int.bmod_def]
  omega

/-- Scaling by sixteen places is exact from one on. -/
theorem arF32ScaleDown_sixteen {r : ArF32} (finite : IsFinite r) (least : 1 ≤ |value r|) :
    IsFinite (arF32ScaleDown r 16) ∧ value (arF32ScaleDown r 16) = value r / 2 ^ 16 := by
  have normal := finite.normal (le_trans (by norm_num) least)
  have places : (2 : ℚ) ^ (16 : Int32).toInt = 2 ^ 16 := by
    have sixteen : (16 : Int32).toInt = ((16 : ℕ) : ℤ) := by decide
    rw [sixteen, zpow_natCast]
  have magnitude : |value r / 2 ^ (16 : Int32).toInt| = |value r| / 2 ^ 16 := by
    rw [places, abs_div, abs_of_pos (by positivity : (0 : ℚ) < 2 ^ 16)]
  have scaled := @arF32ScaleDown_normal _ 16 normal ?_ ?_
  · rw [places] at scaled
    exact ⟨scaled.1.2, scaled.2⟩
  · rw [magnitude]
    refine le_trans ?_ (div_le_div_of_nonneg_right least (by positivity))
    norm_num
  · rw [magnitude]
    refine lt_of_le_of_lt (div_le_div_of_nonneg_right finite.abs_value_le (by positivity)) ?_
    norm_num

/-- The abscissa is converted and then scaled without a further rounding. -/
theorem abscissaF32_value {gainQ16 : UInt32} (small : gainQ16.toNat < 2 ^ 31) :
    ∃ r, RoundsTo gainQ16.toNat r ∧ value (abscissaF32 gainQ16) = value r / 2 ^ 16 ∧
      ¬IsNegative (abscissaF32 gainQ16) ∧ IsFinite (abscissaF32 gainQ16) ∧
      (0 < gainQ16.toNat → 1 ≤ value r) := by
  have rounds := arF32FromS32_roundsTo gainQ16.toInt32
  rw [toInt32_toInt small, Int.cast_natCast] at rounds
  refine ⟨_, rounds, ?_⟩
  rcases Nat.eq_zero_or_pos gainQ16.toNat with zero | positive
  · have same : gainQ16 = 0 := UInt32.toNat_inj.mp zero
    subst same
    have pattern : abscissaF32 0 = 0 := by decide
    have number : value 0 = 0 := @IsZero.value_eq 0 rfl
    have converted : arF32FromS32 (UInt32.toInt32 0) = 0 := by decide
    rw [pattern, converted, number]
    refine ⟨?_, by decide, by decide, nofun⟩
    norm_num
  · have least : 1 ≤ value (arF32FromS32 gainQ16.toInt32) := by
      have kept := @RoundsTo.two_zpow_le _ _ rounds 0 (by omega) (by omega)
      rw [zpow_zero] at kept
      exact kept (by exact_mod_cast positive)
    have magnitude : 1 ≤ |value (arF32FromS32 gainQ16.toInt32)| := least.trans (le_abs_self _)
    rcases arF32ScaleDown_sixteen rounds.finite magnitude with ⟨finite, scaled⟩
    refine ⟨scaled, ?_, finite, fun _ => least⟩
    apply not_isNegative_of_value_pos
    rw [abscissaF32, scaled]
    positivity

/-- A whole number of Q8 counts is converted without rounding. -/
theorem abscissaF32_exact {g8 : UInt32} (small : g8 < 0x800000) :
    ¬IsNegative (abscissaF32 (g8 <<< 8)) ∧
      value (abscissaF32 (g8 <<< 8)) * (2 ^ 16 : ℚ) = (g8 <<< 8).toNat := by
  have bound : g8.toNat < 2 ^ 23 := UInt32.lt_iff_toNat_lt.mp small
  have shifted : (g8 <<< 8).toNat = g8.toNat * 2 ^ 8 := by
    rw [UInt32.toNat_shiftLeft, Nat.shiftLeft_eq]
    exact Nat.mod_eq_of_lt (by change g8.toNat * 2 ^ 8 < 2 ^ 32; omega)
  rcases @abscissaF32_value (g8 <<< 8) (by omega) with ⟨r, rounds, scaled, plus, _⟩
  rcases @exists_value g8.toNat 8 (by omega) (by omega) (by omega) with ⟨c, finite, stands⟩
  have exact := rounds.exact finite ?_
  · rw [scaled, exact]
    exact ⟨plus, by field_simp⟩
  · rw [stands, shifted]
    norm_cast

/-! ### The walks agree -/

/-- The two walks select the same band of every table whose high edges are not negative. -/
theorem ladderWalks_same_band (blob : Bytes) (bands count : ℕ) (interp : UInt32) {g8 : UInt32}
    (small : g8 < 0x800000)
    (edges : ∀ band, band + 1 < count →
      arIspLadderEdge blob bands band arIspLadderBandHi < 0x80000000) :
    (arIspLadderWalk blob bands count interp (g8 <<< 8)).1 =
      (arIspLadderWalkF32 blob bands count interp (g8 <<< 8)).1 := by
  have integer : (arIspLadderWalk blob bands count interp (g8 <<< 8)).1 =
      bandOf count fun band => g8 <<< 8 ≤ arIspLadderHi blob bands band := by
    simp only [arIspLadderWalk]
    split <;> rfl
  have float : (arIspLadderWalkF32 blob bands count interp (g8 <<< 8)).1 =
      bandOf count fun band =>
        abscissaF32 (g8 <<< 8) ≤ arIspLadderEdge blob bands band arIspLadderBandHi := by
    simp only [arIspLadderWalkF32]
    split <;> rfl
  rcases abscissaF32_exact small with ⟨plus, exact⟩
  rw [integer, float]
  apply bandOf_congr
  intro band inside
  have edgePlus : ¬IsNegative (arIspLadderEdge blob bands band arIspLadderBandHi) := by
    have below := UInt32.lt_iff_toNat_lt.mp (edges band inside)
    exact Nat.not_le.mpr below
  have sixteen : (0 : ℚ) < 2 ^ 16 := by positivity
  apply decide_eq_decide.mpr
  calc
    g8 <<< 8 ≤ arIspLadderHi blob bands band ↔
        (g8 <<< 8).toNat ≤ (arIspLadderHi blob bands band).toNat := UInt32.le_iff_toNat_le
    _ ↔ ((g8 <<< 8).toNat : ℚ) ≤
        value (arIspLadderEdge blob bands band arIspLadderBandHi) * 2 ^ 16 :=
      le_arIspF32Q16_iff edgePlus (g8 <<< 8).toNat_lt
    _ ↔ value (abscissaF32 (g8 <<< 8)) ≤
        value (arIspLadderEdge blob bands band arIspLadderBandHi) := by
      rw [← exact, mul_le_mul_iff_of_pos_right sixteen]
    _ ↔ abscissaF32 (g8 <<< 8) ≤ arIspLadderEdge blob bands band arIspLadderBandHi :=
      value_le_value_iff plus edgePlus

/-- High edges that are subnormal, one and infinite, and a gain of one and a half. -/
theorem ladderWalks_same_band_infinite :
    let blob : Bytes := fun offset =>
      [0, 0, 0, 0, 1, 0, 0, 0, 0, 0, 0, 0, 0, 0, 0x80, 0x3f, 0, 0, 0, 0x40, 0, 0, 0x80,
        0x7f].getD offset 0
    let g8 : UInt32 := 0x180
    (arIspLadderWalk blob 0 4 1 (g8 <<< 8)).1 = 2 ∧
      (arIspLadderWalk blob 0 4 1 (g8 <<< 8)).1 = (arIspLadderWalkF32 blob 0 4 1 (g8 <<< 8)).1 := by
  intro blob g8
  have edges : ∀ band, band < 3 → arIspLadderEdge blob 0 band arIspLadderBandHi < 0x80000000 := by
    decide +kernel
  refine ⟨by decide +kernel, ladderWalks_same_band blob 0 4 1 (by decide) ?_⟩
  intro band inside
  exact edges band (by omega)

end MlKernel.Isp
