import MlKernel.Isp.BandWalk

/-!
# The fused blend

In a gap between two bands the binary32 walk computes the fraction and what is left of one, and a
word is blended with one product, one fused sum and a truncation.  Three roundings move the blend
by less than a half, so that the truncation takes it at most one count below the two words.
-/

namespace MlKernel.Isp

open Binary32 Rounding

/-! ### Results of the operations -/

theorem roundsTo_signedZero (sign : Bool) : RoundsTo 0 (signedZero sign) := by
  have zero : value (signedZero sign) = 0 := by
    cases sign <;> exact IsZero.value_eq rfl
  refine ⟨by cases sign <;> decide, ?_, ?_⟩
  · intro c _
    rw [zero, sub_self, abs_zero]
    exact abs_nonneg _
  · intro c _ same differ
    rw [zero, sub_self, abs_zero, zero_sub, abs_neg, abs_eq_zero] at same
    exact absurd (same.trans zero.symm) differ

/-- A result that is zero or normal is the exact one rounded. -/
theorem CorrectlyRounded.roundsTo {v : ℚ} {zeroSign : Bool} {b : ArF32}
    (correct : CorrectlyRounded v zeroSign b) (nonneg : 0 ≤ v)
    (low : v ≠ 0 → 2 ^ (-126 : ℤ) ≤ v) (high : v ≤ 2 ^ 24) : RoundsTo v b := by
  by_cases zero : v = 0
  · rw [correct.zero zero, zero]
    exact roundsTo_signedZero zeroSign
  · apply correct.rounded
    apply inRange_of_bounds
    · rw [abs_of_nonneg nonneg]
      exact low zero
    · rw [abs_of_nonneg nonneg]
      refine high.trans ?_
      norm_num

/-- A word of fewer than 24 bits is converted exactly. -/
theorem arF32FromS32_value {word : Int32} (nonneg : 0 ≤ word.toInt) (small : word.toInt < 2 ^ 24) :
    value (arF32FromS32 word) = word.toInt := by
  have rounds := arF32FromS32_roundsTo word
  rcases Int.eq_ofNat_of_zero_le nonneg with ⟨n, whole⟩
  rw [whole] at small rounds ⊢
  rcases @exists_value n 0 (by omega) (by omega) (by omega) with ⟨c, finite, stands⟩
  apply rounds.exact finite
  rw [stands, zpow_zero, mul_one]
  rfl

/-! ### The blend of a sound fraction -/

/-- A fraction of a gap that is normal and at most one, with what is left of one. -/
structure LadderFrac.Sound (frac : LadderFrac) : Prop where
  low : 2 ^ (-126 : ℤ) ≤ value frac.t
  high : value frac.t ≤ 1
  rest : RoundsTo (1 - value frac.t) frac.omt

/-- What the roundings of the two weights add up to. -/
theorem terms_error {t omt p a b : ℚ} (aNonneg : 0 ≤ a) (aHigh : a ≤ 2 ^ 22)
    (rest : |1 - t - omt| ≤ 2 ^ (-24 : ℤ) / 2) (product : |t * b - p| ≤ 2 ^ (-2 : ℤ) / 2) :
    |Blend.weighted 1 t a b - (omt * a + p)| ≤ 1 / 4 := by
  have split : Blend.weighted 1 t a b - (omt * a + p) = a * (1 - t - omt) + (t * b - p) := by
    unfold Blend.weighted
    ring
  have first : |a * (1 - t - omt)| ≤ 2 ^ 22 * (2 ^ (-24 : ℤ) / 2) := by
    rw [abs_mul, abs_of_nonneg aNonneg]
    exact mul_le_mul aHigh rest (abs_nonneg _) (by positivity)
  rw [split]
  calc
    |a * (1 - t - omt) + (t * b - p)| ≤ |a * (1 - t - omt)| + |t * b - p| := abs_add_le _ _
    _ ≤ 2 ^ 22 * (2 ^ (-24 : ℤ) / 2) + 2 ^ (-2 : ℤ) / 2 := add_le_add first product
    _ = 1 / 4 := by norm_num

section Blend

variable {frac : LadderFrac} {low high : Int32}

/-- What is left of one is zero or not too small. -/
theorem one_sub_low {t : ArF32} (positive : 0 < value t) (high : value t ≤ 1)
    (some : value t ≠ 1) : 2 ^ (-24 : ℤ) ≤ 1 - value t := by
  have unit : (2 : ℚ) ^ 24 * 2 ^ (-24 : ℤ) = 1 := by norm_num
  rcases (value_representable t).grid (-24) with ⟨k, units⟩ | small
  · have below : value t < 1 := lt_of_le_of_ne high some
    rw [units, ← unit] at below
    have whole : k < 2 ^ 24 := by
      exact_mod_cast lt_of_mul_lt_mul_right below (zpow_pos two_pos _).le
    have cast : (k : ℚ) ≤ 2 ^ 24 - 1 := by
      have step : ((k + 1 : ℤ) : ℚ) ≤ ((2 ^ 24 : ℤ) : ℚ) := Int.cast_le.mpr whole
      push_cast at step
      linarith
    rw [units]
    have scaled := mul_le_mul_of_nonneg_right cast (zpow_pos two_pos (-24) : (0 : ℚ) < _).le
    rw [sub_mul, unit, one_mul] at scaled
    linarith
  · rw [abs_of_pos positive] at small
    have half : (2 : ℚ) ^ 23 * 2 ^ (-24 : ℤ) = 1 / 2 := by norm_num
    have least : (2 : ℚ) ^ (-24 : ℤ) ≤ 1 / 2 := by norm_num
    linarith

/-- What is left of one is zero or at least a unit in its last place, and half of that off. -/
theorem LadderFrac.Sound.omt_bounds (sound : frac.Sound) :
    0 ≤ value frac.omt ∧ |1 - value frac.t - value frac.omt| ≤ 2 ^ (-24 : ℤ) / 2 ∧
      (value frac.omt ≠ 0 → 2 ^ (-24 : ℤ) ≤ value frac.omt) := by
  have tPositive : 0 < value frac.t := (zpow_pos two_pos _).trans_le sound.low
  have nonneg : 0 ≤ 1 - value frac.t := sub_nonneg.mpr sound.high
  have most : 1 - value frac.t ≤ 2 ^ 24 * 2 ^ (-24 : ℤ) := by
    norm_num
    exact tPositive.le
  refine ⟨sound.rest.nonneg nonneg, sound.rest.error nonneg most (by omega) (by omega), ?_⟩
  intro some
  apply sound.rest.two_zpow_le (by omega) (by omega)
  apply one_sub_low tPositive sound.high
  intro whole
  apply some
  have zero : value 0 = 0 := @IsZero.value_eq 0 rfl
  have rounds := sound.rest
  rw [whole, sub_self] at rounds
  exact rounds.exact (by decide) zero

theorem word_cast_le {word : Int32} (small : word.toInt < 2 ^ 22) :
    (word.toInt : ℚ) ≤ 2 ^ 22 - 1 := by
  have step : ((word.toInt + 1 : ℤ) : ℚ) ≤ ((2 ^ 22 : ℤ) : ℚ) := Int.cast_le.mpr small
  push_cast at step
  linarith

/-- The upper word's term. -/
def upperTerm (frac : LadderFrac) (high : Int32) : ArF32 := arF32Mul frac.t (arF32FromS32 high)

theorem LadderFrac.Sound.upperTerm_bounds (sound : frac.Sound) (nonneg : 0 ≤ high.toInt)
    (small : high.toInt < 2 ^ 22) :
    0 ≤ value (upperTerm frac high) ∧
      |value frac.t * high.toInt - value (upperTerm frac high)| ≤ 2 ^ (-2 : ℤ) / 2 ∧
      (value (upperTerm frac high) ≠ 0 → 2 ^ (-126 : ℤ) ≤ value (upperTerm frac high)) := by
  have tPositive : 0 < value frac.t := (zpow_pos two_pos _).trans_le sound.low
  have castNonneg : (0 : ℚ) ≤ high.toInt := Int.cast_nonneg nonneg
  have castHigh := word_cast_le small
  have exactNonneg := mul_nonneg tPositive.le castNonneg
  have exactHigh : value frac.t * high.toInt ≤ 2 ^ 22 := by
    calc
      value frac.t * high.toInt ≤ 1 * high.toInt := mul_le_mul_of_nonneg_right sound.high castNonneg
      _ ≤ 2 ^ 22 := by linarith
  have exactLow (some : value frac.t * high.toInt ≠ 0) :
      2 ^ (-126 : ℤ) ≤ value frac.t * high.toInt := by
    have positive : high.toInt ≠ 0 := by
      intro zero
      rw [zero, Int.cast_zero, mul_zero] at some
      exact some rfl
    have one : (1 : ℚ) ≤ high.toInt := by exact_mod_cast (by omega : 1 ≤ high.toInt)
    calc
      (2 : ℚ) ^ (-126 : ℤ) ≤ value frac.t * 1 := by rw [mul_one]; exact sound.low
      _ ≤ value frac.t * high.toInt := mul_le_mul_of_nonneg_left one tPositive.le
  have correct := arF32Mul_correct frac.t (arF32FromS32 high)
  rw [arF32FromS32_value nonneg (by omega)] at correct
  have rounds := correct.roundsTo exactNonneg exactLow (exactHigh.trans (by norm_num))
  refine ⟨rounds.nonneg exactNonneg, ?_, ?_⟩
  · exact rounds.error exactNonneg (exactHigh.trans (by norm_num)) (by omega) (by omega)
  · intro some
    apply rounds.two_zpow_le (by omega) (by omega)
    apply exactLow
    intro zero
    apply some
    rw [zero] at rounds
    exact rounds.exact (by decide) (@IsZero.value_eq 0 rfl)

/-- The sum before its rounding is zero or normal. -/
theorem LadderFrac.Sound.sum_bounds (sound : frac.Sound) (lowNonneg : 0 ≤ low.toInt)
    (highNonneg : 0 ≤ high.toInt) (highSmall : high.toInt < 2 ^ 22) :
    0 ≤ value frac.omt * low.toInt + value (upperTerm frac high) ∧
      (value frac.omt * low.toInt + value (upperTerm frac high) ≠ 0 →
        2 ^ (-126 : ℤ) ≤ value frac.omt * low.toInt + value (upperTerm frac high)) := by
  rcases sound.omt_bounds with ⟨omtNonneg, -, omtLow⟩
  rcases sound.upperTerm_bounds highNonneg highSmall with ⟨termNonneg, -, termLow⟩
  have lowerNonneg : 0 ≤ value frac.omt * low.toInt :=
    mul_nonneg omtNonneg (Int.cast_nonneg lowNonneg)
  refine ⟨add_nonneg lowerNonneg termNonneg, ?_⟩
  intro some
  by_cases noTerm : value (upperTerm frac high) = 0
  · rw [noTerm, add_zero] at some ⊢
    rcases mul_ne_zero_iff.mp some with ⟨omtSome, lowSome⟩
    have one : (1 : ℚ) ≤ low.toInt := by
      have positive : low.toInt ≠ 0 := Int.cast_ne_zero.mp lowSome
      exact_mod_cast (by omega : 1 ≤ low.toInt)
    calc
      (2 : ℚ) ^ (-126 : ℤ) ≤ 2 ^ (-24 : ℤ) * 1 := by norm_num
      _ ≤ value frac.omt * low.toInt := mul_le_mul (omtLow omtSome) one zero_le_one omtNonneg
  · exact (termLow noTerm).trans (le_add_of_nonneg_left lowerNonneg)

/-- The three roundings of a blend leave it within a half of the exact one. -/
theorem LadderFrac.Sound.fused (sound : frac.Sound) (lowNonneg : 0 ≤ low.toInt)
    (lowSmall : low.toInt < 2 ^ 22) (highNonneg : 0 ≤ high.toInt)
    (highSmall : high.toInt < 2 ^ 22) :
    0 ≤ value (arF32Fma frac.omt (arF32FromS32 low) (upperTerm frac high)) ∧
      |Blend.weighted 1 (value frac.t) (low.toInt : ℚ) high.toInt -
        value (arF32Fma frac.omt (arF32FromS32 low) (upperTerm frac high))| ≤ 3 / 8 := by
  rcases sound.sum_bounds lowNonneg highNonneg highSmall with ⟨exactNonneg, exactLow⟩
  have tNonneg : 0 ≤ value frac.t := (zpow_pos two_pos _).le.trans sound.low
  have castHigh := word_cast_le lowSmall
  have terms := terms_error (Int.cast_nonneg lowNonneg) (by linarith) sound.omt_bounds.2.1
    (sound.upperTerm_bounds highNonneg highSmall).2.1
  have exactHigh : value frac.omt * low.toInt + value (upperTerm frac high) ≤ 2 ^ 22 := by
    have within := (@Blend.weighted_between ℚ _ _ _ 1 (value frac.t) low.toInt high.toInt
      tNonneg sound.high).2
    have most : max (low.toInt : ℚ) high.toInt ≤ 2 ^ 22 - 1 :=
      max_le castHigh (word_cast_le highSmall)
    have below := (abs_le.mp terms).1
    linarith
  have correct := arF32Fma_correct frac.omt (arF32FromS32 low) (upperTerm frac high)
  rw [arF32FromS32_value lowNonneg (by omega)] at correct
  have rounds := correct.roundsTo exactNonneg exactLow (exactHigh.trans (by norm_num))
  have last := @RoundsTo.error _ _ rounds (-2) exactNonneg (exactHigh.trans (by norm_num))
    (by omega) (by omega)
  refine ⟨rounds.nonneg exactNonneg, ?_⟩
  calc
    _ ≤ _ := abs_sub_le _ (value frac.omt * low.toInt + value (upperTerm frac high)) _
    _ ≤ 1 / 4 + 2 ^ (-2 : ℤ) / 2 := add_le_add terms last
    _ = 3 / 8 := by norm_num

/-- The blend is at most one count below the two words, and not above them. -/
structure BlendWithin (low high blended : ℤ) : Prop where
  nonneg : 0 ≤ blended
  least : min low high - 1 ≤ blended
  most : blended ≤ max low high
  equal : low = high → blended = low ∨ blended = low - 1

theorem LadderFrac.Sound.blend_within (sound : frac.Sound) (lowNonneg : 0 ≤ low.toInt)
    (lowSmall : low.toInt < 2 ^ 22) (highNonneg : 0 ≤ high.toInt)
    (highSmall : high.toInt < 2 ^ 22) :
    BlendWithin low.toInt high.toInt (arIspLadderBlendF32 low high frac).toInt := by
  have tNonneg : 0 ≤ value frac.t := (zpow_pos two_pos _).le.trans sound.low
  rcases sound.fused lowNonneg lowSmall highNonneg highSmall with ⟨nonneg, near⟩
  have between := @Blend.weighted_between ℚ _ _ _ 1 (value frac.t) low.toInt high.toInt tNonneg
    sound.high
  rw [mul_one, mul_one, ← Int.cast_min, ← Int.cast_max] at between
  have truncated : (arIspLadderBlendF32 low high frac).toInt = saturate (-2 ^ 31) (2 ^ 31 - 1)
      (truncate (value (arF32Fma frac.omt (arF32FromS32 low) (upperTerm frac high)))) :=
    arF32ToS32Trunc_toInt _
  rw [truncate_of_nonneg nonneg] at truncated
  generalize value (arF32Fma frac.omt (arF32FromS32 low) (upperTerm frac high)) = r at *
  generalize Blend.weighted 1 (value frac.t) (low.toInt : ℚ) high.toInt = exact at *
  have error := abs_le.mp near
  have floorNonneg : 0 ≤ ⌊r⌋ := Int.floor_nonneg.mpr nonneg
  have floorLeast : min low.toInt high.toInt - 1 ≤ ⌊r⌋ := by
    apply Int.le_floor.mpr
    push_cast at between ⊢
    linarith
  have floorMost : ⌊r⌋ < max low.toInt high.toInt + 1 := by
    apply Int.floor_lt.mpr
    push_cast at between ⊢
    linarith
  have small : max low.toInt high.toInt < 2 ^ 22 := max_lt lowSmall highSmall
  have same : saturate (-2 ^ 31) (2 ^ 31 - 1) ⌊r⌋ = ⌊r⌋ := by
    unfold saturate
    omega
  rw [truncated, same]
  refine ⟨floorNonneg, floorLeast, by omega, ?_⟩
  intro equal
  omega

end Blend

/-! ### The fraction of a gap -/

section Fraction

variable {gain prevHi lo : ArF32}

/-- Two numbers of the format are apart by a unit of the greater one. -/
theorem gap_depth (plus : ¬IsNegative gain) (above : prevHi < gain)
    (least : 2 ^ (-16 : ℤ) ≤ value gain) : 2 ^ (-40 : ℤ) ≤ value gain - value prevHi := by
  have order := value_lt_value plus above
  have gainPositive : 0 < value gain := (zpow_pos two_pos _).trans_le least
  have unit : (0 : ℚ) < 2 ^ (-40 : ℤ) := zpow_pos two_pos _
  have half : (2 : ℚ) ^ 23 * 2 ^ (-40 : ℤ) = 2 ^ (-17 : ℤ) := by norm_num
  have double : (2 : ℚ) ^ (-16 : ℤ) = 2 * 2 ^ (-17 : ℤ) := by norm_num
  have small : (2 : ℚ) ^ (-40 : ℤ) ≤ 2 ^ (-17 : ℤ) := by norm_num
  rcases (value_representable gain).grid (-40) with ⟨k, gainUnits⟩ | gainSmall
  · rcases (value_representable prevHi).grid (-40) with ⟨j, hiUnits⟩ | hiSmall
    · rw [gainUnits, hiUnits] at order ⊢
      have apart : j < k := by exact_mod_cast lt_of_mul_lt_mul_right order unit.le
      have cast : (1 : ℚ) ≤ k - j := by exact_mod_cast (by omega : 1 ≤ k - j)
      calc
        (2 : ℚ) ^ (-40 : ℤ) = 1 * 2 ^ (-40 : ℤ) := (one_mul _).symm
        _ ≤ (k - j) * 2 ^ (-40 : ℤ) := mul_le_mul_of_nonneg_right cast unit.le
        _ = k * 2 ^ (-40 : ℤ) - j * 2 ^ (-40 : ℤ) := sub_mul _ _ _
    · rw [half] at hiSmall
      have most := (le_abs_self _).trans_lt hiSmall
      linarith
  · rw [half, abs_of_pos gainPositive] at gainSmall
    linarith

/-- A difference of two numbers of the format that is large enough is rounded. -/
theorem arF32Sub_roundsTo {a b : ArF32} (finite : IsFinite a) (plus : ¬IsNegative b)
    (low : 2 ^ (-40 : ℤ) ≤ value a - value b) : RoundsTo (value a - value b) (arF32Sub a b) := by
  have positive : 0 ≤ value a - value b := (zpow_pos two_pos _).le.trans low
  apply (arF32Sub_correct a b).rounded
  apply inRange_of_bounds
  · rw [abs_of_nonneg positive]
    refine le_trans ?_ low
    norm_num
  · rw [abs_of_nonneg positive]
    have most := (le_abs_self _).trans finite.abs_value_le
    have nonneg := value_nonneg plus
    linarith

/-- The low edge is not too far beyond what the depth in the gap is rounded to. -/
theorem lo_le_rounded {depth : ℚ} {x : ArF32} (rounds : RoundsTo depth x) (plus : ¬IsNegative lo)
    (low : 2 ^ (-40 : ℤ) ≤ depth) (wide : value lo ≤ 2 ^ 126 * depth) :
    value lo ≤ 2 ^ 126 * value x := by
  rcases le_or_gt (value lo) (2 ^ 86) with near | far
  · have kept := rounds.two_zpow_le (by omega) (by omega) low
    have unit : (2 : ℚ) ^ 86 = 2 ^ 126 * 2 ^ (-40 : ℤ) := by norm_num
    rw [unit] at near
    exact near.trans (mul_le_mul_of_nonneg_left kept (by positivity))
  · -- the edge over `2 ^ 126` is a number of the format too
    have field : 63 ≤ exponent lo := by
      by_contra below
      have weight : (2 : ℚ) ^ exponent lo ≤ 2 ^ (62 : ℤ) :=
        zpow_le_zpow_right₀ one_le_two (by omega)
      have sig : (significand lo : ℚ) ≤ 2 ^ 24 := by exact_mod_cast (significand_lt lo).le
      have most : value lo ≤ 2 ^ 24 * 2 ^ (62 : ℤ) := by
        rw [value_of_nonneg plus]
        exact mul_le_mul sig weight (zpow_pos two_pos _).le (by positivity)
      have top : (2 : ℚ) ^ 24 * 2 ^ (62 : ℤ) = 2 ^ 86 := by norm_num
      linarith
    have bound := (exponent_bounds lo).2
    rcases @exists_value_of_lt (significand lo) (exponent lo - 126) (significand_lt lo) (by omega)
      (by omega) with ⟨c, cFinite, stands⟩
    have scaled : value lo = 2 ^ 126 * value c := by
      have split : exponent lo = exponent lo - 126 + (126 : ℕ) := by omega
      rw [value_of_nonneg plus, stands]
      conv_lhs => rw [split, zpow_add₀ two_ne_zero, zpow_natCast]
      ring
    rw [scaled] at wide ⊢
    have units : (0 : ℚ) < 2 ^ 126 := by positivity
    have below := le_of_mul_le_mul_left wide units
    exact mul_le_mul_of_nonneg_left (rounds.ge_of_ge cFinite below) units.le

/-- A quotient that is normal and at most one stays so. -/
theorem arF32Div_bounds {x y : ArF32} (finite : IsFinite x) (low : 2 ^ (-126 : ℤ) ≤ value x)
    (order : value x ≤ value y) (wide : value y ≤ 2 ^ 126 * value x) :
    2 ^ (-126 : ℤ) ≤ value (arF32Div x y) ∧ value (arF32Div x y) ≤ 1 := by
  have xPositive : 0 < value x := (zpow_pos two_pos _).trans_le low
  have yPositive : 0 < value y := xPositive.trans_le order
  have normal : IsNormal x := by
    apply finite.normal
    rwa [abs_of_pos xPositive]
  have quotientLow : 2 ^ (-126 : ℤ) ≤ value x / value y := by
    have scale : (2 : ℚ) ^ (-126 : ℤ) * 2 ^ 126 = 1 := by norm_num
    rw [le_div_iff₀ yPositive]
    calc
      2 ^ (-126 : ℤ) * value y ≤ 2 ^ (-126 : ℤ) * (2 ^ 126 * value x) :=
        mul_le_mul_of_nonneg_left wide (zpow_pos two_pos _).le
      _ = value x := by rw [← mul_assoc, scale, one_mul]
  have quotientHigh : value x / value y ≤ 1 := (div_le_one yPositive).mpr order
  have rounds := (arF32Div_correct (.inr normal) yPositive.ne').roundsTo
    (div_pos xPositive yPositive).le (fun _ => quotientLow) (quotientHigh.trans (by norm_num))
  constructor
  · exact rounds.two_zpow_le (by omega) (by omega) quotientLow
  · have most := @RoundsTo.le_two_zpow _ _ rounds 0 (by omega) (by omega)
    rw [zpow_zero] at most
    exact most quotientHigh

/-- The walk takes what is left of one from the rounded fraction. -/
theorem sound_of_bounds {t : ArF32} (low : 2 ^ (-126 : ℤ) ≤ value t) (high : value t ≤ 1) :
    LadderFrac.Sound ⟨t, arF32Sub (arF32FromS32 1) t⟩ := by
  have one : value (arF32FromS32 1) = 1 := by
    have whole : (1 : Int32).toInt = 1 := by decide
    rw [arF32FromS32_value (by decide) (by decide), whole, Int.cast_one]
  have correct := arF32Sub_correct (arF32FromS32 1) t
  rw [one] at correct
  have positive : 0 < value t := (zpow_pos two_pos _).trans_le low
  refine ⟨low, high, correct.roundsTo (sub_nonneg.mpr high) ?_ ?_⟩
  · intro some
    have rest := one_sub_low positive high fun whole => some (by rw [whole, sub_self])
    exact le_trans (by norm_num) rest
  · refine le_trans (sub_le_self 1 positive.le) ?_
    norm_num

/-- The fraction of a gap that is not too wide for it, with what is left of one. -/
def gapFracF32 (gain lo prevHi : ArF32) : LadderFrac :=
  let t := arF32Div (arF32Sub gain prevHi) (arF32Sub lo prevHi)
  ⟨t, arF32Sub (arF32FromS32 1) t⟩

theorem gapFracF32_sound (plus : ¬IsNegative lo) (finite : IsFinite lo) (gainFinite : IsFinite gain)
    (above : prevHi < gain) (below : gain < lo) (least : 2 ^ (-16 : ℤ) ≤ value gain)
    (wide : value lo ≤ 2 ^ 126 * (value gain - value prevHi)) :
    (gapFracF32 gain lo prevHi).Sound := by
  have gainPlus := not_isNegative_of_lt below plus
  have hiPlus := not_isNegative_of_lt above gainPlus
  have depth := gap_depth gainPlus above least
  have inside := value_lt_value plus below
  have width : 2 ^ (-40 : ℤ) ≤ value lo - value prevHi := by linarith
  have xRounds := arF32Sub_roundsTo gainFinite hiPlus depth
  have yRounds := arF32Sub_roundsTo finite hiPlus width
  have xLow := xRounds.two_zpow_le (by omega) (by omega) depth
  have order := xRounds.mono yRounds (by linarith)
  have yHigh : value (arF32Sub lo prevHi) ≤ value lo := by
    apply yRounds.le_of_le finite
    have nonneg := value_nonneg hiPlus
    linarith
  have xWide := yHigh.trans (lo_le_rounded xRounds plus depth wide)
  rcases arF32Div_bounds xRounds.finite (le_trans (by norm_num) xLow) order xWide with ⟨low, high⟩
  exact sound_of_bounds low high

end Fraction

/-! ### The gap of a table -/

/-- A gain that is negative as a 32-bit integer has a negative abscissa. -/
theorem abscissaF32_negative {gainQ16 : UInt32} (large : 2 ^ 31 ≤ gainQ16.toNat) :
    IsNegative (abscissaF32 gainQ16) := by
  have small := gainQ16.toNat_lt
  have negative : gainQ16.toInt32.toInt ≤ -1 := by
    have signed : gainQ16.toInt32.toInt = (gainQ16.toNat : ℤ).bmod (2 ^ 32) :=
      BitVec.toInt_eq_toNat_bmod gainQ16.toBitVec
    rw [signed, Int.bmod_def]
    omega
  have rounds := arF32FromS32_roundsTo gainQ16.toInt32
  have one : value 0xbf800000 = -1 := by
    have same : (0xbf800000 : ArF32) = normalPattern True 127 (2 ^ 23) := by decide
    rw [same, normalPattern_value True (by decide) (by decide) (le_refl _) (by decide)]
    norm_num [signOf]
  have below : value (arF32FromS32 gainQ16.toInt32) ≤ -1 := by
    have kept := @RoundsTo.le_of_le _ _ 0xbf800000 rounds (by decide)
    rw [one] at kept
    exact kept (by exact_mod_cast negative)
  have magnitude : 1 ≤ |value (arF32FromS32 gainQ16.toInt32)| := by
    rw [abs_of_nonpos (by linarith)]
    linarith
  have scaled := (arF32ScaleDown_sixteen rounds.finite magnitude).2
  by_contra plus
  have nonneg := value_nonneg plus
  rw [abscissaF32, scaled] at nonneg
  have units : (0 : ℚ) < 2 ^ 16 := by positivity
  have numerator := mul_nonneg nonneg units.le
  rw [div_mul_cancel₀ _ units.ne'] at numerator
  linarith

/-- The walk stops at `band` with the abscissa in the gap below it. -/
structure InGapF32 (blob : Bytes) (bands count : ℕ) (gainQ16 : UInt32) (band : ℕ) : Prop where
  selected : bandOf count (fun band =>
    abscissaF32 gainQ16 ≤ arIspLadderEdge blob bands band arIspLadderBandHi) = band
  positive : 0 < band
  below : abscissaF32 gainQ16 < arIspLadderEdge blob bands band 0

/-- The gap's low edge is a finite number that is not negative, and the gap is not so wide that
the fraction would not be normal. -/
structure GapFits (blob : Bytes) (bands : ℕ) (gainQ16 : UInt32) (band : ℕ) : Prop where
  finite : arIspLadderEdge blob bands band 0 < 0x7f800000
  narrow : value (arIspLadderEdge blob bands band 0) ≤ 2 ^ 126 *
    (value (abscissaF32 gainQ16) -
      value (arIspLadderEdge blob bands (band - 1) arIspLadderBandHi))

section Gap

variable {blob : Bytes} {bands count : ℕ} {interp gainQ16 : UInt32} {band : ℕ}

theorem InGapF32.above (gap : InGapF32 blob bands count gainQ16 band) :
    arIspLadderEdge blob bands (band - 1) arIspLadderBandHi < abscissaF32 gainQ16 := by
  have positive := gap.positive
  have missed := @bandOf_before count (band - 1) _ (by rw [gap.selected]; omega)
  exact UInt32.not_le.mp (of_decide_eq_false missed)

theorem InGapF32.walk (gap : InGapF32 blob bands count gainQ16 band) (on : interp ≠ 0) :
    arIspLadderWalkF32 blob bands count interp gainQ16 =
      (band, gapFracF32 (abscissaF32 gainQ16) (arIspLadderEdge blob bands band 0)
        (arIspLadderEdge blob bands (band - 1) arIspLadderBandHi)) := by
  have selected := gap.selected
  have width := UInt32.lt_trans gap.above gap.below
  have taken := And.intro on (And.intro gap.positive (And.intro gap.below width))
  unfold abscissaF32 at selected taken
  simp only [arIspLadderWalkF32, selected, if_pos taken]
  rfl

/-- The fraction of a gap that fits is sound. -/
theorem InGapF32.sound (gap : InGapF32 blob bands count gainQ16 band) (on : interp ≠ 0)
    (fits : GapFits blob bands gainQ16 band) :
    (arIspLadderWalkF32 blob bands count interp gainQ16).2.Sound := by
  have finite := UInt32.lt_iff_toNat_lt.mp fits.finite
  change (arIspLadderEdge blob bands band 0).toNat < 0x7f800000 at finite
  have loPlus : ¬IsNegative (arIspLadderEdge blob bands band 0) := by
    unfold IsNegative
    omega
  have loFinite : IsFinite (arIspLadderEdge blob bands band 0) := by
    unfold IsFinite biased
    omega
  have gainPlus := not_isNegative_of_lt gap.below loPlus
  have small : gainQ16.toNat < 2 ^ 31 := by
    by_contra large
    exact gainPlus (abscissaF32_negative (Nat.not_lt.mp large))
  rcases abscissaF32_value small with ⟨r, _, scaled, _, gainFinite, least⟩
  have positive : 0 < gainQ16.toNat := by
    apply Nat.pos_of_ne_zero
    intro zero
    have same : gainQ16 = 0 := UInt32.toNat_inj.mp zero
    have pattern : abscissaF32 0 = 0 := by decide
    have above := UInt32.lt_iff_toNat_lt.mp gap.above
    rw [same, pattern] at above
    exact absurd above (Nat.not_lt_zero _)
  rw [gap.walk on]
  apply gapFracF32_sound loPlus loFinite gainFinite gap.above gap.below _ fits.narrow
  have unit : (2 : ℚ) ^ (-16 : ℤ) = 1 / 2 ^ 16 := by norm_num
  rw [scaled, unit]
  exact div_le_div_of_nonneg_right (least positive) (by positivity)

end Gap

/-! ### The blend of a gap -/

/-- In every gap that fits, a blend of two words of 22 bits is at most one count below them. -/
theorem arIspLadderBlendF32_within (blob : Bytes) (bands count : ℕ) {interp : UInt32}
    (gainQ16 : UInt32) (band : ℕ) (low high : Int32) (on : interp ≠ 0)
    (gap : InGapF32 blob bands count gainQ16 band) (fits : GapFits blob bands gainQ16 band)
    (lowNonneg : 0 ≤ low.toInt) (lowSmall : low.toInt < 2 ^ 22) (highNonneg : 0 ≤ high.toInt)
    (highSmall : high.toInt < 2 ^ 22) :
    BlendWithin low.toInt high.toInt
      (arIspLadderBlendF32 low high
        (arIspLadderWalkF32 blob bands count interp gainQ16).2).toInt :=
  (gap.sound on fits).blend_within lowNonneg lowSmall highNonneg highSmall

/-- Two bands, the first up to one and the second from `lo` on. -/
def twoBands (lo : List UInt8) : Bytes := fun offset =>
  ([0, 0, 0, 0, 0, 0, 0x80, 0x3f] ++ lo).getD offset 0

theorem twoBands_inGap {lo : List UInt8} {gainQ16 : UInt32}
    (above : ¬abscissaF32 gainQ16 ≤ arIspLadderEdge (twoBands lo) 0 0 arIspLadderBandHi)
    (below : abscissaF32 gainQ16 < arIspLadderEdge (twoBands lo) 0 1 0) :
    InGapF32 (twoBands lo) 0 2 gainQ16 1 where
  selected := by
    apply bandOf_eq (le_refl 1)
    · intro j before
      rw [Nat.lt_one_iff.mp before]
      exact decide_eq_false above
    · intro inside
      exact absurd inside (lt_irrefl 2)
  positive := one_pos
  below := below

/-- Seventy-five blended into itself is seventy-four. -/
theorem arIspLadderBlendF32_within_below :
    arIspLadderBlendF32 75 75
        (arIspLadderWalkF32 (twoBands [0, 0, 0x40, 0x41]) 0 2 1 375819).2 = 74 ∧
      BlendWithin 75 75 (arIspLadderBlendF32 75 75
        (arIspLadderWalkF32 (twoBands [0, 0, 0x40, 0x41]) 0 2 1 375819).2).toInt := by
  refine ⟨by decide +kernel, ?_⟩
  apply arIspLadderBlendF32_within (twoBands [0, 0, 0x40, 0x41]) 0 2 375819 1 75 75 (by decide)
  · apply twoBands_inGap <;> decide +kernel
  · exact ⟨by decide +kernel, by decide +kernel⟩
  all_goals decide

/-- The bound in every gap of a table. -/
def BlendsWithin (blob : Bytes) : Prop :=
  ∀ (bands count : ℕ) (interp gainQ16 : UInt32) (band : ℕ) (low high : Int32), interp ≠ 0 →
    InGapF32 blob bands count gainQ16 band → 0 ≤ low.toInt → low.toInt < 2 ^ 22 →
      0 ≤ high.toInt → high.toInt < 2 ^ 22 →
        BlendWithin low.toInt high.toInt (arIspLadderBlendF32 low high
          (arIspLadderWalkF32 blob bands count interp gainQ16).2).toInt

theorem BlendsWithin.ten_twenty {lo : List UInt8} (within : BlendsWithin (twoBands lo))
    (gainQ16 : UInt32)
    (above : ¬abscissaF32 gainQ16 ≤ arIspLadderEdge (twoBands lo) 0 0 arIspLadderBandHi)
    (below : abscissaF32 gainQ16 < arIspLadderEdge (twoBands lo) 0 1 0) :
    9 ≤ (arIspLadderBlendF32 10 20
      (arIspLadderWalkF32 (twoBands lo) 0 2 1 gainQ16).2).toInt := by
  have bound := within 0 2 1 gainQ16 1 10 20 (by decide) (twoBands_inGap above below) (by decide)
    (by decide) (by decide) (by decide)
  exact bound.least

/-- A low edge that is negative, infinite or too far away. -/
theorem not_arIspLadderBlendF32_within :
    ¬BlendsWithin (twoBands [0, 0, 0x80, 0xbf]) ∧ ¬BlendsWithin (twoBands [0, 0, 0x80, 0x7f]) ∧
      ¬BlendsWithin (twoBands [0, 0, 0, 0x7f]) := by
  refine ⟨?_, ?_, ?_⟩ <;> intro within
  · have least := within.ten_twenty 0x20000 (by decide +kernel) (by decide +kernel)
    exact absurd least (by decide +kernel)
  · have least := within.ten_twenty 0x18000 (by decide +kernel) (by decide +kernel)
    exact absurd least (by decide +kernel)
  · have least := within.ten_twenty 0x10001 (by decide +kernel) (by decide +kernel)
    exact absurd least (by decide +kernel)

end MlKernel.Isp
