import MlKernel.Lib.Binary32

/-!
# The order of binary32 patterns and the error of rounding

The patterns of non-negative numbers are ordered as the numbers are.  Rounding keeps the order, is
exact on the numbers of the format, and moves a number by half of a unit in the last place.
-/

namespace Binary32

open Rounding

/-! ### Order -/

section Order

variable {a b : UInt32}

theorem value_of_nonneg (plus : ¬IsNegative a) : value a = significand a * 2 ^ exponent a := by
  simp [value, signOf, plus]

theorem value_nonneg (plus : ¬IsNegative a) : 0 ≤ value a := by
  rw [value_of_nonneg plus]
  positivity

theorem not_isNegative_of_value_pos (positive : 0 < value a) : ¬IsNegative a := by
  intro minus
  have magnitude : (0 : ℚ) ≤ significand a * 2 ^ exponent a := by positivity
  simp only [value, signOf, minus, if_true] at positive
  linarith

theorem not_isNegative_of_lt (order : a < b) (plus : ¬IsNegative b) : ¬IsNegative a := by
  have below := UInt32.lt_iff_toNat_lt.mp order
  unfold IsNegative at plus ⊢
  omega

theorem toNat_fields (plus : ¬IsNegative a) : a.toNat = biased a * 2 ^ 23 + fraction a := by
  unfold IsNegative at plus
  unfold biased fraction
  omega

/-- A number is below the least one of the next exponent field. -/
theorem value_lt_next (plus : ¬IsNegative a) :
    value a < 2 ^ 23 * 2 ^ ((biased a : ℤ) - 149) := by
  rw [value_of_nonneg plus]
  have small : fraction a < 2 ^ 23 := Nat.mod_lt _ (by decide)
  by_cases subnormal : biased a = 0
  · have castSmall : (fraction a : ℚ) < 2 ^ 23 := by exact_mod_cast small
    simp only [significand, exponent, subnormal, if_true]
    exact mul_lt_mul_of_pos_right castSmall (zpow_pos two_pos _)
  · have castSmall : ((2 ^ 23 + fraction a : ℕ) : ℚ) < 2 ^ 23 * 2 := by
      exact_mod_cast (by omega : 2 ^ 23 + fraction a < 2 ^ 23 * 2)
    have weight : (biased a : ℤ) - 149 = (biased a - 150) + 1 := by ring
    simp only [significand, exponent, subnormal, if_false]
    rw [weight, zpow_add_one₀ two_ne_zero, mul_comm ((2 : ℚ) ^ _) 2, ← mul_assoc]
    exact mul_lt_mul_of_pos_right castSmall (zpow_pos two_pos _)

theorem le_value_of_biased (plus : ¬IsNegative a) (normal : biased a ≠ 0) :
    2 ^ 23 * 2 ^ ((biased a : ℤ) - 150) ≤ value a := by
  have least : (2 : ℚ) ^ 23 ≤ ((2 ^ 23 + fraction a : ℕ) : ℚ) := by
    exact_mod_cast Nat.le_add_right (2 ^ 23) (fraction a)
  rw [value_of_nonneg plus]
  simp only [significand, exponent, normal, if_false]
  exact mul_le_mul_of_nonneg_right least (zpow_pos two_pos _).le

/-- The number without what follows its point. -/
def truncated (a : UInt32) : ℤ := if 0 ≤ value a then ⌊value a⌋ else ⌈value a⌉

theorem truncated_of_nonneg (plus : ¬IsNegative a) : truncated a = ⌊value a⌋ :=
  if_pos (value_nonneg plus)

theorem truncated_nonpos (minus : IsNegative a) : truncated a ≤ 0 := by
  have magnitude : (0 : ℚ) ≤ significand a * 2 ^ exponent a := by positivity
  have below : value a ≤ 0 := by
    simp only [value, signOf, minus, if_true]
    linarith
  unfold truncated
  split
  · exact_mod_cast (Int.floor_le (value a)).trans below
  · exact Int.ceil_le.mpr (by exact_mod_cast below)

theorem abs_value (a : UInt32) : |value a| = significand a * 2 ^ exponent a := by
  rw [value, mul_assoc, abs_signOf_mul]
  exact abs_of_nonneg (by positivity)

/-- A finite pattern is normal as soon as its number is large enough for that. -/
theorem IsFinite.normal (finite : IsFinite a) (least : 2 ^ (-126 : ℤ) ≤ |value a|) :
    IsNormal a := by
  refine ⟨?_, finite⟩
  intro subnormal
  have small : fraction a < 2 ^ 23 := Nat.mod_lt _ (by decide)
  have castSmall : (fraction a : ℚ) < 2 ^ 23 := by exact_mod_cast small
  have unit : (2 : ℚ) ^ (-126 : ℤ) = 2 ^ 23 * 2 ^ (-149 : ℤ) := by norm_num
  simp only [abs_value, significand, exponent, subnormal, if_true] at least
  rw [unit] at least
  exact absurd (le_of_mul_le_mul_right least (zpow_pos two_pos _)) (not_le.mpr castSmall)

/-- The greatest number of the format. -/
theorem IsFinite.abs_value_le (finite : IsFinite a) :
    |value a| ≤ (2 ^ 24 - 1) * 2 ^ (104 : ℤ) := by
  have sig : (significand a : ℚ) ≤ 2 ^ 24 - 1 := by
    have cast : ((significand a + 1 : ℕ) : ℚ) ≤ ((2 ^ 24 : ℕ) : ℚ) :=
      Nat.cast_le.mpr (significand_lt a)
    push_cast at cast
    linarith
  have bound := biased_lt a
  have weight : (2 : ℚ) ^ exponent a ≤ 2 ^ (104 : ℤ) := by
    apply zpow_le_zpow_right₀ one_le_two
    unfold IsFinite at finite
    unfold exponent
    split <;> omega
  rw [abs_value]
  exact mul_le_mul sig weight (zpow_pos two_pos _).le (by norm_num)

/-- A number between the least normal one and the greatest one of the format. -/
theorem inRange_of_bounds {v : ℚ} (low : 2 ^ (-126 : ℤ) ≤ |v|)
    (high : |v| ≤ (2 ^ 24 - 1) * 2 ^ (104 : ℤ)) : InRange v where
  low := by
    refine le_trans ?_ low
    norm_num
  high := by
    refine lt_of_le_of_lt high ?_
    norm_num

theorem value_lt_value (plus : ¬IsNegative b) (order : a < b) : value a < value b := by
  have aPlus := not_isNegative_of_lt order plus
  have below := UInt32.lt_iff_toNat_lt.mp order
  rw [toNat_fields aPlus, toNat_fields plus] at below
  have aSmall : fraction a < 2 ^ 23 := Nat.mod_lt _ (by decide)
  have bSmall : fraction b < 2 ^ 23 := Nat.mod_lt _ (by decide)
  by_cases same : biased a = biased b
  · have sig : significand a < significand b := by
      unfold significand
      rw [same]
      split <;> omega
    have weight : exponent a = exponent b := by simp only [exponent, same]
    rw [value_of_nonneg aPlus, value_of_nonneg plus, weight]
    exact mul_lt_mul_of_pos_right (Nat.cast_lt.mpr sig) (zpow_pos two_pos _)
  · have field : biased a < biased b := by omega
    have step : (2 : ℚ) ^ ((biased a : ℤ) - 149) ≤ 2 ^ ((biased b : ℤ) - 150) :=
      zpow_le_zpow_right₀ one_le_two (by omega)
    calc
      value a < 2 ^ 23 * 2 ^ ((biased a : ℤ) - 149) := value_lt_next aPlus
      _ ≤ 2 ^ 23 * 2 ^ ((biased b : ℤ) - 150) := mul_le_mul_of_nonneg_left step (by positivity)
      _ ≤ value b := le_value_of_biased plus (by omega)

/-- The numbers are ordered as their patterns are. -/
theorem value_le_value_iff (aPlus : ¬IsNegative a) (bPlus : ¬IsNegative b) :
    value a ≤ value b ↔ a ≤ b := by
  constructor
  · intro order
    by_contra above
    exact absurd (value_lt_value aPlus (UInt32.not_le.mp above)) (not_lt.mpr order)
  · intro order
    rcases UInt32.lt_or_eq_of_le order with below | rfl
    · exact (value_lt_value bPlus below).le
    · exact le_rfl

end Order

/-! ### Numbers of the format -/

theorem exists_value_of_lt {n : ℕ} {E : ℤ} (nHigh : n < 2 ^ 24) (eLow : -126 ≤ E)
    (eHigh : E ≤ 104) : ∃ c, IsFinite c ∧ value c = n * 2 ^ E := by
  rcases Nat.eq_zero_or_pos n with rfl | positive
  · refine ⟨0, by decide, ?_⟩
    rw [@IsZero.value_eq 0 rfl, Nat.cast_zero, zero_mul]
  · have bits : Nat.log2 n < 24 := (Nat.log2_lt positive.ne').mpr nHigh
    have low := Nat.log2_self_le positive.ne'
    have high := @Nat.lt_log2_self n
    generalize Nat.log2 n = s at bits low high
    have sigLow : 2 ^ 23 ≤ n * 2 ^ (23 - s) := by
      calc
        2 ^ 23 = 2 ^ s * 2 ^ (23 - s) := by
          rw [← Nat.pow_add]
          congr 1
          omega
        _ ≤ n * 2 ^ (23 - s) := Nat.mul_le_mul_right _ low
    have sigHigh : n * 2 ^ (23 - s) < 2 ^ 24 := by
      calc
        n * 2 ^ (23 - s) < 2 ^ (s + 1) * 2 ^ (23 - s) :=
          Nat.mul_lt_mul_of_pos_right high (Nat.two_pow_pos _)
        _ = 2 ^ 24 := by
          rw [← Nat.pow_add]
          congr 1
          omega
    refine ⟨normalPattern False (E - (23 - s : ℕ) + 150).toNat (n * 2 ^ (23 - s)), ?_, ?_⟩
    · exact (normalPattern_normal False (by omega) (by omega) sigHigh).2
    · rw [normalPattern_value False (by omega) (by omega) sigLow sigHigh]
      have weight : ((E - (23 - s : ℕ) + 150).toNat : ℤ) - 150 = E - (23 - s : ℕ) := by omega
      rw [weight, zpow_sub₀ two_ne_zero, zpow_natCast, signOf, if_neg not_false]
      push_cast
      field_simp

/-- An integer of 24 bits, in units well above the least one, is a number of the format. -/
theorem exists_value {n : ℕ} {E : ℤ} (nHigh : n ≤ 2 ^ 24) (eLow : -126 ≤ E) (eHigh : E ≤ 103) :
    ∃ c, IsFinite c ∧ value c = n * 2 ^ E := by
  rcases nHigh.lt_or_eq with below | rfl
  · exact exists_value_of_lt below eLow (by omega)
  · have half := @exists_value_of_lt (2 ^ 23) (E + 1) (by decide) (by omega) (by omega)
    rcases half with ⟨c, finite, stands⟩
    refine ⟨c, finite, ?_⟩
    rw [stands, zpow_add_one₀ two_ne_zero]
    push_cast
    ring

theorem exists_value_two_zpow {E : ℤ} (eLow : -126 ≤ E) (eHigh : E ≤ 103) :
    ∃ c, IsFinite c ∧ value c = 2 ^ E := by
  rcases @exists_value 1 E (by decide) eLow eHigh with ⟨c, finite, stands⟩
  refine ⟨c, finite, ?_⟩
  rw [stands, Nat.cast_one, one_mul]

/-! ### Rounding -/

section RoundsTo

variable {v w : ℚ} {b c : UInt32}

/-- A number of the format is rounded to itself. -/
theorem RoundsTo.exact (rounds : RoundsTo v b) (finite : IsFinite c) (same : value c = v) :
    value b = v := by
  have nearest := rounds.nearest c finite
  rw [same, sub_self, abs_zero] at nearest
  exact (sub_eq_zero.mp (abs_eq_zero.mp (le_antisymm nearest (abs_nonneg _)))).symm

theorem RoundsTo.ge_of_ge (rounds : RoundsTo v b) (finite : IsFinite c) (above : value c ≤ v) :
    value c ≤ value b := by
  by_contra below
  have nearest := rounds.nearest c finite
  rw [abs_of_nonneg (by linarith), abs_of_nonneg (by linarith)] at nearest
  linarith

theorem RoundsTo.le_of_le (rounds : RoundsTo v b) (finite : IsFinite c) (below : v ≤ value c) :
    value b ≤ value c := by
  by_contra above
  have nearest := rounds.nearest c finite
  rw [abs_of_nonpos (by linarith), abs_of_nonpos (by linarith)] at nearest
  linarith

theorem RoundsTo.nonneg (rounds : RoundsTo v b) (nonneg : 0 ≤ v) : 0 ≤ value b := by
  have zero : value 0 = 0 := @IsZero.value_eq 0 rfl
  have kept := @RoundsTo.ge_of_ge v b 0 rounds (by decide)
  rw [zero] at kept
  exact kept nonneg

/-- A power of two below the number is below what it is rounded to. -/
theorem RoundsTo.two_zpow_le (rounds : RoundsTo v b) {E : ℤ} (eLow : -126 ≤ E) (eHigh : E ≤ 103)
    (above : 2 ^ E ≤ v) : 2 ^ E ≤ value b := by
  rcases exists_value_two_zpow eLow eHigh with ⟨c, finite, stands⟩
  rw [← stands] at above ⊢
  exact rounds.ge_of_ge finite above

theorem RoundsTo.le_two_zpow (rounds : RoundsTo v b) {E : ℤ} (eLow : -126 ≤ E) (eHigh : E ≤ 103)
    (below : v ≤ 2 ^ E) : value b ≤ 2 ^ E := by
  rcases exists_value_two_zpow eLow eHigh with ⟨c, finite, stands⟩
  rw [← stands] at below ⊢
  exact rounds.le_of_le finite below

/-- Rounding keeps the order. -/
theorem RoundsTo.mono (rounds : RoundsTo v b) (others : RoundsTo w c) (order : v < w) :
    value b ≤ value c := by
  by_contra above
  have first := rounds.nearest c others.finite
  have second := others.nearest b rounds.finite
  rcases le_total v (value c) with vBelow | vAbove
  · rw [abs_of_nonpos (by linarith), abs_of_nonpos (by linarith)] at first
    linarith
  · rcases le_total w (value b) with wBelow | wAbove
    · rw [abs_of_nonpos (by linarith), abs_of_nonneg (by linarith)] at first
      rw [abs_of_nonneg (by linarith), abs_of_nonpos (by linarith)] at second
      linarith
    · rw [abs_of_nonneg (by linarith), abs_of_nonneg (by linarith)] at second
      linarith

/-- A number of at most 24 bits of units is moved by half of a unit. -/
theorem RoundsTo.error (rounds : RoundsTo v b) {E : ℤ} (nonneg : 0 ≤ v) (high : v ≤ 2 ^ 24 * 2 ^ E)
    (eLow : -126 ≤ E) (eHigh : E ≤ 103) : |v - value b| ≤ 2 ^ E / 2 := by
  have unit : (0 : ℚ) < 2 ^ E := zpow_pos two_pos E
  have units : v = v / 2 ^ E * 2 ^ E := by field_simp
  have unitsNonneg : 0 ≤ v / 2 ^ E := by positivity
  have unitsHigh : v / 2 ^ E ≤ ((2 ^ 24 : ℤ) : ℚ) := by
    rw [div_le_iff₀ unit]
    push_cast
    exact high
  have roundNonneg : 0 ≤ round (v / 2 ^ E) := by
    rw [round_eq]
    exact Int.floor_nonneg.mpr (by linarith)
  have roundHigh : round (v / 2 ^ E) ≤ 2 ^ 24 := by
    rw [round_eq]
    have top : ⌊((2 ^ 24 : ℤ) : ℚ) + 1 / 2⌋ = 2 ^ 24 := by norm_num
    rw [← top]
    exact Int.floor_mono (by linarith)
  have near := abs_sub_round (v / 2 ^ E)
  rcases Int.eq_ofNat_of_zero_le roundNonneg with ⟨n, whole⟩
  rw [whole] at near
  rcases @exists_value n E (by omega) eLow eHigh with ⟨c, finite, stands⟩
  calc
    |v - value b| ≤ |v - value c| := rounds.nearest c finite
    _ = |v / 2 ^ E - (n : ℤ)| * 2 ^ E := by
      conv_lhs => rw [stands, units]
      rw [← Int.cast_natCast n]
      exact distance_scaled _ _ _
    _ ≤ 1 / 2 * 2 ^ E := mul_le_mul_of_nonneg_right near unit.le
    _ = 2 ^ E / 2 := by ring

end RoundsTo

end Binary32
