import MlKernel.Lib.Rounding

/-!
# The binary32 format

The fields of a pattern, the number it stands for, and which pattern a number rounds to.
-/

namespace Binary32

open Rounding

def IsNegative (a : UInt32) : Prop := 2 ^ 31 ≤ a.toNat
def biased (a : UInt32) : ℕ := a.toNat / 2 ^ 23 % 2 ^ 8
def fraction (a : UInt32) : ℕ := a.toNat % 2 ^ 23

instance (a : UInt32) : Decidable (IsNegative a) := inferInstanceAs (Decidable (_ ≤ _))

/-- The significand as an integer, with its leading one unless the number is subnormal. -/
def significand (a : UInt32) : ℕ := if biased a = 0 then fraction a else 2 ^ 23 + fraction a

/-- The weight of the significand's last bit. -/
def exponent (a : UInt32) : ℤ := if biased a = 0 then -149 else biased a - 150

def signOf (negative : Prop) [Decidable negative] : ℚ := if negative then -1 else 1

def value (a : UInt32) : ℚ := signOf (IsNegative a) * significand a * 2 ^ exponent a

def IsFinite (a : UInt32) : Prop := biased a ≠ 255
def IsNormal (a : UInt32) : Prop := biased a ≠ 0 ∧ biased a ≠ 255
def IsZero (a : UInt32) : Prop := a.toNat % 2 ^ 31 = 0

instance (a : UInt32) : Decidable (IsFinite a) := inferInstanceAs (Decidable (_ ≠ _))
instance (a : UInt32) : Decidable (IsNormal a) := inferInstanceAs (Decidable (_ ∧ _))
instance (a : UInt32) : Decidable (IsZero a) := inferInstanceAs (Decidable (_ = _))

/-- The pattern is the finite one nearest to the number, the even one of two that are equally
near. -/
structure RoundsTo (v : ℚ) (b : UInt32) : Prop where
  finite : IsFinite b
  nearest : ∀ c, IsFinite c → |v - value b| ≤ |v - value c|
  even : ∀ c, IsFinite c → |v - value c| = |v - value b| → value c ≠ value b → b.toNat % 2 = 0

/-- The number is normal once it is rounded to 24 bits. -/
structure InRange (v : ℚ) : Prop where
  low : (2 ^ 24 - 1 / 2) * 2 ^ (-150 : ℤ) ≤ |v|
  high : |v| < (2 ^ 24 - 1 / 2) * 2 ^ (104 : ℤ)

/-! ### Signs -/

section Sign

variable (negative : Prop) [Decidable negative]

theorem signOf_cases : signOf negative = 1 ∨ signOf negative = -1 := by
  unfold signOf
  split
  · exact .inr rfl
  · exact .inl rfl

theorem signOf_ne_zero : signOf negative ≠ 0 := by
  rcases signOf_cases negative with sign | sign <;> rw [sign] <;> norm_num

theorem abs_signOf_mul (v : ℚ) : |signOf negative * v| = |v| := by
  rcases signOf_cases negative with sign | sign <;> rw [sign] <;> simp

theorem signOf_mul_self (v : ℚ) : signOf negative * (signOf negative * v) = v := by
  rcases signOf_cases negative with sign | sign <;> rw [sign] <;> ring

theorem abs_signOf_sub (v c : ℚ) : |signOf negative * v - c| = |v - signOf negative * c| := by
  rw [← abs_signOf_mul negative (signOf negative * v - c), mul_sub, signOf_mul_self]

theorem representable_signed {p : ℕ} {c : ℚ} (number : Representable p c) :
    Representable p (signOf negative * c) := by
  rcases signOf_cases negative with sign | sign
  · rwa [sign, one_mul]
  · rw [sign, neg_one_mul]
    exact number.neg

end Sign

/-! ### Fields -/

section Fields

variable (a : UInt32)

theorem significand_lt : significand a < 2 ^ 24 := by
  have small : fraction a < 2 ^ 23 := Nat.mod_lt _ (by decide)
  unfold significand
  split <;> omega

theorem biased_lt : biased a < 2 ^ 8 := Nat.mod_lt _ (by decide)

theorem exponent_bounds : -149 ≤ exponent a ∧ exponent a ≤ 105 := by
  have small := biased_lt a
  unfold exponent
  split <;> omega

theorem value_representable : Representable 23 (value a) := by
  have positive : Representable 23 (significand a * 2 ^ exponent a) := by
    refine ⟨significand a, exponent a, ?_, ?_⟩
    · rw [Nat.abs_cast]
      exact_mod_cast significand_lt a
    · push_cast
      rfl
  unfold value
  rw [mul_assoc]
  exact representable_signed _ positive

end Fields

theorem IsZero.value_eq {a : UInt32} (zero : IsZero a) : value a = 0 := by
  have noFraction : fraction a = 0 := by
    unfold IsZero at zero
    unfold fraction
    omega
  have noBiased : biased a = 0 := by
    unfold IsZero at zero
    unfold biased
    omega
  simp [value, significand, noBiased, noFraction]

theorem IsNormal.significand_ge {a : UInt32} (normal : IsNormal a) : 2 ^ 23 ≤ significand a := by
  unfold significand
  rw [if_neg normal.1]
  exact Nat.le_add_right _ _

theorem value_eq_zero_iff (a : UInt32) : value a = 0 ↔ significand a = 0 := by
  unfold value
  rw [mul_eq_zero, mul_eq_zero, Nat.cast_eq_zero]
  simp only [signOf_ne_zero, false_or]
  refine or_iff_left ?_
  exact (zpow_pos two_pos _).ne'

/-! ### Normal patterns -/

/-- The pattern of a normal number. -/
def normalPattern (negative : Prop) [Decidable negative] (biased significand : ℕ) : UInt32 :=
  .ofNat ((if negative then 2 ^ 31 else 0) + biased * 2 ^ 23 + (significand - 2 ^ 23))

section Pattern

variable (negative : Prop) [Decidable negative] {e n : ℕ}

theorem normalPattern_toNat (eHigh : e ≤ 254) (nHigh : n < 2 ^ 24) :
    (normalPattern negative e n).toNat =
      (if negative then 2 ^ 31 else 0) + e * 2 ^ 23 + (n - 2 ^ 23) := by
  unfold normalPattern
  rw [UInt32.toNat_ofNat']
  apply Nat.mod_eq_of_lt
  split <;> omega

theorem normalPattern_biased (eHigh : e ≤ 254) (nHigh : n < 2 ^ 24) :
    biased (normalPattern negative e n) = e := by
  unfold biased
  rw [normalPattern_toNat negative eHigh nHigh]
  split <;> omega

theorem normalPattern_fraction (eHigh : e ≤ 254) (nHigh : n < 2 ^ 24) :
    fraction (normalPattern negative e n) = n - 2 ^ 23 := by
  unfold fraction
  rw [normalPattern_toNat negative eHigh nHigh]
  split <;> omega

theorem normalPattern_negative (eHigh : e ≤ 254) (nHigh : n < 2 ^ 24) :
    IsNegative (normalPattern negative e n) ↔ negative := by
  unfold IsNegative
  rw [normalPattern_toNat negative eHigh nHigh]
  split
  · next holds => exact iff_of_true (by omega) holds
  · next fails => exact iff_of_false (by omega) fails

theorem normalPattern_normal (eLow : 1 ≤ e) (eHigh : e ≤ 254) (nHigh : n < 2 ^ 24) :
    IsNormal (normalPattern negative e n) := by
  unfold IsNormal
  rw [normalPattern_biased negative eHigh nHigh]
  omega

theorem signOf_congr {negative other : Prop} [Decidable negative] [Decidable other]
    (same : negative ↔ other) : signOf negative = signOf other := by
  unfold signOf
  simp only [same]

theorem normalPattern_value (eLow : 1 ≤ e) (eHigh : e ≤ 254) (nLow : 2 ^ 23 ≤ n)
    (nHigh : n < 2 ^ 24) :
    value (normalPattern negative e n) = signOf negative * (n * 2 ^ ((e : ℤ) - 150)) := by
  have normal : e ≠ 0 := by omega
  have whole : 2 ^ 23 + (n - 2 ^ 23) = n := by omega
  simp only [value, significand, exponent, normalPattern_biased negative eHigh nHigh,
    normalPattern_fraction negative eHigh nHigh, if_neg normal, whole,
    signOf_congr (normalPattern_negative negative eHigh nHigh), mul_assoc]

theorem normalPattern_even (eHigh : e ≤ 254) (nLow : 2 ^ 23 ≤ n) (nHigh : n < 2 ^ 24) :
    (normalPattern negative e n).toNat % 2 = n % 2 := by
  rw [normalPattern_toNat negative eHigh nHigh]
  split <;> omega

end Pattern

/-! ### Rounding to a normal pattern -/

section Round

variable (negative : Prop) [Decidable negative] {x : ℚ} {n : ℕ} {E : ℤ} {b : UInt32}

/-- A pattern that stands for the rounded number of units. -/
theorem roundsTo_of_value (nearest : NearestEven x n) (normal : 2 ^ 23 ≤ x) (finite : IsFinite b)
    (stands : value b = signOf negative * (n * 2 ^ E)) (even : n % 2 = 0 → b.toNat % 2 = 0) :
    RoundsTo (signOf negative * (x * 2 ^ E)) b := by
  have best (c : UInt32) := nearest.nearest (E := E) normal
    (representable_signed negative (value_representable c))
  have distance (c : UInt32) :
      |signOf negative * (x * 2 ^ E) - value c| = |x * 2 ^ E - signOf negative * value c| :=
    abs_signOf_sub negative _ _
  have own : |signOf negative * (x * 2 ^ E) - value b| = |x * 2 ^ E - (n : ℤ) * 2 ^ E| := by
    rw [distance, stands, signOf_mul_self]
    push_cast
    rfl
  refine ⟨finite, ?_, ?_⟩
  · intro c _
    rw [own, distance]
    exact (best c).1
  · intro c _ same differ
    rw [own, distance] at same
    apply even
    have parity := (best c).2 same ?_
    · omega
    · intro equal
      apply differ
      rw [stands, ← signOf_mul_self negative (value c), equal]
      push_cast
      rfl

/-- The pattern of `n` units of `2 ^ E`, where `n` has 24 bits or is the carry out of them. -/
def packUnits (negative : Prop) [Decidable negative] (n : ℕ) (E : ℤ) : UInt32 :=
  if n = 2 ^ 24 then normalPattern negative (E + 151).toNat (2 ^ 23)
  else normalPattern negative (E + 150).toNat n

/-- What the range says of the exponent and of the number of units. -/
theorem InRange.units (range : InRange (signOf negative * (x * 2 ^ E))) (low : 2 ^ 23 ≤ x)
    (high : x < 2 ^ 24) :
    (-150 ≤ E ∧ (E = -150 → 2 ^ 24 - 1 / 2 ≤ x)) ∧ E ≤ 104 ∧ (E = 104 → x < 2 ^ 24 - 1 / 2) := by
  have unit : (0 : ℚ) < 2 ^ E := zpow_pos two_pos E
  have positive : 0 < x * 2 ^ E := by positivity
  have rangeLow := range.low
  have rangeHigh := range.high
  rw [abs_signOf_mul, abs_of_pos positive] at rangeLow rangeHigh
  refine ⟨⟨?_, ?_⟩, ?_, ?_⟩
  · by_contra below
    have step : (2 : ℚ) ^ (E + 1) ≤ 2 ^ (-150 : ℤ) := zpow_le_zpow_right₀ one_le_two (by omega)
    rw [zpow_add_one₀ two_ne_zero] at step
    have top : x * 2 ^ E < 2 ^ 24 * 2 ^ E := mul_lt_mul_of_pos_right high unit
    generalize (2 : ℚ) ^ (-150 : ℤ) = least at step rangeLow
    linarith
  · rintro rfl
    exact le_of_mul_le_mul_right rangeLow unit
  · by_contra above
    have step : (2 : ℚ) ^ (104 + 1 : ℤ) ≤ 2 ^ E := zpow_le_zpow_right₀ one_le_two (by omega)
    rw [zpow_add_one₀ two_ne_zero] at step
    have bottom : 2 ^ 23 * 2 ^ E ≤ x * 2 ^ E := mul_le_mul_of_nonneg_right low unit.le
    have room : (0 : ℚ) < 2 ^ (104 : ℤ) := zpow_pos two_pos _
    generalize (2 : ℚ) ^ (104 : ℤ) = greatest at step rangeHigh room
    linarith
  · rintro rfl
    exact lt_of_mul_lt_mul_right rangeHigh unit.le

/-- The rounded number of units and their weight make a normal pattern. -/
theorem InRange.packable (range : InRange (signOf negative * (x * 2 ^ E)))
    (nearest : NearestEven x n) (low : 2 ^ 23 ≤ x) (high : x < 2 ^ 24) :
    (n = 2 ^ 24 ∧ -150 ≤ E ∧ E ≤ 103) ∨ (2 ^ 23 ≤ n ∧ n < 2 ^ 24 ∧ -149 ≤ E ∧ E ≤ 104) := by
  have nLow : 2 ^ 23 ≤ n := by
    have least : ((2 ^ 23 : ℕ) : ℤ) ≤ n := nearest.ge_of_ge (by push_cast; exact low)
    exact Int.ofNat_le.mp least
  have nHigh : n ≤ 2 ^ 24 := by
    have greatest : (n : ℤ) ≤ (2 ^ 24 : ℕ) := nearest.le_of_le (by push_cast; exact high.le)
    exact Int.ofNat_le.mp greatest
  rcases range.units negative low high with ⟨⟨eLow, least⟩, eHigh, greatest⟩
  have near := abs_le.mp nearest.near
  by_cases carry : n = 2 ^ 24
  · left
    have notGreatest : E ≠ 104 := by
      intro top
      have below := greatest top
      rw [carry] at near
      push_cast at near
      linarith
    exact ⟨carry, eLow, by omega⟩
  · right
    -- the last number below the least normal one rounds up at the tie
    have notLeast : E ≠ -150 := by
      intro bottom
      have above := least bottom
      have castTop : (n : ℚ) ≤ ((2 ^ 24 - 1 : ℕ) : ℚ) := Nat.cast_le.mpr (by omega)
      push_cast at near castTop
      have tie : |x - (n : ℤ)| = 1 / 2 := by
        push_cast
        rw [abs_of_nonneg] <;> linarith
      have even := nearest.even tie
      have last : ((n + 1 : ℕ) : ℚ) = ((2 ^ 24 : ℕ) : ℚ) := by
        push_cast
        linarith
      have whole := Nat.cast_injective last
      omega
    exact ⟨nLow, by omega, by omega, eHigh⟩

/-- Rounding to 24 bits and packing is rounding to the format, wherever the rounded number is
normal. -/
theorem roundsTo_packUnits (nearest : NearestEven x n) (low : 2 ^ 23 ≤ x) (high : x < 2 ^ 24)
    (range : InRange (signOf negative * (x * 2 ^ E))) :
    RoundsTo (signOf negative * (x * 2 ^ E)) (packUnits negative n E) := by
  unfold packUnits
  rcases range.packable negative nearest low high with
    ⟨carry, eLow, eHigh⟩ | ⟨nLow, nHigh, eLow, eHigh⟩
  · rw [if_pos carry]
    have stands : value (normalPattern negative (E + 151).toNat (2 ^ 23)) =
        signOf negative * (n * 2 ^ E) := by
      rw [normalPattern_value negative (by omega) (by omega) (by omega) (by omega), carry]
      have shifted : ((E + 151).toNat : ℤ) - 150 = E + 1 := by omega
      rw [shifted, zpow_add_one₀ two_ne_zero]
      push_cast
      ring
    have normal : IsNormal (normalPattern negative (E + 151).toNat (2 ^ 23)) :=
      normalPattern_normal negative (by omega) (by omega) (by omega)
    refine roundsTo_of_value negative nearest low normal.2 stands ?_
    intro _
    have parity := normalPattern_even negative (e := (E + 151).toNat) (by omega)
      (Nat.le_refl (2 ^ 23)) (by omega)
    omega
  · rw [if_neg (by omega)]
    have stands : value (normalPattern negative (E + 150).toNat n) =
        signOf negative * (n * 2 ^ E) := by
      rw [normalPattern_value negative (by omega) (by omega) nLow (by omega)]
      have shifted : ((E + 150).toNat : ℤ) - 150 = E := by omega
      rw [shifted]
    have normal : IsNormal (normalPattern negative (E + 150).toNat n) :=
      normalPattern_normal negative (by omega) (by omega) (by omega)
    refine roundsTo_of_value negative nearest low normal.2 stands ?_
    intro even
    rw [normalPattern_even negative (by omega) nLow (by omega), even]

end Round

end Binary32
