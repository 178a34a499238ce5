import MlKernel.Isp.SoftFloatAdd

/-!
# The soft-float is correctly rounded

Every operation returns the exact result rounded once, wherever the rounded result is normal, and
the zero of the right sign where the exact result is zero.
-/

namespace MlKernel.Isp

open Binary32 Rounding

/-! ### Subtraction -/

theorem flipSign_toNat (b : ArF32) :
    (b ^^^ 0x80000000).toNat % 2 ^ 31 = b.toNat % 2 ^ 31 ∧
      (2 ^ 31 ≤ (b ^^^ 0x80000000).toNat ↔ ¬2 ^ 31 ≤ b.toNat) := by
  have small : b.toNat < 2 ^ 32 := b.toNat_lt
  rw [UInt32.toNat_xor]
  change (b.toNat ^^^ 2 ^ 31) % 2 ^ 31 = _ ∧ (2 ^ 31 ≤ b.toNat ^^^ 2 ^ 31 ↔ _)
  constructor
  · rw [Nat.xor_mod_two_pow, Nat.mod_self, Nat.xor_zero]
  · have high : (b.toNat ^^^ 2 ^ 31) / 2 ^ 31 = b.toNat / 2 ^ 31 ^^^ 1 := by
      rw [Nat.xor_div_two_pow, Nat.div_self (Nat.two_pow_pos 31)]
    rcases Nat.lt_or_ge b.toNat (2 ^ 31) with plus | minus
    · have digit : b.toNat / 2 ^ 31 = 0 := by omega
      rw [digit, Nat.zero_xor] at high
      omega
    · have digit : b.toNat / 2 ^ 31 = 1 := by omega
      rw [digit, Nat.xor_self] at high
      omega

theorem flipSign_value (b : ArF32) :
    value (b ^^^ 0x80000000) = -value b ∧
      (decide (IsNegative (b ^^^ 0x80000000)) = !decide (IsNegative b)) := by
  rcases flipSign_toNat b with ⟨low, high⟩
  have sameBiased : biased (b ^^^ 0x80000000) = biased b := by
    unfold biased
    omega
  have sameFraction : fraction (b ^^^ 0x80000000) = fraction b := by
    unfold fraction
    omega
  have sign : IsNegative (b ^^^ 0x80000000) ↔ ¬IsNegative b := high
  have flipped : signOf (IsNegative (b ^^^ 0x80000000)) = -signOf (IsNegative b) := by
    unfold signOf
    by_cases minus : IsNegative b <;> simp [sign, minus]
  constructor
  · simp only [value, significand, exponent, sameBiased, sameFraction, flipped]
    ring
  · rw [← decide_not, decide_eq_decide]
    exact sign

theorem arF32Sub_correct (a b : ArF32) :
    CorrectlyRounded (value a - value b) (decide (IsNegative a) && !decide (IsNegative b))
      (arF32Sub a b) := by
  rcases flipSign_value b with ⟨flipped, sign⟩
  rw [sub_eq_add_neg, ← flipped, ← sign]
  exact arF32Add_correct a (b ^^^ 0x80000000)

/-! ### Product and quotient -/

theorem arF32Mul_correct (a b : ArF32) :
    CorrectlyRounded (value a * value b) (decide (IsNegative a) ^^ decide (IsNegative b))
      (arF32Mul a b) := by
  have aSmall := arF32Unpack_sig_lt a
  have bSmall := arF32Unpack_sig_lt b
  have product := arF32Product_value aSmall bSmall
  rw [← arF32Unpack_value a, ← arF32Unpack_value b, ← arF32Unpack_sign, ← arF32Unpack_sign,
    ← product]
  unfold arF32Mul
  generalize arF32Unpack a = x at aSmall ⊢
  generalize arF32Unpack b = y at bSmall ⊢
  have small := product_lt aSmall bSmall
  have whole : x.sig * y.sig % 2 ^ 64 = x.sig * y.sig := Nat.mod_eq_of_lt (by omega)
  by_cases zero : x.sig = 0 ∨ y.sig = 0
  · simp only [if_pos zero]
    apply CorrectlyRounded.of_zero
    have noSig : x.sig * y.sig = 0 := Nat.mul_eq_zero.mpr zero
    simp [ArF32Up.value, arF32Product, noSig]
  · simp only [if_neg zero, arF32Product, ArF32Up.value, whole]
    apply roundPack_exact
    exact fun noSig => zero (Nat.mul_eq_zero.mp noSig)

theorem div_add_mod_cast (n : ℕ) {d : ℕ} (pos : 0 < d) :
    ((n / d : ℕ) : ℚ) + ((n % d : ℕ) : ℚ) / d = n / d := by
  have castPos : (0 : ℚ) < d := Nat.cast_pos.mpr pos
  have parts : (n : ℚ) = d * (n / d : ℕ) + (n % d : ℕ) := by
    exact_mod_cast (Nat.div_add_mod n d).symm
  conv_rhs => rw [parts]
  field_simp

theorem quotient_value (x y : ArF32Up) :
    x.value / y.value = signOf ((x.sign ^^ y.sign) = true) *
      (x.sig * 2 ^ 30 / y.sig * 2 ^ (x.exp - y.exp - 30)) := by
  have sign : signOf ((x.sign ^^ y.sign) = true) =
      signOf (x.sign = true) / signOf (y.sign = true) := by
    rw [signOf_xor]
    rcases signOf_cases (y.sign = true) with plus | minus
    · rw [plus, mul_one, div_one]
    · rw [minus, mul_neg_one, div_neg, div_one]
  have weight : (2 : ℚ) ^ x.exp / 2 ^ y.exp = 2 ^ 30 * 2 ^ (x.exp - y.exp - 30) := by
    rw [← zpow_sub₀ two_ne_zero, ← zpow_natCast, ← zpow_add₀ two_ne_zero]
    congr 1
    omega
  unfold ArF32Up.value
  rw [mul_div_mul_comm, mul_div_mul_comm, weight, sign]
  ring

/-- The quotient has at least thirty bits, and its remainder is noted. -/
theorem arF32Div_correct {a b : ArF32} (operand : IsZero a ∨ IsNormal a) (divisor : value b ≠ 0) :
    CorrectlyRounded (value a / value b) (decide (IsNegative a) ^^ decide (IsNegative b))
      (arF32Div a b) := by
  have aSmall := arF32Unpack_sig_lt a
  have bSmall := arF32Unpack_sig_lt b
  have aNormal : (arF32Unpack a).sig ≠ 0 → 2 ^ 23 ≤ (arF32Unpack a).sig := by
    rw [arF32Unpack_eq]
    intro nonzero
    rcases operand with zero | normal
    · exact absurd ((value_eq_zero_iff a).mp zero.value_eq) nonzero
    · exact normal.significand_ge
  have bNonzero : (arF32Unpack b).sig ≠ 0 := by
    rw [arF32Unpack_eq]
    exact fun zero => divisor ((value_eq_zero_iff b).mpr zero)
  rw [← arF32Unpack_value a, ← arF32Unpack_value b, ← arF32Unpack_sign, ← arF32Unpack_sign]
  unfold arF32Div
  generalize arF32Unpack a = x at aSmall aNormal ⊢
  generalize arF32Unpack b = y at bSmall bNonzero ⊢
  by_cases zero : x.sig = 0
  · simp only [if_pos (Or.inl zero)]
    apply CorrectlyRounded.of_zero
    simp [ArF32Up.value, zero]
  · have neither : ¬(x.sig = 0 ∨ y.sig = 0) := not_or.mpr ⟨zero, bNonzero⟩
    have dividend : x.sig <<< 30 % 2 ^ 64 = x.sig * 2 ^ 30 := by
      rw [Nat.shiftLeft_eq]
      exact Nat.mod_eq_of_lt (by omega)
    simp only [if_neg neither, dividend]
    have yPos : 0 < y.sig := Nat.pos_of_ne_zero bNonzero
    have castPos : (0 : ℚ) < y.sig := Nat.cast_pos.mpr yPos
    have wide : 2 ^ 24 ≤ x.sig * 2 ^ 30 / y.sig := by
      rw [Nat.le_div_iff_mul_le yPos]
      have normal := aNormal zero
      omega
    have parts := div_add_mod_cast (x.sig * 2 ^ 30) yPos
    have scaled : ((x.sig * 2 ^ 30 : ℕ) : ℚ) = x.sig * 2 ^ 30 := by
      rw [Nat.cast_mul, Nat.cast_pow]
      rfl
    rw [scaled] at parts
    rw [quotient_value, ← parts]
    generalize x.sig * 2 ^ 30 = n at wide ⊢
    apply roundPack_correct
    · exact (lt_of_lt_of_le (by decide) wide).ne'
    · exact div_nonneg (Nat.cast_nonneg _) (Nat.cast_nonneg _)
    · rw [div_lt_one castPos]
      exact_mod_cast Nat.mod_lt n yPos
    · rw [decide_eq_true_eq, ne_eq, ne_eq, div_eq_zero_iff, Nat.cast_eq_zero]
      simp [bNonzero]
    · exact fun _ => wide

/-! ### Conversion from integers -/

theorem inRange_of_integer {v : ℚ} (low : 1 ≤ |v|) (high : |v| ≤ 2 ^ 31) : InRange v where
  low := by
    have small : (2 : ℚ) ^ (-150 : ℤ) ≤ 2 ^ (-24 : ℤ) := zpow_le_zpow_right₀ one_le_two (by decide)
    have unit : (2 : ℚ) ^ 24 * 2 ^ (-24 : ℤ) = 1 := by norm_num
    have least : (0 : ℚ) < 2 ^ (-150 : ℤ) := zpow_pos two_pos _
    generalize (2 : ℚ) ^ (-150 : ℤ) = u at small least ⊢
    linarith
  high := by
    have large : (2 : ℚ) ^ (31 : ℤ) ≤ 2 ^ (104 : ℤ) := zpow_le_zpow_right₀ one_le_two (by decide)
    have cast : (2 : ℚ) ^ (31 : ℤ) = 2 ^ 31 := zpow_natCast 2 31
    generalize (2 : ℚ) ^ (104 : ℤ) = u at large ⊢
    linarith

theorem roundsTo_zero : RoundsTo 0 0 := by
  have zero : value 0 = 0 := IsZero.value_eq rfl
  refine ⟨by decide, ?_, ?_⟩
  · intro c _
    rw [zero, sub_self, abs_zero]
    exact abs_nonneg _
  · intro c _ _ _
    rfl

/-- Every 32-bit integer is converted to the nearest number of the format. -/
theorem arF32FromS32_roundsTo (v : Int32) : RoundsTo v.toInt (arF32FromS32 v) := by
  have low := v.le_toInt
  have high := v.toInt_lt
  unfold arF32FromS32
  generalize v.toInt = k at low high ⊢
  have mag : (if decide (k < 0) = true then (-k).toNat else k.toNat) = k.natAbs := by
    simp only [decide_eq_true_eq]
    split <;> omega
  simp only [mag]
  by_cases zero : k = 0
  · subst zero
    exact roundsTo_zero
  · have nonzero : k.natAbs ≠ 0 := Int.natAbs_ne_zero.mpr zero
    rw [if_neg nonzero]
    have magnitude : (k.natAbs : ℚ) = |(k : ℚ)| := by rw [Nat.cast_natAbs, Int.cast_abs]
    have split : (k : ℚ) = signOf (decide (k < 0) = true) * (k.natAbs * 2 ^ (0 : ℤ)) := by
      rw [zpow_zero, mul_one, magnitude]
      simp only [signOf, decide_eq_true_eq]
      split
      · next negative =>
          rw [abs_of_neg (Int.cast_lt_zero.mpr negative)]
          ring
      · next positive =>
          rw [abs_of_nonneg (Int.cast_nonneg (not_lt.mp positive)), one_mul]
    have range : InRange (k : ℚ) := by
      apply inRange_of_integer
      · rw [← magnitude]
        exact_mod_cast Nat.one_le_iff_ne_zero.mpr nonzero
      · have bound : k.natAbs ≤ 2 ^ 31 := by omega
        rw [← magnitude]
        exact_mod_cast bound
    rw [split] at range ⊢
    exact (@roundPack_exact _ _ _ false nonzero).rounded range

/-! ### Scaling -/

theorem exponentMask (a : ArF32) : a &&& 0x7f800000 = 0 ↔ biased a = 0 := by
  rw [← UInt32.toNat_inj, UInt32.toNat_and]
  change a.toNat &&& 255 * 2 ^ 23 = 0 ↔ a.toNat / 2 ^ 23 % 2 ^ 8 = 0
  have high : (a.toNat &&& 255 * 2 ^ 23) / 2 ^ 23 = a.toNat / 2 ^ 23 % 2 ^ 8 := by
    rw [Nat.and_div_two_pow, Nat.mul_div_cancel _ (Nat.two_pow_pos 23)]
    exact Nat.and_two_pow_sub_one_eq_mod _ 8
  have low : (a.toNat &&& 255 * 2 ^ 23) % 2 ^ 23 = 0 := by
    rw [Nat.and_mod_two_pow, Nat.mul_mod_left, Nat.and_zero]
  omega

theorem arF32ScaleDown_zero {a : ArF32} (zero : IsZero a) (shift : Int32) :
    arF32ScaleDown a shift = a := by
  have noField : biased a = 0 := by
    unfold IsZero at zero
    unfold biased
    omega
  unfold arF32ScaleDown
  rw [if_pos ((exponentMask a).mpr noField)]

/-- Only the exponent moves, as long as it stays that of a normal number. -/
theorem arF32ScaleDown_fields {a : ArF32} {shift : Int32} (normal : IsNormal a)
    (low : 1 ≤ biased a - shift.toInt) (high : biased a - shift.toInt ≤ 254) :
    (biased (arF32ScaleDown a shift) : ℤ) = biased a - shift.toInt ∧
      fraction (arF32ScaleDown a shift) = fraction a ∧
      (IsNegative (arF32ScaleDown a shift) ↔ IsNegative a) := by
  have aSmall : a.toNat < 2 ^ 32 := a.toNat_lt
  have word : shift.toInt = (shift.toUInt32.toNat : ℤ).bmod (2 ^ 32) := by
    rw [← Int32.toNat_toBitVec, ← BitVec.toInt_eq_toNat_bmod, Int32.toInt_toBitVec]
  have moved : (arF32ScaleDown a shift).toNat =
      (2 ^ 32 - shift.toUInt32.toNat * 2 ^ 23 % 2 ^ 32 + a.toNat) % 2 ^ 32 := by
    unfold arF32ScaleDown
    rw [if_neg fun zero => normal.1 ((exponentMask a).mp zero), UInt32.toNat_sub,
      UInt32.toNat_shiftLeft, Nat.shiftLeft_eq]
    rfl
  have wordSmall : shift.toUInt32.toNat < 2 ^ 32 := shift.toUInt32.toNat_lt
  unfold biased at low high ⊢
  unfold fraction IsNegative
  rw [moved]
  generalize shift.toInt = k at word low high ⊢
  generalize shift.toUInt32.toNat = w at word wordSmall ⊢
  generalize a.toNat = bits at aSmall low high ⊢
  rw [Int.bmod_def] at word
  omega

/-- The exponent field of a normal magnitude. -/
theorem normal_exponent {sig : ℚ} {e : ℤ} (sigLow : 2 ^ 23 ≤ sig) (sigHigh : sig < 2 ^ 24)
    (low : 2 ^ (-126 : ℤ) ≤ sig * 2 ^ (e - 150)) (high : sig * 2 ^ (e - 150) < 2 ^ (128 : ℤ)) :
    1 ≤ e ∧ e ≤ 254 := by
  have unit : (0 : ℚ) < 2 ^ (e - 150) := zpow_pos two_pos _
  constructor
  · by_contra below
    have order : (2 : ℚ) ^ (24 + (e - 150)) ≤ 2 ^ (-126 : ℤ) :=
      zpow_le_zpow_right₀ one_le_two (by omega)
    rw [zpow_add₀ two_ne_zero] at order
    have top : sig * 2 ^ (e - 150) < 2 ^ 24 * 2 ^ (e - 150) := mul_lt_mul_of_pos_right sigHigh unit
    exact absurd (low.trans_lt top) (not_lt.mpr order)
  · by_contra above
    have order : (2 : ℚ) ^ (128 : ℤ) ≤ 2 ^ (23 + (e - 150)) :=
      zpow_le_zpow_right₀ one_le_two (by omega)
    rw [zpow_add₀ two_ne_zero] at order
    have bottom : 2 ^ 23 * 2 ^ (e - 150) ≤ sig * 2 ^ (e - 150) :=
      mul_le_mul_of_nonneg_right sigLow unit.le
    exact absurd (bottom.trans_lt high) (not_lt.mpr order)

/-- Scaling is exact while the result stays normal. -/
theorem arF32ScaleDown_normal {a : ArF32} {shift : Int32} (normal : IsNormal a)
    (low : 2 ^ (-126 : ℤ) ≤ |value a / 2 ^ shift.toInt|)
    (high : |value a / 2 ^ shift.toInt| < 2 ^ (128 : ℤ)) :
    IsNormal (arF32ScaleDown a shift) ∧
      value (arF32ScaleDown a shift) = value a / 2 ^ shift.toInt := by
  have scaled : value a / 2 ^ shift.toInt = signOf (IsNegative a) *
      (significand a * 2 ^ ((biased a : ℤ) - shift.toInt - 150)) := by
    have weight : exponent a - shift.toInt = (biased a : ℤ) - shift.toInt - 150 := by
      unfold exponent
      rw [if_neg normal.1]
      omega
    unfold value
    rw [← weight, zpow_sub₀ two_ne_zero, mul_assoc, mul_div_assoc, mul_div_assoc]
  have sigLow : (2 : ℚ) ^ 23 ≤ significand a := by exact_mod_cast normal.significand_ge
  have sigHigh : (significand a : ℚ) < 2 ^ 24 := by exact_mod_cast significand_lt a
  rw [scaled, abs_signOf_mul, abs_of_nonneg (by positivity)] at low high
  rcases normal_exponent sigLow sigHigh low high with ⟨eLow, eHigh⟩
  rcases arF32ScaleDown_fields normal eLow eHigh with ⟨field, sameFraction, sameSign⟩
  have stays : IsNormal (arF32ScaleDown a shift) := by
    unfold IsNormal
    omega
  have sameSig : significand (arF32ScaleDown a shift) = significand a := by
    unfold significand
    rw [if_neg normal.1, if_neg stays.1, sameFraction]
  have weight : exponent (arF32ScaleDown a shift) = (biased a : ℤ) - shift.toInt - 150 := by
    unfold exponent
    rw [if_neg stays.1, field]
  refine ⟨stays, ?_⟩
  rw [scaled, value, sameSig, weight, signOf_congr sameSign, mul_assoc]

/-! ### Truncation -/

/-- The magnitude of a value without its fraction. -/
def wholePart (x : ArF32Up) : ℕ :=
  if 0 ≤ x.exp then x.sig * 2 ^ x.exp.toNat else x.sig / 2 ^ (-x.exp).toNat

theorem floor_magnitude (x : ArF32Up) : ⌊(x.sig : ℚ) * 2 ^ x.exp⌋ = wholePart x := by
  unfold wholePart
  split
  · next whole =>
      have magnitude : (x.sig : ℚ) * 2 ^ x.exp = ((x.sig * 2 ^ x.exp.toNat : ℕ) : ℤ) := by
        have exp : x.exp = (x.exp.toNat : ℤ) := by omega
        conv_lhs => rw [exp, zpow_natCast]
        push_cast
        rfl
      rw [magnitude, Int.floor_intCast]
  · next negative =>
      have magnitude : (x.sig : ℚ) * 2 ^ x.exp = (x.sig : ℚ) / (2 ^ (-x.exp).toNat : ℕ) := by
        have exp : x.exp = -((-x.exp).toNat : ℤ) := by omega
        conv_lhs => rw [exp, zpow_neg, zpow_natCast]
        push_cast
        rfl
      rw [magnitude]
      exact Rat.floor_natCast_div_natCast _ _

theorem saturateS32_zero (sign : Bool) : saturateS32 sign 0 = 0 := by
  cases sign <;> decide

theorem arF32ToS32Trunc_whole (a : ArF32) :
    arF32ToS32Trunc a = saturateS32 (arF32Unpack a).sign (wholePart (arF32Unpack a)) := by
  have small := arF32Unpack_sig_lt a
  unfold arF32ToS32Trunc
  generalize arF32Unpack a = x at small ⊢
  by_cases zero : x.sig = 0
  · simp only [if_true, wholePart, zero, Nat.zero_mul, Nat.zero_div, ite_self,
      saturateS32_zero]
  · simp only [if_neg zero, wholePart]
    by_cases integral : 0 ≤ x.exp
    · simp only [if_pos integral]
      by_cases huge : 40 < x.exp
      · have large : s32Max < x.sig * 2 ^ x.exp.toNat := by
          calc
            s32Max < 1 * 2 ^ 41 := by decide
            _ ≤ x.sig * 2 ^ x.exp.toNat :=
              Nat.mul_le_mul (Nat.one_le_iff_ne_zero.mpr zero)
                (Nat.pow_le_pow_right Nat.zero_lt_two (by omega))
        simp only [if_pos huge, saturateS32, if_pos large]
      · have fits : x.sig * 2 ^ x.exp.toNat < 2 ^ 64 := by
          calc
            x.sig * 2 ^ x.exp.toNat ≤ x.sig * 2 ^ 40 :=
              Nat.mul_le_mul_left _ (Nat.pow_le_pow_right Nat.zero_lt_two (by omega))
            _ < 2 ^ 24 * 2 ^ 40 := Nat.mul_lt_mul_of_pos_right small (Nat.two_pow_pos 40)
            _ = 2 ^ 64 := by decide
        simp only [if_neg huge, Nat.shiftLeft_eq, Nat.mod_eq_of_lt fits]
    · simp only [if_neg integral]
      by_cases tiny : 63 < -x.exp
      · have none : x.sig / 2 ^ (-x.exp).toNat = 0 := by
          apply Nat.div_eq_of_lt
          exact small.trans (Nat.pow_lt_pow_right Nat.one_lt_two (by omega))
        simp only [if_pos tiny, none, saturateS32_zero]
      · simp only [if_neg tiny, Nat.shiftRight_eq_div_pow]

theorem saturateS32_toInt (sign : Bool) (mag : ℕ) :
    (saturateS32 sign mag).toInt =
      saturate (-2 ^ 31) (2 ^ 31 - 1) (if sign then -(mag : ℤ) else mag) := by
  unfold saturateS32 saturate s32Max
  by_cases large : 0x7fffffff < mag
  · simp only [if_pos large]
    cases sign with
    | false =>
        simp only [Bool.false_eq_true, if_false, Int32.toInt_maxValue]
        omega
    | true =>
        simp only [if_true, Int32.toInt_minValue]
        omega
  · simp only [if_neg large]
    have value : (Int32.ofNat mag).toInt = mag := Int32.toInt_ofNat_of_lt (by omega)
    cases sign with
    | false =>
        simp only [Bool.false_eq_true, if_false, value]
        omega
    | true =>
        simp only [if_true, Int32.toInt_neg, value, Int.bmod_def]
        omega

/-- Truncation toward zero, saturating. -/
theorem arF32ToS32Trunc_toInt (a : ArF32) :
    (arF32ToS32Trunc a).toInt = saturate (-2 ^ 31) (2 ^ 31 - 1) (truncate (value a)) := by
  have truncated : truncate (value a) = if (arF32Unpack a).sign then
      -(wholePart (arF32Unpack a) : ℤ) else wholePart (arF32Unpack a) := by
    rw [← arF32Unpack_value]
    generalize arF32Unpack a = x
    have nonneg : 0 ≤ (x.sig : ℚ) * 2 ^ x.exp := by positivity
    unfold ArF32Up.value signOf
    cases x.sign with
    | false =>
        simp only [Bool.false_eq_true, if_false, one_mul]
        rw [truncate_of_nonneg nonneg, floor_magnitude]
    | true =>
        simp only [if_true, neg_one_mul]
        rw [truncate_neg nonneg, floor_magnitude]
  rw [arF32ToS32Trunc_whole, saturateS32_toInt, truncated]

/-! ### The domain of the ladders -/

/-- The operands of the ladders: zero or normal. -/
def Operand (a : ArF32) : Prop := IsZero a ∨ IsNormal a

/-- Every operation is correctly rounded on its domain, wherever the result rounded to 24 bits is
normal. -/
theorem softFloat_correctlyRounded :
    (∀ a b, Operand a → Operand b →
      CorrectlyRounded (value a + value b) (decide (IsNegative a) && decide (IsNegative b))
          (arF32Add a b) ∧
        CorrectlyRounded (value a - value b) (decide (IsNegative a) && !decide (IsNegative b))
          (arF32Sub a b) ∧
        CorrectlyRounded (value a * value b) (decide (IsNegative a) ^^ decide (IsNegative b))
          (arF32Mul a b) ∧
        (value b ≠ 0 →
          CorrectlyRounded (value a / value b) (decide (IsNegative a) ^^ decide (IsNegative b))
            (arF32Div a b))) ∧
      (∀ a b c, Operand a → Operand b → Operand c →
        CorrectlyRounded (value a * value b + value c)
          ((decide (IsNegative a) ^^ decide (IsNegative b)) && decide (IsNegative c))
          (arF32Fma a b c)) ∧
      ((∀ v : Int32, RoundsTo v.toInt (arF32FromS32 v)) ∧ arF32FromS32 0 = 0) ∧
      (∀ a, Operand a → ∀ shift : Int32,
        (IsZero a → arF32ScaleDown a shift = a) ∧
          (2 ^ (-126 : ℤ) ≤ |value a / 2 ^ shift.toInt| →
            |value a / 2 ^ shift.toInt| < 2 ^ (128 : ℤ) →
              IsNormal (arF32ScaleDown a shift) ∧
                value (arF32ScaleDown a shift) = value a / 2 ^ shift.toInt)) ∧
      ∀ a, Operand a →
        (arF32ToS32Trunc a).toInt = saturate (-2 ^ 31) (2 ^ 31 - 1) (truncate (value a)) := by
  refine ⟨?_, ?_, ?_, ?_, ?_⟩
  · intro a b aOperand _
    exact ⟨arF32Add_correct a b, arF32Sub_correct a b, arF32Mul_correct a b,
      arF32Div_correct aOperand⟩
  · intro a b c _ _ _
    exact arF32Fma_correct a b c
  · exact ⟨arF32FromS32_roundsTo, rfl⟩
  · intro a operand shift
    refine ⟨fun zero => arF32ScaleDown_zero zero shift, ?_⟩
    intro low high
    rcases operand with zero | normal
    · rw [zero.value_eq, zero_div, abs_zero] at low
      exact absurd low (not_le.mpr (zpow_pos two_pos _))
    · exact arF32ScaleDown_normal normal low high
  · intro a _
    exact arF32ToS32Trunc_toInt a

theorem value_one : value 0x3f800000 = 1 := by
  have pattern : (0x3f800000 : UInt32) = normalPattern False 127 (2 ^ 23) := rfl
  rw [pattern, normalPattern_value False (by decide) (by decide) (by decide) (by decide)]
  norm_num [signOf]

theorem value_three : value 0x40400000 = 3 := by
  have pattern : (0x40400000 : UInt32) = normalPattern False 128 0xc00000 := rfl
  rw [pattern, normalPattern_value False (by decide) (by decide) (by decide) (by decide)]
  norm_num [signOf]

theorem inRange_third : InRange (1 / 3) := by
  constructor <;> norm_num [abs_of_pos]

/-- A third, and the sum of two negative zeros. -/
theorem softFloat_correctlyRounded_third :
    RoundsTo (value 0x3f800000 / value 0x40400000) (arF32Div 0x3f800000 0x40400000) ∧
      arF32Add 0x80000000 0x80000000 = 0x80000000 := by
  have third := (softFloat_correctlyRounded.1 0x3f800000 0x40400000 (.inr (by decide))
    (.inr (by decide))).2.2.2
  have zeros := (softFloat_correctlyRounded.1 0x80000000 0x80000000 (.inl (by decide))
    (.inl (by decide))).1
  constructor
  · refine (third ?_).rounded ?_
    · rw [value_three]
      norm_num
    · rw [value_one, value_three]
      exact inRange_third
  · apply zeros.zero
    rw [IsZero.value_eq (by decide), add_zero]

/-! ### Just below the least normal number -/

theorem value_multiple (c : ArF32) : ∃ k : ℤ, value c = 2 * k * 2 ^ (-150 : ℤ) := by
  have weight : (2 : ℚ) ^ exponent c = ((2 ^ (exponent c - -149).toNat : ℤ) : ℚ) * 2 ^ (-149 : ℤ) :=
    two_zpow_split (exponent_bounds c).1
  have unit : (2 : ℚ) ^ (-149 : ℤ) = 2 * 2 ^ (-150 : ℤ) := by
    rw [← zpow_one_add₀ two_ne_zero]
    rfl
  refine ⟨(if IsNegative c then -1 else 1) * significand c * 2 ^ (exponent c - -149).toNat, ?_⟩
  unfold value signOf
  rw [weight, unit]
  split <;> push_cast <;> ring

/-- No finite number is nearer to `2 ^ -126 - 2 ^ -150` than `2 ^ -150`. -/
theorem below_normal_distance (c : ArF32) :
    2 ^ (-150 : ℤ) ≤ |(2 ^ 24 - 1) * 2 ^ (-150 : ℤ) - value c| := by
  have unit : (0 : ℚ) < 2 ^ (-150 : ℤ) := zpow_pos two_pos _
  rcases value_multiple c with ⟨k, multiple⟩
  have odd : (2 * k : ℤ) ≠ 0xffffff := by omega
  have apart := one_le_distance odd
  have literal : (2 : ℚ) ^ 24 - 1 = 0xffffff := by norm_num
  push_cast at apart
  rw [multiple, literal, ← sub_mul, abs_mul, abs_of_pos unit]
  exact le_mul_of_one_le_left unit.le apart

theorem value_least_normal : value 0x00800000 = 2 ^ 24 * 2 ^ (-150 : ℤ) := by
  have pattern : (0x00800000 : UInt32) = normalPattern False 1 (2 ^ 23) := rfl
  rw [pattern, normalPattern_value False (by decide) (by decide) (by decide) (by decide)]
  norm_num [signOf]

theorem value_greatest_subnormal : value 0x007fffff = (2 ^ 24 - 2) * 2 ^ (-150 : ℤ) := by
  have field : biased 0x007fffff = 0 := rfl
  have bits : fraction 0x007fffff = 0x7fffff := rfl
  have plus : ¬IsNegative 0x007fffff := by decide
  simp only [value, significand, exponent, signOf, field, bits, if_true, if_neg plus]
  norm_num

/-- The product of `2 ^ -1 + 2 ^ -13` and `2 ^ -125 - 2 ^ -137` lies half way between the greatest
subnormal number and the least normal one. -/
theorem value_tie : value 0x3f000800 * value 0x00fff000 = (2 ^ 24 - 1) * 2 ^ (-150 : ℤ) := by
  have first : (0x3f000800 : UInt32) = normalPattern False 126 0x800800 := rfl
  have second : (0x00fff000 : UInt32) = normalPattern False 1 0xfff000 := rfl
  rw [first, second, normalPattern_value False (by decide) (by decide) (by decide) (by decide),
    normalPattern_value False (by decide) (by decide) (by decide) (by decide)]
  norm_num [signOf]

/-- A product that rounds to the least normal number, and is returned as the number below it. -/
theorem arF32Mul_below_normal :
    (Operand 0x3f000800 ∧ Operand 0x00fff000 ∧ IsNormal 0x00800000 ∧
      RoundsTo (value 0x3f000800 * value 0x00fff000) 0x00800000) ∧
      ¬RoundsTo (value 0x3f000800 * value 0x00fff000) (arF32Mul 0x3f000800 0x00fff000) := by
  have returned : arF32Mul 0x3f000800 0x00fff000 = 0x007fffff := by decide +kernel
  have unit : (0 : ℚ) < 2 ^ (-150 : ℤ) := zpow_pos two_pos _
  have above : |(2 ^ 24 - 1) * 2 ^ (-150 : ℤ) - value 0x00800000| = 2 ^ (-150 : ℤ) := by
    have gap : (2 ^ 24 - 1) * (2 : ℚ) ^ (-150 : ℤ) - 2 ^ 24 * 2 ^ (-150 : ℤ) = -2 ^ (-150 : ℤ) := by
      ring
    rw [value_least_normal, gap, abs_neg, abs_of_pos unit]
  have below : |(2 ^ 24 - 1) * 2 ^ (-150 : ℤ) - value 0x007fffff| = 2 ^ (-150 : ℤ) := by
    have gap : (2 ^ 24 - 1) * (2 : ℚ) ^ (-150 : ℤ) - (2 ^ 24 - 2) * 2 ^ (-150 : ℤ) =
        2 ^ (-150 : ℤ) := by
      ring
    rw [value_greatest_subnormal, gap, abs_of_pos unit]
  rw [returned, value_tie]
  refine ⟨⟨.inr (by decide), .inr (by decide), by decide, ⟨by decide, ?_, ?_⟩⟩, ?_⟩
  · intro c _
    rw [above]
    exact below_normal_distance c
  · intro _ _ _ _
    rfl
  · intro rounds
    have differ : value 0x00800000 ≠ value 0x007fffff := by
      rw [value_least_normal, value_greatest_subnormal]
      intro same
      have equal := mul_right_cancel₀ unit.ne' same
      norm_num at equal
    have even := rounds.even 0x00800000 (by decide) (above.trans below.symm) differ
    exact absurd even (by decide)

end MlKernel.Isp
