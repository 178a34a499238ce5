import MlKernel.Isp.SoftFloat

/-!
# Addition and the fused product

The smaller operand is shifted down and what it loses is noted.  When the lost bits are subtracted
they are borrowed from the last bit, and then the operands are far enough apart for the rounding
to see them below the bits that it keeps.
-/

namespace MlKernel.Isp

open Binary32 Rounding

/-- The result of an operation whose exact value is `v`: a zero of the given sign, or the value
rounded once. -/
structure CorrectlyRounded (v : ℚ) (zeroSign : Bool) (b : ArF32) : Prop where
  zero : v = 0 → b = signedZero zeroSign
  rounded : InRange v → RoundsTo v b

theorem InRange.ne_zero {v : ℚ} (range : InRange v) : v ≠ 0 := by
  rintro rfl
  have low := range.low
  have unit : (0 : ℚ) < 2 ^ (-150 : ℤ) := zpow_pos two_pos _
  rw [abs_zero] at low
  have bits : (0 : ℚ) < (2 ^ 24 - 1 / 2) * 2 ^ (-150 : ℤ) := by
    apply mul_pos _ unit
    norm_num
  linarith

theorem CorrectlyRounded.of_zero {v : ℚ} {zeroSign : Bool} (zero : v = 0) :
    CorrectlyRounded v zeroSign (signedZero zeroSign) where
  zero _ := rfl
  rounded range := absurd zero (InRange.ne_zero range)

theorem CorrectlyRounded.of_ne_zero {v : ℚ} {zeroSign : Bool} {b : ArF32} (nonzero : v ≠ 0)
    (rounded : InRange v → RoundsTo v b) : CorrectlyRounded v zeroSign b where
  zero zero := absurd zero nonzero
  rounded := rounded

section Values

variable {sign : Bool} {sig : ℕ} {exp : ℤ} {tail : ℚ}

theorem signed_ne_zero (nonzero : (sig : ℚ) + tail ≠ 0) :
    signOf (sign = true) * ((sig + tail) * 2 ^ exp) ≠ 0 :=
  mul_ne_zero (signOf_ne_zero _) (mul_ne_zero nonzero (zpow_pos two_pos exp).ne')

/-- Rounding and packing with the tail that was noted. -/
theorem roundPack_correct {zeroSign sticky : Bool} (nonzero : sig ≠ 0) (tailNonneg : 0 ≤ tail)
    (tailSmall : tail < 1) (lost : sticky = true ↔ tail ≠ 0) (kept : sticky = true → 2 ^ 24 ≤ sig) :
    CorrectlyRounded (signOf (sign = true) * ((sig + tail) * 2 ^ exp)) zeroSign
      (arF32RoundPack sign sig exp sticky) := by
  apply CorrectlyRounded.of_ne_zero
  · apply signed_ne_zero
    have positive : (0 : ℚ) < sig := Nat.cast_pos.mpr (Nat.pos_of_ne_zero nonzero)
    exact (add_pos_of_pos_of_nonneg positive tailNonneg).ne'
  · exact roundPack_roundsTo nonzero tailNonneg tailSmall lost kept

/-- Rounding and packing when nothing was lost. -/
theorem roundPack_exact {zeroSign : Bool} (nonzero : sig ≠ 0) :
    CorrectlyRounded (signOf (sign = true) * (sig * 2 ^ exp)) zeroSign
      (arF32RoundPack sign sig exp false) := by
  have correct : CorrectlyRounded (signOf (sign = true) * ((sig + 0) * 2 ^ exp)) zeroSign
      (arF32RoundPack sign sig exp false) :=
    roundPack_correct nonzero le_rfl one_pos (by simp) (by simp)
  rwa [add_zero] at correct

end Values

/-! ### Aligned operands -/

section Aligned

variable {xSign ySign sticky : Bool} {x y : ℕ} {exp : ℤ} {tail : ℚ}

theorem addAligned_comm : addAligned xSign ySign x y exp sticky =
    addAligned ySign xSign y x exp sticky := by
  unfold addAligned
  by_cases same : xSign = ySign
  · subst same
    simp only [if_true, Nat.add_comm]
  · simp only [if_neg same, if_neg (Ne.symm same)]
    rcases Nat.lt_trichotomy x y with below | equal | above
    · simp only [if_neg (Nat.not_le_of_lt below), if_pos below.le]
    · subst equal
      simp [borrowSticky]
    · simp only [if_pos above.le, if_neg (Nat.not_le_of_lt above)]

/-- A difference, with the dropped bits of what is subtracted borrowed from its last bit. -/
theorem difference_correct {sign : Bool} (order : y ≤ x) (tailNonneg : 0 ≤ tail)
    (tailSmall : tail < 1) (lost : sticky = true ↔ tail ≠ 0)
    (apart : sticky = true → y + 2 ^ 25 ≤ x) :
    CorrectlyRounded (signOf (sign = true) * ((x - (y + tail)) * 2 ^ exp)) false
      (if borrowSticky (x - y) sticky = 0 then 0
        else arF32RoundPack sign (borrowSticky (x - y) sticky) exp sticky) := by
  cases sticky with
  | true =>
      have room := apart rfl
      have nonzero : x - y - 1 ≠ 0 := by omega
      have rest : (x : ℚ) - (y + tail) = (x - y - 1 : ℕ) + (1 - tail) := by
        rw [Nat.cast_sub (by omega), Nat.cast_sub order]
        push_cast
        ring
      have positive : 0 < tail := lt_of_le_of_ne tailNonneg (Ne.symm (lost.mp rfl))
      have borrowed : borrowSticky (x - y) true = x - y - 1 := by
        unfold borrowSticky
        rw [if_pos ⟨rfl, by omega⟩]
      rw [borrowed, if_neg nonzero, rest]
      apply roundPack_correct nonzero
      · linarith
      · linarith
      · exact iff_of_true rfl (by linarith)
      · intro _
        omega
  | false =>
      have exact : tail = 0 := by
        by_contra inexact
        exact Bool.false_ne_true (lost.mpr inexact)
      have rest : (x : ℚ) - (y + tail) = (x - y : ℕ) := by
        rw [exact, Nat.cast_sub order, add_zero]
      have kept : borrowSticky (x - y) false = x - y := by simp [borrowSticky]
      rw [kept, rest]
      split
      · next cancelled =>
          rw [cancelled]
          apply CorrectlyRounded.of_zero
          simp
      · next nonzero => exact roundPack_exact nonzero

/-- The sum when bits were dropped of `y` only, and then only if `x` is much larger. -/
theorem addAligned_correct (xPos : x ≠ 0) (small : x + y < 2 ^ 64) (tailNonneg : 0 ≤ tail)
    (tailSmall : tail < 1) (lost : sticky = true ↔ tail ≠ 0)
    (apart : sticky = true → y + 2 ^ 25 ≤ x) :
    CorrectlyRounded
      (signOf (xSign = true) * (x * 2 ^ exp) + signOf (ySign = true) * ((y + tail) * 2 ^ exp))
      (xSign && ySign) (addAligned xSign ySign x y exp sticky) := by
  unfold addAligned
  by_cases same : xSign = ySign
  · subst same
    have sum : signOf (xSign = true) * (x * 2 ^ exp) +
        signOf (xSign = true) * ((y + tail) * 2 ^ exp) =
        signOf (xSign = true) * (((x + y : ℕ) + tail) * 2 ^ exp) := by
      push_cast
      ring
    have nonzero : x + y ≠ 0 := by omega
    simp only [if_true, Nat.mod_eq_of_lt small, if_neg nonzero, sum]
    apply roundPack_correct nonzero tailNonneg tailSmall lost
    intro noted
    have room := apart noted
    omega
  · have opposite : signOf (ySign = true) = -signOf (xSign = true) := by
      cases xSign <;> cases ySign <;> simp_all [signOf]
    have plus : (xSign && ySign) = false := by
      cases xSign <;> cases ySign <;> simp_all
    simp only [if_neg same, plus]
    by_cases order : y ≤ x
    · have difference : signOf (xSign = true) * (x * 2 ^ exp) +
          signOf (ySign = true) * ((y + tail) * 2 ^ exp) =
          signOf (xSign = true) * ((x - (y + tail)) * 2 ^ exp) := by
        rw [opposite]
        ring
      simp only [if_pos order, difference]
      exact difference_correct order tailNonneg tailSmall lost apart
    · have noSticky : sticky = false := by
        by_contra noted
        have room := apart (by simpa using noted)
        omega
      have exact : tail = 0 := by
        by_contra inexact
        exact absurd (lost.mpr inexact) (by simp [noSticky])
      have difference : signOf (xSign = true) * (x * 2 ^ exp) +
          signOf (ySign = true) * ((y + tail) * 2 ^ exp) =
          signOf (ySign = true) * ((y - (x + 0)) * 2 ^ exp) := by
        rw [exact, opposite]
        ring
      simp only [if_neg order, difference]
      subst noSticky
      exact difference_correct (Nat.le_of_not_le order) le_rfl one_pos (by simp) (by simp)

end Aligned

/-! ### Alignment -/

section Alignment

variable {x y : ArF32Up}

/-- A significand with its top bit parked; it came from a product of at most 48 bits. -/
structure Parked (v : ArF32Up) : Prop where
  low : 2 ^ 62 ≤ v.sig
  high : v.sig < 2 ^ 63
  divides : 2 ^ 15 ∣ v.sig

theorem arF32Norm_sign (v : ArF32Up) : (arF32Norm v).sign = v.sign := by
  unfold arF32Norm
  split <;> rfl

theorem arF32Norm_eq (nonzero : x.sig ≠ 0) (small : x.sig < 2 ^ 48) :
    arF32Norm x =
      { x with
        sig := x.sig * 2 ^ (63 - fls64 x.sig)
        exp := x.exp - (63 - fls64 x.sig : ℕ) } := by
  have bits := fls64_le small
  have top : x.sig * 2 ^ (63 - fls64 x.sig) < 2 ^ 63 := by
    calc
      x.sig * 2 ^ (63 - fls64 x.sig) < 2 ^ fls64 x.sig * 2 ^ (63 - fls64 x.sig) :=
        Nat.mul_lt_mul_of_pos_right (fls64_bounds nonzero).2.2 (Nat.two_pow_pos _)
      _ = 2 ^ 63 := by
        rw [← Nat.pow_add]
        congr 1
        omega
  have shift : (arF32NormBit + 1 - fls64 x.sig : ℤ) = (63 - fls64 x.sig : ℕ) := by
    unfold arF32NormBit
    omega
  unfold arF32Norm
  have moved : x.sig <<< (63 - fls64 x.sig) % 2 ^ 64 = x.sig * 2 ^ (63 - fls64 x.sig) := by
    rw [Nat.shiftLeft_eq]
    exact Nat.mod_eq_of_lt (by omega)
  simp only [if_neg nonzero, shift, Int.toNat_natCast, moved]

theorem arF32Norm_parked (nonzero : x.sig ≠ 0) (small : x.sig < 2 ^ 48) : Parked (arF32Norm x) := by
  have bits := fls64_le small
  rcases fls64_bounds nonzero with ⟨bitsPos, sigLow, sigHigh⟩
  rw [arF32Norm_eq nonzero small]
  constructor
  · calc
      2 ^ 62 = 2 ^ (fls64 x.sig - 1) * 2 ^ (63 - fls64 x.sig) := by
        rw [← Nat.pow_add]
        congr 1
        omega
      _ ≤ x.sig * 2 ^ (63 - fls64 x.sig) := Nat.mul_le_mul_right _ sigLow
  · calc
      x.sig * 2 ^ (63 - fls64 x.sig) < 2 ^ fls64 x.sig * 2 ^ (63 - fls64 x.sig) :=
        Nat.mul_lt_mul_of_pos_right sigHigh (Nat.two_pow_pos _)
      _ = 2 ^ 63 := by
        rw [← Nat.pow_add]
        congr 1
        omega
  · exact Dvd.dvd.mul_left (Nat.pow_dvd_pow 2 (by omega)) _

theorem arF32Norm_value (nonzero : x.sig ≠ 0) (small : x.sig < 2 ^ 48) :
    (arF32Norm x).value = x.value := by
  rw [arF32Norm_eq nonzero small]
  unfold ArF32Up.value
  rw [zpow_sub₀ two_ne_zero, zpow_natCast]
  push_cast
  field_simp

/-- The quotient, and whether there is a remainder, however far the operand is shifted. -/
theorem shiftDown_eq {sig d : ℕ} (nonzero : sig ≠ 0) (small : sig < 2 ^ 63) :
    shiftDown sig d = (sig / 2 ^ d, decide (sig % 2 ^ d ≠ 0)) := by
  unfold shiftDown
  split
  · next far =>
      have whole : sig < 2 ^ d := small.trans (Nat.pow_lt_pow_right Nat.one_lt_two far)
      rw [Nat.div_eq_of_lt whole, Nat.mod_eq_of_lt whole]
      simp [nonzero]
  · rw [Nat.one_shiftLeft, Nat.and_two_pow_sub_one_eq_mod, Nat.shiftRight_eq_div_pow]

/-- The sum with `y` shifted down to the exponent of `x`. -/
theorem addShifted_correct {d : ℕ} (xParked : Parked x) (yParked : Parked y)
    (exps : x.exp = y.exp + d) :
    CorrectlyRounded (x.value + y.value) (x.sign && y.sign)
      (addAligned x.sign y.sign x.sig (shiftDown y.sig d).1 x.exp (shiftDown y.sig d).2) := by
  have unit : (0 : ℚ) < 2 ^ d := by positivity
  have nonzero : y.sig ≠ 0 := by
    have low := yParked.low
    omega
  rw [shiftDown_eq nonzero yParked.high]
  have small : y.sig / 2 ^ d ≤ y.sig := Nat.div_le_self _ _
  have rest : ((y.sig % 2 ^ d : ℕ) : ℚ) < 2 ^ d := by
    exact_mod_cast Nat.mod_lt y.sig (Nat.two_pow_pos d)
  have shifted : y.value = signOf (y.sign = true) *
      (((y.sig / 2 ^ d : ℕ) + ((y.sig % 2 ^ d : ℕ) : ℚ) / 2 ^ d) * 2 ^ x.exp) := by
    have parts : (y.sig : ℚ) = 2 ^ d * (y.sig / 2 ^ d : ℕ) + (y.sig % 2 ^ d : ℕ) := by
      exact_mod_cast (Nat.div_add_mod y.sig (2 ^ d)).symm
    unfold ArF32Up.value
    rw [exps, zpow_add₀ two_ne_zero, zpow_natCast]
    conv_lhs => rw [parts]
    field_simp
  rw [shifted]
  have xLow := xParked.low
  have xHigh := xParked.high
  have yHigh := yParked.high
  apply addAligned_correct
  · omega
  · omega
  · positivity
  · rw [div_lt_one unit]
    exact rest
  · rw [decide_eq_true_eq, ne_eq, ne_eq, div_eq_zero_iff, Nat.cast_eq_zero]
    simp [unit.ne']
  · intro noted
    -- a parked operand only loses bits when it is shifted by more than fifteen
    have far : 16 ≤ d := by
      by_contra near
      have divides : 2 ^ d ∣ y.sig := (Nat.pow_dvd_pow 2 (by omega)).trans yParked.divides
      exact of_decide_eq_true noted (Nat.mod_eq_zero_of_dvd divides)
    have below : y.sig / 2 ^ d ≤ y.sig / 2 ^ 16 :=
      Nat.div_le_div_left (Nat.pow_le_pow_right Nat.zero_lt_two far) (Nat.two_pow_pos 16)
    omega

/-- One rounding of the sum of two unpacked values. -/
theorem arF32AddUp_correct (xSmall : x.sig < 2 ^ 48) (ySmall : y.sig < 2 ^ 48) :
    CorrectlyRounded (x.value + y.value) (x.sign && y.sign) (arF32AddUp x y) := by
  have zeroValue {v : ArF32Up} (zero : v.sig = 0) : v.value = 0 := by simp [ArF32Up.value, zero]
  unfold arF32AddUp
  by_cases xZero : x.sig = 0
  · by_cases yZero : y.sig = 0
    · rw [if_pos ⟨xZero, yZero⟩]
      apply CorrectlyRounded.of_zero
      rw [zeroValue xZero, zeroValue yZero, add_zero]
    · rw [if_neg (fun both => yZero both.2), if_pos xZero, zeroValue xZero, zero_add]
      exact roundPack_exact yZero
  · rw [if_neg (fun both => xZero both.1), if_neg xZero]
    by_cases yZero : y.sig = 0
    · rw [if_pos yZero, zeroValue yZero, add_zero]
      exact roundPack_exact xZero
    · rw [if_neg yZero, ← arF32Norm_value xZero xSmall, ← arF32Norm_value yZero ySmall,
        ← arF32Norm_sign x, ← arF32Norm_sign y]
      have xParked := arF32Norm_parked xZero xSmall
      have yParked := arF32Norm_parked yZero ySmall
      generalize arF32Norm x = x at xParked ⊢
      generalize arF32Norm y = y at yParked ⊢
      rcases lt_trichotomy (x.exp - y.exp) 0 with below | level | above
      · have exps : y.exp = x.exp + ((-(x.exp - y.exp)).toNat : ℤ) := by omega
        have sum := addShifted_correct yParked xParked exps
        rw [addAligned_comm, add_comm, Bool.and_comm] at sum
        simp only [if_neg (not_lt.mpr below.le), if_pos below]
        exact sum
      · have exps : y.exp = x.exp := by omega
        have xLow := xParked.low
        have xHigh := xParked.high
        have yHigh := yParked.high
        simp only [level, lt_irrefl, if_false]
        unfold ArF32Up.value
        rw [exps, ← add_zero (y.sig : ℚ)]
        apply addAligned_correct (by omega) (by omega) le_rfl one_pos <;> simp
      · have exps : x.exp = y.exp + ((x.exp - y.exp).toNat : ℤ) := by omega
        simp only [if_pos above]
        exact addShifted_correct xParked yParked exps

end Alignment

/-! ### The operations -/

theorem arF32Unpack_sig_lt (a : ArF32) : (arF32Unpack a).sig < 2 ^ 24 := by
  rw [arF32Unpack_eq]
  exact significand_lt a

theorem arF32Unpack_sign (a : ArF32) : (arF32Unpack a).sign = decide (IsNegative a) := by
  rw [arF32Unpack_eq]

theorem arF32Add_correct (a b : ArF32) :
    CorrectlyRounded (value a + value b) (decide (IsNegative a) && decide (IsNegative b))
      (arF32Add a b) := by
  have aSmall := arF32Unpack_sig_lt a
  have bSmall := arF32Unpack_sig_lt b
  rw [← arF32Unpack_value a, ← arF32Unpack_value b, ← arF32Unpack_sign, ← arF32Unpack_sign]
  exact arF32AddUp_correct (by omega) (by omega)

theorem signOf_xor (p q : Bool) :
    signOf ((p ^^ q) = true) = signOf (p = true) * signOf (q = true) := by
  cases p <;> cases q <;> simp [signOf]

theorem product_lt {x y : ℕ} (xSmall : x < 2 ^ 24) (ySmall : y < 2 ^ 24) : x * y < 2 ^ 48 := by
  calc
    x * y ≤ 2 ^ 24 * y := Nat.mul_le_mul_right y xSmall.le
    _ < 2 ^ 24 * 2 ^ 24 := Nat.mul_lt_mul_of_pos_left ySmall (by decide)
    _ = 2 ^ 48 := by decide

theorem arF32Product_value {x y : ArF32Up} (xSmall : x.sig < 2 ^ 24) (ySmall : y.sig < 2 ^ 24) :
    (arF32Product x y).value = x.value * y.value := by
  have small := product_lt xSmall ySmall
  unfold arF32Product ArF32Up.value
  rw [Nat.mod_eq_of_lt (by omega), signOf_xor, zpow_add₀ two_ne_zero]
  push_cast
  ring

theorem arF32Fma_correct (a b c : ArF32) :
    CorrectlyRounded (value a * value b + value c)
      ((decide (IsNegative a) ^^ decide (IsNegative b)) && decide (IsNegative c))
      (arF32Fma a b c) := by
  have aSmall := arF32Unpack_sig_lt a
  have bSmall := arF32Unpack_sig_lt b
  have cSmall := arF32Unpack_sig_lt c
  have product := arF32Product_value aSmall bSmall
  have small : (arF32Product (arF32Unpack a) (arF32Unpack b)).sig < 2 ^ 48 :=
    (Nat.mod_le _ _).trans_lt (product_lt aSmall bSmall)
  rw [← arF32Unpack_value a, ← arF32Unpack_value b, ← arF32Unpack_value c, ← product,
    ← arF32Unpack_sign, ← arF32Unpack_sign, ← arF32Unpack_sign]
  exact arF32AddUp_correct small (by omega)

end MlKernel.Isp
