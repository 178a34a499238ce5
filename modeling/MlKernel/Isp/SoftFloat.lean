import MlKernel.Lib.Binary32
import Mathlib.Data.Nat.Log

/-!
# The soft-float of the ladders

The slice of binary32 that the ladder stages need, in integers: every routine unpacks its operands,
computes a significand with what was shifted out of it, and rounds once.
-/

namespace MlKernel.Isp

/-- A binary32 bit pattern. -/
abbrev ArF32 : Type := UInt32

def arF32MantBits : ℕ := 24
def arF32Bias : ℤ := 127
def arF32NormBit : ℕ := 62

/-- An unpacked value; the significand is a 64-bit word. -/
structure ArF32Up where
  sig : ℕ
  exp : ℤ
  sign : Bool

/-- The number of bits of a 64-bit word. -/
def fls64 (word : ℕ) : ℕ := if word = 0 then 0 else Nat.log2 word + 1

def arF32Unpack (a : ArF32) : ArF32Up :=
  let mant := (a &&& 0x7fffff).toNat
  let biased := ((a >>> 23) &&& 0xff).toNat
  let sign := decide ((a >>> 31) &&& 1 ≠ 0)
  if biased = 0 then ⟨mant, 1 - arF32Bias - 23, sign⟩
  else ⟨mant ||| 0x800000, biased - arF32Bias - 23, sign⟩

/-- A signed zero. -/
def signedZero (sign : Bool) : ArF32 := if sign then 0x80000000 else 0

/-- The exponent and the low 23 bits of the significand, with the sign. -/
def packFields (sign : Bool) (sig : ℕ) (exp : ℤ) : ArF32 :=
  let packed : UInt32 := (UInt32.ofInt (exp + arF32Bias + 23) <<< 23) ||| .ofNat (sig &&& 0x7fffff)
  if sign then packed ||| 0x80000000 else packed

/-- The bits that are kept, rounded by the remainder that is shifted out. -/
def roundKept (kept rem half : ℕ) (sticky : Bool) : ℕ :=
  if half < rem ∨ (rem = half ∧ (sticky = true ∨ kept &&& 1 ≠ 0)) then kept + 1 else kept

/-- The significand shifted down and rounded, with a carry out of it taken into the exponent. -/
def roundShifted (sig : ℕ) (exp : ℤ) (shift : ℕ) (sticky : Bool) : ℕ × ℤ :=
  let rem := sig &&& (1 <<< shift - 1)
  let kept := roundKept (sig >>> shift) rem (1 <<< (shift - 1)) sticky
  if kept >>> arF32MantBits ≠ 0 then (kept >>> 1, exp + shift + 1) else (kept, exp + shift)

/-- Round to nearest even and pack; `sticky` carries anything already shifted out. -/
def arF32RoundPack (sign : Bool) (sig : ℕ) (exp : ℤ) (sticky : Bool) : ArF32 :=
  if sig = 0 then signedZero sign
  else if arF32MantBits < fls64 sig then
    let rounded := roundShifted sig exp (fls64 sig - arF32MantBits) sticky
    packFields sign rounded.1 rounded.2
  else
    let shift := arF32MantBits - fls64 sig
    packFields sign ((sig <<< shift) % 2 ^ 64) (exp - shift)

def arF32FromS32 (v : Int32) : ArF32 :=
  let sign := decide (v.toInt < 0)
  let mag := if sign then (-v.toInt).toNat else v.toInt.toNat
  if mag = 0 then 0 else arF32RoundPack sign mag 0 false

def arF32ScaleDown (a : ArF32) (shift : Int32) : ArF32 :=
  if a &&& 0x7f800000 = 0 then a else a - (shift.toUInt32 <<< 23)

def arF32Mul (a b : ArF32) : ArF32 :=
  let x := arF32Unpack a
  let y := arF32Unpack b
  if x.sig = 0 ∨ y.sig = 0 then signedZero (x.sign ^^ y.sign)
  else arF32RoundPack (x.sign ^^ y.sign) (x.sig * y.sig % 2 ^ 64) (x.exp + y.exp) false

/-- The significand's top bit parked at `AR_F32_NORM_BIT`. -/
def arF32Norm (v : ArF32Up) : ArF32Up :=
  if v.sig = 0 then v
  else
    let shift : ℤ := arF32NormBit + 1 - fls64 v.sig
    { v with sig := (v.sig <<< shift.toNat) % 2 ^ 64, exp := v.exp - shift }

/-- The smaller operand shifted down by `d`, and whether it lost bits. -/
def shiftDown (sig d : ℕ) : ℕ × Bool :=
  if 63 < d then (0, true) else (sig >>> d, decide (sig &&& (1 <<< d - 1) ≠ 0))

/-- A difference from which bits were dropped. -/
def borrowSticky (sig : ℕ) (sticky : Bool) : ℕ := if sticky = true ∧ sig ≠ 0 then sig - 1 else sig

/-- The sum of two aligned operands, of which `sticky` belongs to the smaller one. -/
def addAligned (xSign ySign : Bool) (x y : ℕ) (exp : ℤ) (sticky : Bool) : ArF32 :=
  let sum : Bool × ℕ :=
    if xSign = ySign then (xSign, (x + y) % 2 ^ 64)
    else if y ≤ x then (xSign, borrowSticky (x - y) sticky)
    else (ySign, borrowSticky (y - x) sticky)
  if sum.2 = 0 then 0 else arF32RoundPack sum.1 sum.2 exp sticky

def arF32AddUp (x y : ArF32Up) : ArF32 :=
  if x.sig = 0 ∧ y.sig = 0 then signedZero (x.sign && y.sign)
  else if x.sig = 0 then arF32RoundPack y.sign y.sig y.exp false
  else if y.sig = 0 then arF32RoundPack x.sign x.sig x.exp false
  else
    let x := arF32Norm x
    let y := arF32Norm y
    let d := x.exp - y.exp
    if 0 < d then
      let shifted := shiftDown y.sig d.toNat
      addAligned x.sign y.sign x.sig shifted.1 x.exp shifted.2
    else if d < 0 then
      let shifted := shiftDown x.sig (-d).toNat
      addAligned x.sign y.sign shifted.1 y.sig y.exp shifted.2
    else addAligned x.sign y.sign x.sig y.sig x.exp false

def arF32Add (a b : ArF32) : ArF32 := arF32AddUp (arF32Unpack a) (arF32Unpack b)

def arF32Sub (a b : ArF32) : ArF32 := arF32Add a (b ^^^ 0x80000000)

def arF32Div (a b : ArF32) : ArF32 :=
  let x := arF32Unpack a
  let y := arF32Unpack b
  if x.sig = 0 ∨ y.sig = 0 then signedZero (x.sign ^^ y.sign)
  else
    let dividend := (x.sig <<< 30) % 2 ^ 64
    arF32RoundPack (x.sign ^^ y.sign) (dividend / y.sig) (x.exp - y.exp - 30)
      (decide (dividend % y.sig ≠ 0))

/-- The product unrounded, zero included. -/
def arF32Product (x y : ArF32Up) : ArF32Up :=
  ⟨x.sig * y.sig % 2 ^ 64, x.exp + y.exp, x.sign ^^ y.sign⟩

def arF32Fma (a b c : ArF32) : ArF32 :=
  arF32AddUp (arF32Product (arF32Unpack a) (arF32Unpack b)) (arF32Unpack c)

def s32Max : ℕ := 0x7fffffff

/-- A magnitude with its sign, saturated at the bounds of the type. -/
def saturateS32 (sign : Bool) (mag : ℕ) : Int32 :=
  if s32Max < mag then if sign then Int32.minValue else Int32.maxValue
  else if sign then -Int32.ofNat mag else Int32.ofNat mag

def arF32ToS32Trunc (a : ArF32) : Int32 :=
  let x := arF32Unpack a
  if x.sig = 0 then 0
  else if 0 ≤ x.exp then
    if 40 < x.exp then if x.sign then Int32.minValue else Int32.maxValue
    else saturateS32 x.sign ((x.sig <<< x.exp.toNat) % 2 ^ 64)
  else if 63 < -x.exp then 0
  else saturateS32 x.sign (x.sig >>> (-x.exp).toNat)

/-! ### Unpacking -/

open Binary32 Rounding

/-- The number an unpacked value stands for. -/
def ArF32Up.value (v : ArF32Up) : ℚ := signOf (v.sign = true) * (v.sig * 2 ^ v.exp)

theorem low23 (word : ℕ) : word &&& 0x7fffff = word % 2 ^ 23 :=
  Nat.and_two_pow_sub_one_eq_mod word 23

theorem arF32Unpack_eq (a : ArF32) :
    arF32Unpack a = ⟨significand a, exponent a, decide (IsNegative a)⟩ := by
  have mant : (a &&& 0x7fffff).toNat = fraction a := by
    rw [UInt32.toNat_and]
    exact low23 a.toNat
  have field : ((a >>> 23) &&& 0xff).toNat = biased a := by
    rw [UInt32.toNat_and, UInt32.toNat_shiftRight]
    change a.toNat >>> 23 &&& 0xff = _
    rw [Nat.shiftRight_eq_div_pow]
    exact Nat.and_two_pow_sub_one_eq_mod _ 8
  have sign : ((a >>> 31) &&& 1 ≠ 0) ↔ IsNegative a := by
    have bit : ((a >>> 31) &&& 1).toNat = a.toNat / 2 ^ 31 % 2 := by
      rw [UInt32.toNat_and, UInt32.toNat_shiftRight]
      change a.toNat >>> 31 &&& 1 = _
      rw [Nat.shiftRight_eq_div_pow, Nat.and_one_is_mod]
    have small : a.toNat < 2 ^ 32 := a.toNat_lt
    rw [← UInt32.toNat_inj.ne, bit]
    change a.toNat / 2 ^ 31 % 2 ≠ 0 ↔ 2 ^ 31 ≤ a.toNat
    omega
  have leading : fraction a ||| 0x800000 = 2 ^ 23 + fraction a := by
    have small : fraction a < 2 ^ 23 := Nat.mod_lt _ (by decide)
    exact (Nat.or_two_pow_eq_add_of_lt small).trans (Nat.add_comm _ _)
  simp only [arF32Unpack, mant, field, sign, leading, significand, exponent, arF32Bias]
  split
  · rfl
  · congr 1
    omega

theorem arF32Unpack_value (a : ArF32) : (arF32Unpack a).value = Binary32.value a := by
  rw [arF32Unpack_eq]
  simp only [ArF32Up.value, Binary32.value, decide_eq_true_eq, mul_assoc]

/-! ### Packing -/

theorem packFields_eq (sign : Bool) {sig : ℕ} {exp : ℤ} (eLow : 1 ≤ exp + 150)
    (eHigh : exp + 150 ≤ 254) (sigLow : 2 ^ 23 ≤ sig) (sigHigh : sig < 2 ^ 24) :
    packFields sign sig exp = normalPattern (sign = true) (exp + 150).toNat sig := by
  have field : (UInt32.ofInt (exp + arF32Bias + 23)).toNat = (exp + 150).toNat := by
    have same : exp + arF32Bias + 23 = exp + 150 := by
      unfold arF32Bias
      omega
    rw [same, UInt32.ofInt, UInt32.toNat_ofNat']
    omega
  have low : (UInt32.ofNat (sig &&& 0x7fffff)).toNat = sig - 2 ^ 23 := by
    rw [low23, UInt32.toNat_ofNat']
    omega
  have packed : ((UInt32.ofInt (exp + arF32Bias + 23) <<< 23) |||
      UInt32.ofNat (sig &&& 0x7fffff)).toNat = (exp + 150).toNat * 2 ^ 23 + (sig - 2 ^ 23) := by
    rw [UInt32.toNat_or, UInt32.toNat_shiftLeft, field, low]
    change (exp + 150).toNat <<< 23 % 2 ^ 32 ||| _ = _
    rw [Nat.shiftLeft_eq, Nat.mod_eq_of_lt (by omega), Nat.mul_comm]
    exact (Nat.two_pow_add_eq_or_of_lt (by omega) _).symm
  apply UInt32.toNat_inj.mp
  rw [normalPattern_toNat _ (by omega) sigHigh]
  unfold packFields
  cases sign with
  | false =>
      simp only [Bool.false_eq_true, if_false]
      rw [packed]
      omega
  | true =>
      simp only [if_true]
      rw [UInt32.toNat_or, packed]
      have below : (exp + 150).toNat * 2 ^ 23 + (sig - 2 ^ 23) < 2 ^ 31 := by omega
      have top := Nat.or_two_pow_eq_add_of_lt below
      change (exp + 150).toNat * 2 ^ 23 + (sig - 2 ^ 23) ||| 2 ^ 31 = _
      rw [top]
      omega

/-! ### Rounding -/

theorem fls64_bounds {word : ℕ} (nonzero : word ≠ 0) :
    0 < fls64 word ∧ 2 ^ (fls64 word - 1) ≤ word ∧ word < 2 ^ fls64 word := by
  unfold fls64
  rw [if_neg nonzero]
  exact ⟨Nat.succ_pos _, Nat.log2_self_le nonzero, Nat.lt_log2_self⟩

theorem fls64_le {word bits : ℕ} (small : word < 2 ^ bits) : fls64 word ≤ bits := by
  unfold fls64
  split
  · exact Nat.zero_le bits
  · next nonzero => exact (Nat.log2_lt nonzero).mpr small

section RoundPack

variable {sign sticky : Bool} {sig : ℕ} {exp : ℤ} {tail : ℚ}

/-- The bits that are shifted out, and what stood below them, round the bits that are kept. -/
theorem roundKept_nearest (sig s : ℕ) (tailNonneg : 0 ≤ tail) (tailSmall : tail < 1)
    (lost : sticky = true ↔ tail ≠ 0) :
    NearestEven ((sig + tail) / 2 ^ (s + 1))
      (roundKept (sig / 2 ^ (s + 1)) (sig % 2 ^ (s + 1)) (2 ^ s) sticky) := by
  have parts : sig = 2 ^ (s + 1) * (sig / 2 ^ (s + 1)) + sig % 2 ^ (s + 1) :=
    (Nat.div_add_mod sig (2 ^ (s + 1))).symm
  have nearest := nearestEven_of_shift parts (Nat.mod_lt _ (Nat.two_pow_pos _)) tailNonneg
    tailSmall
  simpa only [roundKept, lost, Nat.and_one_is_mod, Nat.mod_two_ne_zero] using nearest

theorem roundShifted_eq {s : ℕ} (low : 2 ^ (23 + (s + 1)) ≤ sig) (high : sig < 2 ^ (24 + (s + 1))) :
    roundShifted sig exp (s + 1) sticky =
      let n := roundKept (sig / 2 ^ (s + 1)) (sig % 2 ^ (s + 1)) (2 ^ s) sticky
      if n = 2 ^ 24 then (2 ^ 23, exp + ↑(s + 1) + 1) else (n, exp + ↑(s + 1)) := by
  have rem : sig &&& (1 <<< (s + 1) - 1) = sig % 2 ^ (s + 1) := by
    rw [Nat.one_shiftLeft]
    exact Nat.and_two_pow_sub_one_eq_mod sig (s + 1)
  have keptLow : 2 ^ 23 ≤ sig / 2 ^ (s + 1) := by
    rw [Nat.le_div_iff_mul_le (Nat.two_pow_pos _), ← Nat.pow_add]
    exact low
  have keptHigh : sig / 2 ^ (s + 1) < 2 ^ 24 := by
    rw [Nat.div_lt_iff_lt_mul (Nat.two_pow_pos _), ← Nat.pow_add]
    exact high
  have rounded : 2 ^ 23 ≤ roundKept (sig / 2 ^ (s + 1)) (sig % 2 ^ (s + 1)) (2 ^ s) sticky ∧
      roundKept (sig / 2 ^ (s + 1)) (sig % 2 ^ (s + 1)) (2 ^ s) sticky ≤ 2 ^ 24 := by
    unfold roundKept
    split <;> omega
  simp only [roundShifted, rem, Nat.add_sub_cancel, Nat.shiftRight_eq_div_pow sig,
    Nat.one_shiftLeft s]
  generalize roundKept (sig / 2 ^ (s + 1)) (sig % 2 ^ (s + 1)) (2 ^ s) sticky = n at rounded ⊢
  have carry : n >>> arF32MantBits ≠ 0 ↔ n = 2 ^ 24 := by
    rw [Nat.shiftRight_eq_div_pow]
    change n / 2 ^ 24 ≠ 0 ↔ n = 2 ^ 24
    omega
  simp only [carry]
  split
  · next whole => rw [whole]; rfl
  · rfl

/-- A significand in 24 bits, or the carry out of them, is packed with its weight. -/
theorem packFields_packUnits {x : ℚ} {n : ℕ} {E : ℤ} (nearest : NearestEven x n)
    (low : 2 ^ 23 ≤ x) (high : x < 2 ^ 24)
    (range : InRange (signOf (sign = true) * (x * 2 ^ E))) :
    (if n = 2 ^ 24 then packFields sign (2 ^ 23) (E + 1) else packFields sign n E) =
      packUnits (sign = true) n E := by
  unfold packUnits
  rcases range.packable _ nearest low high with
    ⟨carry, eLow, eHigh⟩ | ⟨nLow, nHigh, eLow, eHigh⟩
  · rw [if_pos carry, if_pos carry, packFields_eq sign (by omega) (by omega) (by omega) (by omega)]
    have weight : E + 1 + 150 = E + 151 := by omega
    rw [weight]
  · rw [if_neg (by omega), if_neg (by omega)]
    exact packFields_eq sign (by omega) (by omega) nLow nHigh

/-- A significand of more than 24 bits loses the bits below them. -/
theorem roundPack_wide {s : ℕ} (bits : fls64 sig = 24 + (s + 1)) (tailNonneg : 0 ≤ tail)
    (tailSmall : tail < 1) (lost : sticky = true ↔ tail ≠ 0)
    (range : InRange (signOf (sign = true) * ((sig + tail) * 2 ^ exp))) :
    RoundsTo (signOf (sign = true) * ((sig + tail) * 2 ^ exp))
      (arF32RoundPack sign sig exp sticky) := by
  have nonzero : sig ≠ 0 := by
    rintro rfl
    simp [fls64] at bits
  rcases fls64_bounds nonzero with ⟨_, sigLow, sigHigh⟩
  have top : 24 + (s + 1) - 1 = 23 + (s + 1) := by omega
  rw [bits, top] at sigLow
  rw [bits] at sigHigh
  have wide : arF32MantBits < fls64 sig := by
    rw [bits]
    unfold arF32MantBits
    omega
  have shift : fls64 sig - arF32MantBits = s + 1 := by
    rw [bits]
    exact Nat.add_sub_cancel_left 24 (s + 1)
  have unit : (0 : ℚ) < 2 ^ (s + 1) := by positivity
  have units : ((sig : ℚ) + tail) * 2 ^ exp =
      (sig + tail) / 2 ^ (s + 1) * 2 ^ (exp + ↑(s + 1)) := by
    rw [zpow_add₀ two_ne_zero, zpow_natCast]
    field_simp
  have low : (2 : ℚ) ^ 23 ≤ (sig + tail) / 2 ^ (s + 1) := by
    rw [le_div_iff₀ unit, ← pow_add]
    have cast : (2 : ℚ) ^ (23 + (s + 1)) ≤ sig := by exact_mod_cast sigLow
    linarith
  have high : ((sig : ℚ) + tail) / 2 ^ (s + 1) < 2 ^ 24 := by
    rw [div_lt_iff₀ unit, ← pow_add]
    have cast : (sig : ℚ) + 1 ≤ 2 ^ (24 + (s + 1)) := by exact_mod_cast sigHigh
    linarith
  have nearest := roundKept_nearest sig s tailNonneg tailSmall lost
  rw [units] at range ⊢
  have rounded := roundsTo_packUnits _ nearest low high range
  rw [← packFields_packUnits nearest low high range] at rounded
  unfold arF32RoundPack
  rw [if_neg nonzero, if_pos wide, shift, roundShifted_eq sigLow sigHigh]
  split at rounded
  · next carry =>
      simp only [if_pos carry]
      exact rounded
  · next within =>
      simp only [if_neg within]
      exact rounded

/-- A significand within 24 bits is moved up to them. -/
theorem roundPack_narrow {s : ℕ} (nonzero : sig ≠ 0) (bits : fls64 sig + s = 24)
    (range : InRange (signOf (sign = true) * (sig * 2 ^ exp))) :
    RoundsTo (signOf (sign = true) * (sig * 2 ^ exp)) (arF32RoundPack sign sig exp sticky) := by
  rcases fls64_bounds nonzero with ⟨_, sigLow, sigHigh⟩
  have narrow : ¬arF32MantBits < fls64 sig := by
    unfold arF32MantBits
    omega
  have shift : arF32MantBits - fls64 sig = s := by
    unfold arF32MantBits
    omega
  have nLow : 2 ^ 23 ≤ sig * 2 ^ s := by
    calc
      2 ^ 23 = 2 ^ (fls64 sig - 1) * 2 ^ s := by
        rw [← Nat.pow_add]
        congr 1
        omega
      _ ≤ sig * 2 ^ s := Nat.mul_le_mul_right _ sigLow
  have nHigh : sig * 2 ^ s < 2 ^ 24 := by
    calc
      sig * 2 ^ s < 2 ^ fls64 sig * 2 ^ s := Nat.mul_lt_mul_of_pos_right sigHigh (Nat.two_pow_pos s)
      _ = 2 ^ 24 := by rw [← Nat.pow_add, bits]
  have units : (sig : ℚ) * 2 ^ exp = (sig * 2 ^ s : ℕ) * 2 ^ (exp - s) := by
    rw [zpow_sub₀ two_ne_zero, zpow_natCast]
    push_cast
    field_simp
  have low : (2 : ℚ) ^ 23 ≤ (sig * 2 ^ s : ℕ) := by exact_mod_cast nLow
  have high : ((sig * 2 ^ s : ℕ) : ℚ) < 2 ^ 24 := by exact_mod_cast nHigh
  have nearest : NearestEven ((sig * 2 ^ s : ℕ) : ℚ) (sig * 2 ^ s : ℕ) :=
    nearestEven_self (sig * 2 ^ s : ℕ)
  rw [units] at range ⊢
  have rounded := roundsTo_packUnits _ nearest low high range
  rw [← packFields_packUnits nearest low high range, if_neg (by omega)] at rounded
  have moved : sig <<< s % 2 ^ 64 = sig * 2 ^ s := by
    rw [Nat.shiftLeft_eq]
    exact Nat.mod_eq_of_lt (by omega)
  unfold arF32RoundPack
  simp only [if_neg nonzero, if_neg narrow, shift, moved]
  exact rounded

/-- What is rounded and packed is the significand with whatever stood below it, which must have
been noted and must be below the bits that are kept. -/
theorem roundPack_roundsTo (nonzero : sig ≠ 0) (tailNonneg : 0 ≤ tail) (tailSmall : tail < 1)
    (lost : sticky = true ↔ tail ≠ 0) (kept : sticky = true → 2 ^ 24 ≤ sig)
    (range : InRange (signOf (sign = true) * ((sig + tail) * 2 ^ exp))) :
    RoundsTo (signOf (sign = true) * ((sig + tail) * 2 ^ exp))
      (arF32RoundPack sign sig exp sticky) := by
  rcases Nat.lt_or_ge 24 (fls64 sig) with wide | narrow
  · rcases Nat.exists_eq_add_of_lt wide with ⟨s, bits⟩
    exact roundPack_wide bits tailNonneg tailSmall lost range
  · have exact : tail = 0 := by
      by_contra inexact
      have small := (fls64_bounds nonzero).2.2
      have order := Nat.pow_le_pow_right Nat.zero_lt_two narrow
      exact absurd (kept (lost.mpr inexact)) (by omega)
    subst exact
    rw [add_zero] at range ⊢
    exact roundPack_narrow nonzero (Nat.add_sub_of_le narrow) range

end RoundPack

end MlKernel.Isp
