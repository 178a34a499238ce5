import MlKernel.Lib.DivRound
import Mathlib.Logic.Function.Basic
import Mathlib.Algebra.Ring.Nat

/-!
# The PWM controller

Each channel counts the cycles of its low and of its high phase.  The request is in nanoseconds and
so is the state that is read back; every conversion rounds to the nearest.  The counts survive a
read and an application exactly when their sum fits in a word, and are the nearest ones exactly
when they fit in a word themselves.
-/

namespace MlKernel.Pwm

open DivRound

/-! ### The registers -/

def arPwmNpwm : ℕ := 8

def arPwmChStride : ℕ := 0x14
def arPwmOff (n : Fin arPwmNpwm) : ℕ := n * arPwmChStride
def arPwmCtrl (n : Fin arPwmNpwm) : ℕ := n * arPwmChStride + 0x08
def arPwmDuty (n : Fin arPwmNpwm) : ℕ := 0xb0 + n * 0x04
def arPwmCtrlEn : UInt32 := 0xb

theorem arPwmOff_ne_arPwmDuty (n m : Fin arPwmNpwm) : arPwmOff n ≠ arPwmDuty m := by
  have inside : (n : ℕ) < 8 := n.isLt
  unfold arPwmOff arPwmDuty arPwmChStride
  omega

theorem arPwmOff_ne_arPwmCtrl (n m : Fin arPwmNpwm) : arPwmOff n ≠ arPwmCtrl m := by
  unfold arPwmOff arPwmCtrl arPwmChStride
  omega

theorem arPwmDuty_ne_arPwmCtrl (n m : Fin arPwmNpwm) : arPwmDuty n ≠ arPwmCtrl m := by
  have inside : (m : ℕ) < 8 := m.isLt
  unfold arPwmDuty arPwmCtrl arPwmChStride
  omega

/-! ### The driver -/

inductive PwmPolarity
  | normal
  | inversed
  deriving DecidableEq

structure PwmState where
  period : UInt64
  dutyCycle : UInt64
  polarity : PwmPolarity
  enabled : Bool
  deriving DecidableEq

def nsecPerSec : UInt64 := 1000000000

/-- The division takes a divisor of 32 bits. -/
def divRoundClosestUll (x divisor : UInt64) : UInt64 :=
  (x + divisor / 2) / divisor.toUInt32.toUInt64

def arPwmNsToCycles (rate ns : UInt64) : UInt32 :=
  (divRoundClosestUll (ns * rate) nsecPerSec).toUInt32

/-- The result, and the registers afterwards. -/
def arPwmApply (rate : UInt64) (n : Fin arPwmNpwm) (state : PwmState) (regs : ℕ → UInt32) :
    ℤ × (ℕ → UInt32) :=
  let duty := min state.dutyCycle state.period
  let regs := Function.update regs (arPwmOff n) (arPwmNsToCycles rate (state.period - duty))
  let regs := Function.update regs (arPwmDuty n) (arPwmNsToCycles rate duty)
  let ctrl := regs (arPwmCtrl n)
  let ctrl := if state.enabled then ctrl ||| arPwmCtrlEn else ctrl &&& ~~~arPwmCtrlEn
  (0, Function.update regs (arPwmCtrl n) ctrl)

def einval : ℤ := 22

def arPwmGetState (rate : UInt64) (n : Fin arPwmNpwm) (regs : ℕ → UInt32) : Except ℤ PwmState :=
  if rate = 0 then .error (-einval)
  else
    let off := regs (arPwmOff n)
    let on := regs (arPwmDuty n)
    .ok {
      period := divRoundClosestUll ((off + on).toUInt64 * nsecPerSec) rate
      dutyCycle := divRoundClosestUll (on.toUInt64 * nsecPerSec) rate
      polarity := .normal
      enabled := regs (arPwmCtrl n) &&& arPwmCtrlEn ≠ 0 }

/-! ### The conversions -/

theorem divRoundClosestUll_toNat {x divisor : UInt64} (small : divisor.toNat < 2 ^ 32)
    (room : x.toNat + divisor.toNat / 2 < 2 ^ 64) :
    (divRoundClosestUll x divisor).toNat = closest x.toNat divisor.toNat := by
  have half : (divisor / 2).toNat = divisor.toNat / 2 := UInt64.toNat_div divisor 2
  have kept : divisor.toUInt32.toUInt64.toNat = divisor.toNat := by
    rw [UInt32.toNat_toUInt64, UInt64.toNat_toUInt32, Nat.mod_eq_of_lt small]
  rw [divRoundClosestUll, UInt64.toNat_div, UInt64.toNat_add, half, kept, Nat.mod_eq_of_lt room,
    closest]

/-- A count that fits in its register. -/
def CountFits (rate ns : ℕ) : Prop := ns * rate + 500000000 < 2 ^ 32 * 1000000000

section Cycles

variable {rate ns : UInt64}

theorem arPwmNsToCycles_toNat (rate ns : UInt64) :
    (arPwmNsToCycles rate ns).toNat =
      (ns.toNat * rate.toNat % 2 ^ 64 + 500000000) % 2 ^ 64 / 1000000000 % 2 ^ 32 := by
  rw [arPwmNsToCycles, UInt64.toNat_toUInt32, divRoundClosestUll, UInt64.toNat_div,
    UInt64.toNat_add, UInt64.toNat_mul]
  rfl

theorem arPwmNsToCycles_closest (fits : CountFits rate.toNat ns.toNat) :
    (arPwmNsToCycles rate ns).toNat = closest (ns.toNat * rate.toNat) 1000000000 := by
  unfold CountFits at fits
  have count : closest (ns.toNat * rate.toNat) 1000000000 < 2 ^ 32 :=
    (closest_lt_iff (by decide)).mpr fits
  have small : ns.toNat * rate.toNat < 2 ^ 64 := by omega
  have room : ns.toNat * rate.toNat + 500000000 < 2 ^ 64 := by omega
  rw [arPwmNsToCycles_toNat, Nat.mod_eq_of_lt small, Nat.mod_eq_of_lt room]
  exact Nat.mod_eq_of_lt count

/-- The count that is programmed is the nearest one exactly when it fits. -/
theorem arPwmNsToCycles_nearest_iff :
    Nearest (ns.toNat * rate.toNat) 1000000000 (arPwmNsToCycles rate ns).toNat ↔
      CountFits rate.toNat ns.toNat := by
  constructor
  · intro nearest
    by_contra large
    unfold CountFits at large
    have below := nearest.below (by decide)
    have word : (arPwmNsToCycles rate ns).toNat < 2 ^ 32 := UInt32.toNat_lt _
    -- the only candidate is the tie above the greatest count, and it is rounded up
    have tie : ns.toNat * rate.toNat = 2 ^ 32 * 1000000000 - 500000000 := by omega
    have wrapped := arPwmNsToCycles_toNat rate ns
    rw [tie] at wrapped
    omega
  · intro fits
    rw [arPwmNsToCycles_closest fits]
    exact closest_nearest (by decide)

end Cycles

/-! ### Application -/

section Apply

variable (rate : UInt64) (n : Fin arPwmNpwm) (state : PwmState) (regs : ℕ → UInt32)

theorem arPwmApply_off :
    (arPwmApply rate n state regs).2 (arPwmOff n) =
      arPwmNsToCycles rate (state.period - min state.dutyCycle state.period) := by
  simp [arPwmApply, Function.update_apply, arPwmOff_ne_arPwmDuty, arPwmOff_ne_arPwmCtrl]

theorem arPwmApply_duty :
    (arPwmApply rate n state regs).2 (arPwmDuty n) =
      arPwmNsToCycles rate (min state.dutyCycle state.period) := by
  simp [arPwmApply, Function.update_apply, arPwmDuty_ne_arPwmCtrl]

/-- Only the three registers of the channel are written. -/
theorem arPwmApply_frame {addr : ℕ} (off : addr ≠ arPwmOff n) (duty : addr ≠ arPwmDuty n)
    (ctrl : addr ≠ arPwmCtrl n) : (arPwmApply rate n state regs).2 addr = regs addr := by
  simp [arPwmApply, Function.update_apply, off, duty, ctrl]

end Apply

theorem min_toNat (a b : UInt64) : (min a b).toNat = min a.toNat b.toNat := by
  have unfolded : min a b = if a ≤ b then a else b := rfl
  rw [unfolded]
  split
  · next order => exact (Nat.min_eq_left (UInt64.le_iff_toNat_le.mp order)).symm
  · next order =>
      rw [UInt64.le_iff_toNat_le, Nat.not_le] at order
      exact (Nat.min_eq_right (Nat.le_of_lt order)).symm

/-- The length of the low phase, whatever duty is requested. -/
theorem low_toNat (state : PwmState) :
    (state.period - min state.dutyCycle state.period).toNat =
      state.period.toNat - state.dutyCycle.toNat := by
  have duty := min_toNat state.dutyCycle state.period
  rw [UInt64.toNat_sub_of_le, duty]
  · omega
  · rw [UInt64.le_iff_toNat_le, duty]
    exact Nat.min_le_right _ _

/-- The counts nearest to the two phases are programmed, or the channel is left alone. -/
def ProgramsNearest (rate : UInt64) (n : Fin arPwmNpwm) (state : PwmState) (regs : ℕ → UInt32) :
    Prop :=
  let applied := arPwmApply rate n state regs
  applied.1 = 0 ∧
      Nearest ((state.period.toNat - state.dutyCycle.toNat) * rate.toNat) 1000000000
        (applied.2 (arPwmOff n)).toNat ∧
      Nearest (min state.dutyCycle.toNat state.period.toNat * rate.toNat) 1000000000
        (applied.2 (arPwmDuty n)).toNat ∨
    applied.1 ≠ 0 ∧ applied.2 = regs

theorem programsNearest_iff (rate : UInt64) (n : Fin arPwmNpwm) (state : PwmState)
    (regs : ℕ → UInt32) :
    ProgramsNearest rate n state regs ↔
      CountFits rate.toNat (state.period.toNat - state.dutyCycle.toNat) ∧
        CountFits rate.toNat (min state.dutyCycle.toNat state.period.toNat) := by
  have low := @arPwmNsToCycles_nearest_iff rate
    (state.period - min state.dutyCycle state.period)
  have high := @arPwmNsToCycles_nearest_iff rate (min state.dutyCycle state.period)
  rw [low_toNat, ← arPwmApply_off rate n state regs] at low
  rw [min_toNat, ← arPwmApply_duty rate n state regs] at high
  constructor
  · rintro (⟨-, off, duty⟩ | ⟨failed, -⟩)
    · exact ⟨low.mp off, high.mp duty⟩
    · exact absurd rfl failed
  · rintro ⟨off, duty⟩
    exact .inl ⟨rfl, low.mpr off, high.mpr duty⟩

/-! ### Reading back -/

/-- What is read back and applied leaves the counts as they were. -/
def RoundTrips (rate : UInt64) (n : Fin arPwmNpwm) (regs : ℕ → UInt32) : Prop :=
  ∃ state, arPwmGetState rate n regs = .ok state ∧
    (arPwmApply rate n state regs).2 (arPwmOff n) = regs (arPwmOff n) ∧
    (arPwmApply rate n state regs).2 (arPwmDuty n) = regs (arPwmDuty n)

section ReadBack

variable {rate : UInt64} {n : Fin arPwmNpwm} {regs : ℕ → UInt32}

/-- A count in nanoseconds. -/
theorem cycles_toNat (positive : 1 ≤ rate.toNat) (slow : rate.toNat ≤ 500000000) (count : UInt32) :
    (divRoundClosestUll (count.toUInt64 * nsecPerSec) rate).toNat =
      closest (count.toNat * 1000000000) rate.toNat := by
  have word : count.toNat < 2 ^ 32 := count.toNat_lt
  have product : (count.toUInt64 * nsecPerSec).toNat = count.toNat * 1000000000 := by
    rw [UInt64.toNat_mul, UInt32.toNat_toUInt64]
    exact Nat.mod_eq_of_lt (by change count.toNat * 1000000000 < _; omega)
  rw [divRoundClosestUll_toNat (by omega) (by omega), product]

theorem countFits_closest (slow : rate.toNat ≤ 500000000) {count ns : ℕ} (word : count < 2 ^ 32)
    (short : ns ≤ closest (count * 1000000000) rate.toNat) : CountFits rate.toNat ns := by
  have product : ns * rate.toNat ≤ closest (count * 1000000000) rate.toNat * rate.toNat :=
    Nat.mul_le_mul_right _ short
  have bound := closest_mul_le (count * 1000000000) rate.toNat
  unfold CountFits
  omega

theorem arPwmGetState_ok (positive : 1 ≤ rate.toNat) (slow : rate.toNat ≤ 500000000) :
    ∃ state, arPwmGetState rate n regs = .ok state ∧
      state.period.toNat =
        closest ((regs (arPwmOff n) + regs (arPwmDuty n)).toNat * 1000000000) rate.toNat ∧
      state.dutyCycle.toNat = closest ((regs (arPwmDuty n)).toNat * 1000000000) rate.toNat := by
  have running : rate ≠ 0 := by
    rintro rfl
    exact absurd positive (by decide)
  exact ⟨_, if_neg running, cycles_toNat positive slow _, cycles_toNat positive slow _⟩

/-- The roundings of the period, of the duty and of their difference cancel. -/
theorem apply_readBack (positive : 1 ≤ rate.toNat) (slow : rate.toNat ≤ 500000000)
    (state : PwmState) {off on : ℕ} (word : off + on < 2 ^ 32)
    (period : state.period.toNat = closest ((off + on) * 1000000000) rate.toNat)
    (duty : state.dutyCycle.toNat = closest (on * 1000000000) rate.toNat) :
    ((arPwmApply rate n state regs).2 (arPwmOff n)).toNat = off ∧
      ((arPwmApply rate n state regs).2 (arPwmDuty n)).toNat = on := by
  have order : state.dutyCycle.toNat ≤ state.period.toNat := by
    rw [period, duty]
    exact closest_mono _ (Nat.mul_le_mul_right _ (Nat.le_add_left on off))
  constructor
  · rw [arPwmApply_off, arPwmNsToCycles_closest, low_toNat, period, duty]
    · exact closest_sub_closest positive (by omega) off on
    · rw [low_toNat, period]
      exact countFits_closest slow word (Nat.sub_le _ _)
  · rw [arPwmApply_duty, arPwmNsToCycles_closest, min_toNat, Nat.min_eq_left order, duty]
    · exact closest_closest positive (by omega) on
    · rw [min_toNat, Nat.min_eq_left order, duty]
      exact countFits_closest slow (by omega) (Nat.le_refl _)

/-- A sum that wraps is read back as a period below the high phase, which is cut down to it. -/
theorem apply_wrapped (positive : 1 ≤ rate.toNat) (slow : rate.toNat ≤ 500000000)
    (state : PwmState) {total on : ℕ} (word : on < 2 ^ 32) (wrapped : total < on)
    (period : state.period.toNat = closest (total * 1000000000) rate.toNat)
    (duty : state.dutyCycle.toNat = closest (on * 1000000000) rate.toNat) :
    ((arPwmApply rate n state regs).2 (arPwmDuty n)).toNat = total := by
  have order : state.period.toNat ≤ state.dutyCycle.toNat := by
    rw [period, duty]
    exact closest_mono _ (Nat.mul_le_mul_right _ (Nat.le_of_lt wrapped))
  rw [arPwmApply_duty, arPwmNsToCycles_closest, min_toNat, Nat.min_eq_right order, period]
  · exact closest_closest positive (by omega) total
  · rw [min_toNat, Nat.min_eq_right order, period]
    exact countFits_closest slow (by omega) (Nat.le_refl _)

theorem roundTrips_iff (positive : 1 ≤ rate.toNat) (slow : rate.toNat ≤ 500000000) :
    RoundTrips rate n regs ↔
      (regs (arPwmOff n)).toNat + (regs (arPwmDuty n)).toNat < 2 ^ 32 := by
  have offWord : (regs (arPwmOff n)).toNat < 2 ^ 32 := UInt32.toNat_lt _
  have onWord : (regs (arPwmDuty n)).toNat < 2 ^ 32 := UInt32.toNat_lt _
  rcases @arPwmGetState_ok rate n regs positive slow with ⟨state, ok, period, duty⟩
  rw [UInt32.toNat_add] at period
  constructor
  · rintro ⟨other, same, -, kept⟩
    rw [ok] at same
    cases same
    by_contra large
    have total : ((regs (arPwmOff n)).toNat + (regs (arPwmDuty n)).toNat) % 2 ^ 32 <
        (regs (arPwmDuty n)).toNat := by omega
    have cut := @apply_wrapped rate n regs positive slow state _ _ onWord total period duty
    rw [kept] at cut
    omega
  · intro fits
    rw [Nat.mod_eq_of_lt fits] at period
    rcases @apply_readBack rate n regs positive slow state _ _ fits period duty with ⟨off, on⟩
    exact ⟨state, ok, UInt32.toNat_inj.mp off, UInt32.toNat_inj.mp on⟩

end ReadBack

/-- The counts survive exactly when their sum is a word, and are the nearest ones exactly when
both fit in a word; no register of another channel is written. -/
theorem artosynPwm_counts {rate : UInt64} (positive : 1 ≤ rate.toNat)
    (slow : rate.toNat ≤ 500000000) (n : Fin arPwmNpwm) (regs : ℕ → UInt32) (state : PwmState) :
    (RoundTrips rate n regs ↔
      (regs (arPwmOff n)).toNat + (regs (arPwmDuty n)).toNat < 2 ^ 32) ∧
    (ProgramsNearest rate n state regs ↔
      CountFits rate.toNat (state.period.toNat - state.dutyCycle.toNat) ∧
        CountFits rate.toNat (min state.dutyCycle.toNat state.period.toNat)) ∧
    ∀ addr, addr ≠ arPwmOff n → addr ≠ arPwmDuty n → addr ≠ arPwmCtrl n →
      (arPwmApply rate n state regs).2 addr = regs addr :=
  ⟨roundTrips_iff positive slow, programsNearest_iff rate n state regs,
    fun _ off duty ctrl => arPwmApply_frame rate n state regs off duty ctrl⟩

/-- The channel of the backlight. -/
def backlight : Fin arPwmNpwm := ⟨1, by decide⟩

/-- A backlight at a quarter of a period of 1 ms. -/
def quarterBacklight : PwmState where
  period := 1000000
  dutyCycle := 250000
  polarity := .normal
  enabled := true

theorem artosynPwm_counts_backlight :
    RoundTrips 150000000 backlight (fun _ => 75000) ∧
      ProgramsNearest 150000000 backlight quarterBacklight (fun _ => 75000) := by
  have counts := @artosynPwm_counts 150000000 (by decide) (by decide) backlight
    (fun _ => 75000) quarterBacklight
  unfold CountFits at counts
  exact ⟨counts.1.mpr (by decide), counts.2.1.mpr (by decide)⟩

/-- A low phase of 30 s. -/
def halfMinuteLow : PwmState where
  period := 30000000000
  dutyCycle := 0
  polarity := .normal
  enabled := true

/-- A low phase of 2 ^ 32 - 1 cycles and a high phase of one cycle. -/
def fullLow (addr : ℕ) : UInt32 := if addr = arPwmOff backlight then 0xffffffff else 1

/-- At 150 MHz, 30 s are 4500000000 cycles, and 205032704 are programmed. -/
theorem artosynPwm_counts_wrap :
    ¬RoundTrips 150000000 backlight fullLow ∧
      ¬ProgramsNearest 150000000 backlight halfMinuteLow (fun _ => 0) ∧
      (arPwmApply 150000000 backlight halfMinuteLow fun _ => 0).2 (arPwmOff backlight) =
        205032704 := by
  refine ⟨?_, ?_, ?_⟩
  · rw [roundTrips_iff (by decide) (by decide)]
    decide
  · rw [programsNearest_iff]
    rintro ⟨low, -⟩
    revert low
    unfold CountFits
    decide
  · rw [arPwmApply_off]
    decide

end MlKernel.Pwm
