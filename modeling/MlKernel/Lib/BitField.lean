import Mathlib.Tactic.Common
import Mathlib.Algebra.Ring.Nat

/-!
# Bit fields of a register word

A register packs fields side by side: `word.extractLsb' lo width` is the field of `width` bits
from bit `lo` on.  Writing a register with masks and shifts is read field by field: what a mask
keeps, what it clears, and where a shifted value lands.
-/

namespace BitField

variable {w : ℕ}

/-- The word with only bit `n` set. -/
def bit (w n : ℕ) : BitVec w := 1#w <<< n

theorem getLsbD_bit (n i : ℕ) : (bit w n).getLsbD i = (decide (n < w) && decide (n = i)) := by
  rw [bit, ← BitVec.twoPow_eq, BitVec.getLsbD_twoPow]

/-- Testing a word against a single bit. -/
theorem and_bit_eq_zero {word : BitVec w} {n : ℕ} (inside : n < w) :
    word &&& bit w n = 0 ↔ word.getLsbD n = false := by
  constructor
  · intro clear
    have here := congrArg (·.getLsbD n) clear
    simpa only [BitVec.getLsbD_and, getLsbD_bit, inside, decide_true, Bool.and_self,
      Bool.and_true, BitVec.ofNat_eq_ofNat, BitVec.getLsbD_zero] using here
  · intro clear
    apply BitVec.eq_of_getLsbD_eq
    intro i _
    simp only [BitVec.getLsbD_and, getLsbD_bit]
    by_cases here : n = i
    · subst here
      simp [clear]
    · simp [here]

/-- Clearing a bit. -/
theorem getLsbD_and_not_bit (word : BitVec w) (n i : ℕ) :
    (word &&& ~~~bit w n).getLsbD i = (word.getLsbD i && !decide (n = i)) := by
  rw [BitVec.getLsbD_and, BitVec.getLsbD_not, getLsbD_bit]
  by_cases inside : i < w
  · by_cases same : n = i
    · subst same
      simp [inside]
    · simp [inside, same]
  · simp [BitVec.getLsbD_of_ge word i (Nat.le_of_not_lt inside)]

theorem and_not_bit_of_clear {word : BitVec w} {n : ℕ} (clear : word.getLsbD n = false) :
    word &&& ~~~bit w n = word := by
  apply BitVec.eq_of_getLsbD_eq
  intro i _
  rw [getLsbD_and_not_bit]
  by_cases same : n = i
  · subst same
    simp [clear]
  · simp [same]

theorem getLsbD_or_bit (word : BitVec w) {n : ℕ} (inside : n < w) :
    (word ||| bit w n).getLsbD n = true := by
  rw [BitVec.getLsbD_or, getLsbD_bit]
  simp [inside]

theorem getLsbD_of_lt {word : BitVec w} {width i : ℕ} (small : word.toNat < 2 ^ width)
    (beyond : width ≤ i) : word.getLsbD i = false :=
  Nat.testBit_lt_two_pow (Nat.lt_of_lt_of_le small (Nat.pow_le_pow_right (by decide) beyond))

/-! ### Reading a field -/

/-- The mask and shift of a field read give the field. -/
theorem shift_and (word : BitVec w) (lo width : ℕ) :
    (word >>> lo) &&& BitVec.ofNat w (2 ^ width - 1) =
      (word.extractLsb' lo width).setWidth w := by
  apply BitVec.eq_of_getLsbD_eq
  intro i inside
  simp only [BitVec.getLsbD_and, BitVec.getLsbD_ushiftRight, BitVec.getLsbD_ofNat,
    Nat.testBit_two_pow_sub_one, BitVec.getLsbD_setWidth, BitVec.getLsbD_extractLsb', inside]
  simp [Bool.and_comm]

/-- A field is its bits. -/
theorem extract_congr {word other : BitVec w} {lo width : ℕ}
    (same : ∀ i < width, word.getLsbD (lo + i) = other.getLsbD (lo + i)) :
    word.extractLsb' lo width = other.extractLsb' lo width := by
  apply BitVec.eq_of_getLsbD_eq
  intro i inside
  rw [BitVec.getLsbD_extractLsb', BitVec.getLsbD_extractLsb', same i inside]

/-- A field of a field. -/
theorem extract_extract (word : BitVec w) {lo width inner size : ℕ}
    (inside : inner + size ≤ width) :
    (word.extractLsb' lo width).extractLsb' inner size = word.extractLsb' (lo + inner) size := by
  apply BitVec.eq_of_getLsbD_eq
  intro i small
  rw [BitVec.getLsbD_extractLsb', BitVec.getLsbD_extractLsb', BitVec.getLsbD_extractLsb',
    decide_eq_true (show inner + i < width by omega), Bool.true_and, Nat.add_assoc]

/-! ### Fields of what is written -/

theorem extract_and_zero {word mask : BitVec w} {lo width : ℕ}
    (cleared : mask.extractLsb' lo width = BitVec.ofNat width 0) :
    (word &&& mask).extractLsb' lo width = BitVec.ofNat width 0 := by
  rw [BitVec.extractLsb'_and, cleared, BitVec.and_zero]

/-- A field that the mask keeps. -/
theorem extract_and_mask {word mask : BitVec w} {lo width : ℕ}
    (kept : mask.extractLsb' lo width = BitVec.allOnes width) :
    (word &&& mask).extractLsb' lo width = word.extractLsb' lo width := by
  rw [BitVec.extractLsb'_and, kept, BitVec.and_allOnes]

theorem extract_zero_toNat (word : BitVec w) (width : ℕ) :
    (word.extractLsb' 0 width).toNat = word.toNat % 2 ^ width := by
  rw [BitVec.extractLsb'_toNat, Nat.shiftRight_zero]

/-- A field below where the value was shifted to. -/
theorem extract_shiftLeft_below {word : BitVec w} {lo width shift : ℕ}
    (below : lo + width ≤ shift) :
    (word <<< shift).extractLsb' lo width = BitVec.ofNat width 0 := by
  apply BitVec.eq_of_getLsbD_eq
  intro i inside
  rw [BitVec.getLsbD_extractLsb', BitVec.getLsbD_shiftLeft]
  simp [inside, show lo + i < shift by omega]

/-- The field a value was shifted into. -/
theorem extract_shiftLeft {word : BitVec w} {lo width shift : ℕ} (shifted : shift ≤ lo)
    (fits : lo + width ≤ w) :
    (word <<< shift).extractLsb' lo width = word.extractLsb' (lo - shift) width := by
  apply BitVec.eq_of_getLsbD_eq
  intro i inside
  rw [BitVec.getLsbD_extractLsb', BitVec.getLsbD_extractLsb', BitVec.getLsbD_shiftLeft]
  simp [inside, show lo + i < w by omega, show ¬lo + i < shift by omega,
    show lo + i - shift = lo - shift + i by omega]

/-- A field above a small value. -/
theorem extract_of_lt {word : BitVec w} {lo width size : ℕ} (small : word.toNat < 2 ^ size)
    (above : size ≤ lo) : word.extractLsb' lo width = BitVec.ofNat width 0 := by
  apply BitVec.eq_of_getLsbD_eq
  intro i inside
  rw [BitVec.getLsbD_extractLsb', getLsbD_of_lt small (Nat.le_add_right_of_le above)]
  simp

theorem extract_zero_setWidth {word : BitVec w} {width : ℕ} (small : word.toNat < 2 ^ width) :
    (word.extractLsb' 0 width).setWidth w = word := by
  apply BitVec.eq_of_toNat_eq
  rw [BitVec.toNat_setWidth, BitVec.extractLsb'_toNat, Nat.shiftRight_zero,
    Nat.mod_eq_of_lt small, Nat.mod_eq_of_lt word.isLt]

/-! ### Masked writes -/

/-- What a masked write leaves agrees with a word under the mask when the value written does. -/
theorem merge_agrees_iff (old value want mask : BitVec w) :
    (((old &&& ~~~mask) ||| (value &&& mask)) ^^^ want) &&& mask = 0 ↔
      value &&& mask = want &&& mask := by
  have split : (((old &&& ~~~mask) ||| (value &&& mask)) ^^^ want) &&& mask =
      (value &&& mask) ^^^ (want &&& mask) := by
    ext i
    simp only [BitVec.getElem_and, BitVec.getElem_or, BitVec.getElem_xor, BitVec.getElem_not]
    cases mask[i] <;> simp
  rw [split]
  exact BitVec.xor_eq_zero_iff

theorem overlay_idempotent (word keep put : BitVec w) :
    (((word &&& keep) ||| put) &&& keep) ||| put = (word &&& keep) ||| put := by
  ext i
  simp only [BitVec.getElem_and, BitVec.getElem_or]
  cases keep[i] <;> simp

theorem overlay_comp (word keep put keep' put' : BitVec w) :
    (((word &&& keep) ||| put) &&& keep') ||| put' =
      (word &&& (keep &&& keep')) ||| ((put &&& keep') ||| put') := by
  ext i
  simp only [BitVec.getElem_and, BitVec.getElem_or]
  cases keep[i] <;> cases keep'[i] <;> simp [Bool.or_assoc]

theorem getLsbD_ones (width i : ℕ) :
    (BitVec.ofNat w (2 ^ width - 1)).getLsbD i = (decide (i < w) && decide (i < width)) := by
  rw [BitVec.getLsbD_ofNat, Nat.testBit_two_pow_sub_one]

/-- The field above a small value. -/
theorem field_of_pack {high low : BitVec w} {lo width : ℕ} (fits : lo + width ≤ w)
    (smallHigh : high.toNat < 2 ^ width) (smallLow : low.toNat < 2 ^ lo) :
    (((high <<< lo) ||| low) >>> lo) &&& BitVec.ofNat w (2 ^ width - 1) = high := by
  apply BitVec.eq_of_getLsbD_eq
  intro i inside
  rw [BitVec.getLsbD_and, getLsbD_ones, BitVec.getLsbD_ushiftRight, BitVec.getLsbD_or,
    BitVec.getLsbD_shiftLeft, getLsbD_of_lt smallLow (Nat.le_add_right lo i)]
  by_cases low : i < width
  · simp [low, inside, show lo + i < w by omega]
  · simp [low, getLsbD_of_lt smallHigh (Nat.le_of_not_lt low)]

/-- Replacing a field changes its bits only. -/
theorem getLsbD_setField {word field : BitVec w} {lo width : ℕ} (fits : lo + width ≤ w)
    (small : field.toNat < 2 ^ width) (i : ℕ) :
    ((word &&& ~~~(BitVec.ofNat w (2 ^ width - 1) <<< lo)) ||| (field <<< lo)).getLsbD i =
      if lo ≤ i ∧ i < lo + width then field.getLsbD (i - lo) else word.getLsbD i := by
  simp only [BitVec.getLsbD_or, BitVec.getLsbD_and, BitVec.getLsbD_not, BitVec.getLsbD_shiftLeft,
    getLsbD_ones]
  split
  · next inside =>
      simp [show i < w by omega, show ¬i < lo by omega, show i - lo < w by omega,
        show i - lo < width by omega]
  · next outside =>
      by_cases below : i < lo
      · by_cases top : i < w
        · simp [below, top]
        · simp [below, top, BitVec.getLsbD_of_ge word i (Nat.le_of_not_lt top)]
      · have beyond : width ≤ i - lo := by omega
        by_cases top : i < w
        · simp [below, top, beyond, getLsbD_of_lt small beyond]
        · simp [below, top, BitVec.getLsbD_of_ge word i (Nat.le_of_not_lt top)]

/-- Replacing a field shows under a mask that covers it unless the field is what it was. -/
theorem setField_agrees_iff (word : BitVec w) {field mask : BitVec w} {lo width : ℕ}
    (fits : lo + width ≤ w) (small : field.toNat < 2 ^ width)
    (covers : ∀ i < width, mask.getLsbD (lo + i) = true) :
    ((word &&& ~~~(BitVec.ofNat w (2 ^ width - 1) <<< lo)) ||| (field <<< lo)) &&& mask =
      word &&& mask ↔ field = (word >>> lo) &&& BitVec.ofNat w (2 ^ width - 1) := by
  constructor
  · intro same
    apply BitVec.eq_of_getLsbD_eq
    intro i inside
    rw [BitVec.getLsbD_and, getLsbD_ones, BitVec.getLsbD_ushiftRight]
    by_cases low : i < width
    · have here := congrArg (·.getLsbD (lo + i)) same
      simpa [getLsbD_setField fits small, covers i low, low, inside] using here
    · simp [low, getLsbD_of_lt small (Nat.le_of_not_lt low)]
  · rintro rfl
    congr 1
    apply BitVec.eq_of_getLsbD_eq
    intro i inside
    rw [getLsbD_setField fits small]
    split
    · next within =>
        rw [BitVec.getLsbD_and, getLsbD_ones, BitVec.getLsbD_ushiftRight]
        simp [show i - lo < width by omega, show i - lo < w by omega,
          show lo + (i - lo) = i by omega]
    · rfl

end BitField
