import MlKernel.Isp.BandWalk
import MlKernel.Isp.Tone

/-!
# The tone selection

The selector walks bands whose edges come from the tuning file.  It divides only in a gap, where
the scalar lies between the two edges, so that the divisor is positive and the fraction is below
one.  The word blended for a scalar moves from one entry's to the next across the gap between
their bands.
-/

namespace MlKernel.Isp

/-! ### Edges and the division -/

def toneLo (blob : Bytes) (bands i : ℕ) : UInt32 :=
  arIspF32Q16 (arIspGetLe32 blob (bands + i * arIspToneBandStride)) >>> 8

def toneHi (blob : Bytes) (bands i : ℕ) : UInt32 :=
  arIspF32Q16 (arIspGetLe32 blob (bands + i * arIspToneBandStride + 4)) >>> 8

/-- The Q12 fraction of a gap. -/
def toneFraction (scalar lo prevHi : UInt32) : UInt32 :=
  (((scalar - prevHi).toUInt64 <<< 12) / (lo - prevHi).toUInt64).toUInt32

/-- Division where a zero divisor is a fault. -/
def divChk (a b : UInt64) : Option UInt64 := if b = 0 then none else some (a / b)

/-- The loop of `ar_isp_tone_select` with its division checked. -/
def toneSelectFromChk (blob : Bytes) (bands count : ℕ) (scalar : UInt32) :
    (remaining i : ℕ) → (prevHi : UInt32) → Option TonePick
  | 0, _, _ => some ⟨UInt32.ofNat (count - 1), UInt32.ofNat (count - 1), 0⟩
  | remaining + 1, i, prevHi =>
      let lo := toneLo blob bands i
      let hi := toneHi blob bands i
      if scalar ≤ hi then
        if lo ≤ scalar ∨ i = 0 then some ⟨UInt32.ofNat i, UInt32.ofNat i, 0⟩
        else
          (divChk ((scalar - prevHi).toUInt64 <<< 12) (lo - prevHi).toUInt64).map fun quotient =>
            ⟨UInt32.ofNat (i - 1), UInt32.ofNat i, quotient.toUInt32⟩
      else toneSelectFromChk blob bands count scalar remaining (i + 1) hi

section Loop

variable {blob : Bytes} {bands count : ℕ} {scalar : UInt32}

/-- The previous high edge is below the scalar, and so below a low edge that is above it. -/
theorem divisor_ne_zero {lo prevHi : UInt32} (above : prevHi < scalar) (below : scalar < lo) :
    (lo - prevHi).toUInt64 ≠ 0 := by
  have gap := UInt32.lt_iff_toNat_lt.mp (UInt32.lt_trans above below)
  intro zero
  have number := congrArg UInt64.toNat zero
  rw [UInt32.toNat_toUInt64, UInt32.toNat_sub_of_le _ _ (UInt32.le_iff_toNat_le.mpr gap.le)]
    at number
  change lo.toNat - prevHi.toNat = 0 at number
  omega

theorem toneSelectFrom_succ (remaining i : ℕ) (prevHi : UInt32) :
    arIspToneSelectFrom blob bands count scalar (remaining + 1) i prevHi =
      if scalar ≤ toneHi blob bands i then
        if toneLo blob bands i ≤ scalar ∨ i = 0 then ⟨UInt32.ofNat i, UInt32.ofNat i, 0⟩
        else
          ⟨UInt32.ofNat (i - 1), UInt32.ofNat i, toneFraction scalar (toneLo blob bands i) prevHi⟩
      else arIspToneSelectFrom blob bands count scalar remaining (i + 1) (toneHi blob bands i) :=
  rfl

theorem toneSelectFromChk_eq (remaining : ℕ) :
    ∀ i prevHi, (i ≠ 0 → prevHi < scalar) →
      toneSelectFromChk blob bands count scalar remaining i prevHi =
        some (arIspToneSelectFrom blob bands count scalar remaining i prevHi) := by
  induction remaining with
  | zero => exact fun _ _ _ => rfl
  | succ remaining ih =>
      intro i prevHi passed
      simp only [toneSelectFromChk, toneSelectFrom_succ]
      split
      · split
        · rfl
        · next gap =>
            rw [not_or, UInt32.not_le] at gap
            simp only [divChk, divisor_ne_zero (passed gap.2) gap.1, if_false, Option.map_some]
            rfl
      · next beyond => exact ih _ _ fun _ => UInt32.not_le.mp beyond

/-- The pick of the first band whose high edge the scalar does not exceed. -/
def toneAt (blob : Bytes) (bands : ℕ) (scalar : UInt32) (b : ℕ) : TonePick :=
  if toneLo blob bands b ≤ scalar ∨ b = 0 then ⟨UInt32.ofNat b, UInt32.ofNat b, 0⟩
  else
    ⟨UInt32.ofNat (b - 1), UInt32.ofNat b,
      toneFraction scalar (toneLo blob bands b) (toneHi blob bands (b - 1))⟩

theorem toneSelectFrom_at {b : ℕ} (inside : b < count)
    (beyond : ∀ j, j < b → toneHi blob bands j < scalar) (within : scalar ≤ toneHi blob bands b)
    (remaining : ℕ) :
    ∀ i prevHi, i + remaining = count → i ≤ b → (i ≠ 0 → prevHi = toneHi blob bands (i - 1)) →
      arIspToneSelectFrom blob bands count scalar remaining i prevHi =
        toneAt blob bands scalar b := by
  induction remaining with
  | zero => omega
  | succ remaining ih =>
      intro i prevHi position before previous
      rw [toneSelectFrom_succ]
      rcases Nat.lt_or_eq_of_le before with earlier | rfl
      · rw [if_neg (UInt32.not_le.mpr (beyond i earlier))]
        exact ih (i + 1) _ (by omega) earlier fun _ => rfl
      · rw [if_pos within, toneAt]
        by_cases gap : toneLo blob bands i ≤ scalar ∨ i = 0
        · rw [if_pos gap, if_pos gap]
        · rw [if_neg gap, if_neg gap, ← previous (not_or.mp gap).2]

theorem toneSelectFrom_past (beyond : ∀ j, j < count → toneHi blob bands j < scalar)
    (remaining : ℕ) :
    ∀ i prevHi, i + remaining = count →
      arIspToneSelectFrom blob bands count scalar remaining i prevHi =
        ⟨UInt32.ofNat (count - 1), UInt32.ofNat (count - 1), 0⟩ := by
  induction remaining with
  | zero => exact fun _ _ _ => rfl
  | succ remaining ih =>
      intro i prevHi position
      rw [toneSelectFrom_succ, if_neg (UInt32.not_le.mpr (beyond i (by omega)))]
      exact ih (i + 1) _ (by omega)

theorem toneSelect_at {b : ℕ} (inside : b < count)
    (beyond : ∀ j, j < b → toneHi blob bands j < scalar)
    (within : scalar ≤ toneHi blob bands b) :
    arIspToneSelect blob bands count scalar = toneAt blob bands scalar b :=
  toneSelectFrom_at inside beyond within count 0 0 (Nat.zero_add count) (Nat.zero_le b)
    fun nonzero => absurd rfl nonzero

/-- The scalar stops at a band or is past them all. -/
theorem toneSelect_cases (blob : Bytes) (bands count : ℕ) (scalar : UInt32) :
    (∃ b, b < count ∧ (∀ j, j < b → toneHi blob bands j < scalar) ∧
      scalar ≤ toneHi blob bands b ∧
      arIspToneSelect blob bands count scalar = toneAt blob bands scalar b) ∨
      arIspToneSelect blob bands count scalar =
        ⟨UInt32.ofNat (count - 1), UInt32.ofNat (count - 1), 0⟩ := by
  by_cases stops : ∃ b, b < count ∧ scalar ≤ toneHi blob bands b
  · left
    have found := Nat.find_spec stops
    have beyond : ∀ j, j < Nat.find stops → toneHi blob bands j < scalar := by
      intro j earlier
      have missed := Nat.find_min stops earlier
      rw [not_and, UInt32.not_le] at missed
      exact missed (by omega)
    exact ⟨_, found.1, beyond, found.2, toneSelect_at found.1 beyond found.2⟩
  · right
    apply toneSelectFrom_past
    · intro j inside
      exact UInt32.not_le.mp fun within => stops ⟨j, inside, within⟩
    · exact Nat.zero_add count

end Loop

/-! ### What a pick says -/

/-- The entries of a pick are neighbours among those in use, and its fraction is below one. -/
structure TonePick.Sound (pick : TonePick) (count : ℕ) : Prop where
  order : pick.low.toNat ≤ pick.high.toNat
  near : pick.high.toNat ≤ pick.low.toNat + 1
  inside : pick.high.toNat < count
  fraction : pick.tQ12.toNat < 4096
  verbatim : pick.low = pick.high → pick.tQ12 = 0

section Pick

variable {blob : Bytes} {bands count : ℕ} {scalar : UInt32}

theorem ofNat_index {i : ℕ} (inside : i < count) (small : count < 2 ^ 32) :
    (UInt32.ofNat i).toNat = i := by
  rw [UInt32.toNat_ofNat']
  exact Nat.mod_eq_of_lt (inside.trans small)

theorem entry_sound {i : ℕ} (inside : i < count) (small : count < 2 ^ 32) :
    TonePick.Sound ⟨UInt32.ofNat i, UInt32.ofNat i, 0⟩ count where
  order := Nat.le_refl _
  near := Nat.le_succ _
  inside := by
    rw [ofNat_index inside small]
    exact inside
  fraction := Nat.zero_lt_succ 4095
  verbatim _ := rfl

theorem neighbours_sound {low high t : UInt32} (next : high.toNat = low.toNat + 1)
    (inside : high.toNat < count) (fraction : t.toNat < 4096) :
    TonePick.Sound ⟨low, high, t⟩ count where
  order := (Nat.le_succ _).trans next.ge
  near := next.le
  inside := inside
  fraction := fraction
  verbatim same := by
    have equal : low.toNat = high.toNat := congrArg UInt32.toNat same
    omega

theorem toneFraction_toNat {lo prevHi : UInt32} (above : prevHi < scalar) (below : scalar < lo) :
    (toneFraction scalar lo prevHi).toNat =
      Blend.fraction 4096 (scalar.toNat - prevHi.toNat) (lo.toNat - prevHi.toNat) :=
  gapQuotient_toNat (by decide) above below

theorem toneFraction_lt {lo prevHi : UInt32} (above : prevHi < scalar) (below : scalar < lo) :
    (toneFraction scalar lo prevHi).toNat < 4096 := by
  have depth := UInt32.lt_iff_toNat_lt.mp above
  have rest := UInt32.lt_iff_toNat_lt.mp below
  rw [toneFraction_toNat above below]
  exact Blend.fraction_lt (by decide) (by omega)

theorem toneAt_sound {b : ℕ} (inside : b < count) (small : count < 2 ^ 32)
    (beyond : ∀ j, j < b → toneHi blob bands j < scalar) :
    (toneAt blob bands scalar b).Sound count := by
  unfold toneAt
  split
  · exact entry_sound inside small
  · next gap =>
      rw [not_or, UInt32.not_le] at gap
      have low : (UInt32.ofNat (b - 1)).toNat = b - 1 := ofNat_index (by omega) small
      have high : (UInt32.ofNat b).toNat = b := ofNat_index inside small
      apply neighbours_sound (by omega) (by omega)
      exact toneFraction_lt (beyond (b - 1) (by omega)) gap.1

theorem toneSelect_sound (bandsExist : 0 < count) (small : count < 2 ^ 32) :
    (arIspToneSelect blob bands count scalar).Sound count := by
  rcases toneSelect_cases blob bands count scalar with
    ⟨b, inside, beyond, _, selected⟩ | selected
  · rw [selected]
    exact toneAt_sound inside small beyond
  · rw [selected]
    exact entry_sound (by omega) small

end Pick

/-- A stage's selection with its division checked. -/
def tonePickAmongChk (blob : Bytes) (countOffset bands entries : ℕ) (scalar : UInt32) :
    Option TonePick :=
  let count := bandCount (arIspGetLe32 blob countOffset) entries
  toneSelectFromChk blob bands count scalar count 0 0

/-- The entries in use: those that the header counts, or all that there is room for. -/
theorem bandCount_bounds (count : UInt32) {entries : ℕ} (room : 0 < entries) :
    0 < bandCount count entries ∧ bandCount count entries ≤ entries := by
  unfold bandCount
  split <;> omega

/-- No selection divides by zero, and every one is sound. -/
theorem tonePickAmong_total (blob : Bytes) (countOffset bands : ℕ) {entries : ℕ}
    (scalar : UInt32) (room : 0 < entries) (few : entries < 2 ^ 32) :
    tonePickAmongChk blob countOffset bands entries scalar =
        some (tonePickAmong blob countOffset bands entries scalar) ∧
      (tonePickAmong blob countOffset bands entries scalar).Sound
        (bandCount (arIspGetLe32 blob countOffset) entries) := by
  rcases bandCount_bounds (arIspGetLe32 blob countOffset) room with ⟨some, most⟩
  constructor
  · exact toneSelectFromChk_eq _ 0 0 fun nonzero => absurd rfl nonzero
  · exact toneSelect_sound some (most.trans_lt few)

/-! ### The blended word -/

/-- The sum of the blend stays within 32 bits for words of twenty, so that it is the blend. -/
theorem arIspToneBlend_toNat {low high t : UInt32} (lowFits : low < 0x100000)
    (highFits : high < 0x100000) (small : t.toNat ≤ 4096) :
    low.toNat * (4096 - t.toNat) + high.toNat * t.toNat < 2 ^ 32 ∧
      ((arIspToneBlend low high t).toNat : ℤ) =
        Blend.truncated 4096 t.toNat low.toNat high.toNat := by
  have lowSmall : low.toNat ≤ 0xfffff := Nat.le_of_lt_succ (UInt32.lt_iff_toNat_lt.mp lowFits)
  have highSmall : high.toNat ≤ 0xfffff := Nat.le_of_lt_succ (UInt32.lt_iff_toNat_lt.mp highFits)
  have rest : (0x1000 - t).toNat = 4096 - t.toNat :=
    UInt32.toNat_sub_of_le _ _ (UInt32.le_iff_toNat_le.mpr small)
  have lowPart : low.toNat * (4096 - t.toNat) ≤ 0xfffff * (4096 - t.toNat) :=
    Nat.mul_le_mul_right _ lowSmall
  have highPart : high.toNat * t.toNat ≤ 0xfffff * t.toNat := Nat.mul_le_mul_right _ highSmall
  have room : low.toNat * (4096 - t.toNat) + high.toNat * t.toNat < 2 ^ 32 := by omega
  refine ⟨room, ?_⟩
  by_cases verbatim : t = 0
  · rw [arIspToneBlend, if_pos verbatim, verbatim]
    exact (Blend.truncated_zero (by decide)).symm
  · have sum : (low * (0x1000 - t) + high * t).toNat =
        low.toNat * (4096 - t.toNat) + high.toNat * t.toNat := by
      rw [UInt32.toNat_add, UInt32.toNat_mul, UInt32.toNat_mul, rest,
        Nat.mod_eq_of_lt (by omega : low.toNat * (4096 - t.toNat) < 2 ^ 32),
        Nat.mod_eq_of_lt (by omega : high.toNat * t.toNat < 2 ^ 32)]
      exact Nat.mod_eq_of_lt room
    have weights : ((low.toNat * (4096 - t.toNat) + high.toNat * t.toNat : ℕ) : ℤ) =
        Blend.weighted 4096 (t.toNat : ℤ) low.toNat high.toNat := by
      unfold Blend.weighted
      push_cast [Nat.cast_sub small]
      rfl
    rw [arIspToneBlend, if_neg verbatim, UInt32.toNat_shiftRight, sum, Nat.shiftRight_eq_div_pow,
      Blend.truncated, ← weights, Int.tdiv_eq_ediv_of_nonneg (Int.natCast_nonneg _)]
    rfl

/-- The word that is blended for a scalar, from a table with a word for each entry. -/
def toneWord (blob : Bytes) (bands count : ℕ) (word : ℕ → UInt32) (scalar : UInt32) : UInt32 :=
  let pick := arIspToneSelect blob bands count scalar
  arIspToneBlend (word pick.low.toNat) (word pick.high.toNat) pick.tQ12

/-- The bands follow one another with gaps between them, in the order of the Q8 edges that the code
compares. -/
structure ToneBandsAscend (blob : Bytes) (bands count : ℕ) : Prop where
  band : ∀ i, i < count → toneLo blob bands i ≤ toneHi blob bands i
  gap : ∀ i, i + 1 < count → toneHi blob bands i < toneLo blob bands (i + 1)

section Word

variable {blob : Bytes} {bands count : ℕ} {word : ℕ → UInt32} {scalar : UInt32}

theorem ToneBandsAscend.hi_lt (ascend : ToneBandsAscend blob bands count) {i j : ℕ}
    (before : j < i) (inside : i < count) : toneHi blob bands j < toneHi blob bands i := by
  induction i with
  | zero => omega
  | succ i ih =>
      have next : toneHi blob bands i < toneHi blob bands (i + 1) :=
        UInt32.lt_of_lt_of_le (ascend.gap i inside) (ascend.band (i + 1) inside)
      rcases Nat.lt_succ_iff_lt_or_eq.mp before with earlier | rfl
      · exact UInt32.lt_trans (ih earlier (by omega)) next
      · exact next

theorem toneWord_entry {i : ℕ} (inside : i < count) (small : count < 2 ^ 32)
    (selected : arIspToneSelect blob bands count scalar =
      ⟨UInt32.ofNat i, UInt32.ofNat i, 0⟩) :
    toneWord blob bands count word scalar = word i := by
  rw [toneWord, selected]
  change arIspToneBlend (word (UInt32.ofNat i).toNat) (word (UInt32.ofNat i).toNat) 0 = word i
  rw [ofNat_index inside small]
  rfl

/-- Across a gap, its ends included, the word is the blend with the fraction of the gap. -/
theorem ToneBandsAscend.toneWord_gap (ascend : ToneBandsAscend blob bands count)
    (small : count < 2 ^ 32) (fits : ∀ i, word i < 0x100000) {i : ℕ} (inside : i + 1 < count)
    (above : toneHi blob bands i ≤ scalar) (below : scalar ≤ toneLo blob bands (i + 1)) :
    ((toneWord blob bands count word scalar).toNat : ℤ) =
      Blend.truncated 4096
        (Blend.fraction 4096 (scalar.toNat - (toneHi blob bands i).toNat)
          ((toneLo blob bands (i + 1)).toNat - (toneHi blob bands i).toNat))
        (word i).toNat (word (i + 1)).toNat := by
  have width := UInt32.lt_iff_toNat_lt.mp (ascend.gap i inside)
  rcases UInt32.lt_or_eq_of_le above with within | rfl
  · have beyond : ∀ j, j < i + 1 → toneHi blob bands j < scalar := by
      intro j before
      rcases Nat.lt_succ_iff_lt_or_eq.mp before with earlier | rfl
      · exact UInt32.lt_trans (ascend.hi_lt earlier (by omega)) within
      · exact within
    have selected := toneSelect_at inside beyond
      (UInt32.le_trans below (ascend.band (i + 1) inside))
    rcases UInt32.lt_or_eq_of_le below with gap | rfl
    · have none : ¬(toneLo blob bands (i + 1) ≤ scalar ∨ i + 1 = 0) :=
        not_or.mpr ⟨UInt32.not_le.mpr gap, Nat.succ_ne_zero i⟩
      rw [toneAt, if_neg none, Nat.add_sub_cancel] at selected
      rw [toneWord, selected]
      simp only [ofNat_index (by omega : i < count) small, ofNat_index inside small]
      rw [(arIspToneBlend_toNat (fits i) (fits (i + 1)) (toneFraction_lt within gap).le).2,
        toneFraction_toNat within gap]
    · rw [toneAt, if_pos (.inl (UInt32.le_refl _))] at selected
      rw [toneWord_entry inside small selected, Blend.fraction_full (by omega)]
      exact (Blend.truncated_one (by decide)).symm
  · have selected := @toneSelect_at blob bands count _ i (by omega)
      (fun j before => ascend.hi_lt before (by omega)) (UInt32.le_refl (toneHi blob bands i))
    rw [toneAt, if_pos (.inl (ascend.band i (by omega)))] at selected
    rw [toneWord_entry (by omega) small selected, Nat.sub_self, Blend.fraction, Nat.mul_zero,
      Nat.zero_div]
    exact (Blend.truncated_zero (by decide)).symm

/-- The blend of what is selected neither overflows nor leaves the range of the two words. -/
theorem toneWord_between (bandsExist : 0 < count) (small : count < 2 ^ 32)
    (fits : ∀ i, word i < 0x100000) (scalar : UInt32) :
    let pick := arIspToneSelect blob bands count scalar
    let low := word pick.low.toNat
    let high := word pick.high.toNat
    low.toNat * (4096 - pick.tQ12.toNat) + high.toNat * pick.tQ12.toNat < 2 ^ 32 ∧
      min low.toNat high.toNat ≤ (toneWord blob bands count word scalar).toNat ∧
      (toneWord blob bands count word scalar).toNat ≤ max low.toNat high.toNat := by
  intro pick low high
  have sound : pick.Sound count := toneSelect_sound bandsExist small
  have blend := arIspToneBlend_toNat (fits pick.low.toNat) (fits pick.high.toNat)
    sound.fraction.le
  have within := @Blend.truncated_between 4096 pick.tQ12.toNat low.toNat high.toNat (by decide)
    (Int.natCast_nonneg _) (by exact_mod_cast sound.fraction.le)
  rw [← blend.2] at within
  have same : arIspToneBlend low high pick.tQ12 = toneWord blob bands count word scalar := rfl
  rw [← same]
  exact ⟨blend.1, by exact_mod_cast within.1, by exact_mod_cast within.2⟩

/-- Across the gap above entry `i` the word moves from that entry's to the next one's. -/
structure ToneAcross (blob : Bytes) (bands count : ℕ) (word : ℕ → UInt32) (i : ℕ) : Prop where
  lower : toneWord blob bands count word (toneHi blob bands i) = word i
  upper : toneWord blob bands count word (toneLo blob bands (i + 1)) = word (i + 1)
  rises : ∀ scalar further, toneHi blob bands i ≤ scalar → scalar ≤ further →
    further ≤ toneLo blob bands (i + 1) → word i ≤ word (i + 1) →
      toneWord blob bands count word scalar ≤ toneWord blob bands count word further
  falls : ∀ scalar further, toneHi blob bands i ≤ scalar → scalar ≤ further →
    further ≤ toneLo blob bands (i + 1) → word (i + 1) ≤ word i →
      toneWord blob bands count word further ≤ toneWord blob bands count word scalar

theorem ToneBandsAscend.across (ascend : ToneBandsAscend blob bands count)
    (small : count < 2 ^ 32) (fits : ∀ i, word i < 0x100000) {i : ℕ} (inside : i + 1 < count) :
    ToneAcross blob bands count word i := by
  have width := UInt32.lt_iff_toNat_lt.mp (ascend.gap i inside)
  have blend := fun scalar => @toneWord_gap blob bands count word scalar ascend small fits i inside
  have deeper {scalar further : UInt32} (less : scalar ≤ further) :
      Blend.fraction 4096 (scalar.toNat - (toneHi blob bands i).toNat)
          ((toneLo blob bands (i + 1)).toNat - (toneHi blob bands i).toNat) ≤
        Blend.fraction 4096 (further.toNat - (toneHi blob bands i).toNat)
          ((toneLo blob bands (i + 1)).toNat - (toneHi blob bands i).toNat) :=
    Blend.fraction_mono (Nat.sub_le_sub_right (UInt32.le_iff_toNat_le.mp less) _)
  refine ⟨?_, ?_, ?_, ?_⟩
  · have lower := blend _ (UInt32.le_refl _) (UInt32.le_of_lt (ascend.gap i inside))
    rw [Nat.sub_self, Blend.fraction, Nat.mul_zero, Nat.zero_div] at lower
    apply UInt32.toNat_inj.mp
    exact Int.ofNat_inj.mp (lower.trans (Blend.truncated_zero (by decide)))
  · have upper := blend _ (UInt32.le_of_lt (ascend.gap i inside)) (UInt32.le_refl _)
    rw [Blend.fraction_full (by omega)] at upper
    apply UInt32.toNat_inj.mp
    exact Int.ofNat_inj.mp (upper.trans (Blend.truncated_one (by decide)))
  · intro scalar further above less below order
    apply UInt32.le_iff_toNat_le.mpr
    apply Int.ofNat_le.mp
    rw [blend scalar above (UInt32.le_trans less below),
      blend further (UInt32.le_trans above less) below]
    apply Blend.truncated_mono (by decide)
    · exact Int.ofNat_le.mpr (UInt32.le_iff_toNat_le.mp order)
    · exact Int.ofNat_le.mpr (deeper less)
  · intro scalar further above less below order
    apply UInt32.le_iff_toNat_le.mpr
    apply Int.ofNat_le.mp
    rw [blend scalar above (UInt32.le_trans less below),
      blend further (UInt32.le_trans above less) below]
    apply Blend.truncated_anti (by decide)
    · exact Int.ofNat_le.mpr (UInt32.le_iff_toNat_le.mp order)
    · exact Int.ofNat_le.mpr (deeper less)

end Word

/-- No selection divides by zero and every one is sound, and the word blended for it does not
overflow, stays between the two words and moves from one to the other across each gap. -/
theorem toneSelection_total_continuous :
    (∀ blob scalar,
      (tonePickAmongChk blob arIspGammaBlobCount arIspGammaBlobBands arIspGammaBlobCurves scalar =
          some (arIspTonePickGamma blob scalar) ∧
        (arIspTonePickGamma blob scalar).Sound
          (bandCount (arIspGetLe32 blob arIspGammaBlobCount) arIspGammaBlobCurves)) ∧
      tonePickAmongChk blob arIspDrcBlobCount arIspDrcBlobBands arIspDrcBlobProfiles scalar =
          some (arIspTonePickDrc blob scalar) ∧
        (arIspTonePickDrc blob scalar).Sound
          (bandCount (arIspGetLe32 blob arIspDrcBlobCount) arIspDrcBlobProfiles)) ∧
      ∀ (blob : Bytes) (bands count : ℕ) (word : ℕ → UInt32), 0 < count → count < 2 ^ 32 →
        ToneBandsAscend blob bands count → (∀ i, word i < 0x100000) →
          (∀ scalar,
            let pick := arIspToneSelect blob bands count scalar
            let low := word pick.low.toNat
            let high := word pick.high.toNat
            low.toNat * (4096 - pick.tQ12.toNat) + high.toNat * pick.tQ12.toNat < 2 ^ 32 ∧
              min low.toNat high.toNat ≤ (toneWord blob bands count word scalar).toNat ∧
              (toneWord blob bands count word scalar).toNat ≤ max low.toNat high.toNat) ∧
          ∀ i, i + 1 < count → ToneAcross blob bands count word i := by
  constructor
  · intro blob scalar
    exact ⟨tonePickAmong_total blob _ _ scalar (by decide) (by decide),
      tonePickAmong_total blob _ _ scalar (by decide) (by decide)⟩
  · intro blob bands count word bandsExist small ascend fits
    refine ⟨toneWord_between bandsExist small fits, ?_⟩
    intro i inside
    exact ascend.across small fits inside

/-- Two bands with a gap between 10.0 and 20.0, and words that fall from the greatest of twenty
bits to zero. -/
theorem toneSelection_total_continuous_falling :
    let blob : Bytes := fun offset =>
      [0, 0, 0, 0, 0, 0, 0x20, 0x41, 0, 0, 0xa0, 0x41, 0, 0, 0xf0, 0x41].getD offset 0
    let word : ℕ → UInt32 := fun i => if i = 0 then 0xfffff else 0
    toneHi blob 0 0 = 2560 ∧ toneLo blob 0 1 = 5120 ∧ ToneAcross blob 0 2 word 0 := by
  intro blob word
  have ascend : ToneBandsAscend blob 0 2 := by
    have bands : ∀ i, i < 2 → toneLo blob 0 i ≤ toneHi blob 0 i := by decide +kernel
    have gaps : ∀ i, i < 1 → toneHi blob 0 i < toneLo blob 0 (i + 1) := by decide +kernel
    exact ⟨bands, fun i inside => gaps i (Nat.lt_of_succ_lt_succ inside)⟩
  have fits : ∀ i, word i < 0x100000 := by
    intro i
    simp only [word]
    split <;> decide
  refine ⟨by decide +kernel, by decide +kernel, ?_⟩
  exact (toneSelection_total_continuous.2 blob 0 2 word (by decide) (by decide) ascend fits).2 0
    (by decide)

end MlKernel.Isp
