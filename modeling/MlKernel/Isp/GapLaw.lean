import MlKernel.Isp.BandWalk
import MlKernel.Isp.ColourLadders

/-!
# The integer ladder

In a gap between two bands a word is the truncated blend of the two records, weighed with the Q24
fraction of the gap.  The walk reports the same zero for a gain inside a band and for a fraction
that truncates to zero, and the reader takes the upper record for both.
-/

namespace MlKernel.Isp

/-- The edges of the bands, in the order of the table. -/
structure BandsAscend (blob : Bytes) (bands count : ℕ) : Prop where
  band : ∀ k, k < count → arIspLadderLo blob bands k < arIspLadderHi blob bands k
  gap : ∀ k, k + 1 < count → arIspLadderHi blob bands k < arIspLadderLo blob bands (k + 1)

/-- The selected record's word, blended with that of the record below it. -/
def blendedWord (word : ℕ → Int32) (selected : ℕ × UInt32) : Int32 :=
  if selected.2 ≠ 0 then
    arIspLadderBlendS32 (word (selected.1 - 1)) (word selected.1) selected.2
  else word selected.1

def ladderWord (blob : Bytes) (bands count : ℕ) (interp : UInt32) (word : ℕ → Int32)
    (gainQ16 : UInt32) : Int32 :=
  blendedWord word (arIspLadderWalk blob bands count interp gainQ16)

/-- The width of the gap above band `k`, in Q16. -/
def gapWidth (blob : Bytes) (bands k : ℕ) : ℕ :=
  (arIspLadderLo blob bands (k + 1)).toNat - (arIspLadderHi blob bands k).toNat

/-- How far the gain is above band `k`, in Q16. -/
def gapDepth (blob : Bytes) (bands k : ℕ) (gainQ16 : UInt32) : ℕ :=
  gainQ16.toNat - (arIspLadderHi blob bands k).toNat

/-- The truncated blend of the records around the gap above band `k`. -/
def gapWord (blob : Bytes) (bands : ℕ) (word : ℕ → Int32) (k : ℕ) (gainQ16 : UInt32) : ℤ :=
  Blend.truncated (2 ^ 24)
    (Blend.fraction (2 ^ 24) (gapDepth blob bands k gainQ16) (gapWidth blob bands k))
    (word k).toInt (word (k + 1)).toInt

/-! ### Readers -/

/-- A word of the payload, by record. -/
def payloadWord (ladder : ArIspLadder) (blob : Bytes) (off band : ℕ) : Int32 :=
  (arIspGetLe32 blob (ladder.payload + band * ladder.stride + off)).toInt32

theorem arIspLadderReadWord_eq (ladder : ArIspLadder) (blob : Bytes) (off : ℕ)
    (selected : ℕ × UInt32) :
    arIspLadderReadWord ladder blob selected.1 off selected.2 =
      (blendedWord (payloadWord ladder blob off) selected).toUInt32 :=
  rfl

def cnfWord (blob : Bytes) (band : ℕ) : Int32 :=
  (arIspGetLe32 blob (arIspCnfBlobPayload + band * arIspCnfBlobStride +
    arIspCnfWordStrength)).toInt32

/-- The range of the strength field. -/
def clampStrength (value : ℤ) : ℤ := max 1 (min 6 value)

theorem clampStrength_mono {v w : ℤ} (order : v ≤ w) : clampStrength v ≤ clampStrength w := by
  unfold clampStrength
  omega

/-- The clamp of the strength is the clamp of its number. -/
theorem arIspCnfStrengthFromBlob_toNat (blob : Bytes) (gainQ16 : UInt32) :
    ((arIspCnfStrengthFromBlob blob gainQ16).toNat : ℤ) =
      clampStrength
        (ladderWord blob arIspCnfBlobBands arIspCnfBands arIspCnfInterp (cnfWord blob)
          gainQ16).toInt := by
  have clamped : arIspCnfStrengthFromBlob blob gainQ16 =
      (let value := ladderWord blob arIspCnfBlobBands arIspCnfBands arIspCnfInterp (cnfWord blob)
        gainQ16
      let value := if value < arIspCnfStrengthMin then arIspCnfStrengthMin else value
      (if arIspCnfStrengthMax < value then arIspCnfStrengthMax else value).toUInt32) := rfl
  rw [clamped]
  generalize ladderWord blob arIspCnfBlobBands arIspCnfBands arIspCnfInterp (cnfWord blob)
    gainQ16 = value
  simp only [clampStrength]
  by_cases low : value < arIspCnfStrengthMin
  · have below : value.toInt < 1 := Int32.lt_iff_toInt_lt.mp low
    rw [if_pos low, if_neg (by decide)]
    have least : max 1 (min 6 value.toInt) = 1 := by omega
    rw [least]
    rfl
  · have above : 1 ≤ value.toInt := Int.not_lt.mp fun below => low (Int32.lt_iff_toInt_lt.mpr below)
    rw [if_neg low]
    by_cases high : arIspCnfStrengthMax < value
    · have most : 6 < value.toInt := Int32.lt_iff_toInt_lt.mp high
      have greatest : max 1 (min 6 value.toInt) = 6 := by omega
      rw [if_pos high, greatest]
      rfl
    · have most : value.toInt ≤ 6 :=
        Int.not_lt.mp fun beyond => high (Int32.lt_iff_toInt_lt.mpr beyond)
      have same : max 1 (min 6 value.toInt) = value.toInt := by omega
      have nonneg : 0 ≤ value := Int32.le_iff_toInt_le.mpr (by rw [Int32.toInt_zero]; omega)
      have number : value.toUInt32.toNat = value.toInt.toNat := Int32.toNat_toUInt32_of_le nonneg
      rw [if_neg high, same, number]
      omega

/-! ### The fraction and the blend -/

theorem gapFraction_toNat {gain lo prevHi : UInt32} (above : prevHi < gain) (below : gain < lo) :
    (gapFraction gain lo prevHi).toNat =
      Blend.fraction (2 ^ 24) (gain.toNat - prevHi.toNat) (lo.toNat - prevHi.toNat) := by
  rw [gapFraction, if_pos ⟨below, UInt32.lt_trans above below⟩]
  exact gapQuotient_toNat (by decide) above below

theorem arIspLadderBlendS32_toInt (low high : Int32) {t : UInt32} (small : t.toNat ≤ 2 ^ 24) :
    (arIspLadderBlendS32 low high t).toInt =
      Blend.truncated (2 ^ 24) t.toNat low.toInt high.toInt := by
  have rest : ((arIspLadderTOne - t).toNat : ℤ) = 2 ^ 24 - t.toNat := by
    have one : arIspLadderTOne.toNat = 2 ^ 24 := rfl
    rw [UInt32.toNat_sub_of_le _ _ (UInt32.le_iff_toNat_le.mpr small), one]
    omega
  have within := @Blend.truncated_between (2 ^ 24) t.toNat low.toInt high.toInt (by decide)
    (Int.natCast_nonneg _) (by exact_mod_cast small)
  have lowLeast := low.le_toInt
  have highLeast := high.le_toInt
  have lowMost := low.toInt_lt
  have highMost := high.toInt_lt
  have blended : (low.toInt * ((arIspLadderTOne - t).toNat : ℤ) + high.toInt * t.toNat).tdiv
      arIspLadderTOne.toNat = Blend.truncated (2 ^ 24) t.toNat low.toInt high.toInt := by
    rw [rest]
    rfl
  rw [arIspLadderBlendS32, blended, Int32.toInt_ofInt_of_le (by omega) (by omega)]

/-! ### In a gap -/

section Gap

variable {blob : Bytes} {bands count k : ℕ} {interp gain : UInt32} {word : ℕ → Int32}

theorem BandsAscend.hi_lt (ascend : BandsAscend blob bands count) {j : ℕ} (before : j < k)
    (inside : k < count) : arIspLadderHi blob bands j < arIspLadderHi blob bands k := by
  induction k with
  | zero => omega
  | succ k ih =>
      have next : arIspLadderHi blob bands k < arIspLadderHi blob bands (k + 1) :=
        UInt32.lt_trans (ascend.gap k inside) (ascend.band (k + 1) inside)
      rcases Nat.lt_succ_iff_lt_or_eq.mp before with earlier | rfl
      · exact UInt32.lt_trans (ih earlier (by omega)) next
      · exact next

/-- A gain above band `k` and within the next one stops the walk there. -/
theorem BandsAscend.bandOf_eq (ascend : BandsAscend blob bands count) (inside : k + 1 < count)
    (above : arIspLadderHi blob bands k < gain) (below : gain ≤ arIspLadderHi blob bands (k + 1)) :
    bandOf count (fun band => gain ≤ arIspLadderHi blob bands band) = k + 1 := by
  apply MlKernel.Isp.bandOf_eq (by omega)
  · intro j before
    apply decide_eq_false
    rw [UInt32.not_le]
    rcases Nat.lt_succ_iff_lt_or_eq.mp before with earlier | rfl
    · exact UInt32.lt_trans (ascend.hi_lt earlier (by omega)) above
    · exact above
  · intro _
    exact decide_eq_true below

theorem BandsAscend.walk_gap (ascend : BandsAscend blob bands count) (on : interp ≠ 0)
    (inside : k + 1 < count) (above : arIspLadderHi blob bands k < gain)
    (below : gain < arIspLadderLo blob bands (k + 1)) :
    arIspLadderWalk blob bands count interp gain =
      (k + 1,
        gapFraction gain (arIspLadderLo blob bands (k + 1)) (arIspLadderHi blob bands k)) := by
  have within : gain ≤ arIspLadderHi blob bands (k + 1) :=
    UInt32.le_of_lt (UInt32.lt_trans below (ascend.band (k + 1) inside))
  have stops := ascend.bandOf_eq inside above within
  simp only [arIspLadderWalk, stops]
  rw [if_pos ⟨on, Nat.succ_pos k⟩]
  rfl

/-- The fraction truncates to zero where the gap is too wide for how far the gain is in it. -/
theorem gapFraction_eq_zero_iff (above : arIspLadderHi blob bands k < gain)
    (below : gain < arIspLadderLo blob bands (k + 1)) :
    gapFraction gain (arIspLadderLo blob bands (k + 1)) (arIspLadderHi blob bands k) = 0 ↔
      2 ^ 24 * gapDepth blob bands k gain < gapWidth blob bands k := by
  have depth := UInt32.lt_iff_toNat_lt.mp above
  have rest := UInt32.lt_iff_toNat_lt.mp below
  rw [← UInt32.toNat_inj, gapFraction_toNat above below]
  exact Blend.fraction_eq_zero_iff (by omega)

/-- A word in a gap is the blend, unless the fraction truncates to zero: then it is the upper
record's. -/
theorem BandsAscend.ladderWord_gap (ascend : BandsAscend blob bands count) (on : interp ≠ 0)
    (inside : k + 1 < count) (above : arIspLadderHi blob bands k < gain)
    (below : gain < arIspLadderLo blob bands (k + 1)) (word : ℕ → Int32) :
    (ladderWord blob bands count interp word gain).toInt =
      if 2 ^ 24 * gapDepth blob bands k gain < gapWidth blob bands k then (word (k + 1)).toInt
      else gapWord blob bands word k gain := by
  have zero := gapFraction_eq_zero_iff above below
  rw [ladderWord, ascend.walk_gap on inside above below]
  by_cases verbatim : 2 ^ 24 * gapDepth blob bands k gain < gapWidth blob bands k
  · rw [if_pos verbatim, zero.mpr verbatim]
    rfl
  · have fraction := gapFraction_toNat above below
    have less : Blend.fraction (2 ^ 24) (gain.toNat - (arIspLadderHi blob bands k).toNat)
        ((arIspLadderLo blob bands (k + 1)).toNat - (arIspLadderHi blob bands k).toNat) <
          2 ^ 24 := by
      have depth := UInt32.lt_iff_toNat_lt.mp above
      have rest := UInt32.lt_iff_toNat_lt.mp below
      exact Blend.fraction_lt (by decide) (by omega)
    have blends := fun none => verbatim (zero.mp none)
    rw [if_neg verbatim, blendedWord, if_pos blends, Nat.add_sub_cancel,
      arIspLadderBlendS32_toInt _ _ (fraction.le.trans less.le), fraction]
    rfl

/-- The gap law holds of a gain where its fraction is not truncated to zero, or where it does not
matter. -/
theorem BandsAscend.gapLaw_iff (ascend : BandsAscend blob bands count) (on : interp ≠ 0)
    (inside : k + 1 < count) (above : arIspLadderHi blob bands k < gain)
    (below : gain < arIspLadderLo blob bands (k + 1)) (word : ℕ → Int32) :
    (ladderWord blob bands count interp word gain).toInt = gapWord blob bands word k gain ↔
      gapWidth blob bands k ≤ 2 ^ 24 * gapDepth blob bands k gain ∨ word k = word (k + 1) := by
  rw [ascend.ladderWord_gap on inside above below word]
  split
  · next verbatim =>
      have depth := UInt32.lt_iff_toNat_lt.mp above
      have rest := UInt32.lt_iff_toNat_lt.mp below
      have noFraction : Blend.fraction (2 ^ 24) (gapDepth blob bands k gain)
          (gapWidth blob bands k) = 0 :=
        (Blend.fraction_eq_zero_iff (by unfold gapWidth; omega)).mpr verbatim
      rw [gapWord, noFraction]
      have lower : Blend.truncated (2 ^ 24) ((0 : ℕ) : ℤ) (word k).toInt (word (k + 1)).toInt =
          (word k).toInt := Blend.truncated_zero (by decide)
      rw [lower, Int32.toInt_inj, eq_comm]
      exact (or_iff_right (by omega)).symm
  · next blends => exact iff_of_true rfl (.inl (Nat.not_lt.mp blends))

end Gap

/-! ### Along the abscissa -/

section Abscissa

variable {blob : Bytes} {bands count k : ℕ} {interp gain deeper : UInt32} {word : ℕ → Int32}

/-- The band that the walk selects. -/
def bandAt (blob : Bytes) (bands count : ℕ) (gain : UInt32) : ℕ :=
  bandOf count fun band => gain ≤ arIspLadderHi blob bands band

theorem bandAt_mono (less : gain ≤ deeper) :
    bandAt blob bands count gain ≤ bandAt blob bands count deeper := by
  by_contra above
  have bound := bandOf_le count fun band => gain ≤ arIspLadderHi blob bands band
  have missed := of_decide_eq_false (bandOf_before (Nat.lt_of_not_le above))
  have reached : deeper ≤ arIspLadderHi blob bands (bandAt blob bands count deeper) :=
    of_decide_eq_true
      (@bandOf_reaches count (fun band => deeper ≤ arIspLadderHi blob bands band) (by
        change bandAt blob bands count deeper + 1 < count
        change bandAt blob bands count gain ≤ count - 1 at bound
        omega))
  exact missed (UInt32.le_trans less reached)

/-- A gain is in a gap, or it takes the record of its band as it is. -/
theorem walk_cases (on : interp ≠ 0) (bandsExist : 0 < count) (gain : UInt32) :
    (∃ k, k + 1 < count ∧ bandAt blob bands count gain = k + 1 ∧
      arIspLadderHi blob bands k < gain ∧ gain < arIspLadderLo blob bands (k + 1)) ∨
      ((∀ word, ladderWord blob bands count interp word gain =
          word (bandAt blob bands count gain)) ∧
        (0 < bandAt blob bands count gain →
          arIspLadderLo blob bands (bandAt blob bands count gain) ≤ gain)) := by
  have bound := bandOf_le count fun band => gain ≤ arIspLadderHi blob bands band
  have walk : arIspLadderWalk blob bands count interp gain =
      if interp ≠ 0 ∧ 0 < bandAt blob bands count gain then
        (bandAt blob bands count gain,
          gapFraction gain (arIspLadderLo blob bands (bandAt blob bands count gain))
            (arIspLadderHi blob bands (bandAt blob bands count gain - 1)))
      else (bandAt blob bands count gain, 0) := rfl
  have before := fun j => @bandOf_before count j fun band => gain ≤ arIspLadderHi blob bands band
  change bandAt blob bands count gain ≤ count - 1 at bound
  change ∀ j, j < bandAt blob bands count gain → _ at before
  unfold ladderWord
  rw [walk]
  generalize bandAt blob bands count gain = band at bound before ⊢
  cases band with
  | zero =>
      right
      rw [if_neg fun positive => Nat.lt_irrefl 0 positive.2]
      exact ⟨fun _ => rfl, fun positive => absurd positive (Nat.lt_irrefl 0)⟩
  | succ k =>
      have above : arIspLadderHi blob bands k < gain :=
        UInt32.not_le.mp (of_decide_eq_false (before k (Nat.lt_succ_self k)))
      by_cases below : gain < arIspLadderLo blob bands (k + 1)
      · exact .inl ⟨k, by omega, rfl, above, below⟩
      · right
        rw [if_pos ⟨on, Nat.succ_pos k⟩, gapFraction, if_neg fun inside => below inside.1]
        exact ⟨fun _ => rfl, fun _ => UInt32.not_lt.mp below⟩

/-- The words do not fall from one record to the next. -/
def WordsAscend (word : ℕ → Int32) (count : ℕ) : Prop :=
  ∀ k, k + 1 < count → word k ≤ word (k + 1)

theorem WordsAscend.le (ordered : WordsAscend word count) {j : ℕ} (before : j ≤ k)
    (inside : k < count) : (word j).toInt ≤ (word k).toInt := by
  induction k with
  | zero =>
      have same : j = 0 := Nat.le_zero.mp before
      rw [same]
  | succ k ih =>
      rcases Nat.le_succ_iff.mp before with earlier | rfl
      · exact (ih earlier (by omega)).trans (Int32.le_iff_toInt_le.mp (ordered k inside))
      · exact Int.le_refl _

theorem gapWord_between (ordered : WordsAscend word count) (inside : k + 1 < count)
    (above : arIspLadderHi blob bands k < gain) (below : gain < arIspLadderLo blob bands (k + 1)) :
    (word k).toInt ≤ gapWord blob bands word k gain ∧
      gapWord blob bands word k gain ≤ (word (k + 1)).toInt := by
  have depth := UInt32.lt_iff_toNat_lt.mp above
  have rest := UInt32.lt_iff_toNat_lt.mp below
  have less : Blend.fraction (2 ^ 24) (gapDepth blob bands k gain) (gapWidth blob bands k) <
      2 ^ 24 := Blend.fraction_lt (by decide) (by unfold gapDepth gapWidth; omega)
  have order := Int32.le_iff_toInt_le.mp (ordered k inside)
  have within := @Blend.truncated_between (2 ^ 24)
    (Blend.fraction (2 ^ 24) (gapDepth blob bands k gain) (gapWidth blob bands k))
    (word k).toInt (word (k + 1)).toInt (by decide) (Int.natCast_nonneg _)
    (by exact_mod_cast less.le)
  rwa [min_eq_left order, max_eq_right order] at within

theorem gapWord_mono (ordered : WordsAscend word count) (inside : k + 1 < count)
    (less : gain ≤ deeper) :
    gapWord blob bands word k gain ≤ gapWord blob bands word k deeper := by
  have order := Int32.le_iff_toInt_le.mp (ordered k inside)
  have grows : gapDepth blob bands k gain ≤ gapDepth blob bands k deeper :=
    Nat.sub_le_sub_right (UInt32.le_iff_toNat_le.mp less) _
  apply Blend.truncated_mono (by decide) order
  exact Int.ofNat_le.mpr (Blend.fraction_mono grows)

/-- A word is between that of its band's record and that of the record below. -/
theorem BandsAscend.ladderWord_between (ascend : BandsAscend blob bands count)
    (ordered : WordsAscend word count) (on : interp ≠ 0) (bandsExist : 0 < count)
    (gain : UInt32) :
    (word (bandAt blob bands count gain - 1)).toInt ≤
        (ladderWord blob bands count interp word gain).toInt ∧
      (ladderWord blob bands count interp word gain).toInt ≤
        (word (bandAt blob bands count gain)).toInt := by
  have bound := bandOf_le count fun band => gain ≤ arIspLadderHi blob bands band
  change bandAt blob bands count gain ≤ count - 1 at bound
  rcases @walk_cases blob bands count interp on bandsExist gain with
    ⟨k, inside, band, above, below⟩ | ⟨verbatim, _⟩
  · rw [ascend.ladderWord_gap on inside above below word, band, Nat.add_sub_cancel]
    split
    · exact ⟨ordered.le (Nat.le_succ k) inside, Int.le_refl _⟩
    · exact gapWord_between ordered inside above below
  · rw [verbatim word]
    exact ⟨ordered.le (Nat.sub_le _ 1) (by omega), Int.le_refl _⟩

/-- The blend at the least fraction that is not zero. -/
def leastBlend (word : ℕ → Int32) (k : ℕ) : ℤ :=
  Blend.truncated (2 ^ 24) 1 (word k).toInt (word (k + 1)).toInt

/-- The word one count into a gap that is too wide for that. -/
theorem BandsAscend.ladderWord_first (ascend : BandsAscend blob bands count) (on : interp ≠ 0)
    (inside : k + 1 < count) (wide : 2 ^ 24 < gapWidth blob bands k) (word : ℕ → Int32) :
    ∃ gain, gapDepth blob bands k gain = 1 ∧
      (ladderWord blob bands count interp word gain).toInt = (word (k + 1)).toInt := by
  have bound := (arIspLadderLo blob bands (k + 1)).toNat_lt
  unfold gapWidth at wide
  have number : (UInt32.ofNat ((arIspLadderHi blob bands k).toNat + 1)).toNat =
      (arIspLadderHi blob bands k).toNat + 1 := by
    rw [UInt32.toNat_ofNat']
    omega
  have depth : gapDepth blob bands k
      (UInt32.ofNat ((arIspLadderHi blob bands k).toNat + 1)) = 1 := by
    unfold gapDepth
    omega
  refine ⟨_, depth, ?_⟩
  rw [ascend.ladderWord_gap on inside, depth]
  · exact if_pos wide
  · exact UInt32.lt_iff_toNat_lt.mpr (by omega)
  · exact UInt32.lt_iff_toNat_lt.mpr (by omega)

/-- Some gain in a gap that wide has the least fraction. -/
theorem BandsAscend.ladderWord_least (ascend : BandsAscend blob bands count) (on : interp ≠ 0)
    (inside : k + 1 < count) (wide : 2 ^ 24 < gapWidth blob bands k) (word : ℕ → Int32) :
    ∃ gain, 1 ≤ gapDepth blob bands k gain ∧
      (ladderWord blob bands count interp word gain).toInt = leastBlend word k := by
  have bound := (arIspLadderLo blob bands (k + 1)).toNat_lt
  have enough : ∃ depth, gapWidth blob bands k ≤ 2 ^ 24 * depth ∧
      2 ^ 24 * depth < gapWidth blob bands k + 2 ^ 24 :=
    ⟨(gapWidth blob bands k + 2 ^ 24 - 1) / 2 ^ 24, by omega, by omega⟩
  rcases enough with ⟨depth, reaches, short⟩
  have inGap : (arIspLadderHi blob bands k).toNat + depth <
      (arIspLadderLo blob bands (k + 1)).toNat := by
    unfold gapWidth at *
    omega
  have number : (UInt32.ofNat ((arIspLadderHi blob bands k).toNat + depth)).toNat =
      (arIspLadderHi blob bands k).toNat + depth := by
    rw [UInt32.toNat_ofNat']
    omega
  have deep : gapDepth blob bands k
      (UInt32.ofNat ((arIspLadderHi blob bands k).toNat + depth)) = depth := by
    unfold gapDepth
    omega
  have least : Blend.fraction (2 ^ 24) depth (gapWidth blob bands k) = 1 := by
    unfold Blend.fraction
    apply Nat.div_eq_of_lt_le <;> omega
  refine ⟨UInt32.ofNat ((arIspLadderHi blob bands k).toNat + depth), by omega, ?_⟩
  rw [ascend.ladderWord_gap on inside, deep, if_neg (by omega), gapWord, deep, least]
  · rfl
  · exact UInt32.lt_iff_toNat_lt.mpr (by omega)
  · exact UInt32.lt_iff_toNat_lt.mpr (by omega)

/-- What does not fall along the abscissa is at the least blend what it is one count into the
gap. -/
theorem BandsAscend.leastBlend_eq (ascend : BandsAscend blob bands count)
    (ordered : WordsAscend word count) (on : interp ≠ 0) (inside : k + 1 < count)
    (wide : 2 ^ 24 < gapWidth blob bands k) {f : ℤ → ℤ} (mono : ∀ v w, v ≤ w → f v ≤ f w)
    (rises : ∀ gain deeper, gain ≤ deeper →
      f (ladderWord blob bands count interp word gain).toInt ≤
        f (ladderWord blob bands count interp word deeper).toInt) :
    f (leastBlend word k) = f (word (k + 1)).toInt := by
  rcases ascend.ladderWord_first on inside wide word with ⟨first, one, upper⟩
  rcases ascend.ladderWord_least on inside wide word with ⟨gain, further, blend⟩
  have order : first ≤ gain := by
    apply UInt32.le_iff_toNat_le.mpr
    unfold gapDepth at one further
    omega
  have grows := rises first gain order
  rw [upper, blend] at grows
  apply le_antisymm _ grows
  apply mono
  have step := Int32.le_iff_toInt_le.mp (ordered k inside)
  have within := @Blend.truncated_between (2 ^ 24) 1 (word k).toInt (word (k + 1)).toInt
    (by decide) (by decide) (by decide)
  exact within.2.trans (max_eq_right step).le

/-- Inside one gap what is made of the word does not fall, where the least blend is harmless. -/
theorem BandsAscend.gap_mono (ascend : BandsAscend blob bands count)
    (ordered : WordsAscend word count) (on : interp ≠ 0) (inside : k + 1 < count)
    {f : ℤ → ℤ} (mono : ∀ v w, v ≤ w → f v ≤ f w)
    (harmless : 2 ^ 24 < gapWidth blob bands k → f (leastBlend word k) = f (word (k + 1)).toInt)
    (above : arIspLadderHi blob bands k < gain) (less : gain ≤ deeper)
    (below : deeper < arIspLadderLo blob bands (k + 1)) :
    f (ladderWord blob bands count interp word gain).toInt ≤
      f (ladderWord blob bands count interp word deeper).toInt := by
  have depth := UInt32.lt_iff_toNat_lt.mp above
  have rest := UInt32.lt_iff_toNat_lt.mp below
  have order := UInt32.le_iff_toNat_le.mp less
  rw [ascend.ladderWord_gap on inside above (UInt32.lt_of_le_of_lt less below) word,
    ascend.ladderWord_gap on inside (UInt32.lt_of_lt_of_le above less) below word]
  by_cases gainZero : 2 ^ 24 * gapDepth blob bands k gain < gapWidth blob bands k
  · rw [if_pos gainZero]
    split
    · exact le_rfl
    · next blends =>
        have wide : 2 ^ 24 < gapWidth blob bands k := by
          unfold gapDepth at gainZero
          omega
        have width : 0 < gapWidth blob bands k := by omega
        have step := Int32.le_iff_toInt_le.mp (ordered k inside)
        have positive := (@Blend.fraction_eq_zero_iff (2 ^ 24) (gapDepth blob bands k deeper) _
          width).not.mpr blends
        rw [← harmless wide]
        apply mono
        apply Blend.truncated_mono (by decide) step
        omega
  · have deeperBlends : ¬2 ^ 24 * gapDepth blob bands k deeper < gapWidth blob bands k := by
      unfold gapDepth at gainZero ⊢
      omega
    rw [if_neg gainZero, if_neg deeperBlends]
    exact mono _ _ (gapWord_mono ordered inside less)

/-- What is made of the word does not fall along the abscissa, for payload words that do not fall
from band to band, where no gap is so wide that a fraction of it truncates to zero, or where what
is made of its least blend is already what is made of the upper word. -/
theorem BandsAscend.monotone_iff (ascend : BandsAscend blob bands count)
    (ordered : WordsAscend word count) (on : interp ≠ 0) (bandsExist : 0 < count) {f : ℤ → ℤ}
    (mono : ∀ v w, v ≤ w → f v ≤ f w) :
    (∀ gain deeper, gain ≤ deeper →
      f (ladderWord blob bands count interp word gain).toInt ≤
        f (ladderWord blob bands count interp word deeper).toInt) ↔
      ∀ k, k + 1 < count → 2 ^ 24 < gapWidth blob bands k →
        f (leastBlend word k) = f (word (k + 1)).toInt := by
  constructor
  · intro rises k inside wide
    exact ascend.leastBlend_eq ordered on inside wide mono rises
  · intro harmless gain deeper less
    have bound := bandOf_le count fun band => deeper ≤ arIspLadderHi blob bands band
    change bandAt blob bands count deeper ≤ count - 1 at bound
    have gainBetween := ascend.ladderWord_between ordered on bandsExist gain
    have deeperBetween := ascend.ladderWord_between ordered on bandsExist deeper
    rcases (@bandAt_mono blob bands count _ _ less).lt_or_eq with earlier | same
    · have records := ordered.le (Nat.le_sub_one_of_lt earlier) (by omega)
      exact mono _ _ ((gainBetween.2.trans records).trans deeperBetween.1)
    · rcases @walk_cases blob bands count interp on bandsExist deeper with
        ⟨k, inside, band, _, below⟩ | ⟨verbatim, _⟩
      · rcases @walk_cases blob bands count interp on bandsExist gain with
          ⟨j, _, sameBand, gainAbove, _⟩ | ⟨_, reached⟩
        · have sameGap : j = k := by omega
          subst sameGap
          exact ascend.gap_mono ordered on inside mono (harmless j inside) gainAbove less below
        · rw [same, band] at reached
          exact absurd (UInt32.le_trans (reached (Nat.succ_pos k)) less) (UInt32.not_le.mpr below)
      · rw [verbatim word, ← same]
        exact mono _ _ gainBetween.2

end Abscissa

/-! ### The gap law -/

/-- The word in a gap is the truncated blend exactly where the fraction does not truncate to zero
or the two records agree, and the strength does not fall along the abscissa exactly where every gap
that is wide enough for such fractions joins records that the clamp makes equal.  The generic
reader reads that word of its ladder. -/
theorem ladderGapLaw_iff (blob : Bytes) :
    (∀ (bands count : ℕ) (interp : UInt32) (word : ℕ → Int32),
      BandsAscend blob bands count → interp ≠ 0 → ∀ k, k + 1 < count → ∀ gain,
        arIspLadderHi blob bands k < gain → gain < arIspLadderLo blob bands (k + 1) →
          ((ladderWord blob bands count interp word gain).toInt = gapWord blob bands word k gain ↔
            gapWidth blob bands k ≤ 2 ^ 24 * gapDepth blob bands k gain ∨
              word k = word (k + 1))) ∧
      (BandsAscend blob arIspCnfBlobBands arIspCnfBands →
        WordsAscend (cnfWord blob) arIspCnfBands →
          ((∀ gain deeper, gain ≤ deeper →
            arIspCnfStrengthFromBlob blob gain ≤ arIspCnfStrengthFromBlob blob deeper) ↔
              ∀ k, k + 1 < arIspCnfBands → 2 ^ 24 < gapWidth blob arIspCnfBlobBands k →
                clampStrength (leastBlend (cnfWord blob) k) =
                  clampStrength (cnfWord blob (k + 1)).toInt)) ∧
      ∀ (ladder : ArIspLadder) (bands count off : ℕ) (interp gain : UInt32),
        let selected := arIspLadderWalk blob bands count interp gain
        arIspLadderReadWord ladder blob selected.1 off selected.2 =
          (ladderWord blob bands count interp (payloadWord ladder blob off) gain).toUInt32 := by
  refine ⟨?_, ?_, fun ladder _ _ off _ _ => arIspLadderReadWord_eq ladder blob off _⟩
  · intro bands count interp word ascend on k inside gain above below
    exact ascend.gapLaw_iff on inside above below word
  · intro ascend ordered
    have on : arIspCnfInterp ≠ 0 := by decide
    have numbers (gain deeper : UInt32) :
        arIspCnfStrengthFromBlob blob gain ≤ arIspCnfStrengthFromBlob blob deeper ↔
          clampStrength (ladderWord blob arIspCnfBlobBands arIspCnfBands arIspCnfInterp
            (cnfWord blob) gain).toInt ≤
          clampStrength (ladderWord blob arIspCnfBlobBands arIspCnfBands arIspCnfInterp
            (cnfWord blob) deeper).toInt := by
      rw [← arIspCnfStrengthFromBlob_toNat, ← arIspCnfStrengthFromBlob_toNat, Int.ofNat_le]
      exact UInt32.le_iff_toNat_le
    simp only [numbers]
    exact ascend.monotone_iff ordered on (by decide) fun v w => clampStrength_mono

/-- A tuning file with these band edges, a strength of one in the first record and six in the
others. -/
def cnfFile (edges : List UInt8) : Bytes := fun offset =>
  if offset < arIspCnfBlobPayload then edges.getD (offset - arIspCnfBlobBands) 0
  else if (offset - arIspCnfBlobPayload) % arIspCnfBlobStride = arIspCnfWordStrength then
    [1].getD ((offset - arIspCnfBlobPayload) / arIspCnfBlobStride) 6
  else 0

/-- Edges from 1.0 on, a sixty-fourth apart. -/
def narrowEdges : List UInt8 :=
  (List.range 22).flatMap fun n => [0, 0, UInt8.ofNat (0x80 + 2 * n), 0x3f]

/-- A first band from 1.0 to 1.5, and the second from 1024.0 on. -/
def wideEdges : List UInt8 :=
  [0, 0, 0x80, 0x3f, 0, 0, 0xc0, 0x3f] ++
    (List.range 20).flatMap fun n => [0, 0, UInt8.ofNat (0x80 + 2 * n), 0x44]

theorem cnfFile_ordered {edges : List UInt8}
    (bands : ∀ k, k < 11 → arIspLadderLo (cnfFile edges) arIspCnfBlobBands k <
      arIspLadderHi (cnfFile edges) arIspCnfBlobBands k)
    (steps : ∀ k, k < 10 → arIspLadderHi (cnfFile edges) arIspCnfBlobBands k <
        arIspLadderLo (cnfFile edges) arIspCnfBlobBands (k + 1) ∧
      cnfWord (cnfFile edges) k ≤ cnfWord (cnfFile edges) (k + 1)) :
    BandsAscend (cnfFile edges) arIspCnfBlobBands arIspCnfBands ∧
      WordsAscend (cnfWord (cnfFile edges)) arIspCnfBands where
  left :=
    { band := bands
      gap := fun k inside => (steps k (Nat.lt_of_succ_lt_succ inside)).1 }
  right k inside := (steps k (Nat.lt_of_succ_lt_succ inside)).2

theorem narrow_ordered : BandsAscend (cnfFile narrowEdges) arIspCnfBlobBands arIspCnfBands ∧
    WordsAscend (cnfWord (cnfFile narrowEdges)) arIspCnfBands := by
  apply cnfFile_ordered <;> decide +kernel

theorem wide_ordered : BandsAscend (cnfFile wideEdges) arIspCnfBlobBands arIspCnfBands ∧
    WordsAscend (cnfWord (cnfFile wideEdges)) arIspCnfBands := by
  apply cnfFile_ordered <;> decide +kernel

/-- Half a gap above the first band, and the strength of the whole abscissa. -/
theorem ladderGapLaw_narrow :
    (ladderWord (cnfFile narrowEdges) arIspCnfBlobBands arIspCnfBands 1
        (cnfWord (cnfFile narrowEdges)) 67072).toInt =
      gapWord (cnfFile narrowEdges) arIspCnfBlobBands (cnfWord (cnfFile narrowEdges)) 0 67072 ∧
      ∀ gain deeper, gain ≤ deeper →
        arIspCnfStrengthFromBlob (cnfFile narrowEdges) gain ≤
          arIspCnfStrengthFromBlob (cnfFile narrowEdges) deeper := by
  rcases narrow_ordered with ⟨ascend, ordered⟩
  constructor
  · exact ((ladderGapLaw_iff _).1 _ _ _ (cnfWord (cnfFile narrowEdges)) ascend (by decide) 0
      (by decide) 67072 (by decide +kernel) (by decide +kernel)).mpr (.inl (by decide +kernel))
  · apply ((ladderGapLaw_iff _).2.1 ascend ordered).mpr
    intro k inside wide
    have narrow : ∀ k, k < 10 → gapWidth (cnfFile narrowEdges) arIspCnfBlobBands k ≤ 2 ^ 24 := by
      decide +kernel
    exact absurd wide (Nat.not_lt.mpr (narrow k (Nat.lt_of_succ_lt_succ inside)))

/-- One count above 1.5 the strength is six, and three counts further it is one again. -/
theorem not_ladderGapLaw :
    (¬∀ (blob : Bytes) (bands count : ℕ) (interp : UInt32) (word : ℕ → Int32),
      BandsAscend blob bands count → interp ≠ 0 → ∀ k, k + 1 < count → ∀ gain,
        arIspLadderHi blob bands k < gain → gain < arIspLadderLo blob bands (k + 1) →
          (ladderWord blob bands count interp word gain).toInt = gapWord blob bands word k gain) ∧
      ¬∀ blob, BandsAscend blob arIspCnfBlobBands arIspCnfBands →
        WordsAscend (cnfWord blob) arIspCnfBands → ∀ gain deeper, gain ≤ deeper →
          arIspCnfStrengthFromBlob blob gain ≤ arIspCnfStrengthFromBlob blob deeper := by
  rcases wide_ordered with ⟨ascend, ordered⟩
  constructor
  · intro law
    have first := law _ _ _ 1 (cnfWord (cnfFile wideEdges)) ascend (by decide) 0 (by decide) 98305
      (by decide +kernel) (by decide +kernel)
    exact absurd first (by decide +kernel)
  · intro rises
    have falls := rises _ ascend ordered 98305 98308 (by decide)
    exact absurd falls (by decide +kernel)

end MlKernel.Isp
