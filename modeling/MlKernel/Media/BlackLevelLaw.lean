import MlKernel.Media.BlackLevel
import MlKernel.Lib.Staircase

/-!
# The selection of the black level

A gain inside a pair of the ladder takes that entry alone, a gain between two pairs blends their
entries, and a gain outside the ladder takes the first or the last entry.
-/

namespace MlKernel.Media

open MlKernel.Isp

/-! ### The walk -/

/-- Whatever the file holds, the entry above the selected one exists. -/
theorem blcWalk_short (data : Bytes) (gain : UInt32) {remaining i sel : ℕ}
    (few : remaining + i + 1 = arIspBlcEntries) (start : sel + 1 < arIspBlcEntries) :
    blcWalk data gain remaining i sel + 1 < arIspBlcEntries := by
  induction remaining generalizing i sel with
  | zero => exact start
  | succ remaining ih =>
      unfold blcWalk
      split
      · exact start
      · exact ih (by omega) (by omega)

theorem blcSel_short (data : Bytes) (gain : UInt32) : blcSel data gain + 1 < arIspBlcEntries :=
  blcWalk_short data gain (by decide) (by decide)

/-- The bounds of a file as they are decoded. -/
def BlcDecodedLadder (data : Bytes) : Prop :=
  Staircase arIspBlcEntries (fun k => (blcFirst data k).toNat) fun k => (blcSecond data k).toNat

theorem blcWalk_passed {data : Bytes} (ladder : BlcDecodedLadder data) (gain : UInt32)
    {remaining i sel : ℕ} (few : remaining + i + 1 = arIspBlcEntries) (start : sel = i - 1)
    (low : sel = 0 ∨ (blcSecond data sel).toNat ≤ gain.toNat) :
    Staircase.Passed arIspBlcEntries (fun k => (blcSecond data k).toNat) gain.toNat
      (blcWalk data gain remaining i sel) := by
  have entries : arIspBlcEntries = 5 := rfl
  induction remaining generalizing i sel with
  | zero =>
      unfold blcWalk
      exact ⟨by omega, low, by omega⟩
  | succ remaining ih =>
      unfold blcWalk
      split
      · next stop =>
          rw [UInt32.lt_iff_toNat_lt] at stop
          refine ⟨by omega, low, ?_⟩
          intro inside
          exact Nat.lt_of_lt_of_le stop (ladder.second_le_second (by omega) (by omega))
      · next passed =>
          rw [UInt32.lt_iff_toNat_lt] at passed
          exact ih (by omega) (by omega) (.inr (by omega))

theorem blcSel_passed {data : Bytes} (ladder : BlcDecodedLadder data) (gain : UInt32) :
    Staircase.Passed arIspBlcEntries (fun k => (blcSecond data k).toNat) gain.toNat
      (blcSel data gain) :=
  blcWalk_passed ladder gain (by decide) rfl (.inl rfl)

/-! ### The entry that is loaded -/

/-- The entry that a gain selects or blends. -/
def blcSelected (data : Bytes) (gain : UInt32) : BlcEntry :=
  blcMixed (arIspBlcEntry data (blcSel data gain)) (arIspBlcEntry data (blcSel data gain + 1))
    (blcBlend gain (blcSecond data (blcSel data gain)) (blcFirst data (blcSel data gain + 1)))

section Selection

variable {data : Bytes} {gain : UInt32} {k : ℕ}

/-- A gain in the range of an entry takes that entry alone. -/
theorem blcSelected_band (ladder : BlcDecodedLadder data) (inside : k < arIspBlcEntries)
    (low : (blcFirst data k).toNat ≤ gain.toNat) (high : gain.toNat ≤ (blcSecond data k).toNat) :
    blcSelected data gain = arIspBlcEntry data k := by
  rcases (blcSel_passed ladder gain).band ladder inside low high with same | ⟨next, passed⟩
  · have alone : gain ≤ blcSecond data (blcSel data gain) := by
      rw [← same]
      exact UInt32.le_iff_toNat_le.mpr high
    rw [blcSelected, blcBlend_low alone, blcMixed_one, same]
  · have gap := ladder.gap (blcSel data gain) (blcSel_short data gain)
    have alone : blcFirst data (blcSel data gain + 1) ≤ gain := by
      rw [← next]
      exact UInt32.le_iff_toNat_le.mpr low
    rw [blcSelected, blcBlend_high (UInt32.lt_iff_toNat_lt.mpr gap) alone, blcMixed_zero, next]

theorem blcSelected_below (ladder : BlcDecodedLadder data)
    (below : gain.toNat < (blcFirst data 0).toNat) :
    blcSelected data gain = arIspBlcEntry data 0 := by
  have first := (blcSel_passed ladder gain).below ladder below
  have band := ladder.band 0 (by decide)
  have alone : gain ≤ blcSecond data 0 := by
    rw [UInt32.le_iff_toNat_le]
    omega
  rw [blcSelected, first, blcBlend_low alone, blcMixed_one]

theorem blcSelected_above (ladder : BlcDecodedLadder data)
    (above : (blcSecond data 4).toNat < gain.toNat) :
    blcSelected data gain = arIspBlcEntry data 4 := by
  have last := (blcSel_passed ladder gain).above ladder above
  have top : blcSel data gain = 3 := Nat.add_right_cancel last
  have gap := ladder.gap 3 (by decide)
  have band := ladder.band 4 (by decide)
  have alone : blcFirst data 4 ≤ gain := by
    rw [UInt32.le_iff_toNat_le]
    omega
  rw [blcSelected, top, blcBlend_high (UInt32.lt_iff_toNat_lt.mpr gap) alone, blcMixed_zero]

/-- A gain between two ranges blends the entries of both. -/
theorem blcSelected_gap (ladder : BlcDecodedLadder data) (inside : k + 1 < arIspBlcEntries)
    (above : (blcSecond data k).toNat < gain.toNat)
    (below : gain.toNat < (blcFirst data (k + 1)).toNat) :
    ∃ blend : UInt32,
      blend.toNat = 65536 - Blend.fraction 65536 (gain.toNat - (blcSecond data k).toNat)
        ((blcFirst data (k + 1)).toNat - (blcSecond data k).toNat) ∧
      blcSelected data gain =
        blcMixed (arIspBlcEntry data k) (arIspBlcEntry data (k + 1)) blend := by
  have same := (blcSel_passed ladder gain).gap ladder inside above below
  refine ⟨_, blcBlend_gap (UInt32.lt_iff_toNat_lt.mpr above) (UInt32.lt_iff_toNat_lt.mpr below), ?_⟩
  rw [blcSelected, ← same]

end Selection

/-- What is written for a complete file. -/
theorem arCvispBlcApply_bank {fw : Firmware}
    (complete : arIspBlcBlobTable + arIspBlcEntries * arIspBlcEntrySize ≤ fw.size)
    (gain : UInt32) (block : Bytes) :
    arCvispBlcApply true (some fw) gain block = blcBank (blcSelected fw.data gain) := by
  have long : ¬fw.size < arIspBlcBlobTable + arIspBlcEntries * arIspBlcEntrySize :=
    Nat.not_lt.mpr complete
  simp only [arCvispBlcApply, if_pos, if_neg long, blcBank]
  apply List.map_congr_left
  intro j mem
  rw [arIspBlcFill_word _ _ _ _ (List.mem_range.mp mem)]
  rfl

/-! ### The bytes that are read -/

section Locality

variable {data other : Bytes}

theorem blcWalk_congr (gain : UInt32) {remaining i : ℕ} (sel : ℕ)
    (same : ∀ k, k < remaining + i → blcSecond data k = blcSecond other k) :
    blcWalk data gain remaining i sel = blcWalk other gain remaining i sel := by
  induction remaining generalizing i sel with
  | zero => rfl
  | succ remaining ih =>
      unfold blcWalk
      rw [same i (by omega), ih i fun k inside => same k (by omega)]

/-- No byte past the table's last entry takes part. -/
theorem blcBank_congr (gain : UInt32)
    (same : ∀ cell, cell < arIspBlcBlobTable + arIspBlcEntries * arIspBlcEntrySize →
      data cell = other cell) :
    blcBank (blcSelected data gain) = blcBank (blcSelected other gain) := by
  have word (offset : ℕ) (inside : offset + 4 ≤ 0x154) :
      arIspGetLe32 data offset = arIspGetLe32 other offset :=
    arIspGetLe32_congr fun cell _ below => same cell (Nat.lt_of_lt_of_le below inside)
  have first (k : ℕ) (inside : k < 5) : blcFirst data k = blcFirst other k :=
    congrArg arCvispF32ToU32 (word _ (by unfold arIspBlcBlobLadder; omega))
  have second (k : ℕ) (inside : k < 5) : blcSecond data k = blcSecond other k :=
    congrArg arCvispF32ToU32 (word _ (by unfold arIspBlcBlobLadder; omega))
  have walk : blcSel data gain = blcSel other gain :=
    blcWalk_congr gain 0 fun k inside => second k (Nat.lt_succ_of_lt inside)
  have short : blcSel other gain + 1 < 5 := blcSel_short other gain
  have scale (k i : ℕ) (inside : k < 5) (lane : i < 4) :
      (arIspBlcEntry data k).scale i = (arIspBlcEntry other k).scale i :=
    word _ (by unfold arIspBlcBlobTable arIspBlcEntrySize; omega)
  have level (k i : ℕ) (inside : k < 5) (lane : i < 4) :
      (arIspBlcEntry data k).level i = (arIspBlcEntry other k).level i :=
    word _ (by unfold arIspBlcBlobTable arIspBlcEntrySize arIspBlcGroupOff; omega)
  apply List.map_congr_left
  intro j _
  have lane : j % 4 < 4 := Nat.mod_lt j (by decide)
  simp only [blcWord, blcSelected, blcMixed, walk, first _ short,
    second (blcSel other gain) (by omega), scale _ _ short lane, level _ _ short lane,
    scale (blcSel other gain) _ (by omega) lane, level (blcSel other gain) _ (by omega) lane]

end Locality

/-! ### The law of the ladder -/

/-- The first gain of pair `k`, truncated. -/
def blcLow (data : Bytes) (k : ℕ) : ℤ :=
  Binary32.truncated (arIspGetLe32 data (arIspBlcBlobLadder + k * 8))

/-- The second gain of pair `k`, truncated. -/
def blcHigh (data : Bytes) (k : ℕ) : ℤ :=
  Binary32.truncated (arIspGetLe32 data (arIspBlcBlobLadder + k * 8 + 4))

/-- The ladder of a file, in the integers that its bounds truncate to. -/
def BlcLadder (data : Bytes) : Prop := Staircase arIspBlcEntries (blcLow data) (blcHigh data)

/-- The lowest range reaches zero or more, and the highest one starts below 2^31. -/
structure BlcInRange (data : Bytes) : Prop where
  low : 0 ≤ blcHigh data 0
  high : blcLow data 4 < 2 ^ 31

/-- The weight of the upper entry between two pairs. -/
def blcWeight (data : Bytes) (k gain : ℕ) : ℤ :=
  65536 * (gain - blcHigh data k) / (blcLow data (k + 1) - blcHigh data k)

/-- The value that the weight `w` of the high value gives. -/
def blcWeighed (w : ℤ) (lo hi : UInt32) : ℤ :=
  (lo.toNat * (65536 - w) + hi.toNat * w) / 65536

/-- The entry that a gain has to load. -/
structure BlcSelects (data : Bytes) (gain : ℕ) (e : BlcEntry) : Prop where
  band : ∀ k, k < 5 → blcLow data k ≤ gain → gain ≤ blcHigh data k → e = arIspBlcEntry data k
  gap : ∀ k, k + 1 < 5 → blcHigh data k < gain → gain < blcLow data (k + 1) → ∀ i,
    ((e.scale i).toNat : ℤ) =
        blcWeighed (blcWeight data k gain) ((arIspBlcEntry data k).scale i)
          ((arIspBlcEntry data (k + 1)).scale i) ∧
      ((e.level i).toNat : ℤ) =
        blcWeighed (blcWeight data k gain) ((arIspBlcEntry data k).level i)
          ((arIspBlcEntry data (k + 1)).level i)
  below : gain < blcLow data 0 → e = arIspBlcEntry data 0
  above : blcHigh data 4 < gain → e = arIspBlcEntry data 4

/-- `v` lies between two values. -/
def BlcBetween (lo hi v : UInt32) : Prop :=
  min lo.toNat hi.toNat ≤ v.toNat ∧ v.toNat ≤ max lo.toNat hi.toNat

section Law

variable {data : Bytes} {k : ℕ}

/-- Only the lowest first bound can be negative. -/
theorem BlcLadder.first_decodes (ladder : BlcLadder data) (range : BlcInRange data)
    (inside : k < arIspBlcEntries) : ((blcFirst data k).toNat : ℤ) = max 0 (blcLow data k) := by
  have short : blcLow data k < 2 ^ 31 := by
    rcases Nat.lt_or_eq_of_le (Nat.le_of_lt_succ inside) with below | top
    · have band := ladder.band k inside
      have order := ladder.second_lt_first below (by decide)
      have finish := range.high
      omega
    · rw [top]
      exact range.high
  exact (arCvispF32ToU32_truncated _).trans (if_pos short)

/-- Only the highest second bound can be saturated. -/
theorem BlcLadder.second_decodes (ladder : BlcLadder data) (range : BlcInRange data)
    (inside : k < arIspBlcEntries) :
    0 ≤ blcHigh data k ∧ ((blcSecond data k).toNat : ℤ) =
      if blcHigh data k < 2 ^ 31 then blcHigh data k else 2 ^ 32 - 1 := by
  have least := ladder.second_le_second (Nat.zero_le k) inside
  have positive : 0 ≤ blcHigh data k := range.low.trans least
  refine ⟨positive, (arCvispF32ToU32_truncated _).trans ?_⟩
  exact congrArg (fun number => if blcHigh data k < 2 ^ 31 then number else 2 ^ 32 - 1)
    (max_eq_right positive)

/-- Between two pairs both bounds are truncated. -/
theorem BlcLadder.gap_decodes (ladder : BlcLadder data) (range : BlcInRange data)
    (inside : k + 1 < arIspBlcEntries) :
    ((blcSecond data k).toNat : ℤ) = blcHigh data k ∧
      ((blcFirst data (k + 1)).toNat : ℤ) = blcLow data (k + 1) := by
  have gap := ladder.gap k inside
  have first := ladder.first_decodes range inside
  rcases ladder.second_decodes range (Nat.lt_of_succ_lt inside) with ⟨positive, second⟩
  have order := ladder.second_lt_first (Nat.lt_of_succ_lt_succ inside : k < 4) (by decide)
  have finish := range.high
  rw [if_pos (by omega)] at second
  rw [max_eq_right (by omega)] at first
  exact ⟨second, first⟩

theorem BlcLadder.decoded (ladder : BlcLadder data) (range : BlcInRange data) :
    BlcDecodedLadder data where
  band k inside := by
    have band := ladder.band k inside
    have small := (blcFirst data k).toNat_lt
    have first := ladder.first_decodes range inside
    rcases ladder.second_decodes range inside with ⟨positive, second⟩
    split at second <;> omega
  gap k inside := by
    have gap := ladder.gap k inside
    rcases ladder.gap_decodes range inside with ⟨second, first⟩
    omega

theorem arIspBlcMix_weighed (lo hi : UInt32) {blend : UInt32} {w : ℕ} (small : w ≤ 65536)
    (weight : blend.toNat = 65536 - w) :
    ((arIspBlcMix lo hi blend).toNat : ℤ) = blcWeighed w lo hi := by
  rw [arIspBlcMix_toNat lo hi (by omega), weight, Nat.sub_sub_self small, blcWeighed]
  push_cast [small]
  rfl

theorem blcSelected_selects (ladder : BlcLadder data) (range : BlcInRange data) (gain : UInt32) :
    BlcSelects data gain.toNat (blcSelected data gain) where
  band k inside low high := by
    have small := gain.toNat_lt
    have first := ladder.first_decodes range inside
    have second := (ladder.second_decodes range inside).2
    refine blcSelected_band (ladder.decoded range) inside (by omega) ?_
    split at second <;> omega
  gap k inside above below i := by
    rcases ladder.gap_decodes range inside with ⟨second, first⟩
    have passed : (blcSecond data k).toNat < gain.toNat := by omega
    have short : gain.toNat < (blcFirst data (k + 1)).toNat := by omega
    rcases blcSelected_gap (ladder.decoded range) inside passed short with
      ⟨blend, weight, selected⟩
    have less : Blend.fraction 65536 (gain.toNat - (blcSecond data k).toNat)
        ((blcFirst data (k + 1)).toNat - (blcSecond data k).toNat) < 65536 :=
      Blend.fraction_lt (by decide) (by omega)
    have same : ((Blend.fraction 65536 (gain.toNat - (blcSecond data k).toNat)
        ((blcFirst data (k + 1)).toNat - (blcSecond data k).toNat) : ℕ) : ℤ) =
          blcWeight data k gain.toNat := by
      rw [Blend.fraction, blcWeight, ← first, ← second]
      push_cast [Nat.cast_sub (by omega : (blcSecond data k).toNat ≤ gain.toNat),
        Nat.cast_sub (by omega : (blcSecond data k).toNat ≤ (blcFirst data (k + 1)).toNat)]
      rfl
    rw [selected, ← same]
    exact ⟨arIspBlcMix_weighed _ _ (Nat.le_of_lt less) weight,
      arIspBlcMix_weighed _ _ (Nat.le_of_lt less) weight⟩
  below low := by
    have first := ladder.first_decodes range (by decide : 0 < arIspBlcEntries)
    exact blcSelected_below (ladder.decoded range) (by omega)
  above high := by
    have small := gain.toNat_lt
    have band := ladder.band 4 (by decide)
    have first := ladder.first_decodes range (by decide : 4 < arIspBlcEntries)
    rcases ladder.second_decodes range (by decide : 4 < arIspBlcEntries) with ⟨positive, second⟩
    split at second
    · exact blcSelected_above (ladder.decoded range) (by omega)
    · exact blcSelected_band (ladder.decoded range) (by decide) (by omega) (by omega)

end Law

/-- The registers hold the entry of the gain's range, the blend of its gap, or the entry at the
end of the ladder that it lies beyond. -/
theorem arCvispBlcApply_selects (fw : Firmware) (ladder : BlcLadder fw.data)
    (range : BlcInRange fw.data) (gain : UInt32) (block : Bytes) :
    (fw.size < arIspBlcBlobTable + arIspBlcEntries * arIspBlcEntrySize →
      arCvispBlcApply true (some fw) gain block = []) ∧
    (arIspBlcBlobTable + arIspBlcEntries * arIspBlcEntrySize ≤ fw.size →
      blcSel fw.data gain + 1 < arIspBlcEntries ∧
      ∃ e, arCvispBlcApply true (some fw) gain block = blcBank e ∧
        BlcSelects fw.data gain.toNat e ∧
        (∀ i, BlcBetween ((arIspBlcEntry fw.data (blcSel fw.data gain)).scale i)
            ((arIspBlcEntry fw.data (blcSel fw.data gain + 1)).scale i) (e.scale i) ∧
          BlcBetween ((arIspBlcEntry fw.data (blcSel fw.data gain)).level i)
            ((arIspBlcEntry fw.data (blcSel fw.data gain + 1)).level i) (e.level i)) ∧
        ∀ other, (∀ cell, cell < arIspBlcBlobTable + arIspBlcEntries * arIspBlcEntrySize →
            fw.data cell = other cell) →
          arCvispBlcApply true (some { fw with data := other }) gain block = blcBank e) := by
  constructor
  · intro short
    simp only [arCvispBlcApply, if_pos, if_pos short]
  · intro complete
    refine ⟨blcSel_short fw.data gain, blcSelected fw.data gain,
      arCvispBlcApply_bank complete gain block, blcSelected_selects ladder range gain, ?_, ?_⟩
    · intro i
      have small := blcBlend_le gain (blcSecond fw.data (blcSel fw.data gain))
        (blcFirst fw.data (blcSel fw.data gain + 1))
      exact ⟨arIspBlcMix_between _ _ small, arIspBlcMix_between _ _ small⟩
    · intro other same
      rw [blcBank_congr gain same]
      exact @arCvispBlcApply_bank { fw with data := other } complete gain block

/-! ### Two files -/

section Samples

open Binary32

/-- A file with these bounds and with the bytes of its offsets as entries. -/
def blcSampleFile (ladder : List UInt32) : Firmware where
  size := 0x154
  data off :=
    if arIspBlcBlobTable ≤ off then UInt8.ofNat off
    else
      (ladder.getD ((off - arIspBlcBlobLadder) / 4) 0 >>>
        UInt32.ofNat ((off - arIspBlcBlobLadder) % 4 * 8)).toUInt8

/-- The ranges 1 to 130, 510 to 512, 1024 to 1032, 1536 to 1544 and 1792 to 1800. -/
def blcSampleLadder : List UInt32 :=
  [0x3f800000, 0x43020000, 0x43ff0000, 0x44000000, 0x44800000, 0x44810000, 0x44c00000, 0x44c10000,
    0x44e00000, 0x44e10000]

/-- The same, with a last range from 2147483648 to 2147483904. -/
def blcSaturatedLadder : List UInt32 := blcSampleLadder.take 8 ++ [0x4f000000, 0x4f000001]

/-- Both bounds of a pair are decoded, to these numbers. -/
def BlcPair (data : Bytes) (k low high : ℕ) : Prop :=
  let first := arIspGetLe32 data (arIspBlcBlobLadder + k * 8)
  let second := arIspGetLe32 data (arIspBlcBlobLadder + k * 8 + 4)
  ((¬IsNegative first ∧ biased first ≤ 157) ∧ ¬IsNegative second ∧ biased second ≤ 157) ∧
    (blcFirst data k).toNat = low ∧ (blcSecond data k).toNat = high

instance (data : Bytes) (k low high : ℕ) : Decidable (BlcPair data k low high) :=
  inferInstanceAs (Decidable (_ ∧ _))

theorem BlcPair.bounds {data : Bytes} {k low high : ℕ} (pair : BlcPair data k low high) :
    blcLow data k = low ∧ blcHigh data k = high := by
  rcases pair with ⟨⟨first, second⟩, rfl, rfl⟩
  exact ⟨truncated_eq_decoded first.1 first.2, truncated_eq_decoded second.1 second.2⟩

/-- Five pairs in ascending order are a ladder. -/
theorem blcLadder_of_bounds {data : Bytes} {lows highs : ℕ → ℕ}
    (bounds : ∀ k, k < 5 → blcLow data k = lows k ∧ blcHigh data k = highs k)
    (band : ∀ k, k < 5 → lows k ≤ highs k) (gap : ∀ k, k < 4 → highs k < lows (k + 1)) :
    BlcLadder data where
  band k inside := by
    rw [(bounds k inside).1, (bounds k inside).2]
    exact_mod_cast band k inside
  gap k inside := by
    rw [(bounds k (Nat.lt_of_succ_lt inside)).2, (bounds (k + 1) inside).1]
    exact_mod_cast gap k (Nat.lt_of_succ_lt_succ inside)

theorem blcSampleFile_bounds (k : ℕ) (inside : k < 5) :
    blcLow (blcSampleFile blcSampleLadder).data k =
        ([1, 510, 1024, 1536, 1792].getD k 0 : ℕ) ∧
      blcHigh (blcSampleFile blcSampleLadder).data k =
        ([130, 512, 1032, 1544, 1800].getD k 0 : ℕ) := by
  have pairs : ∀ k, k < 5 → BlcPair (blcSampleFile blcSampleLadder).data k
      ([1, 510, 1024, 1536, 1792].getD k 0) ([130, 512, 1032, 1544, 1800].getD k 0) := by
    decide +kernel
  exact (pairs k inside).bounds

/-- At gain 187 the second entry weighs 65536 * 57 / 380. -/
theorem arCvispBlcApply_selects_sample :
    ∃ e, arCvispBlcApply true (some (blcSampleFile blcSampleLadder)) 187 (fun _ => 0) =
        blcBank e ∧
      ((e.scale 0).toNat : ℤ) =
        blcWeighed 9830 ((arIspBlcEntry (blcSampleFile blcSampleLadder).data 0).scale 0)
          ((arIspBlcEntry (blcSampleFile blcSampleLadder).data 1).scale 0) := by
  have bounds := blcSampleFile_bounds
  have ladder : BlcLadder (blcSampleFile blcSampleLadder).data :=
    blcLadder_of_bounds bounds (by decide) (by decide)
  have range : BlcInRange (blcSampleFile blcSampleLadder).data := by
    refine ⟨?_, ?_⟩
    · rw [(bounds 0 (by decide)).2]
      decide
    · rw [(bounds 4 (by decide)).1]
      decide
  have selects := (arCvispBlcApply_selects (blcSampleFile blcSampleLadder) ladder range 187
    fun _ => 0).2 (by decide)
  rcases selects with ⟨-, e, written, law, -, -⟩
  have second := (bounds 0 (by decide)).2
  have first := (bounds 1 (by decide)).1
  have lane := law.gap 0 (by decide) (by rw [second]; decide) (by rw [first]; decide) 0
  rw [blcWeight, second, first] at lane
  exact ⟨e, written, lane.1⟩

/-- A whole number is its own truncation. -/
theorem truncated_of_value {bits : UInt32} {n : ℤ} (plus : ¬IsNegative bits)
    (whole : value bits = n) : truncated bits = n := by
  rw [truncated_of_nonneg plus, whole, Int.floor_intCast]

theorem blcSaturatedFile_top :
    blcLow (blcSampleFile blcSaturatedLadder).data 4 = 2147483648 ∧
      blcHigh (blcSampleFile blcSaturatedLadder).data 4 = 2147483904 := by
  have first : arIspGetLe32 (blcSampleFile blcSaturatedLadder).data
      (arIspBlcBlobLadder + 4 * 8) = 0x4f000000 := by
    decide +kernel
  have second : arIspGetLe32 (blcSampleFile blcSaturatedLadder).data
      (arIspBlcBlobLadder + 4 * 8 + 4) = 0x4f000001 := by
    decide +kernel
  have fields : significand 0x4f000000 = 8388608 ∧ significand 0x4f000001 = 8388609 ∧
      exponent 0x4f000000 = 8 ∧ exponent 0x4f000001 = 8 := by
    decide +kernel
  rcases fields with ⟨low, high, lowWeight, highWeight⟩
  rw [blcLow, blcHigh, first, second]
  constructor
  · apply truncated_of_value (by decide)
    rw [value_of_nonneg (by decide), low, lowWeight]
    norm_num
  · apply truncated_of_value (by decide)
    rw [value_of_nonneg (by decide), high, highWeight]
    norm_num

theorem blcSaturatedFile_bounds (k : ℕ) (inside : k < 5) :
    blcLow (blcSampleFile blcSaturatedLadder).data k =
        ([1, 510, 1024, 1536, 2147483648].getD k 0 : ℕ) ∧
      blcHigh (blcSampleFile blcSaturatedLadder).data k =
        ([130, 512, 1032, 1544, 2147483904].getD k 0 : ℕ) := by
  have pairs : ∀ k, k < 4 → BlcPair (blcSampleFile blcSaturatedLadder).data k
      ([1, 510, 1024, 1536, 2147483648].getD k 0)
      ([130, 512, 1032, 1544, 2147483904].getD k 0) := by
    decide +kernel
  rcases Nat.lt_or_eq_of_le (Nat.le_of_lt_succ inside) with below | top
  · exact (pairs k below).bounds
  · subst top
    exact blcSaturatedFile_top

/-- The decoder saturates at 2^31: a gain inside the last range does not take its entry alone. -/
theorem not_arCvispBlcApply_selects :
    ¬∀ (fw : Firmware) (gain : UInt32) (block : Bytes), BlcLadder fw.data →
      arIspBlcBlobTable + arIspBlcEntries * arIspBlcEntrySize ≤ fw.size →
      ∃ e, arCvispBlcApply true (some fw) gain block = blcBank e ∧
        BlcSelects fw.data gain.toNat e := by
  intro selects
  have bounds := blcSaturatedFile_bounds
  have ladder : BlcLadder (blcSampleFile blcSaturatedLadder).data :=
    blcLadder_of_bounds bounds (by decide) (by decide)
  rcases selects (blcSampleFile blcSaturatedLadder) 2147483748 (fun _ => 0) ladder (by decide) with
    ⟨e, written, law⟩
  have alone := law.band 4 (by decide) (by rw [(bounds 4 (by decide)).1]; decide)
    (by rw [(bounds 4 (by decide)).2]; decide)
  rw [alone] at written
  have mixed : (arCvispBlcApply true (some (blcSampleFile blcSaturatedLadder)) 2147483748
      (fun _ => 0)).head? ≠
        (blcBank (arIspBlcEntry (blcSampleFile blcSaturatedLadder).data 4)).head? := by
    decide +kernel
  exact mixed (congrArg List.head? written)

end Samples

end MlKernel.Media
