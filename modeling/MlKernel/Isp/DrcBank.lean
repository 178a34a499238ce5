import MlKernel.Isp.Words
import MlKernel.Isp.ToneSelect

/-!
# The DRC bank

Every record of a bank holds three samples of twenty bits, the last of which is the first one of
the record after it, and a second copy of the middle one.  Reading the lanes back gives the curve
that was packed, and the page built from the tuning file holds the blend of its two profiles.
-/

namespace MlKernel.Isp

/-! ### The documented lane map -/

def arIspDrcSamples : ℕ := 257

/-- The word at an offset of record `i`. -/
def drcWord (page : Bytes) (dst i off : ℕ) : UInt32 := arIspGetLe32 page (dst + i * 16 + off)

/-- A lane of record `i`; the third one is continued in the half word at eight. -/
def drcLane (page : Bytes) (dst i lane : ℕ) : UInt32 :=
  match lane with
  | 0 => drcWord page dst i 0 &&& 0xfffff
  | 1 => (drcWord page dst i 0 >>> 20) ||| ((drcWord page dst i 4 &&& 0xff) <<< 12)
  | _ => (drcWord page dst i 4 >>> 28) ||| ((drcWord page dst i 8 &&& 0xffff) <<< 4)

/-- The second copy of the middle lane. -/
def drcMiddleCopy (page : Bytes) (dst i : ℕ) : UInt32 :=
  (drcWord page dst i 4 >>> 8) &&& (0xfffff : UInt32)

/-- Sample `n`, from the record it is in; the last one is only in a third lane. -/
def drcSample (page : Bytes) (dst n : ℕ) : UInt32 :=
  if n / 2 < arIspDrcRecords then drcLane page dst (n / 2) (n % 2)
  else drcLane page dst (arIspDrcRecords - 1) 2

/-- What a bank says of the curve it encodes. -/
structure EncodesBank (page : Bytes) (dst : ℕ) (samples : ℕ → UInt32) : Prop where
  recovers : ∀ n, n < arIspDrcSamples →
    (drcSample page dst n).toNat = (samples n).toNat % 2 ^ 20
  copies : ∀ i, i < arIspDrcRecords → drcMiddleCopy page dst i = drcLane page dst i 1
  linked : ∀ i, i + 1 < arIspDrcRecords → drcLane page dst i 2 = drcLane page dst (i + 1) 0
  unassigned : ∀ i, i < arIspDrcRecords →
    drcWord page dst i 8 >>> 16 = 0 ∧ drcWord page dst i 12 = 0

/-! ### One record -/

/-- Three samples of twenty bits, as a record packs them. -/
structure HoldsLanes (page : Bytes) (dst i : ℕ) (s0 s1 s2 : UInt32) : Prop where
  word0 : drcWord page dst i 0 = s0 ||| (s1 <<< 20)
  word1 : drcWord page dst i 4 = (s1 >>> 12) ||| (s1 <<< 8) ||| (s2 <<< 28)
  word2 : (drcWord page dst i 8).toNat = (s2 >>> 4).toUInt16.toNat
  word3 : drcWord page dst i 12 = 0
  fits0 : s0.toNat < 2 ^ 20
  fits1 : s1.toNat < 2 ^ 20
  fits2 : s2.toNat < 2 ^ 20

section Holds

variable {page : Bytes} {dst i : ℕ} {s0 s1 s2 : UInt32}

theorem HoldsLanes.word0_toNat (holds : HoldsLanes page dst i s0 s1 s2) :
    (drcWord page dst i 0).toNat = s0.toNat + s1.toNat % 2 ^ 12 * 2 ^ 20 := by
  rw [holds.word0]
  exact or_shift_toNat_mod rfl (by decide) holds.fits0

theorem HoldsLanes.word1_toNat (holds : HoldsLanes page dst i s0 s1 s2) :
    (drcWord page dst i 4).toNat =
      s1.toNat / 2 ^ 12 + s1.toNat * 2 ^ 8 + s2.toNat % 2 ^ 4 * 2 ^ 28 := by
  have fits := holds.fits1
  have high := @high_bits s1 12 12 rfl (by decide)
  have two := @or_shift_toNat (s1 >>> 12) s1 8 8 rfl (by decide) (by omega) (by omega)
  rw [holds.word1, @or_shift_toNat_mod _ _ 28 28 rfl (by decide) (by rw [two]; omega), two, high]

theorem HoldsLanes.word2_toNat (holds : HoldsLanes page dst i s0 s1 s2) :
    (drcWord page dst i 8).toNat = s2.toNat / 2 ^ 4 := by
  have fits := holds.fits2
  have high := @high_bits s2 4 4 rfl (by decide)
  rw [holds.word2, UInt32.toNat_toUInt16, high]
  omega

theorem HoldsLanes.lane0 (holds : HoldsLanes page dst i s0 s1 s2) :
    drcLane page dst i 0 = s0 := by
  have fits := holds.fits0
  apply UInt32.toNat_inj.mp
  rw [drcLane, @low_bits _ 0xfffff 20 rfl, holds.word0_toNat]
  omega

theorem HoldsLanes.lane1 (holds : HoldsLanes page dst i s0 s1 s2) :
    drcLane page dst i 1 = s1 := by
  have fits0 := holds.fits0
  have fits1 := holds.fits1
  have low : (drcWord page dst i 0 >>> 20).toNat = s1.toNat % 2 ^ 12 := by
    rw [@high_bits _ 20 20 rfl (by decide), holds.word0_toNat]
    omega
  have high : (drcWord page dst i 4 &&& (0xff : UInt32)).toNat = s1.toNat / 2 ^ 12 := by
    rw [@low_bits _ 0xff 8 rfl, holds.word1_toNat]
    omega
  apply UInt32.toNat_inj.mp
  rw [drcLane, @or_shift_toNat _ _ 12 12 rfl (by decide) (by omega) (by omega), low, high]
  omega

theorem HoldsLanes.lane2 (holds : HoldsLanes page dst i s0 s1 s2) :
    drcLane page dst i 2 = s2 := by
  have fits1 := holds.fits1
  have fits2 := holds.fits2
  have low : (drcWord page dst i 4 >>> 28).toNat = s2.toNat % 2 ^ 4 := by
    rw [@high_bits _ 28 28 rfl (by decide), holds.word1_toNat]
    omega
  have high : (drcWord page dst i 8 &&& (0xffff : UInt32)).toNat = s2.toNat / 2 ^ 4 := by
    rw [@low_bits _ 0xffff 16 rfl, holds.word2_toNat]
    omega
  apply UInt32.toNat_inj.mp
  rw [drcLane, @or_shift_toNat _ _ 4 4 rfl (by decide) (by omega) (by omega), low, high]
  · omega
  · nofun
  · nofun

theorem HoldsLanes.middleCopy (holds : HoldsLanes page dst i s0 s1 s2) :
    drcMiddleCopy page dst i = s1 := by
  have fits := holds.fits1
  have above : (s1.toNat / 2 ^ 12 + s1.toNat * 2 ^ 8 + s2.toNat % 2 ^ 4 * 2 ^ 28) / 2 ^ 8 =
      s1.toNat + s2.toNat % 2 ^ 4 * 2 ^ 20 := by omega
  apply UInt32.toNat_inj.mp
  rw [drcMiddleCopy, @low_bits _ 0xfffff 20 rfl, @high_bits _ 8 8 rfl (by decide),
    holds.word1_toNat, above]
  omega

theorem HoldsLanes.unassigned (holds : HoldsLanes page dst i s0 s1 s2) :
    drcWord page dst i 8 >>> 16 = 0 ∧ drcWord page dst i 12 = 0 := by
  have fits := holds.fits2
  refine ⟨?_, holds.word3⟩
  apply UInt32.toNat_inj.mp
  rw [@high_bits _ 16 16 rfl (by decide), holds.word2_toNat]
  apply Nat.div_eq_of_lt
  omega

end Holds

/-! ### The bank -/

/-- A sample as it is packed. -/
def packedLane (samples : ℕ → UInt32) (n : ℕ) : UInt32 := samples n &&& arIspDrcLaneMax

section Pack

variable {dst i off : ℕ} {samples : ℕ → UInt32}

theorem packedLane_toNat (samples : ℕ → UInt32) (n : ℕ) :
    (packedLane samples n).toNat = (samples n).toNat % 2 ^ 20 :=
  low_bits _ _ rfl

theorem packedLane_fits (samples : ℕ → UInt32) (n : ℕ) :
    (packedLane samples n).toNat < 2 ^ 20 := by
  rw [packedLane_toNat]
  exact Nat.mod_lt _ (by decide)

/-- A word of the bank is that of its own record's round. -/
theorem drcPackBank_word (inside : i < arIspDrcRecords) (within : off + 4 ≤ 16)
    (memory : Bytes) :
    drcWord (arIspDrcPackBank dst samples memory) dst i off =
      arIspGetLe32
        (arIspDrcRecord (dst + i * 16) (packedLane samples (2 * i))
          (packedLane samples (2 * i + 1)) (packedLane samples (2 * i + 2)) memory)
        (dst + i * 16 + off) := by
  apply arIspGetLe32_congr
  intro cell low high
  have round (k : ℕ) := drcRecord_fills (dst + k * 16) (packedLane samples (2 * k))
    (packedLane samples (2 * k + 1)) (packedLane samples (2 * k + 2))
  have stop (k : ℕ) : dst + k * 16 + 16 = dst + (k + 1) * 16 := by omega
  simp only [stop] at round
  exact Fills.fold_record (fun k _ => round k) inside memory (by omega) (by omega)

theorem drcPackBank_record (inside : i < arIspDrcRecords) (memory : Bytes) :
    HoldsLanes (arIspDrcPackBank dst samples memory) dst i (packedLane samples (2 * i))
      (packedLane samples (2 * i + 1)) (packedLane samples (2 * i + 2)) where
  word0 := by
    rw [drcPackBank_word inside (by decide) memory, arIspDrcRecord,
      arIspGetLe32_putLe32_of_ne _ _ (by omega), arIspGetLe32_putLe16_of_ne _ _ (by omega),
      arIspGetLe32_putLe16_of_ne _ _ (by omega), arIspGetLe32_putLe32_of_ne _ _ (by omega)]
    exact arIspGetLe32_putLe32 _ _ _
  word1 := by
    rw [drcPackBank_word inside (by decide) memory, arIspDrcRecord,
      arIspGetLe32_putLe32_of_ne _ _ (by omega), arIspGetLe32_putLe16_of_ne _ _ (by omega),
      arIspGetLe32_putLe16_of_ne _ _ (by omega)]
    exact arIspGetLe32_putLe32 _ _ _
  word2 := by
    rw [drcPackBank_word inside (by decide) memory, arIspDrcRecord,
      arIspGetLe32_putLe32_of_ne _ _ (by omega)]
    exact arIspGetLe32_putLe16 _ _ 0 _
  word3 := by
    rw [drcPackBank_word inside (by decide) memory, arIspDrcRecord]
    exact arIspGetLe32_putLe32 _ _ _
  fits0 := packedLane_fits samples _
  fits1 := packedLane_fits samples _
  fits2 := packedLane_fits samples _

/-- Reading a sample back. -/
theorem drcSample_packBank {n : ℕ} (inside : n < arIspDrcSamples) (memory : Bytes) :
    drcSample (arIspDrcPackBank dst samples memory) dst n = packedLane samples n := by
  have small : n < 257 := inside
  by_cases record : n / 2 < arIspDrcRecords
  · have holds := @drcPackBank_record dst (n / 2) samples record memory
    rw [drcSample, if_pos record]
    rcases Nat.mod_two_eq_zero_or_one n with even | odd
    · have position : 2 * (n / 2) = n := by omega
      rw [even, holds.lane0, position]
    · have position : 2 * (n / 2) + 1 = n := by omega
      rw [odd, holds.lane1, position]
  · have holds := @drcPackBank_record dst (arIspDrcRecords - 1) samples (by decide) memory
    have last : n = 2 * (arIspDrcRecords - 1) + 2 := by
      unfold arIspDrcRecords at record ⊢
      omega
    rw [drcSample, if_neg record, holds.lane2, last]

theorem drcPackBank_encodes (dst : ℕ) (samples : ℕ → UInt32) (memory : Bytes) :
    EncodesBank (arIspDrcPackBank dst samples memory) dst samples where
  recovers n inside := by
    rw [drcSample_packBank inside]
    exact packedLane_toNat samples n
  copies i inside := by
    have holds := @drcPackBank_record dst i samples inside memory
    exact holds.middleCopy.trans holds.lane1.symm
  linked i inside := by
    have holds := @drcPackBank_record dst i samples (Nat.lt_of_succ_lt inside) memory
    exact holds.lane2.trans (drcPackBank_record inside memory).lane0.symm
  unassigned i inside := (drcPackBank_record inside memory).unassigned

end Pack

/-! ### The page -/

/-- Sample `n` of bank `b` of a profile of the tuning file. -/
def drcSource (blob : Bytes) (profile : UInt32) (b n : ℕ) : UInt32 :=
  arIspGetLe32 blob
    (arIspDrcBlobOffset + profile.toNat * arIspDrcBlobStride + b * arIspDrcBlobBank1 + n * 4)

section Page

variable {dst b n : ℕ} {blob memory : Bytes} {low high t : UInt32}

/-- The curve of bank `b`. -/
def drcCurve (blob : Bytes) (low high t : UInt32) (b n : ℕ) : UInt32 :=
  arIspToneBlend (drcSource blob low b n) (drcSource blob high b n) t

theorem drcWord_congr {page other : Bytes} {i off : ℕ}
    (same : ∀ cell, dst ≤ cell → cell < dst + arIspDrcBank → page cell = other cell)
    (inside : i < arIspDrcRecords) (within : off + 4 ≤ 16) :
    drcWord page dst i off = drcWord other dst i off := by
  have small : i < 128 := inside
  apply arIspGetLe32_congr
  intro cell low high
  apply same cell (by omega)
  change cell < dst + 2048
  omega

theorem drcLane_congr {page other : Bytes} {i : ℕ}
    (same : ∀ cell, dst ≤ cell → cell < dst + arIspDrcBank → page cell = other cell)
    (inside : i < arIspDrcRecords) (lane : ℕ) :
    drcLane page dst i lane = drcLane other dst i lane := by
  have word0 := @drcWord_congr dst page other i 0 same inside (by decide)
  have word1 := @drcWord_congr dst page other i 4 same inside (by decide)
  have word2 := @drcWord_congr dst page other i 8 same inside (by decide)
  unfold drcLane
  rw [word0, word1, word2]

theorem drcSample_congr {page other : Bytes} (n : ℕ)
    (same : ∀ cell, dst ≤ cell → cell < dst + arIspDrcBank → page cell = other cell) :
    drcSample page dst n = drcSample other dst n := by
  unfold drcSample
  split
  · next record => exact drcLane_congr same record _
  · exact drcLane_congr same (by decide) 2

/-- A bank of the page is that of its own round. -/
theorem drcFromBlob_bank (inside : b < 2) {cell : ℕ} (fromStart : dst + b * arIspDrcBank ≤ cell)
    (toStop : cell < dst + b * arIspDrcBank + arIspDrcBank) :
    arIspDrcFromBlob dst blob low high t memory cell =
      arIspDrcPackBank (dst + b * arIspDrcBank) (drcCurve blob low high t b) memory cell := by
  have round (k : ℕ) := drcPackBank_fills (dst + k * arIspDrcBank) (drcCurve blob low high t k)
  have stop (k : ℕ) : dst + k * arIspDrcBank + arIspDrcBank = dst + (k + 1) * arIspDrcBank := by
    rw [Nat.succ_mul, Nat.add_assoc]
  rw [stop] at toStop
  simp only [stop] at round
  exact Fills.fold_record (fun k _ => round k) inside memory fromStart toStop

/-- A sample of the page is the blend of the two profiles, when their samples fit. -/
theorem drcSample_fromBlob (inside : b < 2) (sample : n < arIspDrcSamples)
    (small : t.toNat ≤ 0x1000) (lowFits : drcSource blob low b n < 0x100000)
    (highFits : drcSource blob high b n < 0x100000) :
    drcSample (arIspDrcFromBlob dst blob low high t memory) (dst + b * arIspDrcBank) n =
      arIspToneBlend (drcSource blob low b n) (drcSource blob high b n) t := by
  have own := @drcSample_congr (dst + b * arIspDrcBank) _ _ n
    fun cell => @drcFromBlob_bank dst b blob memory low high t inside cell
  have blend := (arIspToneBlend_toNat lowFits highFits small).2
  have within := @Blend.truncated_between 4096 t.toNat (drcSource blob low b n).toNat
    (drcSource blob high b n).toNat (by decide) (Int.natCast_nonneg _) (by exact_mod_cast small)
  have lowSmall := UInt32.lt_iff_toNat_lt.mp lowFits
  have highSmall := UInt32.lt_iff_toNat_lt.mp highFits
  change _ < 0x100000 at lowSmall highSmall
  apply UInt32.toNat_inj.mp
  rw [own, drcSample_packBank sample, packedLane_toNat, drcCurve]
  apply Nat.mod_eq_of_lt
  omega

end Page

/-- A bank that is packed gives all its samples back, with nothing in the bits that no lane has,
and a page that is built for a pick holds the blend of the two profiles in both banks. -/
theorem drcBank_encodes :
    (∀ (dst : ℕ) (samples : ℕ → UInt32) (memory : Bytes),
      EncodesBank (arIspDrcPackBank dst samples memory) dst samples) ∧
      (∀ (dst : ℕ) (blob : Bytes) (low high t : UInt32) (memory : Bytes), t ≤ 0x1000 →
        ∀ b n, b < 2 → n < arIspDrcSamples → drcSource blob low b n < 0x100000 →
          drcSource blob high b n < 0x100000 →
            drcSample (arIspDrcFromBlob dst blob low high t memory) (dst + b * arIspDrcBank) n =
              arIspToneBlend (drcSource blob low b n) (drcSource blob high b n) t) ∧
      ∀ (blob : Bytes) (scalar : UInt32), (arIspTonePickDrc blob scalar).tQ12 ≤ 0x1000 := by
  refine ⟨drcPackBank_encodes, ?_, ?_⟩
  · intro dst blob low high t memory small b n bank sample lowFits highFits
    exact drcSample_fromBlob bank sample (UInt32.le_iff_toNat_le.mp small) lowFits highFits
  · intro blob scalar
    have sound := (@tonePickAmong_total blob arIspDrcBlobCount arIspDrcBlobBands
      arIspDrcBlobProfiles scalar (by decide) (by decide)).2
    exact UInt32.le_iff_toNat_le.mpr sound.fraction.le

/-- The last sample of the second bank, half way between two profiles. -/
theorem drcBank_encodes_half :
    let blob : Bytes := fun offset =>
      if offset % 4 = 1 then (if offset < 0x187a8 then 0x10 else 0x20) else 0
    drcSample (arIspDrcFromBlob 0 blob 0 1 0x800 fun _ => 0xff) 0x800 256 = 0x1800 := by
  intro blob
  have blended := drcBank_encodes.2.1 0 blob 0 1 0x800 (fun _ => 0xff) (by decide) 1 256
    (by decide) (by decide) (by decide) (by decide)
  exact blended.trans (by decide)

end MlKernel.Isp
