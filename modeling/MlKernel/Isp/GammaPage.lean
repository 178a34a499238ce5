import MlKernel.Isp.Words

/-!
# The gamma page

Every record of the page holds four samples of twelve bits and the first sample of the record
after it.  The fields that the hardware reads twice agree, and reading the samples back gives the
curve that was packed.
-/

namespace MlKernel.Isp

/-! ### The documented field map -/

/-- The word at an offset of record `i`. -/
def gammaWord (page : Bytes) (dst i off : ℕ) : UInt32 := arIspGetLe32 page (dst + i * 16 + off)

/-- Sample `n`, from the record it is in. -/
def gammaSample (page : Bytes) (dst n : ℕ) : UInt32 :=
  match n % 4 with
  | 0 => gammaWord page dst (n / 4) 0 &&& 0xfff
  | 1 => (gammaWord page dst (n / 4) 0 >>> 12) &&& 0xfff
  | 2 => (gammaWord page dst (n / 4) 4 >>> 16) &&& 0xfff
  | _ => (gammaWord page dst (n / 4) 8 >>> 8) &&& 0xfff

/-- The forward field of record `i`. -/
def gammaForward (page : Bytes) (dst i : ℕ) : UInt32 := gammaWord page dst i 8 >>> 20

/-- The fields of record `i` that repeat its samples. -/
structure GammaOverlaps (page : Bytes) (dst i : ℕ) : Prop where
  word0 : gammaWord page dst i 0 >>> 24 = gammaSample page dst (4 * i + 1) &&& (0xff : UInt32)
  word1 : gammaWord page dst i 4 &&& (0xffff : UInt32) =
    (gammaSample page dst (4 * i + 1) >>> 8) ||| (gammaSample page dst (4 * i + 2) <<< 4)
  word1High : gammaWord page dst i 4 >>> 28 = gammaSample page dst (4 * i + 3) &&& (0xf : UInt32)
  word2 : gammaWord page dst i 8 &&& (0xff : UInt32) = gammaSample page dst (4 * i + 3) >>> 4
  word3 : gammaWord page dst i 12 = 0

/-! ### One record -/

section Record

variable {s0 s1 s2 s3 next : UInt32}

theorem gammaWord0_toNat (fits0 : s0.toNat < 2 ^ 12) (fits1 : s1.toNat < 2 ^ 12) :
    (s0 ||| (s1 <<< 12) ||| ((s1 &&& (0xff : UInt32)) <<< 24)).toNat =
      s0.toNat + s1.toNat * 2 ^ 12 + s1.toNat % 2 ^ 8 * 2 ^ 24 := by
  have low := @low_bits s1 0xff 8 rfl
  have two := @or_shift_toNat s0 s1 12 12 rfl (by omega) fits0 (by omega)
  rw [@or_shift_toNat _ _ 24 24 rfl (by omega) (by rw [two]; omega) (by omega), two, low]

theorem gammaWord1_toNat (fits1 : s1.toNat < 2 ^ 12) (fits2 : s2.toNat < 2 ^ 12) :
    (((s1 >>> 8) &&& (0xf : UInt32)) ||| (s2 <<< 4) ||| (s2 <<< 16) |||
      ((s3 &&& (0xf : UInt32)) <<< 28)).toNat =
      s1.toNat / 2 ^ 8 + s2.toNat * 2 ^ 4 + s2.toNat * 2 ^ 16 + s3.toNat % 2 ^ 4 * 2 ^ 28 := by
  have high := @high_bits s1 8 8 rfl (by omega)
  have nibble := @low_bits (s1 >>> 8) 0xf 4 rfl
  have low := @low_bits s3 0xf 4 rfl
  have two := @or_shift_toNat ((s1 >>> 8) &&& (0xf : UInt32)) s2 4 4 rfl (by omega)
    (by omega) (by omega)
  have three := @or_shift_toNat _ s2 16 16 rfl (by omega) (by rw [two]; omega) (by omega)
  rw [@or_shift_toNat _ _ 28 28 rfl (by omega) (by rw [three, two]; omega) (by omega), three, two,
    low]
  omega

theorem gammaWord2_toNat (fits3 : s3.toNat < 2 ^ 12) (fitsNext : next.toNat < 2 ^ 12) :
    ((s3 >>> 4) ||| (s3 <<< 8) ||| (next <<< 20)).toNat =
      s3.toNat / 2 ^ 4 + s3.toNat * 2 ^ 8 + next.toNat * 2 ^ 20 := by
  have high := @high_bits s3 4 4 rfl (by omega)
  have two := @or_shift_toNat (s3 >>> 4) s3 8 8 rfl (by omega) (by omega) (by omega)
  rw [@or_shift_toNat _ _ 20 20 rfl (by omega) (by rw [two]; omega) (by omega), two, high]

end Record

/-- Four samples of twelve bits and the forward field, as a record packs them. -/
structure HoldsRecord (page : Bytes) (dst i : ℕ) (s0 s1 s2 s3 next : UInt32) : Prop where
  word0 : gammaWord page dst i 0 = s0 ||| (s1 <<< 12) ||| ((s1 &&& (0xff : UInt32)) <<< 24)
  word1 : gammaWord page dst i 4 =
    ((s1 >>> 8) &&& (0xf : UInt32)) ||| (s2 <<< 4) ||| (s2 <<< 16) |||
      ((s3 &&& (0xf : UInt32)) <<< 28)
  word2 : gammaWord page dst i 8 = (s3 >>> 4) ||| (s3 <<< 8) ||| (next <<< 20)
  word3 : gammaWord page dst i 12 = 0
  fits0 : s0.toNat < 2 ^ 12
  fits1 : s1.toNat < 2 ^ 12
  fits2 : s2.toNat < 2 ^ 12
  fits3 : s3.toNat < 2 ^ 12
  fitsNext : next.toNat < 2 ^ 12

section Holds

variable {page : Bytes} {dst i : ℕ} {s0 s1 s2 s3 next : UInt32}

theorem HoldsRecord.sample0 (holds : HoldsRecord page dst i s0 s1 s2 s3 next) :
    gammaSample page dst (4 * i) = s0 := by
  have position : 4 * i % 4 = 0 := by omega
  have record : 4 * i / 4 = i := by omega
  have fits := holds.fits0
  apply UInt32.toNat_inj.mp
  simp only [gammaSample, position, record, holds.word0]
  rw [@low_bits _ 0xfff 12 rfl, gammaWord0_toNat holds.fits0 holds.fits1]
  omega

theorem HoldsRecord.sample1 (holds : HoldsRecord page dst i s0 s1 s2 s3 next) :
    gammaSample page dst (4 * i + 1) = s1 := by
  have position : (4 * i + 1) % 4 = 1 := by omega
  have record : (4 * i + 1) / 4 = i := by omega
  have fits0 := holds.fits0
  have fits1 := holds.fits1
  apply UInt32.toNat_inj.mp
  simp only [gammaSample, position, record, holds.word0]
  rw [@low_bits _ 0xfff 12 rfl, @high_bits _ 12 12 rfl (by decide), gammaWord0_toNat fits0 fits1]
  omega

theorem HoldsRecord.sample2 (holds : HoldsRecord page dst i s0 s1 s2 s3 next) :
    gammaSample page dst (4 * i + 2) = s2 := by
  have position : (4 * i + 2) % 4 = 2 := by omega
  have record : (4 * i + 2) / 4 = i := by omega
  have fits1 := holds.fits1
  have fits2 := holds.fits2
  apply UInt32.toNat_inj.mp
  simp only [gammaSample, position, record, holds.word1]
  have above : (s1.toNat / 2 ^ 8 + s2.toNat * 2 ^ 4 + s2.toNat * 2 ^ 16 +
      s3.toNat % 2 ^ 4 * 2 ^ 28) / 2 ^ 16 = s2.toNat + s3.toNat % 2 ^ 4 * 2 ^ 12 := by omega
  rw [@low_bits _ 0xfff 12 rfl, @high_bits _ 16 16 rfl (by decide), gammaWord1_toNat fits1 fits2,
    above]
  omega

theorem HoldsRecord.sample3 (holds : HoldsRecord page dst i s0 s1 s2 s3 next) :
    gammaSample page dst (4 * i + 3) = s3 := by
  have position : (4 * i + 3) % 4 = 3 := by omega
  have record : (4 * i + 3) / 4 = i := by omega
  have fits := holds.fits3
  apply UInt32.toNat_inj.mp
  simp only [gammaSample, position, record, holds.word2]
  have above : (s3.toNat / 2 ^ 4 + s3.toNat * 2 ^ 8 + next.toNat * 2 ^ 20) / 2 ^ 8 =
      s3.toNat + next.toNat * 2 ^ 12 := by omega
  rw [@low_bits _ 0xfff 12 rfl, @high_bits _ 8 8 rfl (by decide),
    gammaWord2_toNat fits holds.fitsNext, above]
  omega

theorem HoldsRecord.forward (holds : HoldsRecord page dst i s0 s1 s2 s3 next) :
    gammaForward page dst i = next := by
  have fits := holds.fits3
  apply UInt32.toNat_inj.mp
  rw [gammaForward, holds.word2, @high_bits _ 20 20 rfl (by decide),
    gammaWord2_toNat fits holds.fitsNext]
  omega

/-- The fields that repeat samples agree with them. -/
theorem HoldsRecord.overlaps (holds : HoldsRecord page dst i s0 s1 s2 s3 next) :
    GammaOverlaps page dst i := by
  have fits0 := holds.fits0
  have fits1 := holds.fits1
  have fits2 := holds.fits2
  have fits3 := holds.fits3
  refine ⟨?_, ?_, ?_, ?_, holds.word3⟩ <;> apply UInt32.toNat_inj.mp
  · rw [holds.word0, holds.sample1, @high_bits _ 24 24 rfl (by decide), @low_bits _ 0xff 8 rfl,
      gammaWord0_toNat fits0 fits1]
    omega
  · have high := @high_bits s1 8 8 rfl (by decide)
    rw [holds.word1, holds.sample1, holds.sample2, @low_bits _ 0xffff 16 rfl,
      gammaWord1_toNat fits1 fits2,
      @or_shift_toNat (s1 >>> 8) s2 4 4 rfl (by decide) (by omega) (by omega), high]
    omega
  · rw [holds.word1, holds.sample3, @high_bits _ 28 28 rfl (by decide), @low_bits _ 0xf 4 rfl,
      gammaWord1_toNat fits1 fits2]
    omega
  · rw [holds.word2, holds.sample3, @low_bits _ 0xff 8 rfl, @high_bits _ 4 4 rfl (by decide),
      gammaWord2_toNat fits3 holds.fitsNext]
    omega

end Holds

/-! ### The page -/

/-- A sample as it is packed. -/
def packedSample (samples : ℕ → UInt16) (n : ℕ) : UInt32 :=
  (samples n).toUInt32 &&& (0xfff : UInt32)

/-- What record `i` holds in its forward field. -/
def packedNext (samples : ℕ → UInt16) (tail : UInt16) (i : ℕ) : UInt32 :=
  if i + 1 < arIspGammaRecords then packedSample samples (4 * (i + 1))
  else tail.toUInt32 &&& (0xfff : UInt32)

theorem masked_fits (v : UInt32) : (v &&& (0xfff : UInt32)).toNat < 2 ^ 12 := by
  rw [@low_bits v 0xfff 12 rfl]
  exact Nat.mod_lt _ (by decide)

section Pack

variable {dst i off : ℕ} {samples : ℕ → UInt16} {tail : UInt16}

/-- A word of the page is that of its own record's round. -/
theorem gammaPackPage_word (inside : i < arIspGammaRecords) (within : off + 4 ≤ 16)
    (memory : Bytes) :
    gammaWord (arIspGammaPackPage dst samples tail memory) dst i off =
      arIspGetLe32
        (arIspGammaRecord (dst + i * 16) (packedSample samples (4 * i))
          (packedSample samples (4 * i + 1)) (packedSample samples (4 * i + 2))
          (packedSample samples (4 * i + 3)) (packedNext samples tail i) memory)
        (dst + i * 16 + off) := by
  apply arIspGetLe32_congr
  intro cell low high
  have round (k : ℕ) := gammaRecord_fills (dst + k * 16) (packedSample samples (4 * k))
    (packedSample samples (4 * k + 1)) (packedSample samples (4 * k + 2))
    (packedSample samples (4 * k + 3)) (packedNext samples tail k)
  have stop (k : ℕ) : dst + k * 16 + 16 = dst + (k + 1) * 16 := by omega
  simp only [stop] at round
  exact Fills.fold_record (fun k _ => round k) inside memory (by omega) (by omega)

theorem gammaPackPage_record (inside : i < arIspGammaRecords) (memory : Bytes) :
    HoldsRecord (arIspGammaPackPage dst samples tail memory) dst i (packedSample samples (4 * i))
      (packedSample samples (4 * i + 1)) (packedSample samples (4 * i + 2))
      (packedSample samples (4 * i + 3)) (packedNext samples tail i) where
  word0 := by
    rw [gammaPackPage_word inside (by decide) memory, arIspGammaRecord,
      arIspGetLe32_putLe32_of_ne _ _ (by omega), arIspGetLe32_putLe32_of_ne _ _ (by omega),
      arIspGetLe32_putLe32_of_ne _ _ (by omega)]
    exact arIspGetLe32_putLe32 _ _ _
  word1 := by
    rw [gammaPackPage_word inside (by decide) memory, arIspGammaRecord,
      arIspGetLe32_putLe32_of_ne _ _ (by omega), arIspGetLe32_putLe32_of_ne _ _ (by omega)]
    exact arIspGetLe32_putLe32 _ _ _
  word2 := by
    rw [gammaPackPage_word inside (by decide) memory, arIspGammaRecord,
      arIspGetLe32_putLe32_of_ne _ _ (by omega)]
    exact arIspGetLe32_putLe32 _ _ _
  word3 := by
    rw [gammaPackPage_word inside (by decide) memory, arIspGammaRecord]
    exact arIspGetLe32_putLe32 _ _ _
  fits0 := masked_fits _
  fits1 := masked_fits _
  fits2 := masked_fits _
  fits3 := masked_fits _
  fitsNext := by
    unfold packedNext
    split <;> exact masked_fits _

/-- Reading a sample back. -/
theorem gammaSample_packPage {n : ℕ} (inside : n < arIspGammaSamples) (memory : Bytes) :
    gammaSample (arIspGammaPackPage dst samples tail memory) dst n = packedSample samples n := by
  have small : n < 512 := inside
  have position : n / 4 < 128 := by omega
  have holds := @gammaPackPage_record dst (n / 4) samples tail position memory
  have cases : n = 4 * (n / 4) ∨ n = 4 * (n / 4) + 1 ∨ n = 4 * (n / 4) + 2 ∨
      n = 4 * (n / 4) + 3 := by omega
  generalize n / 4 = i at holds cases
  rcases cases with rfl | rfl | rfl | rfl
  · exact holds.sample0
  · exact holds.sample1
  · exact holds.sample2
  · exact holds.sample3

end Pack

/-! ### The curve -/

/-- A sample of twelve bits is packed as it is. -/
theorem packedSample_toNat {samples : ℕ → UInt16} {n : ℕ} (fits : samples n < 0x1000) :
    (packedSample samples n).toNat = (samples n).toNat := by
  have small : (samples n).toNat < 2 ^ 12 := UInt16.lt_iff_toNat_lt.mp fits
  rw [packedSample, @low_bits _ 0xfff 12 rfl]
  exact Nat.mod_eq_of_lt small

theorem gammaClamp_le_succ (samples : ℕ → UInt16) (n : ℕ) :
    arIspGammaClamp samples n ≤ arIspGammaClamp samples (n + 1) := by
  simp only [arIspGammaClamp]
  split
  · exact UInt16.le_refl _
  · next rises => exact UInt16.not_lt.mp rises

theorem gammaClamp_lt {samples : ℕ → UInt16} {bound : UInt16} (fits : ∀ n, samples n < bound)
    (n : ℕ) : arIspGammaClamp samples n < bound := by
  induction n with
  | zero => exact fits 0
  | succ n ih =>
      simp only [arIspGammaClamp]
      split
      · exact ih
      · exact fits (n + 1)

theorem masked_toUInt16_lt (v : UInt32) : (v &&& (0xfff : UInt32)).toUInt16 < 0x1000 := by
  have fits := masked_fits v
  apply UInt16.lt_iff_toNat_lt.mpr
  rw [UInt32.toNat_toUInt16]
  exact lt_of_le_of_lt (Nat.mod_le _ _) fits

/-- What a page says of the curve it encodes. -/
structure EncodesCurve (page : Bytes) (dst : ℕ) : Prop where
  fits : ∀ n, n < arIspGammaSamples → gammaSample page dst n < 0x1000
  rises : ∀ n, n + 1 < arIspGammaSamples → gammaSample page dst n ≤ gammaSample page dst (n + 1)
  overlaps : ∀ i, i < arIspGammaRecords → GammaOverlaps page dst i
  linked : ∀ i, i + 1 < arIspGammaRecords →
    gammaForward page dst i = gammaSample page dst (4 * (i + 1))
  last : gammaSample page dst (arIspGammaSamples - 1) ≤
    gammaForward page dst (arIspGammaRecords - 1)

/-- Samples that do not fall, with a tail that is not below the last one. -/
theorem gammaPackPage_encodes {samples : ℕ → UInt16} {tail : UInt16}
    (fits : ∀ n, samples n < 0x1000) (tailFits : tail < 0x1000)
    (rises : ∀ n, samples n ≤ samples (n + 1)) (last : samples (arIspGammaSamples - 1) ≤ tail)
    (dst : ℕ) (memory : Bytes) :
    EncodesCurve (arIspGammaPackPage dst samples tail memory) dst where
  fits n inside := by
    rw [gammaSample_packPage inside]
    exact UInt32.lt_iff_toNat_lt.mpr (masked_fits _)
  rises n inside := by
    rw [gammaSample_packPage (Nat.lt_of_succ_lt inside), gammaSample_packPage inside]
    apply UInt32.le_iff_toNat_le.mpr
    rw [packedSample_toNat (fits n), packedSample_toNat (fits (n + 1))]
    exact UInt16.le_iff_toNat_le.mp (rises n)
  overlaps i inside := (gammaPackPage_record inside memory).overlaps
  linked i inside := by
    have small : i + 1 < 128 := inside
    have next : 4 * (i + 1) < arIspGammaSamples := by
      change 4 * (i + 1) < 512
      omega
    rw [(gammaPackPage_record (Nat.lt_of_succ_lt inside) memory).forward,
      gammaSample_packPage next, packedNext, if_pos inside]
  last := by
    rw [(gammaPackPage_record (by decide) memory).forward, gammaSample_packPage (by decide),
      packedNext, if_neg (by decide)]
    apply UInt32.le_iff_toNat_le.mpr
    have small : tail.toNat < 2 ^ 12 := UInt16.lt_iff_toNat_lt.mp tailFits
    have whole : tail.toUInt32.toNat = tail.toNat := rfl
    rw [packedSample_toNat (fits _), @low_bits _ 0xfff 12 rfl, whole, Nat.mod_eq_of_lt small]
    exact UInt16.le_iff_toNat_le.mp last

/-- Every page that is built encodes a curve that does not fall, and a page that is packed from
samples of twelve bits gives them and the tail back. -/
theorem gammaPage_encodes :
    (∀ (dst : ℕ) (blob : Bytes) (low high t : UInt32) (memory : Bytes),
      EncodesCurve (arIspGammaFromBlob dst blob low high t memory) dst) ∧
      ∀ (dst : ℕ) (samples : ℕ → UInt16) (tail : UInt16) (memory : Bytes),
        (∀ n, n < arIspGammaSamples → samples n < 0x1000) → tail < 0x1000 →
          let page := arIspGammaPackPage dst samples tail memory
          (∀ n, n < arIspGammaSamples → gammaSample page dst n = (samples n).toUInt32) ∧
            gammaForward page dst (arIspGammaRecords - 1) = tail.toUInt32 := by
  constructor
  · intro dst blob low high t memory
    simp only [arIspGammaFromBlob]
    apply gammaPackPage_encodes
    · exact gammaClamp_lt fun n => masked_toUInt16_lt _
    · split
      · exact gammaClamp_lt (fun n => masked_toUInt16_lt _) _
      · exact masked_toUInt16_lt _
    · exact gammaClamp_le_succ _
    · split
      · exact UInt16.le_refl _
      · next above => exact UInt16.not_lt.mp above
  · intro dst samples tail memory fits tailFits page
    constructor
    · intro n inside
      apply UInt32.toNat_inj.mp
      rw [gammaSample_packPage inside, packedSample_toNat (fits n inside)]
      rfl
    · apply UInt32.toNat_inj.mp
      have small : tail.toUInt32.toNat < 2 ^ 12 := UInt16.lt_iff_toNat_lt.mp tailFits
      rw [(gammaPackPage_record (by decide) memory).forward, packedNext, if_neg (by decide),
        @low_bits _ 0xfff 12 rfl, Nat.mod_eq_of_lt small]

/-- A curve with one step, over a page of ones. -/
theorem gammaPage_encodes_step :
    let samples : ℕ → UInt16 := fun n => if n < 256 then 0x123 else 0xfed
    let page := arIspGammaPackPage 0 samples 0xfff fun _ => 0xff
    gammaSample page 0 255 = 0x123 ∧ gammaSample page 0 256 = 0xfed ∧
      gammaForward page 0 127 = 0xfff := by
  intro samples page
  have fits : ∀ n, n < arIspGammaSamples → samples n < 0x1000 := by
    intro n _
    simp only [samples]
    split <;> decide
  have read := gammaPage_encodes.2 0 samples 0xfff (fun _ => 0xff) fits (by decide)
  exact ⟨read.1 255 (by decide), read.1 256 (by decide), read.2⟩

end MlKernel.Isp
