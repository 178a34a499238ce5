import MlKernel.Lib.Fill
import MlKernel.Isp.Bytes

/-!
# The packed tone pages

The gamma and DRC pages are packed from curves of the tuning file, blended between a low and a
high entry.  Every record writes all of its sixteen bytes, so that a page depends on the curves
alone and on nothing it held before.
-/

namespace MlKernel.Isp

def arIspPutLe32 (offset : ℕ) (v : UInt32) : Bytes → Bytes :=
  Fills.put [v.toUInt8, (v >>> 8).toUInt8, (v >>> 16).toUInt8, (v >>> 24).toUInt8] offset

def arIspPutLe16 (offset : ℕ) (v : UInt16) : Bytes → Bytes :=
  Fills.put [v.toUInt8, (v >>> 8).toUInt8] offset

/-! ### Sizes and offsets -/

def arIspGammaPage : ℕ := 0x800
def arIspGammaRecords : ℕ := 128
def arIspGammaSamples : ℕ := 512
def arIspGammaBlobEntries : ℕ := 4096
def arIspGammaDecimate : ℕ := 8
def arIspGammaBlobCurves : ℕ := 0x5
def arIspGammaBlobStride : ℕ := 0x4000
def arIspGammaBlobOffset : ℕ := 0x26b90

def arIspDrcSize : ℕ := 0x2000
def arIspDrcBank : ℕ := 0x800
def arIspDrcRecords : ℕ := 128
def arIspDrcLaneMax : UInt32 := 0xfffff
def arIspDrcBlobBank1 : ℕ := 0x404
def arIspDrcBlobProfiles : ℕ := 0x6
def arIspDrcBlobStride : ℕ := 0xc8c
def arIspDrcBlobOffset : ℕ := 0x17b1c

/-- In Q12, with the 32-bit arithmetic of the source. -/
def arIspToneBlend (low high t : UInt32) : UInt32 :=
  if t = 0 then low else (low * (0x1000 - t) + high * t) >>> (12 : UInt32)

/-! ### Gamma -/

/-- One record of four samples; `next` is the first sample of the record after it. -/
def arIspGammaRecord (offset : ℕ) (s0 s1 s2 s3 next : UInt32) (memory : Bytes) : Bytes :=
  let memory :=
    arIspPutLe32 offset (s0 ||| (s1 <<< 12) ||| ((s1 &&& (0xff : UInt32)) <<< 24)) memory
  let memory := arIspPutLe32 (offset + 4)
    (((s1 >>> 8) &&& (0xf : UInt32)) ||| (s2 <<< 4) ||| (s2 <<< 16) |||
      ((s3 &&& (0xf : UInt32)) <<< 28)) memory
  let memory := arIspPutLe32 (offset + 8) ((s3 >>> 4) ||| (s3 <<< 8) ||| (next <<< 20)) memory
  arIspPutLe32 (offset + 12) 0 memory

def arIspGammaPackPage (dst : ℕ) (samples : ℕ → UInt16) (tail : UInt16) (memory : Bytes) : Bytes :=
  let sample (i : ℕ) : UInt32 := (samples i).toUInt32 &&& (0xfff : UInt32)
  (List.range arIspGammaRecords).foldl
    (fun memory i =>
      let next : UInt32 :=
        if i + 1 < arIspGammaRecords then sample (4 * (i + 1))
        else tail.toUInt32 &&& (0xfff : UInt32)
      arIspGammaRecord (dst + i * 16) (sample (4 * i)) (sample (4 * i + 1)) (sample (4 * i + 2))
        (sample (4 * i + 3)) next memory)
    memory

/-- No sample is below the one before it. -/
def arIspGammaClamp (samples : ℕ → UInt16) : ℕ → UInt16
  | 0 => samples 0
  | i + 1 =>
      if samples (i + 1) < arIspGammaClamp samples i then arIspGammaClamp samples i
      else samples (i + 1)

def arIspGammaFromBlob (dst : ℕ) (blob : Bytes) (low high t : UInt32) (memory : Bytes) : Bytes :=
  let curve := arIspGammaBlobOffset + low.toNat * arIspGammaBlobStride
  let other := arIspGammaBlobOffset + high.toNat * arIspGammaBlobStride
  let blended (offset : ℕ) : UInt16 :=
    ((arIspToneBlend (arIspGetLe32 blob (curve + offset)) (arIspGetLe32 blob (other + offset))
      t) &&& (0xfff : UInt32)).toUInt16
  let samples := arIspGammaClamp fun i => blended (i * arIspGammaDecimate * 4)
  let tail := blended ((arIspGammaBlobEntries - 1) * 4)
  let last := samples (arIspGammaSamples - 1)
  arIspGammaPackPage dst samples (if tail < last then last else tail) memory

/-! ### DRC -/

def arIspDrcRecord (offset : ℕ) (s0 s1 s2 : UInt32) (memory : Bytes) : Bytes :=
  let memory := arIspPutLe32 offset (s0 ||| (s1 <<< 20)) memory
  let memory := arIspPutLe32 (offset + 4) ((s1 >>> 12) ||| (s1 <<< 8) ||| (s2 <<< 28)) memory
  let memory := arIspPutLe16 (offset + 8) (s2 >>> 4).toUInt16 memory
  let memory := arIspPutLe16 (offset + 10) 0 memory
  arIspPutLe32 (offset + 12) 0 memory

def arIspDrcPackBank (dst : ℕ) (samples : ℕ → UInt32) (memory : Bytes) : Bytes :=
  let sample (i : ℕ) : UInt32 := samples i &&& arIspDrcLaneMax
  (List.range arIspDrcRecords).foldl
    (fun memory i =>
      arIspDrcRecord (dst + i * 16) (sample (2 * i)) (sample (2 * i + 1)) (sample (2 * i + 2))
        memory)
    memory

def arIspDrcFromBlob (dst : ℕ) (blob : Bytes) (low high t : UInt32) (memory : Bytes) : Bytes :=
  (List.range 2).foldl
    (fun memory b =>
      let bank := arIspDrcBlobOffset + low.toNat * arIspDrcBlobStride + b * arIspDrcBlobBank1
      let other := arIspDrcBlobOffset + high.toNat * arIspDrcBlobStride + b * arIspDrcBlobBank1
      let samples (i : ℕ) : UInt32 :=
        arIspToneBlend (arIspGetLe32 blob (bank + i * 4)) (arIspGetLe32 blob (other + i * 4)) t
      arIspDrcPackBank (dst + b * arIspDrcBank) samples memory)
    memory

/-! ### The constant parts -/

/-- The carried constants: the second gamma page with its tail, and the last two DRC banks. -/
structure ToneConstants where
  gammaPage1 : ℕ → UInt16
  gammaPage1Tail : UInt16
  drcTailBank0 : ℕ → UInt32
  drcTailBank1 : ℕ → UInt32

/-- Both pages of the gamma allocation, as `ar_isp_tone_apply` and `ar_isp_fill_gamma` build
them. -/
def buildGamma (constants : ToneConstants) (blob : Bytes) (low high t : UInt32) (memory : Bytes) :
    Bytes :=
  let memory := arIspGammaFromBlob 0 blob low high t memory
  arIspGammaPackPage arIspGammaPage constants.gammaPage1 constants.gammaPage1Tail memory

/-- The whole DRC page. -/
def buildDrc (constants : ToneConstants) (blob : Bytes) (low high t : UInt32) (memory : Bytes) :
    Bytes :=
  let memory := arIspDrcFromBlob 0 blob low high t memory
  let memory := arIspDrcPackBank (2 * arIspDrcBank) constants.drcTailBank0 memory
  arIspDrcPackBank (3 * arIspDrcBank) constants.drcTailBank1 memory

/-! ### What the packers fill -/

theorem putLe32_fills (offset : ℕ) (v : UInt32) :
    Fills (arIspPutLe32 offset v) offset (offset + 4) :=
  Fills.of_put _ offset

theorem putLe16_fills (offset : ℕ) (v : UInt16) :
    Fills (arIspPutLe16 offset v) offset (offset + 2) :=
  Fills.of_put _ offset

/-- Four words, one after the other. -/
theorem words_fill (offset : ℕ) (w0 w1 w2 w3 : UInt32) :
    Fills (fun memory =>
      arIspPutLe32 (offset + 12) w3 (arIspPutLe32 (offset + 8) w2
        (arIspPutLe32 (offset + 4) w1 (arIspPutLe32 offset w0 memory)))) offset (offset + 16) := by
  have two := (putLe32_fills offset w0).comp (putLe32_fills (offset + 4) w1) (by omega) (by omega)
  have three := two.comp (putLe32_fills (offset + 8) w2) (by omega) (by omega)
  exact three.comp (putLe32_fills (offset + 12) w3) (by omega) (by omega)

/-- Two words, two half words and a word. -/
theorem lanes_fill (offset : ℕ) (w0 w1 w3 : UInt32) (h0 h1 : UInt16) :
    Fills (fun memory =>
      arIspPutLe32 (offset + 12) w3 (arIspPutLe16 (offset + 10) h1
        (arIspPutLe16 (offset + 8) h0 (arIspPutLe32 (offset + 4) w1
          (arIspPutLe32 offset w0 memory))))) offset (offset + 16) := by
  have two := (putLe32_fills offset w0).comp (putLe32_fills (offset + 4) w1) (by omega) (by omega)
  have three := two.comp (putLe16_fills (offset + 8) h0) (by omega) (by omega)
  have four := three.comp (putLe16_fills (offset + 10) h1) (by omega) (by omega)
  exact four.comp (putLe32_fills (offset + 12) w3) (by omega) (by omega)

theorem gammaRecord_fills (offset : ℕ) (s0 s1 s2 s3 next : UInt32) :
    Fills (arIspGammaRecord offset s0 s1 s2 s3 next) offset (offset + 16) :=
  words_fill offset _ _ _ _

theorem drcRecord_fills (offset : ℕ) (s0 s1 s2 : UInt32) :
    Fills (arIspDrcRecord offset s0 s1 s2) offset (offset + 16) :=
  lanes_fill offset _ _ _ _ _

theorem gammaPackPage_fills (dst : ℕ) (samples : ℕ → UInt16) (tail : UInt16) :
    Fills (arIspGammaPackPage dst samples tail) dst (dst + arIspGammaPage) := by
  show Fills _ dst (dst + arIspGammaRecords * 16)
  unfold arIspGammaPackPage
  apply Fills.fold
  intro i _
  have stop : dst + (i + 1) * 16 = dst + i * 16 + 16 := by omega
  rw [stop]
  exact gammaRecord_fills (dst + i * 16) _ _ _ _ _

theorem drcPackBank_fills (dst : ℕ) (samples : ℕ → UInt32) :
    Fills (arIspDrcPackBank dst samples) dst (dst + arIspDrcBank) := by
  show Fills _ dst (dst + arIspDrcRecords * 16)
  unfold arIspDrcPackBank
  apply Fills.fold
  intro i _
  have stop : dst + (i + 1) * 16 = dst + i * 16 + 16 := by omega
  rw [stop]
  exact drcRecord_fills (dst + i * 16) _ _ _

theorem drcFromBlob_fills (dst : ℕ) (blob : Bytes) (low high t : UInt32) :
    Fills (arIspDrcFromBlob dst blob low high t) dst (dst + 2 * arIspDrcBank) := by
  unfold arIspDrcFromBlob
  apply Fills.fold
  intro b _
  have stop : dst + (b + 1) * arIspDrcBank = dst + b * arIspDrcBank + arIspDrcBank := by
    rw [Nat.succ_mul, Nat.add_assoc]
  rw [stop]
  exact drcPackBank_fills (dst + b * arIspDrcBank) _

theorem buildGamma_fills (constants : ToneConstants) (blob : Bytes) (low high t : UInt32) :
    Fills (buildGamma constants blob low high t) 0 (2 * arIspGammaPage) := by
  have first : Fills (arIspGammaFromBlob 0 blob low high t) 0 arIspGammaPage := by
    have page := gammaPackPage_fills 0
    rw [Nat.zero_add] at page
    exact page _ _
  have second := gammaPackPage_fills arIspGammaPage constants.gammaPage1 constants.gammaPage1Tail
  exact first.comp second (Nat.zero_le _) (Nat.le_add_right _ _)

theorem buildDrc_fills (constants : ToneConstants) (blob : Bytes) (low high t : UInt32) :
    Fills (buildDrc constants blob low high t) 0 arIspDrcSize := by
  have dynamic := drcFromBlob_fills 0 blob low high t
  have third := drcPackBank_fills (2 * arIspDrcBank) constants.drcTailBank0
  have fourth := drcPackBank_fills (3 * arIspDrcBank) constants.drcTailBank1
  exact (dynamic.comp third (by decide) (by decide)).comp fourth (by decide) (by decide)

end MlKernel.Isp
