import MlKernel.Isp.Bytes
import MlKernel.Isp.SoftFloat

/-!
# The gain-keyed ladders

A ladder has bands of the gain, each with a payload record.  A gain inside a band takes the record
as it is, and a gain between two bands blends their records.
-/

namespace MlKernel.Isp

def arIspLadderQ : ℤ := 16
def arIspLadderBandStride : ℕ := 8
def arIspLadderBandHi : ℕ := 4
def arIspLadderTOne : UInt32 := 0x1000000

/-- One stage's ladder, as offsets into the tuning file. -/
structure ArIspLadder where
  hdr : ℕ
  bands : ℕ
  payload : ℕ
  stride : ℕ
  countOff : ℕ
  maxBands : ℕ

/-- A band edge as unsigned Q16, truncated. -/
def arIspF32Q16 (bits : UInt32) : UInt32 :=
  let mant := arIspF32Mant bits
  let shift := arIspF32MantBits - arIspLadderQ - arIspF32Exp bits
  if bits &&& 0x80000000 ≠ 0 then 0
  else if 32 ≤ shift then 0
  else if shift < -8 then 0xffffffff
  else if shift ≤ 0 then mant <<< UInt32.ofNat (-shift).toNat
  else mant >>> UInt32.ofNat shift.toNat

def arIspLadderLo (blob : Bytes) (bands band : ℕ) : UInt32 :=
  arIspF32Q16 (arIspGetLe32 blob (bands + band * arIspLadderBandStride))

def arIspLadderHi (blob : Bytes) (bands band : ℕ) : UInt32 :=
  arIspF32Q16 (arIspGetLe32 blob (bands + band * arIspLadderBandStride + arIspLadderBandHi))

/-- The first band whose high edge is not below the abscissa, or the last band. -/
def bandOf (count : ℕ) (reaches : ℕ → Bool) : ℕ := (List.range (count - 1)).findIdx reaches

/-- A count outside the allocated bands falls back to the allocation. -/
def bandCount (count : UInt32) (maxBands : ℕ) : ℕ :=
  if count.toNat < 1 ∨ maxBands < count.toNat then maxBands else count.toNat

/-- The Q24 fraction into the gap below a band, in integers. -/
def gapFraction (scalar lo prevHi : UInt32) : UInt32 :=
  if scalar < lo ∧ prevHi < lo then
    (((scalar - prevHi).toUInt64 <<< 24) / (lo - prevHi).toUInt64).toUInt32
  else 0

/-! ### In integers -/

def arIspLadderBlend (low high tQ24 : UInt32) : UInt32 :=
  ((low.toUInt64 * (arIspLadderTOne - tQ24).toUInt64 + high.toUInt64 * tQ24.toUInt64) >>>
    24).toUInt32

def arIspLadderBlendS32 (low high : Int32) (tQ24 : UInt32) : Int32 :=
  .ofInt ((low.toInt * (arIspLadderTOne - tQ24).toNat + high.toInt * tQ24.toNat).tdiv
    arIspLadderTOne.toNat)

/-- The band a gain falls in, and the fraction into the gap below it. -/
def arIspLadderWalk (blob : Bytes) (bands count : ℕ) (interp gainQ16 : UInt32) : ℕ × UInt32 :=
  let band := bandOf count fun band => gainQ16 ≤ arIspLadderHi blob bands band
  if interp ≠ 0 ∧ 0 < band then
    (band, gapFraction gainQ16 (arIspLadderLo blob bands band)
      (arIspLadderHi blob bands (band - 1)))
  else (band, 0)

/-- A word of the record at `band`, blended with that of the record below it. -/
def arIspLadderReadWord (ladder : ArIspLadder) (blob : Bytes) (band off : ℕ) (tQ24 : UInt32) :
    UInt32 :=
  let word (band : ℕ) : Int32 :=
    (arIspGetLe32 blob (ladder.payload + band * ladder.stride + off)).toInt32
  let value :=
    if tQ24 ≠ 0 then arIspLadderBlendS32 (word (band - 1)) (word band) tQ24 else word band
  value.toUInt32

/-! ### In binary32 -/

/-- The fraction into a gap, and what is left of one. -/
structure LadderFrac where
  t : ArF32
  omt : ArF32

/-- Take the record as it is. -/
def LadderFrac.verbatim : LadderFrac := ⟨0, 0⟩

def arIspLadderEdge (blob : Bytes) (bands band half : ℕ) : ArF32 :=
  arIspGetLe32 blob (bands + band * arIspLadderBandStride + half)

def arIspLadderWalkF32 (blob : Bytes) (bands count : ℕ) (interp gainQ16 : UInt32) :
    ℕ × LadderFrac :=
  let gain := arF32ScaleDown (arF32FromS32 gainQ16.toInt32) 16
  let band := bandOf count fun band => gain ≤ arIspLadderEdge blob bands band arIspLadderBandHi
  let lo := arIspLadderEdge blob bands band 0
  let prevHi := arIspLadderEdge blob bands (band - 1) arIspLadderBandHi
  if interp ≠ 0 ∧ 0 < band ∧ gain < lo ∧ prevHi < lo then
    let t := arF32Div (arF32Sub gain prevHi) (arF32Sub lo prevHi)
    (band, ⟨t, arF32Sub (arF32FromS32 1) t⟩)
  else (band, .verbatim)

def arIspLadderHdrInterp : ℕ := 4

def arIspLadderSelectF32 (ladder : ArIspLadder) (blob : Bytes) (gainQ16 : UInt32) :
    ℕ × LadderFrac :=
  arIspLadderWalkF32 blob ladder.bands
    (bandCount (arIspGetLe32 blob (ladder.hdr + ladder.countOff)) ladder.maxBands)
    (arIspGetLe32 blob (ladder.hdr + arIspLadderHdrInterp)) gainQ16

/-- One fused blend. -/
def arIspLadderBlendF32 (low high : Int32) (frac : LadderFrac) : Int32 :=
  arF32ToS32Trunc (arF32Fma frac.omt (arF32FromS32 low) (arF32Mul frac.t (arF32FromS32 high)))

/-- A word of the record at `band`, blended with that of the band below it at `prevOff`. -/
def blendWords (blob : Bytes) (payload stride band prevOff off : ℕ) (frac : LadderFrac) : UInt32 :=
  let word := arIspGetLe32 blob (payload + band * stride + off)
  if frac.t ≠ 0 then
    (arIspLadderBlendF32 (arIspGetLe32 blob (payload + (band - 1) * stride + prevOff)).toInt32
      word.toInt32 frac).toUInt32
  else word

def arIspLadderReadWordF32 (ladder : ArIspLadder) (blob : Bytes) (band off : ℕ)
    (frac : LadderFrac) : UInt32 :=
  blendWords blob ladder.payload ladder.stride band off off frac

end MlKernel.Isp
