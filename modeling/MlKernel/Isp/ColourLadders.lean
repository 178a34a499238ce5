import MlKernel.Isp.Ladder

/-!
# The demosaic, chroma and colour ladders

The register banks that cfa, cnf, cm and cm2 recompute from the tuning file.
-/

namespace MlKernel.Isp

/-! ### cfa -/

def arIspCfaBank : ℕ := 0x0800
def arIspCfaHeadMask : UInt32 := 0x0000ffff
def arIspCfaBlobHeader : ℕ := 0x24548

def arIspCfaLadder : ArIspLadder where
  hdr := arIspCfaBlobHeader
  bands := 0x24558
  payload := 0x245d8
  stride := 0xa4
  countOff := 0x8
  maxBands := 0x5

/-- Consecutive registers fed by consecutive payload words. -/
structure ArIspCfaRun where
  reg : ℕ
  word : ℕ
  count : ℕ

def arIspCfaRuns : List ArIspCfaRun :=
  [⟨0x00, 0x00, 4⟩, ⟨0x3c, 0x10, 7⟩, ⟨0x5c, 0x2c, 19⟩, ⟨0xac, 0x78, 11⟩]

def arIspCfaLowSource (word : ℕ) : ℕ := if word = 6 then 4 else if word = 28 then 26 else word

def arIspCfaHighSource (word : ℕ) : ℕ := if word = 28 then 26 else word

/-- The word as it is inside a band; in a gap the blend of the words it takes its operands from. -/
def arIspCfaWord (blob : Bytes) (band word : ℕ) (frac : LadderFrac) : UInt32 :=
  let ladder := arIspCfaLadder
  if frac.t = 0 then arIspGetLe32 blob (ladder.payload + band * ladder.stride + word * 4)
  else
    blendWords blob ladder.payload ladder.stride band (arIspCfaLowSource word * 4)
      (arIspCfaHighSource word * 4) frac

/-- The registers in the order of the runs, by offset in the bank. -/
def arIspCfaFromBlob (blob : Bytes) (gainQ16 : UInt32) : List (ℕ × UInt32) :=
  let selected := arIspLadderSelectF32 arIspCfaLadder blob gainQ16
  arIspCfaRuns.flatMap fun run =>
    (List.range run.count).map fun k =>
      (run.reg + k * 4, arIspCfaWord blob selected.1 (run.word / 4 + k) selected.2)

/-! ### cnf -/

def arIspCnfStrengthReg : ℕ := 0x3c64
def arIspCnfStrengthMask : UInt32 := 0x000000fe
def arIspCnfStrengthBits : UInt32 := 0xf
def arIspCnfEnableBits : UInt32 := 0x00000020
def arIspCnfNormRegA : ℕ := 0x3c84
def arIspCnfNormRegB : ℕ := 0x3c88
def arIspCnfNormMask : UInt32 := 0x0003ffff
def arIspCnfNormBMask : UInt32 := 0x0001ffff
def arIspCnfNormQuotBits : UInt32 := 0xfff
def arIspCnfNormABit : UInt32 := 0x00020000
def arIspCnfNormConstB : UInt32 := 2
def arIspCnfNormShiftMax : ℕ := 30
def arIspCnfNormShiftMin : ℕ := 9
def arIspCnfNormQuotMax : UInt32 := 0xffe
def arIspCnfBlobBands : ℕ := 0x8e1dc
def arIspCnfBands : ℕ := 0xb
def arIspCnfBlobStride : ℕ := 0x80c
def arIspCnfBlobPayload : ℕ := 0x8e25c
def arIspCnfInterp : UInt32 := 1
def arIspCnfWordStrength : ℕ := 0x04
def arIspCnfStrengthMin : Int32 := 1
def arIspCnfStrengthMax : Int32 := 6

def arIspCnfStrengthFromBlob (blob : Bytes) (gainQ16 : UInt32) : UInt32 :=
  let selected := arIspLadderWalk blob arIspCnfBlobBands arIspCnfBands arIspCnfInterp gainQ16
  let word (band : ℕ) : Int32 :=
    (arIspGetLe32 blob (arIspCnfBlobPayload + band * arIspCnfBlobStride +
      arIspCnfWordStrength)).toInt32
  let value :=
    if selected.2 ≠ 0 then
      arIspLadderBlendS32 (word (selected.1 - 1)) (word selected.1) selected.2
    else word selected.1
  let value := if value < arIspCnfStrengthMin then arIspCnfStrengthMin else value
  let value := if arIspCnfStrengthMax < value then arIspCnfStrengthMax else value
  value.toUInt32

def arIspCnfPack (strength : UInt32) : UInt32 :=
  ((strength &&& arIspCnfStrengthBits) <<< 1) ||| arIspCnfEnableBits

def arIspCnfNormQuot (square : UInt32) (shift : ℕ) : UInt32 :=
  ((((1 : UInt64) <<< UInt64.ofNat shift) * 2 + square.toUInt64) / (2 * square).toUInt64).toUInt32

/-- The search down from `shift`, which has `steps` left until the least shift. -/
def normaliseFrom (square : UInt32) : (steps shift : ℕ) → UInt32 × ℕ
  | 0, shift => (arIspCnfNormQuot square shift, shift)
  | steps + 1, shift =>
      if arIspCnfNormQuotMax < arIspCnfNormQuot square shift then
        normaliseFrom square steps (shift - 1)
      else (arIspCnfNormQuot square shift, shift)

def arIspCnfNormalise (v : UInt32) : UInt32 × ℕ :=
  let v := if v < arIspCnfStrengthMin.toUInt32 then arIspCnfStrengthMin.toUInt32 else v
  normaliseFrom (v * v) (arIspCnfNormShiftMax - arIspCnfNormShiftMin) arIspCnfNormShiftMax

def arIspCnfNormPack (v : UInt32) : UInt32 :=
  let normalised := arIspCnfNormalise v
  (normalised.1 &&& arIspCnfNormQuotBits) ||| (UInt32.ofNat normalised.2 <<< 12)

def arIspCnfStaticReg : ℕ := 0x3c8c
def arIspCnfStaticWideMask : UInt32 := 0x003ff800
def arIspCnfStaticNarrowMask : UInt32 := 0x000ff800
def arIspCnfStaticMask : UInt32 := 0x000007ff
def arIspCnfStaticBlob : ℕ := 0x8e1a8

/-- The offsets of the two words of a static register, and the bits of the second. -/
structure ArIspCnfStatic where
  lo : ℕ
  hi : ℕ
  hiMask : UInt32

def arIspCnfStatics : List ArIspCnfStatic :=
  [⟨arIspCnfStaticBlob + 0x00, arIspCnfStaticBlob + 0x0c, arIspCnfStaticWideMask⟩,
    ⟨arIspCnfStaticBlob + 0x18, arIspCnfStaticBlob + 0x24, arIspCnfStaticNarrowMask⟩,
    ⟨arIspCnfStaticBlob + 0x04, arIspCnfStaticBlob + 0x10, arIspCnfStaticWideMask⟩,
    ⟨arIspCnfStaticBlob + 0x1c, arIspCnfStaticBlob + 0x28, arIspCnfStaticNarrowMask⟩,
    ⟨arIspCnfStaticBlob + 0x08, arIspCnfStaticBlob + 0x14, arIspCnfStaticWideMask⟩,
    ⟨arIspCnfStaticBlob + 0x20, arIspCnfStaticBlob + 0x2c, arIspCnfStaticNarrowMask⟩]

/-- The bits that a static register owns, and what they hold. -/
def arIspCnfStaticPack (blob : Bytes) (e : ArIspCnfStatic) : UInt32 × UInt32 :=
  let lo := arIspGetLe32 blob e.lo &&& arIspCnfStaticMask
  let hi := arIspGetLe32 blob e.hi <<< 11
  (arIspCnfStaticMask ||| e.hiMask, lo ||| (hi &&& e.hiMask))

/-! ### cm -/

def arIspCmGainReg : ℕ := 0x483c
def arIspCmGainMask : UInt32 := 0x0000007f
def arIspCmHeader : ℕ := 0x89cfc
def arIspCmHdrInterp : ℕ := 0x4
def arIspCmHdrAecCount : ℕ := 0x8
def arIspCmHdrCtCount : ℕ := 0xc

def arIspCmF32Q8 (bits : UInt32) : UInt32 :=
  let mant := arIspF32Mant bits
  let shift := arIspF32MantBits - 8 - arIspF32Exp bits
  if bits &&& 0x80000000 ≠ 0 then 0
  else if 32 ≤ shift then 0
  else if shift < -16 then 0xffffffff
  else if shift ≤ 0 then mant <<< UInt32.ofNat (-shift).toNat
  else mant >>> UInt32.ofNat shift.toNat

/-- A table of rows on the trigger axis and columns of colour temperature, as offsets into the
tuning file. -/
structure ColourTable where
  header : ℕ
  axis : ℕ
  rows : ℕ
  columns : ℕ
  table : ℕ
  rowStride : ℕ
  recordStride : ℕ

def cmTable : ColourTable where
  header := arIspCmHeader
  axis := 0x89d10
  rows := 0x5
  columns := 7
  table := 0x89d70
  rowStride := 7 * 8
  recordStride := 8

/-- The row a trigger falls in, and the fraction into the gap below it. -/
def ColourTable.select (table : ColourTable) (blob : Bytes) (triggerQ8 : UInt32) : ℕ × UInt32 :=
  let count := bandCount (arIspGetLe32 blob (table.header + arIspCmHdrAecCount)) table.rows
  let interp := arIspGetLe32 blob (table.header + arIspCmHdrInterp)
  let edge (offset : ℕ) : UInt32 := arIspCmF32Q8 (arIspGetLe32 blob (table.axis + offset))
  let row := bandOf count fun row => triggerQ8 ≤ edge (row * 8 + 4)
  if interp ≠ 0 ∧ 0 < row then
    (row, gapFraction triggerQ8 (edge (row * 8)) (edge (row * 8 - 4)))
  else (row, 0)

def ColourTable.cell (table : ColourTable) (row ct : ℕ) : ℕ :=
  table.table + row * table.rowStride + ct * table.recordStride

/-- A column beyond those in use falls back to the first. -/
def ColourTable.column (table : ColourTable) (blob : Bytes) (ct : ℕ) : ℕ :=
  let count := bandCount (arIspGetLe32 blob (table.header + arIspCmHdrCtCount)) table.columns
  if count ≤ ct then 0 else ct

def ColourTable.gainQ16 (table : ColourTable) (blob : Bytes) (row ct : ℕ) : UInt32 :=
  arIspF32Q16 (arIspGetLe32 blob (table.cell row ct))

/-- The gain of the selected row, blended with that of the row below it, as a seven-bit field. -/
def ColourTable.gainField (table : ColourTable) (blob : Bytes) (row ct : ℕ) (tQ24 : UInt32) :
    UInt32 :=
  let gain :=
    if tQ24 ≠ 0 then
      arIspLadderBlend (table.gainQ16 blob (row - 1) ct) (table.gainQ16 blob row ct) tQ24
    else table.gainQ16 blob row ct
  (gain >>> 11) &&& arIspCmGainMask

def arIspCmSelect (blob : Bytes) (triggerQ8 : UInt32) : ℕ × UInt32 := cmTable.select blob triggerQ8

def arIspCmGainFieldFromBlob (blob : Bytes) (triggerQ8 : UInt32) (ct : ℕ) : UInt32 :=
  let selected := arIspCmSelect blob triggerQ8
  cmTable.gainField blob selected.1 (cmTable.column blob ct) selected.2

/-! ### cm2 -/

def arIspCm2GainReg : ℕ := 0x4804
def arIspCm2GainMask : UInt32 := 0x0000007f
def arIspCm2Lo1Reg : ℕ := 0x481c
def arIspCm2Hi1Reg : ℕ := 0x4820
def arIspCm2Lo2Reg : ℕ := 0x4824
def arIspCm2Hi2Reg : ℕ := 0x4828
def arIspCm2Recip1Reg : ℕ := 0x482c
def arIspCm2Recip2Reg : ℕ := 0x4830
def arIspCm2RecipMask : UInt32 := 0x000003ff
def arIspCm2RecipNumerator : UInt32 := 1024
def arIspCm2BoundsOff : ℕ := 8
def arIspCm2Header : ℕ := 0xa1304

def cm2Table : ColourTable where
  header := arIspCm2Header
  axis := 0xa1318
  rows := 0x5
  columns := 1
  table := 0xa1378
  rowStride := 168
  recordStride := 24

structure ArIspCm2Row where
  gainField : UInt32
  lo1 : UInt32
  hi1 : UInt32
  lo2 : UInt32
  hi2 : UInt32
  recip1 : UInt32
  recip2 : UInt32

def arIspCm2Select (blob : Bytes) (triggerQ8 : UInt32) : ℕ × UInt32 :=
  cm2Table.select blob triggerQ8

def arIspCm2Bound (blob : Bytes) (row ct slot : ℕ) : Int32 :=
  (arIspGetLe32 blob (cm2Table.cell row ct + arIspCm2BoundsOff + slot * 4)).toInt32

def arIspCm2BlendBound (blob : Bytes) (row ct slot : ℕ) (tQ24 : UInt32) : Int32 :=
  if tQ24 ≠ 0 then
    arIspLadderBlendS32 (arIspCm2Bound blob (row - 1) ct slot) (arIspCm2Bound blob row ct slot)
      tQ24
  else arIspCm2Bound blob row ct slot

def cm2Recip (width : UInt32) : UInt32 :=
  if width ≠ 0 then arIspCm2RecipNumerator / width else 0

def arIspCm2FromBlob (blob : Bytes) (triggerQ8 : UInt32) (ct : ℕ) : ArIspCm2Row :=
  let ct := cm2Table.column blob ct
  let selected := arIspCm2Select blob triggerQ8
  let bound (slot : ℕ) : UInt32 := (arIspCm2BlendBound blob selected.1 ct slot selected.2).toUInt32
  { gainField := cm2Table.gainField blob selected.1 ct selected.2
    lo1 := bound 0
    hi1 := bound 1
    lo2 := bound 2
    hi2 := bound 3
    recip1 := cm2Recip (bound 1 - bound 0)
    recip2 := cm2Recip (bound 3 - bound 2) }

end MlKernel.Isp
