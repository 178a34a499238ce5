import MlKernel.Isp.Ladder
import Mathlib.Logic.Function.Basic

/-!
# The noise ladders

The register banks that rnr, lnr and de3d recompute from the tuning file.
-/

namespace MlKernel.Isp

/-! ### rnr -/

def arIspRnrBank : ℕ := 0x1800
def arIspRnrLadderOff : ℕ := 0x08
def arIspRnrRegs : ℕ := 12
def arIspRnrLoWord : ℕ := 2
def arIspRnrHiWord : ℕ := 14

def arIspRnrBlobHeader : ℕ := 0x79d8

def arIspRnrLadder : ArIspLadder where
  hdr := arIspRnrBlobHeader
  bands := 0x79ec
  payload := 0x7a6c
  stride := 0x160
  countOff := 0xc
  maxBands := 0xc

/-- One register packs a pair of payload words. -/
def arIspRnrFromBlob (blob : Bytes) (gainQ16 : UInt32) (reg : ℕ) : UInt32 :=
  let selected := arIspLadderSelectF32 arIspRnrLadder blob gainQ16
  let word (index : ℕ) : UInt32 :=
    arIspLadderReadWordF32 arIspRnrLadder blob selected.1 (index * 4) selected.2
  let lo := word (arIspRnrLoWord + reg)
  let hi := word (arIspRnrHiWord + reg)
  (hi <<< 16) ||| (lo &&& (0xffff : UInt32))

def arIspRnrTail : ℕ := 0x38
def arIspRnrTailRegs : ℕ := 22
def arIspRnrTailWord : ℕ := 26
def arIspRnrTripleWords : ℕ := 7
def arIspRnrBlockWords : ℕ := 17
def arIspRnrF12 : UInt32 := 0xfff
def arIspRnrF8 : UInt32 := 0xff
def arIspRnrF5 : UInt32 := 0x1f

/-- `n` fields from consecutive payload words, `step` bits apart. -/
def arIspRnrPack (blob : Bytes) (band : ℕ) (frac : LadderFrac) (word n : ℕ) (mask : UInt32)
    (step : ℕ) : UInt32 :=
  (List.range n).foldl
    (fun out i =>
      let v := arIspLadderReadWordF32 arIspRnrLadder blob band ((word + i) * 4) frac
      out ||| ((v &&& mask) <<< UInt32.ofNat (i * step)))
    0

/-- The registers of a triple from its first word on. -/
def rnrTriple (pack : ℕ → ℕ → UInt32 → ℕ → UInt32) (word : ℕ) : List UInt32 :=
  [pack word 2 arIspRnrF12 16, pack (word + 2) 1 arIspRnrF12 0, pack (word + 3) 4 arIspRnrF5 8]

/-- The registers of a block of five from its first word on. -/
def rnrBlock (pack : ℕ → ℕ → UInt32 → ℕ → UInt32) (word : ℕ) : List UInt32 :=
  [pack word 4 arIspRnrF8 8, pack (word + 4) 4 arIspRnrF8 8, pack (word + 8) 3 arIspRnrF5 8,
    pack (word + 11) 3 arIspRnrF5 8, pack (word + 14) 3 arIspRnrF5 8]

def arIspRnrTailFromBlob (blob : Bytes) (gainQ16 : UInt32) (reg : ℕ) : UInt32 :=
  let selected := arIspLadderSelectF32 arIspRnrLadder blob gainQ16
  let pack := arIspRnrPack blob selected.1 selected.2
  let triples := (List.range 4).flatMap fun i =>
    rnrTriple pack (arIspRnrTailWord + i * arIspRnrTripleWords)
  let blocks := (List.range 2).flatMap fun i =>
    rnrBlock pack (arIspRnrTailWord + 4 * arIspRnrTripleWords + i * arIspRnrBlockWords)
  (triples ++ blocks).getD reg 0

/-! ### lnr -/

def arIspLnrBank : ℕ := 0x3cc8
def arIspLnrRegs : ℕ := 86

/-- The register that the vendor's packer never writes. -/
def arIspLnrSkipNeverWritten : ℕ := (0x3d10 - arIspLnrBank) / 4

def arIspLnrCurveRegs : ℕ := 48
def arIspLnrCurveFirstReg : ℕ := 38
def arIspLnrCurveSplit : ℕ := 16
def arIspLnrCurveStride : ℕ := 16
def arIspLnrCurveOffLow : ℕ := 0x110
def arIspLnrCurveOffHigh : ℕ := 0x228

def arIspLnrBlobHeader : ℕ := 0x89e88

def arIspLnrLadder : ArIspLadder where
  hdr := arIspLnrBlobHeader
  bands := 0x89e98
  payload := 0x89f18
  stride := 0x428
  countOff := 0x8
  maxBands := 0xb

/-- A payload word drives a bit field of a register. -/
structure ArIspLnrField where
  reg : ℕ
  off : ℕ
  shift : ℕ
  width : ℕ

def arIspLnrFields : List ArIspLnrField :=
  [⟨0, 0x000, 2, 1⟩, ⟨0, 0x004, 6, 1⟩, ⟨0, 0x008, 8, 1⟩, ⟨0, 0x00c, 9, 1⟩, ⟨0, 0x010, 12, 1⟩,
    ⟨0, 0x014, 24, 8⟩, ⟨1, 0x018, 0, 13⟩, ⟨1, 0x028, 16, 13⟩, ⟨2, 0x038, 0, 13⟩,
    ⟨2, 0x048, 16, 13⟩, ⟨3, 0x01c, 0, 13⟩, ⟨3, 0x02c, 16, 13⟩, ⟨4, 0x03c, 0, 13⟩,
    ⟨4, 0x04c, 16, 13⟩, ⟨5, 0x020, 0, 13⟩, ⟨5, 0x030, 16, 13⟩, ⟨6, 0x040, 0, 13⟩,
    ⟨6, 0x050, 16, 13⟩, ⟨7, 0x024, 0, 13⟩, ⟨7, 0x034, 16, 13⟩, ⟨8, 0x044, 0, 13⟩,
    ⟨8, 0x054, 16, 13⟩, ⟨9, 0x058, 0, 13⟩, ⟨9, 0x068, 16, 13⟩, ⟨10, 0x078, 0, 13⟩,
    ⟨10, 0x05c, 16, 13⟩, ⟨11, 0x06c, 0, 13⟩, ⟨11, 0x07c, 16, 13⟩, ⟨12, 0x060, 0, 13⟩,
    ⟨12, 0x070, 16, 13⟩, ⟨13, 0x080, 0, 13⟩, ⟨13, 0x064, 16, 13⟩, ⟨14, 0x074, 0, 13⟩,
    ⟨14, 0x084, 16, 13⟩, ⟨15, 0x210, 0, 8⟩, ⟨15, 0x214, 8, 8⟩, ⟨16, 0x218, 0, 8⟩,
    ⟨16, 0x21c, 8, 8⟩, ⟨17, 0x220, 0, 8⟩, ⟨17, 0x224, 8, 8⟩, ⟨20, 0x090, 0, 10⟩,
    ⟨20, 0x094, 16, 10⟩, ⟨21, 0x098, 0, 10⟩, ⟨21, 0x09c, 10, 10⟩, ⟨22, 0x0a0, 0, 10⟩,
    ⟨22, 0x0a4, 10, 10⟩, ⟨23, 0x0a8, 0, 10⟩, ⟨23, 0x0ac, 10, 10⟩, ⟨24, 0x0b0, 0, 10⟩,
    ⟨24, 0x0b4, 10, 10⟩, ⟨25, 0x0b8, 0, 10⟩, ⟨26, 0x0bc, 0, 16⟩, ⟨26, 0x0c0, 16, 16⟩,
    ⟨27, 0x0c4, 0, 16⟩, ⟨27, 0x0c8, 16, 16⟩, ⟨28, 0x0cc, 0, 16⟩, ⟨29, 0x0d0, 0, 10⟩,
    ⟨29, 0x0d4, 10, 10⟩, ⟨30, 0x0d8, 0, 10⟩, ⟨30, 0x0dc, 10, 10⟩, ⟨31, 0x0e0, 0, 10⟩,
    ⟨31, 0x0e4, 10, 10⟩, ⟨32, 0x0e8, 0, 10⟩, ⟨32, 0x0ec, 10, 10⟩, ⟨33, 0x0f0, 0, 10⟩,
    ⟨34, 0x0f4, 0, 16⟩, ⟨34, 0x0f8, 16, 16⟩, ⟨35, 0x0fc, 0, 16⟩, ⟨35, 0x100, 16, 16⟩,
    ⟨36, 0x104, 0, 16⟩, ⟨37, 0x108, 0, 10⟩, ⟨37, 0x10c, 16, 10⟩]

/-- The four byte fields of a curve register. -/
def lnrCurveFields (i : ℕ) : List ArIspLnrField :=
  let reg := arIspLnrCurveFirstReg + i
  let off :=
    if i < arIspLnrCurveSplit then arIspLnrCurveOffLow + i * arIspLnrCurveStride
    else arIspLnrCurveOffHigh + (i - arIspLnrCurveSplit) * arIspLnrCurveStride
  [⟨reg, off, 0, 8⟩, ⟨reg, off + 4, 8, 8⟩, ⟨reg, off + 8, 16, 8⟩, ⟨reg, off + 12, 24, 8⟩]

def arIspLnrPackField (blob : Bytes) (band : ℕ) (frac : LadderFrac) (dst : ℕ → UInt32)
    (f : ArIspLnrField) : ℕ → UInt32 :=
  let mask : UInt32 := if f.width = 32 then 0xffffffff else (1 <<< UInt32.ofNat f.width) - 1
  let field := arIspLadderReadWordF32 arIspLnrLadder blob band f.off frac
  let shift := UInt32.ofNat f.shift
  Function.update dst f.reg ((dst f.reg &&& ~~~(mask <<< shift)) ||| ((field &&& mask) <<< shift))

/-- The bank with every field packed into what it holds. -/
def arIspLnrFromBlob (blob : Bytes) (gainQ16 : UInt32) (dst : ℕ → UInt32) : ℕ → UInt32 :=
  let selected := arIspLadderSelectF32 arIspLnrLadder blob gainQ16
  let pack := arIspLnrPackField blob selected.1 selected.2
  let dst := arIspLnrFields.foldl pack dst
  (List.range arIspLnrCurveRegs).foldl (fun dst i => (lnrCurveFields i).foldl pack dst) dst

/-! ### de3d -/

def arIspDe3dBank : ℕ := 0x2e00
def arIspDe3dScalarRegs : ℕ := 19
def arIspDe3dAsymLo : ℕ := 0x8c
def arIspDe3dAsymHi : ℕ := 0x90
def arIspDe3dSlopeNum : ℤ := 65532
def arIspDe3dCurveOff : ℕ := 0xe0

def arIspDe3dBlobHeader : ℕ := 0x9631c

def arIspDe3dLadder : ArIspLadder where
  hdr := arIspDe3dBlobHeader
  bands := 0x9632c
  payload := 0x963ac
  stride := 0x2f8
  countOff := 0x8
  maxBands := 0xc

/-- The offset of each register in the bank, with the bits the ladder owns. -/
def arIspDe3dRegs : List (ℕ × UInt32) :=
  [(0x00, 0x0000000c), (0x10, 0xffffffff), (0x14, 0xffffffff), (0x18, 0xffffffff),
    (0x1c, 0x00003fff), (0x20, 0x01ff00ff), (0x28, 0x000001ff), (0x2c, 0xffffffff),
    (0x30, 0x000000ff), (0x4c, 0x00003fff), (0x90, 0x3c010077), (0x94, 0x00ffffff),
    (0x9c, 0x00ffffff), (0xa0, 0xffffffff), (0xa4, 0x03ff1fff), (0xa8, 0x03ff0fff),
    (0xac, 0x000001ff), (0xb0, 0xffffffff), (0xb4, 0x000000ff), (0xbc, 0xffffffff),
    (0xc0, 0xffffffff), (0xc4, 0xffffffff), (0xc8, 0xffffffff), (0xcc, 0xffffffff),
    (0xd0, 0xffffffff), (0xd4, 0xffffffff), (0xd8, 0xffffffff), (0xdc, 0xffffffff),
    (0xe0, 0xffffffff), (0xe4, 0xffffffff), (0xe8, 0xffffffff), (0xec, 0xffffffff),
    (0xf0, 0xffffffff), (0xf4, 0xffffffff), (0xf8, 0xffffffff), (0xfc, 0xffffffff),
    (0x100, 0xffffffff), (0x104, 0xffffffff), (0x108, 0xffffffff), (0x10c, 0xffffffff),
    (0x110, 0xffffffff), (0x114, 0xffffffff), (0x118, 0xffffffff), (0x11c, 0xffffffff),
    (0x120, 0xffffffff), (0x124, 0xffffffff), (0x128, 0xffffffff), (0x12c, 0xffffffff),
    (0x130, 0xffffffff), (0x134, 0xffffffff), (0x138, 0xffffffff)]

/-- One payload word, masked to the register field it feeds. -/
def arIspDe3dField (blob : Bytes) (band : ℕ) (frac : LadderFrac) (off width : ℕ) : UInt32 :=
  arIspLadderReadWordF32 arIspDe3dLadder blob band off frac &&&
    ((1 <<< UInt32.ofNat width) - 1 : UInt32)

/-- A knee slope: the numerator over the span between two payload fields. -/
def arIspDe3dSlope (blob : Bytes) (band : ℕ) (frac : LadderFrac) (hiOff loOff : ℕ) : UInt32 :=
  let span : Int32 :=
    (arIspLadderReadWordF32 arIspDe3dLadder blob band hiOff frac -
      arIspLadderReadWordF32 arIspDe3dLadder blob band loOff frac).toInt32
  if span = 0 then 0
  else UInt32.ofInt (arIspDe3dSlopeNum.tdiv span.toInt) &&& (0xffff : UInt32)

/-- The user strength: toward zero below 50, toward the ceiling above it. -/
def arIspDe3dStrength (v : UInt32) (strength : ℤ) (ceil : UInt32) : UInt32 :=
  if strength = 50 then v
  else
    let t : ℤ :=
      if strength < 50 then strength * v.toNat
      else 50 * ceil.toNat - (100 - strength) * (ceil.toNat - v.toNat)
    UInt32.ofInt (t.tdiv 50)

def arIspDe3dFromBlob (blob : Bytes) (gainQ16 : UInt32) (reg : ℕ) : UInt32 :=
  let selected := arIspLadderSelectF32 arIspDe3dLadder blob gainQ16
  let band := selected.1
  let frac := selected.2
  let asym : UInt32 :=
    blendWords blob arIspDe3dLadder.payload arIspDe3dLadder.stride band arIspDe3dAsymLo
      arIspDe3dAsymHi frac &&& (0xff : UInt32)
  let F := arIspDe3dField blob band frac
  let V := arIspDe3dField blob band .verbatim
  let S := arIspDe3dSlope blob band frac
  let scalars : List UInt32 :=
    [(V 0x04 1 <<< 3) ||| (V 0x08 1 <<< 2),
      (S 0x18 0x14 <<< 16) ||| (F 0x14 8 <<< 8) ||| F 0x18 8,
      (F 0x1c 8 <<< 24) ||| (F 0x20 8 <<< 16) ||| (F 0x24 8 <<< 8) ||| F 0x28 8,
      (S 0x30 0x2c <<< 16) ||| (F 0x2c 8 <<< 8) ||| F 0x30 8,
      F 0x34 14,
      (F 0x38 9 <<< 16) ||| F 0x40 8,
      F 0x44 9,
      (F 0x48 8 <<< 24) ||| (F 0x4c 8 <<< 16) ||| (F 0x50 8 <<< 8) ||| F 0x54 8,
      F 0x58 8,
      F 0x5c 14,
      (F 0xc8 1 <<< 26) ||| (F 0xcc 1 <<< 27) ||| (F 0xd0 1 <<< 28) ||| (F 0xd4 1 <<< 29) |||
        (F 0xd8 3 <<< 4) ||| F 0xdc 3 ||| 0x10000,
      (F 0x6c 8 <<< 16) ||| (F 0x70 8 <<< 8) ||| F 0x74 8,
      V 0x7c 1 ||| (V 0x80 1 <<< 1) ||| (V 0x84 1 <<< 2) ||| (V 0x88 1 <<< 3) |||
        (V 0x2e0 1 <<< 4) ||| (V 0x2e4 1 <<< 5) ||| (V 0x2e8 1 <<< 6) ||| (V 0x2ec 1 <<< 7) |||
        (F 0x2f0 8 <<< 8) ||| (F 0x2f4 8 <<< 16),
      F 0x8c 8 ||| (asym <<< 8) ||| (F 0x94 8 <<< 16) ||| (F 0x98 8 <<< 24),
      F 0x9c 13 ||| (F 0xa0 10 <<< 16),
      F 0xa4 12 ||| (F 0xa8 10 <<< 16),
      F 0xac 9,
      (F 0xb0 8 <<< 24) ||| (F 0xb4 8 <<< 16) ||| (F 0xb8 8 <<< 8) ||| F 0xbc 8,
      F 0xc0 8]
  let curve (i : ℕ) : UInt32 :=
    let base := arIspDe3dCurveOff + i * 16
    (F base 8 <<< 24) ||| (F (base + 4) 8 <<< 16) ||| (F (base + 8) 8 <<< 8) ||| F (base + 12) 8
  if reg < arIspDe3dScalarRegs then scalars.getD reg 0 else curve (reg - arIspDe3dScalarRegs)

end MlKernel.Isp
