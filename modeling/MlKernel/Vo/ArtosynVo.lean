import MlKernel.Lib.BitField
import MlKernel.Lib.ShadowLatch
import Mathlib.Algebra.Ring.Int.Defs

/-!
# The display controller

The registers that the display driver writes, in the order it writes them.  The address
registers of the primary layer and of the overlay banks are shadow registers: they load when
they are written with `LOCK` set in `VO_MAIN_CTRL`, which also starts and stops the scanout.
-/

namespace MlKernel.Vo

open BitField

abbrev U32 : Type := BitVec 32

/-! ### Registers -/

/-- A register of the controller, or of its clock and reset page. -/
inductive VoReg
  | regs (offset : ℕ)
  | crg (offset : ℕ)
  deriving DecidableEq, Repr

def voGlobal : VoReg := .regs 0x0000
def voGlobalAxiEn : U32 := bit 32 11
def voGlobalSreset : U32 := bit 32 12
def voFbBase0 : VoReg := .regs 0x1400
def voFbStride : VoReg := .regs 0x1408
def voPanelCtrl : VoReg := .regs 0x1418
def voHActFp : VoReg := .regs 0x1430
def voHSaBp : VoReg := .regs 0x1438
def voVActFp : VoReg := .regs 0x1440
def voVSaBp : VoReg := .regs 0x1448
def voCursorCfg : VoReg := .regs 0x1468
def voDpiFormat : VoReg := .regs 0x14b8
def voUStride : VoReg := .regs 0x1508
def voVStride : VoReg := .regs 0x1510
def voMainCtrl : VoReg := .regs 0x1518
def voMainLock : U32 := bit 32 3
def voMainStart : U32 := bit 32 4
def voFbFormat : VoReg := .regs 0x1520
def voLayerConfig : VoReg := .regs 0x1528
def voPlane2Base : VoReg := .regs 0x1530
def voPlane3Base : VoReg := .regs 0x1538
def voFifoThresh0 : VoReg := .regs 0x1800
def voFifoThresh1 : VoReg := .regs 0x1808
def voFbSize : VoReg := .regs 0x1810
def voWinX : VoReg := .regs 0x1828
def voWinY : VoReg := .regs 0x1830
def voLayerAlpha : VoReg := .regs 0x1a18
def voScalerRatio : VoReg := .regs 0x1a20
def voLayerCsc (i : ℕ) : VoReg := .regs (0x1e40 + i * 8)
def voDpiCtrl : VoReg := .regs 0x1f40
def voQos : VoReg := .regs 0xff00
def crgDc : VoReg := .crg 0x0018

/-- The registers of an overlay bank, by their offset in bank 0. -/
inductive OvlReg
  | config
  | alpha
  | base
  | stride
  | tl
  | br
  | srcGcolor
  | dstGcolor
  | ckey
  | ckeyHi
  | size
  | uplane
  | vplane
  | ustride
  | vstride
  | clear
  deriving DecidableEq, Repr

def OvlReg.offset : OvlReg → ℕ
  | config => 0x1540
  | alpha => 0x1580
  | base => 0x15c0
  | stride => 0x1600
  | tl => 0x1640
  | br => 0x1680
  | srcGcolor => 0x16c0
  | dstGcolor => 0x1700
  | ckey => 0x1740
  | ckeyHi => 0x1780
  | size => 0x17c0
  | uplane => 0x1840
  | vplane => 0x1880
  | ustride => 0x18c0
  | vstride => 0x1900
  | clear => 0x1940

def voOvlEmit : U32 := bit 32 24
def voOvlAlphaPerpixel : U32 := 0x00003140
def voOvlAlphaOpaque : U32 := 0x00008120
def voOvlSwizzle : U32 := bit 32 5
def voOvlFmtArgb4444 : U32 := (bit 32 16) ||| voOvlSwizzle

/-- The registers of one kind are 0x40 apart, which leaves room for sixteen banks at a stride
of 4; the controller has banks 0 and 1. -/
abbrev OvlBank : Type := Fin 16

def OvlBank.reg (bank : OvlBank) (reg : OvlReg) : VoReg := .regs (reg.offset + 4 * bank.val)

/-! ### Framebuffers and formats -/

def drmFormatXrgb8888 : U32 := 0x34325258
def drmFormatYuv420 : U32 := 0x32315559
def drmFormatYvu420 : U32 := 0x32315659
def drmFormatNv12 : U32 := 0x3231564e

/-- A framebuffer with the DMA addresses of its planes. -/
structure Framebuffer where
  format : U32
  isYuv : Bool
  numPlanes : ℕ
  pitches : ℕ → U32
  address : ℕ → BitVec 64

def lower32Bits (address : BitVec 64) : U32 := address.setWidth 32

/-- The surface format, and whether it is YUV. -/
def arVoSurfaceEnum (fourcc : U32) : U32 × Bool :=
  if fourcc = drmFormatYuv420 ∨ fourcc = drmFormatYvu420 then (15, true)
  else if fourcc = drmFormatNv12 then (17, true)
  else (5, false)

def voFbConfigYuv : U32 := bit 32 14

def arVoFbConfig (fourcc : U32) : U32 :=
  let cfg := ((arVoSurfaceEnum fourcc).1 <<< 26) ||| 0x11
  if (arVoSurfaceEnum fourcc).2 then cfg ||| voFbConfigYuv else cfg

/-! ### The driver's state -/

/-- The two words the driver keeps, and everything it has written, newest first. -/
structure ArVo where
  curFormat : U32
  curCfg : U32
  writes : List (VoReg × U32)

/-- What a register reads as, after these writes; the hardware sets bits of its own. -/
abbrev Readl : Type := List (VoReg × U32) → VoReg → U32

def writel (vo : ArVo) (value : U32) (reg : VoReg) : ArVo :=
  { vo with writes := (reg, value) :: vo.writes }

def ArVo.readl (vo : ArVo) (hw : Readl) (reg : VoReg) : U32 := hw vo.writes reg

def writelAll (vo : ArVo) (writes : List (U32 × VoReg)) : ArVo :=
  writes.foldl (fun vo write => writel vo write.1 write.2) vo

/-- Read-modify-writes, one after the other. -/
def updatelAll (vo : ArVo) (hw : Readl) (updates : List (VoReg × (U32 → U32))) : ArVo :=
  updates.foldl (fun vo update => writel vo (update.2 (vo.readl hw update.1)) update.1) vo

def arVoOvlWr (vo : ArVo) (bank : OvlBank) (reg : OvlReg) (value : U32) : ArVo :=
  writel vo value (bank.reg reg)

def arVoOvlRd (vo : ArVo) (hw : Readl) (bank : OvlBank) (reg : OvlReg) : U32 :=
  vo.readl hw (bank.reg reg)

/-! ### The primary layer -/

def arVoSetFbAddr (vo : ArVo) (fb : Framebuffer) : ArVo :=
  let y := lower32Bits (fb.address 0)
  let u := if 1 < fb.numPlanes then lower32Bits (fb.address 1) else y
  let v := if 2 < fb.numPlanes then lower32Bits (fb.address 2) else u
  let cfg := vo.curCfg
  let vo := writel vo (cfg ||| voMainLock) voMainCtrl
  let vo := writelAll vo [(y, voFbBase0), (u, voPlane2Base), (v, voPlane3Base)]
  writel vo (cfg &&& ~~~voMainLock) voMainCtrl

def arVoLayerCscBt709Full : List U32 :=
  [0x00000401, 0x00000001, 0x00000629, 0x007cecfb,
   0x00000401, 0x00001f45, 0x00001e2b, 0x00014aa1,
   0x00000401, 0x00000745, 0x00001fff, 0x007c60c5,
   0x00000001, 0x00ff0001, 0x00ff0001, 0x00ff0001]

def arVoSetLayerCsc (vo : ArVo) : ArVo :=
  let cfg := vo.curCfg
  let vo := writel vo (cfg ||| voMainLock) voMainCtrl
  let vo := writelAll vo (arVoLayerCscBt709Full.mapIdx fun i value => (value, voLayerCsc i))
  writel vo (cfg &&& ~~~voMainLock) voMainCtrl

/-- The format with display-start held off. -/
def arVoProgramLayer (vo : ArVo) (fb : Framebuffer) : ArVo :=
  let cfg := arVoFbConfig fb.format &&& ~~~voMainStart
  let vo := writel vo (fb.pitches 0) voFbStride
  let vo :=
    if fb.isYuv then
      writelAll vo [(fb.pitches 1, voUStride), (fb.pitches 2, voVStride), (1, voLayerConfig)]
    else vo
  let vo := writel { vo with curCfg := cfg } cfg voMainCtrl
  let vo := if fb.isYuv then arVoSetLayerCsc vo else vo
  { vo with curFormat := fb.format }

/-- Programs the layer, latches its addresses and asserts display-start last. -/
def arVoShow (vo : ArVo) (fb : Framebuffer) : ArVo :=
  let vo := arVoProgramLayer vo fb
  let vo := arVoSetFbAddr vo fb
  let cfg := vo.curCfg ||| voMainStart
  writel { vo with curCfg := cfg } cfg voMainCtrl

/-- The subsystem bring-up at the clock and reset page, and the cursor off. -/
def arVoBringUp : List (VoReg × (U32 → U32)) :=
  [(crgDc, (· ||| bit 32 0)), (crgDc, (· ||| bit 32 1)), (crgDc, (· &&& ~~~(bit 32 2))),
   (crgDc, (· ||| bit 32 12)), (crgDc, (· &&& ~~~0x600)), (crgDc, (· ||| 0x600)),
   (voCursorCfg, (· &&& ~~~0x3))]

/-- The timing and the geometry of 1080p60. -/
def arVo1080p60 : List (U32 × VoReg) :=
  [(0x082b0780, voHActFp), (0x440007d5, voHSaBp), (0x04780438, voVActFp), (0x422c8458, voVSaBp),
   (0x021c0780, voFbSize), (0, voWinX), (0, voWinY), (0x3c0, voFifoThresh0),
   (0x3c0, voFifoThresh1), (0xff000000, voLayerAlpha), (0x80008000, voScalerRatio),
   (0x00000000, voFbFormat), (0x00000005, voDpiFormat), (0x00000311, voPanelCtrl),
   (0x00120000, voDpiCtrl), (0xff, voQos)]

def arVoPipeEnable (hw : Readl) (vo : ArVo) (fb : Framebuffer) : ArVo :=
  let vo := updatelAll vo hw arVoBringUp
  let g := vo.readl hw voGlobal
  let vo := writelAll vo [(g ||| voGlobalSreset, voGlobal), (g, voGlobal)]
  let vo := writel vo 0 voMainCtrl
  let vo := updatelAll vo hw [(voGlobal, (· &&& ~~~voGlobalAxiEn))]
  let vo := writelAll vo arVo1080p60
  arVoShow vo fb

def arVoPipeDisable (vo : ArVo) : ArVo :=
  let vo := writel vo 0 voMainCtrl
  { vo with curCfg := vo.curCfg &&& ~~~voMainStart }

/-- Programs the layer on a format switch, and latches the addresses otherwise. -/
def arVoPipeUpdate (vo : ArVo) (fb : Option Framebuffer) : ArVo :=
  match fb with
  | none => vo
  | some fb => if fb.format ≠ vo.curFormat then arVoShow vo fb else arVoSetFbAddr vo fb

/-! ### The overlay planes -/

/-- The destination rectangle of an overlay. -/
structure DstRect where
  x1 : ℤ
  y1 : ℤ
  x2 : ℤ
  y2 : ℤ

/-- A point or a size in one word: x in the low fifteen bits, y above them. -/
def packXy (x y : ℤ) : U32 :=
  (BitVec.ofInt 32 x &&& 0x7fff) ||| ((BitVec.ofInt 32 y &&& 0x7fff) <<< 15)

/-- The new state of an overlay plane. -/
structure OvlState where
  fb : Option Framebuffer
  /-- There is a CRTC and its state is active. -/
  active : Bool
  dst : DstRect

def arVoOvlCommit (hw : Readl) (vo : ArVo) (bank : OvlBank) (dst : DstRect) (y u v : U32) : ArVo :=
  let cfg := vo.curCfg
  let dw := dst.x2 - dst.x1
  let dh := dst.y2 - dst.y1
  let vo := writelAll vo
    [(0, bank.reg .srcGcolor), (0, bank.reg .dstGcolor), (0, bank.reg .ckey),
     (0, bank.reg .ckeyHi), (0, bank.reg .clear), (packXy dw dh, bank.reg .size)]
  let vo := writel vo (cfg ||| voMainLock) voMainCtrl
  let vo := writelAll vo
    [(y, bank.reg .base), (u, bank.reg .uplane), (v, bank.reg .vplane),
     (packXy dst.x1 dst.y1, bank.reg .tl), (packXy (dst.x1 + dw) (dst.y1 + dh), bank.reg .br)]
  let vo := writel vo (cfg &&& ~~~voMainLock) voMainCtrl
  arVoOvlWr vo bank .config (arVoOvlRd vo hw bank .config ||| voOvlEmit)

def arVoHudUpdate (hw : Readl) (vo : ArVo) (bank : OvlBank) (ns : OvlState) : ArVo :=
  match ns.fb with
  | none => vo
  | some fb =>
      if !ns.active then vo
      else
        let addr := lower32Bits (fb.address 0)
        let vo := arVoOvlWr vo bank .stride (fb.pitches 0)
        let vo := arVoOvlWr vo bank .alpha voOvlAlphaPerpixel
        let vo := arVoOvlWr vo bank .config voOvlFmtArgb4444
        arVoOvlCommit hw vo bank ns.dst addr addr addr

/-- The addresses and the strides of the two chroma planes. -/
def arVoVidChroma (fb : Framebuffer) : (U32 × U32) × (U32 × U32) :=
  if fb.format = drmFormatNv12 then
    let u := lower32Bits (fb.address 1)
    let us := fb.pitches 1
    ((u, u), (us, us))
  else
    let yvu := fb.format = drmFormatYvu420
    let p1 := lower32Bits (fb.address 1)
    let p2 := lower32Bits (fb.address 2)
    ((if yvu then p2 else p1, if yvu then p1 else p2),
      (fb.pitches (if yvu then 2 else 1), fb.pitches (if yvu then 1 else 2)))

def arVoVidUpdate (hw : Readl) (vo : ArVo) (bank : OvlBank) (ns : OvlState) : ArVo :=
  match ns.fb with
  | none => vo
  | some fb =>
      if !ns.active then vo
      else
        let fmt := (arVoSurfaceEnum fb.format).1
        let y := lower32Bits (fb.address 0)
        let chroma := arVoVidChroma fb
        let vo := arVoOvlWr vo bank .stride (fb.pitches 0)
        let vo := arVoOvlWr vo bank .ustride chroma.2.1
        let vo := arVoOvlWr vo bank .vstride chroma.2.2
        let vo := arVoOvlWr vo bank .alpha voOvlAlphaOpaque
        let vo := arVoOvlWr vo bank .config ((fmt <<< 16) ||| voOvlSwizzle)
        arVoOvlCommit hw vo bank ns.dst y chroma.1.1 chroma.1.2

def arVoOvlDisable (hw : Readl) (vo : ArVo) (bank : OvlBank) : ArVo :=
  arVoOvlWr vo bank .config (arVoOvlRd vo hw bank .config &&& ~~~voOvlEmit)

end MlKernel.Vo
