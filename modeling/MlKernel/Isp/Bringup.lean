import MlKernel.Isp.ColourMatrix
import MlKernel.Isp.Gates
import MlKernel.Isp.LadderParity
import MlKernel.Isp.LtmPage
import MlKernel.Lib.Republish

/-!
# The bring-up of the block

The configuration replays a table of register writes that was recorded with other buffers in the
descriptors, and names the buffers of the driver afterwards.  Arming the output replays a second
table over some of them.  Both can run again while the frame interrupt moves the statistics engines
between the halves of their buffers.
-/

namespace MlKernel.Isp

/-! ### Registers and buffers -/

def arIspTableCommit : ℕ := 0x0014
def arIspTableCommitEnable : UInt32 := 0x00010000
def arIspTableCompanderBit : UInt32 := 0x00000001
def arIspTableGammaBits : UInt32 := 0x0000000e
def arIspTableDrcBit : UInt32 := 0x00000010
def arIspTableHdrValid : ℕ := 0x1c60
def arIspTableLscValid : ℕ := 0x4c3c
def arIspTableHdrLscValid : ℕ := 0x1e40
def arIspHdrCompander : UInt32 := 0xa00
def arIspGibCtrl : ℕ := 0x2408
def arIspGibBypass : UInt32 := 0x40000000
def arIspIntrStatus0 : ℕ := 0x00cc
def arIspIntrStatus1 : ℕ := 0x00d4
def arIspIntrStatsEvent : UInt32 := 0x100
def arIspLtmMeshPasses : ℕ := 0x2834
def arIspLtmMeshPassSecond : UInt32 := 4
def arIspRgb2yuvBank : ℕ := 0x3c00
def arIspRgb2yuvRegs : ℕ := 6

/-- A register that holds the address of a buffer. -/
inductive Descriptor
  | compander | gamma0 | gamma1 | gamma2 | drc | hdr | lsc | hdrLsc
  | rro0 | rro1 | rroFace | hist | ltmPage | ltmStats
  | de3dBuf0A | de3dBuf0B | de3dBuf1A | de3dBuf1B | de3dBuf2A | de3dBuf2B
  deriving DecidableEq, Repr

namespace Descriptor

def reg : Descriptor → ℕ
  | compander => 0x0020
  | gamma0 => 0x0030
  | gamma1 => 0x0040
  | gamma2 => 0x0050
  | drc => 0x0060
  | hdr => 0x1c6c
  | lsc => 0x4c34
  | hdrLsc => 0x1e38
  | rro0 => 0x6440
  | rro1 => 0x6474
  | rroFace => 0x6508
  | hist => 0x600c
  | ltmPage => 0x2808
  | ltmStats => 0x280c
  | de3dBuf0A => 0x2e3c
  | de3dBuf0B => 0x2e58
  | de3dBuf1A => 0x2e44
  | de3dBuf1B => 0x2e60
  | de3dBuf2A => 0x2e80
  | de3dBuf2B => 0x2e88

/-- The statistics engines, which every frame sends to the other half. -/
def flips : Descriptor → Bool
  | rro0 | rro1 | rroFace | hist => true
  | _ => false

/-- What lies between the halves of the buffer, if it has two. -/
def halfSize : Descriptor → UInt32
  | rro0 | rro1 | rroFace => .ofNat arIspRroSize
  | hist => .ofNat arIspHistSize
  | ltmPage => .ofNat arIspLtmPageSize
  | _ => 0

end Descriptor

def Half.offset (half : Half) (size : UInt32) : UInt32 :=
  match half with
  | .zero => 0
  | .one => size

/-- What `ar_isp_tables_prepare` settles: the buffers it could allocate, each by the lower half of
its bus address, and the tuning file. -/
structure IspProbe where
  gamma : Option UInt32
  drc : Option UInt32
  tone : Option UInt32
  lsc : Option UInt32
  hdrLsc : Option UInt32
  rro : Option UInt32
  rroFace : Option UInt32
  hist : Option UInt32
  ltmPage : Option UInt32
  ltmStats : Option UInt32
  de3d : Fin 3 → Option UInt32
  tuning : Option Tuning

/-- The address for a descriptor, with the first half where the buffer has two. -/
def IspProbe.base (isp : IspProbe) : Descriptor → Option UInt32
  | .compander => isp.tone.map (· + arIspHdrCompander)
  | .gamma0 | .gamma1 | .gamma2 => isp.gamma
  | .drc => isp.drc
  | .hdr => isp.tone
  | .lsc => isp.lsc
  | .hdrLsc => isp.hdrLsc
  | .rro0 | .rro1 => isp.rro
  | .rroFace => isp.rroFace
  | .hist => isp.hist
  | .ltmPage => isp.ltmPage
  | .ltmStats => isp.ltmStats
  | .de3dBuf0A | .de3dBuf0B => isp.de3d 0
  | .de3dBuf1A | .de3dBuf1B => isp.de3d 1
  | .de3dBuf2A | .de3dBuf2B => isp.de3d 2

/-- The registers, and what the driver keeps beside them. -/
structure IspBlock where
  regs : RegFile
  statsCur : Half
  statsDone : Half
  statsValid : Bool
  statsFlips : UInt32
  ltmPageHalf : Half
  ccmBank : UInt32
  configured : Bool

/-! ### The tables -/

def arIspHwOwned : List ℕ := [0x00cc, 0x00f0, 0x0834, 0x08a8, 0x2838, 0x2e98, 0x3ca8, 0x3cac]

def arIspKept : List (ℕ × UInt32) := [(0x6518, 0x00000001), (0x651c, 0x00000001)]

def arIspOutputFix : List (ℕ × UInt32) := [(0x2e2c, 0x00000100), (0x2e30, 0x001020fc)]

def arIspLnrFix : List (ℕ × UInt32) := [(0x3d44, 0xfffdf800)]

def arIspOutputArm : List (ℕ × UInt32) := [
  (0x00cc, 0x00000000), (0x00d4, 0x10000600), (0x00cc, 0x00000000), (0x00d4, 0x00000100),
  (0x2e74, 0x00000c00), (0x2e00, 0x1f070002), (0x2e90, 0x03000100), (0x6440, 0x2a66a200),
  (0x6474, 0x2a66a200), (0x600c, 0x2a6a1200), (0x280c, 0x2a723200), (0x6508, 0x2a7ac200),
  (0x1d1c, 0x00000000), (0x1c08, 0x00000000), (0x1df0, 0x00000000), (0x0000, 0xb0280052),
  (0x0000, 0xb0280052), (0x0c10, 0x00000003), (0x0c10, 0x00000002), (0x1800, 0x000000e0),
  (0x1804, 0x04380780), (0x1808, 0x000f000a), (0x180c, 0x000f000a), (0x1810, 0x000f000a),
  (0x1814, 0x000f000a), (0x1818, 0x000f000a), (0x181c, 0x000f000a), (0x1820, 0x000f000a),
  (0x1824, 0x000f000a), (0x1828, 0x000f000a), (0x182c, 0x000f000a), (0x1830, 0x000f000a),
  (0x1834, 0x000f000a), (0x1838, 0x06400c80), (0x183c, 0x00000258), (0x1840, 0x060a0d10),
  (0x1844, 0x06400c80), (0x1848, 0x00000258), (0x184c, 0x060a0d10), (0x1850, 0x06400c80),
  (0x1854, 0x00000258), (0x1858, 0x060a0d10), (0x185c, 0x06400c80), (0x1860, 0x00000258),
  (0x1864, 0x060a0d10), (0x1868, 0x3c281a0d), (0x186c, 0xc8a0785a), (0x1870, 0x00080806),
  (0x1874, 0x000c0a0a), (0x1878, 0x00100e0e), (0x187c, 0x3c281a0d), (0x1880, 0xc8a0785a),
  (0x1884, 0x00080806), (0x1888, 0x000c0a0a), (0x188c, 0x00100e0e), (0x1890, 0x0001030c),
  (0x1800, 0x000000e0), (0x1800, 0x000000e0), (0x0000, 0xb0280052), (0x4c40, 0x00010040),
  (0x4c34, 0x2b2e8600), (0x4c24, 0x00000034), (0x4c30, 0x00000034), (0x4c28, 0x00000034),
  (0x4c3c, 0x00000001), (0x4c00, 0x00000001), (0x3000, 0x00000000)]

def arIspDpcPayload : List (ℕ × UInt32) := [
  (0x0c00, 0x00000000), (0x0c04, 0x00000780), (0x0c08, 0x00000438), (0x0c0c, 0x00000000),
  (0x0c10, 0x00000001), (0x0c14, 0x00000040), (0x0c18, 0x00000000), (0x0c1c, 0x000003e8),
  (0x0c20, 0x00000578), (0x0c24, 0x00000640), (0x0c28, 0x000003e8), (0x0c2c, 0x000000c8),
  (0x0c30, 0x00000320), (0x0c34, 0x00000bb8), (0x0c38, 0x000000c8), (0x0c3c, 0x00000190),
  (0x0c40, 0x000003e8), (0x0c44, 0x000000c8), (0x0c48, 0x00000320), (0x0c4c, 0x00000033),
  (0x0c50, 0x00000020), (0x0c54, 0x00000040), (0x0c58, 0x00000080), (0x0c5c, 0x00000100),
  (0x0c60, 0x00000200), (0x0c64, 0x00000000), (0x0c68, 0x00000020), (0x0c6c, 0x00000060),
  (0x0c70, 0x000000a0), (0x0c74, 0x000000e0), (0x0c78, 0x00000000), (0x0c7c, 0x00000000),
  (0x0c80, 0x00000000), (0x0c84, 0x00000000), (0x0c88, 0x00000000), (0x0c8c, 0x00000000),
  (0x0c90, 0x00000000), (0x0c94, 0x00000000), (0x0c98, 0x00000000), (0x0c9c, 0x00000000),
  (0x0ca0, 0x00000000), (0x0ca4, 0x00000000), (0x0ca8, 0x00000000), (0x0cac, 0x00000000),
  (0x0cb0, 0x00000000), (0x0cb4, 0x00000000), (0x0cb8, 0x00000000), (0x0cbc, 0x00000000),
  (0x0cc0, 0x00000000), (0x0cc4, 0x00000000), (0x0cc8, 0x00000000), (0x0ccc, 0x00000000),
  (0x0cd0, 0x00000000), (0x0cd4, 0x00000000), (0x0cd8, 0x00000000), (0x0cdc, 0x00000000),
  (0x0ce0, 0x00000000), (0x0ce4, 0x00000000), (0x0ce8, 0x00000000), (0x0cec, 0x00000000),
  (0x0cf0, 0x00000000), (0x0cf4, 0x00000000), (0x0cf8, 0x00000000), (0x0cfc, 0x00000000),
  (0x0d00, 0x00000000), (0x0d04, 0x00000000), (0x0d08, 0x000000ff)]

def arIspCscMatrices : List (List UInt32) := [
  [0x02590132, 0x00000074, 0x815280ad, 0x02000200, 0x81ad0200, 0x02008052],
  [0x02dc00da, 0x00000049, 0x81938077, 0x020b020b, 0x81db020b, 0x020b8030],
  [0x02040107, 0x00000064, 0x81298097, 0x01c101c1, 0x817801c1, 0x01c18048],
  [0x027400bb, 0x0000003f, 0x815a8067, 0x01c101c1, 0x819801c1, 0x01c18028]]

/-- The recorded tables: the setup in the order of its writes, and the correction measured against a
running device. -/
structure IspReplay where
  setup1080p60 : List (ℕ × UInt32)
  vendorTrim : List (ℕ × UInt32)

/-! ### The geometry of temporal denoise -/

def arIspDe3dHts : UInt32 := 2200
def arIspDe3dWorkMode : UInt32 := 1

def arIspDe3dCeil (a b : UInt32) : UInt32 := (a + b - 1) / b
def arIspDe3dAlign256 (v : UInt32) : UInt32 := (v + 0xff) &&& ~~~0xff

def arIspDe3dGeomRegs : List (ℕ × UInt32) := [
  (0x24, 0x9fff0000), (0x38, 0x1001ffff), (0x40, 0x8011ffff), (0x48, 0x1fff1fff),
  (0x54, 0xffff0f07), (0x5c, 0xffffffff), (0x64, 0xffffffff), (0x68, 0x0000003f),
  (0x74, 0x00003f01), (0x78, 0x80f00000), (0x7c, 0x00000001), (0x84, 0xffffffff),
  (0x8c, 0xffffffff)]

def arIspDe3dGeomPack (width hts mode : UInt32) : List UInt32 :=
  let tiles := arIspDe3dCeil width 20
  let stride := arIspDe3dAlign256 (tiles * 16)
  let stride2 := arIspDe3dAlign256 (arIspDe3dCeil width 8)
  let blank := hts - width
  let delay := blank + blank * 5 / 100 + 200
  let blocks := arIspDe3dCeil width 16
  [delay <<< 16,
    0x10010000 ||| (stride &&& 0xffff),
    0x80110000 ||| (stride &&& 0xffff),
    (delay <<< 16) ||| 50,
    ((blocks - 1) <<< 24) ||| ((width / 2 - 7 * blocks - 1) <<< 16) ||| 4,
    stride, stride, arIspDe3dCeil width 320, ((20 - width % 20) % 20) <<< 8,
    0x80800000, mode &&& 1, stride2, stride2]

/-- The size is read back from the block; a block without one is left alone. -/
def arIspDe3dGeomApply (regs : RegFile) : RegFile :=
  let size := regs (arIspDe3dBank + 0x04)
  let width := size >>> 16
  let height := size &&& 0x1fff
  if width = 0 ∨ height = 0 then regs
  else
    (arIspDe3dGeomRegs.zip (arIspDe3dGeomPack width arIspDe3dHts arIspDe3dWorkMode)).foldl
      (fun regs entry => arIspRmw (arIspDe3dBank + entry.1.1) entry.1.2 entry.2 regs) regs

/-- A matrix that does not exist, and a negative choice, leave the replayed one. -/
def arIspRgb2yuvApply (csc : Int32) (regs : RegFile) : RegFile :=
  if csc < 0 then regs
  else
    match arIspCscMatrices[csc.toInt.toNat]? with
    | none => regs
    | some m => writeWords arIspRgb2yuvRegs arIspRgb2yuvBank (fun i => m.getD i 0) regs

/-! ### Publishing -/

namespace IspProbe

/-- Each engine whose buffer is owned is sent to the half. -/
def arIspStatsArm (isp : IspProbe) (half : Half) (regs : RegFile) : RegFile :=
  let regs :=
    match isp.rro with
    | none => regs
    | some rro =>
        let a := rro + half.offset (.ofNat arIspRroSize)
        writel a Descriptor.rro1.reg (writel a Descriptor.rro0.reg regs)
  let regs :=
    match isp.rroFace with
    | none => regs
    | some face => writel (face + half.offset (.ofNat arIspRroSize)) Descriptor.rroFace.reg regs
  match isp.hist with
  | none => regs
  | some hist => writel (hist + half.offset (.ofNat arIspHistSize)) Descriptor.hist.reg regs

/-- The descriptor of the page is written with the half. -/
def ltmDescriptor (isp : IspProbe) (half : Half) (regs : RegFile) : RegFile :=
  match isp.ltmPage with
  | none => regs
  | some page => writel (page + half.offset (.ofNat arIspLtmPageSize)) Descriptor.ltmPage.reg regs

end IspProbe

/-- The module parameters that a call reads. -/
structure IspParams where
  trim : Bool
  tables : Bool
  hdr : Bool
  gib : Bool
  gates : Bool
  ccm : Bool
  dpc : Bool
  csc : Int32
  ladders : LadderParams

/-! ### Passes -/

/-- What a call does between two points where another call or an interrupt can come.  A table is
replayed in as many passes as it has entries. -/
inductive IspPass
  | writel (value : UInt32) (off : ℕ)
  | setBits (bits : UInt32) (off : ℕ)
  /-- The locked section of `ar_isp_stats_publish`. -/
  | statsPublish
  | ltmDescriptor
  /-- The locked section of `ar_isp_ltm_page_publish`. -/
  | ltmPagePublish
  | rgb2yuvApply (csc : Int32)
  | laddersApply (params : LadderParams)
  | de3dGeomApply
  | gatesVeto (commit : Bool)
  | ccmApply (ccm : Bool)
  | configured

/-- The status words that the interrupt finds, and whether the halves are to be flipped. -/
structure IspSignal where
  status0 : UInt32
  status1 : UInt32
  pingpong : Bool

namespace IspProbe

def exec (isp : IspProbe) (pass : IspPass) (s : IspBlock) : IspBlock :=
  match pass with
  | .writel value off => { s with regs := Isp.writel value off s.regs }
  | .setBits bits off => { s with regs := Isp.writel (s.regs off ||| bits) off s.regs }
  | .statsPublish =>
      { s with
        statsCur := .zero, statsDone := .zero, statsValid := false
        regs := isp.arIspStatsArm .zero s.regs }
  | .ltmDescriptor => { s with regs := isp.ltmDescriptor s.ltmPageHalf s.regs }
  | .ltmPagePublish =>
      if isp.ltmPage.isSome then
        let next := s.ltmPageHalf.other
        { s with regs := isp.ltmDescriptor next s.regs, ltmPageHalf := next }
      else s
  | .rgb2yuvApply csc => { s with regs := arIspRgb2yuvApply csc s.regs }
  | .laddersApply params =>
      { s with regs := arIspLaddersApply params (isp.tuning.map Tuning.data) s.regs }
  | .de3dGeomApply => { s with regs := arIspDe3dGeomApply s.regs }
  | .gatesVeto commit => { s with regs := (arIspGatesVeto isp.tuning commit s.regs).2 }
  | .ccmApply ccm =>
      let applied := arIspCcmApply ccm (isp.tuning.map Tuning.data) s.ccmBank s.regs
      { s with regs := applied.1, ccmBank := applied.2 }
  | .configured => { s with configured := true }

/-- The interrupt: both status words are acknowledged, and a frame that has ended sends the engines
to the other half. -/
def arIspIrq (isp : IspProbe) (signal : IspSignal) (s : IspBlock) : IspBlock :=
  if signal.status0 = 0 ∧ signal.status1 = 0 then s
  else
    let regs := writel signal.status0 arIspIntrStatus0 s.regs
    let regs := writel signal.status1 arIspIntrStatus1 regs
    if signal.status1 &&& arIspIntrStatsEvent ≠ 0 ∧ signal.pingpong then
      let next := s.statsCur.other
      { s with
        regs := isp.arIspStatsArm next regs
        statsDone := s.statsCur, statsCur := next, statsValid := true
        statsFlips := s.statsFlips + 1 }
    else { s with regs }

end IspProbe

/-! ### Calls -/

def arIspApply (tbl : List (ℕ × UInt32)) : List IspPass :=
  tbl.map fun entry => .writel entry.2 entry.1

/-- The entries of registers that the hardware writes are left out. -/
def arIspApplyTrim (tbl : List (ℕ × UInt32)) : List IspPass :=
  arIspApply (tbl.filter fun entry => entry.1 ∉ arIspHwOwned)

def arIspDpcApply (dpc : Bool) : List IspPass := if dpc then arIspApply arIspDpcPayload else []

namespace IspProbe

variable (isp : IspProbe)

def arIspPublishGamma : List IspPass :=
  match isp.gamma with
  | none => []
  | some addr =>
      [.writel addr Descriptor.gamma0.reg, .writel addr Descriptor.gamma1.reg,
        .writel addr Descriptor.gamma2.reg,
        .writel (arIspTableCommitEnable ||| arIspTableGammaBits) arIspTableCommit]

def arIspPublishDrc : List IspPass :=
  match isp.drc with
  | none => []
  | some addr =>
      [.writel addr Descriptor.drc.reg,
        .writel (arIspTableCommitEnable ||| arIspTableDrcBit) arIspTableCommit]

def arIspPublishTone (hdr : Bool) : List IspPass :=
  match isp.tone with
  | none => []
  | some addr =>
      [.writel (addr + arIspHdrCompander) Descriptor.compander.reg,
        .writel (arIspTableCommitEnable ||| arIspTableCompanderBit) arIspTableCommit] ++
      if hdr then [.writel addr Descriptor.hdr.reg, .writel 1 arIspTableHdrValid] else []

def arIspPublishLsc : List IspPass :=
  match isp.lsc with
  | none => []
  | some addr => [.writel addr Descriptor.lsc.reg, .writel 1 arIspTableLscValid]

def arIspPublishHdrLsc : List IspPass :=
  match isp.hdrLsc with
  | none => []
  | some addr => [.writel addr Descriptor.hdrLsc.reg, .writel 1 arIspTableHdrLscValid]

def publishLtmStats : List IspPass :=
  match isp.ltmStats with
  | none => []
  | some addr => [.writel addr Descriptor.ltmStats.reg]

def arIspStatsPublish : List IspPass :=
  [.statsPublish, .ltmDescriptor] ++ isp.publishLtmStats ++
    [.writel arIspLtmMeshPassSecond arIspLtmMeshPasses]

/-- One of the three buffers, to both of its registers. -/
def publishDe3d (buf : Fin 3) (a b : Descriptor) : List IspPass :=
  match isp.de3d buf with
  | none => []
  | some addr => [.writel addr a.reg, .writel addr b.reg]

def arIspDe3dPublish : List IspPass :=
  isp.publishDe3d 0 .de3dBuf0A .de3dBuf0B ++ isp.publishDe3d 1 .de3dBuf1A .de3dBuf1B ++
    isp.publishDe3d 2 .de3dBuf2A .de3dBuf2B

def arIspTablesApply (params : IspParams) : List IspPass :=
  if params.tables then
    isp.arIspPublishGamma ++ (isp.arIspPublishDrc ++ (isp.arIspPublishTone params.hdr ++
      (isp.arIspPublishLsc ++ (isp.arIspPublishHdrLsc ++ (isp.arIspStatsPublish ++
        isp.arIspDe3dPublish)))))
  else []

/-- What both configurations end with. -/
def derive (params : IspParams) : List IspPass :=
  [.rgb2yuvApply params.csc, .laddersApply params.ladders, .de3dGeomApply, .gatesVeto params.gates,
    .configured]

def arIspConfigure (replay : IspReplay) (params : IspParams) : List IspPass :=
  arIspApply arIspKept ++ arIspApply replay.setup1080p60 ++
    (if params.trim then arIspApplyTrim replay.vendorTrim else []) ++
    arIspApply arIspOutputFix ++ arIspApply arIspLnrFix ++
    (isp.arIspTablesApply params ++ derive params)

def arIspConfigurePrefix (replay : IspReplay) (params : IspParams) (n : ℕ) : List IspPass :=
  arIspApply arIspKept ++ arIspApply (replay.setup1080p60.take n) ++
    arIspApply arIspOutputFix ++ arIspApply arIspLnrFix ++
    (isp.arIspTablesApply params ++ derive params)

def arIspArmOutput (params : IspParams) : List IspPass :=
  let derived : List IspPass :=
    [.ccmApply params.ccm, .laddersApply params.ladders] ++ arIspDpcApply params.dpc ++
      (if params.gib then [.setBits arIspGibBypass arIspGibCtrl] else []) ++
      [.writel 0 arIspTableHdrValid, .writel 0 arIspTableHdrLscValid]
  arIspApply arIspOutputArm ++
    (isp.arIspStatsPublish ++ (isp.arIspDe3dPublish ++ (derived ++ isp.arIspPublishLsc)))

end IspProbe

/-- The ways into the block from outside the interrupt. -/
inductive IspCall
  | pipelineStart (setupEntries : ℕ)
  | configure
  | configureUpto (n : ℕ)
  | arm
  | ladders
  /-- With the pages that had to be built again. -/
  | tone (gamma drc : Bool)
  | ltmPage
  deriving DecidableEq, Repr

namespace IspCall

def replays : IspCall → Bool
  | pipelineStart _ | configure | configureUpto _ => true
  | _ => false

def passes (isp : IspProbe) (replay : IspReplay) (params : IspParams) : IspCall → List IspPass
  | pipelineStart n => isp.arIspConfigurePrefix replay params n ++ isp.arIspArmOutput params
  | configure => isp.arIspConfigure replay params
  | configureUpto n => isp.arIspConfigurePrefix replay params n
  | arm => isp.arIspArmOutput params
  | ladders => [.laddersApply params.ladders, .de3dGeomApply]
  | tone gamma drc =>
      if params.tables then
        (if gamma then isp.arIspPublishGamma else []) ++ if drc then isp.arIspPublishDrc else []
      else []
  | ltmPage => [.ltmPagePublish]

end IspCall

/-! ### What leaves the descriptors alone -/

section Frames

variable {isp : IspProbe} {params : IspParams} {replay : IspReplay} {s : IspBlock}

theorem foldl_rmw_of_untouched {entries : List ((ℕ × UInt32) × UInt32)} {base off : ℕ}
    (untouched : ∀ entry ∈ entries, off ≠ base + entry.1.1) (regs : RegFile) :
    entries.foldl (fun regs entry => arIspRmw (base + entry.1.1) entry.1.2 entry.2 regs) regs off =
      regs off := by
  induction entries generalizing regs with
  | nil => rfl
  | cons entry entries ih =>
      have later := ih (fun other member => untouched other (List.mem_cons_of_mem _ member))
        (arIspRmw (base + entry.1.1) entry.1.2 entry.2 regs)
      exact later.trans (Function.update_of_ne (untouched entry List.mem_cons_self) _ _)

theorem de3dGeomApply_descriptor (regs : RegFile) (d : Descriptor) :
    arIspDe3dGeomApply regs d.reg = regs d.reg := by
  have apart : ∀ row ∈ arIspDe3dGeomRegs, d.reg ≠ arIspDe3dBank + row.1 := by
    cases d <;> decide
  simp only [arIspDe3dGeomApply]
  split
  · rfl
  · apply foldl_rmw_of_untouched
    intro entry member
    exact apart entry.1 (List.of_mem_zip member).1

theorem rgb2yuvApply_descriptor (csc : Int32) (regs : RegFile) (d : Descriptor) :
    arIspRgb2yuvApply csc regs d.reg = regs d.reg := by
  have apart : ∀ i < arIspRgb2yuvRegs, d.reg ≠ arIspRgb2yuvBank + i * 4 := by
    cases d <;> decide
  unfold arIspRgb2yuvApply
  split
  · rfl
  · cases arIspCscMatrices[csc.toInt.toNat]? with
    | none => rfl
    | some m => exact writeWords_of_outside apart

theorem ccmApply_descriptor (ccm : Bool) (tuning : Option Bytes) (bank : UInt32) (regs : RegFile)
    (d : Descriptor) : (arIspCcmApply ccm tuning bank regs).1 d.reg = regs d.reg := by
  have first : ∀ i < 20, d.reg ≠ arIspCcm1Bank + i * 4 := by
    cases d <;> decide
  have second : ∀ i < 20, d.reg ≠ arIspCcm2Bank + i * 4 := by
    cases d <;> decide
  have matrix : ∀ i < arIspCcmWords, d.reg ≠ arIspCcm1Bank + i * 4 := fun i inside =>
    first i (inside.trans (by decide))
  have base : ∀ values values' : ℕ → UInt32,
      writeWords 20 arIspCcm2Bank values' (writeWords 20 arIspCcm1Bank values regs) d.reg =
        regs d.reg := fun _ _ =>
    (writeWords_of_outside second).trans (writeWords_of_outside first)
  cases ccm with
  | false => rfl
  | true =>
      cases tuning with
      | none =>
          simp only [arIspCcmApply, Bool.true_eq_false, if_false]
          exact base _ _
      | some blob =>
          by_cases asked : arIspGetLe32 blob arIspCcmBlobGate = 1
          · simp only [arIspCcmApply, asked, ne_eq, not_true, if_false, Bool.true_eq_false]
            exact (writeWords_of_outside matrix).trans (base _ _)
          · simp only [arIspCcmApply, asked, ne_eq, not_false_eq_true, if_true, if_false,
              Bool.true_eq_false]
            exact base _ _

theorem gatesVeto_descriptor (tuning : Option Tuning) (commit : Bool) (regs : RegFile)
    (d : Descriptor) : (arIspGatesVeto tuning commit regs).2 d.reg = regs d.reg := by
  have apart : ∀ entry ∈ gateEntries, d.reg ≠ entry.2.reg := by
    cases d <;> decide +kernel
  cases tuning with
  | none => rfl
  | some tuning =>
      have run : ∀ (entries : List GateEntry) (state : List GateDeviation × RegFile),
          (∀ entry ∈ entries, d.reg ≠ entry.2.reg) →
            (entries.foldl (vetoEntry tuning commit) state).2 d.reg = state.2 d.reg := by
        intro entries
        induction entries with
        | nil => exact fun _ _ => rfl
        | cons entry entries ih =>
            intro state apart
            have here : (vetoEntry tuning commit state entry).2 d.reg = state.2 d.reg := by
              simp only [vetoEntry, vetoGate]
              split
              · rfl
              · split
                · rfl
                · split
                  · exact Function.update_of_ne (apart entry List.mem_cons_self) _ _
                  · rfl
            exact (ih _ fun other member => apart other (List.mem_cons_of_mem _ member)).trans here
      rw [arIspGatesVeto_eq]
      exact run gateEntries ([], regs) apart

theorem laddersApply_descriptor (params : LadderParams) (tuning : Option Bytes) (regs : RegFile)
    (d : Descriptor) : arIspLaddersApply params tuning regs d.reg = regs d.reg := by
  cases tuning with
  | none =>
      simp [arIspLaddersApply, arIspRnrApply, arIspLnrApply, arIspDe3dApply, arIspCfaApply,
        arIspCnfApply, arIspCmApply, arIspCm2Apply, recompute]
  | some blob =>
      have banks : ∀ bank ∈ ladderFootprints, bank = (0x2e00, 0x2f3c) ∨
          ¬Within bank.1 bank.2 d.reg := by
        cases d <;> decide
      have de3d : d.reg ∉ de3dAddrs := by
        cases d <;> decide +kernel
      have outside {start stop : ℕ} (member : (start, stop) ∈ ladderFootprints)
          (other : (start, stop) ≠ (0x2e00, 0x2f3c)) : ¬Within start stop d.reg :=
        (banks _ member).resolve_left other
      simp only [arIspLaddersApply, ← rnrStage_apply, ← lnrStage_apply, ← de3dStage_apply,
        ← cfaStage_apply, ← cnfStage_apply, ← cmStage_apply, ← cm2Stage_apply]
      rw [(cm2Stage params blob).toStage.apply_frame _ _ (outside (by decide) (by decide)),
        (cmStage params blob).toStage.apply_frame _ _ (outside (by decide) (by decide)),
        (cnfStage params blob).toStage.apply_frame _ _ (outside (by decide) (by decide)),
        (cfaStage params blob).toStage.apply_frame _ _ (outside (by decide) (by decide)),
        WriteStage.apply_of_untouched (by rwa [de3dStage, de3dWrites_addr]),
        (lnrStage params blob).toStage.apply_frame _ _ (outside (by decide) (by decide)),
        (rnrStage params blob).toStage.apply_frame _ _ (outside (by decide) (by decide))]

end Frames

/-! ### What the descriptors hold -/

/-- The register holds the address of the buffer that the driver owns, and of the half that the
engines are to write where these have two; the page may be published with either half. -/
def IspProbe.Names (isp : IspProbe) (d : Descriptor) (s : IspBlock) : Prop :=
  ∃ base half, isp.base d = some base ∧ (d.flips = true → half = s.statsCur) ∧
    s.regs d.reg = base + half.offset d.halfSize

def IspProbe.owns (isp : IspProbe) (d : Descriptor) : Bool := (isp.base d).isSome

def IspProbe.publishes (isp : IspProbe) (pass : IspPass) (d : Descriptor) : Bool :=
  match pass with
  | .writel value off => !d.flips && off == d.reg && isp.base d == some value
  | .statsPublish => d.flips && isp.owns d
  | .ltmDescriptor | .ltmPagePublish => d == .ltmPage && isp.owns d
  | _ => false

def IspProbe.spares (isp : IspProbe) (pass : IspPass) (d : Descriptor) : Bool :=
  match pass with
  | .writel _ off | .setBits _ off => off != d.reg
  | .statsPublish => !(d.flips && isp.owns d)
  | .ltmDescriptor | .ltmPagePublish => !(d == .ltmPage && isp.owns d)
  | _ => true

section Republish

variable {isp : IspProbe} {params : IspParams} {replay : IspReplay} {s : IspBlock} {d : Descriptor}

theorem Descriptor.reg_injective : Function.Injective Descriptor.reg := by
  intro d d' same
  cases d <;> cases d' <;> first | rfl | cases same

theorem writel_descriptor {value : UInt32} {off : ℕ} (apart : d.reg ≠ off) (regs : RegFile) :
    writel value off regs d.reg = regs d.reg :=
  Function.update_of_ne apart _ _

theorem statsArm_engine (flips : d.flips = true) {base : UInt32} (owned : isp.base d = some base)
    (half : Half) (regs : RegFile) :
    isp.arIspStatsArm half regs d.reg = base + half.offset d.halfSize := by
  cases rro : isp.rro <;> cases face : isp.rroFace <;> cases hist : isp.hist <;> cases d <;>
    simp_all [IspProbe.arIspStatsArm, writel, Descriptor.reg, Descriptor.flips, IspProbe.base,
      Descriptor.halfSize]

theorem statsArm_other (other : d.flips = false ∨ isp.base d = none) (half : Half)
    (regs : RegFile) : isp.arIspStatsArm half regs d.reg = regs d.reg := by
  cases rro : isp.rro <;> cases face : isp.rroFace <;> cases hist : isp.hist <;> cases d <;>
    simp_all [IspProbe.arIspStatsArm, writel, Descriptor.reg, Descriptor.flips, IspProbe.base]

theorem ltmDescriptor_page {page : UInt32} (owned : isp.ltmPage = some page) (half : Half)
    (regs : RegFile) : isp.ltmDescriptor half regs Descriptor.ltmPage.reg =
      page + half.offset Descriptor.ltmPage.halfSize := by
  simp only [IspProbe.ltmDescriptor, owned]
  exact Function.update_self ..

theorem ltmDescriptor_other (other : d ≠ .ltmPage ∨ isp.ltmPage = none) (half : Half)
    (regs : RegFile) : isp.ltmDescriptor half regs d.reg = regs d.reg := by
  unfold IspProbe.ltmDescriptor
  cases owned : isp.ltmPage with
  | none => rfl
  | some page =>
      have apart : d ≠ .ltmPage := other.resolve_right (by simp [owned])
      exact writel_descriptor (fun same => apart (Descriptor.reg_injective same)) regs

/-- A register that keeps its word names the same buffer, and the same half if its engines are left
on it. -/
theorem names_of_kept {after : IspBlock} (names : isp.Names d s)
    (word : after.regs d.reg = s.regs d.reg)
    (cur : d.flips = true → after.statsCur = s.statsCur) : isp.Names d after := by
  rcases names with ⟨base, half, owned, onHalf, held⟩
  exact ⟨base, half, owned, fun flips => (onHalf flips).trans (cur flips).symm, word.trans held⟩

theorem names_published {pass : IspPass} (s : IspBlock) (publishes : isp.publishes pass d = true) :
    isp.Names d (isp.exec pass s) := by
  cases pass with
  | writel value off =>
      simp only [IspProbe.publishes, Bool.and_eq_true, Bool.not_eq_true', beq_iff_eq] at publishes
      rcases publishes with ⟨⟨single, rfl⟩, owned⟩
      refine ⟨value, .zero, owned, ?_, ?_⟩
      · intro flips
        rw [single] at flips
        cases flips
      · refine (Function.update_self ..).trans ?_
        exact (UInt32.add_zero value).symm
  | statsPublish =>
      simp only [IspProbe.publishes, IspProbe.owns, Bool.and_eq_true, Option.isSome_iff_exists]
        at publishes
      rcases publishes with ⟨flips, base, owned⟩
      exact ⟨base, .zero, owned, fun _ => rfl, statsArm_engine flips owned _ _⟩
  | ltmDescriptor =>
      simp only [IspProbe.publishes, IspProbe.owns, Bool.and_eq_true, Option.isSome_iff_exists,
        beq_iff_eq] at publishes
      rcases publishes with ⟨rfl, page, owned⟩
      exact ⟨page, s.ltmPageHalf, owned, nofun, ltmDescriptor_page owned _ _⟩
  | ltmPagePublish =>
      simp only [IspProbe.publishes, IspProbe.owns, Bool.and_eq_true, Option.isSome_iff_exists,
        beq_iff_eq] at publishes
      rcases publishes with ⟨rfl, page, owned⟩
      refine ⟨page, s.ltmPageHalf.other, owned, nofun, ?_⟩
      have here : isp.ltmPage.isSome = true := Option.isSome_of_mem owned
      simp only [IspProbe.exec, here, if_true]
      exact ltmDescriptor_page owned _ _
  | _ => cases publishes

theorem names_spared {pass : IspPass} (spares : isp.spares pass d = true)
    (names : isp.Names d s) : isp.Names d (isp.exec pass s) := by
  have owned : isp.base d ≠ none := by
    rcases names with ⟨base, -, owned, -⟩
    simp [owned]
  cases pass with
  | writel value off =>
      have apart : off ≠ d.reg := by simpa [IspProbe.spares] using spares
      exact names_of_kept names (writel_descriptor apart.symm _) fun _ => rfl
  | setBits bits off =>
      have apart : off ≠ d.reg := by simpa [IspProbe.spares] using spares
      exact names_of_kept names (writel_descriptor apart.symm _) fun _ => rfl
  | statsPublish =>
      have single : d.flips = false := by
        simpa [IspProbe.spares, IspProbe.owns, owned] using spares
      refine names_of_kept names (statsArm_other (.inl single) _ _) ?_
      intro flips
      rw [single] at flips
      cases flips
  | ltmDescriptor =>
      have other : d ≠ .ltmPage := by
        simpa [IspProbe.spares, IspProbe.owns, owned] using spares
      exact names_of_kept names (ltmDescriptor_other (.inl other) _ _) fun _ => rfl
  | ltmPagePublish =>
      have other : d ≠ .ltmPage := by
        simpa [IspProbe.spares, IspProbe.owns, owned] using spares
      simp only [IspProbe.exec]
      split
      · exact names_of_kept names (ltmDescriptor_other (.inl other) _ _) fun _ => rfl
      · exact names
  | rgb2yuvApply csc => exact names_of_kept names (rgb2yuvApply_descriptor _ _ d) fun _ => rfl
  | laddersApply params => exact names_of_kept names (laddersApply_descriptor _ _ _ d) fun _ => rfl
  | de3dGeomApply => exact names_of_kept names (de3dGeomApply_descriptor _ d) fun _ => rfl
  | gatesVeto commit => exact names_of_kept names (gatesVeto_descriptor _ _ _ d) fun _ => rfl
  | ccmApply ccm => exact names_of_kept names (ccmApply_descriptor _ _ _ _ d) fun _ => rfl
  | configured => exact names

/-- A frame interrupt sends the engines to the other half of the buffers they had. -/
theorem names_interrupted (signal : IspSignal) (names : isp.Names d s) :
    isp.Names d (isp.arIspIrq signal s) := by
  have acknowledged : ∀ regs : RegFile,
      writel signal.status1 arIspIntrStatus1 (writel signal.status0 arIspIntrStatus0 regs) d.reg =
        regs d.reg := by
    have apart : d.reg ≠ arIspIntrStatus1 ∧ d.reg ≠ arIspIntrStatus0 := by
      cases d <;> decide
    intro regs
    exact (writel_descriptor apart.1 _).trans (writel_descriptor apart.2 _)
  simp only [IspProbe.arIspIrq]
  split
  · exact names
  · split
    · by_cases flips : d.flips = true
      · rcases names with ⟨base, -, owned, -⟩
        exact ⟨base, s.statsCur.other, owned, fun _ => rfl, statsArm_engine flips owned _ _⟩
      · have single : d.flips = false := by simpa using flips
        refine names_of_kept names ?_ fun here => absurd here flips
        exact (statsArm_other (.inl single) _ _).trans (acknowledged s.regs)
    · exact names_of_kept names (acknowledged s.regs) fun _ => rfl

end Republish

/-- The block with its calls and its interrupt, over the descriptors. -/
def IspProbe.republish (isp : IspProbe) : Republish IspBlock IspPass IspSignal Descriptor where
  exec := isp.exec
  interrupt := isp.arIspIrq
  Holds := isp.Names
  publishes := isp.publishes
  spares := isp.spares
  holds_published s publishes := names_published s publishes
  holds_spared spares names := names_spared spares names
  holds_interrupted signal names := names_interrupted signal names

@[simp]
theorem republish_publishes (isp : IspProbe) : isp.republish.publishes = isp.publishes := rfl

@[simp]
theorem republish_spares (isp : IspProbe) : isp.republish.spares = isp.spares := rfl

/-! ### What each piece of a call names -/

section Pieces

variable {isp : IspProbe} {params : IspParams} {replay : IspReplay} {d : Descriptor}

/-- The owned ones among some descriptors. -/
def IspProbe.Owned (isp : IspProbe) (ds : List Descriptor) (d : Descriptor) : Prop :=
  d ∈ ds ∧ isp.owns d = true

attribute [local simp] IspProbe.Owned IspProbe.owns IspProbe.base IspProbe.publishes IspProbe.spares
  Descriptor.reg Descriptor.flips

theorem publishGamma_publishes : isp.republish.Publishes isp.arIspPublishGamma
    (isp.Owned [.gamma0, .gamma1, .gamma2]) := by
  constructor <;> intro d <;> cases gamma : isp.gamma <;> cases d <;>
    simp [IspProbe.arIspPublishGamma, gamma, arIspTableCommit]

theorem publishDrc_publishes : isp.republish.Publishes isp.arIspPublishDrc (isp.Owned [.drc]) := by
  constructor <;> intro d <;> cases drc : isp.drc <;> cases d <;>
    simp [IspProbe.arIspPublishDrc, drc, arIspTableCommit]

theorem publishTone_publishes (hdr : Bool) : isp.republish.Publishes (isp.arIspPublishTone hdr)
    (isp.Owned (if hdr then [.compander, .hdr] else [.compander])) := by
  cases hdr <;> constructor <;> intro d <;> cases tone : isp.tone <;> cases d <;>
    simp [IspProbe.arIspPublishTone, tone, arIspTableCommit, arIspTableHdrValid]

theorem publishLsc_publishes : isp.republish.Publishes isp.arIspPublishLsc (isp.Owned [.lsc]) := by
  constructor <;> intro d <;> cases lsc : isp.lsc <;> cases d <;>
    simp [IspProbe.arIspPublishLsc, lsc, arIspTableLscValid]

theorem publishHdrLsc_publishes :
    isp.republish.Publishes isp.arIspPublishHdrLsc (isp.Owned [.hdrLsc]) := by
  constructor <;> intro d <;> cases hdrLsc : isp.hdrLsc <;> cases d <;>
    simp [IspProbe.arIspPublishHdrLsc, hdrLsc, arIspTableHdrLscValid]

theorem statsPublish_publishes : isp.republish.Publishes isp.arIspStatsPublish
    (isp.Owned [.rro0, .rro1, .rroFace, .hist, .ltmPage, .ltmStats]) := by
  constructor <;> intro d <;> cases ltmStats : isp.ltmStats <;> cases d <;>
    simp [IspProbe.arIspStatsPublish, IspProbe.publishLtmStats, ltmStats, arIspLtmMeshPasses]

theorem de3dPublish_publishes : isp.republish.Publishes isp.arIspDe3dPublish
    (isp.Owned [.de3dBuf0A, .de3dBuf0B, .de3dBuf1A, .de3dBuf1B, .de3dBuf2A, .de3dBuf2B]) := by
  constructor <;> intro d <;> cases buf0 : isp.de3d 0 <;> cases buf1 : isp.de3d 1 <;>
    cases buf2 : isp.de3d 2 <;> cases d <;>
    simp [IspProbe.arIspDe3dPublish, IspProbe.publishDe3d, buf0, buf1, buf2]

/-- With the parameters as they are, a call that replays names the buffer again. -/
def IspParams.Claims (params : IspParams) (d : Descriptor) : Prop :=
  params.tables = true ∧ (d = .hdr → params.hdr = true)

theorem tablesApply_publishes (on : params.tables = true) :
    isp.republish.Publishes (isp.arIspTablesApply params) fun d =>
      isp.owns d = true ∧ params.Claims d := by
  have pieces := publishGamma_publishes.append (publishDrc_publishes.append
    ((publishTone_publishes params.hdr).append (publishLsc_publishes.append
      (publishHdrLsc_publishes.append (statsPublish_publishes.append
        (@de3dPublish_publishes isp))))))
  rw [IspProbe.arIspTablesApply, if_pos on]
  apply pieces.congr
  intro d
  cases hdr : params.hdr <;> cases d <;> simp [IspParams.Claims, on, hdr]

theorem derive_spares (d : Descriptor) :
    isp.republish.sparesAll (IspProbe.derive params) d = true := by
  simp [IspProbe.derive]

theorem tablesApply_derive_publishes (on : params.tables = true) :
    isp.republish.Publishes (isp.arIspTablesApply params ++ IspProbe.derive params) fun d =>
      isp.owns d = true ∧ params.Claims d :=
  (tablesApply_publishes on).before derive_spares

theorem configure_restores (owned : isp.owns d = true) (claims : params.Claims d) :
    isp.republish.restores (isp.arIspConfigure replay params) d = true :=
  Republish.restores_append ((tablesApply_derive_publishes claims.1).restores d ⟨owned, claims⟩)

theorem configurePrefix_restores (n : ℕ) (owned : isp.owns d = true) (claims : params.Claims d) :
    isp.republish.restores (isp.arIspConfigurePrefix replay params n) d = true :=
  Republish.restores_append ((tablesApply_derive_publishes claims.1).restores d ⟨owned, claims⟩)

theorem apply_spares {tbl : List (ℕ × UInt32)} (outside : ∀ entry ∈ tbl, entry.1 ≠ d.reg) :
    isp.republish.sparesAll (arIspApply tbl) d = true := by
  rw [Republish.sparesAll, arIspApply, List.all_map, List.all_eq_true]
  intro entry member
  simpa using outside entry member

/-- The descriptors that arming the output disturbs or names. -/
def armed : List Descriptor :=
  [.rro0, .rro1, .rroFace, .hist, .ltmPage, .ltmStats, .de3dBuf0A, .de3dBuf0B, .de3dBuf1A,
    .de3dBuf1B, .de3dBuf2A, .de3dBuf2B, .lsc]

/-- What arming does beyond the descriptors. -/
theorem armRest_spares (d : Descriptor) :
    isp.republish.sparesAll ([.ccmApply params.ccm, .laddersApply params.ladders] ++
      arIspDpcApply params.dpc ++
      (if params.gib then [.setBits arIspGibBypass arIspGibCtrl] else []) ++
      [.writel 0 arIspTableHdrValid, .writel 0 arIspTableHdrLscValid]) d = true := by
  have dpc : isp.republish.sparesAll (arIspDpcApply params.dpc) d = true := by
    unfold arIspDpcApply
    split
    · apply apply_spares
      cases d <;> decide
    · rfl
  simp only [Republish.sparesAll_append, dpc]
  cases params.gib <;> cases d <;>
    simp [arIspGibCtrl, arIspTableHdrValid, arIspTableHdrLscValid]

theorem armOutput_minds (owned : isp.owns d = true) :
    isp.republish.Minds (isp.arIspArmOutput params) d := by
  have pieces := (@statsPublish_publishes isp).append (de3dPublish_publishes.append
    (publishLsc_publishes.after fun d _ => @armRest_spares isp params d))
  by_cases inside : d ∈ armed
  · refine .inl (Republish.restores_append (pieces.restores d ?_))
    cases d <;> first | simpa using owned | simp [armed] at inside
  · refine Republish.Minds.append (.inr (apply_spares ?_)) (pieces.minds d)
    cases d <;> first | decide | simp [armed] at inside

/-- A call keeps a descriptor when, if it replays, it names the buffer again. -/
def IspCall.Keeps (params : IspParams) (d : Descriptor) (call : IspCall) : Prop :=
  call.replays = true → params.Claims d

theorem passes_restores {call : IspCall} (replays : call.replays = true)
    (owned : isp.owns d = true) (claims : params.Claims d) :
    isp.republish.restores (call.passes isp replay params) d = true := by
  cases call with
  | pipelineStart n =>
      exact Republish.restores_append_minds (configurePrefix_restores n owned claims)
        (armOutput_minds owned)
  | configure => exact configure_restores owned claims
  | configureUpto n => exact configurePrefix_restores n owned claims
  | _ => cases replays

theorem passes_minds {call : IspCall} (keeps : call.Keeps params d) (owned : isp.owns d = true) :
    isp.republish.Minds (call.passes isp replay params) d := by
  by_cases replays : call.replays = true
  · exact .inl (passes_restores replays owned (keeps replays))
  cases call with
  | arm => exact armOutput_minds owned
  | ladders => exact .inr (by simp [IspCall.passes])
  | tone gamma drc =>
      have none : isp.republish.Minds [] d := .inr rfl
      simp only [IspCall.passes]
      split
      · apply Republish.Minds.append
        · cases gamma
          · exact none
          · exact publishGamma_publishes.minds d
        · cases drc
          · exact none
          · exact publishDrc_publishes.minds d
      · exact none
  | ltmPage =>
      by_cases page : d = .ltmPage
      · subst page
        left
        simpa [IspCall.passes] using owned
      · right
        simp [IspCall.passes, page]
  | _ => exact absurd rfl replays

end Pieces

/-- Over every run of overlapping calls and interrupts from where a call that replays starts, with
any others at any of their passes: the register holds the address of the buffer that the driver
owns, and of the half that the engines are to write, whenever no call in progress is still to name
it.  Every call that replays has to do so with the tables on, and with the page of the same
allocation on for that page's descriptor. -/
theorem bringup_names {isp : IspProbe} {replay : IspReplay} {params : IspParams} {call : IspCall}
    {start : IspBlock} {others : List (List IspPass)}
    {events : List (Republish.Event IspPass IspSignal)} {s : IspBlock × List (List IspPass)}
    (run : Run (fun s event after => isp.republish.step s event = some after)
      (start, others ++ [call.passes isp replay params]) events s)
    {d : Descriptor} (owned : isp.owns d = true)
    (replays : call.replays = true) (claims : params.Claims d)
    (inProgress : ∀ rest ∈ others, ∃ (call : IspCall) (params : IspParams) (done : List IspPass),
      call.passes isp replay params = done ++ rest ∧ call.Keeps params d)
    (calls : ∀ program, .call program ∈ events → ∃ (call : IspCall) (params : IspParams),
      program = call.passes isp replay params ∧ call.Keeps params d)
    (settled : ∀ rest ∈ s.2, isp.republish.restores rest d = false) : isp.Names d s.1 := by
  have restored := @passes_restores isp params replay d call replays owned claims
  refine Republish.holds_of_run run ?_ ?_ ?_ settled
  · intro rest member
    rcases List.mem_append.mp member with other | last
    · rcases inProgress rest other with ⟨call, params, done, split, keeps⟩
      have minds := @passes_minds isp params replay d call keeps owned
      rw [split] at minds
      exact minds.of_append
    · cases List.mem_singleton.mp last
      exact .inl restored
  · exact ⟨_, List.mem_append_right _ (List.mem_singleton.mpr rfl), restored⟩
  · intro later member
    rcases calls later member with ⟨call, params, rfl, keeps⟩
    exact passes_minds keeps owned

/-- Gamma and histogram buffers, over a setup that names others. -/
def IspProbe.two : IspProbe where
  gamma := some 0x30000000
  drc := none
  tone := none
  lsc := none
  hdrLsc := none
  rro := none
  rroFace := none
  hist := some 0x30010000
  ltmPage := none
  ltmStats := none
  de3d _ := none
  tuning := none

def IspReplay.two : IspReplay where
  setup1080p60 := [(0x0030, 0x2b2ec600), (0x600c, 0x2a6a1200)]
  vendorTrim := []

def IspParams.initial : IspParams where
  trim := true
  tables := true
  hdr := true
  gib := true
  gates := false
  ccm := true
  dpc := true
  csc := 0
  ladders := ⟨256, 256, 256, 50, 50, 256, 256, 0, 0⟩

def IspBlock.reset : IspBlock where
  regs _ := 0
  statsCur := .zero
  statsDone := .zero
  statsValid := false
  statsFlips := 0
  ltmPageHalf := .zero
  ccmBank := 0
  configured := false

/-- A configuration while an LTM page is still to be named, with a frame before its last three
passes, and the ladders while it runs. -/
def twoEvents : List (Republish.Event IspPass IspSignal) :=
  List.replicate 16 (.pass 1) ++
    [.call (IspCall.ladders.passes .two .two .initial), .interrupt ⟨0, 0x100, true⟩, .pass 2] ++
    List.replicate 3 (.pass 1) ++ [.pass 2]

theorem bringup_names_two : ∃ s,
    Run (fun s event after => IspProbe.two.republish.step s event = some after)
      (IspBlock.reset, [IspCall.ltmPage.passes .two .two .initial] ++
        [(IspCall.configureUpto 2).passes .two .two .initial]) twoEvents s ∧
    IspProbe.two.Names .hist s.1 ∧ s.1.statsCur = .one := by
  have run := @Run.of_foldlM _ _ IspProbe.two.republish.step
    (IspBlock.reset, [IspCall.ltmPage.passes .two .two .initial] ++
      [(IspCall.configureUpto 2).passes .two .two .initial]) _ twoEvents rfl
  refine ⟨_, run, bringup_names run rfl rfl ⟨rfl, nofun⟩ ?_ ?_ ?_, rfl⟩
  · intro rest member
    cases List.mem_singleton.mp member
    exact ⟨.ltmPage, .initial, [], rfl, nofun⟩
  · intro program member
    refine ⟨.ladders, .initial, ?_, nofun⟩
    simpa [twoEvents] using member
  · intro rest member
    have waiting : rest ∈ [IspCall.ltmPage.passes .two .two .initial, [], []] := member
    simp only [List.mem_cons, List.not_mem_nil, or_false, or_self] at waiting
    rcases waiting with rfl | rfl <;> rfl

end MlKernel.Isp
