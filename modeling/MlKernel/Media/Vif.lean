import Mathlib.Data.Int.Notation
import Mathlib.Logic.Function.Basic
import MlKernel.Lib.Run

/-!
# The capture front end

The registers of the VIF can be reached only while its AXI clock runs.  A call that brings the input
path up or takes it down, the interrupt handler and the polling work share the block: each goes on
one step at a time, in any order.  No lock keeps two calls apart either, so that a call may begin
while another one is in progress.
-/

namespace MlKernel.Media.Vif

/-! ### Registers -/

abbrev arVifViewControl : ℕ := 0x000
abbrev arVifViewAddrY : ℕ := 0x020
abbrev arVifViewAddrU : ℕ := 0x040
abbrev arVifViewAddrV : ℕ := 0x060
abbrev arVifViewMux : ℕ := 0x080
abbrev arVifViewStableCheck : ℕ := 0x084
abbrev arVifViewThreshold : ℕ := 0x08c
abbrev arVifRgb2yuv : ℕ := 0x090
abbrev arVifFeControl : ℕ := 0x0c0
abbrev arVifFeTiming : ℕ := 0x0c4
abbrev arVifFeFormat : ℕ := 0x0c8
abbrev arVifFeDatatype0 : ℕ := 0x0cc
abbrev arVifFeDatatype1 : ℕ := 0x0d0
abbrev arVifFeGeometryMargin : ℕ := 0x0d4
abbrev arVifFeGeometry : ℕ := 0x0d8
abbrev arVifFeHblank : ℕ := 0x0dc
abbrev arVifFeVblank : ℕ := 0x0e0
abbrev arVifFeLimit : ℕ := 0x0e8
abbrev arVifFeExtra : ℕ := 0x0ec
abbrev arVifFeIntrMask : ℕ := 0x0f0
abbrev arVifTestPattern : ℕ := 0x0f4
abbrev arVifIntrBank : ℕ := 0x100
abbrev arVifInputPipePreset : ℕ := 0x13c
abbrev arVifViewFifo : ℕ := 0x140
abbrev arVifIntrMaskA : ℕ := 0x178
abbrev arVifBpIntrStatus : ℕ := 0x17c
abbrev arVifIntrMaskB : ℕ := 0x180
abbrev arVifBpIntrStatusB : ℕ := 0x184
abbrev arVifAxiConfig : ℕ := 0x190
abbrev arVifBlockEnable : ℕ := 0x194
abbrev arVifIntrStatus : ℕ := 0x1b0
abbrev arVifInputPipeCtrl : ℕ := 0x1c0
abbrev arVifInputPipeConfig : ℕ := 0x1c4
abbrev arVifInputPipeMode : ℕ := 0x1c8
abbrev arVifInputFormatSelect : ℕ := 0x1d0
abbrev arVifViewStride0 : ℕ := 0x200
abbrev arVifViewStride1 : ℕ := 0x204
abbrev arVifViewFifoBurst : ℕ := 0x25c
abbrev arVifViewFrameBp : ℕ := 0x280
abbrev arVifFrameBoundary : ℕ := 0x2a8
abbrev arVifDdrClip : ℕ := 0x2ac
abbrev arVifFrameCtrl : ℕ := 0x2b0
abbrev arVifSoftReset : ℕ := 0x2bc
abbrev arVifLinebufferHdrMode : ℕ := 0x320
abbrev arVifIspifEnable : ℕ := 0x328
abbrev arVifLinebufferInput : ℕ := 0x32c
abbrev arVifViewDdrSizeY : ℕ := 0x340
abbrev arVifViewDdrSizeU : ℕ := 0x360
abbrev arVifViewDdrSizeV : ℕ := 0x380
abbrev arVifViewFrameEnd : ℕ := 0x3a0
abbrev arVifViewCropV : ℕ := 0x3c0
abbrev arVifViewCropH : ℕ := 0x3c4
abbrev arVifLineIntrClear : ℕ := 0x420
abbrev arVifLineIntrMask : ℕ := 0x424
abbrev arVifExtraIntrMask : ℕ := 0x5c0
abbrev arVifExtraIntrClear : ℕ := 0x5c4

def bit31 : BitVec 32 := 0x80000000

def arVifAxiEnable : BitVec 32 := 0x1

def arVifAxiRun : BitVec 32 := 0x40000000

/-- The status words, which a write of ones clears. -/
def statusWords : List ℕ := [arVifBpIntrStatus, arVifBpIntrStatusB, arVifIntrStatus]

abbrev Regs : Type := ℕ → BitVec 32

def arVifWrite (regs : Regs) (offset : ℕ) (value : BitVec 32) : Regs :=
  Function.update regs offset
    (if offset ∈ statusWords then regs offset &&& ~~~value else value)

/-- What the driver does to a register at a time. -/
inductive RegOp
  | read (offset : ℕ)
  | write (offset : ℕ) (value : BitVec 32)
  /-- `ar_vif_update`. -/
  | update (offset : ℕ) (clear set : BitVec 32)
  /-- What is read is written back. -/
  | ack (offset : ℕ)
  /-- The register with a bit set, and then without it. -/
  | pulse (offset : ℕ) (bit : BitVec 32)
  /-- The register with a bit set, and then as it was. -/
  | latch (offset : ℕ) (bit : BitVec 32)

def RegOp.run (regs : Regs) : RegOp → Regs
  | .read _ => regs
  | .write offset value => arVifWrite regs offset value
  | .update offset clear set => arVifWrite regs offset ((regs offset &&& ~~~clear) ||| set)
  | .ack offset => arVifWrite regs offset (regs offset)
  | .pulse offset bit =>
      arVifWrite (arVifWrite regs offset (regs offset ||| bit)) offset (regs offset &&& ~~~bit)
  | .latch offset bit =>
      arVifWrite (arVifWrite regs offset (regs offset ||| bit)) offset (regs offset)

/-! ### What a bring-up and a stop write -/

/-- The module's parameters, and the address of the scratch frame if there is one. -/
structure Params where
  useIrq : Bool
  eventCensus : Bool
  testPattern : Bool
  viewFormat : ℤ
  unpacked : Bool
  viewMux : ℤ
  fifoSplit : Bool
  viewTh : Bool
  scratch : Option (BitVec 32)

structure Format where
  width : BitVec 32
  height : BitVec 32
  bytesperline : BitVec 32
  sizeimage : BitVec 32

def arVifSetDefaultFormat : Format where
  width := 1920
  height := 1080
  bytesperline := 1920 * 2
  sizeimage := 1920 * 2 * 1080

/-- `ar_vif_sync_format`, of the geometry that the source answers with if it does. -/
def arVifSyncFormat (format : Format) : Option (BitVec 32 × BitVec 32) → Format
  | none => format
  | some (width, height) =>
      if width = 0 ∨ height = 0 then format
      else
        { width, height, bytesperline := width * 2, sizeimage := width * 2 * height }

def arVifInitTable : List (ℕ × BitVec 32) :=
  [(0x0c0, 0x00000188), (0x0c4, 0x00640064), (0x0c8, 0x00002c2c),
   (0x0cc, 0xaaaaaaac), (0x0d0, 0xaaaaaaaa), (0x0d4, 0x07800438),
   (0x0d8, 0x07800438), (0x0dc, 0x02800280), (0x0e0, 0x000000d6),
   (0x0e4, 0x00320032), (0x0e8, 0x00000200), (0x0ec, 0x00008000),
   (0x0f0, 0xffffffff), (0x13c, 0x00020002), (0x190, 0x00000101),
   (0x1c0, 0x00000822), (0x1c4, 0x08020010), (0x1c8, 0x00000001),
   (0x1d0, 0x00000027), (0x328, 0x00000002),
   (0x140, 0x86018060), (0x144, 0x0c0300c0),
   (0x148, 0x86018060), (0x14c, 0x0c0300c0),
   (0x150, 0x86018060), (0x154, 0x0c0300c0),
   (0x158, 0x86018060), (0x15c, 0x0c0300c0)]

def arVifRgb2yuvWords : List (BitVec 32) :=
  [0x0027403f, 0x001c10bb, 0x00f98ea5, 0x00e67fd7, 0x000001c1, 0x00000104, 0xc0f00eb0]

/-- The start of `vif_reg_init_post`: the block is reset and its interrupts are masked. -/
def initReset : List RegOp :=
  [.update arVifSoftReset 0 1, .update arVifSoftReset 1 0,
   .update arVifFrameCtrl 1 0, .update arVifFrameCtrl 0xff000000 0,
   .update arVifFeControl 0x000003ff 0, .update arVifViewStableCheck 0x0000ffff 0,
   .write arVifViewMux 0xffffffff, .write arVifBpIntrStatus 0xffffffff,
   .write arVifBpIntrStatusB 0xffffffff, .write arVifBlockEnable 0x0000ffff,
   .write arVifBlockEnable 0x000000ff,
   .write arVifLineIntrMask 0xffffffff, .write arVifLineIntrMask 0,
   .write arVifExtraIntrMask 0xffffffff, .write arVifExtraIntrMask 0,
   .write arVifIntrMaskA 0xc0000000, .write arVifIntrMaskB 0x00080000]

/-- The transient writes of the input pipe. -/
def initPipe : List RegOp :=
  [.write arVifInputPipePreset 0x00020002, .write arVifInputPipeCtrl 0x80000000,
   .update arVifInputPipeMode 0x0000ffff 0x00000020,
   .update arVifInputFormatSelect 0x000000ff 0x00000022]

/-- From the input pipe's running values to the release of the block. -/
def initRelease : List RegOp :=
  [.write arVifInputPipeCtrl 0x00000822, .write arVifInputPipeConfig 0x08020010,
   .write arVifInputPipeMode 0x00000001,
   .write arVifExtraIntrClear 0, .write arVifLineIntrClear 0,
   .update arVifAxiConfig 0 arVifAxiEnable, .update arVifAxiConfig 0 arVifAxiRun,
   .write arVifFrameBoundary 0x0000b0ff, .write arVifDdrClip 0x000001ff,
   .write arVifSoftReset 0, .write arVifBlockEnable 0,
   .read arVifAxiConfig, .read arVifBlockEnable, .read 0x140]

def arVifGlobalInit : List RegOp :=
  arVifInitTable.map (fun reg => .write reg.1 reg.2) ++ initReset ++
    arVifRgb2yuvWords.mapIdx (fun n word => .write (arVifRgb2yuv + 4 * n) word) ++ initPipe ++
    (List.range 8).map (fun view => .pulse (arVifViewFifoBurst + 4 * view) bit31) ++ initRelease

/-- The width in the units of the crop and frame-end registers. -/
def groups (params : Params) (format : Format) : BitVec 32 :=
  if params.unpacked then format.width else (format.width + 3 - 1) / 3

def mipiCsi2DtRaw12 : BitVec 32 := 0x2c

def viewControl (params : Params) : BitVec 32 :=
  if 0 ≤ params.viewFormat then
    ((0x0000c068 : BitVec 32) &&& ~~~((0xf : BitVec 32) <<< 3)) |||
      ((BitVec.ofInt 32 params.viewFormat &&& (0xf : BitVec 32)) <<< 3)
  else if params.unpacked then
    ((0x0000c068 : BitVec 32) &&& ~~~((0xf : BitVec 32) <<< 3)) ||| ((4 : BitVec 32) <<< 3)
  else 0x0000c068

def viewMux (params : Params) : BitVec 32 :=
  if 0 ≤ params.viewMux then
    ((0xffffffff : BitVec 32) &&& ~~~(0xf : BitVec 32)) |||
      (BitVec.ofInt 32 params.viewMux &&& (0xf : BitVec 32))
  else 0xffffffff

def frameEnd (params : Params) (format : Format) : BitVec 32 :=
  bit31 ||| (format.height <<< 16) ||| groups params format

/-- The front end, and the view up to its FIFO. -/
def configureInput (params : Params) (format : Format) : List RegOp :=
  let units := format.bytesperline / 64 &&& (0x3ff : BitVec 32)
  [.write arVifFeControl 0x00061588, .write arVifFeTiming 0x00640064,
   .write arVifFeFormat 0x00d6002c, .write arVifFeDatatype0 mipiCsi2DtRaw12,
   .write arVifFeDatatype1 mipiCsi2DtRaw12,
   .write arVifFeGeometryMargin (((format.width + 4) <<< 16) ||| (format.height + 4)),
   .write arVifFeGeometry ((format.width <<< 16) ||| format.height),
   .write arVifFeHblank 0x00000282, .write arVifFeVblank 0x000000d6,
   .write arVifFeLimit 0x000005ff, .write arVifFeExtra 0x00008000,
   .write arVifViewStride0 0x40000000, .write arVifViewStride0 0,
   .write arVifViewStride0 (units ||| (units <<< 10) ||| bit31),
   .write arVifViewStride1 0, .write arVifViewControl (viewControl params),
   .write arVifViewStride1 bit31]

def configureFifo (params : Params) : List RegOp :=
  if params.fifoSplit then
    [.write arVifViewFifo 0x1e0781e0, .write arVifViewFifo ((0x1e0781e0 : BitVec 32) ||| bit31)]
  else [.write arVifViewFifo 0x86018060]

/-- The view from its FIFO burst on. -/
def configureView (params : Params) (format : Format) : List RegOp :=
  [.write arVifViewFifoBurst 480, .write arVifViewMux (viewMux params),
   .write arVifViewStableCheck 0x01000000,
   .write arVifViewThreshold (if params.viewTh then 0x88888880 else 0),
   .read arVifViewCropV, .read arVifViewCropH, .read arVifViewFrameEnd, .read arVifViewFifo,
   .write arVifViewCropV format.height, .write arVifViewCropH (groups params format - 1),
   .write arVifViewFrameEnd (frameEnd params format),
   .write arVifLinebufferHdrMode 0, .write arVifLinebufferInput 0x00000fff,
   .write arVifInputFormatSelect 0x00000005, .write arVifFeIntrMask 0xffffffff]

def arVifConfigure (params : Params) (format : Format) : List RegOp :=
  configureInput params format ++ configureFifo params ++ configureView params format ++
    if params.testPattern then [.update arVifTestPattern 0 1] else []

/-- `ar_vif_arm_buffer` with the pulse. -/
def arVifArmBuffer (addr : BitVec 32) : List RegOp :=
  [.write arVifViewAddrY addr, .write arVifViewAddrU 0, .write arVifViewAddrV 0,
   .latch arVifViewControl 0x1000]

/-- What `ar_vif_input_on` writes once the block is configured, before the buffer is armed. -/
def armView (params : Params) (format : Format) : List RegOp :=
  [.ack arVifBpIntrStatus, .write arVifInputPipeConfig 0x08020010,
   .write arVifViewFrameEnd (frameEnd params format),
   .update arVifViewFrameBp 0 0x40000000, .update arVifViewFrameBp 0x40000000 0]

/-- What it writes from the plane lengths to the input-path enable. -/
def enableInput (format : Format) : List RegOp :=
  [.write arVifViewDdrSizeY format.sizeimage, .write arVifViewDdrSizeU 0,
   .write arVifViewDdrSizeV 0, .write arVifViewStableCheck 0x01000000,
   .update arVifFeIntrMask 0 1, .write arVifFeControl 0x00061588,
   .write arVifFeExtra 0x00008000, .update arVifIspifEnable 0 2]

/-- The register operations of `ar_vif_input_on`, in its order. -/
def bringUp (params : Params) (format : Format) : List RegOp :=
  arVifGlobalInit ++ arVifConfigure params format ++ armView params format ++
    (match params.scratch with
     | some addr => arVifArmBuffer addr
     | none => []) ++ enableInput format

def arVifStop : List RegOp :=
  [.write arVifFeIntrMask 0, .write arVifViewStride0 0, .write arVifViewControl 0,
   .write arVifViewStableCheck 0, .update arVifFeControl 0x100 0,
   .update arVifFeExtra 0x8000 0, .update arVifIspifEnable 2 0,
   .update arVifAxiConfig (arVifAxiRun ||| arVifAxiEnable) 0,
   .write arVifSoftReset 0, .update arVifSoftReset 0 1, .update arVifSoftReset 1 0]

/-! ### The calls -/

def enodev : ℤ := 19

def ebusy : ℤ := 16

def etimedout : ℤ := 110

/-- A step of a call.  The first argument of `wait` is how many sleeps are left. -/
inductive Instr
  | clkEnable
  | program (geometry : Option (BitVec 32 × BitVec 32))
  | reg (op : RegOp)
  | setStreaming (streaming : Bool)
  | arm
  | disarm
  | cancelWork
  | streamOn
  | streamOff
  | wait (left : ℕ) (before : BitVec 32)
  | clkDisable
  | ispPipelineStart
  | finish (ret : ℤ)

/-- `AR_VIF_LIVE_TIMEOUT_MS / AR_VIF_LIVE_POLL_MS`. -/
def liveSleeps : ℕ := 400

/-- `ar_vif_input_on`, and the wait of `ar_vif_input_start` for an event. -/
def inputOn (geometry : Option (BitVec 32 × BitVec 32)) (before : BitVec 32) : List Instr :=
  [.clkEnable, .program geometry, .setStreaming true, .arm, .streamOn, .wait liveSleeps before]

/-- The end of `ar_vif_input_on` where the source does not start. -/
def inputUndo (ret : ℤ) : List Instr :=
  [.setStreaming false, .disarm] ++ arVifStop.map .reg ++ [.clkDisable, .finish ret]

/-- `ar_vif_input_off` past its check. -/
def inputOff : List Instr :=
  [.streamOff, .setStreaming false, .disarm] ++ arVifStop.map .reg ++ [.clkDisable]

/-- What the interrupt handler and the polling work read of the three status words. -/
structure Status where
  bp : BitVec 32
  intr : BitVec 32
  full : BitVec 32

/-- A step of the handler or of the work. -/
inductive SvcOp
  | look (offset : ℕ)
  | sampleBp
  | sampleIntr
  | sampleFull
  | judge
  | ackBp
  | ackIntr
  | ackFull
  | recover
  | account
  | reschedule

/-- `ar_vif_irq` past its check. -/
def handlerOps : List SvcOp :=
  [.sampleBp, .sampleIntr, .sampleFull, .judge, .ackBp, .ackIntr, .ackFull, .recover, .account]

/-- The reads of the event census. -/
def censusLooks : List SvcOp :=
  [0x104, 0x108, 0x10c, 0x110].flatMap fun offset => [.look offset, .look offset]

/-- `ar_vif_poll_work` past its check. -/
def workOps (params : Params) : List SvcOp :=
  [.look arVifViewAddrY, .look arVifIntrBank, .sampleBp, .sampleIntr, .ackBp, .ackIntr,
   .sampleFull] ++ (if params.eventCensus then censusLooks else []) ++
  [.ackFull, .recover, .account, .reschedule]

/-- Where the handler or the work is: not running, before the check of `streaming`, or past it. -/
inductive Phase
  | idle
  | entered
  | serving (status : Status) (todo : List SvcOp)

/-- Who called `ar_vif_input_start`. -/
inductive Caller
  | harness
  | chain

structure ArVif where
  regs : Regs
  /-- The enable count of the AXI clock. -/
  clk : ℕ
  streaming : Bool
  irqEvents : BitVec 32
  frames : BitVec 32
  /-- Whether a source is bound. -/
  source : Bool
  /-- Whether `ar_vif_instance` is set. -/
  present : Bool
  format : Format
  irqEnabled : Bool
  workPending : Bool
  handler : Phase
  work : Phase
  /-- What is left of the call in progress, and who made it. -/
  prog : List Instr
  caller : Caller
  chainUp : Bool
  result : ℤ
  /-- How many interrupts were counted since the last bring-up began. -/
  serviced : ℕ

def ArVif.probed (regs : Regs) : ArVif where
  regs
  clk := 0
  streaming := false
  irqEvents := 0
  frames := 0
  source := false
  present := true
  format := arVifSetDefaultFormat
  irqEnabled := false
  workPending := false
  handler := .idle
  work := .idle
  prog := []
  caller := .harness
  chainUp := false
  result := 0
  serviced := 0

/-- A step of the call in progress, with what the code that it calls answers; `none` while it
waits for the handler or the work. -/
def mainStep (params : Params) (s : ArVif) (answer : ℤ) : Option ArVif :=
  match s.prog with
  | [] => none
  | .clkEnable :: rest =>
      if answer = 0 then some { s with clk := s.clk + 1, frames := 0, prog := rest }
      else some { s with prog := [.finish answer] }
  | .program geometry :: rest =>
      let format := arVifSyncFormat s.format geometry
      some { s with format, prog := (bringUp params format).map .reg ++ rest }
  | .reg op :: rest => some { s with regs := op.run s.regs, prog := rest }
  | .setStreaming streaming :: rest => some { s with streaming, prog := rest }
  | .arm :: rest =>
      if params.useIrq then some { s with irqEnabled := true, prog := rest }
      else some { s with workPending := true, prog := rest }
  | .disarm :: rest =>
      if params.useIrq then
        match s.handler with
        | .idle => some { s with irqEnabled := false, prog := rest }
        | _ => none
      else
        match s.work with
        | .idle => some { s with workPending := false, prog := rest }
        | _ => none
  | .cancelWork :: rest =>
      match s.work with
      | .idle => some { s with workPending := false, prog := rest }
      | _ => none
  | .streamOn :: rest =>
      if answer = 0 then some { s with prog := rest } else some { s with prog := inputUndo answer }
  | .streamOff :: rest => some { s with prog := rest }
  | .wait 0 _ :: _ =>
      if params.useIrq then
        let off := if s.streaming then inputOff else []
        some { s with prog := off ++ [.finish (-etimedout)] }
      else some { s with prog := [.finish 0] }
  | .wait (left + 1) before :: _ =>
      if params.useIrq ∧ s.irqEvents ≠ before then some { s with prog := [.finish 0] }
      else some { s with prog := [.wait left before] }
  | .clkDisable :: rest => some { s with clk := s.clk - 1, prog := rest }
  | .ispPipelineStart :: _ =>
      if answer = 0 then some { s with chainUp := true, result := 0, prog := [] }
      else some { s with result := answer, prog := [] }
  | .finish ret :: _ =>
      match s.caller with
      | .harness => some { s with result := ret, prog := [] }
      | .chain =>
          if ret = 0 ∨ ret = -ebusy then some { s with prog := [.ispPipelineStart] }
          else some { s with result := ret, prog := [] }

/-- `AR_VIF_INTR_BUFFER_DONE` and `AR_VIF_INTR_FRAME_DONE` of the view. -/
def doneBits : BitVec 32 := 0x101

def viewFull : BitVec 32 := 0x4

/-- A step of the handler or of the work past its check, with what is read so far; the second
answer is whether it goes on. -/
def svcStep (s : ArVif) (status : Status) : SvcOp → ArVif × Status × Bool
  | .look _ => (s, status, true)
  | .sampleBp => (s, { status with bp := s.regs arVifBpIntrStatus }, true)
  | .sampleIntr => (s, { status with intr := s.regs arVifIntrStatus }, true)
  | .sampleFull => (s, { status with full := s.regs arVifBpIntrStatusB }, true)
  | .judge =>
      if status.bp = 0 ∧ status.intr = 0 ∧ status.full = 0 then (s, status, false)
      else ({ s with irqEvents := s.irqEvents + 1, serviced := s.serviced + 1 }, status, true)
  | .ackBp =>
      if status.bp = 0 then (s, status, true)
      else ({ s with regs := arVifWrite s.regs arVifBpIntrStatus status.bp }, status, true)
  | .ackIntr =>
      if status.intr = 0 then (s, status, true)
      else ({ s with regs := arVifWrite s.regs arVifIntrStatus status.intr }, status, true)
  | .ackFull =>
      if status.full = 0 then (s, status, true)
      else ({ s with regs := arVifWrite s.regs arVifBpIntrStatusB status.full }, status, true)
  | .recover =>
      if status.full &&& viewFull = 0 then (s, status, true)
      else ({ s with regs := (RegOp.pulse arVifViewFifoBurst bit31).run s.regs }, status, true)
  | .account =>
      if (status.bp ||| status.intr) &&& doneBits = 0 then (s, status, true)
      else ({ s with frames := s.frames + 1 }, status, true)
  | .reschedule => ({ s with workPending := true }, status, true)

/-- A step of the handler or of the work, whose operations past the check are given. -/
def phaseStep (ops : List SvcOp) (s : ArVif) : Phase → Option (ArVif × Phase)
  | .idle => none
  | .entered => some (s, if s.streaming then .serving ⟨0, 0, 0⟩ ops else .idle)
  | .serving _ [] => some (s, .idle)
  | .serving status (op :: todo) =>
      let (s, status, more) := svcStep s status op
      some (s, if more then .serving status todo else .idle)

inductive Event
  /-- `ar_vif_input_start`, with the geometry that the source would answer. -/
  | start (geometry : Option (BitVec 32 × BitVec 32))
  | stop
  /-- `ar_cvisp_chain_start`. -/
  | chainStart (geometry : Option (BitVec 32 × BitVec 32))
  | remove
  | main (answer : ℤ)
  | irq
  | handler
  | timer
  | work
  /-- The block sets bits of a status word. -/
  | raise (offset : ℕ) (bits : BitVec 32)
  | bound
  | unbind

def inputStart (s : ArVif) (caller : Caller) (geometry : Option (BitVec 32 × BitVec 32)) : ArVif :=
  if s.present = false ∨ s.source = false then { s with caller, prog := [.finish (-enodev)] }
  else if s.streaming then { s with caller, prog := [.finish (-ebusy)] }
  else { s with caller, prog := inputOn geometry s.irqEvents, serviced := 0 }

/-- A step where at most one call is in progress.  The handler and the work come at any time. -/
def step (params : Params) (s : ArVif) : Event → Option ArVif
  | .start geometry =>
      match s.prog with
      | [] => some (inputStart s .harness geometry)
      | _ => none
  | .stop =>
      match s.prog with
      | [] => some (if s.present ∧ s.streaming then { s with prog := inputOff } else s)
      | _ => none
  | .chainStart geometry =>
      match s.prog with
      | [] => some (if s.chainUp then { s with result := 0 } else inputStart s .chain geometry)
      | _ => none
  | .remove =>
      match s.prog with
      | [] => some { s with present := false, prog := [.setStreaming false, .cancelWork] }
      | _ => none
  | .main answer => mainStep params s answer
  | .irq =>
      match s.handler with
      | .idle => if s.irqEnabled then some { s with handler := .entered } else none
      | _ => none
  | .handler =>
      (phaseStep handlerOps s s.handler).map fun (s, phase) => { s with handler := phase }
  | .timer =>
      match s.work with
      | .idle =>
          if s.workPending then some { s with workPending := false, work := .entered } else none
      | _ => none
  | .work => (phaseStep (workOps params) s s.work).map fun (s, phase) => { s with work := phase }
  | .raise offset bits =>
      if offset ∈ statusWords then
        some { s with regs := Function.update s.regs offset (s.regs offset ||| bits) }
      else none
  | .bound => some { s with source := true }
  | .unbind => some { s with source := false }

/-! ### Calls that overlap -/

def Event.begins : Event → Bool
  | .start _ | .stop | .chainStart _ | .remove => true
  | _ => false

/-- The block, and the calls that wait while the one in progress goes on. -/
structure ArVifCalls where
  vif : ArVif
  others : List (Caller × List Instr)

inductive CallsEvent
  | of (event : Event)
  /-- One of the calls that wait goes on instead. -/
  | switch (i : ℕ)

/-- The calls that wait once the one in progress waits too. -/
def park (vif : ArVif) (others : List (Caller × List Instr)) : List (Caller × List Instr) :=
  match vif.prog with
  | [] => others
  | prog => (vif.caller, prog) :: others

/-- Nothing in the driver keeps a call from beginning while others are in progress. -/
def callsStep (params : Params) (s : ArVifCalls) : CallsEvent → Option ArVifCalls
  | .of event =>
      if event.begins then
        (step params { s.vif with prog := [] } event).map fun vif =>
          { vif, others := park s.vif s.others }
      else (step params s.vif event).map fun vif => { s with vif }
  | .switch i =>
      s.others[i]?.map fun (caller, prog) =>
        { vif := { s.vif with caller, prog }, others := park s.vif (s.others.eraseIdx i) }

/-- A call begins only when no other is in progress.  In the kernel the chain is brought up from
`ar_cvisp_start_streaming`, which the queue's lock serialises. -/
def Alone (s : ArVifCalls) : CallsEvent → Prop
  | .of event => event.begins = true → s.vif.prog.isEmpty = true ∧ s.others.isEmpty = true
  | .switch _ => True

instance (s : ArVifCalls) (event : CallsEvent) : Decidable (Alone s event) :=
  match event with
  | .of event =>
      inferInstanceAs (Decidable
        (event.begins = true → s.vif.prog.isEmpty = true ∧ s.others.isEmpty = true))
  | .switch _ => inferInstanceAs (Decidable True)

end MlKernel.Media.Vif
