import MlKernel.Isp.NoiseLadders
import MlKernel.Isp.ColourLadders

/-!
# Applying the ladders

Each stage recomputes its bank from the tuning file and writes it.  A stage whose registers share
their words with other producers reads them first and keeps the bits outside its mask.
-/

namespace MlKernel.Isp

/-- The register file of the block, by byte offset. -/
abbrev RegFile : Type := ℕ → UInt32

def writel (value : UInt32) (off : ℕ) (regs : RegFile) : RegFile := Function.update regs off value

/-- The stage owns the mask, and every other bit keeps the value the replay left. -/
def arIspRmw (off : ℕ) (mask val : UInt32) (regs : RegFile) : RegFile :=
  writel ((regs off &&& ~~~mask) ||| (val &&& mask)) off regs

/-- The module parameters the ladders are keyed on.  A negative gain or trigger leaves the replayed
bank in place. -/
structure LadderParams where
  rnrGain : Int32
  lnrGain : Int32
  de3dGain : Int32
  de3dStrength : Int32
  de3dStrength9 : Int32
  cfaGain : Int32
  cnfGain : Int32
  cmTrigger : Int32
  cm2Trigger : Int32

def gainQ16 (gain : Int32) : UInt32 := gain.toUInt32 <<< 8

def arIspLadderHdrEnable : ℕ := 0x0

/-- A stage runs when its parameter is not negative and the gate word of the tuning file is one. -/
def recompute (param : Int32) (gate : ℕ) (tuning : Option Bytes) (stage : Bytes → RegFile → RegFile)
    (regs : RegFile) : RegFile :=
  if param < 0 then regs
  else
    match tuning with
    | none => regs
    | some blob => if arIspGetLe32 blob gate ≠ 1 then regs else stage blob regs

def writeWords (count base : ℕ) (values : ℕ → UInt32) (regs : RegFile) : RegFile :=
  (List.range count).foldl (fun regs i => writel (values i) (base + i * 4) regs) regs

def arIspRnrApply (params : LadderParams) (tuning : Option Bytes) : RegFile → RegFile :=
  recompute params.rnrGain (arIspRnrBlobHeader + arIspLadderHdrEnable) tuning fun blob regs =>
    let values := arIspRnrFromBlob blob (gainQ16 params.rnrGain)
    let tail := arIspRnrTailFromBlob blob (gainQ16 params.rnrGain)
    let regs := writeWords arIspRnrRegs (arIspRnrBank + arIspRnrLadderOff) values regs
    writeWords arIspRnrTailRegs (arIspRnrBank + arIspRnrTail) tail regs

def arIspLnrApply (params : LadderParams) (tuning : Option Bytes) : RegFile → RegFile :=
  recompute params.lnrGain (arIspLnrBlobHeader + arIspLadderHdrEnable) tuning fun blob regs =>
    let live (i : ℕ) : UInt32 := regs (arIspLnrBank + i * 4)
    let values := arIspLnrFromBlob blob (gainQ16 params.lnrGain) live
    (List.range arIspLnrRegs).foldl
      (fun regs i =>
        if i = arIspLnrSkipNeverWritten then regs
        else writel (values i) (arIspLnrBank + i * 4) regs)
      regs

/-- A strength outside 0..100 is ignored, and 50 changes nothing. -/
def strengthActive (strength : Int32) : Prop := 0 ≤ strength ∧ strength ≤ 100 ∧ strength ≠ 50

instance (strength : Int32) : Decidable (strengthActive strength) :=
  inferInstanceAs (Decidable (_ ∧ _ ∧ _))

/-- The user strengths over the ladder: the 14-bit field of one register and the 9-bit field in the
upper half of the next. -/
def de3dStrengthen (params : LadderParams) (values : ℕ → UInt32) : ℕ → UInt32 :=
  let values :=
    if strengthActive params.de3dStrength then
      Function.update values 4
        (arIspDe3dStrength (values 4 &&& 0x3fff) params.de3dStrength.toInt 200 &&& 0x3fff)
    else values
  if strengthActive params.de3dStrength9 then
    let field : UInt32 :=
      arIspDe3dStrength ((values 5 >>> 16) &&& 0x1ff) params.de3dStrength9.toInt 120 &&& 0x1ff
    Function.update values 5 ((values 5 &&& ~~~((0x1ff : UInt32) <<< 16)) ||| (field <<< 16))
  else values

def arIspDe3dApply (params : LadderParams) (tuning : Option Bytes) : RegFile → RegFile :=
  recompute params.de3dGain (arIspDe3dBlobHeader + arIspLadderHdrEnable) tuning fun blob regs =>
    let values := de3dStrengthen params (arIspDe3dFromBlob blob (gainQ16 params.de3dGain))
    arIspDe3dRegs.zipIdx.foldl
      (fun regs entry => arIspRmw (arIspDe3dBank + entry.1.1) entry.1.2 (values entry.2) regs) regs

def arIspCfaApply (params : LadderParams) (tuning : Option Bytes) : RegFile → RegFile :=
  recompute params.cfaGain (arIspCfaBlobHeader + arIspLadderHdrEnable) tuning fun blob regs =>
    (arIspCfaFromBlob blob (gainQ16 params.cfaGain)).foldl
      (fun regs entry =>
        let off := arIspCfaBank + entry.1
        if off = arIspCfaBank then arIspRmw off arIspCfaHeadMask entry.2 regs
        else writel entry.2 off regs)
      regs

/-- This ladder has no header, so the parameter is the only gate. -/
def arIspCnfApply (params : LadderParams) (tuning : Option Bytes) (regs : RegFile) : RegFile :=
  if params.cnfGain < 0 then regs
  else
    match tuning with
    | none => regs
    | some blob =>
        let strength := arIspCnfStrengthFromBlob blob (gainQ16 params.cnfGain)
        let regs := arIspRmw arIspCnfStrengthReg arIspCnfStrengthMask (arIspCnfPack strength) regs
        let regs := arIspRmw arIspCnfNormRegA arIspCnfNormMask
          (arIspCnfNormPack strength ||| arIspCnfNormABit) regs
        let regs := arIspRmw arIspCnfNormRegB arIspCnfNormBMask
          (arIspCnfNormPack arIspCnfNormConstB) regs
        arIspCnfStatics.zipIdx.foldl
          (fun regs entry =>
            let packed := arIspCnfStaticPack blob entry.1
            arIspRmw (arIspCnfStaticReg + entry.2 * 4) packed.1 packed.2 regs)
          regs

def arIspCmApply (params : LadderParams) (tuning : Option Bytes) : RegFile → RegFile :=
  recompute params.cmTrigger arIspCmHeader tuning fun blob regs =>
    let field := arIspCmGainFieldFromBlob blob params.cmTrigger.toUInt32 0
    arIspRmw arIspCmGainReg arIspCmGainMask field regs

def arIspCm2Apply (params : LadderParams) (tuning : Option Bytes) : RegFile → RegFile :=
  recompute params.cm2Trigger arIspCm2Header tuning fun blob regs =>
    let row := arIspCm2FromBlob blob params.cm2Trigger.toUInt32 0
    let regs := arIspRmw arIspCm2GainReg arIspCm2GainMask row.gainField regs
    let regs := writel row.lo1 arIspCm2Lo1Reg regs
    let regs := writel row.hi1 arIspCm2Hi1Reg regs
    let regs := writel row.lo2 arIspCm2Lo2Reg regs
    let regs := writel row.hi2 arIspCm2Hi2Reg regs
    let regs := writel row.recip1 arIspCm2Recip1Reg regs
    writel row.recip2 arIspCm2Recip2Reg regs

def arIspLaddersApply (params : LadderParams) (tuning : Option Bytes) (regs : RegFile) : RegFile :=
  let regs := arIspRnrApply params tuning regs
  let regs := arIspLnrApply params tuning regs
  let regs := arIspDe3dApply params tuning regs
  let regs := arIspCfaApply params tuning regs
  let regs := arIspCnfApply params tuning regs
  let regs := arIspCmApply params tuning regs
  arIspCm2Apply params tuning regs

/-! ### Reading the banks back -/

inductive LadderStage where
  | rnr
  | lnr
  | de3d
  | cfa
  | cnf
  | cm
  | cm2
deriving DecidableEq, Repr

/-- A line of the report: why a stage contributes no registers, or one register as it is, as it
should be, and the bits compared. -/
inductive LadderLine where
  | skip (stage : LadderStage) (why : String)
  | cmp (stage : LadderStage) (off : ℕ) (live want mask : UInt32) (ok : Bool)
deriving DecidableEq, Repr

structure LadderReport where
  lines : List LadderLine
  bad : ℕ

def arIspLadderCmp (stage : LadderStage) (off : ℕ) (live want mask : UInt32)
    (report : LadderReport) : LadderReport :=
  let ok := (live ^^^ want) &&& mask == 0
  { lines := report.lines ++ [.cmp stage off live want mask ok]
    bad := if ok then report.bad else report.bad + 1 }

def arIspLadderSkip (stage : LadderStage) (why : String) (report : LadderReport) : LadderReport :=
  { report with lines := report.lines ++ [.skip stage why] }

/-- What a register is to hold under a mask. -/
structure LadderDemand where
  off : ℕ
  want : UInt32
  mask : UInt32

def compareAll (stage : LadderStage) (regs : RegFile) (demands : List LadderDemand)
    (report : LadderReport) : LadderReport :=
  demands.foldl
    (fun report demand =>
      arIspLadderCmp stage demand.off (regs demand.off) demand.want demand.mask report)
    report

def replayedByParameter : String := "parameter -1, bank left replayed"
def replayedByGate : String := "tuning gate clear, bank left replayed"

def compareStage (stage : LadderStage) (param : Int32) (gate : ℕ) (blob : Bytes)
    (demands : List LadderDemand) (regs : RegFile) (report : LadderReport) : LadderReport :=
  if param < 0 then arIspLadderSkip stage replayedByParameter report
  else if arIspGetLe32 blob gate ≠ 1 then arIspLadderSkip stage replayedByGate report
  else compareAll stage regs demands report

def u32Max : UInt32 := 0xffffffff

def demandWords (count base : ℕ) (values : ℕ → UInt32) : List LadderDemand :=
  (List.range count).map fun i => ⟨base + i * 4, values i, u32Max⟩

def rnrDemands (params : LadderParams) (blob : Bytes) : List LadderDemand :=
  demandWords arIspRnrRegs (arIspRnrBank + arIspRnrLadderOff)
      (arIspRnrFromBlob blob (gainQ16 params.rnrGain)) ++
    demandWords arIspRnrTailRegs (arIspRnrBank + arIspRnrTail)
      (arIspRnrTailFromBlob blob (gainQ16 params.rnrGain))

/-- Seeded from the live bank, because that is what the applier does. -/
def lnrDemands (params : LadderParams) (blob : Bytes) (regs : RegFile) : List LadderDemand :=
  let live (i : ℕ) : UInt32 := regs (arIspLnrBank + i * 4)
  let values := arIspLnrFromBlob blob (gainQ16 params.lnrGain) live
  ((List.range arIspLnrRegs).filter fun i => i ≠ arIspLnrSkipNeverWritten).map fun i =>
    ⟨arIspLnrBank + i * 4, values i, u32Max⟩

def de3dDemands (params : LadderParams) (blob : Bytes) : List LadderDemand :=
  let values := arIspDe3dFromBlob blob (gainQ16 params.de3dGain)
  arIspDe3dRegs.zipIdx.map fun entry =>
    ⟨arIspDe3dBank + entry.1.1, values entry.2, entry.1.2⟩

def cfaDemands (params : LadderParams) (blob : Bytes) : List LadderDemand :=
  (arIspCfaFromBlob blob (gainQ16 params.cfaGain)).map fun entry =>
    let off := arIspCfaBank + entry.1
    ⟨off, entry.2, if off = arIspCfaBank then arIspCfaHeadMask else u32Max⟩

def cnfDemands (params : LadderParams) (blob : Bytes) : List LadderDemand :=
  let strength := arIspCnfStrengthFromBlob blob (gainQ16 params.cnfGain)
  [⟨arIspCnfStrengthReg, arIspCnfPack strength, arIspCnfStrengthMask⟩,
    ⟨arIspCnfNormRegA, arIspCnfNormPack strength ||| arIspCnfNormABit, arIspCnfNormMask⟩,
    ⟨arIspCnfNormRegB, arIspCnfNormPack arIspCnfNormConstB, arIspCnfNormBMask⟩]

def cmDemands (params : LadderParams) (blob : Bytes) : List LadderDemand :=
  [⟨arIspCmGainReg, arIspCmGainFieldFromBlob blob params.cmTrigger.toUInt32 0, arIspCmGainMask⟩]

def cm2Demands (params : LadderParams) (blob : Bytes) : List LadderDemand :=
  let row := arIspCm2FromBlob blob params.cm2Trigger.toUInt32 0
  [⟨arIspCm2GainReg, row.gainField, arIspCm2GainMask⟩,
    ⟨arIspCm2Lo1Reg, row.lo1, u32Max⟩, ⟨arIspCm2Hi1Reg, row.hi1, u32Max⟩,
    ⟨arIspCm2Lo2Reg, row.lo2, u32Max⟩, ⟨arIspCm2Hi2Reg, row.hi2, u32Max⟩,
    ⟨arIspCm2Recip1Reg, row.recip1, arIspCm2RecipMask⟩,
    ⟨arIspCm2Recip2Reg, row.recip2, arIspCm2RecipMask⟩]

/-- The banks read back and compared against a recomputation; without a tuning file every bank is
the replay and nothing is compared. -/
def arIspLaddersShow (params : LadderParams) (tuning : Option Bytes) (regs : RegFile) :
    Option LadderReport :=
  tuning.map fun blob =>
    let report : LadderReport := ⟨[], 0⟩
    let report := compareStage .rnr params.rnrGain (arIspRnrBlobHeader + arIspLadderHdrEnable) blob
      (rnrDemands params blob) regs report
    let report := compareStage .lnr params.lnrGain (arIspLnrBlobHeader + arIspLadderHdrEnable) blob
      (lnrDemands params blob regs) regs report
    let report := compareStage .de3d params.de3dGain (arIspDe3dBlobHeader + arIspLadderHdrEnable)
      blob (de3dDemands params blob) regs report
    let report := compareStage .cfa params.cfaGain (arIspCfaBlobHeader + arIspLadderHdrEnable) blob
      (cfaDemands params blob) regs report
    let report :=
      if params.cnfGain < 0 then arIspLadderSkip .cnf replayedByParameter report
      else compareAll .cnf regs (cnfDemands params blob) report
    let report := compareStage .cm params.cmTrigger arIspCmHeader blob (cmDemands params blob) regs
      report
    compareStage .cm2 params.cm2Trigger arIspCm2Header blob (cm2Demands params blob) regs report

end MlKernel.Isp
