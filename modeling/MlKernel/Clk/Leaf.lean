import MlKernel.Clk.CpuClk
import MlKernel.Clk.PixelPll
import MlKernel.Lib.FieldBank

/-!
# The leaf clocks

A leaf is a half of a register of one of two banks: a three-bit parent select, a gate bit and a
seven-bit divider.  Some leaves use both halves, or only one bit of a half.  What a leaf lets its
consumers write is in its capabilities, from which the probe picks its operations.
-/

namespace MlKernel.Clk

open BitField

/-- The clocks that are parents or leaves.  `cguInvalid` fills the selects that are not wired. -/
inductive ClkName
  | cguOscinClk | fixPllClk50 | fixPllClk100 | fixPllClk125 | fixPllClk250 | fixPllClk333
  | fixPllClk400 | fixPllClk500 | fixPllClk600 | fixPllClk666 | fixPllClk800 | fixPllClk1000
  | fixPllClk2000 | adcPllClk20 | adcPllClk25 | adcPllClk60 | adcPllClk100 | adcPllClk150
  | adcPllClk300 | adcPllClk400 | adcPllClk600 | sd0FixClk | sd0SampleClk | sd0DrvClk | sd1FixClk
  | sd1SampleClk | sd1DrvClk | emmcFixClk | emmcSampleClk | emmcDrvClk | clkAudioDig | audioPllClk
  | mipiTxPllDiv2
  | pixelPllClk | pixelPllClk1 | pixelPllClk2 | pixelPllClk3 | pixelPllClk4 | cguInvalid
  | cguAxiClk | cguSysClk | cguIspClk | cguIspHdrClk | cguVifAxiClk | cguDlaClk | cguRszClk
  | cguDeClk | cguVencClk | cguJpegClk | cguMipiCsi0Clk | cguMipiCsi1Clk | cguMipiPcsClk
  | cguSd0FixClk | cguSd0SampleClk | cguSd0DrvClk | cguSd1FixClk | cguSd1SampleClk | cguSd1DrvClk
  | cguEmmcFixClk | cguEmmcSampleClk | cguEmmcDrvClk | cguQspiClk | cguI2sMclk | cguI2sMst0Sclk
  | cguI2sMst1Sclk | cguUsbPhy0Clk | cguAudio300m | cguGmacCoreClk | cguGmacPhyClk | cguHdecompClk
  | cguEfuseClk | cguSensorMclk0 | cguSensorMclk1 | cguSensorMclk2 | cguDvpPatternClk | cguNucClk
  | cguScgmacPtpClk | cguScgmacRgmiitxClk | cguScgmacMdcClk | cguNpuClk | cguNpuAclk | cguIfcClk
  | cguEisClk | cguScalerClk | cguGenClk | cguCsDbgClk
  deriving DecidableEq, Repr

/-- `enum ar9311_leaf_half` -/
inductive Ar9311LeafHalf
  | lo | hi | dual | bit15 | bit31
  deriving DecidableEq, Repr

/-- `AR_LEAF_GATE`, `AR_LEAF_MUX`, `AR_LEAF_DIV`, `AR_LEAF_EXACT` -/
structure LeafCaps where
  gate : Bool := false
  mux : Bool := false
  div : Bool := false
  exact : Bool := false
  deriving DecidableEq, Repr

/-- A register: its bank and its offset in the bank. -/
structure CguReg where
  bank : ℕ
  off : ℕ
  deriving DecidableEq, Repr

structure Ar9311LeafDesc where
  name : ClkName
  off : ℕ
  bank : ℕ
  half : Ar9311LeafHalf
  /-- by select value -/
  parents : List ClkName
  caps : LeafCaps
  deriving DecidableEq, Repr

def Ar9311LeafDesc.reg (d : Ar9311LeafDesc) : CguReg := ⟨d.bank, d.off⟩

/-! ### The tables -/

def ar9311CguSources : List (ClkName × ℕ) :=
  [(.fixPllClk50, 50000000), (.fixPllClk100, 100000000), (.fixPllClk125, 125000000),
   (.fixPllClk250, 250000000), (.fixPllClk333, 333333333), (.fixPllClk400, 400000000),
   (.fixPllClk500, 500000000), (.fixPllClk600, 600000000), (.fixPllClk666, 666666666),
   (.fixPllClk800, 800000000), (.fixPllClk1000, 1000000000), (.fixPllClk2000, 2000000000),
   (.adcPllClk20, 20000000), (.adcPllClk25, 25000000), (.adcPllClk60, 60000000),
   (.adcPllClk100, 100000000), (.adcPllClk150, 150000000), (.adcPllClk300, 300000000),
   (.adcPllClk400, 400000000), (.adcPllClk600, 600000000), (.sd0FixClk, 0), (.sd0SampleClk, 0),
   (.sd0DrvClk, 0), (.sd1FixClk, 0), (.sd1SampleClk, 0), (.sd1DrvClk, 0), (.emmcFixClk, 0),
   (.emmcSampleClk, 0), (.emmcDrvClk, 0), (.clkAudioDig, 0), (.audioPllClk, 0),
   (.mipiTxPllDiv2, 445500000)]

def parGenericOsc : List ClkName :=
  [.cguOscinClk, .fixPllClk500, .fixPllClk400, .fixPllClk333, .adcPllClk600, .adcPllClk400,
   .pixelPllClk, .audioPllClk]

def parGeneric666 : List ClkName :=
  [.fixPllClk666, .fixPllClk500, .fixPllClk400, .fixPllClk333, .adcPllClk600, .adcPllClk400,
   .pixelPllClk, .audioPllClk]

def parSensor : List ClkName :=
  [.cguOscinClk, .pixelPllClk1, .pixelPllClk2, .pixelPllClk3, .pixelPllClk4, .pixelPllClk,
   .cguInvalid, .cguInvalid]

def parDvp : List ClkName :=
  [.adcPllClk600, .pixelPllClk1, .pixelPllClk2, .pixelPllClk3, .pixelPllClk4, .fixPllClk1000,
   .fixPllClk666, .mipiTxPllDiv2]

def parNpu : List ClkName :=
  [.cguOscinClk, .fixPllClk800, .fixPllClk666, .fixPllClk500, .fixPllClk400, .adcPllClk600,
   .adcPllClk400, .pixelPllClk]

def parCpu : List ClkName :=
  [.cguOscinClk, .fixPllClk1000, .fixPllClk800, .fixPllClk666, .adcPllClk600, .adcPllClk400,
   .pixelPllClk, .cguInvalid]

def parOne (p : ClkName) : List ClkName :=
  [p, .cguInvalid, .cguInvalid, .cguInvalid, .cguInvalid, .cguInvalid, .cguInvalid, .cguInvalid]

def ar9311Leaves : List Ar9311LeafDesc :=
  [⟨.cguAxiClk, 0x00, 1, .dual, parGenericOsc, {}⟩,
   ⟨.cguSysClk, 0x04, 1, .dual,
     [.cguOscinClk, .adcPllClk300, .fixPllClk400, .fixPllClk333, .adcPllClk600, .adcPllClk400,
      .pixelPllClk, .audioPllClk], {}⟩,
   ⟨.cguIspClk, 0x0c, 1, .lo, parGeneric666, { gate := true, div := true }⟩,
   ⟨.cguIspHdrClk, 0x0c, 1, .hi, parGeneric666, { gate := true, div := true }⟩,
   ⟨.cguVifAxiClk, 0x10, 1, .lo, parGeneric666, { gate := true, div := true }⟩,
   ⟨.cguDlaClk, 0x10, 1, .hi,
     [.fixPllClk800, .fixPllClk666, .fixPllClk500, .fixPllClk400, .adcPllClk600, .adcPllClk400,
      .pixelPllClk, .mipiTxPllDiv2], {}⟩,
   ⟨.cguRszClk, 0x14, 1, .lo, parGenericOsc, { gate := true }⟩,
   ⟨.cguDeClk, 0x14, 1, .hi, parGenericOsc, {}⟩,
   ⟨.cguVencClk, 0x18, 1, .lo, parGenericOsc, { gate := true, mux := true, exact := true }⟩,
   ⟨.cguJpegClk, 0x18, 1, .hi, parGenericOsc, {}⟩,
   ⟨.cguMipiCsi0Clk, 0x1c, 1, .lo, parGenericOsc, { gate := true, div := true }⟩,
   ⟨.cguMipiCsi1Clk, 0x1c, 1, .hi, parGenericOsc, { gate := true }⟩,
   ⟨.cguMipiPcsClk, 0x20, 1, .lo, parGenericOsc, { gate := true, div := true }⟩,
   ⟨.cguSd0FixClk, 0x20, 1, .hi, parOne .sd0FixClk, {}⟩,
   ⟨.cguSd0SampleClk, 0x24, 1, .lo, parOne .sd0SampleClk, {}⟩,
   ⟨.cguSd0DrvClk, 0x24, 1, .hi, parOne .sd0DrvClk, {}⟩,
   ⟨.cguSd1FixClk, 0x28, 1, .lo, parOne .sd1FixClk, {}⟩,
   ⟨.cguSd1SampleClk, 0x28, 1, .hi, parOne .sd1SampleClk, {}⟩,
   ⟨.cguSd1DrvClk, 0x2c, 1, .lo, parOne .sd1DrvClk, {}⟩,
   ⟨.cguEmmcFixClk, 0x2c, 1, .hi, parOne .emmcFixClk, {}⟩,
   ⟨.cguEmmcSampleClk, 0x30, 1, .lo, parOne .emmcSampleClk, {}⟩,
   ⟨.cguEmmcDrvClk, 0x30, 1, .hi, parOne .emmcDrvClk, {}⟩,
   ⟨.cguQspiClk, 0x34, 1, .lo, parGeneric666, {}⟩,
   ⟨.cguI2sMclk, 0x34, 1, .hi,
     [.cguOscinClk, .audioPllClk, .cguInvalid, .cguInvalid, .cguInvalid, .cguInvalid, .cguInvalid,
      .cguInvalid], {}⟩,
   ⟨.cguI2sMst0Sclk, 0x204, 1, .bit15, parOne .cguI2sMclk, {}⟩,
   ⟨.cguI2sMst1Sclk, 0x204, 1, .bit31, parOne .cguI2sMclk, {}⟩,
   ⟨.cguUsbPhy0Clk, 0x38, 1, .lo, parOne .cguOscinClk, {}⟩,
   ⟨.cguAudio300m, 0x38, 1, .hi, parOne .clkAudioDig, {}⟩,
   ⟨.cguGmacCoreClk, 0x3c, 1, .lo,
     [.cguOscinClk, .fixPllClk500, .fixPllClk1000, .cguInvalid, .cguInvalid, .cguInvalid,
      .cguInvalid, .cguInvalid], {}⟩,
   ⟨.cguGmacPhyClk, 0x3c, 1, .hi,
     [.cguOscinClk, .fixPllClk500, .fixPllClk1000, .cguInvalid, .cguInvalid, .cguInvalid,
      .cguInvalid, .cguInvalid], {}⟩,
   ⟨.cguHdecompClk, 0x40, 1, .lo,
     [.cguOscinClk, .fixPllClk666, .fixPllClk500, .fixPllClk400, .adcPllClk600, .adcPllClk400,
      .pixelPllClk, .audioPllClk], {}⟩,
   ⟨.cguEfuseClk, 0x40, 1, .hi,
     [.cguOscinClk, .fixPllClk100, .fixPllClk400, .fixPllClk333, .fixPllClk250, .cguInvalid,
      .cguInvalid, .cguInvalid], {}⟩,
   ⟨.cguSensorMclk0, 0x44, 1, .lo, parSensor, { gate := true, mux := true, div := true }⟩,
   ⟨.cguSensorMclk1, 0x44, 1, .hi, parSensor, {}⟩,
   ⟨.cguSensorMclk2, 0x48, 1, .lo, parSensor, {}⟩,
   ⟨.cguDvpPatternClk, 0x48, 1, .hi, parDvp, {}⟩,
   ⟨.cguNucClk, 0x4c, 1, .hi,
     [.adcPllClk600, .pixelPllClk1, .pixelPllClk2, .pixelPllClk3, .pixelPllClk4, .fixPllClk666,
      .fixPllClk500, .mipiTxPllDiv2], {}⟩,
   ⟨.cguScgmacPtpClk, 0x50, 1, .lo,
     [.cguOscinClk, .fixPllClk1000, .fixPllClk500, .fixPllClk250, .cguInvalid, .cguInvalid,
      .cguInvalid, .cguInvalid], {}⟩,
   ⟨.cguScgmacRgmiitxClk, 0x50, 1, .hi,
     [.cguOscinClk, .fixPllClk1000, .fixPllClk500, .fixPllClk250, .adcPllClk25, .adcPllClk20,
      .cguInvalid, .cguInvalid], {}⟩,
   ⟨.cguScgmacMdcClk, 0x54, 1, .lo,
     [.cguOscinClk, .fixPllClk250, .fixPllClk125, .fixPllClk50, .adcPllClk25, .adcPllClk20,
      .cguInvalid, .cguInvalid], {}⟩,
   ⟨.cguNpuClk, 0x08, 1, .dual, parNpu, {}⟩,
   ⟨.cguNpuAclk, 0x58, 1, .lo, parNpu, {}⟩,
   ⟨.cguIfcClk, 0x58, 1, .hi, parGenericOsc, {}⟩,
   ⟨.cguEisClk, 0x5c, 1, .lo, parGenericOsc, {}⟩,
   ⟨.cguScalerClk, 0x5c, 1, .hi, parGenericOsc, {}⟩,
   ⟨.cguGenClk, 0x200, 1, .lo,
     [.fixPllClk500, .fixPllClk100, .sd0FixClk, .adcPllClk600, .adcPllClk25, .audioPllClk,
      .pixelPllClk, .pixelPllClk1], {}⟩,
   ⟨.cguCsDbgClk, 0x10, 0, .lo, parCpu, {}⟩]

/-! ### Reading a leaf -/

def ar9311LeafGetParent (half : Ar9311LeafHalf) (v : BitVec 32) : BitVec 32 :=
  let field (hi : Bool) := if hi then (v >>> 24) &&& 0x7 else (v >>> 8) &&& 0x7
  match half with
  | .dual => field (v &&& BIT 31 ≠ 0)
  | .hi => field true
  | .lo => field false
  -- a single parent
  | .bit15 | .bit31 => 0

def ar9311LeafIsEnabled (half : Ar9311LeafHalf) (v : BitVec 32) : Bool :=
  match half with
  | .lo => v &&& BIT 12 ≠ 0
  | .hi => v &&& BIT 28 ≠ 0
  | .dual => v &&& (if v &&& BIT 31 ≠ 0 then BIT 28 else BIT 12) ≠ 0
  | .bit15 => v &&& BIT 15 ≠ 0
  | .bit31 => v &&& BIT 31 ≠ 0

def ar9311LeafDivShift : Ar9311LeafHalf → Option ℕ
  | .lo => some 0
  | .hi => some 16
  | .dual | .bit15 | .bit31 => none

/-- The divider field, of the halves that have one. -/
def leafDivField (half : Ar9311LeafHalf) (v : BitVec 32) : Option (BitVec 32) :=
  (ar9311LeafDivShift half).map fun shift => (v >>> shift) &&& 0x7f

def ar9311LeafRecalcRate (half : Ar9311LeafHalf) (v : BitVec 32) (parentRate : ℕ) : ℕ :=
  match leafDivField half v with
  | none => parentRate
  -- `DIV_ROUND_UP_ULL`
  | some field =>
      let div := (field + 1).toNat
      (parentRate + (div - 1)) / div

/-! ### Writing a leaf -/

def ar9311LeafGateBit (half : Ar9311LeafHalf) (v : BitVec 32) : Option ℕ :=
  match half with
  | .lo => some 12
  | .hi => some 28
  | .dual => some (if v &&& BIT 31 ≠ 0 then 28 else 12)
  | .bit15 | .bit31 => none

/-- The word that `ar9311_leaf_set_gate` writes, unless it refuses. -/
def ar9311LeafSetGate (half : Ar9311LeafHalf) (enable : Bool) (v : BitVec 32) :
    Option (BitVec 32) :=
  (ar9311LeafGateBit half v).map fun bit => if enable then v ||| BIT bit else v &&& ~~~BIT bit

/-- The word that `ar9311_leaf_set_parent` writes, unless it refuses. -/
def ar9311LeafSetParent (half : Ar9311LeafHalf) (index : BitVec 8) (v : BitVec 32) :
    Option (BitVec 32) :=
  let put (shift : ℕ) :=
    (v &&& ~~~(0x7#32 <<< shift)) ||| ((index.setWidth 32 &&& 0x7) <<< shift)
  match half with
  | .lo => some (put 8)
  | .hi => some (put 24)
  | .dual | .bit15 | .bit31 => none

/-- The registers of the clock generator. -/
abbrev CguRegs := CguReg → BitVec 32

/-- A read-modify-write of the leaf's register, and what the call returns. -/
def Ar9311LeafDesc.modify (d : Ar9311LeafDesc) (put : BitVec 32 → Option (BitVec 32))
    (regs : CguRegs) : ℤ × CguRegs :=
  match put (regs d.reg) with
  | none => (einval, regs)
  | some v => (0, Function.update regs d.reg v)

def ar9311LeafEnable (d : Ar9311LeafDesc) (regs : CguRegs) : ℤ × CguRegs :=
  d.modify (ar9311LeafSetGate d.half true) regs

def ar9311LeafDisable (d : Ar9311LeafDesc) (regs : CguRegs) : CguRegs :=
  (d.modify (ar9311LeafSetGate d.half false) regs).2

/-- The first parent of the rate asked for; `none` is `-EINVAL`. -/
def ar9311LeafDetermineRateExact (parentRates : List (Option ℕ)) (rate : ℕ) : Option ℕ :=
  parentRates.findIdx? fun parentRate => parentRate = some rate

/-! ### The operations of a leaf -/

/-- The tables of operations. -/
inductive Ar9311LeafOps
  | leafOps | leafGateOps | leafGateMuxOps | leafGateMuxExactOps | leafGateDivOps
  deriving DecidableEq, Repr

/-- The table the probe registers a leaf with. -/
def Ar9311LeafDesc.ops (d : Ar9311LeafDesc) : Ar9311LeafOps :=
  if d.caps.div then .leafGateDivOps
  else if d.caps.exact then .leafGateMuxExactOps
  else if d.caps.mux then .leafGateMuxOps
  else if d.caps.gate then .leafGateOps
  else .leafOps

/-- The table has `enable` and `disable`. -/
def Ar9311LeafOps.gates : Ar9311LeafOps → Bool
  | leafOps => false
  | leafGateOps | leafGateMuxOps | leafGateMuxExactOps | leafGateDivOps => true

/-- The table has `set_parent`. -/
def Ar9311LeafOps.setsParent : Ar9311LeafOps → Bool
  | leafGateMuxOps | leafGateMuxExactOps => true
  | leafOps | leafGateOps | leafGateDivOps => false

/-- The table has `recalc_rate`. -/
def Ar9311LeafOps.recalcs : Ar9311LeafOps → Bool
  | leafGateDivOps => true
  | leafOps | leafGateOps | leafGateMuxOps | leafGateMuxExactOps => false

/-! ### The camera leaves -/

structure Ar9311CameraDefault where
  name : ClkName
  sel : BitVec 8
  div : BitVec 8

def ar9311CameraDefaults : List Ar9311CameraDefault :=
  [⟨.cguIspClk, 3, 0⟩, ⟨.cguIspHdrClk, 3, 0⟩, ⟨.cguVifAxiClk, 3, 0⟩, ⟨.cguMipiCsi0Clk, 2, 1⟩,
   ⟨.cguMipiPcsClk, 1, 3⟩, ⟨.cguSensorMclk0, 0, 0⟩]

/-- The word that a camera default leaves in the register of its leaf. -/
def Ar9311CameraDefault.put (c : Ar9311CameraDefault) (half : Ar9311LeafHalf) (v : BitVec 32) :
    Option (BitVec 32) :=
  let pair (selShift divShift : ℕ) :=
    ((v &&& ~~~(0x7#32 <<< selShift)) &&& ~~~(0x7f#32 <<< divShift)) |||
      ((c.sel.setWidth 32 &&& 0x7) <<< selShift) ||| ((c.div.setWidth 32 &&& 0x7f) <<< divShift)
  match half with
  | .lo => some (pair 8 0)
  | .hi => some (pair 24 16)
  | .dual | .bit15 | .bit31 => none

def applyCameraDefault (regs : CguRegs) (c : Ar9311CameraDefault) : CguRegs :=
  match ar9311Leaves.find? (fun d => d.name = c.name) with
  | none => regs
  | some d => (d.modify (c.put d.half) regs).2

/-- `vif` says whether the board has an enabled `artosyn,vif` node. -/
def ar9311ApplyCameraDefaults (vif : Bool) (regs : CguRegs) : CguRegs :=
  if vif then ar9311CameraDefaults.foldl applyCameraDefault regs else regs

/-! ### The indices that device trees use -/

/-- Positions in the leaf table. -/
def ar9311PinnedLeaves : List (ℕ × ClkName) :=
  [(2, .cguIspClk), (3, .cguIspHdrClk), (4, .cguVifAxiClk), (8, .cguVencClk),
   (10, .cguMipiCsi0Clk), (11, .cguMipiCsi1Clk), (12, .cguMipiPcsClk), (32, .cguSensorMclk0)]

def ar9311CheckProviderIndices (leaves : List Ar9311LeafDesc) : ℤ :=
  if ar9311PinnedLeaves.all fun pinned =>
      leaves[pinned.1]?.any fun d => d.name = pinned.2 then 0
  else einval

section Pinned

variable {leaves : List Ar9311LeafDesc}

theorem checkProviderIndices_eq_zero :
    ar9311CheckProviderIndices leaves = 0 ↔
      ∀ pinned ∈ ar9311PinnedLeaves, ∃ d, leaves[pinned.1]? = some d ∧ d.name = pinned.2 := by
  unfold ar9311CheckProviderIndices
  split
  · next passes => simpa [List.all_eq_true, Option.any_eq_true] using passes
  · next fails => simpa [List.all_eq_true, Option.any_eq_true, einval] using fails

end Pinned

end MlKernel.Clk
