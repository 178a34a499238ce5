import Mathlib.Algebra.Ring.Nat
import Mathlib.Data.Int.Notation
import Mathlib.Data.Nat.Notation
import Mathlib.Tactic.Common
import MlKernel.Lib.StrobedPort

/-!
# The CSI-2 receiver

The D-PHY of a core has no registers on the bus: two registers of the core carry the pins of its
test port.  What the driver does to these two registers, bit by bit, stores bytes in the PHY's own
registers.  A link of more than two lanes uses both cores of the pair.
-/

namespace MlKernel.Media.Csi2

open StrobedPort

/-! ### A core and its D-PHY -/

abbrev dwCsi2NLanes : ℕ := 0x004
abbrev dwCsi2Resetn : ℕ := 0x008
abbrev dwCsi2PhyShutdownz : ℕ := 0x040
abbrev dwCsi2DphyRstz : ℕ := 0x044
abbrev dwCsi2PhyTestCtrl0 : ℕ := 0x050
abbrev dwCsi2PhyTestCtrl1 : ℕ := 0x054
abbrev dwCsi2IpiMode : ℕ := 0x080
abbrev dwCsi2IpiVcid : ℕ := 0x084
abbrev dwCsi2IpiDataType : ℕ := 0x088
abbrev dwCsi2IpiMemFlush : ℕ := 0x08c
abbrev dwCsi2IpiHsaTime : ℕ := 0x090
abbrev dwCsi2IpiHbpTime : ℕ := 0x094
abbrev dwCsi2IpiHsdTime : ℕ := 0x098
abbrev dwCsi2IpiAdvFeatures : ℕ := 0x0ac

abbrev arCsiWrapScenario : ℕ := 0x008
abbrev arCsiWrapIpiDataMux : ℕ := 0x014
abbrev arCsiWrapIrqMask : ℕ := 0x028
abbrev arCsiWrapIpiClockMux : ℕ := 0x03c
abbrev arCsiWrapLaneMerge : ℕ := 0x040
abbrev arCsiWrapNumLanes : ℕ := 0x04c
abbrev arCsiWrapInitZero : ℕ := 0x098

def phyTestClear : BitVec 32 := 0x1

def phyTestClock : BitVec 32 := 0x2

def phyTestEnable : BitVec 32 := 0x10000

abbrev Byte : Type := BitVec 8

/-- The registers of a core, and what lies behind its test port. -/
structure Core where
  regs : ℕ → BitVec 32
  latch : Latch Byte

/-- The pins of the test port in the two test control registers. -/
def pins (regs : ℕ → BitVec 32) : Pins Byte where
  clear := (regs dwCsi2PhyTestCtrl0).getLsbD 0
  strobe := (regs dwCsi2PhyTestCtrl0).getLsbD 1
  select := (regs dwCsi2PhyTestCtrl1).getLsbD 16
  data := (regs dwCsi2PhyTestCtrl1).setWidth 8

def Core.port (c : Core) : Port Byte := ⟨pins c.regs, c.latch⟩

/-- The test port of a PHY that was cleared, with its registers at their reset values. -/
def clearedLatch (reset : Byte → Byte) : Latch Byte := ⟨0, reset⟩

namespace Core

variable (reset : Byte → Byte)

def write (c : Core) (offset : ℕ) (value : BitVec 32) : Core :=
  let regs := Function.update c.regs offset value
  ⟨regs, c.latch.drive (clearedLatch reset) (pins c.regs) (pins regs)⟩

/-- What a read returns; testdout comes back in bits 15:8 of the second test control register. -/
def read (c : Core) (offset : ℕ) : BitVec 32 :=
  if offset = dwCsi2PhyTestCtrl1 then
    (c.regs offset &&& 0xffff00ff) ||| ((c.latch.bank c.latch.address).setWidth 32 <<< 8)
  else c.regs offset

/-- `ar_csi2_update`. -/
def update (c : Core) (offset : ℕ) (bit : BitVec 32) (set : Bool) : Core :=
  c.write reset offset (if set then c.read offset ||| bit else c.read offset &&& ~~~bit)

end Core

/-! ### The driver -/

section Driver

variable (reset : Byte → Byte)

def arCsi2PhyTestWrite (core : Core) (code value : Byte) : Core :=
  let core := core.write reset dwCsi2PhyTestCtrl1 (code.setWidth 32)
  let core := core.update reset dwCsi2PhyTestCtrl1 phyTestEnable true
  let core := core.update reset dwCsi2PhyTestCtrl0 phyTestClock true
  let core := core.update reset dwCsi2PhyTestCtrl0 phyTestClock false
  let core := core.update reset dwCsi2PhyTestCtrl1 phyTestEnable false
  let core := core.write reset dwCsi2PhyTestCtrl1 (value.setWidth 32)
  let core := core.update reset dwCsi2PhyTestCtrl0 phyTestClock true
  core.update reset dwCsi2PhyTestCtrl0 phyTestClock false

def arCsi2PhyTestRead (core : Core) (code : Byte) : Byte × Core :=
  let core := core.write reset dwCsi2PhyTestCtrl1 (code.setWidth 32)
  let core := core.update reset dwCsi2PhyTestCtrl1 phyTestEnable true
  let core := core.update reset dwCsi2PhyTestCtrl0 phyTestClock true
  let core := core.update reset dwCsi2PhyTestCtrl0 phyTestClock false
  let core := core.write reset dwCsi2PhyTestCtrl1 0
  let value := core.read dwCsi2PhyTestCtrl1
  (((value >>> 8) &&& 0xff).setWidth 8, core.update reset dwCsi2PhyTestCtrl1 phyTestEnable false)

/-- The setup and lane registers, which are written before the range. -/
def phySetup : List (Byte × Byte) :=
  [(0x4d, 0x00), (0x4e, 0x08), (0x4f, 0x00), (0x50, 0x08), (0x25, 0x07), (0x26, 0x07)]

structure PhyRange where
  min : ℕ
  max : ℕ
  code : ℕ

def phyRanges : List PhyRange :=
  [⟨0, 160, 0⟩, ⟨160, 240, 1⟩, ⟨240, 360, 2⟩, ⟨360, 480, 3⟩, ⟨480, 640, 4⟩, ⟨640, 960, 5⟩,
   ⟨960, 1600, 6⟩, ⟨1600, 2500, 7⟩]

/-- `ar_csi2_phy_range_code`; `none` is `-ERANGE`. -/
def arCsi2PhyRangeCode (rateMbps : ℕ) : Option ℕ :=
  (phyRanges.find? fun range => range.min ≤ rateMbps ∧ rateMbps ≤ range.max).map PhyRange.code

/-- The parameters of the module, the lanes of the device tree, and what `v4l2_get_link_freq`
answers, if a sensor is bound. -/
structure Config where
  numDataLanes : BitVec 8
  phyRange : ℤ
  hsSettle : ℤ
  linkFreq : Option ℤ

/-- `ar_csi2_phy_lane_rate_mbps`, which returns an `int`. -/
def arCsi2PhyLaneRateMbps (config : Config) : ℤ :=
  match config.linkFreq with
  | none => -19
  | some linkFreq =>
      if linkFreq < 0 then linkFreq
      else (BitVec.ofNat 32 ((2 * linkFreq.toNat) % 2 ^ 64 / 1000000)).toInt

/-- The range that the PHY is programmed with; `none` leaves it. -/
def rangeCode (config : Config) : Option Byte :=
  if 0 ≤ config.phyRange then some (BitVec.ofInt 8 config.phyRange)
  else
    let rateMbps := arCsi2PhyLaneRateMbps config
    if rateMbps < 0 then none
    else (arCsi2PhyRangeCode rateMbps.toNat).map (BitVec.ofNat 8)

def settleWrites (config : Config) : List (Byte × Byte) :=
  if 0 < config.hsSettle then
    [(0x03, BitVec.ofInt 8 config.hsSettle), (0x0a, BitVec.ofInt 8 config.hsSettle)]
  else []

/-- The test-interface writes of a power-on, in their order. -/
def phyWrites (config : Config) : List (Byte × Byte) :=
  phySetup ++ (rangeCode config).toList.map (fun code => (0x00, code)) ++ settleWrites config

/-- The start of `ar_csi2_phy_power_on_core`: the PHY is held down, its test interface is cleared
and goes through a dummy cycle. -/
def phyHoldDown (core : Core) : Core :=
  let core := core.write reset dwCsi2PhyShutdownz 0
  let core := core.write reset dwCsi2DphyRstz 0
  let core := core.update reset dwCsi2PhyTestCtrl0 phyTestClock false
  let core := core.update reset dwCsi2PhyTestCtrl0 phyTestClear true
  let core := core.update reset dwCsi2PhyTestCtrl0 phyTestClear false
  let core := core.update reset dwCsi2PhyTestCtrl0 phyTestClock true
  let core := core.write reset dwCsi2PhyTestCtrl1 0
  let core := core.update reset dwCsi2PhyTestCtrl1 phyTestEnable true
  let core := core.update reset dwCsi2PhyTestCtrl0 phyTestClock false
  let core := core.update reset dwCsi2PhyTestCtrl1 phyTestEnable false
  let core := core.write reset dwCsi2PhyTestCtrl1 0
  let core := core.update reset dwCsi2PhyTestCtrl0 phyTestClock true
  core.update reset dwCsi2PhyTestCtrl0 phyTestClock false

def arCsi2PhyPowerOnCore (config : Config) (core : Core) : Core :=
  let core := (phyWrites config).foldl (fun core write =>
    arCsi2PhyTestWrite reset core write.1 write.2) (phyHoldDown reset core)
  let core := core.write reset dwCsi2PhyShutdownz 1
  core.write reset dwCsi2DphyRstz 1

def phyDeskewEnable : Byte := 0x20

def deskew (enable : Bool) (value : Byte) : Byte :=
  if enable then value ||| phyDeskewEnable else value &&& ~~~phyDeskewEnable

def arCsi2PhySetDeskewCore (core : Core) (enable : Bool) : Core :=
  let (value, core) := arCsi2PhyTestRead reset core 0x3d
  let core := arCsi2PhyTestWrite reset core 0x3d (deskew enable value)
  let (value, core) := arCsi2PhyTestRead reset core 0x45
  arCsi2PhyTestWrite reset core 0x45 (deskew enable value)

def arCsi2PhyPowerOffCore (core : Core) : Core :=
  let core := core.write reset dwCsi2DphyRstz 0
  let core := core.write reset dwCsi2PhyShutdownz 0
  core.write reset dwCsi2PhyTestCtrl0 1

def arCsi2IrqMasks : List (ℕ × BitVec 32) :=
  [(0x0e4, 0x0000000f), (0x0f4, 0x0001000d), (0x104, 0x00010100), (0x114, 0x00030003),
   (0x124, 0x00010001), (0x134, 0x00030001), (0x144, 0x0000001f), (0x154, 0x0000001f),
   (0x164, 0x0000001f), (0x174, 0x0000001f)]

def writeAll (core : Core) (writes : List (ℕ × BitVec 32)) : Core :=
  writes.foldl (fun core write => core.write reset write.1 write.2) core

def arCsi2SetIrqMasks (core : Core) (unmask : Bool) : Core :=
  writeAll reset core (arCsi2IrqMasks.map fun mask => (mask.1, if unmask then mask.2 else 0))

/-- A wrapper and the two cores behind it. -/
structure Pair where
  wrap : ℕ → BitVec 32
  core0 : Core
  core1 : Core

def Pair.writeWrap (pair : Pair) (offset : ℕ) (value : BitVec 32) : Pair :=
  { pair with wrap := Function.update pair.wrap offset value }

/-- What `ar_csi2_configure` writes to the IPI of the first core. -/
def ipiWrites (dataType : Byte) : List (ℕ × BitVec 32) :=
  [(dwCsi2IpiMode, 0x01010000), (dwCsi2IpiAdvFeatures, 0x013b0000), (dwCsi2IpiVcid, 0),
   (dwCsi2IpiDataType, dataType.setWidth 32), (dwCsi2IpiMemFlush, 0x100),
   (dwCsi2IpiHsaTime, 0x1c), (dwCsi2IpiHbpTime, 0x1c), (dwCsi2IpiHsdTime, 0x39)]

/-- Whether the link is merged over both cores. -/
def Config.merged (config : Config) : Bool := 2 < config.numDataLanes.toNat

/-- `num_data_lanes - 1`, as an `int` that is written to a register. -/
def Config.laneField (config : Config) : BitVec 32 := config.numDataLanes.setWidth 32 - 1

/-- The first part of `ar_csi2_configure`, up to the PHYs. -/
def configureLanes (config : Config) (pair : Pair) : Pair :=
  let core0 := (pair.core0.write reset dwCsi2Resetn 0).write reset dwCsi2Resetn 1
  let pair := { pair with core0 }.writeWrap arCsiWrapInitZero 0
  let scenario := pair.wrap arCsiWrapScenario
  let pair := pair.writeWrap arCsiWrapScenario
    (if config.merged then scenario ||| 1 else scenario &&& ~~~(1 : BitVec 32))
  let pair := pair.writeWrap arCsiWrapNumLanes config.laneField
  let core0 := pair.core0.write reset dwCsi2NLanes config.laneField
  let pair := { pair with core0 := arCsi2SetIrqMasks reset core0 false }
  pair.writeWrap arCsiWrapIrqMask 0xffffffff

/-- `ar_csi2_phy_power_on`, the merge, and `ar_csi2_phy_enable_deskew`. -/
def configurePhys (config : Config) (pair : Pair) : Pair :=
  let pair := { pair with core0 := arCsi2PhyPowerOnCore reset config pair.core0 }
  let pair :=
    if config.merged then
      let core1 := arCsi2PhyPowerOnCore reset config pair.core1
      let core1 := (core1.write reset dwCsi2Resetn 0).write reset dwCsi2Resetn 1
      { pair with core1 }.writeWrap arCsiWrapLaneMerge 1
    else pair
  let pair := { pair with core0 := arCsi2PhySetDeskewCore reset pair.core0 true }
  if config.merged then { pair with core1 := arCsi2PhySetDeskewCore reset pair.core1 true }
  else pair

/-- From the IPI to `ar_csi2_phy_disable_deskew`. -/
def configureOutput (config : Config) (dataType : Byte) (pair : Pair) : Pair :=
  let pair := { pair with core0 := writeAll reset pair.core0 (ipiWrites dataType) }
  let pair := (pair.writeWrap arCsiWrapIpiDataMux 0).writeWrap arCsiWrapIpiClockMux 0
  let pair := { pair with core0 := arCsi2SetIrqMasks reset pair.core0 true }
  let pair := pair.writeWrap arCsiWrapIrqMask 0
  let pair := { pair with core0 := arCsi2PhySetDeskewCore reset pair.core0 false }
  if config.merged then { pair with core1 := arCsi2PhySetDeskewCore reset pair.core1 false }
  else pair

def arCsi2Configure (config : Config) (dataType : Byte) (pair : Pair) : Pair :=
  configureOutput reset config dataType
    (configurePhys reset config (configureLanes reset config pair))

def arCsi2Stop (pair : Pair) : Pair :=
  let core := pair.core0.write reset dwCsi2IpiMode 0
  let core := arCsi2SetIrqMasks reset core false
  let core := arCsi2PhyPowerOffCore reset core
  { pair with core0 := core.write reset dwCsi2Resetn 0 }

/-- The receiver: the pair, and the enable counts of its clocks. -/
structure ArCsi2 where
  pair : Pair
  csiClk : ℕ
  pcsClk : ℕ

/-- What the two clocks and the sensor answer. -/
structure StreamEnv where
  csiClk : ℤ
  pcsClk : ℤ
  sensor : ℤ

def mipiCsi2DtRaw12 : Byte := 0x2c

def arCsi2ClksEnable (s : ArCsi2) (env : StreamEnv) : ℤ × ArCsi2 :=
  if env.csiClk ≠ 0 then (env.csiClk, s)
  else if env.pcsClk ≠ 0 then (env.pcsClk, { s with csiClk := s.csiClk + 1 - 1 })
  else (0, { s with csiClk := s.csiClk + 1, pcsClk := s.pcsClk + 1 })

def arCsi2ClksDisable (s : ArCsi2) : ArCsi2 :=
  { s with csiClk := s.csiClk - 1, pcsClk := s.pcsClk - 1 }

def arCsi2SetStream (config : Config) (s : ArCsi2) (enable : Bool) (env : StreamEnv) : ℤ × ArCsi2 :=
  if config.linkFreq = none then (-19, s)
  else if enable = false then
    (0, arCsi2ClksDisable { s with pair := arCsi2Stop reset s.pair })
  else
    let (ret, s) := arCsi2ClksEnable s env
    if ret ≠ 0 then (ret, s)
    else
      let s := { s with pair := arCsi2Configure reset config mipiCsi2DtRaw12 s.pair }
      if env.sensor ≠ 0 then
        (env.sensor, arCsi2ClksDisable { s with pair := arCsi2Stop reset s.pair })
      else (0, s)

end Driver

end MlKernel.Media.Csi2
