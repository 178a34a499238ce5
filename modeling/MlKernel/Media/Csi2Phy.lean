import MlKernel.Media.Csi2

/-!
# What the driver stores in the D-PHY

Each operation on the test control registers is one on the pins of the port behind them, so that a
test-interface write is a cycle of the port.  A power-on starts with a clear, so that it does not
matter what the port and the PHY were left with.
-/

namespace MlKernel.Media.Csi2

open StrobedPort

/-! ### The pins -/

section Pins

variable {reset : Byte → Byte} {c : Core}

theorem read_ctrl0 (c : Core) : c.read dwCsi2PhyTestCtrl0 = c.regs dwCsi2PhyTestCtrl0 := rfl

theorem byte_and_ones (x : Byte) : x &&& 255#8 = x :=
  BitVec.and_allOnes

theorem ctrl_apart : dwCsi2PhyTestCtrl1 ≠ dwCsi2PhyTestCtrl0 := by decide

/-- The bits of testdout are none of the pins'. -/
theorem read_ctrl1_pins (c : Core) :
    (c.read dwCsi2PhyTestCtrl1).getLsbD 16 = c.port.pins.select ∧
      (c.read dwCsi2PhyTestCtrl1).setWidth 8 = c.port.pins.data := by
  rw [Core.read, if_pos rfl]
  constructor
  · simp [Core.port, pins]
  · have masked := byte_and_ones ((c.regs dwCsi2PhyTestCtrl1).setWidth 8)
    have dout : ((c.latch.bank c.latch.address).setWidth 32 <<< 8).setWidth 8 = (0 : Byte) := by
      ext i inByte
      simp
    rw [BitVec.setWidth_or, BitVec.setWidth_and, dout]
    exact (BitVec.or_zero).trans masked

theorem port_write_ctrl0 (c : Core) (value : BitVec 32) :
    (c.write reset dwCsi2PhyTestCtrl0 value).port = c.port.drive (clearedLatch reset)
      { c.port.pins with clear := value.getLsbD 0, strobe := value.getLsbD 1 } := by
  have driven : pins (Function.update c.regs dwCsi2PhyTestCtrl0 value) =
      { pins c.regs with clear := value.getLsbD 0, strobe := value.getLsbD 1 } := by
    simp only [pins, Function.update_self, Function.update_of_ne ctrl_apart]
  simp only [Core.port, Core.write, Port.drive, driven]

theorem port_write_ctrl1 (c : Core) (value : BitVec 32) :
    (c.write reset dwCsi2PhyTestCtrl1 value).port = c.port.drive (clearedLatch reset)
      { c.port.pins with select := value.getLsbD 16, data := value.setWidth 8 } := by
  have driven : pins (Function.update c.regs dwCsi2PhyTestCtrl1 value) =
      { pins c.regs with select := value.getLsbD 16, data := value.setWidth 8 } := by
    simp only [pins, Function.update_self, Function.update_of_ne ctrl_apart.symm]
  simp only [Core.port, Core.write, Port.drive, driven]

theorem port_write_of_ne {offset : ℕ} (ctrl0 : offset ≠ dwCsi2PhyTestCtrl0)
    (ctrl1 : offset ≠ dwCsi2PhyTestCtrl1) (c : Core) (value : BitVec 32) :
    (c.write reset offset value).port = c.port.drive (clearedLatch reset) c.port.pins := by
  have same : pins (Function.update c.regs offset value) = pins c.regs := by
    simp only [pins, Function.update_of_ne ctrl0.symm, Function.update_of_ne ctrl1.symm]
  simp only [Core.port, Core.write, Port.drive, same]

/-- Other registers leave an idle port alone. -/
theorem port_write_of_idle {offset : ℕ} (ctrl0 : offset ≠ dwCsi2PhyTestCtrl0)
    (ctrl1 : offset ≠ dwCsi2PhyTestCtrl1) (idle : c.port.Idle) (value : BitVec 32) :
    (c.write reset offset value).port = c.port := by
  rw [port_write_of_ne ctrl0 ctrl1]
  exact Port.drive_same idle

theorem port_byte (c : Core) (byte : Byte) :
    (c.write reset dwCsi2PhyTestCtrl1 (byte.setWidth 32)).port =
      c.port.setData (clearedLatch reset) false byte := by
  rw [port_write_ctrl1, Port.setData]
  simp

theorem port_enable (c : Core) (set : Bool) :
    (c.update reset dwCsi2PhyTestCtrl1 phyTestEnable set).port =
      c.port.setSelect (clearedLatch reset) set := by
  rcases read_ctrl1_pins c with ⟨-, data⟩
  rw [Core.update, port_write_ctrl1, Port.setSelect]
  cases set
  · rw [if_neg Bool.false_ne_true]
    simp [phyTestEnable, data, byte_and_ones]
  · rw [if_pos rfl]
    simp [phyTestEnable, data]

theorem port_clock (c : Core) (set : Bool) :
    (c.update reset dwCsi2PhyTestCtrl0 phyTestClock set).port =
      c.port.setStrobe (clearedLatch reset) set := by
  rw [Core.update, port_write_ctrl0, Port.setStrobe, read_ctrl0]
  cases set
  · rw [if_neg Bool.false_ne_true]
    simp [phyTestClock, Core.port, pins]
  · rw [if_pos rfl]
    simp [phyTestClock, Core.port, pins]

theorem port_clear (c : Core) (set : Bool) :
    (c.update reset dwCsi2PhyTestCtrl0 phyTestClear set).port =
      c.port.setClear (clearedLatch reset) set := by
  rw [Core.update, port_write_ctrl0, Port.setClear, read_ctrl0]
  cases set
  · rw [if_neg Bool.false_ne_true]
    simp [phyTestClear, Core.port, pins]
  · rw [if_pos rfl]
    simp [phyTestClear, Core.port, pins]

theorem write_regs_self (c : Core) (offset : ℕ) (value : BitVec 32) :
    (c.write reset offset value).regs offset = value :=
  Function.update_self ..

theorem write_regs_of_ne {offset other : ℕ} (apart : other ≠ offset) (c : Core)
    (value : BitVec 32) : (c.write reset offset value).regs other = c.regs other :=
  Function.update_of_ne apart ..

theorem update_regs_of_ne {offset other : ℕ} (apart : other ≠ offset) (c : Core)
    (bit : BitVec 32) (set : Bool) : (c.update reset offset bit set).regs other = c.regs other :=
  Function.update_of_ne apart ..

end Pins

/-! ### The test interface -/

section TestInterface

variable {reset : Byte → Byte} {c : Core}

/-- A test-interface write is one cycle of the port. -/
theorem port_testWrite (c : Core) (code value : Byte) :
    (arCsi2PhyTestWrite reset c code value).port =
      c.port.writeCycle (clearedLatch reset) code value := by
  simp only [arCsi2PhyTestWrite, port_clock, port_byte, port_enable, Port.writeCycle,
    Port.addressCycle]

theorem dout_byte (word : BitVec 32) (byte : Byte) :
    ((((word &&& 0xffff00ff) ||| (byte.setWidth 32 <<< 8)) >>> 8) &&& 0xff).setWidth 8 = byte := by
  have masked : ∀ i < 8, (0xffff00ff : BitVec 32).getLsbD (i + 8) = false := by decide
  have ones : ∀ i < 8, (0xff : BitVec 32).getLsbD i = true := by decide
  ext i inByte
  have above : ¬i + 8 < 8 := by omega
  have inWord : i + 8 < 32 := by omega
  have inShift : i < 32 := by omega
  simp only [BitVec.getElem_setWidth, BitVec.getLsbD_and, BitVec.getLsbD_ushiftRight,
    BitVec.getLsbD_or, BitVec.getLsbD_shiftLeft, BitVec.getLsbD_setWidth, Nat.add_comm 8 i,
    Nat.add_sub_cancel, ones i inByte, above, inWord, inShift]
  simp [inByte]
  intro _ bit
  exact absurd (bit.symm.trans (masked i inByte)) (by decide)

/-- A test-interface read brings back the addressed register, and changes none. -/
theorem testRead_eq (idle : c.port.Idle) (code : Byte) :
    (arCsi2PhyTestRead reset c code).1 = c.port.latch.bank code ∧
      (arCsi2PhyTestRead reset c code).2.port =
        ⟨⟨false, false, false, 0⟩, ⟨code, c.port.latch.bank⟩⟩ := by
  have zero : (0 : BitVec 32) = (0 : Byte).setWidth 32 := rfl
  -- the port while testdout is read
  have reading : ((((((c.write reset dwCsi2PhyTestCtrl1 (code.setWidth 32)).update reset
      dwCsi2PhyTestCtrl1 phyTestEnable true).update reset dwCsi2PhyTestCtrl0 phyTestClock
        true).update reset dwCsi2PhyTestCtrl0 phyTestClock false).write reset dwCsi2PhyTestCtrl1
          ((0 : Byte).setWidth 32)).port) =
      ⟨⟨false, false, false, 0⟩, ⟨code, c.port.latch.bank⟩⟩ := by
    have addressed := @Port.addressCycle_eq _ _ (clearedLatch reset) _ idle code
    simp only [Port.addressCycle] at addressed
    simp only [port_byte, port_clock, port_enable, addressed]
    simp [Port.setData, Port.drive, Latch.drive]
  simp only [arCsi2PhyTestRead, zero]
  generalize (((((c.write reset dwCsi2PhyTestCtrl1 (code.setWidth 32)).update reset
      dwCsi2PhyTestCtrl1 phyTestEnable true).update reset dwCsi2PhyTestCtrl0 phyTestClock
        true).update reset dwCsi2PhyTestCtrl0 phyTestClock false).write reset dwCsi2PhyTestCtrl1
          ((0 : Byte).setWidth 32)) = core at reading ⊢
  constructor
  · have latch : core.latch = ⟨code, c.port.latch.bank⟩ := congrArg Port.latch reading
    rw [Core.read, if_pos rfl, latch]
    exact dout_byte _ _
  · rw [port_enable, reading]
    simp [Port.setSelect, Port.drive, Latch.drive]

theorem testWrite_regs_of_ne {offset : ℕ} (ctrl0 : offset ≠ dwCsi2PhyTestCtrl0)
    (ctrl1 : offset ≠ dwCsi2PhyTestCtrl1) (c : Core) (code value : Byte) :
    (arCsi2PhyTestWrite reset c code value).regs offset = c.regs offset := by
  simp only [arCsi2PhyTestWrite, update_regs_of_ne ctrl0, update_regs_of_ne ctrl1,
    write_regs_of_ne ctrl1]

theorem testRead_regs_of_ne {offset : ℕ} (ctrl0 : offset ≠ dwCsi2PhyTestCtrl0)
    (ctrl1 : offset ≠ dwCsi2PhyTestCtrl1) (c : Core) (code : Byte) :
    (arCsi2PhyTestRead reset c code).2.regs offset = c.regs offset := by
  simp only [arCsi2PhyTestRead, update_regs_of_ne ctrl0, update_regs_of_ne ctrl1,
    write_regs_of_ne ctrl1]

/-- Whatever the port was left with, it comes up idle and cleared, but for the register that the
dummy cycle stores to. -/
theorem port_holdDown (c : Core) :
    (phyHoldDown reset c).port =
      ⟨⟨false, false, false, 0⟩, ⟨0, Function.update reset 0 0⟩⟩ := by
  have zero : (0 : BitVec 32) = (0 : Byte).setWidth 32 := rfl
  simp only [phyHoldDown, port_clock, port_clear, port_enable, zero, port_byte]
  generalize ((c.write reset dwCsi2PhyShutdownz _).write reset dwCsi2DphyRstz _).port = port
  rcases port with ⟨⟨clear, strobe, select, data⟩, latch⟩
  cases select <;>
    simp [Port.setData, Port.setSelect, Port.setStrobe, Port.setClear, Port.drive, Latch.drive,
      clearedLatch]

end TestInterface

/-! ### A PHY in operation -/

/-- The PHY's registers once it is powered on. -/
def phyBank (reset : Byte → Byte) (config : Config) : Byte → Byte :=
  (phyWrites config).foldl (fun bank write => Function.update bank write.1 write.2)
    (Function.update reset 0 0)

/-- The two deskew registers set or cleared. -/
def deskewBank (enable : Bool) (bank : Byte → Byte) : Byte → Byte :=
  Function.update (Function.update bank 0x3d (deskew enable (bank 0x3d))) 0x45
    (deskew enable (bank 0x45))

/-- A PHY out of reset, with the given registers and its test port at rest. -/
structure PhyReleased (c : Core) (bank : Byte → Byte) : Prop where
  idle : c.port.Idle
  bank : c.port.latch.bank = bank
  shutdownz : c.regs dwCsi2PhyShutdownz = 1
  rstz : c.regs dwCsi2DphyRstz = 1

/-- The registers that a PHY depends on. -/
def phyOffsets : List ℕ :=
  [dwCsi2PhyShutdownz, dwCsi2DphyRstz, dwCsi2PhyTestCtrl0, dwCsi2PhyTestCtrl1]

section Phy

variable {reset : Byte → Byte} {config : Config} {c : Core} {bank : Byte → Byte}

theorem port_testWrites (idle : c.port.Idle) (writes : List (Byte × Byte)) :
    let after := writes.foldl (fun core write =>
      arCsi2PhyTestWrite reset core write.1 write.2) c
    after.port.Idle ∧ after.port.latch.bank =
      writes.foldl (fun bank write => Function.update bank write.1 write.2) c.port.latch.bank := by
  have cycles : ∀ c : Core, (writes.foldl (fun core write =>
      arCsi2PhyTestWrite reset core write.1 write.2) c).port =
        writes.foldl (fun port write => port.writeCycle (clearedLatch reset) write.1 write.2)
          c.port := by
    induction writes with
    | nil => exact fun _ => rfl
    | cons write writes ih =>
        intro c
        rw [List.foldl_cons, ih, port_testWrite, List.foldl_cons]
  intro after
  dsimp only [after]
  rw [cycles]
  exact Port.foldl_writeCycle idle writes

/-- Whatever the core was left with, a power-on brings the PHY up as configured. -/
theorem powerOn_released (c : Core) :
    PhyReleased (arCsi2PhyPowerOnCore reset config c) (phyBank reset config) := by
  have held := @port_holdDown reset c
  have heldIdle : (phyHoldDown reset c).port.Idle := by
    rw [held]
    exact ⟨rfl, rfl⟩
  rcases @port_testWrites reset _ heldIdle (phyWrites config) with ⟨idle, stored⟩
  rw [held] at stored
  rw [arCsi2PhyPowerOnCore]
  generalize (phyWrites config).foldl (fun core write =>
    arCsi2PhyTestWrite reset core write.1 write.2) (phyHoldDown reset c) = core at idle stored
  have up : (core.write reset dwCsi2PhyShutdownz 1).port = core.port :=
    port_write_of_idle (by decide) (by decide) idle 1
  have released : ((core.write reset dwCsi2PhyShutdownz 1).write reset dwCsi2DphyRstz 1).port =
      core.port :=
    (port_write_of_idle (by decide) (by decide) (up.symm ▸ idle) 1).trans up
  refine ⟨released.symm ▸ idle, released.symm ▸ stored, ?_, write_regs_self _ _ _⟩
  exact (write_regs_of_ne (by decide) _ _).trans (write_regs_self _ _ _)

/-- A write elsewhere leaves a PHY in operation. -/
theorem PhyReleased.write (released : PhyReleased c bank) {offset : ℕ}
    (elsewhere : offset ∉ phyOffsets) (value : BitVec 32) :
    PhyReleased (c.write reset offset value) bank := by
  simp only [phyOffsets, List.mem_cons, List.not_mem_nil, or_false, not_or] at elsewhere
  rcases elsewhere with ⟨shutdownz, rstz, ctrl0, ctrl1⟩
  have port : (c.write reset offset value).port = c.port :=
    port_write_of_idle ctrl0 ctrl1 released.idle value
  refine ⟨port.symm ▸ released.idle, port.symm ▸ released.bank, ?_, ?_⟩
  · exact (write_regs_of_ne (Ne.symm shutdownz) c value).trans released.shutdownz
  · exact (write_regs_of_ne (Ne.symm rstz) c value).trans released.rstz

theorem PhyReleased.writeAll (released : PhyReleased c bank) {writes : List (ℕ × BitVec 32)}
    (elsewhere : ∀ write ∈ writes, write.1 ∉ phyOffsets) :
    PhyReleased (writeAll reset c writes) bank := by
  induction writes generalizing c with
  | nil => exact released
  | cons write writes ih =>
      have stillReleased : PhyReleased (c.write reset write.1 write.2) bank :=
        released.write (elsewhere write List.mem_cons_self) write.2
      exact ih stillReleased fun later member => elsewhere later (List.mem_cons_of_mem _ member)

theorem setDeskew_regs_of_ne {offset : ℕ} (ctrl0 : offset ≠ dwCsi2PhyTestCtrl0)
    (ctrl1 : offset ≠ dwCsi2PhyTestCtrl1) (c : Core) (enable : Bool) :
    (arCsi2PhySetDeskewCore reset c enable).regs offset = c.regs offset := by
  simp only [arCsi2PhySetDeskewCore, testWrite_regs_of_ne ctrl0 ctrl1,
    testRead_regs_of_ne ctrl0 ctrl1]

theorem PhyReleased.setDeskew (released : PhyReleased c bank) (enable : Bool) :
    PhyReleased (arCsi2PhySetDeskewCore reset c enable) (deskewBank enable bank) := by
  rcases @testRead_eq reset c released.idle 0x3d with ⟨isFirst, firstPort⟩
  have firstIdle : (arCsi2PhyTestRead reset c 0x3d).2.port.Idle := by
    rw [firstPort]
    exact ⟨rfl, rfl⟩
  have firstWritten := @Port.writeCycle_eq _ _ (clearedLatch reset) _ firstIdle 0x3d
    (deskew enable (arCsi2PhyTestRead reset c 0x3d).1)
  rw [← port_testWrite, isFirst] at firstWritten
  generalize firstCore : arCsi2PhyTestWrite reset (arCsi2PhyTestRead reset c 0x3d).2 0x3d
    (deskew enable (c.port.latch.bank 0x3d)) = first at firstWritten
  have idle : first.port.Idle := by
    rw [firstWritten]
    exact ⟨rfl, rfl⟩
  rcases @testRead_eq reset first idle 0x45 with ⟨isSecond, secondPort⟩
  have secondIdle : (arCsi2PhyTestRead reset first 0x45).2.port.Idle := by
    rw [secondPort]
    exact ⟨rfl, rfl⟩
  have secondWritten := @Port.writeCycle_eq _ _ (clearedLatch reset) _ secondIdle 0x45
    (deskew enable (arCsi2PhyTestRead reset first 0x45).1)
  rw [← port_testWrite] at secondWritten
  have whole : arCsi2PhySetDeskewCore reset c enable =
      arCsi2PhyTestWrite reset (arCsi2PhyTestRead reset first 0x45).2 0x45
        (deskew enable (arCsi2PhyTestRead reset first 0x45).1) := by
    rw [← firstCore, ← isFirst]
    rfl
  refine ⟨?_, ?_, ?_, ?_⟩
  · rw [whole, secondWritten]
    exact ⟨rfl, rfl⟩
  · rw [whole, secondWritten, isSecond, secondPort, firstWritten, firstPort, released.bank]
    rfl
  · exact (setDeskew_regs_of_ne (by decide) (by decide) c enable).trans released.shutdownz
  · exact (setDeskew_regs_of_ne (by decide) (by decide) c enable).trans released.rstz

theorem deskew_cleared (value : Byte) : deskew false (deskew true value) = deskew false value := by
  have masked : phyDeskewEnable &&& ~~~phyDeskewEnable = 0 := by decide
  have zero : (0 : Byte) = 0#8 := rfl
  simp only [deskew, if_true, Bool.false_eq_true, if_false]
  rw [BitVec.and_comm, BitVec.and_or_distrib_left, BitVec.and_comm _ phyDeskewEnable, masked, zero,
    BitVec.or_zero, BitVec.and_comm]

/-- Set for the bring-up and cleared at its end, the deskew bits are clear. -/
theorem deskewBank_cleared (bank : Byte → Byte) :
    deskewBank false (deskewBank true bank) = deskewBank false bank := by
  funext address
  by_cases second : address = 0x45
  · subst second
    simp [deskewBank, deskew_cleared]
  · by_cases first : address = 0x3d
    · subst first
      simp [deskewBank, deskew_cleared]
    · simp only [deskewBank, Function.update_of_ne first, Function.update_of_ne second]

end Phy

/-! ### The link -/

/-- The PHY's registers once the link is configured. -/
def linkBank (reset : Byte → Byte) (config : Config) : Byte → Byte :=
  deskewBank false (phyBank reset config)

structure LinkUp (reset : Byte → Byte) (config : Config) (pair : Pair) : Prop where
  phy0 : PhyReleased pair.core0 (linkBank reset config)
  phy1 : config.merged = true → PhyReleased pair.core1 (linkBank reset config)
  resetn : pair.core0.regs dwCsi2Resetn = 1
  merge : (pair.wrap arCsiWrapScenario).getLsbD 0 = config.merged
  second : config.merged = true →
    pair.core1.regs dwCsi2Resetn = 1 ∧ pair.wrap arCsiWrapLaneMerge = 1
  lanes : pair.core0.regs dwCsi2NLanes = config.laneField ∧
    pair.wrap arCsiWrapNumLanes = config.laneField
  ipi : ∀ write ∈ ipiWrites mipiCsi2DtRaw12, pair.core0.regs write.1 = write.2
  irq : pair.wrap arCsiWrapIrqMask = 0 ∧ ∀ mask ∈ arCsi2IrqMasks, pair.core0.regs mask.1 = mask.2

section Link

variable {reset : Byte → Byte} {config : Config}

theorem writeAll_regs_of_notMem {writes : List (ℕ × BitVec 32)} {offset : ℕ}
    (elsewhere : offset ∉ writes.map Prod.fst) (c : Core) :
    (writeAll reset c writes).regs offset = c.regs offset := by
  induction writes generalizing c with
  | nil => rfl
  | cons write writes ih =>
      rw [List.map_cons, List.mem_cons, not_or] at elsewhere
      exact (ih elsewhere.2 _).trans (write_regs_of_ne elsewhere.1 c write.2)

theorem writeAll_regs_of_mem {writes : List (ℕ × BitVec 32)}
    (distinct : (writes.map Prod.fst).Nodup) {write : ℕ × BitVec 32} (member : write ∈ writes)
    (c : Core) : (writeAll reset c writes).regs write.1 = write.2 := by
  induction writes generalizing c with
  | nil => cases member
  | cons first writes ih =>
      rw [List.map_cons, List.nodup_cons] at distinct
      rcases List.mem_cons.mp member with rfl | later
      · exact (writeAll_regs_of_notMem distinct.1 _).trans (write_regs_self c _ _)
      · exact ih distinct.2 later _

theorem powerOn_regs_of_notMem {offset : ℕ} (elsewhere : offset ∉ phyOffsets) (c : Core) :
    (arCsi2PhyPowerOnCore reset config c).regs offset = c.regs offset := by
  simp only [phyOffsets, List.mem_cons, List.not_mem_nil, or_false, not_or] at elsewhere
  rcases elsewhere with ⟨shutdownz, rstz, ctrl0, ctrl1⟩
  have stored : ∀ (writes : List (Byte × Byte)) (c : Core), (writes.foldl (fun core write =>
      arCsi2PhyTestWrite reset core write.1 write.2) c).regs offset = c.regs offset := by
    intro writes
    induction writes with
    | nil => exact fun _ => rfl
    | cons write writes ih =>
        intro c
        exact (ih _).trans (testWrite_regs_of_ne ctrl0 ctrl1 c _ _)
  simp only [arCsi2PhyPowerOnCore, write_regs_of_ne shutdownz, write_regs_of_ne rstz, stored,
    phyHoldDown, update_regs_of_ne ctrl0, update_regs_of_ne ctrl1, write_regs_of_ne ctrl1]

/-- The first core, from its lanes on. -/
def configuredCore0 (reset : Byte → Byte) (config : Config) (dataType : Byte) (core : Core) :
    Core :=
  let core := arCsi2PhyPowerOnCore reset config core
  let core := arCsi2PhySetDeskewCore reset core true
  let core := writeAll reset core (ipiWrites dataType)
  let core := arCsi2SetIrqMasks reset core true
  arCsi2PhySetDeskewCore reset core false

/-- The second core of a merged link. -/
def configuredCore1 (reset : Byte → Byte) (config : Config) (core : Core) : Core :=
  let core := arCsi2PhyPowerOnCore reset config core
  let core := (core.write reset dwCsi2Resetn 0).write reset dwCsi2Resetn 1
  arCsi2PhySetDeskewCore reset (arCsi2PhySetDeskewCore reset core true) false

theorem configure_core0 (dataType : Byte) (pair : Pair) :
    (arCsi2Configure reset config dataType pair).core0 =
      configuredCore0 reset config dataType (configureLanes reset config pair).core0 := by
  cases merged : config.merged <;>
    simp only [arCsi2Configure, configureOutput, configurePhys, merged, if_true, Bool.false_eq_true,
      if_false, Pair.writeWrap, configuredCore0]

theorem configure_core1 (dataType : Byte) (pair : Pair) :
    (arCsi2Configure reset config dataType pair).core1 =
      if config.merged then configuredCore1 reset config pair.core1 else pair.core1 := by
  cases merged : config.merged <;>
    simp only [arCsi2Configure, configureOutput, configurePhys, configureLanes, merged, if_true,
      Bool.false_eq_true, if_false, Pair.writeWrap, configuredCore1]

theorem configure_wrap (dataType : Byte) (pair : Pair) :
    let wrap := (arCsi2Configure reset config dataType pair).wrap
    wrap arCsiWrapIrqMask = 0 ∧ wrap arCsiWrapNumLanes = config.laneField ∧
      (wrap arCsiWrapScenario).getLsbD 0 = config.merged ∧
        (config.merged = true → wrap arCsiWrapLaneMerge = 1) := by
  cases merged : config.merged <;>
    simp +decide [arCsi2Configure, configureOutput, configurePhys, configureLanes, merged,
      Pair.writeWrap, Function.update]

theorem irqMasks_elsewhere (unmask : Bool) :
    ∀ write ∈ arCsi2IrqMasks.map (fun mask => (mask.1, if unmask then mask.2 else (0 : BitVec 32))),
      write.1 ∉ phyOffsets := by
  cases unmask <;> decide

theorem ipiWrites_offsets (dataType : Byte) :
    (ipiWrites dataType).map Prod.fst = (ipiWrites 0).map Prod.fst :=
  rfl

theorem ipiWrites_elsewhere (dataType : Byte) :
    ∀ write ∈ ipiWrites dataType, write.1 ∉ phyOffsets := by
  have offsets : ∀ offset ∈ (ipiWrites 0).map Prod.fst, offset ∉ phyOffsets := by decide
  intro write member
  apply offsets
  rw [← ipiWrites_offsets dataType]
  exact List.mem_map_of_mem member

theorem configuredCore0_released (dataType : Byte) (core : Core) :
    PhyReleased (configuredCore0 reset config dataType core) (linkBank reset config) := by
  have up : PhyReleased (arCsi2PhyPowerOnCore reset config core) (phyBank reset config) :=
    powerOn_released core
  have deskewed : PhyReleased (arCsi2PhySetDeskewCore reset _ true) _ := up.setDeskew true
  have output : PhyReleased (writeAll reset _ (ipiWrites dataType)) _ :=
    deskewed.writeAll (ipiWrites_elsewhere dataType)
  have unmasked : PhyReleased (arCsi2SetIrqMasks reset _ true) _ :=
    output.writeAll (irqMasks_elsewhere true)
  have cleared : PhyReleased (arCsi2PhySetDeskewCore reset _ false) _ := unmasked.setDeskew false
  rw [deskewBank_cleared] at cleared
  exact cleared

theorem configuredCore1_released (core : Core) :
    PhyReleased (configuredCore1 reset config core) (linkBank reset config) := by
  have up : PhyReleased (arCsi2PhyPowerOnCore reset config core) (phyBank reset config) :=
    powerOn_released core
  have held : PhyReleased (Core.write reset _ dwCsi2Resetn 0) _ := up.write (by decide) 0
  have released : PhyReleased (Core.write reset _ dwCsi2Resetn 1) _ := held.write (by decide) 1
  have deskewed : PhyReleased (arCsi2PhySetDeskewCore reset _ true) _ := released.setDeskew true
  have cleared : PhyReleased (arCsi2PhySetDeskewCore reset _ false) _ := deskewed.setDeskew false
  rw [deskewBank_cleared] at cleared
  exact cleared

/-- Registers of the first core that are left as its lanes were configured. -/
theorem configuredCore0_regs {offset : ℕ} (phy : offset ∉ phyOffsets)
    (output : offset ∉ (ipiWrites 0).map Prod.fst) (masks : offset ∉ arCsi2IrqMasks.map Prod.fst)
    (dataType : Byte) (core : Core) :
    (configuredCore0 reset config dataType core).regs offset = core.regs offset := by
  have elsewhere := phy
  simp only [phyOffsets, List.mem_cons, List.not_mem_nil, or_false, not_or] at elsewhere
  rcases elsewhere with ⟨-, -, ctrl0, ctrl1⟩
  have unmasked : offset ∉ (arCsi2IrqMasks.map fun mask =>
      (mask.1, if true then mask.2 else (0 : BitVec 32))).map Prod.fst := by
    rwa [List.map_map]
  rw [← ipiWrites_offsets dataType] at output
  rw [configuredCore0, setDeskew_regs_of_ne ctrl0 ctrl1, arCsi2SetIrqMasks,
    writeAll_regs_of_notMem unmasked, writeAll_regs_of_notMem output,
    setDeskew_regs_of_ne ctrl0 ctrl1, powerOn_regs_of_notMem phy]

theorem configuredCore0_ipi (dataType : Byte) (core : Core) :
    ∀ write ∈ ipiWrites dataType,
      (configuredCore0 reset config dataType core).regs write.1 = write.2 := by
  intro write member
  have inOffsets : write.1 ∈ (ipiWrites 0).map Prod.fst :=
    ipiWrites_offsets dataType ▸ List.mem_map_of_mem member
  have apart : ∀ offset ∈ (ipiWrites 0).map Prod.fst, offset ≠ dwCsi2PhyTestCtrl0 ∧
      offset ≠ dwCsi2PhyTestCtrl1 ∧ offset ∉ (arCsi2IrqMasks.map fun mask =>
        (mask.1, if true then mask.2 else (0 : BitVec 32))).map Prod.fst := by
    decide
  have distinct : ((ipiWrites dataType).map Prod.fst).Nodup := by
    rw [ipiWrites_offsets]
    decide
  rcases apart write.1 inOffsets with ⟨ctrl0, ctrl1, masks⟩
  rw [configuredCore0, setDeskew_regs_of_ne ctrl0 ctrl1, arCsi2SetIrqMasks,
    writeAll_regs_of_notMem masks, writeAll_regs_of_mem distinct member]

theorem configuredCore0_irq (dataType : Byte) (core : Core) :
    ∀ mask ∈ arCsi2IrqMasks,
      (configuredCore0 reset config dataType core).regs mask.1 = mask.2 := by
  intro mask member
  have apart : ∀ mask ∈ arCsi2IrqMasks,
      mask.1 ≠ dwCsi2PhyTestCtrl0 ∧ mask.1 ≠ dwCsi2PhyTestCtrl1 := by
    decide
  have distinct : ((arCsi2IrqMasks.map fun mask =>
      (mask.1, if true then mask.2 else (0 : BitVec 32))).map Prod.fst).Nodup := by
    decide
  have written : mask ∈ arCsi2IrqMasks.map fun mask =>
      (mask.1, if true then mask.2 else (0 : BitVec 32)) :=
    List.mem_map.mpr ⟨mask, member, rfl⟩
  rcases apart mask member with ⟨ctrl0, ctrl1⟩
  rw [configuredCore0, setDeskew_regs_of_ne ctrl0 ctrl1, arCsi2SetIrqMasks,
    writeAll_regs_of_mem distinct written]

theorem configureLanes_core0 (pair : Pair) :
    (configureLanes reset config pair).core0.regs dwCsi2Resetn = 1 ∧
      (configureLanes reset config pair).core0.regs dwCsi2NLanes = config.laneField := by
  have masks : dwCsi2Resetn ∉ (arCsi2IrqMasks.map fun mask =>
      (mask.1, if false then mask.2 else (0 : BitVec 32))).map Prod.fst ∧
        dwCsi2NLanes ∉ (arCsi2IrqMasks.map fun mask =>
          (mask.1, if false then mask.2 else (0 : BitVec 32))).map Prod.fst := by
    decide
  constructor
  · refine (writeAll_regs_of_notMem masks.1 _).trans ?_
    exact (write_regs_of_ne (by decide) _ _).trans (write_regs_self _ _ _)
  · exact (writeAll_regs_of_notMem masks.2 _).trans (write_regs_self _ _ _)

/-- Whatever the block was left with, a configured link is up on the cores that it uses. -/
theorem configure_linkUp (pair : Pair) :
    LinkUp reset config (arCsi2Configure reset config mipiCsi2DtRaw12 pair) := by
  rcases @configure_wrap reset config mipiCsi2DtRaw12 pair with
    ⟨irqMask, numLanes, scenario, laneMerge⟩
  rcases @configureLanes_core0 reset config pair with ⟨resetn, lanes⟩
  refine ⟨?_, ?_, ?_, scenario, ?_, ⟨?_, numLanes⟩, ?_, irqMask, ?_⟩
  · rw [configure_core0]
    exact configuredCore0_released _ _
  · intro merged
    rw [configure_core1, if_pos merged]
    exact configuredCore1_released _
  · rw [configure_core0, configuredCore0_regs (by decide) (by decide) (by decide)]
    exact resetn
  · intro merged
    refine ⟨?_, laneMerge merged⟩
    rw [configure_core1, if_pos merged, configuredCore1,
      setDeskew_regs_of_ne (by decide) (by decide), setDeskew_regs_of_ne (by decide) (by decide)]
    exact write_regs_self _ _ _
  · rw [configure_core0, configuredCore0_regs (by decide) (by decide) (by decide)]
    exact lanes
  · rw [configure_core0]
    exact configuredCore0_ipi _ _
  · rw [configure_core0]
    exact configuredCore0_irq _ _

/-- A core whose PHY is powered down. -/
structure Stopped (core : Core) : Prop where
  shutdownz : core.regs dwCsi2PhyShutdownz = 0
  rstz : core.regs dwCsi2DphyRstz = 0
  resetn : core.regs dwCsi2Resetn = 0
  ipi : core.regs dwCsi2IpiMode = 0

theorem stop_core0 (pair : Pair) : Stopped (arCsi2Stop reset pair).core0 := by
  have masks : dwCsi2IpiMode ∉ (arCsi2IrqMasks.map fun mask =>
      (mask.1, if false then mask.2 else (0 : BitVec 32))).map Prod.fst := by
    decide
  refine ⟨?_, ?_, write_regs_self _ _ _, ?_⟩
  · exact (write_regs_of_ne (by decide) _ _).trans
      ((write_regs_of_ne (by decide) _ _).trans (write_regs_self _ _ _))
  · exact (write_regs_of_ne (by decide) _ _).trans ((write_regs_of_ne (by decide) _ _).trans
      ((write_regs_of_ne (by decide) _ _).trans (write_regs_self _ _ _)))
  · simp only [arCsi2Stop, arCsi2PhyPowerOffCore]
    rw [write_regs_of_ne (by decide), write_regs_of_ne (by decide), write_regs_of_ne (by decide),
      write_regs_of_ne (by decide)]
    exact (writeAll_regs_of_notMem masks _).trans (write_regs_self _ _ _)

/-- What a search finds in a sorted list comes before all else that it could have found. -/
theorem find?_first {α : Type} {r : α → α → Prop} {p : α → Bool} {list : List α} {found other : α}
    (sorted : list.Pairwise r) (isFound : list.find? p = some found) (member : other ∈ list)
    (holds : p other = true) : found = other ∨ r found other := by
  induction list with
  | nil => cases member
  | cons first rest ih =>
      rcases List.pairwise_cons.mp sorted with ⟨before, sortedRest⟩
      by_cases here : p first = true
      · rw [List.find?_cons_of_pos here, Option.some.injEq] at isFound
        subst isFound
        rcases List.mem_cons.mp member with rfl | later
        · exact .inl rfl
        · exact .inr (before other later)
      · rw [List.find?_cons_of_neg here] at isFound
        rcases List.mem_cons.mp member with rfl | later
        · exact absurd holds here
        · exact ih sortedRest isFound later

/-- The range is the lowest that contains the rate, and rates above 2500 have none. -/
def LowestRange (rateMbps : ℕ) : Option ℕ → Prop
  | some code => ∃ range ∈ phyRanges, range.code = code ∧ range.min ≤ rateMbps ∧
      rateMbps ≤ range.max ∧
        ∀ other ∈ phyRanges, other.min ≤ rateMbps → rateMbps ≤ other.max → code ≤ other.code
  | none => 2500 < rateMbps

theorem phyRangeCode_lowest (rateMbps : ℕ) :
    LowestRange rateMbps (arCsi2PhyRangeCode rateMbps) := by
  rw [arCsi2PhyRangeCode]
  cases found : phyRanges.find? fun range => range.min ≤ rateMbps ∧ rateMbps ≤ range.max with
  | none =>
      have outside := List.find?_eq_none.mp found
      simp [phyRanges] at outside
      simp only [Option.map_none, LowestRange]
      omega
  | some range =>
      have inRange := List.find?_some found
      have member := List.mem_of_find?_eq_some found
      simp only [decide_eq_true_eq] at inRange
      refine ⟨range, member, rfl, inRange.1, inRange.2, ?_⟩
      intro other isRange min max
      have sorted : phyRanges.Pairwise (fun lower upper => lower.code < upper.code) := by decide
      rcases find?_first sorted found isRange (by simp [min, max]) with rfl | above
      · exact Nat.le_refl _
      · exact Nat.le_of_lt above

/-- The register of the frequency range, once the link is up: the parameter, or else the lowest
range of the lane rate, or nothing. -/
theorem linkBank_range :
    (0 ≤ config.phyRange → linkBank reset config 0x00 = BitVec.ofInt 8 config.phyRange) ∧
      (config.phyRange < 0 → 0 ≤ arCsi2PhyLaneRateMbps config →
        ∃ code, LowestRange (arCsi2PhyLaneRateMbps config).toNat code ∧
          linkBank reset config 0x00 = (code.map (BitVec.ofNat 8)).getD 0) := by
  have apart : (0x00 : Byte) ≠ 0x3d ∧ (0x00 : Byte) ≠ 0x45 := by decide
  have held : linkBank reset config 0x00 = (rangeCode config).getD 0 := by
    rw [linkBank, deskewBank, Function.update_of_ne apart.2, Function.update_of_ne apart.1,
      phyBank, phyWrites, settleWrites, phySetup]
    cases rangeCode config <;> split <;> simp +decide [Function.update]
  constructor
  · intro given
    rw [held, rangeCode, if_pos given]
    rfl
  · intro auto known
    refine ⟨_, phyRangeCode_lowest _, ?_⟩
    rw [held, rangeCode, if_neg (Int.not_le.mpr auto), if_neg (Int.not_lt.mpr known)]

/-- Whatever the receiver was left with, a start that succeeds has the link up and both clocks on,
and one that fails has the clocks as they were, with the PHY as it was or powered down; a link that
is not merged does not touch the second core. -/
theorem setStream_linkUp (s : ArCsi2) (env : StreamEnv) :
    let done := arCsi2SetStream reset config s true env
    (done.1 = 0 → LinkUp reset config done.2.pair ∧ done.2.csiClk = s.csiClk + 1 ∧
        done.2.pcsClk = s.pcsClk + 1 ∧
        (0 ≤ config.phyRange →
          linkBank reset config 0x00 = BitVec.ofInt 8 config.phyRange) ∧
        (config.phyRange < 0 → 0 ≤ arCsi2PhyLaneRateMbps config →
          ∃ code, LowestRange (arCsi2PhyLaneRateMbps config).toNat code ∧
            linkBank reset config 0x00 = (code.map (BitVec.ofNat 8)).getD 0)) ∧
      (done.1 ≠ 0 → done.2.csiClk = s.csiClk ∧ done.2.pcsClk = s.pcsClk ∧
        (done.2.pair = s.pair ∨ Stopped done.2.pair.core0)) ∧
        (config.merged = false → done.2.pair.core1 = s.pair.core1) := by
  intro done
  have unused (pair : Pair) (config : Config) (single : config.merged = false) :
      (arCsi2Configure reset config mipiCsi2DtRaw12 pair).core1 = pair.core1 := by
    rw [configure_core1, single]
    rfl
  by_cases bound : config.linkFreq = none
  · simp [done, arCsi2SetStream, bound]
  by_cases csi : env.csiClk = 0
  · by_cases pcs : env.pcsClk = 0
    · by_cases sensor : env.sensor = 0
      · simp only [done, arCsi2SetStream, arCsi2ClksEnable, bound, csi, pcs, sensor, ne_eq,
          not_true_eq_false, if_false, Bool.true_eq_false]
        exact ⟨fun _ => ⟨configure_linkUp s.pair, trivial, trivial, linkBank_range⟩, False.elim,
          unused s.pair config⟩
      · simp only [done, arCsi2SetStream, arCsi2ClksEnable, arCsi2ClksDisable, bound, csi, pcs,
          sensor, ne_eq, not_true_eq_false, not_false_eq_true, if_false, if_true,
          Bool.true_eq_false]
        exact ⟨False.elim, fun _ => ⟨rfl, rfl, .inr (stop_core0 _)⟩, unused s.pair config⟩
    · simp [done, arCsi2SetStream, arCsi2ClksEnable, bound, csi, pcs]
  · simp [done, arCsi2SetStream, arCsi2ClksEnable, bound, csi]

end Link

end MlKernel.Media.Csi2
