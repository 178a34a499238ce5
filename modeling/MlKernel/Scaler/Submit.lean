import MlKernel.Lib.Refinement
import MlKernel.Lib.RegisterBank
import MlKernel.Scaler.Descriptor

/-!
# Submissions to the scaler

A single operation is packed into the live descriptor registers, a batch into a block of memory
that the engine walks.  Both share the mode bit, and in batch mode the engine does not take writes
to the live descriptor.  The clock of the engine is off while the device is suspended.  What the
engine runs at a trigger is what was submitted, whatever ran before.
-/

namespace MlKernel.Scaler

/-! ### The engine -/

abbrev scRegCtrl : ℕ := 0x00
abbrev scRegBatchaddr : ℕ := 0x04
abbrev scRegBatchcfg : ℕ := 0x0c
abbrev scRegIrqen : ℕ := 0x10
abbrev scRegStatus : ℕ := 0x14
abbrev scRegTrigger : ℕ := 0x18
abbrev scRegConf : ℕ := 0x28
abbrev scRegBurst : ℕ := 0x40
abbrev scRegLutaddr : ℕ := 0x70

abbrev scDescBase : ℕ := 0x1c
abbrev scDescStride : ℕ := 0x100

abbrev ctrlClkGate : ℕ := 0x6010
abbrev ctrlClkMagic : ℕ := 0x6200
abbrev ctrlClkCfg : ℕ := 0x6204
abbrev ctrlFreqDiv : ℕ := 0x405c

def ctrlClkGateBits : BitVec 32 := 0x1900

def scalerBatchBufSize : ℕ := 0xff00

def scalerBatchMax : ℕ := 255

/-- The registers of the core and of the clock control at their offsets, and the words of memory at
their bus addresses. -/
structure ScalerHw where
  regs : ℕ → BitVec 32
  control : ℕ → BitVec 32
  mem : ℕ → BitVec 32

namespace ScalerHw

def batchMode (hw : ScalerHw) : Bool := (hw.regs scRegCtrl).getLsbD 0

/-- A write to the core.  The status is cleared by what is written, and in batch mode the engine
ignores the live descriptor. -/
def writel (hw : ScalerHw) (offset : ℕ) (value : BitVec 32) : ScalerHw :=
  if offset = scRegStatus then
    { hw with regs := Function.update hw.regs offset (hw.regs offset &&& ~~~value) }
  else if scDescBase ≤ offset ∧ hw.batchMode then hw
  else { hw with regs := Function.update hw.regs offset value }

def writeControl (hw : ScalerHw) (offset : ℕ) (value : BitVec 32) : ScalerHw :=
  { hw with control := Function.update hw.control offset value }

def clocked (hw : ScalerHw) : Bool := hw.control ctrlClkGate &&& ctrlClkGateBits = ctrlClkGateBits

/-- The live descriptor, word by word. -/
def live (hw : ScalerHw) : ℕ → BitVec 32 := fun word => hw.regs (scDescBase + 4 * word)

/-- The `i`-th image of the block that the batch address points at. -/
def staged (hw : ScalerHw) (i : ℕ) : ℕ → BitVec 32 := fun word =>
  hw.mem ((hw.regs scRegBatchaddr).toNat + i * scDescStride + 4 * word)

end ScalerHw

/-- The offsets of the words that a descriptor has. -/
def descriptorOffsets : List ℕ :=
  [sdSrcphy, sdSrcstr, sdSrcdim, sdConf, sdCropxy, sdCropdim, sdBurst, sdDstdim, sdHratio,
   sdHdeltaHi, sdHdeltaLo, sdVratio, sdVdeltaHi, sdVdeltaLo, sdDstphy, sdDststr, sdLutphy]

def descriptorWords (image : ℕ → BitVec 32) : List (BitVec 32) :=
  descriptorOffsets.map (load image)

/-- The descriptors that a write to `TRIGGER` makes the engine run. -/
def ScalerHw.trigger (hw : ScalerHw) : List (List (BitVec 32)) :=
  if hw.clocked = false then []
  else if hw.batchMode then
    (List.range ((hw.regs scRegBatchcfg) >>> 16).toNat).map fun i => descriptorWords (hw.staged i)
  else [descriptorWords hw.live]

/-! ### The driver -/

/-- The buffers of the driver, which the engine takes 32-bit addresses for. -/
structure ScalerBufs where
  lutPhys : BitVec 32
  batchPhys : BitVec 32

structure ScalerState where
  hw : ScalerHw
  frequency : BitVec 32
  suspended : Bool
  dead : Bool

def scalerFreqToDiv (freq : BitVec 32) : BitVec 32 :=
  if (599 : BitVec 32) < freq then 0x1400
  else if (499 : BitVec 32) < freq then 0x1100
  else if (399 : BitVec 32) < freq then 0x1200
  else if (332 : BitVec 32) < freq then 0x1300
  else if (299 : BitVec 32) < freq then 0x1401
  else if (199 : BitVec 32) < freq then 0x1402
  else if (149 : BitVec 32) < freq then 0x1403
  else if (99 : BitVec 32) < freq then 0x1405
  else 0x1207

def arScalerSetFreqDiv (hw : ScalerHw) (freq : BitVec 32) : ScalerHw :=
  hw.writeControl ctrlFreqDiv
    ((hw.control ctrlFreqDiv &&& (0xffff0000 : BitVec 32)) ||| scalerFreqToDiv freq)

def arScalerPoweroff (hw : ScalerHw) : ScalerHw :=
  hw.writeControl ctrlClkGate (hw.control ctrlClkGate &&& ~~~ctrlClkGateBits)

/-- The clock bring-up of `ar_scaler_hw_init`. -/
def hwInitClock (hw : ScalerHw) (frequency : BitVec 32) : ScalerHw :=
  let hw := if frequency ≠ 0 then arScalerSetFreqDiv hw frequency else hw
  let hw := arScalerPoweroff hw
  let cfg := hw.control ctrlClkCfg &&& ~~~(0x00080000 : BitVec 32)
  let hw := hw.writeControl ctrlClkMagic 0x00ACCE55
  let hw := hw.writeControl ctrlClkCfg (cfg ||| (0x00000808 : BitVec 32))
  hw.writeControl ctrlClkGate (hw.control ctrlClkGate ||| ctrlClkGateBits)

/-- The registers that `ar_scaler_hw_init` seeds. -/
def hwInitCore (hw : ScalerHw) (lutPhys : BitVec 32) : ScalerHw :=
  let hw := hw.writel scRegCtrl (hw.regs scRegCtrl &&& ~~~(1 : BitVec 32))
  let hw := hw.writel scRegConf 0x1040d
  let v := hw.regs scRegConf ||| (0x4 : BitVec 32) ||| (0x8 : BitVec 32)
  let hw := hw.writel scRegConf (v &&& ~~~(0x2 : BitVec 32) &&& ~~~(0x60 : BitVec 32))
  let hw := hw.writel scRegBurst ((hw.regs scRegBurst &&& ~~~(0xff : BitVec 32)) ||| 0x4)
  let hw := hw.writel scRegBurst ((hw.regs scRegBurst &&& ~~~(0x7f00 : BitVec 32)) ||| 0x7800)
  let hw := hw.writel scRegLutaddr lutPhys
  let hw := hw.writel scRegIrqen 0
  let hw := hw.writel scRegIrqen (hw.regs scRegIrqen ||| (0x80000000 : BitVec 32))
  hw.writel scRegConf (hw.regs scRegConf ||| (0x8 : BitVec 32))

def arScalerHwInit (hw : ScalerHw) (frequency lutPhys : BitVec 32) : ScalerHw :=
  hwInitCore (hwInitClock hw frequency) lutPhys

def arScalerTimeoutReset (bufs : ScalerBufs) (s : ScalerState) : ScalerState :=
  let hw := s.hw.writel scRegIrqen 0
  let hw := arScalerHwInit hw s.frequency bufs.lutPhys
  let hw := hw.writel scRegIrqen 0
  let hw := hw.writel scRegStatus (hw.regs scRegStatus)
  { s with hw := hw.writel scRegIrqen 0x80000000 }

/-- The writes of `scaler_set_batch_registers`. -/
def scalerSetBatchRegisters (bufs : ScalerBufs) (hw : ScalerHw) (op : ArScalerOp) : ScalerHw :=
  let img := scalerBuildImage op bufs.lutPhys
  descriptorOffsets.foldl (fun hw offset => hw.writel (scDescBase + offset) (load img offset)) hw

/-- What a submission returns, and what it made the engine run. -/
structure ScalerAnswer where
  ret : ℤ
  ran : List (List (BitVec 32))
  deriving DecidableEq

/-- Whether a signal comes before the lock, and whether the wait runs out. -/
structure SubmitEnv where
  interrupted : Bool
  timedOut : Bool

def eintr : ℕ := 4

def eagain : ℕ := 11

def enodev : ℕ := 19

def etimedout : ℕ := 110

/-- The trigger and the wait, with the lock held. -/
def launch (bufs : ScalerBufs) (s : ScalerState) (hw : ScalerHw) (env : SubmitEnv) :
    ScalerAnswer × ScalerState :=
  let ran := hw.trigger
  let s := { s with hw := hw.writel scRegTrigger 1 }
  if env.timedOut then (⟨-etimedout, ran⟩, arScalerTimeoutReset bufs s)
  else (⟨0, ran⟩, s)

/-- Single mode, which is selected before the live descriptor is packed. -/
def selectSingle (hw : ScalerHw) : ScalerHw :=
  hw.writel scRegCtrl (hw.regs scRegCtrl &&& ~~~(1 : BitVec 32))

def arScalerRun (bufs : ScalerBufs) (s : ScalerState) (op : ArScalerOp) (env : SubmitEnv) :
    ScalerAnswer × ScalerState :=
  if env.interrupted then (⟨-eintr, []⟩, s)
  else if s.suspended ∨ s.dead then (⟨if s.dead then -enodev else -eagain, []⟩, s)
  else if arScalerValidate op = false then (⟨-einval, []⟩, s)
  else launch bufs s (scalerSetBatchRegisters bufs (selectSingle s.hw) op) env

/-- `scaler_build_image` into the zeroed block. -/
def stageImage (bufs : ScalerBufs) (mem : ℕ → BitVec 32) (i : ℕ) (op : ArScalerOp) :
    ℕ → BitVec 32 :=
  let img := scalerBuildImage op bufs.lutPhys
  descriptorOffsets.foldl (fun mem offset =>
    Function.update mem (bufs.batchPhys.toNat + i * scDescStride + offset) (load img offset)) mem

/-- The block zeroed. -/
def clearBatch (bufs : ScalerBufs) (mem : ℕ → BitVec 32) : ℕ → BitVec 32 := fun addr =>
  let base := bufs.batchPhys.toNat
  if base ≤ addr ∧ addr < base + scalerBatchBufSize then 0 else mem addr

/-- The block as `ar_scaler_run_batch` leaves it. -/
def stageBatch (bufs : ScalerBufs) (mem : ℕ → BitVec 32) (ops : ℕ → ArScalerOp) (count : ℕ) :
    ℕ → BitVec 32 :=
  (List.range count).foldl (fun mem i => stageImage bufs mem i (ops i)) (clearBatch bufs mem)

/-- The mode, the address and the count, in the order `ar_scaler_run_batch` writes them. -/
def selectBatch (bufs : ScalerBufs) (hw : ScalerHw) (count : BitVec 32) : ScalerHw :=
  let hw := hw.writel scRegCtrl (hw.regs scRegCtrl ||| (1 : BitVec 32))
  let hw := hw.writel scRegBatchaddr bufs.batchPhys
  let cfg := (hw.regs scRegBatchcfg &&& (0xffff : BitVec 32)) ||| (count <<< 16)
  hw.writel scRegBatchcfg cfg

def arScalerRunBatch (bufs : ScalerBufs) (s : ScalerState) (ops : ℕ → ArScalerOp)
    (count : BitVec 32) (env : SubmitEnv) : ScalerAnswer × ScalerState :=
  if count = 0 ∨ scalerBatchMax < count.toNat then (⟨-einval, []⟩, s)
  else if (List.range count.toNat).all (fun i => arScalerValidate (ops i)) = false then
    (⟨-einval, []⟩, s)
  else if env.interrupted then (⟨-eintr, []⟩, s)
  else if s.suspended ∨ s.dead then (⟨if s.dead then -enodev else -eagain, []⟩, s)
  else
    let hw := { s.hw with mem := stageBatch bufs s.hw.mem ops count.toNat }
    launch bufs s (selectBatch bufs hw count) env

def arScalerSetFrequency (s : ScalerState) (freq : BitVec 32) : ScalerAnswer × ScalerState :=
  if s.dead then (⟨-enodev, []⟩, s)
  else
    (⟨0, []⟩, { s with
      frequency := freq
      hw := if freq ≠ 0 then arScalerSetFreqDiv s.hw freq else s.hw })

/-- The state that the probe leaves, of registers that held anything. -/
def scalerProbed (bufs : ScalerBufs) (hw : ScalerHw) (frequency : BitVec 32) : ScalerState where
  hw := arScalerHwInit hw frequency bufs.lutPhys
  frequency := frequency
  suspended := false
  dead := false

inductive ScalerCall
  | single (op : ArScalerOp) (env : SubmitEnv)
  | batch (ops : ℕ → ArScalerOp) (count : BitVec 32) (env : SubmitEnv)
  | setFrequency (freq : BitVec 32)
  | suspend
  | resume
  | remove

def scalerCall (bufs : ScalerBufs) (s : ScalerState) : ScalerCall → ScalerAnswer × ScalerState
  | .single op env => arScalerRun bufs s op env
  | .batch ops count env => arScalerRunBatch bufs s ops count env
  | .setFrequency freq => arScalerSetFrequency s freq
  | .suspend => (⟨0, []⟩, { s with hw := arScalerPoweroff s.hw, suspended := true })
  | .resume =>
      (⟨0, []⟩, { s with hw := arScalerHwInit s.hw s.frequency bufs.lutPhys, suspended := false })
  | .remove => (⟨0, []⟩, { s with hw := arScalerPoweroff s.hw, dead := true })

/-! ### What a submission is for -/

/-- The service: it runs what is submitted unless it is away. -/
structure ScalerService where
  suspended : Bool
  dead : Bool

/-- A submission that passed its checks. -/
def ScalerService.accept (service : ScalerService) (env : SubmitEnv)
    (images : List (List (BitVec 32))) : ScalerAnswer :=
  if env.interrupted then ⟨-eintr, []⟩
  else if service.dead then ⟨-enodev, []⟩
  else if service.suspended then ⟨-eagain, []⟩
  else ⟨if env.timedOut then -etimedout else 0, images⟩

def ScalerService.call (bufs : ScalerBufs) (service : ScalerService) :
    ScalerCall → ScalerAnswer × ScalerService
  | .single op env =>
      let images := [descriptorWords (scalerBuildImage op bufs.lutPhys)]
      (if arScalerValidate op then service.accept env images
        else if env.interrupted ∨ service.dead ∨ service.suspended then service.accept env []
        else ⟨-einval, []⟩, service)
  | .batch ops count env =>
      let images := (List.range count.toNat).map fun i =>
        descriptorWords (scalerBuildImage (ops i) bufs.lutPhys)
      (if 0 < count.toNat ∧ count.toNat ≤ scalerBatchMax ∧
            ∀ i < count.toNat, arScalerValidate (ops i) = true then service.accept env images
        else ⟨-einval, []⟩, service)
  | .setFrequency _ => (⟨if service.dead then -enodev else 0, []⟩, service)
  | .suspend => (⟨0, []⟩, { service with suspended := true })
  | .resume => (⟨0, []⟩, { service with suspended := false })
  | .remove => (⟨0, []⟩, { service with dead := true })

/-- While the device is there and awake its clock runs, and its interrupt is enabled. -/
structure ScalerServes (s : ScalerState) (service : ScalerService) : Prop where
  suspended : s.suspended = service.suspended
  dead : s.dead = service.dead
  clocked : s.suspended = false → s.dead = false → s.hw.clocked = true
  irqEnabled : s.hw.regs scRegIrqen = 0x80000000

/-! ### Writes -/

section Writes

variable {hw : ScalerHw} {offset other : ℕ} {value : BitVec 32}

theorem writel_control (hw : ScalerHw) (offset : ℕ) (value : BitVec 32) :
    (hw.writel offset value).control = hw.control := by
  unfold ScalerHw.writel
  split
  · rfl
  · split <;> rfl

theorem writel_mem (hw : ScalerHw) (offset : ℕ) (value : BitVec 32) :
    (hw.writel offset value).mem = hw.mem := by
  unfold ScalerHw.writel
  split
  · rfl
  · split <;> rfl

theorem writel_clocked (hw : ScalerHw) (offset : ℕ) (value : BitVec 32) :
    (hw.writel offset value).clocked = hw.clocked := by
  rw [ScalerHw.clocked, writel_control, ScalerHw.clocked]

theorem writel_regs_of_ne (apart : other ≠ offset) (value : BitVec 32) :
    (hw.writel offset value).regs other = hw.regs other := by
  unfold ScalerHw.writel
  split
  · exact Function.update_of_ne apart _ _
  · split
    · rfl
    · exact Function.update_of_ne apart _ _

/-- Registers below the descriptor take what is written, in both modes. -/
theorem writel_regs_self (low : offset < scDescBase) (plain : offset ≠ scRegStatus)
    (value : BitVec 32) : (hw.writel offset value).regs offset = value := by
  unfold ScalerHw.writel
  rw [if_neg plain, if_neg (by omega)]
  exact Function.update_self ..

/-- The live descriptor takes what is written in single mode. -/
theorem writel_live (high : scDescBase ≤ offset) (single : hw.batchMode = false)
    (value : BitVec 32) :
    hw.writel offset value = { hw with regs := Function.update hw.regs offset value } := by
  have plain : offset ≠ scRegStatus := by
    rintro rfl
    exact absurd high (by decide)
  unfold ScalerHw.writel
  rw [if_neg plain, if_neg (by simp [single])]

theorem clocked_writeControl (apart : offset ≠ ctrlClkGate) (value : BitVec 32) :
    (hw.writeControl offset value).clocked = hw.clocked := by
  simp [ScalerHw.clocked, ScalerHw.writeControl, Function.update_of_ne (Ne.symm apart)]

theorem clocked_setFreqDiv (hw : ScalerHw) (freq : BitVec 32) :
    (arScalerSetFreqDiv hw freq).clocked = hw.clocked :=
  clocked_writeControl (by decide) _

theorem clocked_hwInitClock (hw : ScalerHw) (frequency : BitVec 32) :
    (hwInitClock hw frequency).clocked = true := by
  have set (word : BitVec 32) :
      (word ||| ctrlClkGateBits) &&& ctrlClkGateBits = ctrlClkGateBits := by
    ext i
    simp only [BitVec.getElem_and, BitVec.getElem_or]
    cases ctrlClkGateBits[i] <;> simp
  simp [hwInitClock, ScalerHw.clocked, ScalerHw.writeControl, set]

theorem clocked_hwInitCore (hw : ScalerHw) (lutPhys : BitVec 32) :
    (hwInitCore hw lutPhys).clocked = hw.clocked := by
  simp only [hwInitCore, writel_clocked]

theorem irqEnabled_hwInitCore (hw : ScalerHw) (lutPhys : BitVec 32) :
    (hwInitCore hw lutPhys).regs scRegIrqen = 0x80000000 := by
  unfold hwInitCore
  rw [writel_regs_of_ne (by decide), writel_regs_self (by decide) (by decide),
    writel_regs_self (by decide) (by decide)]
  rfl

theorem clocked_hwInit (hw : ScalerHw) (frequency lutPhys : BitVec 32) :
    (arScalerHwInit hw frequency lutPhys).clocked = true := by
  rw [arScalerHwInit, clocked_hwInitCore, clocked_hwInitClock]

theorem irqEnabled_hwInit (hw : ScalerHw) (frequency lutPhys : BitVec 32) :
    (arScalerHwInit hw frequency lutPhys).regs scRegIrqen = 0x80000000 :=
  irqEnabled_hwInitCore _ _

theorem timeoutReset_serves (bufs : ScalerBufs) (s : ScalerState) :
    (arScalerTimeoutReset bufs s).hw.clocked = true ∧
      (arScalerTimeoutReset bufs s).hw.regs scRegIrqen = 0x80000000 := by
  constructor
  · simp only [arScalerTimeoutReset, writel_clocked]
    exact clocked_hwInit _ _ _
  · simp only [arScalerTimeoutReset]
    exact writel_regs_self (by decide) (by decide) _

end Writes

/-! ### What the engine finds -/

section Engine

variable {bufs : ScalerBufs} {hw : ScalerHw}

theorem descriptorOffsets_distinct : descriptorOffsets.Nodup := by decide

theorem descriptorOffsets_lt : ∀ offset ∈ descriptorOffsets, offset < scDescStride := by decide

theorem descriptorOffsets_word : ∀ offset ∈ descriptorOffsets, 4 * (offset / 4) = offset := by
  decide

/-- The stores of one image at a base. -/
def imageStores (base : ℕ) (img : ℕ → BitVec 32) : List (RegisterWrite ℕ (BitVec 32)) :=
  descriptorOffsets.map fun offset => { addr := base + offset, put := fun _ => load img offset }

theorem imageStores_addr (base : ℕ) (img : ℕ → BitVec 32) :
    (imageStores base img).map RegisterWrite.addr = descriptorOffsets.map (base + ·) := by
  rw [imageStores, List.map_map]
  rfl

theorem imageStores_distinct (base : ℕ) (img : ℕ → BitVec 32) :
    ((imageStores base img).map RegisterWrite.addr).Nodup := by
  rw [imageStores_addr]
  exact descriptorOffsets_distinct.map fun _ _ => Nat.add_left_cancel

/-- The writes of single mode. -/
theorem scalerSetBatchRegisters_eq (op : ArScalerOp) (single : hw.batchMode = false) :
    scalerSetBatchRegisters bufs hw op = { hw with
      regs := RegisterWrite.storeAll
        (imageStores scDescBase (scalerBuildImage op bufs.lutPhys)) hw.regs } := by
  have each : ∀ (offsets : List ℕ) (img : ℕ → BitVec 32) (hw : ScalerHw), hw.batchMode = false →
      offsets.foldl (fun hw offset => hw.writel (scDescBase + offset) (load img offset)) hw =
        { hw with regs := RegisterWrite.storeAll (offsets.map fun offset =>
          { addr := scDescBase + offset, put := fun _ => load img offset }) hw.regs } := by
    intro offsets img
    induction offsets with
    | nil => exact fun _ _ => rfl
    | cons offset offsets ih =>
        intro hw single
        have written := writel_live (Nat.le_add_right scDescBase offset) single (load img offset)
        have below : scRegCtrl < scDescBase + offset :=
          Nat.lt_of_lt_of_le (by decide) (Nat.le_add_right scDescBase offset)
        have stillSingle :
            (hw.writel (scDescBase + offset) (load img offset)).batchMode = false := by
          rw [ScalerHw.batchMode, writel_regs_of_ne below.ne]
          exact single
        rw [List.foldl_cons, ih _ stillSingle, written]
        rfl
  exact each descriptorOffsets _ hw single

/-- What a reader of a descriptor finds where its image was stored. -/
theorem words_of_stored {base : ℕ} {img : ℕ → BitVec 32} {memory : ℕ → BitVec 32}
    (stored : ∀ offset ∈ descriptorOffsets, memory (base + offset) = load img offset) :
    descriptorWords (fun word => memory (base + 4 * word)) = descriptorWords img := by
  apply List.map_congr_left
  intro offset member
  simp only [load, descriptorOffsets_word offset member]
  exact stored offset member

/-- Packing leaves what is below the live descriptor. -/
theorem packed_below (op : ArScalerOp) (single : hw.batchMode = false) {offset : ℕ}
    (below : offset < scDescBase) :
    (scalerSetBatchRegisters bufs hw op).regs offset = hw.regs offset := by
  rw [scalerSetBatchRegisters_eq op single]
  apply RegisterWrite.storeAll_of_untouched
  intro write member
  rcases List.mem_map.mp member with ⟨at', -, rfl⟩
  exact (Nat.lt_of_lt_of_le below (Nat.le_add_right scDescBase at')).ne'

theorem packed_clocked (op : ArScalerOp) (single : hw.batchMode = false) :
    (scalerSetBatchRegisters bufs hw op).clocked = hw.clocked := by
  rw [scalerSetBatchRegisters_eq op single]
  rfl

theorem trigger_packed (op : ArScalerOp) (single : hw.batchMode = false)
    (clocked : hw.clocked = true) :
    (scalerSetBatchRegisters bufs hw op).trigger =
      [descriptorWords (scalerBuildImage op bufs.lutPhys)] := by
  have mode : (scalerSetBatchRegisters bufs hw op).batchMode = false := by
    rw [ScalerHw.batchMode, packed_below op single (by decide)]
    exact single
  have words : descriptorWords (scalerSetBatchRegisters bufs hw op).live =
      descriptorWords (scalerBuildImage op bufs.lutPhys) := by
    apply words_of_stored
    intro offset member
    rw [scalerSetBatchRegisters_eq op single]
    exact RegisterWrite.storeAll_of_mem (imageStores_distinct _ _) (List.mem_map_of_mem member)
      hw.regs
  simp [ScalerHw.trigger, packed_clocked op single, clocked, mode, words]

theorem selectSingle_batchMode (hw : ScalerHw) : (selectSingle hw).batchMode = false := by
  rw [ScalerHw.batchMode, selectSingle, writel_regs_self (by decide) (by decide)]
  simp

/-- A batch staged is the stores of its images. -/
theorem stageBatch_eq (mem : ℕ → BitVec 32) (ops : ℕ → ArScalerOp) (count : ℕ) :
    stageBatch bufs mem ops count = RegisterWrite.storeAll
      ((List.range count).flatMap fun i => imageStores (bufs.batchPhys.toNat + i * scDescStride)
        (scalerBuildImage (ops i) bufs.lutPhys)) (clearBatch bufs mem) := by
  unfold stageBatch RegisterWrite.storeAll
  rw [List.foldl_flatMap]
  rfl

/-- Images of different operations do not overlap. -/
theorem staged_distinct (base : ℕ) (img : ℕ → ℕ → BitVec 32) (count : ℕ) :
    (((List.range count).flatMap fun i => imageStores (base + i * scDescStride) (img i)).map
      RegisterWrite.addr).Nodup := by
  rw [List.map_flatMap, List.nodup_flatMap]
  constructor
  · intro i _
    exact imageStores_distinct _ _
  · apply List.nodup_range.imp
    intro i j apart addr memberI memberJ
    simp only [imageStores_addr] at memberI memberJ
    rcases List.mem_map.mp memberI with ⟨offset, memberOffset, rfl⟩
    rcases List.mem_map.mp memberJ with ⟨other, memberOther, same⟩
    have inside := descriptorOffsets_lt offset memberOffset
    have insideToo := descriptorOffsets_lt other memberOther
    apply apart
    dsimp only [scDescStride] at *
    omega

theorem staged_stored (mem : ℕ → BitVec 32) (ops : ℕ → ArScalerOp) {count i : ℕ}
    (inside : i < count) {offset : ℕ} (member : offset ∈ descriptorOffsets) :
    stageBatch bufs mem ops count (bufs.batchPhys.toNat + i * scDescStride + offset) =
      load (scalerBuildImage (ops i) bufs.lutPhys) offset := by
  have distinct := staged_distinct bufs.batchPhys.toNat
    (fun i => scalerBuildImage (ops i) bufs.lutPhys) count
  have listed : { addr := bufs.batchPhys.toNat + i * scDescStride + offset
                  put := fun _ => load (scalerBuildImage (ops i) bufs.lutPhys) offset } ∈
      (List.range count).flatMap fun i => imageStores (bufs.batchPhys.toNat + i * scDescStride)
        (scalerBuildImage (ops i) bufs.lutPhys) :=
    List.mem_flatMap.mpr ⟨i, List.mem_range.mpr inside, List.mem_map.mpr ⟨offset, member, rfl⟩⟩
  rw [stageBatch_eq]
  exact RegisterWrite.storeAll_of_mem distinct listed _

theorem selectBatch_regs (hw : ScalerHw) (count : BitVec 32) :
    (selectBatch bufs hw count).batchMode = true ∧
      (selectBatch bufs hw count).regs scRegBatchaddr = bufs.batchPhys ∧
      (selectBatch bufs hw count).regs scRegBatchcfg =
        (hw.regs scRegBatchcfg &&& (0xffff : BitVec 32)) ||| (count <<< 16) := by
  refine ⟨?_, ?_, ?_⟩
  · rw [ScalerHw.batchMode, selectBatch, writel_regs_of_ne (by decide),
      writel_regs_of_ne (by decide), writel_regs_self (by decide) (by decide)]
    simp
  · rw [selectBatch, writel_regs_of_ne (by decide), writel_regs_self (by decide) (by decide)]
  · rw [selectBatch, writel_regs_self (by decide) (by decide), writel_regs_of_ne (by decide),
      writel_regs_of_ne (by decide)]

theorem selectBatch_mem (hw : ScalerHw) (count : BitVec 32) :
    (selectBatch bufs hw count).mem = hw.mem := by
  simp only [selectBatch, writel_mem]

theorem selectBatch_clocked (hw : ScalerHw) (count : BitVec 32) :
    (selectBatch bufs hw count).clocked = hw.clocked := by
  simp only [selectBatch, writel_clocked]

/-- The count that the engine reads back. -/
theorem batchcfg_count (old : BitVec 32) {count : BitVec 32} (few : count.toNat ≤ scalerBatchMax) :
    (((old &&& (0xffff : BitVec 32)) ||| (count <<< 16)) >>> 16).toNat = count.toNat := by
  have small : count.toNat < 2 ^ 16 := Nat.lt_of_le_of_lt few (by decide)
  have low : (old &&& (0xffff : BitVec 32)).toNat < 2 ^ 16 := by
    rw [BitVec.toNat_and]
    exact Nat.lt_of_le_of_lt Nat.and_le_right (by decide)
  have shifted : (count <<< 16).toNat = count.toNat * 2 ^ 16 := by
    rw [BitVec.toNat_shiftLeft, Nat.shiftLeft_eq, Nat.mod_eq_of_lt (by omega)]
  rw [BitVec.toNat_ushiftRight, BitVec.toNat_or, shifted, Nat.or_comm, Nat.mul_comm,
    ← Nat.two_pow_add_eq_or_of_lt low, Nat.shiftRight_eq_div_pow]
  omega

/-- The mode, the address and the count are written before the trigger, so that the engine walks
the block of the batch. -/
theorem trigger_batch (ops : ℕ → ArScalerOp) {count : BitVec 32} (clocked : hw.clocked = true)
    (few : count.toNat ≤ scalerBatchMax) :
    (selectBatch bufs { hw with mem := stageBatch bufs hw.mem ops count.toNat } count).trigger =
      (List.range count.toNat).map fun i =>
        descriptorWords (scalerBuildImage (ops i) bufs.lutPhys) := by
  rcases selectBatch_regs { hw with mem := stageBatch bufs hw.mem ops count.toNat } count with
    ⟨mode, addr, cfg⟩
  have stillClocked := @selectBatch_clocked bufs
    { hw with mem := stageBatch bufs hw.mem ops count.toNat } count
  have runs :
      ({ hw with mem := stageBatch bufs hw.mem ops count.toNat } : ScalerHw).clocked = true :=
    clocked
  rw [ScalerHw.trigger, stillClocked, runs, mode, cfg, batchcfg_count _ few,
    if_neg Bool.true_eq_false_eq_False, if_pos rfl]
  apply List.map_congr_left
  intro i member
  apply words_of_stored
  intro offset memberOffset
  rw [addr, selectBatch_mem]
  exact staged_stored hw.mem ops (List.mem_range.mp member) memberOffset

end Engine

/-! ### Each call -/

section Calls

variable {bufs : ScalerBufs} {s : ScalerState} {service : ScalerService} {hw : ScalerHw}

theorem ScalerServes.launched (serves : ScalerServes s service) {env : SubmitEnv}
    {images : List (List (BitVec 32))} (runs : hw.trigger = images) (clocked : hw.clocked = true)
    (irqEnabled : hw.regs scRegIrqen = 0x80000000) :
    (launch bufs s hw env).1 = ⟨if env.timedOut then -etimedout else 0, images⟩ ∧
      ScalerServes (launch bufs s hw env).2 service := by
  unfold launch
  split
  · rcases timeoutReset_serves bufs { s with hw := hw.writel scRegTrigger 1 } with
      ⟨stillClocked, stillEnabled⟩
    exact ⟨by rw [runs], serves.suspended, serves.dead, fun _ _ => stillClocked, stillEnabled⟩
  · refine ⟨by rw [runs], serves.suspended, serves.dead, fun _ _ => ?_, ?_⟩
    · exact (writel_clocked hw scRegTrigger 1).trans clocked
    · exact (writel_regs_of_ne (show scRegIrqen ≠ scRegTrigger by decide) _).trans irqEnabled

/-- The trigger of a single operation that passed its checks. -/
theorem ScalerServes.launch_single (serves : ScalerServes s service) (awake : s.suspended = false)
    (present : s.dead = false) (bufs : ScalerBufs) (op : ArScalerOp) (env : SubmitEnv) :
    (launch bufs s (scalerSetBatchRegisters bufs (selectSingle s.hw) op) env).1 =
        ⟨if env.timedOut then -etimedout else 0,
          [descriptorWords (scalerBuildImage op bufs.lutPhys)]⟩ ∧
      ScalerServes (launch bufs s (scalerSetBatchRegisters bufs (selectSingle s.hw) op) env).2
        service := by
  have single := selectSingle_batchMode s.hw
  have clocked : (selectSingle s.hw).clocked = true :=
    (writel_clocked s.hw scRegCtrl _).trans (serves.clocked awake present)
  have irqEnabled : (scalerSetBatchRegisters bufs (selectSingle s.hw) op).regs scRegIrqen =
      0x80000000 := by
    rw [packed_below op single (by decide), selectSingle, writel_regs_of_ne (by decide)]
    exact serves.irqEnabled
  exact serves.launched (trigger_packed op single clocked)
    ((packed_clocked op single).trans clocked) irqEnabled

theorem ScalerServes.launch_batch (serves : ScalerServes s service) (awake : s.suspended = false)
    (present : s.dead = false) (bufs : ScalerBufs) (ops : ℕ → ArScalerOp) {count : BitVec 32}
    (few : count.toNat ≤ scalerBatchMax) (env : SubmitEnv) :
    let staged := { s.hw with mem := stageBatch bufs s.hw.mem ops count.toNat }
    (launch bufs s (selectBatch bufs staged count) env).1 =
        ⟨if env.timedOut then -etimedout else 0,
          (List.range count.toNat).map fun i =>
            descriptorWords (scalerBuildImage (ops i) bufs.lutPhys)⟩ ∧
      ScalerServes (launch bufs s (selectBatch bufs staged count) env).2 service := by
  intro staged
  have clocked := serves.clocked awake present
  have irqEnabled : (selectBatch bufs staged count).regs scRegIrqen = 0x80000000 := by
    rw [selectBatch, writel_regs_of_ne (by decide), writel_regs_of_ne (by decide),
      writel_regs_of_ne (by decide)]
    exact serves.irqEnabled
  exact serves.launched (trigger_batch ops clocked few) ((selectBatch_clocked _ _).trans clocked)
    irqEnabled

theorem ScalerServes.single (serves : ScalerServes s service) (op : ArScalerOp) (env : SubmitEnv) :
    (arScalerRun bufs s op env).1 = (service.call bufs (.single op env)).1 ∧
      ScalerServes (arScalerRun bufs s op env).2 service := by
  have suspended := serves.suspended
  have dead := serves.dead
  cases interrupted : env.interrupted
  · cases gone : service.dead
    · cases asleep : service.suspended
      · cases valid : arScalerValidate op
        · simpa [arScalerRun, ScalerService.call, ScalerService.accept, interrupted, suspended,
            dead, gone, asleep, valid] using serves
        · have launched :=
            serves.launch_single (suspended.trans asleep) (dead.trans gone) bufs op env
          simpa [arScalerRun, ScalerService.call, ScalerService.accept, interrupted, suspended,
            dead, gone, asleep, valid] using launched
      · cases valid : arScalerValidate op <;>
          simpa [arScalerRun, ScalerService.call, ScalerService.accept, interrupted, suspended,
            dead, gone, asleep, valid] using serves
    · cases valid : arScalerValidate op <;>
        simpa [arScalerRun, ScalerService.call, ScalerService.accept, interrupted, dead, gone,
          valid] using serves
  · cases valid : arScalerValidate op <;>
      simpa [arScalerRun, ScalerService.call, ScalerService.accept, interrupted, valid] using serves

/-- The check of the count and of every operation. -/
theorem batch_checked {ops : ℕ → ArScalerOp} {count : BitVec 32} :
    (¬(count = 0 ∨ scalerBatchMax < count.toNat) ∧
        (List.range count.toNat).all (fun i => arScalerValidate (ops i)) = true) ↔
      0 < count.toNat ∧ count.toNat ≤ scalerBatchMax ∧
        ∀ i < count.toNat, arScalerValidate (ops i) = true := by
  have zero : count = 0 ↔ count.toNat = 0 := by
    constructor
    · rintro rfl
      rfl
    · exact fun none => BitVec.eq_of_toNat_eq none
  rw [zero, not_or, Nat.not_lt, and_assoc]
  simp only [List.all_eq_true, List.mem_range, Nat.pos_iff_ne_zero, ne_eq]

theorem ScalerServes.batch (serves : ScalerServes s service) (ops : ℕ → ArScalerOp)
    (count : BitVec 32) (env : SubmitEnv) :
    (arScalerRunBatch bufs s ops count env).1 = (service.call bufs (.batch ops count env)).1 ∧
      ScalerServes (arScalerRunBatch bufs s ops count env).2 service := by
  have suspended := serves.suspended
  have dead := serves.dead
  by_cases accepted : 0 < count.toNat ∧ count.toNat ≤ scalerBatchMax ∧
      ∀ i < count.toNat, arScalerValidate (ops i) = true
  · rcases batch_checked.mpr accepted with ⟨counted, checked⟩
    have answered : (service.call bufs (.batch ops count env)).1 = service.accept env
        ((List.range count.toNat).map fun i =>
          descriptorWords (scalerBuildImage (ops i) bufs.lutPhys)) :=
      if_pos accepted
    rw [answered, arScalerRunBatch, if_neg counted, checked, if_neg Bool.true_eq_false_eq_False]
    cases interrupted : env.interrupted
    · cases gone : service.dead
      · cases asleep : service.suspended
        · have launched := serves.launch_batch (suspended.trans asleep) (dead.trans gone) bufs ops
            accepted.2.1 env
          simpa [ScalerService.accept, interrupted, suspended, dead, gone, asleep] using launched
        · simpa [ScalerService.accept, interrupted, suspended, dead, gone, asleep] using serves
      · simpa [ScalerService.accept, interrupted, dead, gone] using serves
    · simpa [ScalerService.accept, interrupted] using serves
  · have answered : (service.call bufs (.batch ops count env)).1 = ⟨-einval, []⟩ :=
      if_neg accepted
    have refused : arScalerRunBatch bufs s ops count env = (⟨-einval, []⟩, s) := by
      unfold arScalerRunBatch
      by_cases counted : count = 0 ∨ scalerBatchMax < count.toNat
      · rw [if_pos counted]
      · have unchecked : (List.range count.toNat).all (fun i => arScalerValidate (ops i)) = false :=
          Bool.eq_false_of_not_eq_true fun checked => accepted (batch_checked.mp ⟨counted, checked⟩)
        rw [if_neg counted, if_pos unchecked]
    rw [answered, refused]
    exact ⟨rfl, serves⟩

theorem ScalerServes.setFrequency (serves : ScalerServes s service) (freq : BitVec 32) :
    (arScalerSetFrequency s freq).1 = (service.call bufs (.setFrequency freq)).1 ∧
      ScalerServes (arScalerSetFrequency s freq).2 service := by
  have dead := serves.dead
  cases gone : service.dead
  · have present : s.dead = false := dead.trans gone
    refine ⟨by simp [arScalerSetFrequency, ScalerService.call, present, gone], ?_⟩
    simp only [arScalerSetFrequency, present, Bool.false_eq_true, if_false]
    refine ⟨serves.suspended, present.symm.trans dead, fun awake _ => ?_, ?_⟩
    · split
      · exact (clocked_setFreqDiv s.hw freq).trans (serves.clocked awake present)
      · exact serves.clocked awake present
    · split <;> exact serves.irqEnabled
  · have removed : s.dead = true := dead.trans gone
    simpa [arScalerSetFrequency, ScalerService.call, removed, gone] using serves

theorem ScalerServes.call (bufs : ScalerBufs) :
    Refinement.Simulates (scalerCall bufs) (ScalerService.call bufs) ScalerServes := by
  intro s service call serves
  cases call with
  | single op env => exact serves.single op env
  | batch ops count env => exact serves.batch ops count env
  | setFrequency freq => exact serves.setFrequency freq
  | suspend =>
      exact ⟨rfl, rfl, serves.dead, fun awake _ => absurd awake (by simp [scalerCall]),
        serves.irqEnabled⟩
  | resume =>
      exact ⟨rfl, rfl, serves.dead, fun _ _ => clocked_hwInit _ _ _, irqEnabled_hwInit _ _ _⟩
  | remove =>
      exact ⟨rfl, serves.suspended, rfl, fun _ present => absurd present (by simp [scalerCall]),
        serves.irqEnabled⟩

theorem scalerProbed_serves (bufs : ScalerBufs) (hw : ScalerHw) (frequency : BitVec 32) :
    ScalerServes (scalerProbed bufs hw frequency) ⟨false, false⟩ :=
  ⟨rfl, rfl, fun _ _ => clocked_hwInit _ _ _, irqEnabled_hwInit _ _ _⟩

/-- Over every run from the probe, what a call returns and what the engine runs for it do not depend
on the submissions before it, whichever mode they left and whether they timed out. -/
theorem scaler_refines_service (bufs : ScalerBufs) (hw : ScalerHw) (frequency : BitVec 32)
    (calls : List ScalerCall) :
    (Refinement.run (scalerCall bufs) (scalerProbed bufs hw frequency) calls).1 =
        (Refinement.run (ScalerService.call bufs) ⟨false, false⟩ calls).1 ∧
      ScalerServes (Refinement.run (scalerCall bufs) (scalerProbed bufs hw frequency) calls).2
        (Refinement.run (ScalerService.call bufs) ⟨false, false⟩ calls).2 :=
  (ScalerServes.call bufs).run (scalerProbed_serves bufs hw frequency) calls

end Calls

end MlKernel.Scaler
