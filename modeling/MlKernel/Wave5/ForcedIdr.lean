import MlKernel.Lib.BitField
import MlKernel.Lib.Run

/-!
# Forced keyframes

A forced keyframe is one picture at `intra_period` 1.  `start_encode` arms the period and restores
it through the mask of pending changes that the live rate controls use as well, and applies the
mask on the following picture.  The mask is cleared before the firmware has taken the change, and
the restore is armed whether or not the picture starts.
-/

namespace MlKernel.Wave5

open BitField

abbrev U32 : Type := BitVec 32

def w5EncChangeIntraParam : U32 := bit 32 1
def w5EncChangeRcFrameRate : U32 := bit 32 6
def w5EncChangeRcTargetRate : U32 := bit 32 8
def w5EncChangeRcParam : U32 := bit 32 9

/-- The fields of `struct enc_open_param` that a live change writes to the firmware. -/
structure EncOpenParam where
  bitRate : ℕ
  frameRateInfo : ℕ
  vbvBufferSize : ℕ
  intraPeriod : ℕ
  deriving DecidableEq

/-- What the firmware holds of them. -/
structure EncFirmware where
  intraPeriod : ℕ
  frameRate : ℕ
  targetRate : ℕ
  vbv : ℕ
  deriving DecidableEq

/-- The encoder instance, as far as live changes go. -/
structure EncInst where
  bitRate : ℕ
  frameRate : ℕ
  vbvBufSize : ℕ
  rcMode : ℕ
  openParam : EncOpenParam
  encRateChangePending : U32
  encForceIdr : Bool
  encIdrRestore : Bool
  encIdrSavedPeriod : ℕ
  firmware : EncFirmware
  /-- A keyframe was requested, every live update since went well, and no picture has been started
  at period 1. -/
  owed : Bool
  deriving DecidableEq

/-- How a live update ends: `mutex_lock_interruptible` sees a signal, the firmware does not accept
the command, it accepts it but the `GET_RESULT` query fails, or all goes well. -/
inductive UpdateOutcome
  | ok
  | interrupted
  | queueFail
  | queryFail
  deriving DecidableEq

/-- The firmware has taken the change. -/
def UpdateOutcome.Taken (outcome : UpdateOutcome) : Prop := outcome = .ok ∨ outcome = .queryFail

instance (outcome : UpdateOutcome) : Decidable outcome.Taken :=
  inferInstanceAs (Decidable (_ ∨ _))

section Driver

/-! `MIN_VBV_BUFFER_SIZE` and `MAX_VBV_BUFFER_SIZE` come from the mainline header. -/

variable (minVbv maxVbv : ℕ)

/-- What `wave5_vpu_enc_change_param` makes the firmware take. -/
def wave5VpuEncChangeParam (open' : EncOpenParam) (enable : U32) (firmware : EncFirmware) :
    EncFirmware where
  frameRate := if enable &&& w5EncChangeRcFrameRate ≠ 0 then open'.frameRateInfo
    else firmware.frameRate
  intraPeriod := if enable &&& w5EncChangeIntraParam ≠ 0 then open'.intraPeriod
    else firmware.intraPeriod
  targetRate := if enable &&& w5EncChangeRcTargetRate ≠ 0 then open'.bitRate
    else firmware.targetRate
  vbv := if enable &&& w5EncChangeRcParam ≠ 0 then
      if open'.vbvBufferSize < minVbv then minVbv
      else if maxVbv < open'.vbvBufferSize then maxVbv
      else open'.vbvBufferSize
    else firmware.vbv

def wave5VpuEncUpdateRate (inst : EncInst) (enable : U32) (outcome : UpdateOutcome) : EncInst :=
  if outcome = .interrupted then inst
  else
    let open' := { inst.openParam with
      bitRate := inst.bitRate
      frameRateInfo := inst.frameRate
      vbvBufferSize := if inst.rcMode ≠ 0 then inst.vbvBufSize else inst.openParam.vbvBufferSize }
    { inst with
      openParam := open'
      firmware :=
        if outcome.Taken then wave5VpuEncChangeParam minVbv maxVbv open' enable inst.firmware
        else inst.firmware }

/-- A request that meets a failing update is not owed a picture any more. -/
def wave5VpuEncApplyPendingRate (inst : EncInst) (outcome : UpdateOutcome) : EncInst :=
  let pending := inst.encRateChangePending
  if pending = 0 then inst
  else
    wave5VpuEncUpdateRate minVbv maxVbv
      { inst with encRateChangePending := 0, owed := inst.owed && decide (outcome = .ok) }
      pending outcome

/-- The two edges of a forced keyframe in `start_encode`. -/
def forceEdges (inst : EncInst) : EncInst :=
  if inst.encForceIdr then
    { inst with
      encForceIdr := false
      encIdrSavedPeriod :=
        if inst.encIdrRestore then inst.encIdrSavedPeriod else inst.openParam.intraPeriod
      encIdrRestore := true
      openParam := { inst.openParam with intraPeriod := 1 }
      encRateChangePending := inst.encRateChangePending ||| w5EncChangeIntraParam }
  else if inst.encIdrRestore then
    { inst with
      encIdrRestore := false
      openParam := { inst.openParam with intraPeriod := inst.encIdrSavedPeriod }
      encRateChangePending := inst.encRateChangePending ||| w5EncChangeIntraParam }
  else inst

/-- `start_encode`, which starts a picture or fails at any later point. -/
def startEncode (inst : EncInst) (outcome : UpdateOutcome) (started : Bool) : EncInst :=
  let inst := forceEdges (wave5VpuEncApplyPendingRate minVbv maxVbv inst outcome)
  { inst with owed := inst.owed && !(started && decide (inst.firmware.intraPeriod = 1)) }

/-- `running` says that the instance has reached `VPU_INST_STATE_PIC_RUN`. -/
inductive EncEvent
  | forceKeyFrame
  | setBitrate (value : ℕ) (running : Bool)
  | setVbvSize (value : ℕ) (running : Bool)
  | setFrameRate (value : ℕ) (running : Bool)
  | startEncode (outcome : UpdateOutcome) (started : Bool)
  deriving DecidableEq

def EncEvent.isStart (event : EncEvent) : Bool :=
  match event with
  | .startEncode _ _ => true
  | _ => false

def markPending (inst : EncInst) (changed running : Bool) (change : U32) : EncInst :=
  if changed && running then
    { inst with encRateChangePending := inst.encRateChangePending ||| change }
  else inst

def encStep (inst : EncInst) (event : EncEvent) : EncInst :=
  match event with
  | .forceKeyFrame => { inst with encForceIdr := true, owed := true }
  | .setBitrate value running =>
      markPending { inst with bitRate := value } (decide (inst.bitRate ≠ value)) running
        w5EncChangeRcTargetRate
  | .setVbvSize value running =>
      markPending { inst with vbvBufSize := value } (decide (inst.vbvBufSize ≠ value)) running
        w5EncChangeRcParam
  | .setFrameRate value running =>
      markPending { inst with frameRate := value } (decide (inst.frameRate ≠ value)) running
        w5EncChangeRcFrameRate
  | .startEncode outcome started => startEncode minVbv maxVbv inst outcome started

end Driver

/-- An instance as it is opened, with its configured period. -/
def EncInst.opened (period bitRate frameRate vbvBufSize rcMode : ℕ) : EncInst where
  bitRate
  frameRate
  vbvBufSize
  rcMode
  openParam := ⟨bitRate, frameRate, vbvBufSize, period⟩
  encRateChangePending := 0
  encForceIdr := false
  encIdrRestore := false
  encIdrSavedPeriod := 0
  firmware := ⟨period, frameRate, bitRate, vbvBufSize⟩
  owed := false

end MlKernel.Wave5
