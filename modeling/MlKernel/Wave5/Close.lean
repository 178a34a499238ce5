import Mathlib.Data.Fintype.Defs
import Mathlib.Data.Int.Notation
import MlKernel.Lib.Run

/-!
# Closing a codec instance

A codec instance is taken off the device's list, asked to finish, and freed.  While its firmware
instance still runs the firmware writes to its buffers, so they are only freed when the firmware
has finished the instance or when the whole block has been reset; and since the reset is global,
it is only done when no other instance is on the list.
-/

namespace MlKernel.Wave5

/-- The DMA buffers of an instance. -/
inductive DmaBuf
  | work
  | task
  | bitstream
  | frame (i : ℕ)
  | mv (i : ℕ)
  | fbcYTbl (i : ℕ)
  | fbcCTbl (i : ℕ)
  | subSam
  deriving DecidableEq

inductive InstType
  | dec
  /-- `coded` is set for the HEVC and AVC encoders. -/
  | enc (coded : Bool)
  deriving DecidableEq

/-- Where `wave5_vpu_release_device` stands with an instance. -/
inductive ReleasePhase
  | listed
  | delisted
  | closed
  | released
  deriving DecidableEq

structure VpuInst where
  type : InstType
  /-- The state has left `VPU_INST_STATE_NONE`: there is a firmware instance. -/
  started : Bool
  fbcBufCount : ℕ
  /-- The sizes of the buffers; a freed one has size zero. -/
  size : DmaBuf → ℕ
  keepDmaBufs : Bool
  ret : ℤ
  phase : ReleasePhase
  /-- The firmware has finished this instance. -/
  finished : Bool
  /-- The block has been reset since this instance left the list. -/
  reset : Bool
  /-- The `finish_seq` attempts that closing it took. -/
  attempts : ℕ
  /-- The buffers freed so far, each with whether the firmware could not write to it any more. -/
  freed : List (DmaBuf × Bool)

/-- The firmware does not write to the buffers of this instance. -/
def VpuInst.quiesced (inst : VpuInst) : Bool := !inst.started || inst.finished || inst.reset

/-! ### Freeing -/

/-- `wave5_vdi_free_dma_memory`, which clears what it frees. -/
def freeDma (inst : VpuInst) (buf : DmaBuf) : VpuInst :=
  if inst.size buf = 0 then inst
  else
    { inst with
      size := fun other => if other = buf then 0 else inst.size other
      freed := (buf, inst.quiesced) :: inst.freed }

/-- The loop over `reset_auxiliary_buffers` with `left` indices to go, as the patched driver
has it. -/
def resetAuxiliaryBuffers (inst : VpuInst) (i : ℕ) (left : ℕ) : VpuInst :=
  match left with
  | 0 => inst
  | left + 1 =>
      if inst.size (.mv i) = 0 ∧ inst.size (.fbcYTbl i) = 0 ∧ inst.size (.fbcCTbl i) = 0 then inst
      else
        resetAuxiliaryBuffers (freeDma (freeDma (freeDma inst (.mv i)) (.fbcYTbl i)) (.fbcCTbl i))
          (i + 1) left

/-- The frees at the end of the two close functions, as the patched driver has them. -/
def closeFrees (maxRegFrame : ℕ) (inst : VpuInst) : VpuInst :=
  match inst.type with
  | .dec => freeDma (resetAuxiliaryBuffers (freeDma inst .work) 0 maxRegFrame) .task
  | .enc coded =>
      let inst := freeDma inst .work
      let inst := if coded then
          [.subSam, .mv 0, .fbcYTbl 0, .fbcCTbl 0].foldl freeDma inst
        else inst
      freeDma inst .task

def wave5CleanupInstance (inst : VpuInst) : VpuInst :=
  if inst.keepDmaBufs then inst
  else freeDma (((List.range inst.fbcBufCount).map .frame).foldl freeDma inst) .bitstream

/-! ### Finishing -/

def eio : ℤ := -5

def ebusy : ℤ := -16

def etimedout : ℤ := -110

/-- How a `finish_seq` attempt of the patched driver ends: only a command that the firmware answers
with a failure sets `fail_res`. -/
inductive FinishSeq
  | success
  | stillRunning
  | otherError
  | timeout
  deriving DecidableEq

def FinishSeq.ret : FinishSeq → ℤ
  | .success => 0
  | .stillRunning => eio
  | .otherError => eio
  | .timeout => etimedout

/-- Whether `fail_res` is `WAVE5_SYSERR_VPU_STILL_RUNNING` after an attempt. -/
def FinishSeq.failRes (stillRunning : Bool) : FinishSeq → Bool
  | .success => stillRunning
  | .stillRunning => true
  | .otherError => false
  | .timeout => stillRunning

/-- What the retry loop leaves: `ret`, `fail_res`, the attempts made and how the last one ended. -/
structure Finished where
  ret : ℤ
  stillRunning : Bool
  attempts : ℕ
  last : FinishSeq
  deriving DecidableEq

/-- The retry loop with `left` retries to go; `finishSeq` is how the attempt with a number ends. -/
def finishLoop (finishSeq : ℕ → FinishSeq) (left : ℕ) (stillRunning : Bool) (attempts : ℕ) :
    Finished :=
  let outcome := finishSeq attempts
  let stillRunning := outcome.failRes stillRunning
  if outcome.ret < 0 ∧ stillRunning = false then ⟨outcome.ret, stillRunning, attempts + 1, outcome⟩
  else
    match left, stillRunning with
    | 0, true => ⟨etimedout, true, attempts + 1, outcome⟩
    | left + 1, true =>
        if outcome.ret ≠ 0 then finishLoop finishSeq left true (attempts + 1)
        else ⟨outcome.ret, true, attempts + 1, outcome⟩
    -- `ret` is not negative here, and a `finish_seq` never returns a positive value
    | _, false => ⟨outcome.ret, false, attempts + 1, outcome⟩

/-- How `wave5_vpu_recover_locked` ends, in the order of its steps. -/
inductive Recover
  | noName
  | requestFails
  | resetFails
  | initFails
  | ok
  deriving DecidableEq

/-- It got as far as resetting the block. -/
def Recover.resets : Recover → Bool
  | .initFails => true
  | .ok => true
  | _ => false

/-- It issued the reset. -/
def Recover.issues : Recover → Bool
  | .noName => false
  | .requestFails => false
  | _ => true

/-! ### The device -/

/-- The device with its instances. -/
structure Vpu (Inst : Type) where
  instances : Inst → VpuInst
  /-- The global reset was issued while an instance was on the list. -/
  resetListed : Bool

inductive VpuEvent (Inst : Type)
  | delist (i : Inst)
  | close (i : Inst) (finishSeq : ℕ → FinishSeq) (recover : Recover)
  | cleanup (i : Inst)

section Device

variable {Inst : Type} [DecidableEq Inst] [Fintype Inst] (maxRetry maxRegFrame : ℕ)

namespace Vpu

def set (s : Vpu Inst) (i : Inst) (inst : VpuInst) : Vpu Inst :=
  { s with instances := fun other => if other = i then inst else s.instances other }

/-- `list_empty(&vpu_dev->instances)`. -/
def ListEmpty (s : Vpu Inst) : Prop := ∀ i, (s.instances i).phase ≠ .listed

instance (s : Vpu Inst) : Decidable s.ListEmpty :=
  inferInstanceAs (Decidable (∀ i, (s.instances i).phase ≠ .listed))

/-- The block reset, which stops every firmware instance. -/
def recoverLocked (s : Vpu Inst) (recover : Recover) : Vpu Inst where
  instances := fun i =>
    let inst := s.instances i
    if recover.resets ∧ inst.phase ≠ .listed then { inst with reset := true } else inst
  resetListed := s.resetListed || (recover.issues && !decide s.ListEmpty)

end Vpu

/-- The instance on its way out of a close function. -/
def closeWith (inst : VpuInst) (finished : Finished) : VpuInst :=
  { inst with
    phase := .closed
    ret := if finished.stillRunning then ebusy else if finished.ret < 0 then finished.ret else 0 }

/-- `wave5_vpu_dec_close` and `wave5_vpu_enc_close`, under `hw_lock`. -/
def vpuClose (s : Vpu Inst) (i : Inst) (finishSeq : ℕ → FinishSeq) (recover : Recover) : Vpu Inst :=
  let finished := finishLoop finishSeq maxRetry false 0
  let s := s.set i { s.instances i with
    finished := (s.instances i).finished || decide (finished.last = .success)
    attempts := finished.attempts }
  if finished.ret < 0 then
    if ¬s.ListEmpty then
      s.set i (closeWith { s.instances i with keepDmaBufs := true } finished)
    else
      let s := s.recoverLocked recover
      if recover ≠ .ok then
        s.set i (closeWith { s.instances i with keepDmaBufs := true } finished)
      else s.set i (closeWith (closeFrees maxRegFrame (s.instances i)) finished)
  else s.set i (closeWith (closeFrees maxRegFrame (s.instances i)) finished)

/-- The steps of `wave5_vpu_release_device`. -/
def vpuStep (s : Vpu Inst) (event : VpuEvent Inst) : Option (Vpu Inst) :=
  match event with
  | .delist i =>
      if (s.instances i).phase = .listed then
        some (s.set i { s.instances i with phase := .delisted })
      else none
  | .close i finishSeq recover =>
      if (s.instances i).phase = .delisted then
        if (s.instances i).started then some (vpuClose maxRetry maxRegFrame s i finishSeq recover)
        else some (s.set i { s.instances i with phase := .closed })
      else none
  | .cleanup i =>
      if (s.instances i).phase = .closed then
        let inst := wave5CleanupInstance (s.instances i)
        some (s.set i { inst with
          phase := .released
          ret := if inst.ret = eio then 0 else inst.ret })
      else none

end Device

/-! ### The retry loop -/

theorem FinishSeq.ret_nonpos (outcome : FinishSeq) : outcome.ret < 0 ∨ outcome = .success := by
  cases outcome
  all_goals decide

/-- The loop makes at most one attempt more than it has retries, and a return value of zero is a
success of the last one. -/
theorem finishLoop_spec (finishSeq : ℕ → FinishSeq) (left : ℕ) (stillRunning : Bool)
    (attempts : ℕ) :
    (finishLoop finishSeq left stillRunning attempts).attempts ≤ attempts + left + 1 ∧
      (¬(finishLoop finishSeq left stillRunning attempts).ret < 0 →
        (finishLoop finishSeq left stillRunning attempts).last = .success) := by
  fun_induction finishLoop finishSeq left stillRunning attempts with
  | case1 left _ attempts outcome still failed =>
      exact ⟨by simp only; omega, fun notFailed => absurd failed.1 notFailed⟩
  | case2 _ attempts outcome still notFailed again =>
      exact ⟨Nat.le_refl _, fun notLate => absurd (show etimedout < 0 by decide) notLate⟩
  | case3 _ attempts outcome still notFailed left again more ih =>
      rcases ih with ⟨few, success⟩
      exact ⟨by omega, success⟩
  | case4 _ attempts outcome still notFailed left again done =>
      exact ⟨by simp only; omega, outcome.ret_nonpos.resolve_left⟩
  | case5 left _ attempts outcome still notFailed quiet =>
      exact ⟨by simp only; omega, outcome.ret_nonpos.resolve_left⟩

/-- A success is only taken for a failure on the very last attempt, after an answer that the
instance is still running. -/
theorem finishLoop_lost_success {finishSeq : ℕ → FinishSeq} {left : ℕ} {stillRunning : Bool}
    {attempts : ℕ}
    (failed : (finishLoop finishSeq left stillRunning attempts).ret < 0)
    (success : (finishLoop finishSeq left stillRunning attempts).last = .success) :
    (finishLoop finishSeq left stillRunning attempts).attempts = attempts + left + 1 ∧
      (finishLoop finishSeq left stillRunning attempts).stillRunning = true := by
  have zero : ∀ outcome : FinishSeq, outcome = .success → ¬outcome.ret < 0 := by
    rintro _ rfl
    decide
  fun_induction finishLoop finishSeq left stillRunning attempts with
  | case1 left _ attempts outcome still lost => exact absurd failed (zero outcome success)
  | case2 _ attempts outcome still notFailed again => exact ⟨rfl, rfl⟩
  | case3 _ attempts outcome still notFailed left again more ih =>
      rcases ih failed success with ⟨last, running⟩
      exact ⟨by omega, running⟩
  | case4 _ attempts outcome still notFailed left again done =>
      exact absurd failed (zero outcome success)
  | case5 left _ attempts outcome still notFailed quiet =>
      exact absurd failed (zero outcome success)

end MlKernel.Wave5
