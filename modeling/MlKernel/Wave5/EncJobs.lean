import Mathlib.Logic.Function.Basic
import MlKernel.Lib.Run

/-!
# Encoder jobs and their timeout

A job of the encoder takes a source buffer off its queue, hands the picture to the firmware and
then arms a timeout.  The completion and the timeout both return the buffers and finish the job,
one after the other under `irq_lock`; neither says which job it means.
-/

namespace MlKernel.Wave5

/-! ### Buffer queues -/

/-- One queue of the m2m context. -/
structure M2mQueue where
  ready : List ℕ
  /-- The buffers in `VB2_BUF_STATE_ACTIVE`. -/
  active : ℕ → Bool
  /-- The buffers taken off the ready queue and not returned yet. -/
  taken : List ℕ
  /-- A buffer was returned that was not taken. -/
  misreturned : Bool

namespace M2mQueue

def empty : M2mQueue where
  ready := []
  active _ := false
  taken := []
  misreturned := false

def queue (q : M2mQueue) (idx : ℕ) : M2mQueue :=
  { q with ready := q.ready ++ [idx], active := Function.update q.active idx true }

/-- `v4l2_m2m_src_buf_remove` and `v4l2_m2m_dst_buf_remove`. -/
def remove (q : M2mQueue) : Option ℕ × M2mQueue :=
  match q.ready with
  | [] => (none, q)
  | idx :: ready => (some idx, { q with ready, taken := q.taken ++ [idx] })

/-- `v4l2_m2m_buf_done`. -/
def bufDone (q : M2mQueue) (idx : ℕ) : M2mQueue :=
  { q with
    active := Function.update q.active idx false
    taken := q.taken.erase idx
    misreturned := q.misreturned || !q.taken.contains idx }

/-- A buffer is returned if there is one. -/
def bufDoneSome (q : M2mQueue) : Option ℕ → M2mQueue
  | none => q
  | some idx => q.bufDone idx

/-- The next buffer is taken and returned. -/
def removeDone (q : M2mQueue) : M2mQueue := q.remove.2.bufDoneSome q.remove.1

end M2mQueue

/-! ### Jobs -/

/-- A picture that the firmware has accepted, with the source it reads. -/
structure EncPicture where
  job : ℕ
  src : Option ℕ
  deriving DecidableEq

structure EncJobs where
  src : M2mQueue
  dst : M2mQueue
  activeEncSrcIdx : Option ℕ
  /-- The job that the m2m framework takes to be running. -/
  curr : Option ℕ
  jobs : ℕ
  /-- The jobs whose `device_run` has queued its picture and not armed the timeout yet. -/
  toArm : List ℕ
  /-- The job that armed `job_timeout_work`, while it is pending. -/
  pending : Option ℕ
  /-- The job that armed it, once its handler runs and waits for `irq_lock`. -/
  running : Option ℕ
  /-- The pictures the firmware has not completed. -/
  firmware : List EncPicture
  finished : List ℕ
  /-- For each run of the handler, who had armed it and which job it finished. -/
  timeouts : List (ℕ × Option ℕ)

/-- How `start_encode` ends, once there is a capture buffer. -/
inductive StartEncode
  | queued
  /-- The firmware rejects the picture: its buffers go back and the job is left active. -/
  | rejected
  /-- Every other failure, on which `device_run` finishes the job. -/
  | failed
  deriving DecidableEq

inductive EncResult
  | ok
  | vlcBufFull
  | error
  deriving DecidableEq

inductive JobEvent
  | queueSrc (idx : ℕ)
  | queueDst (idx : ℕ)
  | deviceRun (outcome : StartEncode)
  | arm (job : ℕ)
  | finishEncode (picture : EncPicture) (result : EncResult)
  | expire
  | jobTimeout
  | cleanup

namespace EncJobs

def initial : EncJobs where
  src := .empty
  dst := .empty
  activeEncSrcIdx := none
  curr := none
  jobs := 0
  toArm := []
  pending := none
  running := none
  firmware := []
  finished := []
  timeouts := []

/-- `v4l2_m2m_job_finish`. -/
def jobFinish (s : EncJobs) : EncJobs :=
  match s.curr with
  | none => s
  | some job => { s with curr := none, finished := job :: s.finished }

/-- `wave5_vpu_enc_active_src_buf`. -/
def activeSrcBuf (s : EncJobs) : Option ℕ := s.activeEncSrcIdx.filter s.src.active

/-- The source that the firmware had, returned. -/
def returnActiveSrc (s : EncJobs) : EncJobs :=
  { s with src := s.src.bufDoneSome s.activeSrcBuf, activeEncSrcIdx := none }

/-- The next capture buffer, returned. -/
def returnDst (s : EncJobs) : EncJobs := { s with dst := s.dst.removeDone }

/-- `wave5_vpu_enc_device_run` up to where it arms the timeout. -/
def deviceRun (s : EncJobs) (outcome : StartEncode) : EncJobs :=
  let job := s.jobs
  let s := { s with curr := some job, jobs := s.jobs + 1 }
  match outcome, s.dst.ready, s.src.ready with
  | _, [], _ => s.jobFinish
  | .failed, _, _ => s.jobFinish
  | .queued, _, _ =>
      { s with
        src := s.src.remove.2
        activeEncSrcIdx := s.src.remove.1
        firmware := { job, src := s.src.remove.1 } :: s.firmware
        toArm := job :: s.toArm }
  | .rejected, _, [] => s.jobFinish
  | .rejected, _, _ =>
      { s with
        src := s.src.removeDone
        dst := s.dst.removeDone
        activeEncSrcIdx := none
        toArm := job :: s.toArm }

/-- `wave5_vpu_enc_finish_encode`, which cancels the timeout only if it is still pending. -/
def finishEncode (s : EncJobs) (picture : EncPicture) (result : EncResult) : EncJobs :=
  let s := { s with pending := none, firmware := s.firmware.erase picture }
  match result with
  | .ok =>
      let s := match picture.src with
        | none => s
        | some _ =>
            { s with
              src := s.src.bufDoneSome (picture.src.filter s.src.active)
              activeEncSrcIdx := none }
      s.returnDst.jobFinish
  | .vlcBufFull => s.returnActiveSrc.jobFinish
  | .error => s.returnActiveSrc.returnDst.jobFinish

/-- `wave5_vpu_enc_job_timeout`, under `irq_lock`. -/
def jobTimeout (s : EncJobs) (armed : ℕ) : EncJobs :=
  let s := { s with running := none, timeouts := (armed, s.curr) :: s.timeouts }
  s.returnActiveSrc.returnDst.jobFinish

end EncJobs

def jobStep (s : EncJobs) (event : JobEvent) : Option EncJobs :=
  match event with
  | .queueSrc idx => if s.src.active idx then none else some { s with src := s.src.queue idx }
  | .queueDst idx => if s.dst.active idx then none else some { s with dst := s.dst.queue idx }
  | .deviceRun outcome => if s.curr = none then some (s.deviceRun outcome) else none
  | .arm job =>
      -- work that is pending already stays as it is
      if job ∈ s.toArm then
        some { s with toArm := s.toArm.erase job, pending := s.pending.or (some job) }
      else none
  | .finishEncode picture result =>
      if picture ∈ s.firmware then some (s.finishEncode picture result) else none
  | .expire =>
      match s.pending, s.running with
      | some job, none => some { s with pending := none, running := some job }
      | _, _ => none
  | .jobTimeout => s.running.map s.jobTimeout
  -- the release has waited for the job, and the synchronous cancel waits for the handler
  | .cleanup => if s.curr = none ∧ s.running = none then some { s with pending := none } else none

end MlKernel.Wave5
