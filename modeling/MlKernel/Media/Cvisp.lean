import Mathlib.Data.Int.Notation
import MlKernel.Lib.Pipeline
import MlKernel.Lib.Run

/-!
# The capture queue of the output stage

The buffers that vb2 queues go from `buffer_list` into `held[]` at a frame tick, and
out of it `depth` arming ticks later.  Every section under `buffer_lock` is one step,
and so are every plane write of the unlocked `ar_cvisp_configure` and every call of
`vb2_buffer_done`.
-/

namespace MlKernel.Media

/-- The Y, U and V bases of one frame. -/
structure ArCvispBufset where
  y : UInt32
  u : UInt32
  v : UInt32
  deriving DecidableEq

def arCvispRing : Fin 5 → ArCvispBufset
  | 0 => { y := 0x2834c000, u := 0x2856a000, v := 0x285f3000 }
  | 1 => { y := 0x28684000, u := 0x288a2000, v := 0x2892b000 }
  | 2 => { y := 0x289bc000, u := 0x28bda000, v := 0x28c63000 }
  | 3 => { y := 0x28cf4000, u := 0x28f12000, v := 0x28f9b000 }
  | 4 => { y := 0x28014000, u := 0x28232000, v := 0x282bb000 }

def arCvispMaxDepth : ℕ := 4

/-- The plane registers.  One that was never written has its reset value. -/
structure PlaneRegs where
  y : Option UInt32
  u : Option UInt32
  v : Option UInt32
  deriving DecidableEq

inductive PlaneWrite
  | y (val : UInt32)
  | u (val : UInt32)
  | v (val : UInt32)
  deriving DecidableEq

namespace PlaneRegs

def reset : PlaneRegs := { y := none, u := none, v := none }

def of (b : ArCvispBufset) : PlaneRegs := { y := some b.y, u := some b.u, v := some b.v }

def write (regs : PlaneRegs) : PlaneWrite → PlaneRegs
  | .y val => { regs with y := some val }
  | .u val => { regs with u := some val }
  | .v val => { regs with v := some val }

end PlaneRegs

/-- The entries of `ar_cvisp_setup` for the plane registers, in its order. -/
def arCvispSetupPlanes : List PlaneWrite :=
  [.y 0x0a800000, .u 0x0b800000, .v 0x0c800000, .y 0x28014000, .u 0x28232000, .v 0x282bb000]

/-- The ring slot that the table ends with. -/
def arCvispSetupSlot : Fin 5 := 4

/-- A vb2 buffer with the `plane` of its last `buf_prepare`. -/
structure ArCvispBuffer where
  index : ℕ
  plane : ArCvispBufset
  deriving DecidableEq

structure ArCvisp where
  planes : PlaneRegs
  rotations : UInt32
  configured : Bool
  next : Fin 5
  frames : UInt32
  bufferList : List ArCvispBuffer
  held : List (Option ArCvispBuffer)
  streaming : Bool
  chainUp : Bool
  sequence : UInt32
  completions : UInt32
  drops : UInt32

def ArCvisp.probed : ArCvisp :=
  { planes := .reset, rotations := 0, configured := false, next := 0, frames := 0
    bufferList := [], held := List.replicate arCvispMaxDepth none, streaming := false
    chainUp := false, sequence := 0, completions := 0, drops := 0 }

def arCvispArm (cv : ArCvisp) (slot : Fin 5) : ArCvisp :=
  { cv with planes := .of (arCvispRing slot) }

def arCvispCycle (cv : ArCvisp) : ArCvisp :=
  { cv with next := cv.next + 1, frames := cv.frames + 1 }

def arCvispQueue (cv : ArCvisp) : ArCvisp :=
  arCvispCycle (arCvispArm cv cv.next)

def arCvispArmBuffer (cv : ArCvisp) (buf : ArCvispBuffer) : ArCvisp :=
  { cv with planes := .of buf.plane }

/-- `ar_cvisp_frame_tick` up to its unlock, and the buffer it goes on to complete. -/
def arCvispFrameTick (depth : ℕ) (rotate : Bool) (cv : ArCvisp) :
    ArCvisp × Option (ArCvispBuffer × UInt32) :=
  if rotate = false then (cv, none)
  else if cv.streaming = false then
    let cv := arCvispQueue cv
    ({ cv with rotations := cv.rotations + 1 }, none)
  else
    match cv.bufferList with
    | [] => ({ cv with drops := cv.drops + 1 }, none)
    | next :: rest =>
      let done := Pipeline.leaving depth cv.held
      let cv := { cv with bufferList := rest, held := Pipeline.enter depth cv.held next }
      let cv := arCvispCycle (arCvispArmBuffer cv next)
      let cv := { cv with rotations := cv.rotations + 1 }
      match done with
      | none => (cv, none)
      | some done =>
        ({ cv with sequence := cv.sequence + 1, completions := cv.completions + 1 },
          some (done, cv.sequence))

/-- The end of `ar_cvisp_configure`, past its register writes. -/
def arCvispConfigured (cv : ArCvisp) : ArCvisp :=
  { cv with next := 1, frames := 1, configured := true }

def arCvispBufferQueue (cv : ArCvisp) (buf : ArCvispBuffer) : ArCvisp :=
  { cv with bufferList := cv.bufferList ++ [buf] }

/-- The locked part of `ar_cvisp_return_buffers`, with its list of pending buffers. -/
def arCvispTakeBuffers (cv : ArCvisp) : List ArCvispBuffer × ArCvisp :=
  (cv.held.reduceOption ++ cv.bufferList,
    { cv with bufferList := [], held := List.replicate arCvispMaxDepth none })

def ebusy : ℤ := 16

/-- With the results of `ar_vif_input_start` and `ar_isp_pipeline_start`. -/
def arCvispChainStart (cv : ArCvisp) (inputStart ispStart : ℤ) : ℤ × ArCvisp :=
  if cv.chainUp then (0, cv)
  else if inputStart ≠ -ebusy ∧ inputStart ≠ 0 then (inputStart, cv)
  else if ispStart ≠ 0 then (ispStart, cv)
  else (0, { cv with chainUp := true })

/-- The locked part of `ar_cvisp_start_streaming`, if a buffer is queued. -/
def arCvispStreamOn (cv : ArCvisp) : Option (ArCvispBuffer × ArCvisp) :=
  match cv.bufferList with
  | [] => none
  | first :: rest =>
    let held := some first :: List.replicate (arCvispMaxDepth - 1) none
    let cv := { cv with bufferList := rest, held, sequence := 0 }
    some (first, { arCvispArmBuffer cv first with streaming := true })

/-- The locked part of `ar_cvisp_stop_streaming`. -/
def arCvispStreamOff (cv : ArCvisp) : ArCvisp :=
  { arCvispArm { cv with streaming := false } 0 with next := 1 }

/-! ### The driver and vb2 -/

/-- A buffer that a tick has taken out of `held[]` for `VB2_BUF_STATE_DONE`, with the number
of the stream and those of the arming steps that armed it and that completes it. -/
structure Completion where
  stream : ℕ
  buffer : ArCvispBuffer
  sequence : UInt32
  armedAt : ℕ
  doneAt : ℕ

/-- `VB2_BUF_STATE_QUEUED` and `VB2_BUF_STATE_ERROR`. -/
inductive HandBackState
  | queued
  | error
  deriving DecidableEq

/-- A call of `vb2_buffer_done`. -/
inductive BufferDone
  | done (c : Completion)
  | handedBack (buffer : ArCvispBuffer) (state : HandBackState)
  /-- The call that vb2 itself makes for a buffer the driver has not returned. -/
  | reclaimed (buffer : ArCvispBuffer)

namespace BufferDone

def buffer : BufferDone → ArCvispBuffer
  | done c => c.buffer
  | handedBack buffer _ => buffer
  | reclaimed buffer => buffer

def completion? : BufferDone → Option Completion
  | done c => some c
  | handedBack _ _ => none
  | reclaimed _ => none

end BufferDone

/-- Where the vb2 operation is that has the queue's lock. -/
inductive QueueOp
  | idle
  /-- `ar_cvisp_configure`, with the plane writes it has still to make. -/
  | configuring (writes : List PlaneWrite)
  | starting
  /-- `ar_cvisp_return_buffers` before it takes the lock. -/
  | handingBack (state : HandBackState)
  | returning (state : HandBackState) (pending : List ArCvispBuffer)

def QueueOp.pending : QueueOp → List ArCvispBuffer
  | returning _ pending => pending
  | _ => []

/-- The driver, and the record of what vb2 has queued and of the calls of `vb2_buffer_done`. -/
structure CvispSystem where
  cv : ArCvisp
  op : QueueOp
  /-- The tick that has still to call `vb2_buffer_done`. -/
  completing : Option Completion
  /-- What vb2 has handed to the driver: the buffers in `VB2_BUF_STATE_ACTIVE`. -/
  owned : List ArCvispBuffer
  queued : List ArCvispBuffer
  returned : List BufferDone
  /-- Successful STREAMONs. -/
  stream : ℕ
  /-- Buffers armed. -/
  arms : ℕ
  armedAt : ℕ → ℕ

inductive CvispEvent
  | queue (buf : ArCvispBuffer)
  | streamOn (rotate chain : Bool) (inputStart ispStart : ℤ)
  | configureWrite
  | configured
  | start
  | streamOff
  | takeBuffers
  | handBack
  | tick (rotate : Bool)
  | tickDone
  deriving DecidableEq

namespace CvispSystem

def probed : CvispSystem :=
  { cv := .probed, op := .idle, completing := none, owned := [], queued := [], returned := []
    stream := 0, arms := 0, armedAt := fun _ => 0 }

/-- `ar_cvisp_arm_buffer` of a buffer. -/
def noteArmed (s : CvispSystem) : Option ArCvispBuffer → CvispSystem
  | none => s
  | some buf =>
    { s with
      arms := s.arms + 1
      armedAt := fun index => if index = buf.index then s.arms + 1 else s.armedAt index }

/-- The buffer that a tick arms. -/
def tickArms (s : CvispSystem) (rotate : Bool) : Option ArCvispBuffer :=
  if rotate && s.cv.streaming then s.cv.bufferList.head? else none

/-- A tick, up to its unlock. -/
def tick (depth : ℕ) (s : CvispSystem) (rotate : Bool) : CvispSystem :=
  let armed := s.noteArmed (s.tickArms rotate)
  let result := arCvispFrameTick depth rotate s.cv
  { armed with
    cv := result.1
    completing := result.2.map fun done =>
      { stream := s.stream, buffer := done.1, sequence := done.2
        armedAt := s.armedAt done.1.index, doneAt := armed.arms } }

/-- `vb2_buffer_done`.  For a buffer that is not active it only warns. -/
def giveBack (s : CvispSystem) (call : BufferDone) : CvispSystem :=
  { s with
    returned := s.returned ++ [call]
    owned := s.owned.filter fun buf => buf.index ≠ call.buffer.index }

/-- vb2 after `stop_streaming` or a `start_streaming` that failed: with a warning, it takes the
buffers back that are still active. -/
def reclaim (s : CvispSystem) : CvispSystem :=
  { s with returned := s.returned ++ s.owned.map .reclaimed, owned := [], op := .idle }

/-- `ar_cvisp_start_streaming` up to the configuration or its lock. -/
def streamOn (s : CvispSystem) (rotate chain : Bool) (inputStart ispStart : ℤ) : CvispSystem :=
  let chainStart := if chain then arCvispChainStart s.cv inputStart ispStart else (0, s.cv)
  if rotate = false then { s with op := .handingBack .queued }
  else if chainStart.1 ≠ 0 then { s with cv := chainStart.2, op := .handingBack .queued }
  else
    { s with
      cv := chainStart.2
      op := if s.cv.configured then .starting else .configuring arCvispSetupPlanes }

end CvispSystem

/-- vb2 queues no buffer that is active, and calls its operations one at a time.  The ticks come
one at a time too: the ISP holds its lock around the frame hook. -/
def cvispStep (depth : ℕ) (s : CvispSystem) : CvispEvent → Option CvispSystem
  | .queue buf =>
    match s.op with
    | .idle =>
      if buf.index ∈ s.owned.map (·.index) then none
      else
        some { s with
          cv := arCvispBufferQueue s.cv buf
          owned := s.owned ++ [buf]
          queued := s.queued ++ [buf] }
    | _ => none
  | .streamOn rotate chain inputStart ispStart =>
    match s.op with
    | .idle =>
      if s.cv.streaming then none else some (s.streamOn rotate chain inputStart ispStart)
    | _ => none
  | .configureWrite =>
    match s.op with
    | .configuring (write :: writes) =>
      some { s with
        cv := { s.cv with planes := s.cv.planes.write write }, op := .configuring writes }
    | _ => none
  | .configured =>
    match s.op with
    | .configuring [] => some { s with cv := arCvispConfigured s.cv, op := .starting }
    | _ => none
  | .start =>
    match s.op with
    | .starting =>
      match arCvispStreamOn s.cv with
      | none => some { s with op := .handingBack .queued }
      | some (first, cv) =>
        some { s.noteArmed (some first) with cv, op := .idle, stream := s.stream + 1 }
    | _ => none
  | .streamOff =>
    match s.op with
    | .idle =>
      if s.cv.streaming then
        some { s with cv := arCvispStreamOff s.cv, op := .handingBack .error }
      else none
    | _ => none
  | .takeBuffers =>
    match s.op with
    | .handingBack state =>
      some { s with
        cv := (arCvispTakeBuffers s.cv).2
        op := .returning state (arCvispTakeBuffers s.cv).1 }
    | _ => none
  | .handBack =>
    match s.op with
    | .returning _ [] => some s.reclaim
    | .returning state (buf :: pending) =>
      some { s.giveBack (.handedBack buf state) with op := .returning state pending }
    | _ => none
  | .tick rotate => if s.completing.isSome then none else some (s.tick depth rotate)
  | .tickDone =>
    match s.completing with
    | none => none
    | some c => some { s.giveBack (.done c) with completing := none }

end MlKernel.Media
