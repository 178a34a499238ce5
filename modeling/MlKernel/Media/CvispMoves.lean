import MlKernel.Media.Cvisp

/-!
# What a step moves

A step of the driver takes a buffer from one place to the next, or moves none.
`CvispMove` lists these moves with what the later proofs need of each, and every
step of the model is one of them.
-/

namespace MlKernel.Media

/-! ### The planes -/

/-- The planes are those of `held[0]` or of a ring slot, or were never written. -/
inductive PlanesOk (cv : ArCvisp) : Prop where
  | unwritten (never : cv.planes = .reset)
  | ring (slot : Fin 5) (programmed : cv.planes = .of (arCvispRing slot))
  | held (buf : ArCvispBuffer) (streaming : cv.streaming = true)
      (young : cv.held.head? = some (some buf)) (programmed : cv.planes = .of buf.plane)

theorem PlanesOk.of_same {cv cv' : ArCvisp} (ok : PlanesOk cv) (planes : cv'.planes = cv.planes)
    (held : cv'.held = cv.held) (streaming : cv'.streaming = cv.streaming) : PlanesOk cv' := by
  cases ok with
  | unwritten never => exact .unwritten (planes.trans never)
  | ring slot programmed => exact .ring slot (planes.trans programmed)
  | held buf on young programmed =>
      exact .held buf (streaming.trans on) (held ▸ young) (planes.trans programmed)

/-- Without a stream the planes are not those of a buffer. -/
theorem PlanesOk.of_stopped {cv cv' : ArCvisp} (ok : PlanesOk cv) (stopped : cv.streaming = false)
    (planes : cv'.planes = cv.planes) : PlanesOk cv' := by
  cases ok with
  | unwritten never => exact .unwritten (planes.trans never)
  | ring slot programmed => exact .ring slot (planes.trans programmed)
  | held buf on young programmed => exact absurd (stopped.symm.trans on) Bool.false_ne_true

/-- Some of the plane writes of `ar_cvisp_configure` are made, and not all. -/
def QueueOp.tableOpen : QueueOp → Bool
  | configuring writes => !writes.isEmpty && writes.length < arCvispSetupPlanes.length
  | _ => false

/-! ### The moves of the buffers -/

/-- `return_buffers` is not about to empty the queue and the pipeline. -/
def QueueOp.settled : QueueOp → Bool
  | handingBack _ => false
  | _ => true

/-- Neither the buffers nor the sequence number change. -/
structure SameBuffers (cv cv' : ArCvisp) : Prop where
  list : cv'.bufferList = cv.bufferList
  held : cv'.held = cv.held
  sequence : cv'.sequence = cv.sequence

theorem SameBuffers.refl (cv : ArCvisp) : SameBuffers cv cv := ⟨rfl, rfl, rfl⟩

/-- The operation goes on with no stream, and with nothing taken. -/
structure OpMoves (s : CvispSystem) (streaming : Bool) (op : QueueOp) : Prop where
  stopped : streaming = false
  taken : s.op.pending = []
  taken' : op.pending = []
  settled : op.settled = true → s.cv.streaming = false ∧ s.op.settled = true
  table : ∀ writes, op = .configuring writes → writes = arCvispSetupPlanes
  unreturned : ∀ state pending, op ≠ .returning state pending
  closed : s.op.tableOpen = false

/-- The pipeline moves up and takes the next buffer of the queue. -/
structure Arms (depth : ℕ) (cv : ArCvisp) (next : ArCvispBuffer) (cv' : ArCvisp) : Prop where
  list : cv.bufferList = next :: cv'.bufferList
  held : cv'.held = Pipeline.enter depth cv.held next
  streaming : cv.streaming = true
  streaming' : cv'.streaming = true
  planes : cv'.planes = .of next.plane
  sequence : cv'.sequence =
    if (Pipeline.leaving depth cv.held).isSome then cv.sequence + 1 else cv.sequence

/-- The completion that an arming tick decides. -/
def leaver (depth : ℕ) (s : CvispSystem) : Option Completion :=
  (Pipeline.leaving depth s.cv.held).map fun done =>
    { stream := s.stream, buffer := done, sequence := s.cv.sequence
      armedAt := s.armedAt done.index, doneAt := s.arms + 1 }

theorem leaver_buffer (depth : ℕ) (s : CvispSystem) :
    (leaver depth s).map (·.buffer) = Pipeline.leaving depth s.cv.held := by
  rw [leaver, Option.map_map]
  exact congrFun Option.map_id _

inductive CvispMove (depth : ℕ) (s : CvispSystem) : CvispEvent → CvispSystem → Prop
  | queued (buf : ArCvispBuffer) (idle : s.op = .idle)
      (fresh : buf.index ∉ s.owned.map (·.index)) :
      CvispMove depth s (.queue buf) { s with
        cv := arCvispBufferQueue s.cv buf
        owned := s.owned ++ [buf]
        queued := s.queued ++ [buf] }
  | ticked (rotate : Bool) (cv : ArCvisp) (free : s.completing = none) (same : SameBuffers s.cv cv)
      (goesOn : cv.streaming = s.cv.streaming) (planes : PlanesOk s.cv → PlanesOk cv) :
      CvispMove depth s (.tick rotate) { s with cv, completing := none }
  | moved (event : CvispEvent) (other : event ≠ .configureWrite) (cv : ArCvisp) (op : QueueOp)
      (same : SameBuffers s.cv cv) (moves : OpMoves s cv.streaming op)
      (planes : PlanesOk s.cv → PlanesOk cv) : CvispMove depth s event { s with cv, op }
  | wrote (write : PlaneWrite) (writes : List PlaneWrite)
      (configuring : s.op = .configuring (write :: writes)) :
      CvispMove depth s .configureWrite { s with
        cv := { s.cv with planes := s.cv.planes.write write }, op := .configuring writes }
  | started (first : ArCvispBuffer) (cv : ArCvisp) (starting : s.op = .starting)
      (on : arCvispStreamOn s.cv = some (first, cv)) :
      CvispMove depth s .start
        { s.noteArmed (some first) with cv, op := .idle, stream := s.stream + 1 }
  | armed (next : ArCvispBuffer) (cv : ArCvisp) (free : s.completing = none)
      (arms : Arms depth s.cv next cv) :
      CvispMove depth s (.tick true)
        { s.noteArmed (some next) with cv, completing := leaver depth s }
  | taken (state : HandBackState) (handing : s.op = .handingBack state) :
      CvispMove depth s .takeBuffers { s with
        cv := (arCvispTakeBuffers s.cv).2
        op := .returning state (arCvispTakeBuffers s.cv).1 }
  | handedBack (state : HandBackState) (buf : ArCvispBuffer) (pending : List ArCvispBuffer)
      (returning : s.op = .returning state (buf :: pending)) :
      CvispMove depth s .handBack
        { s.giveBack (.handedBack buf state) with op := .returning state pending }
  | completed (c : Completion) (completing : s.completing = some c) :
      CvispMove depth s .tickDone { s.giveBack (.done c) with completing := none }

section Moves

variable {depth : ℕ} {s next : CvispSystem} {event : CvispEvent}

theorem arCvispFrameTick_ring {cv : ArCvisp} (stopped : cv.streaming = false) :
    arCvispFrameTick depth true cv =
      ({ arCvispQueue cv with rotations := cv.rotations + 1 }, none) := by
  rw [arCvispFrameTick, if_neg (by decide), if_pos stopped]
  rfl

theorem arCvispFrameTick_drop {cv : ArCvisp} (streaming : cv.streaming = true)
    (empty : cv.bufferList = []) :
    arCvispFrameTick depth true cv = ({ cv with drops := cv.drops + 1 }, none) := by
  rw [arCvispFrameTick, if_neg (by decide), if_neg (by simp [streaming]), empty]

theorem arCvispFrameTick_arm (depth : ℕ) {cv : ArCvisp} {next : ArCvispBuffer}
    {rest : List ArCvispBuffer} (streaming : cv.streaming = true)
    (list : cv.bufferList = next :: rest) :
    ∃ cv', arCvispFrameTick depth true cv =
        (cv', (Pipeline.leaving depth cv.held).map fun done => (done, cv.sequence)) ∧
      Arms depth cv next cv' := by
  rw [arCvispFrameTick, if_neg (by decide), if_neg (by simp [streaming]), list]
  cases leaves : Pipeline.leaving depth cv.held with
  | none =>
      refine ⟨_, rfl, list, rfl, streaming, streaming, rfl, ?_⟩
      rw [leaves]
      rfl
  | some done =>
      refine ⟨_, rfl, list, rfl, streaming, streaming, rfl, ?_⟩
      rw [leaves]
      rfl

theorem tick_move (free : s.completing = none) (rotate : Bool) :
    CvispMove depth s (.tick rotate) (s.tick depth rotate) := by
  cases rotate with
  | false => exact .ticked false s.cv free (.refl s.cv) rfl id
  | true =>
      cases streaming : s.cv.streaming with
      | false =>
          have armsNone : s.tickArms true = none := by simp [CvispSystem.tickArms, streaming]
          rw [CvispSystem.tick, armsNone, arCvispFrameTick_ring streaming]
          exact .ticked true _ free ⟨rfl, rfl, rfl⟩ rfl fun _ => .ring s.cv.next rfl
      | true =>
          cases list : s.cv.bufferList with
          | nil =>
              have armsNone : s.tickArms true = none := by
                simp [CvispSystem.tickArms, streaming, list]
              rw [CvispSystem.tick, armsNone, arCvispFrameTick_drop streaming list]
              exact .ticked true _ free ⟨rfl, rfl, rfl⟩ rfl fun planes => planes.of_same rfl rfl rfl
          | cons next rest =>
              have armsNext : s.tickArms true = some next := by
                simp [CvispSystem.tickArms, streaming, list]
              rcases arCvispFrameTick_arm depth streaming list with ⟨cv', same, arms⟩
              rw [CvispSystem.tick, armsNext, same, Option.map_map]
              exact .armed next cv' free arms

theorem arCvispChainStart_cv (cv : ArCvisp) (inputStart ispStart : ℤ) :
    ∃ chainUp, (arCvispChainStart cv inputStart ispStart).2 = { cv with chainUp } := by
  rw [arCvispChainStart]
  split
  · exact ⟨cv.chainUp, rfl⟩
  · split
    · exact ⟨cv.chainUp, rfl⟩
    · split
      · exact ⟨cv.chainUp, rfl⟩
      · exact ⟨true, rfl⟩

/-- A STREAMON gives up, or goes on to configure the block or to take its first buffer. -/
theorem streamOn_eq (s : CvispSystem) (rotate chain : Bool) (inputStart ispStart : ℤ) :
    ∃ chainUp op, s.streamOn rotate chain inputStart ispStart =
        { s with cv := { s.cv with chainUp }, op } ∧
      (op = .handingBack .queued ∨ op = .starting ∨ op = .configuring arCvispSetupPlanes) := by
  have started : ∃ chainUp,
      (if chain then arCvispChainStart s.cv inputStart ispStart else (0, s.cv)).2 =
        { s.cv with chainUp } := by
    split
    · exact arCvispChainStart_cv s.cv inputStart ispStart
    · exact ⟨s.cv.chainUp, rfl⟩
  rw [CvispSystem.streamOn]
  generalize (if chain then arCvispChainStart s.cv inputStart ispStart else (0, s.cv)) =
    chainStart at started ⊢
  rcases started with ⟨chainUp, started⟩
  simp only [started]
  split
  · exact ⟨s.cv.chainUp, _, rfl, .inl rfl⟩
  · split
    · exact ⟨chainUp, _, rfl, .inl rfl⟩
    · refine ⟨chainUp, _, rfl, .inr ?_⟩
      split
      · exact .inl rfl
      · exact .inr rfl

theorem streamOn_move (idle : s.op = .idle) (stopped : s.cv.streaming = false)
    (rotate chain : Bool) (inputStart ispStart : ℤ) :
    CvispMove depth s (.streamOn rotate chain inputStart ispStart)
      (s.streamOn rotate chain inputStart ispStart) := by
  rcases streamOn_eq s rotate chain inputStart ispStart with ⟨chainUp, op, same, ops⟩
  rw [same]
  refine .moved _ (by nofun) _ op ⟨rfl, rfl, rfl⟩
    ⟨stopped, by rw [idle]; rfl, ?_, ?_, ?_, ?_, by rw [idle]; rfl⟩
    fun planes => planes.of_same rfl rfl rfl
  · rcases ops with rfl | rfl | rfl <;> rfl
  · intro _
    exact ⟨stopped, by rw [idle]; rfl⟩
  · intro writes configuring
    rcases ops with rfl | rfl | rfl
    · cases configuring
    · cases configuring
    · cases configuring
      rfl
  · intro state pending returning
    rcases ops with rfl | rfl | rfl <;> cases returning

/-- The driver has returned what it had. -/
def QueueOp.finishes : QueueOp → Bool
  | returning _ [] => true
  | _ => false

theorem reclaim_of_none (none : s.owned = []) : s.reclaim = { s with op := .idle } := by
  rw [CvispSystem.reclaim, none, List.map_nil, List.append_nil, ← none]

/-- Every step of the driver is a move, if it leaves no buffer to vb2 to take back. -/
theorem cvispStep_move (stopped : s.op ≠ .idle → s.cv.streaming = false)
    (returned : event = .handBack → s.op.finishes = true → s.owned = [])
    (step : cvispStep depth s event = some next) : CvispMove depth s event next := by
  cases event with
  | queue buf =>
      rw [cvispStep] at step
      split at step
      · next idle =>
          split at step
          · cases step
          · next fresh =>
              cases step
              exact .queued buf idle fresh
      · cases step
  | streamOn rotate chain inputStart ispStart =>
      rw [cvispStep] at step
      split at step
      · next idle =>
          split at step
          · cases step
          · next off =>
              cases step
              exact streamOn_move idle (Bool.eq_false_iff.mpr off) rotate chain inputStart ispStart
      · cases step
  | configureWrite =>
      rw [cvispStep] at step
      split at step
      · next write writes configuring =>
          cases step
          exact .wrote write writes configuring
      · cases step
  | configured =>
      rw [cvispStep] at step
      split at step
      · next configuring =>
          cases step
          have off := stopped (by rw [configuring]; nofun)
          exact .moved _ (by nofun) _ _ ⟨rfl, rfl, rfl⟩ ⟨off, by rw [configuring]; rfl, rfl,
            fun _ => ⟨off, by rw [configuring]; rfl⟩, nofun, nofun, by rw [configuring]; rfl⟩
            fun planes => planes.of_same rfl rfl rfl
      · cases step
  | start =>
      rw [cvispStep] at step
      split at step
      · next starting =>
          split at step
          · cases step
            have off := stopped (by rw [starting]; nofun)
            exact .moved _ (by nofun) _ _ (.refl s.cv)
              ⟨off, by rw [starting]; rfl, rfl, nofun, nofun, nofun, by rw [starting]; rfl⟩ id
          · next first cv on =>
              cases step
              exact .started first cv starting on
      · cases step
  | streamOff =>
      rw [cvispStep] at step
      split at step
      · next idle =>
          split at step
          · cases step
            exact .moved _ (by nofun) _ _ ⟨rfl, rfl, rfl⟩
              ⟨rfl, by rw [idle]; rfl, rfl, nofun, nofun, nofun, by rw [idle]; rfl⟩
              fun _ => .ring 0 rfl
          · cases step
      · cases step
  | takeBuffers =>
      rw [cvispStep] at step
      split at step
      · next state handing =>
          cases step
          exact .taken state handing
      · cases step
  | handBack =>
      rw [cvispStep] at step
      split at step
      · next state returning =>
          cases step
          have off := stopped (by rw [returning]; nofun)
          rw [reclaim_of_none (returned rfl (by rw [returning]; rfl))]
          exact .moved _ (by nofun) _ _ (.refl s.cv) ⟨off, by rw [returning]; rfl, rfl,
            fun _ => ⟨off, by rw [returning]; rfl⟩, nofun, nofun, by rw [returning]; rfl⟩ id
      · next state buf pending returning =>
          cases step
          exact .handedBack state buf pending returning
      · cases step
  | tick rotate =>
      rw [cvispStep] at step
      split at step
      · cases step
      · next free =>
          cases step
          exact tick_move (by simpa using free) rotate
  | tickDone =>
      rw [cvispStep] at step
      split at step
      · cases step
      · next c completing =>
          cases step
          exact .completed c completing

theorem arCvispStreamOn_some {cv cv' : ArCvisp} {first : ArCvispBuffer}
    (on : arCvispStreamOn cv = some (first, cv')) :
    cv.bufferList = first :: cv'.bufferList ∧ cv'.streaming = true ∧ cv'.sequence = 0 ∧
      cv'.held = some first :: List.replicate (arCvispMaxDepth - 1) none ∧
      cv'.planes = .of first.plane := by
  rw [arCvispStreamOn] at on
  split at on
  · cases on
  · next list =>
      cases on
      exact ⟨list, rfl, rfl, rfl, rfl⟩

end Moves

end MlKernel.Media
