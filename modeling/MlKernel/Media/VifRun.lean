import MlKernel.Media.Vif

/-!
# Every run of the capture front end

What a call in progress still has to do fits what is known of the block: registers are reached only
while the clock runs, and by the call only while the completion path is disarmed.  The steps of the
handler and the work keep that, so that it holds in any order of steps.
-/

namespace MlKernel.Media.Vif

/-! ### What a call may do -/

/-- What is known of the block and of the driver. -/
structure Mode where
  present : Bool
  clocked : Bool
  armed : Bool
  streaming : Bool
  /-- The AXI master is stopped. -/
  quiet : Bool
  /-- An interrupt was counted since the bring-up began. -/
  live : Bool

/-- The input path is up, if perhaps not yet live. -/
structure Mode.Up (m : Mode) : Prop where
  present : m.present = true
  clocked : m.clocked = true
  armed : m.armed = true
  streaming : m.streaming = true

/-- Between calls the input path is all up or all down, unless the driver was removed. -/
structure Mode.Settled (useIrq : Bool) (m : Mode) : Prop where
  whole : m.present = true → m.streaming = m.clocked ∧ m.armed = m.clocked
  removed : m.present = false → m.streaming = false
  live : useIrq = true → m.streaming = true → m.live = true

def axiMaster : BitVec 32 := arVifAxiRun ||| arVifAxiEnable

def RegOp.offset : RegOp → ℕ
  | .read offset | .write offset _ | .update offset _ _ | .ack offset | .pulse offset _
  | .latch offset _ => offset

/-- Whether an operation on its own register leaves the AXI master stopped. -/
def RegOp.stops (quiet : Bool) : RegOp → Bool
  | .read _ => quiet
  | .update _ clear set => decide (clear = axiMaster ∧ set = 0)
  | .write _ _ | .ack _ | .pulse _ _ | .latch _ _ => false

/-- Whether the AXI master is stopped after an operation. -/
def RegOp.quiets (quiet : Bool) (op : RegOp) : Bool :=
  if op.offset = arVifAxiConfig then op.stops quiet else quiet

/-- The rest of a call fits what is known ahead of it.  With `strict`, a call that reports that the
input path is up has it up. -/
def Fits (useIrq : Bool) (strict : Prop) : Mode → List Instr → Prop
  | m, [] => m.Settled useIrq
  | m, .clkEnable :: rest =>
      m.present = true ∧ m.clocked = false ∧ m.armed = false ∧ m.streaming = false ∧
        Fits useIrq strict { m with clocked := true } rest
  | m, .program _ :: rest =>
      m.clocked = true ∧ m.armed = false ∧ ∀ quiet, Fits useIrq strict { m with quiet } rest
  | m, .reg op :: rest =>
      m.clocked = true ∧ m.armed = false ∧
        Fits useIrq strict { m with quiet := op.quiets m.quiet } rest
  | m, .setStreaming streaming :: rest => Fits useIrq strict { m with streaming } rest
  | m, .arm :: rest => m.clocked = true ∧ Fits useIrq strict { m with armed := true } rest
  | m, .disarm :: rest => Fits useIrq strict { m with armed := false } rest
  | m, .cancelWork :: rest => Fits useIrq strict { m with armed := m.armed && useIrq } rest
  | m, .streamOn :: rest => m.Up ∧ Fits useIrq strict m rest
  | m, .streamOff :: rest => Fits useIrq strict m rest
  | m, .wait _ _ :: _ => m.Up
  | m, .clkDisable :: rest =>
      m.clocked = true ∧ m.armed = false ∧ m.quiet = true ∧
        Fits useIrq strict { m with clocked := false } rest
  | m, .ispPipelineStart :: _ => m.Settled useIrq ∧ (strict → m.streaming = true)
  | m, .finish ret :: _ =>
      m.Settled useIrq ∧ (strict → ret = 0 ∨ ret = -ebusy → m.streaming = true)

section Fits

variable {useIrq : Bool} {strict : Prop} {m : Mode}

theorem fits_regs {ops : List RegOp} {rest : List Instr} (clocked : m.clocked = true)
    (disarmed : m.armed = false)
    (fits : Fits useIrq strict { m with quiet := ops.foldl RegOp.quiets m.quiet } rest) :
    Fits useIrq strict m (ops.map .reg ++ rest) := by
  induction ops generalizing m with
  | nil => exact fits
  | cons op ops ih => exact ⟨clocked, disarmed, ih clocked disarmed fits⟩

theorem stop_quiets (quiet : Bool) : arVifStop.foldl RegOp.quiets quiet = true := by
  cases quiet <;> decide

theorem fits_inputOn (present : m.present = true) (clocked : m.clocked = false)
    (disarmed : m.armed = false) (down : m.streaming = false)
    (geometry : Option (BitVec 32 × BitVec 32)) (before : BitVec 32) :
    Fits useIrq strict m (inputOn geometry before) :=
  ⟨present, clocked, disarmed, down, rfl, disarmed, fun _ =>
    ⟨rfl, ⟨present, rfl, rfl, rfl⟩, present, rfl, rfl, rfl⟩⟩

theorem fits_stop {rest : List Instr} (clocked : m.clocked = true) (disarmed : m.armed = false)
    (fits : Fits useIrq strict { m with clocked := false, quiet := true } rest) :
    Fits useIrq strict m (arVifStop.map .reg ++ .clkDisable :: rest) := by
  apply fits_regs clocked disarmed
  rw [stop_quiets]
  exact ⟨clocked, disarmed, rfl, fits⟩

theorem settled_down (clocked : m.clocked = false)
    (disarmed : m.armed = false) (down : m.streaming = false) : m.Settled useIrq := by
  refine ⟨fun _ => ⟨down.trans clocked.symm, disarmed.trans clocked.symm⟩, fun _ => down, ?_⟩
  intro _ up
  exact absurd (down.symm.trans up) Bool.false_ne_true

theorem Mode.Up.settled (up : m.Up) (live : useIrq = true → m.live = true) : m.Settled useIrq :=
  ⟨fun _ => ⟨up.streaming.trans up.clocked.symm, up.armed.trans up.clocked.symm⟩,
    fun removed => absurd (removed.symm.trans up.present) Bool.false_ne_true,
    fun byIrq _ => live byIrq⟩

theorem fits_inputUndo (up : m.Up) {ret : ℤ} (failed : strict → ret ≠ 0 ∧ ret ≠ -ebusy) :
    Fits useIrq strict m (inputUndo ret) := by
  rw [inputUndo, List.append_assoc]
  refine fits_stop up.clocked rfl ⟨settled_down rfl rfl rfl, ?_⟩
  intro honest good
  rcases good with zero | busy
  · exact absurd zero (failed honest).1
  · exact absurd busy (failed honest).2

theorem fits_inputOff (up : m.Up) {rest : List Instr}
    (fits : ∀ m : Mode, m.present = true → m.clocked = false → m.armed = false →
      m.streaming = false → Fits useIrq strict m rest) :
    Fits useIrq strict m (inputOff ++ rest) := by
  rw [inputOff, List.append_assoc, List.append_assoc]
  exact fits_stop up.clocked rfl (fits _ up.present rfl rfl rfl)

/-- Where the path is up between calls, all of it is. -/
theorem Mode.Settled.up (settled : m.Settled useIrq) (streaming : m.streaming = true) : m.Up := by
  have present : m.present = true := by
    cases here : m.present with
    | true => rfl
    | false => exact absurd ((settled.removed here).symm.trans streaming) Bool.false_ne_true
  rcases settled.whole present with ⟨isClocked, isArmed⟩
  exact ⟨present, isClocked.symm.trans streaming, isArmed.trans (isClocked.symm.trans streaming),
    streaming⟩

end Fits

/-! ### The block and the driver as they are -/

def Phase.Reschedules : Phase → Prop
  | .serving _ todo => SvcOp.reschedule ∈ todo
  | _ => False

/-- Of the two completion paths, the one that is not used rests. -/
structure OnePath (params : Params) (s : ArVif) : Prop where
  byIrq : params.useIrq = true → s.work = .idle ∧ s.workPending = false
  byWork : params.useIrq = false → s.handler = .idle ∧ s.irqEnabled = false
  handler : ¬s.handler.Reschedules

structure Disarmed (s : ArVif) : Prop where
  irq : s.irqEnabled = false
  timer : s.workPending = false
  handler : s.handler = .idle
  work : s.work = .idle

structure Agrees (s : ArVif) (m : Mode) : Prop where
  clk : s.clk = if m.clocked then 1 else 0
  streaming : s.streaming = m.streaming
  present : s.present = m.present
  quiet : m.quiet = true → s.regs arVifAxiConfig &&& axiMaster = 0
  live : m.live = true → 0 < s.serviced
  powered : m.armed = true → m.clocked = true
  disarmed : m.armed = false → Disarmed s

structure Sound (params : Params) (strict : Prop) (s : ArVif) : Prop where
  path : OnePath params s
  counted : ∀ left before, .wait left before ∈ s.prog →
    s.irqEvents = before + BitVec.ofNat 32 s.serviced
  fits : ∃ m, Agrees s m ∧ Fits params.useIrq strict m s.prog

theorem axiConfig_plain : arVifAxiConfig ∉ statusWords := by decide

theorem write_of_ne {regs : Regs} {offset other : ℕ} (apart : other ≠ offset) (value : BitVec 32) :
    arVifWrite regs offset value other = regs other :=
  Function.update_of_ne apart _ _

theorem RegOp.run_of_ne (regs : Regs) {op : RegOp} {other : ℕ} (apart : other ≠ op.offset) :
    op.run regs other = regs other := by
  cases op with
  | read offset => rfl
  | write offset value => exact write_of_ne apart _
  | update offset clear set => exact write_of_ne apart _
  | ack offset => exact write_of_ne apart _
  | pulse offset bit => exact (write_of_ne apart _).trans (write_of_ne apart _)
  | latch offset bit => exact (write_of_ne apart _).trans (write_of_ne apart _)

theorem RegOp.run_quiets {regs : Regs} {quiet : Bool}
    (before : quiet = true → regs arVifAxiConfig &&& axiMaster = 0) (op : RegOp)
    (after : op.quiets quiet = true) : op.run regs arVifAxiConfig &&& axiMaster = 0 := by
  by_cases here : op.offset = arVifAxiConfig
  · rw [quiets, if_pos here] at after
    cases op with
    | read offset => exact before after
    | update at' clear set =>
        obtain rfl : at' = arVifAxiConfig := here
        rw [stops, decide_eq_true_eq] at after
        have zero : (0 : BitVec 32) = 0#32 := rfl
        rw [run, arVifWrite, Function.update_self, if_neg axiConfig_plain, after.1, after.2, zero,
          BitVec.or_zero, BitVec.and_assoc, BitVec.not_and_self]
        exact BitVec.and_zero
    | write | ack | pulse | latch => exact absurd after Bool.false_ne_true
  · rw [quiets, if_neg here] at after
    rw [run_of_ne regs (Ne.symm here)]
    exact before after

/-! ### The steps of a call -/

section MainStep

variable {params : Params} {strict : Prop} {s after : ArVif} {m : Mode}

/-- A step that leaves the handler and the work as they are. -/
theorem OnePath.of_same (path : OnePath params s) (work : after.work = s.work)
    (timer : after.workPending = s.workPending) (handler : after.handler = s.handler)
    (irq : after.irqEnabled = s.irqEnabled) : OnePath params after := by
  refine ⟨?_, ?_, ?_⟩
  · rw [work, timer]
    exact path.byIrq
  · rw [handler, irq]
    exact path.byWork
  · rw [handler]
    exact path.handler

theorem Disarmed.of_same (disarmed : Disarmed s) (work : after.work = s.work)
    (timer : after.workPending = s.workPending) (handler : after.handler = s.handler)
    (irq : after.irqEnabled = s.irqEnabled) : Disarmed after :=
  ⟨irq.trans disarmed.irq, timer.trans disarmed.timer, handler.trans disarmed.handler,
    work.trans disarmed.work⟩

theorem Agrees.of_same (agrees : Agrees s m) (clk : after.clk = s.clk)
    (streaming : after.streaming = s.streaming) (present : after.present = s.present)
    (regs : after.regs = s.regs) (serviced : after.serviced = s.serviced)
    (work : after.work = s.work) (timer : after.workPending = s.workPending)
    (handler : after.handler = s.handler) (irq : after.irqEnabled = s.irqEnabled) :
    Agrees after m := by
  refine ⟨clk.trans agrees.clk, streaming.trans agrees.streaming, present.trans agrees.present,
    ?_, ?_, agrees.powered, fun off => (agrees.disarmed off).of_same work timer handler irq⟩
  · rw [regs]
    exact agrees.quiet
  · rw [serviced]
    exact agrees.live

/-- What is still to come of a call was to come before. -/
def Follows (s after : ArVif) : Prop :=
  ∀ left before, .wait left before ∈ after.prog → ∃ left, .wait left before ∈ s.prog

theorem Follows.tail {instr : Instr} (progAt : s.prog = instr :: after.prog) : Follows s after := by
  intro left before member
  rw [progAt]
  exact ⟨left, List.mem_cons_of_mem _ member⟩

theorem Follows.of_no_wait (none : ∀ left before, .wait left before ∉ after.prog) :
    Follows s after :=
  fun left before member => absurd member (none left before)

theorem Sound.follow (sound : Sound params strict s) (path : OnePath params after)
    (follows : Follows s after) (events : after.irqEvents = s.irqEvents)
    (serviced : after.serviced = s.serviced) (agrees : Agrees after m)
    (fits : Fits params.useIrq strict m after.prog) : Sound params strict after := by
  refine ⟨path, ?_, m, agrees, fits⟩
  intro left before member
  rcases follows left before member with ⟨earlier, inProg⟩
  rw [events, serviced]
  exact sound.counted earlier before inProg

theorem no_wait_regs (ops : List RegOp) (left : ℕ) (before : BitVec 32) :
    .wait left before ∉ ops.map Instr.reg := by
  simp

theorem Sound.clkEnable (sound : Sound params strict s) {rest : List Instr}
    (progAt : s.prog = .clkEnable :: rest) {answer : ℤ} (honest : strict → answer ≠ -ebusy)
    (done : mainStep params s answer = some after) : Sound params strict after := by
  rcases sound.fits with ⟨m, agrees, fits⟩
  rw [progAt] at fits
  rcases fits with ⟨present, clocked, disarmed, down, fits⟩
  simp only [mainStep, progAt] at done
  split at done
  · cases done
    refine sound.follow (sound.path.of_same rfl rfl rfl rfl) (.tail progAt) rfl rfl ?_ fits
    exact { agrees with
      clk := by simp [agrees.clk, clocked]
      powered := fun _ => rfl
      disarmed := fun off => (agrees.disarmed off).of_same rfl rfl rfl rfl }
  · next refused =>
    cases done
    refine sound.follow (sound.path.of_same rfl rfl rfl rfl) (.of_no_wait (by simp)) rfl rfl
      (agrees.of_same rfl rfl rfl rfl rfl rfl rfl rfl rfl) ⟨settled_down clocked disarmed down, ?_⟩
    rintro strictly (zero | busy)
    · exact absurd zero refused
    · exact absurd busy (honest strictly)

theorem Sound.program (sound : Sound params strict s) {rest : List Instr}
    {geometry : Option (BitVec 32 × BitVec 32)} (progAt : s.prog = .program geometry :: rest)
    {answer : ℤ} (done : mainStep params s answer = some after) : Sound params strict after := by
  rcases sound.fits with ⟨m, agrees, fits⟩
  rw [progAt] at fits
  rcases fits with ⟨clocked, disarmed, fits⟩
  simp only [mainStep, progAt] at done
  cases done
  refine sound.follow (sound.path.of_same rfl rfl rfl rfl) ?_ rfl rfl
    (agrees.of_same rfl rfl rfl rfl rfl rfl rfl rfl rfl) (fits_regs clocked disarmed (fits _))
  intro left before member
  rcases List.mem_append.mp member with inOps | inRest
  · exact absurd inOps (no_wait_regs _ _ _)
  · rw [progAt]
    exact ⟨left, List.mem_cons_of_mem _ inRest⟩

theorem Sound.reg (sound : Sound params strict s) {rest : List Instr} {op : RegOp}
    (progAt : s.prog = .reg op :: rest) {answer : ℤ}
    (done : mainStep params s answer = some after) : Sound params strict after := by
  rcases sound.fits with ⟨m, agrees, fits⟩
  rw [progAt] at fits
  simp only [mainStep, progAt] at done
  cases done
  refine sound.follow (sound.path.of_same rfl rfl rfl rfl) (.tail progAt) rfl rfl ?_ fits.2.2
  exact { agrees with
    quiet := op.run_quiets agrees.quiet
    disarmed := fun off => (agrees.disarmed off).of_same rfl rfl rfl rfl }

theorem Sound.setStreaming (sound : Sound params strict s) {rest : List Instr} {streaming : Bool}
    (progAt : s.prog = .setStreaming streaming :: rest) {answer : ℤ}
    (done : mainStep params s answer = some after) : Sound params strict after := by
  rcases sound.fits with ⟨m, agrees, fits⟩
  rw [progAt] at fits
  simp only [mainStep, progAt] at done
  cases done
  refine sound.follow (sound.path.of_same rfl rfl rfl rfl) (.tail progAt) rfl rfl ?_ fits
  exact { agrees with
    streaming := rfl
    disarmed := fun off => (agrees.disarmed off).of_same rfl rfl rfl rfl }

theorem Sound.arm (sound : Sound params strict s) {rest : List Instr}
    (progAt : s.prog = .arm :: rest) {answer : ℤ}
    (done : mainStep params s answer = some after) : Sound params strict after := by
  rcases sound.fits with ⟨m, agrees, fits⟩
  rw [progAt] at fits
  rcases fits with ⟨clocked, fits⟩
  simp only [mainStep, progAt] at done
  split at done
  next byIrq =>
    cases done
    refine sound.follow ⟨sound.path.byIrq, ?_, sound.path.handler⟩ (.tail progAt) rfl rfl ?_ fits
    · intro byWork
      exact absurd (byWork.symm.trans byIrq) Bool.false_ne_true
    · exact { agrees with powered := fun _ => clocked, disarmed := nofun }
  next byWork =>
    cases done
    refine sound.follow ⟨fun byIrq => absurd byIrq byWork, sound.path.byWork, sound.path.handler⟩
      (.tail progAt) rfl rfl ?_ fits
    exact { agrees with powered := fun _ => clocked, disarmed := nofun }

theorem Sound.disarm (sound : Sound params strict s) {rest : List Instr}
    (progAt : s.prog = .disarm :: rest) {answer : ℤ}
    (done : mainStep params s answer = some after) : Sound params strict after := by
  rcases sound.fits with ⟨m, agrees, fits⟩
  rw [progAt] at fits
  simp only [mainStep, progAt] at done
  split at done
  next byIrq =>
    split at done
    next resting =>
      cases done
      rcases sound.path.byIrq byIrq with ⟨noWork, noTimer⟩
      refine sound.follow ⟨sound.path.byIrq, ?_, sound.path.handler⟩ (.tail progAt) rfl rfl ?_ fits
      · intro byWork
        exact absurd (byWork.symm.trans byIrq) Bool.false_ne_true
      · exact { agrees with
          powered := nofun
          disarmed := fun _ => ⟨rfl, noTimer, resting, noWork⟩ }
    next => cases done
  next byWork =>
    split at done
    next resting =>
      cases done
      rcases sound.path.byWork (by simpa using byWork) with ⟨noHandler, noIrq⟩
      refine sound.follow ⟨fun byIrq => absurd byIrq byWork, sound.path.byWork, sound.path.handler⟩
        (.tail progAt) rfl rfl ?_ fits
      exact { agrees with
        powered := nofun
        disarmed := fun _ => ⟨noIrq, rfl, noHandler, resting⟩ }
    next => cases done

theorem Sound.cancelWork (sound : Sound params strict s) {rest : List Instr}
    (progAt : s.prog = .cancelWork :: rest) {answer : ℤ}
    (done : mainStep params s answer = some after) : Sound params strict after := by
  rcases sound.fits with ⟨m, agrees, fits⟩
  rw [progAt] at fits
  simp only [mainStep, progAt] at done
  split at done
  next resting =>
    cases done
    have path : OnePath params { s with workPending := false, prog := rest } :=
      ⟨fun byIrq => ⟨(sound.path.byIrq byIrq).1, rfl⟩, sound.path.byWork, sound.path.handler⟩
    refine sound.follow path (.tail progAt) rfl rfl ?_ fits
    refine { agrees with powered := ?_, disarmed := ?_ }
    · intro armed
      exact agrees.powered (Bool.and_eq_true_iff.mp armed).1
    · intro off
      cases byIrq : params.useIrq with
      | true =>
          have stillOff : m.armed = false := by simpa [byIrq] using off
          have disarmed := agrees.disarmed stillOff
          exact ⟨disarmed.irq, rfl, disarmed.handler, disarmed.work⟩
      | false =>
          rcases sound.path.byWork byIrq with ⟨noHandler, noIrq⟩
          exact ⟨noIrq, rfl, noHandler, resting⟩
  next => cases done

theorem no_wait_inputOff (left : ℕ) (before : BitVec 32) : .wait left before ∉ inputOff := by
  simp [inputOff]

theorem Sound.streamOn (sound : Sound params strict s) {rest : List Instr}
    (progAt : s.prog = .streamOn :: rest) {answer : ℤ} (honest : strict → answer ≠ -ebusy)
    (done : mainStep params s answer = some after) : Sound params strict after := by
  rcases sound.fits with ⟨m, agrees, fits⟩
  rw [progAt] at fits
  rcases fits with ⟨up, fits⟩
  simp only [mainStep, progAt] at done
  split at done
  · cases done
    exact sound.follow (sound.path.of_same rfl rfl rfl rfl) (.tail progAt) rfl rfl
      (agrees.of_same rfl rfl rfl rfl rfl rfl rfl rfl rfl) fits
  · next refused =>
    cases done
    exact sound.follow (sound.path.of_same rfl rfl rfl rfl) (.of_no_wait (by simp [inputUndo])) rfl
      rfl (agrees.of_same rfl rfl rfl rfl rfl rfl rfl rfl rfl)
      (fits_inputUndo up fun strictly => ⟨refused, honest strictly⟩)

theorem Sound.streamOff (sound : Sound params strict s) {rest : List Instr}
    (progAt : s.prog = .streamOff :: rest) {answer : ℤ}
    (done : mainStep params s answer = some after) : Sound params strict after := by
  rcases sound.fits with ⟨m, agrees, fits⟩
  rw [progAt] at fits
  simp only [mainStep, progAt] at done
  cases done
  exact sound.follow (sound.path.of_same rfl rfl rfl rfl) (.tail progAt) rfl rfl
    (agrees.of_same rfl rfl rfl rfl rfl rfl rfl rfl rfl) fits

theorem Sound.clkDisable (sound : Sound params strict s) {rest : List Instr}
    (progAt : s.prog = .clkDisable :: rest) {answer : ℤ}
    (done : mainStep params s answer = some after) : Sound params strict after := by
  rcases sound.fits with ⟨m, agrees, fits⟩
  rw [progAt] at fits
  rcases fits with ⟨clocked, disarmed, quiet, fits⟩
  simp only [mainStep, progAt] at done
  cases done
  refine sound.follow (sound.path.of_same rfl rfl rfl rfl) (.tail progAt) rfl rfl ?_ fits
  exact { agrees with
    clk := by simp [agrees.clk, clocked]
    powered := fun armed => absurd (disarmed.symm.trans armed) Bool.false_ne_true
    disarmed := fun off => (agrees.disarmed off).of_same rfl rfl rfl rfl }

/-- An interrupt counted since the wait began was counted since the bring-up began. -/
theorem serviced_pos {left : ℕ} {before : BitVec 32} (sound : Sound params strict s)
    (waiting : .wait left before ∈ s.prog) (changed : s.irqEvents ≠ before) : 0 < s.serviced := by
  apply Nat.pos_of_ne_zero
  intro none
  apply changed
  rw [sound.counted left before waiting, none]
  exact BitVec.add_zero before

theorem Sound.wait (sound : Sound params strict s) {rest : List Instr} {left : ℕ}
    {before : BitVec 32} (progAt : s.prog = .wait left before :: rest) {answer : ℤ}
    (done : mainStep params s answer = some after) : Sound params strict after := by
  rcases sound.fits with ⟨m, agrees, fits⟩
  rw [progAt] at fits
  have up : m.Up := fits
  have inProg : .wait left before ∈ s.prog := progAt ▸ List.mem_cons_self
  cases left with
  | zero =>
      simp only [mainStep, progAt] at done
      split at done
      next byIrq =>
        cases done
        have streaming : s.streaming = true := agrees.streaming.trans up.streaming
        refine sound.follow (sound.path.of_same rfl rfl rfl rfl) (.of_no_wait ?_) rfl rfl
          (agrees.of_same rfl rfl rfl rfl rfl rfl rfl rfl rfl) ?_
        · simp [streaming, no_wait_inputOff]
        · simp only [streaming, if_true]
          refine fits_inputOff up fun down present clocked disarmed gone =>
            ⟨settled_down clocked disarmed gone, ?_⟩
          rintro - (timedOut | timedOut) <;> exact absurd timedOut (by decide)
      next byWork =>
        cases done
        refine sound.follow (sound.path.of_same rfl rfl rfl rfl) (.of_no_wait (by simp)) rfl rfl
          (agrees.of_same rfl rfl rfl rfl rfl rfl rfl rfl rfl)
          ⟨up.settled fun byIrq => absurd byIrq byWork, fun _ _ => up.streaming⟩
  | succ left =>
      simp only [mainStep, progAt] at done
      split at done
      next event =>
        cases done
        have live := serviced_pos sound inProg event.2
        have upLive : { m with live := true }.Up := ⟨up.present, up.clocked, up.armed, up.streaming⟩
        refine sound.follow (sound.path.of_same rfl rfl rfl rfl) (.of_no_wait (by simp)) rfl rfl
          (m := { m with live := true }) ?_ ⟨upLive.settled fun _ => rfl, fun _ _ => up.streaming⟩
        exact { agrees with
          live := fun _ => live
          disarmed := fun off => (agrees.disarmed off).of_same rfl rfl rfl rfl }
      next =>
        cases done
        refine sound.follow (sound.path.of_same rfl rfl rfl rfl) ?_ rfl rfl
          (agrees.of_same rfl rfl rfl rfl rfl rfl rfl rfl rfl) up
        intro other earlier member
        cases List.mem_singleton.mp member
        exact ⟨_, inProg⟩

theorem Sound.ispPipelineStart (sound : Sound params strict s) {rest : List Instr}
    (progAt : s.prog = .ispPipelineStart :: rest) {answer : ℤ}
    (done : mainStep params s answer = some after) : Sound params strict after := by
  rcases sound.fits with ⟨m, agrees, fits⟩
  rw [progAt] at fits
  simp only [mainStep, progAt] at done
  split at done <;> cases done <;>
    exact sound.follow (sound.path.of_same rfl rfl rfl rfl) (.of_no_wait (by simp)) rfl rfl
      (agrees.of_same rfl rfl rfl rfl rfl rfl rfl rfl rfl) fits.1

theorem Sound.finish (sound : Sound params strict s) {rest : List Instr} {ret : ℤ}
    (progAt : s.prog = .finish ret :: rest) {answer : ℤ}
    (done : mainStep params s answer = some after) : Sound params strict after := by
  rcases sound.fits with ⟨m, agrees, fits⟩
  rw [progAt] at fits
  rcases fits with ⟨settled, streaming⟩
  simp only [mainStep, progAt] at done
  split at done
  next =>
    cases done
    exact sound.follow (sound.path.of_same rfl rfl rfl rfl) (.of_no_wait (by simp)) rfl rfl
      (agrees.of_same rfl rfl rfl rfl rfl rfl rfl rfl rfl) settled
  next =>
    split at done
    next good =>
      cases done
      exact sound.follow (sound.path.of_same rfl rfl rfl rfl) (.of_no_wait (by simp)) rfl rfl
        (agrees.of_same rfl rfl rfl rfl rfl rfl rfl rfl rfl)
        ⟨settled, fun strictly => streaming strictly good⟩
    next =>
      cases done
      exact sound.follow (sound.path.of_same rfl rfl rfl rfl) (.of_no_wait (by simp)) rfl rfl
        (agrees.of_same rfl rfl rfl rfl rfl rfl rfl rfl rfl) settled

theorem Sound.main (sound : Sound params strict s) {answer : ℤ}
    (honest : strict → answer ≠ -ebusy) (done : mainStep params s answer = some after) :
    Sound params strict after := by
  cases progAt : s.prog with
  | nil =>
      simp only [mainStep, progAt] at done
      cases done
  | cons instr rest =>
      cases instr with
      | clkEnable => exact sound.clkEnable progAt honest done
      | program geometry => exact sound.program progAt done
      | reg op => exact sound.reg progAt done
      | setStreaming streaming => exact sound.setStreaming progAt done
      | arm => exact sound.arm progAt done
      | disarm => exact sound.disarm progAt done
      | cancelWork => exact sound.cancelWork progAt done
      | streamOn => exact sound.streamOn progAt honest done
      | streamOff => exact sound.streamOff progAt done
      | wait left before => exact sound.wait progAt done
      | clkDisable => exact sound.clkDisable progAt done
      | ispPipelineStart => exact sound.ispPipelineStart progAt done
      | finish ret => exact sound.finish progAt done

end MainStep

/-! ### The steps of the handler and the work -/

section Service

variable {params : Params} {strict : Prop} {s after : ArVif} {m : Mode}

/-- What a step of the handler or the work leaves, whatever it does. -/
structure Serves (s after : ArVif) : Prop where
  clk : after.clk = s.clk
  streaming : after.streaming = s.streaming
  present : after.present = s.present
  prog : after.prog = s.prog
  handler : after.handler = s.handler
  work : after.work = s.work
  irqEnabled : after.irqEnabled = s.irqEnabled
  axi : after.regs arVifAxiConfig = s.regs arVifAxiConfig
  serviced : s.serviced ≤ after.serviced
  counted : ∀ before, s.irqEvents = before + BitVec.ofNat 32 s.serviced →
    after.irqEvents = before + BitVec.ofNat 32 after.serviced

theorem Serves.refl (s : ArVif) : Serves s s :=
  ⟨rfl, rfl, rfl, rfl, rfl, rfl, rfl, rfl, Nat.le_refl _, fun _ counted => counted⟩

/-- A step that writes registers other than the AXI master's. -/
theorem Serves.of_regs {regs : Regs} (axi : regs arVifAxiConfig = s.regs arVifAxiConfig) :
    Serves s { s with regs } :=
  { Serves.refl s with axi }

theorem svcStep_serves (s : ArVif) (status : Status) (op : SvcOp) :
    Serves s (svcStep s status op).1 := by
  cases op with
  | look | sampleBp | sampleIntr | sampleFull => exact .refl s
  | judge =>
      rw [svcStep]
      split
      · exact .refl s
      · refine { Serves.refl s with serviced := Nat.le_succ _, counted := ?_ }
        intro before counted
        simp only [counted, BitVec.ofNat_add, BitVec.add_assoc]
        rfl
  | ackBp =>
      rw [svcStep]
      split
      · exact .refl s
      · exact .of_regs (write_of_ne (by decide) _)
  | ackIntr =>
      rw [svcStep]
      split
      · exact .refl s
      · exact .of_regs (write_of_ne (by decide) _)
  | ackFull =>
      rw [svcStep]
      split
      · exact .refl s
      · exact .of_regs (write_of_ne (by decide) _)
  | recover =>
      rw [svcStep]
      split
      · exact .refl s
      · exact .of_regs (RegOp.run_of_ne s.regs (by decide))
  | account =>
      rw [svcStep]
      split
      · exact .refl s
      · exact { Serves.refl s with }
  | reschedule => exact { Serves.refl s with }

theorem svcStep_pending (s : ArVif) (status : Status) {op : SvcOp} (plain : op ≠ .reschedule) :
    (svcStep s status op).1.workPending = s.workPending := by
  cases op with
  | look | sampleBp | sampleIntr | sampleFull => rfl
  | judge | ackBp | ackIntr | ackFull | recover | account =>
      rw [svcStep]
      split <;> rfl
  | reschedule => exact absurd rfl plain

theorem not_reschedules {todo : List SvcOp} (plain : SvcOp.reschedule ∉ todo) (status : Status)
    (more : Bool) : ¬(if more then Phase.serving status todo else .idle).Reschedules := by
  cases more
  · exact id
  · exact plain

/-- A step past the check, on its way through what is left to do. -/
theorem phaseStep_serves {ops : List SvcOp} {phase next : Phase}
    (done : phaseStep ops s phase = some (after, next)) :
    Serves s after ∧ (SvcOp.reschedule ∉ ops → ¬phase.Reschedules →
      after.workPending = s.workPending ∧ ¬next.Reschedules) := by
  cases phase with
  | idle => cases done
  | entered =>
      cases done
      exact ⟨.refl s, fun plain _ => ⟨rfl, not_reschedules plain _ _⟩⟩
  | serving status todo =>
      cases todo with
      | nil =>
          cases done
          exact ⟨.refl s, fun _ _ => ⟨rfl, id⟩⟩
      | cons op todo =>
          cases done
          refine ⟨svcStep_serves s status op, fun _ plain => ?_⟩
          have plainOp : op ≠ .reschedule := fun same => plain (same ▸ List.mem_cons_self)
          have plainRest : SvcOp.reschedule ∉ todo := fun later =>
            plain (List.mem_cons_of_mem _ later)
          exact ⟨svcStep_pending s status plainOp, not_reschedules plainRest _ _⟩

/-- A path that runs is armed. -/
theorem Agrees.armed (agrees : Agrees s m) (running : s.handler ≠ .idle ∨ s.work ≠ .idle ∨
    s.irqEnabled = true ∨ s.workPending = true) : m.armed = true := by
  cases armed : m.armed with
  | true => rfl
  | false =>
      have off := agrees.disarmed armed
      rcases running with handler | work | irq | timer
      · exact absurd off.handler handler
      · exact absurd off.work work
      · exact absurd (off.irq.symm.trans irq) Bool.false_ne_true
      · exact absurd (off.timer.symm.trans timer) Bool.false_ne_true

/-- A step of a path that is armed. -/
theorem Agrees.serve {served : ArVif} (agrees : Agrees s m) (armed : m.armed = true)
    (serves : Serves s served) (clk : after.clk = served.clk)
    (streaming : after.streaming = served.streaming) (present : after.present = served.present)
    (regs : after.regs = served.regs) (serviced : after.serviced = served.serviced) :
    Agrees after m where
  clk := clk.trans (serves.clk.trans agrees.clk)
  streaming := streaming.trans (serves.streaming.trans agrees.streaming)
  present := present.trans (serves.present.trans agrees.present)
  quiet quiet := by
    rw [regs, serves.axi]
    exact agrees.quiet quiet
  live live := by
    rw [serviced]
    exact Nat.lt_of_lt_of_le (agrees.live live) serves.serviced
  powered := agrees.powered
  disarmed off := absurd (off.symm.trans armed) Bool.false_ne_true

theorem Sound.serve {served : ArVif} (sound : Sound params strict s) (path : OnePath params after)
    (running : s.handler ≠ .idle ∨ s.work ≠ .idle ∨ s.irqEnabled = true ∨ s.workPending = true)
    (serves : Serves s served) (clk : after.clk = served.clk)
    (streaming : after.streaming = served.streaming) (present : after.present = served.present)
    (regs : after.regs = served.regs) (prog : after.prog = served.prog)
    (events : after.irqEvents = served.irqEvents) (serviced : after.serviced = served.serviced) :
    Sound params strict after := by
  rcases sound.fits with ⟨m, agrees, fits⟩
  have armed := agrees.armed running
  refine ⟨path, ?_, m, agrees.serve armed serves clk streaming present regs serviced, ?_⟩
  · intro left before member
    rw [prog, serves.prog] at member
    rw [events, serviced]
    exact serves.counted before (sound.counted left before member)
  · rw [prog, serves.prog]
    exact fits

theorem handlerOps_plain : SvcOp.reschedule ∉ handlerOps := by simp [handlerOps]

theorem Sound.handler (sound : Sound params strict s)
    (done : step params s .handler = some after) : Sound params strict after := by
  rcases Option.map_eq_some_iff.mp done with ⟨⟨served, next⟩, stepped, rfl⟩
  rcases phaseStep_serves stepped with ⟨serves, plain⟩
  rcases plain handlerOps_plain sound.path.handler with ⟨timer, nextPlain⟩
  have running : s.handler ≠ .idle := by
    intro idle
    rw [idle] at stepped
    cases stepped
  refine sound.serve ⟨?_, ?_, nextPlain⟩ (.inl running) serves rfl rfl rfl rfl rfl rfl rfl
  · intro byIrq
    exact ⟨serves.work.trans (sound.path.byIrq byIrq).1, timer.trans (sound.path.byIrq byIrq).2⟩
  · intro byWork
    exact absurd (sound.path.byWork byWork).1 running

theorem Sound.work (sound : Sound params strict s) (done : step params s .work = some after) :
    Sound params strict after := by
  rcases Option.map_eq_some_iff.mp done with ⟨⟨served, next⟩, stepped, rfl⟩
  rcases phaseStep_serves stepped with ⟨serves, -⟩
  have running : s.work ≠ .idle := by
    intro idle
    rw [idle] at stepped
    cases stepped
  refine sound.serve ⟨?_, ?_, ?_⟩ (.inr (.inl running)) serves rfl rfl rfl rfl rfl rfl rfl
  · intro byIrq
    exact absurd (sound.path.byIrq byIrq).1 running
  · intro byWork
    exact ⟨serves.handler.trans (sound.path.byWork byWork).1,
      serves.irqEnabled.trans (sound.path.byWork byWork).2⟩
  · rw [serves.handler]
    exact sound.path.handler

theorem Sound.irq (sound : Sound params strict s) (done : step params s .irq = some after) :
    Sound params strict after := by
  simp only [step] at done
  split at done
  next resting =>
    split at done
    next enabled =>
      cases done
      refine sound.serve ⟨sound.path.byIrq, ?_, id⟩ (.inr (.inr (.inl enabled))) (.refl s) rfl rfl
        rfl rfl rfl rfl rfl
      intro byWork
      exact absurd ((sound.path.byWork byWork).2.symm.trans enabled) Bool.false_ne_true
    next => cases done
  next => cases done

theorem Sound.timer (sound : Sound params strict s) (done : step params s .timer = some after) :
    Sound params strict after := by
  simp only [step] at done
  split at done
  next resting =>
    split at done
    next pending =>
      cases done
      refine sound.serve ⟨?_, sound.path.byWork, sound.path.handler⟩ (.inr (.inr (.inr pending)))
        (.refl s) rfl rfl rfl rfl rfl rfl rfl
      intro byIrq
      exact absurd ((sound.path.byIrq byIrq).2.symm.trans pending) Bool.false_ne_true
    next => cases done
  next => cases done

end Service

/-! ### Calls, and every run -/

section Runs

variable {params : Params} {strict : Prop} {s after : ArVif} {m : Mode}

theorem Sound.inputStart (sound : Sound params strict s) (noCall : s.prog = []) (caller : Caller)
    (geometry : Option (BitVec 32 × BitVec 32)) :
    Sound params strict (inputStart s caller geometry) := by
  rcases sound.fits with ⟨m, agrees, fits⟩
  rw [noCall] at fits
  have settled : m.Settled params.useIrq := fits
  rw [Vif.inputStart]
  split
  next =>
    refine sound.follow (sound.path.of_same rfl rfl rfl rfl) (.of_no_wait (by simp)) rfl rfl
      (agrees.of_same rfl rfl rfl rfl rfl rfl rfl rfl rfl) ⟨settled, ?_⟩
    rintro - (absent | absent) <;> exact absurd absent (by decide)
  next there =>
    split
    next streaming =>
      exact sound.follow (sound.path.of_same rfl rfl rfl rfl) (.of_no_wait (by simp)) rfl rfl
        (agrees.of_same rfl rfl rfl rfl rfl rfl rfl rfl rfl)
        ⟨settled, fun _ _ => agrees.streaming.symm.trans streaming⟩
    next down =>
      rw [not_or, Bool.not_eq_false] at there
      have present : m.present = true := agrees.present.symm.trans there.1
      have streaming : m.streaming = false := agrees.streaming.symm.trans (by simpa using down)
      rcases settled.whole present with ⟨clocked, armed⟩
      have isOff : m.clocked = false := clocked.symm.trans streaming
      refine ⟨sound.path.of_same rfl rfl rfl rfl, ?_, { m with live := false }, ?_,
        @fits_inputOn _ _ { m with live := false } present isOff (armed.trans isOff) streaming
          geometry _⟩
      · intro left before member
        simp only [inputOn, List.mem_cons, List.not_mem_nil, or_false, reduceCtorEq, false_or,
          Instr.wait.injEq] at member
        rw [member.2]
        exact (BitVec.add_zero _).symm
      · exact { agrees with
          live := nofun
          disarmed := fun off => (agrees.disarmed off).of_same rfl rfl rfl rfl }

theorem Sound.stop (sound : Sound params strict s) (done : step params s .stop = some after) :
    Sound params strict after := by
  rcases sound.fits with ⟨m, agrees, fits⟩
  simp only [step] at done
  split at done
  next noCall =>
    cases done
    split
    next up =>
      rw [noCall] at fits
      have settled : m.Settled params.useIrq := fits
      have isUp := settled.up (agrees.streaming.symm.trans up.2)
      refine sound.follow (sound.path.of_same rfl rfl rfl rfl) (.of_no_wait no_wait_inputOff) rfl
        rfl (agrees.of_same rfl rfl rfl rfl rfl rfl rfl rfl rfl) ?_
      have down : Fits params.useIrq strict m (inputOff ++ []) :=
        fits_inputOff isUp fun _ _ clocked disarmed gone => settled_down clocked disarmed gone
      rwa [List.append_nil] at down
    next => exact sound
  next => cases done

theorem Sound.remove (sound : Sound params strict s) (done : step params s .remove = some after) :
    Sound params strict after := by
  rcases sound.fits with ⟨m, agrees, fits⟩
  simp only [step] at done
  split at done
  next noCall =>
    cases done
    refine sound.follow (m := { m with present := false }) (sound.path.of_same rfl rfl rfl rfl)
      (.of_no_wait (by simp)) rfl rfl ?_ ⟨nofun, fun _ => rfl, nofun⟩
    exact { agrees with
      present := rfl
      disarmed := fun off => (agrees.disarmed off).of_same rfl rfl rfl rfl }
  next => cases done

theorem Sound.raise (sound : Sound params strict s) {offset : ℕ} {bits : BitVec 32}
    (done : step params s (.raise offset bits) = some after) : Sound params strict after := by
  rcases sound.fits with ⟨m, agrees, fits⟩
  simp only [step] at done
  split at done
  next isStatus =>
    cases done
    have apart : arVifAxiConfig ≠ offset := fun same => axiConfig_plain (same ▸ isStatus)
    refine ⟨sound.path.of_same rfl rfl rfl rfl, sound.counted, m, ?_, fits⟩
    refine { agrees with quiet := ?_, disarmed := ?_ }
    · intro quiet
      dsimp only
      rw [Function.update_of_ne apart]
      exact agrees.quiet quiet
    · exact fun off => (agrees.disarmed off).of_same rfl rfl rfl rfl
  next => cases done

theorem Sound.step {event : Event} (sound : Sound params strict s)
    (honest : strict → event ≠ .main (-ebusy)) (done : step params s event = some after) :
    Sound params strict after := by
  cases event with
  | start geometry =>
      simp only [Vif.step] at done
      split at done
      next noCall =>
        cases done
        exact sound.inputStart noCall _ _
      next => cases done
  | stop => exact sound.stop done
  | chainStart geometry =>
      simp only [Vif.step] at done
      split at done
      next noCall =>
        cases done
        split
        · rcases sound.fits with ⟨m, agrees, fits⟩
          exact ⟨sound.path.of_same rfl rfl rfl rfl, sound.counted, m,
            agrees.of_same rfl rfl rfl rfl rfl rfl rfl rfl rfl, fits⟩
        · exact sound.inputStart noCall _ _
      next => cases done
  | remove => exact sound.remove done
  | main answer => exact sound.main (fun strictly same => honest strictly (by rw [same])) done
  | irq => exact sound.irq done
  | handler => exact sound.handler done
  | timer => exact sound.timer done
  | work => exact sound.work done
  | raise offset bits => exact sound.raise done
  | bound | unbind =>
      cases done
      rcases sound.fits with ⟨m, agrees, fits⟩
      exact ⟨sound.path.of_same rfl rfl rfl rfl, sound.counted, m,
        agrees.of_same rfl rfl rfl rfl rfl rfl rfl rfl rfl, fits⟩

theorem Sound.probed (regs : Regs) : Sound params strict (.probed regs) := by
  refine ⟨⟨fun _ => ⟨rfl, rfl⟩, fun _ => ⟨rfl, rfl⟩, id⟩, nofun,
    ⟨true, false, false, false, false, false⟩, ?_, settled_down rfl rfl rfl⟩
  exact ⟨rfl, rfl, rfl, nofun, nofun, nofun, fun _ => ⟨rfl, rfl, rfl, rfl⟩⟩

/-- What the block relies on. -/
structure Safe (s : ArVif) : Prop where
  /-- The call in progress reaches registers while the clock runs and nobody else does. -/
  call : ∀ op rest, s.prog = .reg op :: rest → 0 < s.clk ∧ Disarmed s
  handler : ∀ status todo, s.handler = .serving status todo → 0 < s.clk
  work : ∀ status todo, s.work = .serving status todo → 0 < s.clk
  /-- The clock is gated with the AXI master stopped. -/
  gated : ∀ rest, s.prog = .clkDisable :: rest →
    s.regs arVifAxiConfig &&& axiMaster = 0 ∧ Disarmed s
  balanced : s.clk ≤ 1
  /-- Between calls the clock runs exactly for a path that streams. -/
  between : s.prog = [] → s.present = true → (s.clk = 1 ↔ s.streaming = true)

theorem Sound.safe (sound : Sound params strict s) : Safe s := by
  rcases sound.fits with ⟨m, agrees, fits⟩
  have clockedPos (clocked : m.clocked = true) : 0 < s.clk := by
    rw [agrees.clk, clocked]
    exact Nat.one_pos
  refine ⟨?_, ?_, ?_, ?_, ?_, ?_⟩
  · intro op rest progAt
    rw [progAt] at fits
    exact ⟨clockedPos fits.1, agrees.disarmed fits.2.1⟩
  · intro status todo serving
    exact clockedPos (agrees.powered (agrees.armed (.inl (by simp [serving]))))
  · intro status todo serving
    exact clockedPos (agrees.powered (agrees.armed (.inr (.inl (by simp [serving])))))
  · intro rest progAt
    rw [progAt] at fits
    exact ⟨agrees.quiet fits.2.2.1, agrees.disarmed fits.2.1⟩
  · rw [agrees.clk]
    split <;> decide
  · intro noCall present
    rw [noCall] at fits
    have settled : m.Settled params.useIrq := fits
    rw [agrees.clk, agrees.streaming, (settled.whole (agrees.present.symm.trans present)).1]
    cases m.clocked <;> simp

/-- While calls begin alone, the steps are those of one call at a time. -/
theorem alone_step {s after : ArVifCalls} {event : CallsEvent} (alone : Alone s event)
    (noOthers : s.others = []) (done : callsStep params s event = some after) :
    ∃ plain, event = .of plain ∧ step params s.vif plain = some after.vif ∧ after.others = [] := by
  cases event with
  | of event =>
      refine ⟨event, rfl, ?_⟩
      simp only [callsStep] at done
      split at done
      next begins =>
        have noCall : s.vif.prog = [] := List.isEmpty_iff.mp (alone begins).1
        have same : { s.vif with prog := [] } = s.vif := by rw [← noCall]
        rw [same] at done
        rcases Option.map_eq_some_iff.mp done with ⟨vif, stepped, rfl⟩
        refine ⟨stepped, ?_⟩
        rw [park, noCall]
        exact noOthers
      next =>
        rcases Option.map_eq_some_iff.mp done with ⟨vif, stepped, rfl⟩
        exact ⟨stepped, noOthers⟩
  | switch i =>
      rw [callsStep, noOthers] at done
      cases done

theorem alone_sound {s after : ArVifCalls} {event : CallsEvent}
    (sound : s.others = [] ∧ Sound params strict s.vif)
    (honest : strict → event ≠ .of (.main (-ebusy)))
    (moved : Alone s event ∧ callsStep params s event = some after) :
    after.others = [] ∧ Sound params strict after.vif := by
  rcases alone_step moved.1 sound.1 moved.2 with ⟨plain, rfl, stepped, noMore⟩
  have plainHonest : strict → plain ≠ .main (-ebusy) := by
    intro strictly same
    exact honest strictly (congrArg _ same)
  exact ⟨noMore, sound.2.step plainHonest stepped⟩

/-- As long as calls do not overlap, in any order of the steps of the call, of the interrupt
handler and of the polling work, no register is reached while the clock is gated, and the call's
accesses and the completion path's do not mix. -/
theorem vif_safe {regs : Regs} {events : List CallsEvent} {s : ArVifCalls}
    (run : Run (fun s event after => Alone s event ∧ callsStep params s event = some after)
      ⟨.probed regs, []⟩ events s) : Safe s.vif := by
  have sound : s.others = [] ∧ Sound params False s.vif :=
    run.invariant (fun _ _ _ sound moved => alone_sound sound False.elim moved)
      ⟨rfl, .probed regs⟩
  exact sound.2.safe

/-- With the interrupt as completion source and calls that do not overlap, the ISP is configured
only when the block has asserted an interrupt since its clock came on, unless the clock or the
source itself answers `-EBUSY`. -/
theorem isp_start_live {regs : Regs} {events : List CallsEvent} {s : ArVifCalls}
    (run : Run (fun s event after => Alone s event ∧ callsStep params s event = some after)
      ⟨.probed regs, []⟩ events s)
    (byIrq : params.useIrq = true) (honest : ∀ event ∈ events, event ≠ .of (.main (-ebusy)))
    {rest : List Instr} (progAt : s.vif.prog = .ispPipelineStart :: rest) :
    0 < s.vif.serviced ∧ s.vif.clk = 1 ∧ s.vif.streaming = true := by
  have sound : s.others = [] ∧ Sound params True s.vif :=
    run.invariant_of_events
      (fun _ _ _ sound honest moved => alone_sound sound (fun _ => honest) moved)
      honest ⟨rfl, .probed regs⟩
  rcases sound.2.fits with ⟨m, agrees, fits⟩
  rw [progAt] at fits
  rcases fits with ⟨settled, streaming⟩
  have up := settled.up (streaming trivial)
  refine ⟨agrees.live (settled.live byIrq up.streaming), ?_, agrees.streaming.trans up.streaming⟩
  rw [agrees.clk, up.clocked]
  rfl

end Runs

/-- The module's defaults, with a scratch frame. -/
def defaults : Params where
  useIrq := true
  eventCensus := false
  testPattern := false
  viewFormat := -1
  unpacked := false
  viewMux := 8
  fifoSplit := true
  viewTh := true
  scratch := some 0x28000000

/-- A first stream, up to the configuration of the ISP: the block asserts a frame once the source
has started, and the wait sees it counted. -/
def firstStream : List CallsEvent :=
  List.map .of <| [.bound, .chainStart none] ++ List.replicate 134 (Event.main 0) ++
    [.raise arVifBpIntrStatus 0x101, .irq] ++ List.replicate 5 .handler ++ [.main 0, .main 0]

def Instr.startsIsp : Instr → Bool
  | .ispPipelineStart => true
  | _ => false

theorem Instr.eq_of_startsIsp {instr : Instr} (starts : instr.startsIsp = true) :
    instr = .ispPipelineStart := by
  cases instr <;> first | rfl | cases starts

theorem isp_start_live_firstStream :
    ∃ (s : ArVifCalls) (rest : List Instr), s.vif.prog = .ispPipelineStart :: rest ∧
      0 < s.vif.serviced ∧ s.vif.clk = 1 ∧ s.vif.streaming = true := by
  have checked : (firstStream.foldlM (fun s event =>
      if Alone s event then callsStep defaults s event else none) ⟨.probed fun _ => 0, []⟩).any
      (fun s => s.vif.prog.head?.any Instr.startsIsp) = true := by
    decide +kernel
  rcases (Option.any_eq_true _ _).mp checked with ⟨s, done, atIsp⟩
  rcases (Option.any_eq_true _ _).mp atIsp with ⟨instr, head, starts⟩
  rcases List.head?_eq_some_iff.mp head with ⟨rest, progAt⟩
  rw [Instr.eq_of_startsIsp starts] at progAt
  have run := Run.of_foldlM_guarded Alone (callsStep defaults) done
  have honest : ∀ event ∈ firstStream, event ≠ .of (.main (-ebusy)) := by
    simp [firstStream, ebusy]
  exact ⟨s, rest, progAt, isp_start_live run rfl honest progAt⟩

/-- The same run read as `vif_safe` reads it. -/
theorem vif_safe_firstStream :
    ∃ s, Run (fun s event after => Alone s event ∧ callsStep defaults s event = some after)
      ⟨.probed fun _ => 0, []⟩ firstStream s ∧ Safe s.vif := by
  have checked : (firstStream.foldlM (fun s event =>
      if Alone s event then callsStep defaults s event else none)
      ⟨.probed fun _ => 0, []⟩).isSome = true := by
    decide +kernel
  rcases Option.isSome_iff_exists.mp checked with ⟨s, done⟩
  have run := Run.of_foldlM_guarded Alone (callsStep defaults) done
  exact ⟨s, run, vif_safe run⟩

-- A second call while the first waits for an event is told `-EBUSY`, and goes on to the ISP.
example :
    ((List.map .of <| [.bound, .chainStart none] ++ List.replicate 134 (Event.main 0) ++
        [.chainStart none, .main 0]).foldlM (callsStep defaults) ⟨.probed fun _ => 0, []⟩).any
      (fun s : ArVifCalls => s.vif.prog.head?.any Instr.startsIsp && s.vif.serviced == 0) =
        true := by
  decide +kernel

-- A clock that answers `-EBUSY` passes for an input path that runs already.
example :
    ∃ s, Run (fun s event after => step defaults s event = some after) (.probed fun _ => 0)
        [.bound, .chainStart none, .main (-ebusy), .main 0] s ∧
      s.prog = [.ispPipelineStart] ∧ s.clk = 0 :=
  ⟨_, .cons rfl (.cons rfl (.cons rfl (.cons rfl (.nil _)))), rfl, rfl⟩

end MlKernel.Media.Vif
