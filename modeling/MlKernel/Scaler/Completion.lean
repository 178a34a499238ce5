import MlKernel.Lib.Run
import Mathlib.Data.List.Nodup

/-!
# Completions of the scaler

One submission at a time triggers the engine and waits; the interrupt handler turns the latched
`DONE` into a completion.  After a timeout the reset masks, stops the engine, clears the latch and
drops the completion.  A trigger is known by its number, so that a completion can be followed back
to the trigger that raised it.
-/

namespace MlKernel.Scaler

/-- A single operation, or a batch of so many. -/
inductive Submission
  | single
  | batch (count : ℕ)
  deriving DecidableEq

/-- The next access of `ar_scaler_timeout_reset`, with `ar_scaler_hw_init` in its middle. -/
inductive ResetPoint
  | mask
  | synchronize
  | gateOff
  | gateOn
  | irqenZero
  | irqenDone
  | maskAgain
  | readStatus
  | clearStatus (status : Option ℕ)
  | synchronizeAgain
  | reinit
  | unmask
  deriving DecidableEq

/-- The next access of `ar_scaler_run` or `ar_scaler_run_batch`, with the lock held. -/
inductive SubmitPoint
  | reinit
  | mode
  | trigger
  | wait (own : ℕ)
  | reset (own : ℕ) (point : ResetPoint)
  deriving DecidableEq

/-- The next access of `ar_scaler_irq_handler`, with the `DONE` it has read. -/
inductive IrqPoint
  | idle
  | entered
  | clear (status : Option ℕ)
  | complete (status : Option ℕ)
  deriving DecidableEq

/-- How a submission returned: with the trigger whose `DONE` ended its wait, or on a timeout. -/
inductive Returned
  | success (own cause : ℕ)
  | timedOut (own : ℕ)
  deriving DecidableEq

def Returned.own : Returned → ℕ
  | success own _ => own
  | timedOut own => own

structure ScalerDev where
  /-- Bit 0 of `SC_REG_CTRL`. -/
  ctrlBatch : Bool
  /-- The `DONE` bit of `SC_REG_STATUS`, and the trigger that set it. -/
  status : Option ℕ
  /-- Bit 31 of `SC_REG_IRQEN`. -/
  irqen : Bool
  /-- The trigger whose transfer is running. -/
  engine : Option ℕ
  /-- The completions that no wait has consumed. -/
  completion : List ℕ
  irq : IrqPoint
  /-- The submission that holds the lock. -/
  op : Option (Submission × SubmitPoint)
  triggers : ℕ
  log : List Returned

inductive ScalerEvent
  | submit (submission : Submission)
  | access
  | timeout
  | engineDone
  | irqEnter
  | irqAccess

/-- An access of the reset.  The gate stops the running transfer. -/
def resetAccess (s : ScalerDev) (submission : Submission) (own : ℕ) (point : ResetPoint) :
    Option ScalerDev :=
  let goto (s : ScalerDev) (next : ResetPoint) : Option ScalerDev :=
    some { s with op := some (submission, .reset own next) }
  match point with
  | .mask => goto { s with irqen := false } .synchronize
  | .synchronize => if s.irq = .idle then goto s .gateOff else none
  | .gateOff => goto { s with engine := none } .gateOn
  | .gateOn => goto { s with ctrlBatch := false } .irqenZero
  | .irqenZero => goto { s with irqen := false } .irqenDone
  | .irqenDone => goto { s with irqen := true } .maskAgain
  | .maskAgain => goto { s with irqen := false } .readStatus
  | .readStatus => goto s (.clearStatus s.status)
  | .clearStatus status =>
      goto { s with status := if status.isSome then none else s.status } .synchronizeAgain
  | .synchronizeAgain => if s.irq = .idle then goto s .reinit else none
  | .reinit => goto { s with completion := [] } .unmask
  | .unmask => some { s with irqen := true, op := none, log := .timedOut own :: s.log }

def submitAccess (s : ScalerDev) (submission : Submission) : SubmitPoint → Option ScalerDev
  | .reinit => some { s with completion := [], op := some (submission, .mode) }
  | .mode =>
      some { s with
        ctrlBatch := decide (submission ≠ .single)
        op := some (submission, .trigger) }
  | .trigger =>
      some { s with
        engine := some s.triggers
        triggers := s.triggers + 1
        op := some (submission, .wait s.triggers) }
  | .wait own =>
      match s.completion with
      | [] => none
      | cause :: rest =>
          some { s with completion := rest, op := none, log := .success own cause :: s.log }
  | .reset own point => resetAccess s submission own point

/-- The handler reads the status, writes it back and completes. -/
def arScalerIrqHandler (s : ScalerDev) : Option ScalerDev :=
  match s.irq with
  | .idle => none
  | .entered => some { s with irq := .clear s.status }
  | .clear status =>
      some { s with
        status := if status.isSome then none else s.status
        irq := .complete status }
  | .complete status => some { s with completion := s.completion ++ status.toList, irq := .idle }

/-- The handler can be entered at any time, also while the interrupt is masked; a wait times out
only with no completion to consume. -/
def scalerStep (s : ScalerDev) : ScalerEvent → Option ScalerDev
  | .submit submission =>
      if s.op.isNone then some { s with op := some (submission, .reinit) } else none
  | .access =>
      match s.op with
      | none => none
      | some (submission, point) => submitAccess s submission point
  | .timeout =>
      match s.op with
      | some (submission, .wait own) =>
          if s.completion = [] then some { s with op := some (submission, .reset own .mask) }
          else none
      | _ => none
  | .engineDone =>
      s.engine.map fun trigger => { s with status := s.status.or (some trigger), engine := none }
  | .irqEnter => if s.irq = .idle then some { s with irq := .entered } else none
  | .irqAccess => arScalerIrqHandler s

def ScalerDev.initial : ScalerDev where
  ctrlBatch := false
  status := none
  irqen := true
  engine := none
  completion := []
  irq := .idle
  op := none
  triggers := 0
  log := []

/-- Every success is due to the submission's own trigger, and none to the trigger of a submission
that timed out. -/
structure Attributed (s : ScalerDev) : Prop where
  own : ∀ own cause, .success own cause ∈ s.log → cause = own
  stale : ∀ own cause other, .success own cause ∈ s.log → .timedOut other ∈ s.log → cause ≠ other

/-! ### The invariant -/

/-- What the handler has read and not yet passed on. -/
def IrqPoint.captured : IrqPoint → Option ℕ
  | clear status | complete status => status
  | idle | entered => none

/-- No `DONE` anywhere. -/
structure Quiet (s : ScalerDev) : Prop where
  engine : s.engine = none
  status : s.status = none
  captured : s.irq.captured = none
  completion : s.completion = []

/-- The one `DONE` of a trigger is in the engine, latched, read by the handler, cleared by it, or
completed. -/
inductive Pending (s : ScalerDev) (own : ℕ) : Prop
  | running (engine : s.engine = some own) (status : s.status = none)
      (captured : s.irq.captured = none) (completion : s.completion = [])
  | latched (engine : s.engine = none) (status : s.status = some own)
      (captured : s.irq.captured = none) (completion : s.completion = [])
  | read (engine : s.engine = none) (status : s.status = some own)
      (irq : s.irq = .clear (some own)) (completion : s.completion = [])
  | cleared (engine : s.engine = none) (status : s.status = none)
      (irq : s.irq = .complete (some own)) (completion : s.completion = [])
  | completed (engine : s.engine = none) (status : s.status = none)
      (captured : s.irq.captured = none) (completion : s.completion = [own])

/-- What the reset has cut off so far. -/
def ResetOk (s : ScalerDev) : ResetPoint → Prop
  | .mask | .synchronize | .gateOff => True
  | .gateOn | .irqenZero | .irqenDone | .maskAgain | .readStatus => s.engine = none
  | .clearStatus status => s.engine = none ∧ (status = none → s.status = none)
  | .synchronizeAgain => s.engine = none ∧ s.status = none
  | .reinit => s.engine = none ∧ s.status = none ∧ s.irq.captured = none
  | .unmask => Quiet s

def PointOk (s : ScalerDev) : Option (Submission × SubmitPoint) → Prop
  | none | some (_, .reinit) | some (_, .mode) | some (_, .trigger) => Quiet s
  | some (_, .wait own) => Pending s own
  | some (_, .reset _ point) => ResetOk s point

/-- The trigger of the submission that holds the lock. -/
def SubmitPoint.own : SubmitPoint → Option ℕ
  | wait own | reset own _ => some own
  | reinit | mode | trigger => none

structure ScalerOk (s : ScalerDev) : Prop where
  point : PointOk s s.op
  attributed : ∀ own cause, .success own cause ∈ s.log → cause = own
  /-- Triggers are numbered once. -/
  logged : ∀ entry ∈ s.log, entry.own < s.triggers
  distinct : (s.log.map Returned.own).Nodup
  fresh : ∀ submission point own, s.op = some (submission, point) → point.own = some own →
    own < s.triggers ∧ ∀ entry ∈ s.log, entry.own ≠ own

/-! ### The engine and the handler -/

section Hardware

variable {s next : ScalerDev} {own : ℕ}

theorem Quiet.irqEnter (quiet : Quiet s) : Quiet { s with irq := .entered } :=
  ⟨quiet.engine, quiet.status, rfl, quiet.completion⟩

/-- The three accesses of the handler. -/
theorem arScalerIrqHandler_cases (step : arScalerIrqHandler s = some next) :
    (s.irq = .entered ∧ next = { s with irq := .clear s.status }) ∨
      (∃ status, s.irq = .clear status ∧
        next = { s with
          status := if status.isSome then none else s.status
          irq := .complete status }) ∨
      ∃ status, s.irq = .complete status ∧
        next = { s with completion := s.completion ++ status.toList, irq := .idle } := by
  unfold arScalerIrqHandler at step
  cases here : s.irq with
  | idle => simp [here] at step
  | entered => exact .inl ⟨rfl, by simpa [here] using step.symm⟩
  | clear status => exact .inr (.inl ⟨status, rfl, by simpa [here] using step.symm⟩)
  | complete status => exact .inr (.inr ⟨status, rfl, by simpa [here] using step.symm⟩)

theorem Quiet.irqAccess (quiet : Quiet s) (step : arScalerIrqHandler s = some next) :
    Quiet next := by
  have captured := quiet.captured
  rcases arScalerIrqHandler_cases step with ⟨_, rfl⟩ | ⟨status, irq, rfl⟩ | ⟨status, irq, rfl⟩
  · exact ⟨quiet.engine, quiet.status, quiet.status, quiet.completion⟩
  · rw [irq] at captured
    cases captured
    exact ⟨quiet.engine, quiet.status, rfl, quiet.completion⟩
  · rw [irq] at captured
    cases captured
    refine ⟨quiet.engine, quiet.status, rfl, ?_⟩
    simp [quiet.completion]

theorem Pending.engineDone (pending : Pending s own) {trigger : ℕ}
    (running : s.engine = some trigger) :
    Pending { s with status := s.status.or (some trigger), engine := none } own := by
  cases pending with
  | running engine status captured completion =>
      cases running.symm.trans engine
      refine .latched rfl ?_ captured completion
      rw [status]
      rfl
  | latched engine | read engine | cleared engine | completed engine =>
      cases engine.symm.trans running

theorem Pending.irqEnter (pending : Pending s own) (idle : s.irq = .idle) :
    Pending { s with irq := .entered } own := by
  cases pending with
  | running engine status _ completion => exact .running engine status rfl completion
  | latched engine status _ completion => exact .latched engine status rfl completion
  | completed engine status _ completion => exact .completed engine status rfl completion
  | read _ _ irq => cases idle.symm.trans irq
  | cleared _ _ irq => cases idle.symm.trans irq

/-- A handler that has read no `DONE` clears and completes nothing. -/
theorem irqAccess_uncaptured (step : arScalerIrqHandler s = some next) (started : s.irq ≠ .entered)
    (captured : s.irq.captured = none) :
    next.engine = s.engine ∧ next.status = s.status ∧ next.irq.captured = none ∧
      next.completion = s.completion := by
  rcases arScalerIrqHandler_cases step with ⟨irq, _⟩ | ⟨status, irq, rfl⟩ | ⟨status, irq, rfl⟩
  · exact absurd irq started
  · rw [irq] at captured
    cases captured
    exact ⟨rfl, rfl, rfl, rfl⟩
  · rw [irq] at captured
    cases captured
    exact ⟨rfl, rfl, rfl, List.append_nil _⟩

theorem Pending.irqAccess (pending : Pending s own) (step : arScalerIrqHandler s = some next) :
    Pending next own := by
  by_cases entered : s.irq = .entered
  · have read : next = { s with irq := .clear s.status } := by
      rw [arScalerIrqHandler, entered] at step
      exact (Option.some.inj step).symm
    subst read
    cases pending with
    | running engine status _ completion => exact .running engine status status completion
    | latched engine status _ completion =>
        exact .read engine status (congrArg IrqPoint.clear status) completion
    | completed engine status _ completion => exact .completed engine status status completion
    | read _ _ irq => cases entered.symm.trans irq
    | cleared _ _ irq => cases entered.symm.trans irq
  · cases pending with
    | running engine status captured completion =>
        rcases irqAccess_uncaptured step entered captured with ⟨engine', status', captured', rest⟩
        exact .running (engine'.trans engine) (status'.trans status) captured'
          (rest.trans completion)
    | latched engine status captured completion =>
        rcases irqAccess_uncaptured step entered captured with ⟨engine', status', captured', rest⟩
        exact .latched (engine'.trans engine) (status'.trans status) captured'
          (rest.trans completion)
    | completed engine status captured completion =>
        rcases irqAccess_uncaptured step entered captured with ⟨engine', status', captured', rest⟩
        exact .completed (engine'.trans engine) (status'.trans status) captured'
          (rest.trans completion)
    | read engine status irq completion =>
        rw [arScalerIrqHandler, irq] at step
        cases step
        exact .cleared engine rfl rfl completion
    | cleared engine status irq completion =>
        rw [arScalerIrqHandler, irq] at step
        cases step
        refine .completed engine status rfl ?_
        rw [completion]
        rfl

theorem ResetOk.engineDone {point : ResetPoint} (ok : ResetOk s point) {trigger : ℕ}
    (running : s.engine = some trigger) :
    ResetOk { s with status := s.status.or (some trigger), engine := none } point := by
  cases point with
  | mask | synchronize | gateOff => trivial
  | gateOn | irqenZero | irqenDone | maskAgain | readStatus => cases ok.symm.trans running
  | clearStatus | synchronizeAgain | reinit => cases ok.1.symm.trans running
  | unmask => cases ok.engine.symm.trans running

theorem ResetOk.irqEnter {point : ResetPoint} (ok : ResetOk s point) :
    ResetOk { s with irq := .entered } point := by
  cases point with
  | reinit => exact ⟨ok.1, ok.2.1, rfl⟩
  | unmask => exact Quiet.irqEnter ok
  | _ => exact ok

/-- The handler never starts the engine nor sets the status. -/
theorem irqAccess_frame (step : arScalerIrqHandler s = some next) :
    next.engine = s.engine ∧ (s.status = none → next.status = none) := by
  rcases arScalerIrqHandler_cases step with ⟨_, rfl⟩ | ⟨status, _, rfl⟩ | ⟨status, _, rfl⟩
  · exact ⟨rfl, id⟩
  · refine ⟨rfl, fun clear => ?_⟩
    simp [clear]
  · exact ⟨rfl, id⟩

theorem ResetOk.irqAccess {point : ResetPoint} (ok : ResetOk s point)
    (step : arScalerIrqHandler s = some next) : ResetOk next point := by
  rcases irqAccess_frame step with ⟨engine, status⟩
  cases point with
  | mask | synchronize | gateOff => trivial
  | gateOn | irqenZero | irqenDone | maskAgain | readStatus => exact engine.trans ok
  | clearStatus value => exact ⟨engine.trans ok.1, fun none => status (ok.2 none)⟩
  | synchronizeAgain => exact ⟨engine.trans ok.1, status ok.2⟩
  | reinit =>
      refine ⟨engine.trans ok.1, status ok.2.1, ?_⟩
      by_cases entered : s.irq = .entered
      · rw [arScalerIrqHandler, entered] at step
        cases step
        exact ok.2.1
      · exact (irqAccess_uncaptured step entered ok.2.2).2.2.1
  | unmask => exact Quiet.irqAccess ok step

/-- A step of the engine or of the handler. -/
theorem PointOk.engineDone {op : Option (Submission × SubmitPoint)} (ok : PointOk s op)
    {trigger : ℕ} (running : s.engine = some trigger) :
    PointOk { s with status := s.status.or (some trigger), engine := none } op := by
  rcases op with _ | ⟨submission, _ | _ | _ | own | ⟨own, point⟩⟩
  · cases ok.engine.symm.trans running
  · cases ok.engine.symm.trans running
  · cases ok.engine.symm.trans running
  · cases ok.engine.symm.trans running
  · exact Pending.engineDone ok running
  · exact ResetOk.engineDone ok running

theorem PointOk.irqEnter {op : Option (Submission × SubmitPoint)} (ok : PointOk s op)
    (idle : s.irq = .idle) : PointOk { s with irq := .entered } op := by
  rcases op with _ | ⟨submission, _ | _ | _ | own | ⟨own, point⟩⟩
  · exact Quiet.irqEnter ok
  · exact Quiet.irqEnter ok
  · exact Quiet.irqEnter ok
  · exact Quiet.irqEnter ok
  · exact Pending.irqEnter ok idle
  · exact ResetOk.irqEnter ok

theorem PointOk.irqAccess {op : Option (Submission × SubmitPoint)} (ok : PointOk s op)
    (step : arScalerIrqHandler s = some next) : PointOk next op := by
  rcases op with _ | ⟨submission, _ | _ | _ | own | ⟨own, point⟩⟩
  · exact Quiet.irqAccess ok step
  · exact Quiet.irqAccess ok step
  · exact Quiet.irqAccess ok step
  · exact Quiet.irqAccess ok step
  · exact Pending.irqAccess ok step
  · exact ResetOk.irqAccess ok step

end Hardware

/-! ### The submissions -/

section Submissions

variable {s next : ScalerDev} {submission : Submission} {own : ℕ}

/-- A step that returns nothing and triggers nothing. -/
theorem ScalerOk.keep (ok : ScalerOk s) (log : next.log = s.log)
    (triggers : next.triggers = s.triggers)
    (fresh : ∀ submission point own, next.op = some (submission, point) → point.own = some own →
      ∃ submission point, s.op = some (submission, point) ∧ point.own = some own)
    (point : PointOk next next.op) : ScalerOk next where
  point := point
  attributed := by rw [log]; exact ok.attributed
  logged := by rw [log, triggers]; exact ok.logged
  distinct := by rw [log]; exact ok.distinct
  fresh submission point own here owned := by
    rcases fresh submission point own here owned with ⟨submission', point', before, owned'⟩
    rw [log, triggers]
    exact ok.fresh submission' point' own before owned'

/-- A submission returns: its trigger is logged for the first time. -/
theorem ScalerOk.leave (ok : ScalerOk s) {point : SubmitPoint} {entry : Returned}
    (op : s.op = some (submission, point)) (owned : point.own = some entry.own)
    (attributed : ∀ own cause, entry = .success own cause → cause = own)
    (log : next.log = entry :: s.log) (triggers : next.triggers = s.triggers)
    (left : next.op = none) (quiet : Quiet next) : ScalerOk next where
  point := by
    rw [left]
    exact quiet
  attributed := by
    intro own cause mem
    rw [log] at mem
    rcases List.mem_cons.mp mem with same | earlier
    · exact attributed own cause same.symm
    · exact ok.attributed own cause earlier
  logged := by
    intro other mem
    rw [log] at mem
    rw [triggers]
    rcases List.mem_cons.mp mem with rfl | earlier
    · exact (ok.fresh submission point _ op owned).1
    · exact ok.logged other earlier
  distinct := by
    rw [log, List.map_cons, List.nodup_cons]
    refine ⟨?_, ok.distinct⟩
    intro mem
    rcases List.mem_map.mp mem with ⟨other, earlier, same⟩
    exact (ok.fresh submission point _ op owned).2 other earlier same
  fresh := by
    rw [left]
    exact nofun

/-- The reset goes on to its next access. -/
theorem ScalerOk.goto (ok : ScalerOk s) {point point' : ResetPoint}
    (op : s.op = some (submission, .reset own point)) (log : next.log = s.log)
    (triggers : next.triggers = s.triggers)
    (op' : next.op = some (submission, .reset own point')) (reset : ResetOk next point') :
    ScalerOk next := by
  refine ok.keep log triggers ?_ ?_
  · intro _ _ owner here owned
    cases op'.symm.trans here
    exact ⟨submission, _, op, owned⟩
  · rw [op']
    exact reset

theorem ScalerOk.resetAccess (ok : ScalerOk s) {point : ResetPoint}
    (op : s.op = some (submission, .reset own point))
    (step : resetAccess s submission own point = some next) : ScalerOk next := by
  have reset := ok.point
  rw [op] at reset
  cases point with
  | mask | gateOff | gateOn | irqenZero | irqenDone | maskAgain =>
      cases step
      exact ok.goto op rfl rfl rfl (by first | exact reset | exact trivial | exact rfl)
  | synchronize =>
      rcases Option.ite_none_right_eq_some.mp step with ⟨_, gone⟩
      cases gone
      exact ok.goto op rfl rfl rfl trivial
  | readStatus =>
      cases step
      exact ok.goto op rfl rfl rfl ⟨reset, id⟩
  | clearStatus status =>
      cases step
      refine ok.goto op rfl rfl rfl ⟨reset.1, ?_⟩
      cases status with
      | none => exact reset.2 rfl
      | some trigger => rfl
  | synchronizeAgain =>
      rcases Option.ite_none_right_eq_some.mp step with ⟨idle, gone⟩
      cases gone
      refine ok.goto op rfl rfl rfl ⟨reset.1, reset.2, ?_⟩
      exact congrArg IrqPoint.captured idle
  | reinit =>
      cases step
      exact ok.goto op rfl rfl rfl ⟨reset.1, reset.2.1, reset.2.2, rfl⟩
  | unmask =>
      cases step
      refine ok.leave op rfl ?_ rfl rfl rfl
        ⟨reset.engine, reset.status, reset.captured, reset.completion⟩
      rintro _ _ ⟨⟩

theorem ScalerOk.submitAccess (ok : ScalerOk s) {point : SubmitPoint}
    (op : s.op = some (submission, point)) (step : submitAccess s submission point = some next) :
    ScalerOk next := by
  have here := ok.point
  rw [op] at here
  cases point with
  | reinit =>
      cases step
      refine ok.keep rfl rfl ?_ ⟨here.engine, here.status, here.captured, rfl⟩
      rintro _ _ _ ⟨⟩ ⟨⟩
  | mode =>
      cases step
      refine ok.keep rfl rfl ?_ ⟨here.engine, here.status, here.captured, here.completion⟩
      rintro _ _ _ ⟨⟩ ⟨⟩
  | trigger =>
      cases step
      refine ⟨.running rfl here.status here.captured here.completion, ok.attributed, ?_,
        ok.distinct, ?_⟩
      · intro entry mem
        exact Nat.lt_succ_of_lt (ok.logged entry mem)
      · rintro _ _ _ ⟨⟩ ⟨⟩
        exact ⟨Nat.lt_succ_self _, fun entry mem => Nat.ne_of_lt (ok.logged entry mem)⟩
  | wait own =>
      rcases completion : s.completion with _ | ⟨cause, rest⟩
      · simp [Scaler.submitAccess, completion] at step
      · simp only [Scaler.submitAccess, completion, Option.some.injEq] at step
        subst step
        cases here with
        | running _ _ _ empty | latched _ _ _ empty | read _ _ _ empty | cleared _ _ _ empty =>
            cases completion.symm.trans empty
        | completed engine status captured one =>
            cases completion.symm.trans one
            refine ok.leave op rfl ?_ rfl rfl rfl ⟨engine, status, captured, rfl⟩
            rintro _ _ ⟨⟩
            rfl
  | reset own point => exact ok.resetAccess op step

theorem ScalerOk.step (ok : ScalerOk s) {event : ScalerEvent}
    (step : scalerStep s event = some next) :
    ScalerOk next := by
  cases event with
  | submit submission =>
      rcases Option.ite_none_right_eq_some.mp step with ⟨idle, started⟩
      cases started
      have quiet := ok.point
      rw [Option.isNone_iff_eq_none.mp idle] at quiet
      refine ok.keep rfl rfl ?_ ⟨quiet.engine, quiet.status, quiet.captured, quiet.completion⟩
      rintro _ _ _ ⟨⟩ ⟨⟩
  | access =>
      rcases op : s.op with _ | ⟨submission, point⟩
      · simp [scalerStep, op] at step
      · exact ok.submitAccess op (by simpa [scalerStep, op] using step)
  | timeout =>
      rcases op : s.op with _ | ⟨submission, _ | _ | _ | own | ⟨own, point⟩⟩
      · simp [scalerStep, op] at step
      · simp [scalerStep, op] at step
      · simp [scalerStep, op] at step
      · simp [scalerStep, op] at step
      · simp only [scalerStep, op] at step
        rcases Option.ite_none_right_eq_some.mp step with ⟨_, late⟩
        cases late
        refine ok.keep rfl rfl ?_ trivial
        rintro _ _ _ ⟨⟩ ⟨⟩
        exact ⟨submission, .wait own, op, rfl⟩
      · simp [scalerStep, op] at step
  | engineDone =>
      rcases Option.map_eq_some_iff.mp step with ⟨trigger, running, done⟩
      subst done
      exact ok.keep rfl rfl (fun _ _ _ here owned => ⟨_, _, here, owned⟩)
        (ok.point.engineDone running)
  | irqEnter =>
      rcases Option.ite_none_right_eq_some.mp step with ⟨idle, entered⟩
      cases entered
      exact ok.keep rfl rfl (fun _ _ _ here owned => ⟨_, _, here, owned⟩) (ok.point.irqEnter idle)
  | irqAccess =>
      have kept : next.log = s.log ∧ next.triggers = s.triggers ∧ next.op = s.op := by
        rcases arScalerIrqHandler_cases step with ⟨_, rfl⟩ | ⟨_, _, rfl⟩ | ⟨_, _, rfl⟩ <;>
          exact ⟨rfl, rfl, rfl⟩
      refine ok.keep kept.1 kept.2.1 ?_ ?_
      · intro _ _ _ here owned
        rw [kept.2.2] at here
        exact ⟨_, _, here, owned⟩
      · rw [kept.2.2]
        exact ok.point.irqAccess step

end Submissions

/-! ### Runs -/

theorem ScalerDev.initial_ok : ScalerOk .initial where
  point := ⟨rfl, rfl, rfl, rfl⟩
  attributed := nofun
  logged := nofun
  distinct := .nil
  fresh := nofun

/-- Two returns with one trigger are the same return. -/
theorem ScalerOk.returned_eq {s : ScalerDev} (ok : ScalerOk s) {first second : Returned}
    (firstMem : first ∈ s.log) (secondMem : second ∈ s.log) (same : first.own = second.own) :
    first = second :=
  List.inj_on_of_nodup_map ok.distinct firstMem secondMem same

/-- Every success is due to a `DONE` of its own trigger, over every interleaving. -/
theorem scalerRun_attributed {events : List ScalerEvent} {s : ScalerDev}
    (run : Run (fun s event next => scalerStep s event = some next) .initial events s) :
    Attributed s := by
  have ok : ScalerOk s := by
    refine run.invariant ?_ ScalerDev.initial_ok
    intro state event next holds step
    exact holds.step step
  refine ⟨ok.attributed, ?_⟩
  rintro own cause _ succeeded late rfl
  have same := ok.attributed own cause succeeded
  cases ok.returned_eq succeeded late same.symm

/-- A `DONE` that comes after the timeout is dropped by the reset, and the next submission waits
for its own. -/
theorem scalerRun_attributed_late : ∃ events s,
    Run (fun s event next => scalerStep s event = some next) .initial events s ∧ Attributed s ∧
      s.log = [.success 1 1, .timedOut 0] := by
  have done : (([.submit .single, .access, .access, .access, .timeout, .irqEnter, .engineDone,
      .irqAccess, .access, .irqAccess, .irqAccess, .access, .access, .access, .access, .access,
      .access, .access, .access, .access, .access, .access, .submit (.batch 3), .access, .access,
      .access, .engineDone, .irqEnter, .irqAccess, .irqAccess, .irqAccess, .access] :
      List ScalerEvent).foldlM scalerStep .initial).any
        (fun s => decide (s.log = [.success 1 1, .timedOut 0])) = true := by decide +kernel
  rcases (Option.any_eq_true _ _).mp done with ⟨s, reached, log⟩
  have run := Run.of_foldlM scalerStep reached
  exact ⟨_, s, run, scalerRun_attributed run, of_decide_eq_true log⟩

end MlKernel.Scaler
