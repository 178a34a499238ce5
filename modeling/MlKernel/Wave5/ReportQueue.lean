import MlKernel.Lib.Run

/-!
# The report queue of an encoder instance

The firmware answers every accepted command of an instance with one report, in order and whenever
it likes.  `start_encode` sends a live change before the picture, waits for it and drains one
report; `wave5_vpu_enc_finish_encode` takes one report for each picture that interrupts.
-/

namespace MlKernel.Wave5

/-- A report, by the number of the command it answers. -/
inductive Report
  | setParam (command : ℕ)
  | picture (command : ℕ)
  deriving DecidableEq

/-- Where `start_encode` stands: outside, between an accepted change and its drain, or in front of
`wave5_vpu_enc_start_one_frame`. -/
inductive StartPc
  | idle
  | waiting (command : ℕ)
  | ready
  deriving DecidableEq

structure ReportQueue where
  /-- The commands the firmware has accepted and not reported, oldest first. -/
  inFlight : List Report
  fifo : List Report
  /-- The pictures whose interrupt is still to be handled, oldest first. -/
  irq : List ℕ
  pc : StartPc
  /-- An m2m job is active. -/
  job : Bool
  commands : ℕ
  /-- The pictures finished so far, each with the report that was taken for it. -/
  finished : List (ℕ × Option Report)
  deriving DecidableEq

/-- `change` says whether a change is pending, and then whether its command is accepted. -/
inductive ReportEvent
  | startEncode (change : Option Bool)
  | drain
  | startOneFrame (accepted : Bool)
  | report
  | finishEncode
  | jobTimeout
  deriving DecidableEq

/-- `wave5_vpu_enc_change_param` up to its wait. -/
def changeParam (s : ReportQueue) (change : Option Bool) : ReportQueue :=
  if change = some true then
    { s with
      inFlight := s.inFlight ++ [.setParam s.commands]
      pc := .waiting s.commands
      commands := s.commands + 1 }
  else { s with pc := .ready }

/-- `wave5_vpu_enc_start_one_frame`; a job whose picture does not start is over. -/
def startOneFrame (s : ReportQueue) (accepted : Bool) : ReportQueue :=
  if accepted then
    { s with
      inFlight := s.inFlight ++ [.picture s.commands]
      pc := .idle
      commands := s.commands + 1 }
  else { s with pc := .idle, job := false }

/-- The firmware's answer to its oldest command; a picture's also interrupts. -/
def postReport (s : ReportQueue) (answered : Report) (inFlight : List Report) : ReportQueue :=
  { s with
    inFlight
    fifo := s.fifo ++ [answered]
    irq := match answered with
      | .picture command => s.irq ++ [command]
      | .setParam _ => s.irq }

def reportStep (s : ReportQueue) (event : ReportEvent) : Option ReportQueue :=
  match event, s.pc, s.inFlight, s.irq with
  | .startEncode change, .idle, _, _ =>
      if s.job then none else some (changeParam { s with job := true } change)
  | .drain, .waiting _, _, _ => some { s with fifo := s.fifo.tail, pc := .ready }
  | .startOneFrame accepted, .ready, _, _ => some (startOneFrame s accepted)
  | .report, _, answered :: inFlight, _ => some (postReport s answered inFlight)
  | .finishEncode, _, _, command :: irq =>
      some { s with
        irq
        fifo := s.fifo.tail
        job := false
        finished := (command, s.fifo.head?) :: s.finished }
  | .jobTimeout, .idle, _, _ => if s.job then some { s with job := false } else none
  | _, _, _, _ => none

def ReportQueue.initial : ReportQueue where
  inFlight := []
  fifo := []
  irq := []
  pc := .idle
  job := false
  commands := 0
  finished := []

/-- Every picture was finished with its own report. -/
def OwnReports (s : ReportQueue) : Prop :=
  ∀ entry ∈ s.finished, entry.2 = some (.picture entry.1)

/-- A change is only drained while its own report is the next one in the queue. -/
def DrainedOwn (s : ReportQueue) (event : ReportEvent) : Prop :=
  match event, s.pc with
  | .drain, .waiting command => s.fifo.head? = some (.setParam command)
  | _, _ => True

instance (s : ReportQueue) (event : ReportEvent) : Decidable (DrainedOwn s event) := by
  unfold DrainedOwn
  split
  all_goals infer_instance

/-! ### The reports line up -/

/-- The reports in the queue are those of the pictures that have interrupted, and those to come
are pictures', but for a change that is waited for: it is the last of all. -/
def LinedUp (s : ReportQueue) : Prop :=
  match s.pc with
  | .waiting command =>
      (s.fifo = s.irq.map .picture ∧
        ∃ pictures : List ℕ, s.inFlight = pictures.map .picture ++ [.setParam command]) ∨
      s.fifo = s.irq.map .picture ++ [.setParam command] ∧ s.inFlight = []
  | _ => s.fifo = s.irq.map .picture ∧ ∃ pictures : List ℕ, s.inFlight = pictures.map .picture

structure ReportInv (s : ReportQueue) : Prop where
  own : OwnReports s
  linedUp : LinedUp s

theorem reportStep_cases {s next : ReportQueue} {event : ReportEvent}
    (step : reportStep s event = some next) :
    (∃ change, event = .startEncode change ∧ s.pc = .idle ∧
        next = changeParam { s with job := true } change) ∨
      (∃ command, event = .drain ∧ s.pc = .waiting command ∧
        next = { s with fifo := s.fifo.tail, pc := .ready }) ∨
      (∃ accepted, event = .startOneFrame accepted ∧ s.pc = .ready ∧
        next = startOneFrame s accepted) ∨
      (∃ answered inFlight, event = .report ∧ s.inFlight = answered :: inFlight ∧
        next = postReport s answered inFlight) ∨
      (∃ command irq, event = .finishEncode ∧ s.irq = command :: irq ∧
        next = { s with
          irq
          fifo := s.fifo.tail
          job := false
          finished := (command, s.fifo.head?) :: s.finished }) ∨
      (event = .jobTimeout ∧ next = { s with job := false }) := by
  unfold reportStep at step
  split at step
  · next change pc =>
      rcases Option.ite_none_left_eq_some.mp step with ⟨-, done⟩
      exact .inl ⟨change, rfl, pc, (Option.some.inj done).symm⟩
  · next command pc =>
      exact .inr (.inl ⟨command, rfl, pc, (Option.some.inj step).symm⟩)
  · next accepted pc =>
      exact .inr (.inr (.inl ⟨accepted, rfl, pc, (Option.some.inj step).symm⟩))
  · next answered inFlight queue =>
      exact .inr (.inr (.inr (.inl ⟨answered, inFlight, rfl, queue, (Option.some.inj step).symm⟩)))
  · next command irq queue =>
      exact .inr (.inr (.inr (.inr (.inl ⟨command, irq, rfl, queue, (Option.some.inj step).symm⟩))))
  · rcases Option.ite_none_right_eq_some.mp step with ⟨-, done⟩
    exact .inr (.inr (.inr (.inr (.inr ⟨rfl, (Option.some.inj done).symm⟩))))
  · cases step

/-- Outside a change the reports to come are pictures' only. -/
theorem LinedUp.of_not_waiting {s : ReportQueue} (linedUp : LinedUp s)
    (other : ∀ command, s.pc ≠ .waiting command) :
    s.fifo = s.irq.map .picture ∧ ∃ pictures : List ℕ, s.inFlight = pictures.map .picture := by
  unfold LinedUp at linedUp
  split at linedUp
  · next command place => exact absurd place (other command)
  · exact linedUp

theorem ReportInv.startEncode {s : ReportQueue} (inv : ReportInv s) (place : s.pc = .idle)
    (change : Option Bool) : ReportInv (changeParam { s with job := true } change) := by
  rcases inv.linedUp.of_not_waiting (by simp [place]) with ⟨queue, pictures, inFlight⟩
  unfold changeParam
  split
  · refine ⟨inv.own, .inl ⟨queue, pictures, ?_⟩⟩
    simp [inFlight]
  · exact ⟨inv.own, queue, pictures, inFlight⟩

theorem ReportInv.drain {s : ReportQueue} {command : ℕ} (inv : ReportInv s)
    (place : s.pc = .waiting command) (ready : s.fifo.head? = some (.setParam command)) :
    ReportInv { s with fifo := s.fifo.tail, pc := .ready } := by
  have linedUp := inv.linedUp
  simp only [LinedUp, place] at linedUp
  rcases linedUp with ⟨queue, -⟩ | ⟨queue, inFlight⟩
  · rw [queue] at ready
    cases irq : s.irq with
    | nil => simp [irq] at ready
    | cons first irq' => simp [irq] at ready
  · cases irq : s.irq with
    | nil =>
        refine ⟨inv.own, ?_, [], inFlight⟩
        simp [queue, irq]
    | cons first irq' =>
        rw [queue] at ready
        simp [irq] at ready

theorem ReportInv.startOneFrame {s : ReportQueue} (inv : ReportInv s) (place : s.pc = .ready)
    (accepted : Bool) : ReportInv (startOneFrame s accepted) := by
  rcases inv.linedUp.of_not_waiting (by simp [place]) with ⟨queue, pictures, inFlight⟩
  unfold Wave5.startOneFrame
  split
  · refine ⟨inv.own, queue, pictures ++ [s.commands], ?_⟩
    simp [inFlight]
  · exact ⟨inv.own, queue, pictures, inFlight⟩

theorem ReportInv.post {s : ReportQueue} {answered : Report} {inFlight : List Report}
    (inv : ReportInv s) (queued : s.inFlight = answered :: inFlight) :
    ReportInv (postReport s answered inFlight) := by
  refine ⟨inv.own, ?_⟩
  by_cases waiting : ∃ command, s.pc = .waiting command
  · rcases waiting with ⟨command, place⟩
    have linedUp := inv.linedUp
    simp only [LinedUp, place] at linedUp
    simp only [LinedUp, postReport, place]
    rcases linedUp with ⟨queue, pictures, toCome⟩ | ⟨-, none⟩
    · rw [queued] at toCome
      cases pictures with
      | nil =>
          rcases List.cons.inj toCome with ⟨rfl, rfl⟩
          right
          exact ⟨by rw [queue], rfl⟩
      | cons first pictures =>
          rcases List.cons.inj toCome with ⟨rfl, rfl⟩
          left
          exact ⟨by simp [queue], pictures, rfl⟩
    · rw [queued] at none
      cases none
  · have other : ∀ command, s.pc ≠ .waiting command := fun command place =>
      waiting ⟨command, place⟩
    rcases inv.linedUp.of_not_waiting other with ⟨queue, pictures, toCome⟩
    rw [queued] at toCome
    cases pictures with
    | nil => cases toCome
    | cons first pictures =>
        rcases List.cons.inj toCome with ⟨rfl, rfl⟩
        have linedUp : (postReport s (.picture first) (pictures.map .picture)).fifo =
            (postReport s (.picture first) (pictures.map .picture)).irq.map .picture ∧
            ∃ pictures' : List ℕ, (postReport s (.picture first) (pictures.map .picture)).inFlight =
              pictures'.map .picture := ⟨by simp [postReport, queue], pictures, rfl⟩
        unfold LinedUp
        split
        · next command place => exact absurd place (other command)
        · exact linedUp

/-- The oldest interrupt belongs to the oldest report. -/
theorem ReportInv.finishEncode {s : ReportQueue} {command : ℕ} {irq : List ℕ} (inv : ReportInv s)
    (interrupted : s.irq = command :: irq) :
    ReportInv { s with
      irq
      fifo := s.fifo.tail
      job := false
      finished := (command, s.fifo.head?) :: s.finished } := by
  have linedUp := inv.linedUp
  have head : s.fifo.head? = some (.picture command) := by
    unfold LinedUp at linedUp
    split at linedUp
    · rcases linedUp with ⟨queue, -⟩ | ⟨queue, -⟩
      · simp [queue, interrupted]
      · simp [queue, interrupted]
    · simp [linedUp.1, interrupted]
  constructor
  · intro entry mem
    rcases List.mem_cons.mp mem with rfl | mem
    · exact head
    · exact inv.own entry mem
  · unfold LinedUp at linedUp ⊢
    split at linedUp
    · next place =>
        simp only [place]
        rcases linedUp with ⟨queue, toCome⟩ | ⟨queue, none⟩
        · exact .inl ⟨by simp [queue, interrupted], toCome⟩
        · exact .inr ⟨by simp [queue, interrupted], none⟩
    · next other =>
        have shifted : s.fifo.tail = irq.map .picture := by simp [linedUp.1, interrupted]
        exact ⟨shifted, linedUp.2⟩

theorem ReportInv.step {s next : ReportQueue} {event : ReportEvent} (inv : ReportInv s)
    (drained : DrainedOwn s event) (step : reportStep s event = some next) : ReportInv next := by
  rcases reportStep_cases step with ⟨change, -, place, rfl⟩ | ⟨command, rfl, place, rfl⟩ |
    ⟨accepted, -, place, rfl⟩ | ⟨answered, inFlight, -, queued, rfl⟩ |
    ⟨command, irq, -, interrupted, rfl⟩ | ⟨-, rfl⟩
  · exact inv.startEncode place change
  · apply inv.drain place
    simpa only [DrainedOwn, place] using drained
  · exact inv.startOneFrame place accepted
  · exact inv.post queued
  · exact inv.finishEncode interrupted
  · exact ⟨inv.own, inv.linedUp⟩

theorem ReportQueue.initial_inv : ReportInv .initial where
  own := fun _ mem => absurd mem List.not_mem_nil
  linedUp := ⟨rfl, [], rfl⟩

/-- While every change is drained of its own report, every picture is finished with its own. -/
theorem reportRun_ownReports {events : List ReportEvent} {s : ReportQueue}
    (run : Run (fun state event next => DrainedOwn state event ∧
      reportStep state event = some next) .initial events s) : OwnReports s := by
  have inv : ReportInv s := by
    refine run.invariant ?_ ReportQueue.initial_inv
    intro state event next holds step
    exact holds.step step.1 step.2
  exact inv.own

/-- A picture that outlives its job, and a change behind it. -/
theorem reportRun_ownReports_late : ∃ events s,
    Run (fun state event next => DrainedOwn state event ∧ reportStep state event = some next)
      .initial events s ∧
    OwnReports s ∧ s.finished = [(2, some (.picture 2)), (0, some (.picture 0))] := by
  have done : (([.startEncode none, .startOneFrame true, .jobTimeout, .startEncode (some true),
      .report, .finishEncode, .report, .drain, .startOneFrame true, .report, .finishEncode] :
      List ReportEvent).foldlM
      (fun state event => if DrainedOwn state event then reportStep state event else none)
      .initial).any (fun s =>
        decide (s.finished = [(2, some (.picture 2)), (0, some (.picture 0))])) = true := by
    decide
  rcases (Option.any_eq_true _ _).mp done with ⟨s, reached, finished⟩
  have run := Run.of_foldlM_guarded DrainedOwn reportStep reached
  exact ⟨_, s, run, reportRun_ownReports run, of_decide_eq_true finished⟩

/-- A change is answered after its wait and its drain: the picture behind it takes its report. -/
theorem reportRun_not_ownReports : ¬∀ (events : List ReportEvent) (s : ReportQueue),
    Run (fun state event next => reportStep state event = some next) .initial events s →
      OwnReports s := by
  intro own
  have done : (([.startEncode (some true), .drain, .startOneFrame true, .report, .report,
      .finishEncode] : List ReportEvent).foldlM reportStep .initial).any
        (fun s => decide (s.finished = [(1, some (.setParam 0))])) = true := by decide
  rcases (Option.any_eq_true _ _).mp done with ⟨s, reached, finished⟩
  have wrong := own _ s (Run.of_foldlM _ reached) (1, some (.setParam 0))
    (by rw [of_decide_eq_true finished]; exact List.mem_singleton_self _)
  cases wrong

end MlKernel.Wave5
