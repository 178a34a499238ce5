import MlKernel.Lib.Ring
import MlKernel.Lib.Run

/-!
# Interrupt events

The interrupt handler pushes into the ring of the fd that registered the engine,
and `WAIT_EVENT` pops.  A waiter tests for an event without the lock and pops with
it, so several waiters can pass the test on one event: all but the first of them
then pop an empty ring.  `mppWait_delivers_iff` says that this is the only way to
lose the correspondence between the ring and the pushed events.
-/

namespace MlKernel.Mpp

def mppRingSz : ℕ := 64

structure MppEvent where
  hwirq : ℕ
  pad : ℕ
  ktimeNs : ℕ
  deriving DecidableEq, Repr

structure MppFd where
  ring : ℕ → MppEvent
  head : ℕ
  tail : ℕ

/-- `mpp_open`: `kzalloc` clears the ring. -/
def mppOpen : MppFd :=
  { ring := fun _ => { hwirq := 0, pad := 0, ktimeNs := 0 }, head := 0, tail := 0 }

/-- What `mpp_irq_handler` stores. -/
def irqEvent (hwirq now : ℕ) : MppEvent := { hwirq, pad := 0, ktimeNs := now }

/-- `mpp_irq_handler` of an engine that the fd owns: the fd, and whether the event was kept. -/
def mppIrqHandler (fd : MppFd) (hwirq now : ℕ) : Bool × MppFd :=
  let next := (fd.head + 1) % mppRingSz
  if next ≠ fd.tail then
    (true,
      { fd with ring := Function.update fd.ring fd.head (irqEvent hwirq now), head := next })
  else (false, fd)

/-- The condition of `wait_event_interruptible` in `mpp_wait`. -/
def mppPending (fd : MppFd) : Bool := fd.head ≠ fd.tail

/-- The locked part of `mpp_wait`. -/
def mppPop (fd : MppFd) : MppEvent × MppFd :=
  (fd.ring fd.tail, { fd with tail := (fd.tail + 1) % mppRingSz })

/-- One fd, the threads between test and pop, and what was pushed, popped and returned. -/
structure MppSystem where
  fd : MppFd
  passed : List ℕ
  pushed : List MppEvent
  popped : ℕ
  returned : List MppEvent

def MppSystem.opened : MppSystem :=
  { fd := mppOpen, passed := [], pushed := [], popped := 0, returned := [] }

inductive MppStep
  | irq (hwirq now : ℕ)
  /-- A thread in `WAIT_EVENT` tests the condition; it sleeps on when it does not hold. -/
  | test (thread : ℕ)
  /-- A thread that has passed the test pops and copies the event out. -/
  | pop (thread : ℕ) (copyOk : Bool)

/-- One step; `none` for a thread that is not at that point. -/
def mppStep (s : MppSystem) : MppStep → Option MppSystem
  | .irq hwirq now =>
    let (kept, fd) := mppIrqHandler s.fd hwirq now
    some { s with fd, pushed := if kept then s.pushed ++ [irqEvent hwirq now] else s.pushed }
  | .test thread =>
    if thread ∈ s.passed then none
    else if mppPending s.fd then some { s with passed := thread :: s.passed }
    else some s
  | .pop thread copyOk =>
    if thread ∈ s.passed then
      let (ev, fd) := mppPop s.fd
      some
        { s with
          fd
          passed := s.passed.erase thread
          popped := s.popped + 1
          returned := if copyOk then s.returned ++ [ev] else s.returned }
    else none

/-- The returned events are, in order, events that were pushed and popped, and the ring
holds the others. -/
structure Delivers (s : MppSystem) : Prop where
  popped_le : s.popped ≤ s.pushed.length
  pending : Ring.Holds mppRingSz s.fd.ring s.fd.head s.fd.tail (s.pushed.drop s.popped)
  returned : s.returned.Sublist (s.pushed.take s.popped)

/-- The indices count the events that are still pending. -/
theorem Delivers.count {s : MppSystem} (delivers : Delivers s) :
    (s.fd.head + mppRingSz - s.fd.tail) % mppRingSz = s.pushed.length - s.popped ∧
      s.pushed.length - s.popped < mppRingSz := by
  have length := delivers.pending.length_eq
  have short := delivers.pending.short
  rw [List.length_drop] at length short
  exact ⟨length.symm, short⟩

def PopsPending (s : MppSystem) : MppStep → Prop
  | .pop _ _ => s.fd.head ≠ s.fd.tail
  | _ => True

instance (s : MppSystem) (step : MppStep) : Decidable (PopsPending s step) :=
  match step with
  | .pop _ _ => inferInstanceAs (Decidable (s.fd.head ≠ s.fd.tail))
  | .irq .. | .test _ => .isTrue trivial

theorem Delivers.opened : Delivers .opened where
  popped_le := Nat.le_refl 0
  pending := Ring.Holds.empty _ (by decide)
  returned := List.Sublist.refl []

theorem Delivers.irq {s : MppSystem} (delivers : Delivers s) (hwirq now : ℕ) {after : MppSystem}
    (step : mppStep s (.irq hwirq now) = some after) : Delivers after := by
  rcases delivers with ⟨poppedLe, pending, returned⟩
  simp only [mppStep, mppIrqHandler] at step
  split at step
  next room =>
    cases step
    refine ⟨?_, ?_, ?_⟩
    · simp only [if_true, List.length_append]
      omega
    · simp only [if_true, List.drop_append_of_le_length poppedLe]
      exact pending.push room _
    · simp only [if_true, List.take_append_of_le_length poppedLe]
      exact returned
  next =>
    cases step
    exact ⟨poppedLe, pending, returned⟩

theorem Delivers.test {s : MppSystem} (delivers : Delivers s) (thread : ℕ) {after : MppSystem}
    (step : mppStep s (.test thread) = some after) : Delivers after := by
  simp only [mppStep] at step
  split at step
  next => exact absurd step nofun
  next =>
    split at step
    next =>
      cases step
      exact ⟨delivers.popped_le, delivers.pending, delivers.returned⟩
    next =>
      cases step
      exact delivers

theorem Delivers.pop_iff {s : MppSystem} (delivers : Delivers s) (thread : ℕ) (copyOk : Bool)
    {after : MppSystem} (step : mppStep s (.pop thread copyOk) = some after) :
    Delivers after ↔ s.fd.head ≠ s.fd.tail := by
  rcases Option.ite_none_right_eq_some.mp step with ⟨_, done⟩
  cases done
  rw [Ne, delivers.pending.head_eq_tail_iff]
  constructor
  · -- one pop more than pushes
    rintro ⟨poppedLe, _, _⟩ empty
    have := List.drop_eq_nil_iff.mp empty
    change s.popped + 1 ≤ s.pushed.length at poppedLe
    omega
  · intro nonempty
    have inside : s.popped < s.pushed.length := by
      by_contra outside
      exact nonempty (List.drop_eq_nil_iff.mpr (Nat.not_lt.mp outside))
    have pending := delivers.pending
    rw [List.drop_eq_getElem_cons inside] at pending
    rcases pending.pop with ⟨first, rest⟩
    refine ⟨inside, rest, ?_⟩
    change List.Sublist (if copyOk then s.returned ++ [s.fd.ring s.fd.tail] else s.returned)
      (s.pushed.take (s.popped + 1))
    rw [List.take_succ_eq_append_getElem inside]
    split
    next =>
      rw [first]
      exact delivers.returned.append (List.Sublist.refl _)
    next => exact delivers.returned.trans (List.sublist_append_left _ _)

theorem Delivers.step_iff {s after : MppSystem} {step : MppStep} (delivers : Delivers s)
    (done : mppStep s step = some after) : Delivers after ↔ PopsPending s step := by
  cases step with
  | irq hwirq now => exact ⟨fun _ => trivial, fun _ => delivers.irq hwirq now done⟩
  | test thread => exact ⟨fun _ => trivial, fun _ => delivers.test thread done⟩
  | pop thread copyOk => exact delivers.pop_iff thread copyOk done

/-- A run delivers all the way exactly when every pop finds an event. -/
theorem mppWait_delivers_iff {steps : List MppStep} {s : MppSystem}
    (run : Run (fun s step after => mppStep s step = some after) .opened steps s) :
    (∀ before rest middle, steps = before ++ rest →
      Run (fun s step after => mppStep s step = some after) .opened before middle →
        Delivers middle) ↔
      Run (fun s step after => PopsPending s step ∧ mppStep s step = some after)
        .opened steps s :=
  run.throughout_iff_guarded (fun _ _ _ delivers done => delivers.step_iff done) Delivers.opened

/-- Two waiters and two events. -/
theorem mppWait_delivers_two :
    ∃ s, Run (fun s step after => mppStep s step = some after) .opened
        [.irq 68 1000, .test 1, .irq 100 2000, .test 2, .pop 2 true, .pop 1 true] s ∧
      Delivers s ∧ s.returned = [irqEvent 68 1000, irqEvent 100 2000] := by
  have checked : ([.irq 68 1000, .test 1, .irq 100 2000, .test 2, .pop 2 true,
      .pop 1 true].foldlM (fun s step => if PopsPending s step then mppStep s step else none)
        MppSystem.opened).any (fun s =>
      decide (s.returned = [irqEvent 68 1000, irqEvent 100 2000])) = true := by
    decide +kernel
  rcases (Option.any_eq_true _ _).mp checked with ⟨s, done, returned⟩
  have guarded := Run.of_foldlM_guarded PopsPending mppStep done
  have run := guarded.imp fun _ _ _ step => step.2
  have delivers := (mppWait_delivers_iff run).mpr guarded _ [] s (List.append_nil _).symm run
  exact ⟨s, run, delivers, of_decide_eq_true returned⟩

/-- Two waiters pass the test on one event, and both pop. -/
theorem mppWait_not_delivers :
    ¬ ∀ (steps : List MppStep) (s : MppSystem),
      Run (fun s step after => mppStep s step = some after) .opened steps s → Delivers s := by
  intro delivers
  have phantom : ([.irq 68 1000, .test 1, .test 2, .pop 1 true, .pop 2 true].foldlM mppStep
      MppSystem.opened).any (fun s =>
        decide (s.returned.length = 2 ∧ s.pushed.length = 1)) = true := by
    decide +kernel
  rcases (Option.any_eq_true _ _).mp phantom with ⟨s, done, facts⟩
  rcases of_decide_eq_true facts with ⟨two, one⟩
  have returned := (delivers _ s (Run.of_foldlM mppStep done)).returned.length_le
  rw [List.length_take] at returned
  omega

end MlKernel.Mpp
