import MlKernel.Lib.Calls
import MlKernel.Lib.Run

/-!
# Engine slots and their interrupts

`REGISTER` takes a slot of `engines[]` under `reg_lock`, drops the lock and
requests the interrupt with the slot as `dev_id`.  `FREE` and the release of the
fd mark a slot under the lock, free its interrupt without it, and give the slot
back under the lock again.  Each locked section and each `request_irq` and
`free_irq` is a step, and the calls of all threads interleave.

A slot that is marked cannot be taken by anybody else.  A slot whose `REGISTER`
is still on its way has no such mark, so a `FREE` can find it too early:
`RegistersFirst` excludes this, and `SlotHeld` is what a slot is between the
steps when it does not happen.
-/

namespace MlKernel.Mpp

def maxEngines : ℕ := 32

/-- `struct mpp_engine`; an fd is the address of its `struct mpp_fd`. -/
structure MppEngine where
  active : Bool
  freeing : Bool
  hwirq : UInt32
  virq : ℕ
  owner : Option ℕ
  deriving DecidableEq

/-- A handler installed on an interrupt line, with the slot that is its `dev_id`. -/
structure IrqAction where
  virq : ℕ
  slot : ℕ
  deriving DecidableEq

/-- A call between two of its steps.  `closing` tells the release of an fd from a `FREE`. -/
inductive MppCall
  | requesting (fd slot virq : ℕ)
  | unwinding (fd slot : ℕ)
  | freeing (fd slot virq : ℕ) (closing : Bool)
  | freed (fd slot : ℕ) (closing : Bool)
  deriving DecidableEq

namespace MppCall

def fd : MppCall → ℕ
  | requesting fd _ _ | unwinding fd _ | freeing fd _ _ _ | freed fd _ _ => fd

def slot : MppCall → ℕ
  | requesting _ slot _ | unwinding _ slot | freeing _ slot _ _ | freed _ slot _ => slot

def closing : MppCall → Bool
  | requesting _ _ _ | unwinding _ _ => false
  | freeing _ _ _ closing | freed _ _ closing => closing

/-- `REGISTER` has published the slot and not returned. -/
def registering : MppCall → Bool
  | requesting _ _ _ | unwinding _ _ => true
  | freeing _ _ _ _ | freed _ _ _ => false

end MppCall

structure EngineSystem where
  engines : ℕ → MppEngine
  irqs : List IrqAction
  fds : List ℕ
  calls : List MppCall

inductive MppErrno
  | einval
  | enospc
  deriving DecidableEq

/-- `virq_for_hwirq` over `hwirq_tbl` and `virq_tbl`. -/
def virqForHwirq (tbl : List (UInt32 × ℕ)) (hwirq : UInt32) : Option ℕ :=
  (tbl.find? fun entry => entry.1 = hwirq || entry.1 = hwirq + 0x20).map Prod.snd

/-- The first slot that `REGISTER` finds inactive. -/
def freeSlot (engines : ℕ → MppEngine) : Option ℕ :=
  (List.range maxEngines).find? fun slot => !(engines slot).active

/-- A slot that the fd has registered and nobody frees. -/
def MppEngine.ownedBy (engine : MppEngine) (fd : ℕ) : Bool :=
  engine.active && !engine.freeing && engine.owner = some fd

def engineByHwirq (engines : ℕ → MppEngine) (hwirq : UInt32) (fd : ℕ) : Option ℕ :=
  (List.range maxEngines).find? fun slot =>
    (engines slot).ownedBy fd && (engines slot).hwirq = hwirq

/-- The next slot that the loop of `mpp_release` stops at. -/
def nextOwned (engines : ℕ → MppEngine) (fd first : ℕ) : Option ℕ :=
  (List.range maxEngines).find? fun slot => first ≤ slot && (engines slot).ownedBy fd

/-- The locked part of `mpp_register`. -/
def mppRegister (tbl : List (UInt32 × ℕ)) (s : EngineSystem) (fd : ℕ) (hwirq : UInt32) :
    Except MppErrno EngineSystem :=
  match virqForHwirq tbl hwirq with
  | none => .error .einval
  | some virq =>
    match freeSlot s.engines with
    | none => .error .enospc
    | some slot =>
      let engine := { s.engines slot with active := true, hwirq, virq, owner := some fd }
      .ok
        { s with
          engines := Function.update s.engines slot engine
          calls := .requesting fd slot virq :: s.calls }

/-- A slot is marked as being freed, and its owner is gone. -/
def markFreeing (engines : ℕ → MppEngine) (slot : ℕ) : ℕ → MppEngine :=
  Function.update engines slot { engines slot with freeing := true, owner := none }

/-- The first locked part of `mpp_simple_hwirq` with `nr` 1. -/
def mppFree (s : EngineSystem) (fd : ℕ) (hwirq : UInt32) : Except MppErrno EngineSystem :=
  match engineByHwirq s.engines hwirq fd with
  | none => .error .einval
  | some slot =>
    .ok
      { s with
        engines := markFreeing s.engines slot
        calls := .freeing fd slot (s.engines slot).virq false :: s.calls }

/-- The loop of `mpp_release` from a slot on, as far as it holds the lock. -/
def releaseLoop (engines : ℕ → MppEngine) (fd first : ℕ) : (ℕ → MppEngine) × Option MppCall :=
  match nextOwned engines fd first with
  | none => (engines, none)
  | some slot => (markFreeing engines slot, some (.freeing fd slot (engines slot).virq true))

/-- The start of `mpp_release`, which nobody calls on the fd any more. -/
def mppRelease (s : EngineSystem) (fd : ℕ) : EngineSystem :=
  let (engines, call) := releaseLoop s.engines fd 0
  { s with
    engines
    fds := s.fds.filter (· ≠ fd)
    calls := call.toList ++ s.calls }

inductive EngineStep
  | open (fd : ℕ)
  | register (fd : ℕ) (hwirq : UInt32)
  | free (fd : ℕ) (hwirq : UInt32)
  | release (fd : ℕ)
  /-- The `i`-th call requests its interrupt. -/
  | requestIrq (i : ℕ) (ok : Bool)
  /-- The `i`-th call frees its interrupt. -/
  | freeIrq (i : ℕ)
  /-- The last locked section of the `i`-th call; a release goes on to its next slot. -/
  | settle (i : ℕ)

/-- The system calls of an fd. -/
def EngineSystem.onFd (s : EngineSystem) (fd : ℕ) (call : Except MppErrno EngineSystem) :
    Option EngineSystem :=
  if fd ∈ s.fds then
    match call with
    | .ok next => some next
    | .error _ => some s
  else none

/-- One step; `none` where no call is at that point, or the kernel does not let it happen: an
fd in use is not released, and a line that is not shared has one handler. -/
def engineStep (tbl : List (UInt32 × ℕ)) (s : EngineSystem) : EngineStep → Option EngineSystem
  | .open fd =>
    if fd ∉ s.fds ∧ ∀ call ∈ s.calls, call.fd ≠ fd then some { s with fds := fd :: s.fds }
    else none
  | .register fd hwirq => s.onFd fd (mppRegister tbl s fd hwirq)
  | .free fd hwirq => s.onFd fd (mppFree s fd hwirq)
  | .release fd =>
    if fd ∈ s.fds ∧ ∀ call ∈ s.calls, call.fd ≠ fd then some (mppRelease s fd) else none
  | .requestIrq i ok =>
    match s.calls[i]? with
    | some (.requesting fd slot virq) =>
      if ok then
        if ∀ irq ∈ s.irqs, irq.virq ≠ virq then
          some { s with irqs := ⟨virq, slot⟩ :: s.irqs, calls := Calls.advance s.calls i none }
        else none
      else some { s with calls := Calls.advance s.calls i (some (.unwinding fd slot)) }
    | _ => none
  | .freeIrq i =>
    match s.calls[i]? with
    | some (.freeing fd slot virq closing) =>
      some
        { s with
          irqs := s.irqs.filter (· ≠ ⟨virq, slot⟩)
          calls := Calls.advance s.calls i (some (.freed fd slot closing)) }
    | _ => none
  | .settle i =>
    match s.calls[i]? with
    | some (.unwinding _ slot) =>
      some
        { s with
          engines :=
            Function.update s.engines slot { s.engines slot with active := false, owner := none }
          calls := Calls.advance s.calls i none }
    | some (.freed fd slot closing) =>
      let engines :=
        Function.update s.engines slot { s.engines slot with active := false, freeing := false }
      if closing then
        let (engines, call) := releaseLoop engines fd (slot + 1)
        some { s with engines, calls := call.toList ++ Calls.advance s.calls i none }
      else some { s with engines, calls := Calls.advance s.calls i none }
    | _ => none

/-- `g` is zeroed, and nobody has opened the device. -/
def EngineSystem.loaded : EngineSystem :=
  { engines := fun _ => { active := false, freeing := false, hwirq := 0, virq := 0, owner := none }
    irqs := []
    fds := []
    calls := [] }

/-! ### What the slots promise -/

/-- The interrupts requested with a slot as `dev_id`. -/
def EngineSystem.irqsFor (s : EngineSystem) (slot : ℕ) : List ℕ :=
  (s.irqs.filter fun irq => irq.slot = slot).map IrqAction.virq

/-- Between calls the active slots are those with a requested interrupt, which is theirs and
whose fd is open; and a slot is only taken when no interrupt is requested with it. -/
structure EnginesCorrespond (s : EngineSystem) : Prop where
  active_iff : s.calls = [] → ∀ slot < maxEngines,
    ((s.engines slot).active = true ↔ (s.irqsFor slot).length = 1)
  requested : s.calls = [] → ∀ slot < maxEngines, (s.engines slot).active = true →
    s.irqsFor slot = [(s.engines slot).virq] ∧ ∃ fd ∈ s.fds, (s.engines slot).owner = some fd
  taken : ∀ slot, freeSlot s.engines = some slot → s.irqsFor slot = []

/-- `FREE` does not find a slot whose `REGISTER` is still on its way. -/
def RegistersFirst (s : EngineSystem) : EngineStep → Prop
  | .free fd hwirq => ∀ slot ∈ engineByHwirq s.engines hwirq fd,
      ∀ call ∈ s.calls, call.slot = slot → call.registering = false
  | _ => True

instance (s : EngineSystem) (step : EngineStep) : Decidable (RegistersFirst s step) :=
  match step with
  | .free fd hwirq => inferInstanceAs (Decidable (∀ slot ∈ engineByHwirq s.engines hwirq fd,
      ∀ call ∈ s.calls, call.slot = slot → call.registering = false))
  | .open _ | .register .. | .release _ | .requestIrq .. | .freeIrq _ | .settle _ => .isTrue trivial

end MlKernel.Mpp
