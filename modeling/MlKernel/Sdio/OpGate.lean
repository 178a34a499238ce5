import Mathlib.Algebra.Ring.Int.Defs
import MlKernel.Lib.Calls
import MlKernel.Sdio.Basic

/-!
# The fd-op gate and the removal

`active_ops` counts the operations between `artosyn_op_enter` and
`artosyn_op_exit`, and `refs` the probe and the open fds.  Every atomic operation
and every access of `removed` is a step.  An operation is counted before it looks
at `removed`, and the removal sets `removed` before it looks at the count, so the
one that comes second sees the other.
-/

namespace MlKernel.Sdio

/-- A call between two of its steps, on an fd that is a number. -/
inductive GateCall
  /-- `artosyn_open` has its reference. -/
  | opening (fd : ℕ)
  /-- `artosyn_op_enter` is counted. -/
  | entering (fd : ℕ)
  /-- It has seen `removed`. -/
  | bailing (fd : ℕ)
  | inside (fd : ℕ)
  /-- `artosyn_op_exit` was the last one counted. -/
  | leaving (fd : ℕ)
  /-- The completion is due. -/
  | draining (fd : ℕ)
  /-- `artosyn_close` is no reader any more. -/
  | closing
  /-- The reference was the last one. -/
  | freeing
  deriving DecidableEq

/-- Where the removal is. -/
inductive RemovePoint
  | probed
  | marked
  | polling
  | waiting
  | quiesced
  | torn
  | deregistered
  | freeing
  | done
  deriving DecidableEq

structure OpGate where
  activeOps : ℤ
  removed : Bool
  opsDrained : ℕ
  refs : ℤ
  cmdReaders : ℤ
  miscRegistered : Bool
  fds : List ℕ
  calls : List GateCall
  remover : RemovePoint
  freed : ℕ
  /-- A step has used the device after it was freed. -/
  touchedFreed : Bool

namespace GateCall

def fd : GateCall → Option ℕ
  | opening fd | entering fd | bailing fd | inside fd | leaving fd | draining fd => some fd
  | closing | freeing => none

/-- Counted in `active_ops`. -/
def counted : GateCall → Bool
  | entering _ | bailing _ | inside _ => true
  | _ => false

/-- Has a reference that is not an open fd's. -/
def holdsRef : GateCall → Bool
  | opening _ | closing => true
  | _ => false

/-- An operation on an open fd. -/
def isOp : GateCall → Bool
  | opening _ | closing | freeing => false
  | _ => true

end GateCall

namespace RemovePoint

def holdsRef : RemovePoint → Bool
  | freeing | done => false
  | _ => true

/-- `artosyn_quiesce` has returned. -/
def pastQuiesce : RemovePoint → Bool
  | probed | marked | polling | waiting => false
  | _ => true

/-- `misc_deregister` has returned. -/
def pastDeregister : RemovePoint → Bool
  | deregistered | freeing | done => true
  | _ => false

end RemovePoint

namespace OpGate

/-- The device after a successful probe. -/
def probed : OpGate :=
  { activeOps := 0, removed := false, opsDrained := 0, refs := 1, cmdReaders := 0
    miscRegistered := true, fds := [], calls := [], remover := .probed, freed := 0
    touchedFreed := false }

def touch (s : OpGate) : OpGate := { s with touchedFreed := s.touchedFreed || 0 < s.freed }

/-- The next step of a call, and where it is then. -/
def callStep (s : OpGate) : GateCall → OpGate × Option GateCall
  | .opening fd => ({ s with cmdReaders := s.cmdReaders + 1, fds := fd :: s.fds }, none)
  | .entering fd => (s, some (if s.removed then .bailing fd else .inside fd))
  | .bailing fd =>
    ({ s with activeOps := s.activeOps - 1 },
      if s.activeOps - 1 = 0 then some (.draining fd) else none)
  | .inside fd =>
    ({ s with activeOps := s.activeOps - 1 },
      if s.activeOps - 1 = 0 then some (.leaving fd) else none)
  | .leaving fd => (s, if s.removed then some (.draining fd) else none)
  | .draining _ => ({ s with opsDrained := s.opsDrained + 1 }, none)
  | .closing => ({ s with refs := s.refs - 1 }, if s.refs - 1 = 0 then some .freeing else none)
  | .freeing => ({ s with freed := s.freed + 1 }, none)

/-- The next step of `sdio_artosyn_remove`.  `misc_deregister` and `open` exclude each other,
and a wait ends by a completion or by its timeout. -/
def removeStep (s : OpGate) (timedOut : Bool) : Option OpGate :=
  match s.remover with
  | .probed => some { s with removed := true, remover := .marked }
  | .marked => some { s with remover := .polling }
  | .polling => some { s with remover := if s.activeOps = 0 then .quiesced else .waiting }
  | .waiting =>
    if timedOut then some { s with remover := .polling }
    else if 0 < s.opsDrained then
      some { s with opsDrained := s.opsDrained - 1, remover := .polling }
    else none
  | .quiesced => some { s with remover := .torn }
  | .torn =>
    if ∀ call ∈ s.calls, ∀ fd ∈ call.fd, call ≠ .opening fd then
      some { s with miscRegistered := false, remover := .deregistered }
    else none
  | .deregistered =>
    some { s with refs := s.refs - 1, remover := if s.refs - 1 = 0 then .freeing else .done }
  | .freeing => some { s with freed := s.freed + 1, remover := .done }
  | .done => none

end OpGate

inductive GateStep
  | open (fd : ℕ)
  | enter (fd : ℕ)
  | close (fd : ℕ)
  | call (i : ℕ)
  | remove (timedOut : Bool)

/-- One step; `none` where there is nobody to take it.  The kernel closes an fd when no call is
on it, and a new one is another file. -/
def gateStep (s : OpGate) : GateStep → Option OpGate
  | .open fd =>
    if s.miscRegistered ∧ fd ∉ s.fds ∧ ∀ call ∈ s.calls, call.fd ≠ some fd then
      some { s.touch with refs := s.refs + 1, calls := .opening fd :: s.calls }
    else none
  | .enter fd =>
    if fd ∈ s.fds then
      some { s.touch with activeOps := s.activeOps + 1, calls := .entering fd :: s.calls }
    else none
  | .close fd =>
    if fd ∈ s.fds ∧ ∀ call ∈ s.calls, call.fd ≠ some fd then
      some
        { s.touch with
          cmdReaders := s.cmdReaders - 1, fds := s.fds.erase fd, calls := .closing :: s.calls }
    else none
  | .call i =>
    match s.calls[i]? with
    | some call =>
      let (next, goesOn) := s.touch.callStep call
      some { next with calls := Calls.advance s.calls i goesOn }
    | none => none
  | .remove timedOut => s.touch.removeStep timedOut

/-! ### What the gate promises -/

structure GateHolds (s : OpGate) : Prop where
  noneInside : s.remover.pastQuiesce = true → ∀ fd, .inside fd ∉ s.calls
  freed_le : s.freed ≤ 1
  freed_iff : s.freed = 1 ↔ s.remover = .done ∧ s.fds = [] ∧ s.calls = []
  untouched : s.touchedFreed = false

/-! ### The invariant -/

def GateCall.isFreeing (call : GateCall) : Bool := call = .freeing

/-- The last reference is gone. -/
def lastPut (refs : ℤ) : ℕ := if refs = 0 then 1 else 0

/-- The counters count, an operation has its fd open, and whoever has seen the last reference
go frees the device. -/
structure OpGate.Ok (s : OpGate) : Prop where
  activeOps : s.activeOps = s.calls.countP GateCall.counted
  refs : s.refs = s.fds.length + s.calls.countP GateCall.holdsRef + s.remover.holdsRef.toNat
  freed : s.freed + s.calls.countP GateCall.isFreeing + (decide (s.remover = .freeing)).toNat =
    lastPut s.refs
  fdOpen : ∀ call ∈ s.calls, call.isOp = true → ∃ fd ∈ s.fds, call.fd = some fd
  removed : s.remover ≠ .probed → s.removed = true
  registered : s.miscRegistered = !s.remover.pastDeregister
  noneInside : s.remover.pastQuiesce = true → ∀ fd, .inside fd ∉ s.calls
  untouched : s.touchedFreed = false

theorem OpGate.probed_ok : OpGate.probed.Ok where
  activeOps := rfl
  refs := rfl
  freed := rfl
  fdOpen _ member := by simp [OpGate.probed] at member
  removed notProbed := absurd rfl notProbed
  registered := rfl
  noneInside past := by simp [OpGate.probed, RemovePoint.pastQuiesce] at past
  untouched := rfl

theorem RemovePoint.holdsRef_of_registered {point : RemovePoint}
    (notPast : point.pastDeregister = false) : point.holdsRef = true := by
  cases point with
  | probed | marked | polling | waiting | quiesced | torn | deregistered => rfl
  | freeing | done => cases notPast

theorem RemovePoint.of_not_holdsRef {point : RemovePoint} (put : point.holdsRef = false) :
    point = .freeing ∨ point = .done := by
  cases point with
  | probed | marked | polling | waiting | quiesced | torn | deregistered => cases put
  | freeing => exact .inl rfl
  | done => exact .inr rfl

section Step

attribute [local simp] GateCall.counted GateCall.holdsRef GateCall.isFreeing GateCall.isOp
  GateCall.fd RemovePoint.holdsRef RemovePoint.pastDeregister RemovePoint.pastQuiesce

variable {s : OpGate}

theorem OpGate.Ok.touch_eq (ok : s.Ok) (notFreed : s.freed = 0) : s.touch = s := by
  have untouched := ok.untouched
  cases s
  simp_all [OpGate.touch]

theorem OpGate.Ok.freed_of_refs (ok : s.Ok) (positive : 0 < s.refs) : s.freed = 0 := by
  have freed := ok.freed
  rw [lastPut, if_neg (by omega)] at freed
  omega

theorem OpGate.Ok.refs_of_fd (ok : s.Ok) {fd : ℕ} (opened : fd ∈ s.fds) : 0 < s.refs := by
  have := ok.refs
  have := List.length_pos_of_mem opened
  omega

theorem OpGate.Ok.refs_of_remover (ok : s.Ok) (holds : s.remover.holdsRef = true) : 0 < s.refs := by
  have refs := ok.refs
  rw [holds, Bool.toNat_true] at refs
  omega

theorem OpGate.Ok.refs_of_call (ok : s.Ok) {call : GateCall} (inFlight : call ∈ s.calls)
    (notFreeing : call ≠ .freeing) : 0 < s.refs := by
  cases isOp : call.isOp with
  | true =>
      rcases ok.fdOpen call inFlight isOp with ⟨fd, opened, -⟩
      exact ok.refs_of_fd opened
  | false =>
      have holds : call.holdsRef = true := by
        cases call <;> simp_all
      have counted : 0 < s.calls.countP GateCall.holdsRef :=
        List.countP_pos_iff.mpr ⟨call, inFlight, holds⟩
      have := ok.refs
      omega

theorem OpGate.Ok.freed_of_call (ok : s.Ok) {call : GateCall} (inFlight : call ∈ s.calls) :
    s.freed = 0 := by
  by_cases isFreeing : call = .freeing
  · have counted : 0 < s.calls.countP GateCall.isFreeing :=
      List.countP_pos_iff.mpr ⟨call, inFlight, decide_eq_true isFreeing⟩
    have := ok.freed
    have : lastPut s.refs ≤ 1 := by
      unfold lastPut
      split <;> omega
    omega
  · exact ok.freed_of_refs (ok.refs_of_call inFlight isFreeing)

/-- A call goes on with the counters in step. -/
theorem OpGate.Ok.goOn (ok : s.Ok) {i : ℕ} {call : GateCall} (running : s.calls[i]? = some call)
    (goesOn : Option GateCall) {after : OpGate}
    (calls : after.calls = Calls.advance s.calls i goesOn)
    (kept : (after.remover, after.removed, after.miscRegistered, after.touchedFreed) =
      (s.remover, s.removed, s.miscRegistered, s.touchedFreed))
    (active : after.activeOps + [call].countP GateCall.counted =
      s.activeOps + goesOn.toList.countP GateCall.counted)
    (refs : after.refs + [call].countP GateCall.holdsRef + s.fds.length =
      s.refs + goesOn.toList.countP GateCall.holdsRef + after.fds.length)
    (freed : after.freed + goesOn.toList.countP GateCall.isFreeing + lastPut s.refs =
      s.freed + [call].countP GateCall.isFreeing + lastPut after.refs)
    (fds : s.fds ⊆ after.fds)
    (sameFd : ∀ other ∈ goesOn, other.isOp = true → call.isOp = true ∧ other.fd = call.fd)
    (notInside : s.removed = true → ∀ fd, goesOn ≠ some (.inside fd)) : after.Ok := by
  simp only [Prod.mk.injEq] at kept
  rcases kept with ⟨sameRemover, sameRemoved, sameRegistered, sameTouched⟩
  have inFlight := List.mem_of_getElem? running
  have countedStep := Calls.countP_advance GateCall.counted running goesOn
  have holdsStep := Calls.countP_advance GateCall.holdsRef running goesOn
  have freeingStep := Calls.countP_advance GateCall.isFreeing running goesOn
  refine ⟨?_, ?_, ?_, ?_, ?_, ?_, ?_, ?_⟩
  · have := ok.activeOps
    rw [calls]
    omega
  · have := ok.refs
    rw [calls, sameRemover]
    omega
  · have := ok.freed
    rw [calls, sameRemover]
    omega
  · rw [calls]
    intro other member isOp
    rcases Calls.mem_advance running member with old | new
    · rcases ok.fdOpen other old isOp with ⟨fd, opened, onFd⟩
      exact ⟨fd, fds opened, onFd⟩
    · rcases sameFd other new isOp with ⟨callIsOp, same⟩
      rcases ok.fdOpen call inFlight callIsOp with ⟨fd, opened, onFd⟩
      exact ⟨fd, fds opened, same.trans onFd⟩
  · rw [sameRemover, sameRemoved]
    exact ok.removed
  · rw [sameRemover, sameRegistered]
    exact ok.registered
  · rw [sameRemover, calls]
    intro past fd member
    rcases Calls.mem_advance running member with old | new
    · exact ok.noneInside past fd old
    · refine notInside (ok.removed ?_) fd new
      intro probed
      simp [probed] at past
  · rw [sameTouched]
    exact ok.untouched

theorem OpGate.Ok.callStep (ok : s.Ok) {i : ℕ} {call : GateCall}
    (running : s.calls[i]? = some call) :
    OpGate.Ok { (s.callStep call).1 with
      calls := Calls.advance s.calls i (s.callStep call).2 } := by
  have inFlight := List.mem_of_getElem? running
  cases call with
  | opening fd =>
      refine ok.goOn running none rfl rfl ?_ ?_ ?_ (List.subset_cons_self fd s.fds) ?_ ?_
      all_goals simp [OpGate.callStep]
      omega
  | entering fd =>
      cases removed : s.removed with
      | true =>
          refine ok.goOn running (some (.bailing fd)) ?_ rfl ?_ ?_ ?_ (List.Subset.refl _) ?_ ?_
          all_goals simp [OpGate.callStep, removed]
      | false =>
          refine ok.goOn running (some (.inside fd)) ?_ rfl ?_ ?_ ?_ (List.Subset.refl _) ?_ ?_
          all_goals simp [OpGate.callStep, removed]
  | bailing fd =>
      refine ok.goOn running (if s.activeOps - 1 = 0 then some (.draining fd) else none) rfl rfl
        ?_ ?_ ?_ (List.Subset.refl _) ?_ ?_
      all_goals split <;> simp [OpGate.callStep]
  | inside fd =>
      refine ok.goOn running (if s.activeOps - 1 = 0 then some (.leaving fd) else none) rfl rfl
        ?_ ?_ ?_ (List.Subset.refl _) ?_ ?_
      all_goals split <;> simp [OpGate.callStep]
  | leaving fd =>
      refine ok.goOn running (if s.removed then some (.draining fd) else none) rfl rfl
        ?_ ?_ ?_ (List.Subset.refl _) ?_ ?_
      all_goals split <;> simp [OpGate.callStep]
  | draining fd =>
      refine ok.goOn running none rfl rfl ?_ ?_ ?_ (List.Subset.refl _) ?_ ?_
      all_goals simp [OpGate.callStep]
  | closing =>
      have positive := ok.refs_of_call inFlight (by simp)
      refine ok.goOn running (if s.refs - 1 = 0 then some .freeing else none) rfl rfl
        ?_ ?_ ?_ (List.Subset.refl _) ?_ ?_
      all_goals split <;> simp_all [OpGate.callStep, lastPut]
      all_goals omega
  | freeing =>
      refine ok.goOn running none rfl rfl ?_ ?_ ?_ (List.Subset.refl _) ?_ ?_
      all_goals simp [OpGate.callStep]

/-- A call that is not inside yet may come. -/
theorem OpGate.Ok.noneInside_cons (ok : s.Ok) {call : GateCall} (outside : ∀ fd, .inside fd ≠ call)
    (past : s.remover.pastQuiesce = true) (fd : ℕ) : .inside fd ∉ call :: s.calls := by
  intro member
  rcases List.mem_cons.mp member with new | old
  · exact outside fd new
  · exact ok.noneInside past fd old

theorem OpGate.Ok.open (ok : s.Ok) (registered : s.miscRegistered = true) (fd : ℕ) :
    OpGate.Ok { s with refs := s.refs + 1, calls := .opening fd :: s.calls } := by
  have positive : 0 < s.refs := by
    apply ok.refs_of_remover
    apply RemovePoint.holdsRef_of_registered
    simpa [registered] using ok.registered.symm
  refine { ok with activeOps := ?_, refs := ?_, freed := ?_, fdOpen := ?_, noneInside := ?_ }
  · simpa using ok.activeOps
  · have := ok.refs
    simp only [List.countP_cons, GateCall.holdsRef, if_true]
    omega
  · have freed := ok.freed
    simp only [List.countP_cons, GateCall.isFreeing, lastPut] at freed ⊢
    rw [if_neg (by omega)] at freed ⊢
    simpa using freed
  · intro call member isOp
    rcases List.mem_cons.mp member with rfl | old
    · simp at isOp
    · exact ok.fdOpen call old isOp
  · exact ok.noneInside_cons nofun

theorem OpGate.Ok.enter (ok : s.Ok) {fd : ℕ} (opened : fd ∈ s.fds) :
    OpGate.Ok { s with activeOps := s.activeOps + 1, calls := .entering fd :: s.calls } := by
  refine { ok with activeOps := ?_, refs := ?_, freed := ?_, fdOpen := ?_, noneInside := ?_ }
  · have := ok.activeOps
    simp only [List.countP_cons, GateCall.counted, if_true]
    omega
  · simpa using ok.refs
  · simpa using ok.freed
  · intro call member isOp
    rcases List.mem_cons.mp member with rfl | old
    · exact ⟨fd, opened, rfl⟩
    · exact ok.fdOpen call old isOp
  · exact ok.noneInside_cons nofun

theorem OpGate.Ok.close (ok : s.Ok) {fd : ℕ} (opened : fd ∈ s.fds)
    (unused : ∀ call ∈ s.calls, call.fd ≠ some fd) :
    OpGate.Ok
      { s with
        cmdReaders := s.cmdReaders - 1, fds := s.fds.erase fd, calls := .closing :: s.calls } := by
  refine { ok with activeOps := ?_, refs := ?_, freed := ?_, fdOpen := ?_, noneInside := ?_ }
  · simpa using ok.activeOps
  · have := ok.refs
    have := List.length_pos_of_mem opened
    simp only [List.countP_cons, GateCall.holdsRef, if_true, List.length_erase_of_mem opened]
    omega
  · simpa using ok.freed
  · intro call member isOp
    rcases List.mem_cons.mp member with rfl | old
    · simp at isOp
    · rcases ok.fdOpen call old isOp with ⟨other, otherOpen, onOther⟩
      refine ⟨other, (List.mem_erase_of_ne ?_).mpr otherOpen, onOther⟩
      rintro rfl
      exact unused call old onOther
  · exact ok.noneInside_cons nofun

/-- No operation is inside when the removal has read a count of zero. -/
theorem OpGate.Ok.noneInside_of_zero (ok : s.Ok) (zero : s.activeOps = 0) (fd : ℕ) :
    .inside fd ∉ s.calls := by
  intro member
  have counted : 0 < s.calls.countP GateCall.counted :=
    List.countP_pos_iff.mpr ⟨_, member, rfl⟩
  have := ok.activeOps
  omega

/-- The removal goes on.  Past `artosyn_quiesce` it only comes from a count of zero. -/
theorem OpGate.Ok.goesTo (ok : s.Ok) {after : OpGate}
    (kept : (after.activeOps, after.fds, after.calls, after.touchedFreed) =
      (s.activeOps, s.fds, s.calls, s.touchedFreed))
    (refs : after.refs + s.remover.holdsRef.toNat = s.refs + after.remover.holdsRef.toNat)
    (freed : after.freed + (decide (after.remover = .freeing)).toNat + lastPut s.refs =
      s.freed + (decide (s.remover = .freeing)).toNat + lastPut after.refs)
    (removed : after.removed = true)
    (registered : after.miscRegistered = !after.remover.pastDeregister)
    (quiet : after.remover.pastQuiesce = true →
      s.remover.pastQuiesce = true ∨ s.activeOps = 0) : after.Ok := by
  simp only [Prod.mk.injEq] at kept
  rcases kept with ⟨sameActive, sameFds, sameCalls, sameTouched⟩
  refine ⟨?_, ?_, ?_, ?_, fun _ => removed, registered, ?_, sameTouched.trans ok.untouched⟩
  · rw [sameActive, sameCalls]
    exact ok.activeOps
  · have := ok.refs
    rw [sameFds, sameCalls]
    omega
  · have := ok.freed
    rw [sameCalls]
    omega
  · rw [sameCalls, sameFds]
    exact ok.fdOpen
  · rw [sameCalls]
    intro past
    rcases quiet past with already | zero
    · exact ok.noneInside already
    · exact ok.noneInside_of_zero zero

theorem OpGate.Ok.removeStep (ok : s.Ok) {timedOut : Bool} {next : OpGate}
    (done : s.removeStep timedOut = some next) : next.Ok := by
  have removed := ok.removed
  have registered := ok.registered
  unfold OpGate.removeStep at done
  cases point : s.remover with
  | probed | marked | quiesced =>
      simp only [point] at done removed registered
      cases done
      refine ok.goesTo ?_ ?_ ?_ ?_ ?_ ?_
      all_goals simp_all
  | polling =>
      simp only [point] at done removed registered
      cases done
      by_cases zero : s.activeOps = 0
      · refine ok.goesTo ?_ ?_ ?_ ?_ ?_ (fun _ => .inr zero)
        all_goals simp_all
      · refine ok.goesTo ?_ ?_ ?_ ?_ ?_ ?_
        all_goals simp_all
  | waiting =>
      simp only [point] at done removed registered
      split at done
      · cases done
        refine ok.goesTo ?_ ?_ ?_ ?_ ?_ ?_
        all_goals simp_all
      · rcases Option.ite_none_right_eq_some.mp done with ⟨-, polled⟩
        cases polled
        refine ok.goesTo ?_ ?_ ?_ ?_ ?_ ?_
        all_goals simp_all
  | torn =>
      simp only [point] at done removed registered
      rcases Option.ite_none_right_eq_some.mp done with ⟨-, deregistered⟩
      cases deregistered
      refine ok.goesTo ?_ ?_ ?_ ?_ ?_ ?_
      all_goals simp_all
  | deregistered =>
      have positive := ok.refs_of_remover (by rw [point]; rfl)
      simp only [point] at done removed registered
      cases done
      by_cases last : s.refs - 1 = 0
      · refine ok.goesTo ?_ ?_ ?_ ?_ ?_ ?_
        all_goals simp_all [lastPut]
        all_goals omega
      · refine ok.goesTo ?_ ?_ ?_ ?_ ?_ ?_
        all_goals simp_all [lastPut]
        omega
  | freeing =>
      simp only [point] at done removed registered
      cases done
      refine ok.goesTo ?_ ?_ ?_ ?_ ?_ ?_
      all_goals simp_all
  | done => simp [point] at done

theorem gateStep_ok (ok : s.Ok) {step : GateStep} {next : OpGate}
    (done : gateStep s step = some next) : next.Ok := by
  cases step with
  | «open» fd =>
      rcases Option.ite_none_right_eq_some.mp done with ⟨⟨registered, -, -⟩, opened⟩
      cases opened
      have notPast : s.remover.pastDeregister = false := by
        simpa [registered] using ok.registered.symm
      have positive := ok.refs_of_remover (RemovePoint.holdsRef_of_registered notPast)
      rw [ok.touch_eq (ok.freed_of_refs positive)]
      exact ok.open registered fd
  | enter fd =>
      rcases Option.ite_none_right_eq_some.mp done with ⟨opened, entered⟩
      cases entered
      rw [ok.touch_eq (ok.freed_of_refs (ok.refs_of_fd opened))]
      exact ok.enter opened
  | close fd =>
      rcases Option.ite_none_right_eq_some.mp done with ⟨⟨opened, unused⟩, closed⟩
      cases closed
      rw [ok.touch_eq (ok.freed_of_refs (ok.refs_of_fd opened))]
      exact ok.close opened unused
  | call i =>
      cases running : s.calls[i]? with
      | none => simp [gateStep, running] at done
      | some call =>
          simp only [gateStep, running, Option.some.injEq] at done
          subst done
          rw [ok.touch_eq (ok.freed_of_call (List.mem_of_getElem? running))]
          exact ok.callStep running
  | remove timedOut =>
      by_cases finished : s.remover = .done
      · simp [gateStep, OpGate.removeStep, OpGate.touch, finished] at done
      · have notFreed : s.freed = 0 := by
          by_cases last : s.remover = .freeing
          · have freed := ok.freed
            rw [decide_eq_true last, Bool.toNat_true, lastPut] at freed
            split at freed <;> omega
          · apply ok.freed_of_refs
            apply ok.refs_of_remover
            by_contra put
            rcases RemovePoint.of_not_holdsRef (Bool.eq_false_iff.mpr put) with isLast | returned
            · exact last isLast
            · exact finished returned
        rw [gateStep, ok.touch_eq notFreed] at done
        exact ok.removeStep done

theorem OpGate.Ok.holds (ok : s.Ok) : GateHolds s where
  noneInside := ok.noneInside
  freed_le := by
    have freed := ok.freed
    unfold lastPut at freed
    split at freed <;> omega
  freed_iff := by
    have refs := ok.refs
    have freed := ok.freed
    constructor
    · intro isFreed
      have noRef : s.refs = 0 := by
        by_contra notZero
        rw [lastPut, if_neg notZero] at freed
        omega
      rw [noRef] at refs
      rw [noRef, lastPut, if_pos rfl] at freed
      refine ⟨?_, List.length_eq_zero_iff.mp (by omega), ?_⟩
      · have put : s.remover.holdsRef = false := by
          by_contra holds
          have := ok.refs_of_remover (Bool.of_not_eq_false holds)
          omega
        rcases RemovePoint.of_not_holdsRef put with last | finished
        · rw [decide_eq_true last, Bool.toNat_true] at freed
          omega
        · exact finished
      · rw [List.eq_nil_iff_forall_not_mem]
        intro call inFlight
        have := ok.freed_of_call inFlight
        omega
    · rintro ⟨finished, noFd, noCall⟩
      have noRef : s.refs = 0 := by simpa [finished, noFd, noCall] using refs
      simpa [finished, noCall, noRef, lastPut] using freed
  untouched := ok.untouched

end Step

/-! ### The whole run -/

theorem opGate_holds {steps : List GateStep} {s : OpGate}
    (run : Trace (fun s step next => gateStep s step = some next) .probed steps s) :
    GateHolds s := by
  have ok : s.Ok := by
    refine run.invariant ?_ OpGate.probed_ok
    intro s step next ok done
    exact gateStep_ok ok done
  exact ok.holds

/-- An operation that was counted before the removal drains it, one that comes later bails,
and the close after the removal frees the device. -/
theorem opGate_holds_removed :
    ∃ s, Trace (fun s step next => gateStep s step = some next) .probed
        [.open 3, .call 0, .enter 3, .call 0, .remove false, .remove false, .remove false, .call 0,
          .call 0, .call 0, .remove false, .enter 3, .call 0, .remove false, .remove true, .call 0,
          .call 0, .remove false, .remove false, .remove false, .remove false, .close 3, .call 0,
          .call 0] s ∧ s.freed = 1 ∧ GateHolds s := by
  have checked : ([.open 3, .call 0, .enter 3, .call 0, .remove false, .remove false,
      .remove false, .call 0, .call 0, .call 0, .remove false, .enter 3, .call 0, .remove false,
      .remove true, .call 0, .call 0, .remove false, .remove false, .remove false, .remove false,
      .close 3, .call 0, .call 0].foldlM gateStep .probed).any
        (fun s => decide (s.freed = 1)) = true := by
    decide +kernel
  rcases (Option.any_eq_true _ _).mp checked with ⟨s, done, facts⟩
  have run := Run.of_foldlM gateStep done
  exact ⟨s, run, of_decide_eq_true facts, opGate_holds run⟩

end MlKernel.Sdio
