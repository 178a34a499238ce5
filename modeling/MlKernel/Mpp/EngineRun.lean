import MlKernel.Mpp.Engines

/-!
# Slots and interrupts correspond

`SlotHeld` is what a slot is between two steps, by the call that works on it: at
most one call does, and only a `FREE` that comes in before its `REGISTER` has
returned can make it two.  An owner whose fd is being released stays known until
the loop of the release has come to its slot.
-/

namespace MlKernel.Mpp

/-- The calls that work on a slot. -/
def callsAt (calls : List MppCall) (slot : ℕ) : List MppCall :=
  calls.filter fun call => call.slot = slot

/-- The fd is open, or the loop of its release has still to come to the slot. -/
def StaysOpen (fds : List ℕ) (calls : List MppCall) (slot fd : ℕ) : Prop :=
  fd ∈ fds ∨ ∃ call ∈ calls, call.closing = true ∧ call.fd = fd ∧ call.slot < slot

/-- A slot, the interrupts requested with it and the calls that work on it. -/
inductive SlotHeld (engine : MppEngine) (irqs : List ℕ) (staysOpen : ℕ → Prop) :
    List MppCall → Prop where
  | idle (inactive : engine.active = false) (unmarked : engine.freeing = false)
      (unrequested : irqs = []) : SlotHeld engine irqs staysOpen []
  | registered (fd : ℕ) (active : engine.active = true) (unmarked : engine.freeing = false)
      (owned : engine.owner = some fd) (stays : staysOpen fd) (requested : irqs = [engine.virq]) :
      SlotHeld engine irqs staysOpen []
  | requesting (fd slot virq : ℕ) (active : engine.active = true)
      (unmarked : engine.freeing = false) (owned : engine.owner = some fd)
      (sameVirq : engine.virq = virq) (unrequested : irqs = []) :
      SlotHeld engine irqs staysOpen [.requesting fd slot virq]
  | unwinding (fd slot : ℕ) (active : engine.active = true) (unmarked : engine.freeing = false)
      (owned : engine.owner = some fd) (unrequested : irqs = []) :
      SlotHeld engine irqs staysOpen [.unwinding fd slot]
  | freeing (fd slot virq : ℕ) (closing : Bool) (active : engine.active = true)
      (marked : engine.freeing = true) (requested : irqs = [virq]) :
      SlotHeld engine irqs staysOpen [.freeing fd slot virq closing]
  | freed (fd slot : ℕ) (closing : Bool) (active : engine.active = true)
      (marked : engine.freeing = true) (unrequested : irqs = []) :
      SlotHeld engine irqs staysOpen [.freed fd slot closing]

theorem SlotHeld.imp {engine : MppEngine} {irqs : List ℕ} {staysOpen staysOpen' : ℕ → Prop}
    {calls : List MppCall} (held : SlotHeld engine irqs staysOpen calls)
    (stillOpen : ∀ fd, engine.ownedBy fd = true → staysOpen fd → staysOpen' fd) :
    SlotHeld engine irqs staysOpen' calls := by
  cases held with
  | idle inactive unmarked unrequested => exact .idle inactive unmarked unrequested
  | registered fd active unmarked owned stays requested =>
      refine .registered fd active unmarked owned (stillOpen fd ?_ stays) requested
      simp [MppEngine.ownedBy, active, unmarked, owned]
  | requesting fd slot virq active unmarked owned sameVirq unrequested =>
      exact .requesting fd slot virq active unmarked owned sameVirq unrequested
  | unwinding fd slot active unmarked owned unrequested =>
      exact .unwinding fd slot active unmarked owned unrequested
  | freeing fd slot virq closing active marked requested =>
      exact .freeing fd slot virq closing active marked requested
  | freed fd slot closing active marked unrequested =>
      exact .freed fd slot closing active marked unrequested

section Slot

variable {engine : MppEngine} {irqs : List ℕ} {staysOpen : ℕ → Prop} {calls : List MppCall}
  {call : MppCall}

theorem SlotHeld.of_inactive (held : SlotHeld engine irqs staysOpen calls)
    (inactive : engine.active = false) : calls = [] ∧ engine.freeing = false ∧ irqs = [] := by
  cases held with
  | idle _ unmarked unrequested => exact ⟨rfl, unmarked, unrequested⟩
  | registered _ active | requesting _ _ _ active | unwinding _ _ active
  | freeing _ _ _ _ active | freed _ _ _ active => simp [inactive] at active

theorem MppEngine.active_of_ownedBy {fd : ℕ} (owned : engine.ownedBy fd = true) :
    engine.active = true := by
  simp only [MppEngine.ownedBy, Bool.and_eq_true] at owned
  exact owned.1.1

/-- A slot that a `FREE` or a release finds is registered, or its `REGISTER` is on its way. -/
theorem SlotHeld.of_ownedBy (held : SlotHeld engine irqs staysOpen calls) {fd : ℕ}
    (owned : engine.ownedBy fd = true) :
    (calls = [] ∧ irqs = [engine.virq] ∧ staysOpen fd) ∨
      ∃ call ∈ calls, call.registering = true ∧ call.fd = fd := by
  simp only [MppEngine.ownedBy, Bool.and_eq_true, Bool.not_eq_true', decide_eq_true_eq] at owned
  rcases owned with ⟨⟨isActive, isUnmarked⟩, isOwned⟩
  cases held with
  | idle inactive => simp [inactive] at isActive
  | registered other _ _ owned stays requested =>
      have same : other = fd := Option.some.inj (owned.symm.trans isOwned)
      subst same
      left
      exact ⟨rfl, requested, stays⟩
  | requesting other slot virq _ _ owned =>
      right
      exact ⟨_, List.mem_singleton_self _, rfl, Option.some.inj (owned.symm.trans isOwned)⟩
  | unwinding other slot _ _ owned =>
      right
      exact ⟨_, List.mem_singleton_self _, rfl, Option.some.inj (owned.symm.trans isOwned)⟩
  | freeing _ _ _ _ _ marked => simp [isUnmarked] at marked
  | freed _ _ _ _ marked => simp [isUnmarked] at marked

/-- A slot has one call at most. -/
theorem SlotHeld.eq_singleton (held : SlotHeld engine irqs staysOpen calls)
    (member : call ∈ calls) : calls = [call] := by
  cases held with
  | idle => simp at member
  | registered => simp at member
  | requesting | unwinding | freeing | freed =>
      rw [List.mem_singleton] at member
      rw [member]

end Slot

/-- Every slot is held.  A call on an open fd is no release of it, and only the slots of
the array are ever used. -/
structure SlotsHeld (s : EngineSystem) : Prop where
  held : ∀ slot, SlotHeld (s.engines slot) (s.irqsFor slot) (StaysOpen s.fds s.calls slot)
    (callsAt s.calls slot)
  fdOpen : ∀ call ∈ s.calls, call.fd ∈ s.fds ↔ call.closing = false
  inArray : ∀ slot, (s.engines slot).active = true → slot < maxEngines

theorem EngineSystem.loaded_held : SlotsHeld EngineSystem.loaded where
  held _ := .idle rfl rfl rfl
  fdOpen _ member := by simp [EngineSystem.loaded] at member
  inArray _ active := by simp [EngineSystem.loaded] at active

theorem callsAt_cons_of_ne {call : MppCall} {slot : ℕ} (calls : List MppCall)
    (other : call.slot ≠ slot) : callsAt (call :: calls) slot = callsAt calls slot := by
  simp [callsAt, other]

theorem callsAt_cons (call : MppCall) (calls : List MppCall) :
    callsAt (call :: calls) call.slot = call :: callsAt calls call.slot := by
  simp [callsAt]

theorem StaysOpen.cons {fds : List ℕ} {calls : List MppCall} {slot fd : ℕ}
    (stays : StaysOpen fds calls slot fd) (call : MppCall) :
    StaysOpen fds (call :: calls) slot fd := by
  rcases stays with opened | ⟨closing, member, rest⟩
  · left
    exact opened
  · right
    exact ⟨closing, List.mem_cons_of_mem call member, rest⟩

theorem callsAt_advance_of_ne {calls : List MppCall} {i : ℕ} {call : MppCall}
    (running : calls[i]? = some call) {next : Option MppCall} {slot : ℕ}
    (other : call.slot ≠ slot) (stillOther : ∀ call ∈ next, call.slot ≠ slot) :
    callsAt (Calls.advance calls i next) slot = callsAt calls slot := by
  apply Calls.filter_advance_of_ne _ running
  · simpa using other
  · rw [List.filter_eq_nil_iff]
    intro call member
    simpa using stillOther call (Option.mem_toList.mp member)

theorem callsAt_advance {calls : List MppCall} {i : ℕ} {call : MppCall}
    (running : calls[i]? = some call) (only : callsAt calls call.slot = [call])
    {next : Option MppCall} (sameSlot : ∀ other ∈ next, other.slot = call.slot) :
    callsAt (Calls.advance calls i next) call.slot = next.toList := by
  unfold callsAt
  rw [Calls.filter_advance_of_only _ running only, List.filter_eq_self]
  intro other member
  exact decide_eq_true (sameSlot other (Option.mem_toList.mp member))

theorem closing_of_registering {call : MppCall} (registering : call.registering = true) :
    call.closing = false := by
  cases call with
  | requesting | unwinding => rfl
  | freeing | freed => simp [MppCall.registering] at registering

/-- The release marks the first slot that is left, and the others wait for its loop. -/
theorem releaseLoop_held {s : EngineSystem} {fd first : ℕ}
    (held : ∀ slot, SlotHeld (s.engines slot) (s.irqsFor slot)
      (fun owner => StaysOpen s.fds s.calls slot owner ∨ owner = fd ∧ first ≤ slot)
      (callsAt s.calls slot))
    (fdOpen : ∀ call ∈ s.calls, call.fd ∈ s.fds ↔ call.closing = false)
    (inArray : ∀ slot, (s.engines slot).active = true → slot < maxEngines) (closed : fd ∉ s.fds) :
    SlotsHeld
      { s with
        engines := (releaseLoop s.engines fd first).1
        calls := (releaseLoop s.engines fd first).2.toList ++ s.calls } := by
  have inRange {slot : ℕ} (owned : (s.engines slot).ownedBy fd = true) :
      slot ∈ List.range maxEngines :=
    List.mem_range.mpr (inArray slot (MppEngine.active_of_ownedBy owned))
  unfold releaseLoop
  cases found : nextOwned s.engines fd first with
  | none =>
      refine ⟨fun slot => (held slot).imp ?_, fdOpen, inArray⟩
      intro owner owned stays
      rcases stays with stays | ⟨rfl, after⟩
      · exact stays
      · have notOwned := List.find?_eq_none.mp found slot (inRange owned)
        simp [after, owned] at notOwned
  | some slot =>
      rcases List.find?_range_eq_some.mp found with ⟨isOwned, -, isFirst⟩
      simp only [Bool.and_eq_true, decide_eq_true_eq] at isOwned
      have registered : callsAt s.calls slot = [] ∧
          s.irqsFor slot = [(s.engines slot).virq] := by
        rcases (held slot).of_ownedBy isOwned.2 with ⟨none, requested, -⟩ |
          ⟨call, member, registering, rfl⟩
        · exact ⟨none, requested⟩
        · have inFlight := (List.mem_filter.mp member).1
          exact absurd ((fdOpen call inFlight).mpr (closing_of_registering registering)) closed
      have active := MppEngine.active_of_ownedBy isOwned.2
      refine ⟨fun other => ?_, ?_, ?_⟩
      · by_cases same : slot = other
        · subst same
          change SlotHeld (markFreeing s.engines slot slot) (s.irqsFor slot) _
            (callsAt (.freeing fd slot (s.engines slot).virq true :: s.calls)
              (MppCall.freeing fd slot (s.engines slot).virq true).slot)
          rw [callsAt_cons]
          simp only [MppCall.slot, registered.1, markFreeing, Function.update_self]
          exact .freeing fd slot _ true active rfl registered.2
        · change SlotHeld (markFreeing s.engines slot other) (s.irqsFor other) _
            (callsAt (.freeing fd slot (s.engines slot).virq true :: s.calls) other)
          rw [callsAt_cons_of_ne _ (by simpa [MppCall.slot] using same), markFreeing,
            Function.update_of_ne (Ne.symm same)]
          refine (held other).imp ?_
          intro owner owned stays
          rcases stays with stays | ⟨rfl, after⟩
          · exact stays.cons _
          · right
            refine ⟨_, List.mem_cons_self, rfl, rfl, ?_⟩
            apply Nat.lt_of_not_le
            intro before
            have notOwned := isFirst other (Nat.lt_of_le_of_ne before (Ne.symm same))
            simp [after, owned] at notOwned
      · intro call member
        rcases List.mem_cons.mp member with rfl | old
        · simp [MppCall.fd, MppCall.closing, closed]
        · exact fdOpen call old
      · intro other isActive
        by_cases same : other = slot
        · subst same
          exact inArray other active
        · apply inArray
          simpa [markFreeing, Function.update_of_ne same] using isActive

/-! ### One step -/

section Step

variable {s : EngineSystem}

theorem SlotsHeld.callsAt_eq (ok : SlotsHeld s) {call : MppCall} (inFlight : call ∈ s.calls) :
    callsAt s.calls call.slot = [call] :=
  (ok.held call.slot).eq_singleton (List.mem_filter.mpr ⟨inFlight, decide_eq_true rfl⟩)

/-- What a slot is to the only call that works on it. -/
theorem SlotsHeld.held_of_mem (ok : SlotsHeld s) {call : MppCall} (inFlight : call ∈ s.calls) :
    SlotHeld (s.engines call.slot) (s.irqsFor call.slot) (StaysOpen s.fds s.calls call.slot)
      [call] := by
  rw [← ok.callsAt_eq inFlight]
  exact ok.held call.slot

/-- A new call on a slot that no call works on. -/
theorem SlotsHeld.enter (ok : SlotsHeld s) (call : MppCall) (free : callsAt s.calls call.slot = [])
    (fdOpen : call.fd ∈ s.fds) (notClosing : call.closing = false) {engine : MppEngine}
    (here : SlotHeld engine (s.irqsFor call.slot) (StaysOpen s.fds (call :: s.calls) call.slot)
      [call])
    (inArray : call.slot < maxEngines) :
    SlotsHeld
      { s with
        engines := Function.update s.engines call.slot engine, calls := call :: s.calls } := by
  refine ⟨fun slot => ?_, ?_, ?_⟩
  · change SlotHeld (Function.update s.engines call.slot engine slot) (s.irqsFor slot) _
      (callsAt (call :: s.calls) slot)
    by_cases same : slot = call.slot
    · subst same
      rw [callsAt_cons, free, Function.update_self]
      exact here
    · rw [callsAt_cons_of_ne _ (Ne.symm same), Function.update_of_ne same]
      exact (ok.held slot).imp fun _ _ stays => stays.cons call
  · intro other member
    rcases List.mem_cons.mp member with rfl | old
    · simp [fdOpen, notClosing]
    · exact ok.fdOpen other old
  · intro slot active
    by_cases same : slot = call.slot
    · rw [same]
      exact inArray
    · apply ok.inArray
      simpa [Function.update_of_ne same] using active

/-- A call goes on at its slot, or returns. -/
theorem SlotsHeld.advance (ok : SlotsHeld s) {i : ℕ} {call : MppCall}
    (running : s.calls[i]? = some call) (next : Option MppCall)
    (sameSlot : ∀ other ∈ next, other.slot = call.slot) {after : EngineSystem}
    (calls : after.calls = Calls.advance s.calls i next) {stillOpen : ℕ → ℕ → Prop}
    (stays : ∀ slot fd, StaysOpen s.fds s.calls slot fd → stillOpen slot fd)
    (engines : ∀ slot ≠ call.slot, after.engines slot = s.engines slot)
    (irqs : ∀ slot ≠ call.slot, after.irqsFor slot = s.irqsFor slot)
    (here : SlotHeld (after.engines call.slot) (after.irqsFor call.slot) (stillOpen call.slot)
      next.toList) (slot : ℕ) :
    SlotHeld (after.engines slot) (after.irqsFor slot) (stillOpen slot)
      (callsAt after.calls slot) := by
  rw [calls]
  by_cases same : slot = call.slot
  · subst same
    rw [callsAt_advance running (ok.callsAt_eq (List.mem_of_getElem? running)) sameSlot]
    exact here
  · rw [callsAt_advance_of_ne running (Ne.symm same) fun other member =>
        (sameSlot other member).trans_ne (Ne.symm same), engines slot same, irqs slot same]
    exact (ok.held slot).imp fun fd _ => stays slot fd

theorem SlotsHeld.fdOpen_advance (ok : SlotsHeld s) {i : ℕ} {call : MppCall}
    (running : s.calls[i]? = some call) (next : Option MppCall)
    (sameFd : ∀ other ∈ next, other.fd = call.fd ∧ other.closing = call.closing) :
    ∀ other ∈ Calls.advance s.calls i next, other.fd ∈ s.fds ↔ other.closing = false := by
  intro other member
  rcases Calls.mem_advance running member with old | new
  · exact ok.fdOpen other old
  · rw [(sameFd other new).1, (sameFd other new).2]
    exact ok.fdOpen call (List.mem_of_getElem? running)

/-- A step of a call, which is still the same call after it or no release. -/
theorem SlotsHeld.goOn (ok : SlotsHeld s) {i : ℕ} {call : MppCall}
    (running : s.calls[i]? = some call) (next : Option MppCall)
    (sameCall : ∀ other ∈ next,
      other.slot = call.slot ∧ other.fd = call.fd ∧ other.closing = call.closing)
    (returns : next = none → call.closing = false) {after : EngineSystem}
    (calls : after.calls = Calls.advance s.calls i next) (fds : after.fds = s.fds)
    (engines : ∀ slot ≠ call.slot, after.engines slot = s.engines slot)
    (irqs : ∀ slot ≠ call.slot, after.irqsFor slot = s.irqsFor slot)
    (active : (after.engines call.slot).active = true → (s.engines call.slot).active = true)
    (here : ∀ staysOpen : ℕ → Prop, (∀ fd ∈ s.fds, staysOpen fd) →
      SlotHeld (after.engines call.slot) (after.irqsFor call.slot) staysOpen next.toList) :
    SlotsHeld after := by
  refine ⟨?_, ?_, ?_⟩
  · refine ok.advance running next (fun other member => (sameCall other member).1) calls ?_
      engines irqs (here _ fun fd opened => ?_)
    · intro slot fd stays
      rw [calls, fds]
      rcases stays with opened | ⟨closer, member, closing, sameFd, before⟩
      · left
        exact opened
      · right
        by_cases same : closer = call
        · subst same
          cases next with
          | none => simp [returns rfl] at closing
          | some other =>
              rcases sameCall other rfl with ⟨slotEq, fdEq, stillClosing⟩
              exact ⟨other, Calls.next_mem_advance running, stillClosing.trans closing,
                fdEq.trans sameFd, slotEq ▸ before⟩
        · exact ⟨closer, Calls.advance_mem next running member same, closing, sameFd, before⟩
    · left
      rw [fds]
      exact opened
  · rw [calls, fds]
    exact ok.fdOpen_advance running next fun other member => (sameCall other member).2
  · intro slot isActive
    apply ok.inArray
    by_cases same : slot = call.slot
    · subst same
      exact active isActive
    · rw [← engines slot same]
      exact isActive

theorem mppRegister_held (ok : SlotsHeld s) {tbl : List (UInt32 × ℕ)} {fd : ℕ}
    (opened : fd ∈ s.fds) {hwirq : UInt32} {next : EngineSystem}
    (done : mppRegister tbl s fd hwirq = .ok next) : SlotsHeld next := by
  unfold mppRegister at done
  cases virqs : virqForHwirq tbl hwirq with
  | none => simp [virqs] at done
  | some virq =>
      cases free : freeSlot s.engines with
      | none => simp [virqs, free] at done
      | some slot =>
          simp only [virqs, free, Except.ok.injEq] at done
          subst done
          rcases List.find?_range_eq_some.mp free with ⟨inactive, inArray, -⟩
          rcases (ok.held slot).of_inactive (by simpa using inactive) with
            ⟨noCall, unmarked, unrequested⟩
          exact ok.enter (.requesting fd slot virq) noCall opened rfl
            (.requesting fd slot virq rfl unmarked rfl rfl unrequested)
            (List.mem_range.mp inArray)

theorem mppFree_held (ok : SlotsHeld s) {fd : ℕ} (opened : fd ∈ s.fds) {hwirq : UInt32}
    (first : RegistersFirst s (.free fd hwirq)) {next : EngineSystem}
    (done : mppFree s fd hwirq = .ok next) : SlotsHeld next := by
  unfold mppFree at done
  cases found : engineByHwirq s.engines hwirq fd with
  | none => simp [found] at done
  | some slot =>
      simp only [found, Except.ok.injEq] at done
      subst done
      rcases List.find?_range_eq_some.mp found with ⟨isOwned, inArray, -⟩
      rw [Bool.and_eq_true] at isOwned
      have active := MppEngine.active_of_ownedBy isOwned.1
      rcases (ok.held slot).of_ownedBy isOwned.1 with ⟨noCall, requested, -⟩ |
        ⟨call, member, registering, -⟩
      · exact ok.enter (.freeing fd slot _ false) noCall opened rfl
          (.freeing fd slot _ false active rfl requested) (List.mem_range.mp inArray)
      · rcases List.mem_filter.mp member with ⟨inFlight, atSlot⟩
        have returned := first slot found call inFlight (of_decide_eq_true atSlot)
        simp [registering] at returned

theorem mppRelease_held (ok : SlotsHeld s) {fd : ℕ}
    (unused : ∀ call ∈ s.calls, call.fd ≠ fd) : SlotsHeld (mppRelease s fd) := by
  have closed : fd ∉ s.fds.filter (· ≠ fd) := by simp
  refine releaseLoop_held (s := { s with fds := s.fds.filter (· ≠ fd) }) ?_ ?_ ok.inArray closed
  · intro slot
    refine (ok.held slot).imp ?_
    intro owner _ stays
    by_cases same : owner = fd
    · right
      exact ⟨same, Nat.zero_le slot⟩
    · left
      rcases stays with stays | closing
      · left
        simp [stays, same]
      · right
        exact closing
  · intro call member
    rw [← ok.fdOpen call member]
    simp [unused call member]

theorem irqsFor_filter (irqs : List IrqAction) (virq slot other : ℕ) :
    ((irqs.filter (· ≠ ⟨virq, slot⟩)).filter fun irq => irq.slot = other).map IrqAction.virq =
      if other = slot then
        ((irqs.filter fun irq => irq.slot = other).map IrqAction.virq).filter (· ≠ virq)
      else (irqs.filter fun irq => irq.slot = other).map IrqAction.virq := by
  induction irqs with
  | nil => simp
  | cons irq irqs ih =>
      rcases irq with ⟨irqVirq, irqSlot⟩
      by_cases same : other = slot <;> by_cases here : irqSlot = other <;>
        by_cases sameVirq : irqVirq = virq <;> simp_all

/-- The interrupt is requested, and the call returns. -/
theorem SlotsHeld.requested (ok : SlotsHeld s) {i fd slot virq : ℕ}
    (running : s.calls[i]? = some (.requesting fd slot virq)) :
    SlotsHeld
      { s with irqs := ⟨virq, slot⟩ :: s.irqs, calls := Calls.advance s.calls i none } := by
  have inFlight := List.mem_of_getElem? running
  refine ok.goOn running none (by simp) (fun _ => rfl) rfl rfl (fun _ _ => rfl) ?_ id ?_
  · intro other different
    have elsewhere : slot ≠ other := Ne.symm different
    simp [EngineSystem.irqsFor, elsewhere]
  · intro staysOpen openStays
    cases ok.held_of_mem inFlight with
    | requesting _ _ _ active unmarked owned sameVirq unrequested =>
        have opened : fd ∈ s.fds := (ok.fdOpen _ inFlight).mpr rfl
        refine .registered fd active unmarked owned (openStays fd opened) ?_
        simp only [EngineSystem.irqsFor, MppCall.slot, List.filter_cons, decide_true, if_true,
          List.map_cons] at unrequested ⊢
        rw [unrequested, ← sameVirq]
        rfl

theorem SlotsHeld.notRequested (ok : SlotsHeld s) {i fd slot virq : ℕ}
    (running : s.calls[i]? = some (.requesting fd slot virq)) :
    SlotsHeld { s with calls := Calls.advance s.calls i (some (.unwinding fd slot)) } := by
  refine ok.goOn running (some (.unwinding fd slot)) ?_ (by simp) rfl rfl (fun _ _ => rfl)
    (fun _ _ => rfl) id ?_
  · simp [MppCall.slot, MppCall.fd, MppCall.closing]
  · intro _ _
    cases ok.held_of_mem (List.mem_of_getElem? running) with
    | requesting _ _ _ active unmarked owned sameVirq unrequested =>
        exact .unwinding fd slot active unmarked owned unrequested

theorem SlotsHeld.irqFreed (ok : SlotsHeld s) {i fd slot virq : ℕ} {closing : Bool}
    (running : s.calls[i]? = some (.freeing fd slot virq closing)) :
    SlotsHeld
      { s with
        irqs := s.irqs.filter (· ≠ ⟨virq, slot⟩)
        calls := Calls.advance s.calls i (some (.freed fd slot closing)) } := by
  refine ok.goOn running (some (.freed fd slot closing)) ?_ (by simp) rfl rfl (fun _ _ => rfl)
    ?_ id ?_
  · simp [MppCall.slot, MppCall.fd, MppCall.closing]
  · intro other different
    have elsewhere : other ≠ slot := different
    unfold EngineSystem.irqsFor
    rw [irqsFor_filter, if_neg elsewhere]
  · intro _ _
    cases ok.held_of_mem (List.mem_of_getElem? running) with
    | freeing _ _ _ _ active marked requested =>
        refine .freed fd slot closing active marked ?_
        unfold EngineSystem.irqsFor at requested ⊢
        rw [irqsFor_filter, requested]
        simp [MppCall.slot]

/-- The slot is given back, by a `REGISTER` that failed or a `FREE`. -/
theorem SlotsHeld.returned (ok : SlotsHeld s) {i : ℕ} {call : MppCall}
    (running : s.calls[i]? = some call) (notClosing : call.closing = false) {engine : MppEngine}
    (inactive : engine.active = false) (unmarked : engine.freeing = false)
    (unrequested : s.irqsFor call.slot = []) :
    SlotsHeld
      { s with
        engines := Function.update s.engines call.slot engine
        calls := Calls.advance s.calls i none } := by
  refine ok.goOn running none (by simp) (fun _ => notClosing) rfl rfl ?_ (fun _ _ => rfl) ?_ ?_
  · intro slot different
    exact Function.update_of_ne different engine s.engines
  · simp [inactive]
  · intro _ _
    simp only [Function.update_self]
    exact .idle inactive unmarked unrequested

/-- The release goes on to its next slot. -/
theorem SlotsHeld.goesOn (ok : SlotsHeld s) {i fd slot : ℕ}
    (running : s.calls[i]? = some (.freed fd slot true)) {engine : MppEngine}
    (inactive : engine.active = false) (unmarked : engine.freeing = false)
    (unrequested : s.irqsFor slot = []) :
    let engines := Function.update s.engines slot engine
    SlotsHeld
      { s with
        engines := (releaseLoop engines fd (slot + 1)).1
        calls := (releaseLoop engines fd (slot + 1)).2.toList ++
          Calls.advance s.calls i none } := by
  have closed : fd ∉ s.fds := by
    intro opened
    have notClosing := (ok.fdOpen _ (List.mem_of_getElem? running)).mp opened
    simp [MppCall.closing] at notClosing
  have after {other : ℕ} (different : other ≠ slot) :
      Function.update s.engines slot engine other = s.engines other :=
    Function.update_of_ne different engine s.engines
  refine releaseLoop_held
    (s :=
      { s with
        engines := Function.update s.engines slot engine
        calls := Calls.advance s.calls i none })
    ?_ (ok.fdOpen_advance running none (by simp)) ?_ closed
  · refine ok.advance running none (by simp) rfl ?_ (fun _ => after) (fun _ _ => rfl) ?_
    · intro other owner stays
      rcases stays with opened | ⟨closer, member, closing, rfl, before⟩
      · exact .inl (.inl opened)
      · by_cases same : closer = .freed fd slot true
        · subst same
          right
          exact ⟨rfl, before⟩
        · left
          right
          exact ⟨closer, Calls.advance_mem none running member same, closing, rfl, before⟩
    · simp only [MppCall.slot, Function.update_self]
      exact .idle inactive unmarked unrequested
  · intro other active
    by_cases same : other = slot
    · subst same
      simp [inactive] at active
    · apply ok.inArray
      simpa [after same] using active

theorem settle_held (ok : SlotsHeld s) {tbl : List (UInt32 × ℕ)} {i : ℕ} {next : EngineSystem}
    (done : engineStep tbl s (.settle i) = some next) : SlotsHeld next := by
  cases running : s.calls[i]? with
  | none => simp [engineStep, running] at done
  | some call =>
      have held := ok.held_of_mem (List.mem_of_getElem? running)
      cases call with
      | requesting | freeing => simp [engineStep, running] at done
      | unwinding fd slot =>
          simp only [engineStep, running, Option.some.injEq] at done
          subst done
          cases held with
          | unwinding _ _ active unmarked owned unrequested =>
              exact ok.returned running rfl rfl unmarked unrequested
      | freed fd slot closing =>
          cases held with
          | freed _ _ _ active marked unrequested =>
              cases closing with
              | false =>
                  simp only [engineStep, running, Bool.false_eq_true, if_false,
                    Option.some.injEq] at done
                  subst done
                  exact ok.returned running rfl rfl rfl unrequested
              | true =>
                  simp only [engineStep, running, if_true, Option.some.injEq] at done
                  subst done
                  exact ok.goesOn running rfl rfl unrequested

theorem onFd_held (ok : SlotsHeld s) {fd : ℕ} {call : Except MppErrno EngineSystem}
    {next : EngineSystem} (done : s.onFd fd call = some next)
    (held : fd ∈ s.fds → ∀ after, call = .ok after → SlotsHeld after) : SlotsHeld next := by
  unfold EngineSystem.onFd at done
  split at done
  · rename_i opened
    cases call with
    | ok after =>
        cases done
        exact held opened next rfl
    | error _ =>
        cases done
        exact ok
  · cases done

theorem engineStep_held (ok : SlotsHeld s) {tbl : List (UInt32 × ℕ)} {step : EngineStep}
    {next : EngineSystem} (first : RegistersFirst s step)
    (done : engineStep tbl s step = some next) : SlotsHeld next := by
  cases step with
  | «open» fd =>
      rcases Option.ite_none_right_eq_some.mp done with ⟨⟨-, unused⟩, opened⟩
      cases opened
      refine ⟨fun slot => (ok.held slot).imp ?_, ?_, ok.inArray⟩
      · intro owner _ stays
        rcases stays with opened | closing
        · left
          exact List.mem_cons_of_mem fd opened
        · right
          exact closing
      · intro call inFlight
        rw [← ok.fdOpen call inFlight]
        simp [unused call inFlight]
  | register fd hwirq =>
      exact onFd_held ok done fun opened _ registered => mppRegister_held ok opened registered
  | free fd hwirq =>
      exact onFd_held ok done fun opened _ freed => mppFree_held ok opened first freed
  | release fd =>
      rcases Option.ite_none_right_eq_some.mp done with ⟨⟨-, unused⟩, released⟩
      cases released
      exact mppRelease_held ok unused
  | requestIrq i accepted =>
      simp only [engineStep] at done
      split at done
      · rename_i fd slot virq running
        cases accepted with
        | true =>
            rcases Option.ite_none_right_eq_some.mp done with ⟨-, requested⟩
            cases requested
            exact ok.requested running
        | false =>
            cases done
            exact ok.notRequested running
      · cases done
  | freeIrq i =>
      simp only [engineStep] at done
      split at done
      · rename_i fd slot virq closing running
        cases done
        exact ok.irqFreed running
      · cases done
  | settle i => exact settle_held ok done

theorem SlotsHeld.correspond (ok : SlotsHeld s) : EnginesCorrespond s where
  active_iff quiet slot _ := by
    have held := ok.held slot
    rw [quiet] at held
    cases held with
    | idle inactive _ unrequested => simp [inactive, unrequested]
    | registered _ active _ _ _ requested => simp [active, requested]
  requested quiet slot _ active := by
    have held := ok.held slot
    rw [quiet] at held
    cases held with
    | idle inactive => simp [inactive] at active
    | registered fd _ _ owned stays requested =>
        rcases stays with opened | ⟨call, inFlight, -⟩
        · exact ⟨requested, fd, opened, owned⟩
        · simp at inFlight
  taken slot free := by
    have inactive := (List.find?_range_eq_some.mp free).1
    exact ((ok.held slot).of_inactive (by simpa using inactive)).2.2

end Step

/-! ### The whole run -/

/-- A step of the driver on a device tree's table, which keeps to `RegistersFirst`. -/
def FirstRegisteredStep (tbl : List (UInt32 × ℕ)) (s : EngineSystem) (step : EngineStep)
    (next : EngineSystem) : Prop :=
  RegistersFirst s step ∧ engineStep tbl s step = some next

theorem engines_correspond {tbl : List (UInt32 × ℕ)} {steps : List EngineStep} {s : EngineSystem}
    (run : Run (FirstRegisteredStep tbl) .loaded steps s) : EnginesCorrespond s := by
  have held : SlotsHeld s := by
    refine run.invariant ?_ EngineSystem.loaded_held
    intro s step next ok taken
    exact engineStep_held ok taken.1 taken.2
  exact held.correspond

/-- Two fds take an interrupt one after the other, and the second is closed with it. -/
theorem engines_correspond_two_fds :
    ∃ s, Run (FirstRegisteredStep [(100, 40), (101, 41)]) .loaded
        [.open 3, .register 3 68, .requestIrq 0 true, .open 7, .free 3 68, .freeIrq 0,
          .register 7 68, .settle 1, .requestIrq 0 true, .release 7, .freeIrq 0, .settle 0,
          .register 3 69, .requestIrq 0 true] s ∧
      s.irqs = [⟨41, 0⟩] ∧ s.calls = [] ∧ EnginesCorrespond s := by
  have checked : ([.open 3, .register 3 68, .requestIrq 0 true, .open 7, .free 3 68, .freeIrq 0,
      .register 7 68, .settle 1, .requestIrq 0 true, .release 7, .freeIrq 0, .settle 0,
      .register 3 69, .requestIrq 0 true].foldlM (fun s step =>
        if RegistersFirst s step then engineStep [(100, 40), (101, 41)] s step else none)
        EngineSystem.loaded).any (fun s => decide (s.irqs = [⟨41, 0⟩] ∧ s.calls = [])) = true := by
    decide +kernel
  rcases (Option.any_eq_true _ _).mp checked with ⟨s, done, facts⟩
  rcases of_decide_eq_true facts with ⟨one, quiet⟩
  have run := Run.of_foldlM_guarded RegistersFirst (engineStep [(100, 40), (101, 41)]) done
  exact ⟨s, run, one, quiet, engines_correspond run⟩

/-- `FREE` comes in after the slot is published and before its interrupt is requested. -/
theorem engines_not_correspond :
    ¬ ∀ (tbl : List (UInt32 × ℕ)) (steps : List EngineStep) (s : EngineSystem),
      Run (fun s step next => engineStep tbl s step = some next) .loaded steps s →
        EnginesCorrespond s := by
  intro correspond
  have early : ([.open 7, .register 7 68, .free 7 68, .freeIrq 0, .settle 0,
      .requestIrq 0 true].foldlM (engineStep [(100, 40)]) EngineSystem.loaded).any (fun s =>
        decide (freeSlot s.engines = some 0 ∧ s.irqsFor 0 = [40])) = true := by
    decide +kernel
  rcases (Option.any_eq_true _ _).mp early with ⟨s, done, facts⟩
  rcases of_decide_eq_true facts with ⟨free, requested⟩
  have reused := (correspond _ _ s (Run.of_foldlM _ done)).taken 0 free
  simp [requested] at reused

end MlKernel.Mpp
