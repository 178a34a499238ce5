import Mathlib.Tactic.Common

/-!
# Runs of a transition system

A transition system is a relation between a state, an event and the next state.
A property that every step preserves holds at the end of every run, and a step
relation that is only known to behave under a guard is run under that guard.
-/

universe u v

/-- `Run step start events finish`: the events lead from one state to the other. -/
inductive Run {State : Type u} {Event : Type v} (step : State → Event → State → Prop) :
    State → List Event → State → Prop where
  | nil (state : State) : Run step state [] state
  | cons {start middle finish : State} {event : Event} {events : List Event}
      (first : step start event middle) (rest : Run step middle events finish) :
      Run step start (event :: events) finish

namespace Run

variable {State : Type u} {Event : Type v} {step : State → Event → State → Prop}

/-- What every step preserves, every run preserves. -/
theorem invariant {property : State → Prop}
    (preserved : ∀ state event next, property state → step state event next → property next)
    {start finish : State} {events : List Event} (run : Run step start events finish)
    (initially : property start) : property finish := by
  induction run with
  | nil => exact initially
  | cons first rest ih => exact ih (preserved _ _ _ initially first)

/-- A property that events of a kind preserve holds after every run of such events. -/
theorem invariant_of_events {property : State → Prop} {kind : Event → Prop}
    (preserved : ∀ state event next, property state → kind event → step state event next →
      property next)
    {start finish : State} {events : List Event} (run : Run step start events finish)
    (ofKind : ∀ event ∈ events, kind event) (initially : property start) : property finish := by
  induction run with
  | nil => exact initially
  | cons first rest ih =>
      exact ih (fun event member => ofKind event (List.mem_cons_of_mem _ member))
        (preserved _ _ _ initially (ofKind _ List.mem_cons_self) first)

theorem imp {other : State → Event → State → Prop} {start finish : State} {events : List Event}
    (run : Run step start events finish)
    (weaker : ∀ state event next, step state event next → other state event next) :
    Run other start events finish := by
  induction run with
  | nil => exact .nil _
  | cons first _ ih => exact .cons (weaker _ _ _ first) ih

theorem append {start middle finish : State} {events later : List Event}
    (run : Run step start events middle) (rest : Run step middle later finish) :
    Run step start (events ++ later) finish := by
  induction run with
  | nil => exact rest
  | cons first _ ih => exact .cons first (ih rest)

theorem of_foldl (next : State → Event → State) (start : State) (events : List Event) :
    Run (fun state event after => next state event = after) start events
      (events.foldl next start) := by
  induction events generalizing start with
  | nil => exact .nil start
  | cons event events ih => exact .cons rfl (ih (next start event))

theorem foldl_invariant {property : State → Prop} (next : State → Event → State)
    (preserved : ∀ state event, property state → property (next state event))
    {start : State} (initially : property start) (events : List Event) :
    property (events.foldl next start) := by
  refine (of_foldl next start events).invariant ?_ initially
  rintro state event _ holds rfl
  exact preserved state event holds

/-- A step function that can refuse an event runs by folding as long as it does not. -/
theorem of_foldlM (next : State → Event → Option State) {start finish : State}
    {events : List Event} (done : events.foldlM next start = some finish) :
    Run (fun state event after => next state event = some after) start events finish := by
  induction events generalizing start with
  | nil =>
      cases done
      exact .nil _
  | cons event events ih =>
      rw [List.foldlM_cons] at done
      rcases Option.bind_eq_some_iff.mp done with ⟨middle, first, rest⟩
      exact .cons first (ih rest)

/-- A run under a guard, checked at every event. -/
theorem of_foldlM_guarded (guard : State → Event → Prop)
    [∀ state event, Decidable (guard state event)] (next : State → Event → Option State)
    {start finish : State} {events : List Event}
    (done : events.foldlM (fun state event =>
      if guard state event then next state event else none) start = some finish) :
    Run (fun state event after => guard state event ∧ next state event = some after)
      start events finish :=
  (of_foldlM _ done).imp fun _ _ _ step => Option.ite_none_right_eq_some.mp step

/-- When a step keeps the property exactly under the guard, a run has the property all the
way exactly when it is a run under the guard. -/
theorem throughout_iff_guarded {guard : State → Event → Prop} {property : State → Prop}
    {next : State → Event → Option State}
    (exactly : ∀ state event after, property state → next state event = some after →
      (property after ↔ guard state event))
    {start finish : State} {events : List Event}
    (run : Run (fun state event after => next state event = some after) start events finish)
    (initially : property start) :
    (∀ before rest middle, events = before ++ rest →
      Run (fun state event after => next state event = some after) start before middle →
        property middle) ↔
      Run (fun state event after => guard state event ∧ next state event = some after)
        start events finish := by
  induction run with
  | nil state =>
      constructor
      · intro _
        exact .nil state
      · intro _ before rest middle split prefixRun
        rcases List.append_eq_nil_iff.mp split.symm with ⟨rfl, _⟩
        cases prefixRun
        exact initially
  | @cons start middle finish event events first rest ih =>
      have firstExactly := exactly start event middle initially first
      constructor
      · intro throughout
        have reached : property middle :=
          throughout [event] events middle rfl (.cons first (.nil middle))
        refine .cons ⟨firstExactly.mp reached, first⟩ ((ih reached).mp ?_)
        intro before after state split prefixRun
        refine throughout (event :: before) after state ?_ (.cons first prefixRun)
        rw [split, List.cons_append]
      · intro guardedRun before after state split prefixRun
        cases guardedRun with
        | @cons _ middle' _ _ _ guardedFirst guardedRest =>
            have same : middle' = middle := Option.some.inj (guardedFirst.2.symm.trans first)
            subst same
            have reached := firstExactly.mpr guardedFirst.1
            cases prefixRun with
            | nil => exact initially
            | @cons _ other _ _ before prefixFirst prefixRest =>
                rcases List.cons.inj split with ⟨rfl, splitRest⟩
                have same : other = middle' := Option.some.inj (prefixFirst.symm.trans first)
                subst same
                exact (ih reached).mpr guardedRest before after state splitRest prefixRest

/-- The same for a property that shows what the guard let through, kept by an invariant that
only holds as long as it does. -/
theorem throughout_iff_guarded_of_sound {guard : State → Event → Prop}
    {sound property : State → Prop} {next : State → Event → Option State}
    (shows : ∀ state, sound state → property state)
    (exactly : ∀ state event after, sound state → next state event = some after →
      (property after → guard state event) ∧ (guard state event → sound after))
    {start finish : State} {events : List Event}
    (run : Run (fun state event after => next state event = some after) start events finish)
    (initially : sound start) :
    (∀ before rest middle, events = before ++ rest →
      Run (fun state event after => next state event = some after) start before middle →
        property middle) ↔
      Run (fun state event after => guard state event ∧ next state event = some after)
        start events finish := by
  constructor
  · intro throughout
    induction run with
    | nil state => exact .nil state
    | @cons start middle finish event events first rest ih =>
        have reached : property middle :=
          throughout [event] events middle rfl (.cons first (.nil middle))
        rcases exactly start event middle initially first with ⟨guarded, kept⟩
        refine .cons ⟨guarded reached, first⟩ (ih (kept (guarded reached)) ?_)
        intro before after state split prefixRun
        refine throughout (event :: before) after state ?_ (.cons first prefixRun)
        rw [split, List.cons_append]
  · intro guardedRun before rest middle split reached
    have soundExactly : ∀ state event after, sound state → next state event = some after →
        (sound after ↔ guard state event) := by
      intro state event after ok step
      rcases exactly state event after ok step with ⟨guarded, kept⟩
      exact ⟨fun okAfter => guarded (shows after okAfter), kept⟩
    exact shows middle ((throughout_iff_guarded soundExactly run initially).mpr guardedRun before
      rest middle split reached)

/-- The same over the states that an invariant allows. -/
theorem throughout_iff_guarded_of_invariant {guard : State → Event → Prop}
    {always property : State → Prop} {next : State → Event → Option State}
    (kept : ∀ state event after, always state → next state event = some after →
      always after ∧ (property state → (property after ↔ guard state event)))
    {start finish : State} {events : List Event}
    (run : Run (fun state event after => next state event = some after) start events finish)
    (startAlways : always start) (initially : property start) :
    (∀ before rest middle, events = before ++ rest →
      Run (fun state event after => next state event = some after) start before middle →
        property middle) ↔
      Run (fun state event after => guard state event ∧ next state event = some after)
        start events finish := by
  have exactly : ∀ state event after, always state ∧ property state →
      next state event = some after → (always after ∧ property after ↔ guard state event) := by
    rintro state event after ⟨allowed, holds⟩ step
    rcases kept state event after allowed step with ⟨stays, exact⟩
    rw [and_iff_right stays]
    exact exact holds
  rw [← throughout_iff_guarded exactly run ⟨startAlways, initially⟩]
  constructor
  · intro throughout before rest middle split reached
    refine ⟨?_, throughout before rest middle split reached⟩
    refine reached.invariant ?_ startAlways
    intro state event after allowed step
    exact (kept state event after allowed step).1
  · intro throughout before rest middle split reached
    exact (throughout before rest middle split reached).2

end Run
