import Mathlib.Tactic.Common

/-!
# Machines that answer, and refinement

A machine takes events one after the other and answers each.  One machine refines another when a
relation between their states is kept by every event and makes the answers agree; then their
answers agree over every run.
-/

universe u v w x

namespace Refinement

variable {State : Type u} {Abstract : Type v} {Event : Type w} {Answer : Type x}

/-- The answers of a run and the state it ends in. -/
def run (step : State → Event → Answer × State) (start : State) :
    List Event → List Answer × State
  | [] => ([], start)
  | event :: events =>
      let rest := run step (step start event).2 events
      ((step start event).1 :: rest.1, rest.2)

section Run

variable {step : State → Event → Answer × State} {start : State}

@[simp]
theorem run_nil : run step start [] = ([], start) :=
  rfl

@[simp]
theorem run_cons (event : Event) (events : List Event) :
    run step start (event :: events) =
      ((step start event).1 :: (run step (step start event).2 events).1,
        (run step (step start event).2 events).2) :=
  rfl

end Run

variable {step : State → Event → Answer × State}
  {abstractStep : Abstract → Event → Answer × Abstract}

/-- Related states answer alike and stay related. -/
def Simulates (step : State → Event → Answer × State)
    (abstractStep : Abstract → Event → Answer × Abstract) (related : State → Abstract → Prop) :
    Prop :=
  ∀ state abstract event, related state abstract →
    (step state event).1 = (abstractStep abstract event).1 ∧
      related (step state event).2 (abstractStep abstract event).2

theorem Simulates.run {related : State → Abstract → Prop}
    (simulates : Simulates step abstractStep related) {start : State} {abstract : Abstract}
    (initially : related start abstract) (events : List Event) :
    (run step start events).1 = (run abstractStep abstract events).1 ∧
      related (run step start events).2 (run abstractStep abstract events).2 := by
  induction events generalizing start abstract with
  | nil => exact ⟨rfl, initially⟩
  | cons event events ih =>
      rcases simulates start abstract event initially with ⟨sameAnswer, stillRelated⟩
      rcases ih stillRelated with ⟨sameAnswers, finallyRelated⟩
      refine ⟨?_, finallyRelated⟩
      rw [run_cons, run_cons, sameAnswer, sameAnswers]

/-- A view of the state that every event takes along. -/
theorem run_of_view {view : State → Abstract}
    (answers : ∀ state event, (step state event).1 = (abstractStep (view state) event).1)
    (views : ∀ state event, view (step state event).2 = (abstractStep (view state) event).2)
    (start : State) (events : List Event) :
    (run step start events).1 = (run abstractStep (view start) events).1 ∧
      view (run step start events).2 = (run abstractStep (view start) events).2 := by
  have simulates : Simulates step abstractStep (fun state abstract => view state = abstract) := by
    rintro state _ event rfl
    exact ⟨answers state event, views state event⟩
  exact simulates.run rfl events

end Refinement
