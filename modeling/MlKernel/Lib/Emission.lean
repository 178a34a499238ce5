import Mathlib.Data.List.Basic
import Mathlib.Tactic.Common

/-!
# Computations that emit

A fallible stateful computation that appends to a log.  It may stop half way, so what it is known
to emit is a list of which any start emits a front, and the whole where nothing fails.
-/

universe u v

namespace Emission

variable {State : Type u} {Error : Type u} {Item : Type v}

/-- The log grows by a front of the items, and by all of them if the computation returns. -/
def Emits (log : State → List Item) (action : ExceptT Error (StateM State) PUnit)
    (items : List Item) : Prop :=
  ∀ state, ∃ front rest, front ++ rest = items ∧
    log (action.run.run state).2 = log state ++ front ∧
    ∀ value, (action.run.run state).1 = .ok value → rest = []

/-- The computation returns from every state. -/
def Returns (action : ExceptT Error (StateM State) PUnit) : Prop :=
  ∀ state, (action.run.run state).1 = .ok ⟨⟩

theorem run_bind_of_ok {action next : ExceptT Error (StateM State) PUnit} {state after : State}
    {value : PUnit} (run : action.run.run state = (.ok value, after)) :
    (action >>= fun _ => next).run.run state = next.run.run after := by
  rw [ExceptT.run_bind, StateT.run_bind, run]
  rfl

theorem run_bind_of_error {action next : ExceptT Error (StateM State) PUnit} {state after : State}
    {error : Error} (run : action.run.run state = (.error error, after)) :
    (action >>= fun _ => next).run.run state = (.error error, after) := by
  rw [ExceptT.run_bind, StateT.run_bind, run]
  rfl

namespace Emits

variable {log : State → List Item} {action next : ExceptT Error (StateM State) PUnit}
  {items others : List Item}

theorem skip : Emits log (pure ⟨⟩ : ExceptT Error (StateM State) PUnit) [] := by
  intro state
  refine ⟨[], [], rfl, ?_, ?_⟩
  · rw [List.append_nil]
    rfl
  · intro value returned
    rfl

theorem bind (first : Emits log action items) (second : Emits log next others) :
    Emits log (action >>= fun _ => next) (items ++ others) := by
  intro state
  rcases first state with ⟨front, rest, split, grown, whole⟩
  cases run : action.run.run state with
  | mk result after =>
    simp only [run] at grown whole
    cases result with
    | error error =>
        rw [run_bind_of_error run]
        refine ⟨front, rest ++ others, ?_, grown, ?_⟩
        · simp [← split]
        · intro value returned
          cases returned
    | ok value =>
        have done := whole value rfl
        subst done
        rw [List.append_nil] at split
        subst split
        rcases second after with ⟨nextFront, nextRest, nextSplit, nextGrown, nextWhole⟩
        rw [run_bind_of_ok run]
        refine ⟨front ++ nextFront, nextRest, ?_, ?_, nextWhole⟩
        · simp [← nextSplit]
        · simp [nextGrown, grown]

/-- A rule that every item keeps is kept by the log. -/
theorem forall_mem (emits : Emits log action items) {rule : Item → Prop}
    (kept : ∀ item ∈ items, rule item) {state : State} (before : ∀ item ∈ log state, rule item) :
    ∀ item ∈ log (action.run.run state).2, rule item := by
  rcases emits state with ⟨front, rest, split, grown, -⟩
  intro item mem
  rw [grown] at mem
  rcases List.mem_append.mp mem with old | new
  · exact before item old
  · apply kept
    rw [← split]
    exact List.mem_append_left rest new

theorem log_of_returns (emits : Emits log action items) (returns : Returns action)
    (state : State) : log (action.run.run state).2 = log state ++ items := by
  rcases emits state with ⟨front, rest, split, grown, whole⟩
  have done := whole _ (returns state)
  simp only [done, List.append_nil] at split
  rw [grown, split]

end Emits

namespace Returns

theorem skip : Returns (pure ⟨⟩ : ExceptT Error (StateM State) PUnit) := fun _ => rfl

theorem bind {action next : ExceptT Error (StateM State) PUnit} (first : Returns action)
    (second : Returns next) : Returns (action >>= fun _ => next) := by
  intro state
  cases run : action.run.run state with
  | mk result after =>
    have returned := first state
    simp only [run] at returned
    subst returned
    rw [run_bind_of_ok run]
    exact second after

end Returns

end Emission
