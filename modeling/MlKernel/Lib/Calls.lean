import Mathlib.Data.List.Basic
import Mathlib.Tactic.Common

/-!
# Calls in flight

The calls that threads have entered and not left form a list, each at some point
of its program.  A step advances one call: it goes on at another point, or it
returns.  Invariants of such systems count the calls at certain points, or know
the only call that has a certain resource.
-/

universe u

namespace Calls

variable {Call : Type u}

/-- The `i`-th call goes on as `next`, or returns. -/
def advance (calls : List Call) (i : ℕ) : Option Call → List Call
  | some next => calls.set i next
  | none => calls.eraseIdx i

/-- The other calls stay in their places. -/
theorem exists_split {calls : List Call} {i : ℕ} {call : Call} (running : calls[i]? = some call)
    (next : Option Call) :
    ∃ before after, calls = before ++ call :: after ∧
      advance calls i next = before ++ next.toList ++ after := by
  rcases List.getElem?_eq_some_iff.mp running with ⟨inside, found⟩
  refine ⟨calls.take i, calls.drop (i + 1), ?_, ?_⟩
  · rw [← found, ← List.drop_eq_getElem_cons inside, List.take_append_drop]
  · cases next with
    | none => simp [advance, List.eraseIdx_eq_take_drop_succ]
    | some next => simp [advance, List.set_eq_take_append_cons_drop, inside]

variable {calls : List Call} {i : ℕ} {call : Call} {next : Option Call}

theorem mem_advance (running : calls[i]? = some call) {other : Call}
    (member : other ∈ advance calls i next) : other ∈ calls ∨ next = some other := by
  rcases exists_split running next with ⟨before, after, split, advanced⟩
  rw [advanced] at member
  simp only [List.mem_append, Option.mem_toList] at member
  rw [split]
  rcases member with (old | new) | old
  · left
    simp [old]
  · right
    exact new
  · left
    simp [old]

theorem advance_mem (next : Option Call) (running : calls[i]? = some call) {other : Call}
    (member : other ∈ calls) (different : other ≠ call) : other ∈ advance calls i next := by
  rcases exists_split running next with ⟨before, after, split, advanced⟩
  rw [split] at member
  rw [advanced]
  simp only [List.mem_append, List.mem_cons, different, false_or] at member ⊢
  rcases member with old | old
  · simp [old]
  · simp [old]

theorem next_mem_advance (running : calls[i]? = some call) {new : Call} :
    new ∈ advance calls i (some new) := by
  rcases exists_split running (some new) with ⟨before, after, -, advanced⟩
  rw [advanced]
  simp

/-- How many calls have a property, before and after a step. -/
theorem countP_advance (property : Call → Bool) (running : calls[i]? = some call)
    (next : Option Call) :
    (advance calls i next).countP property + [call].countP property =
      calls.countP property + next.toList.countP property := by
  rcases exists_split running next with ⟨before, after, split, advanced⟩
  rw [advanced, split]
  simp only [List.countP_append, List.countP_cons, List.countP_nil]
  omega

/-- A step of a call without the property, to a point without it. -/
theorem filter_advance_of_ne (property : Call → Bool) (running : calls[i]? = some call)
    (without : property call = false) (stillWithout : next.toList.filter property = []) :
    (advance calls i next).filter property = calls.filter property := by
  rcases exists_split running next with ⟨before, after, split, advanced⟩
  rw [advanced, split]
  simp [without, stillWithout]

/-- A step of the only call with the property. -/
theorem filter_advance_of_only (property : Call → Bool) (running : calls[i]? = some call)
    (only : calls.filter property = [call]) (next : Option Call) :
    (advance calls i next).filter property = next.toList.filter property := by
  have holds : property call = true := by
    have member : call ∈ calls.filter property := by simp [only]
    exact (List.mem_filter.mp member).2
  rcases exists_split running next with ⟨before, after, split, advanced⟩
  rw [split] at only
  have lengths := congrArg List.length only
  simp only [List.filter_append, List.filter_cons, holds, if_true, List.length_append,
    List.length_cons, List.length_nil] at lengths
  have noneBefore : before.filter property = [] := List.length_eq_zero_iff.mp (by omega)
  have noneAfter : after.filter property = [] := List.length_eq_zero_iff.mp (by omega)
  rw [advanced]
  simp [noneBefore, noneAfter]

end Calls
