import Mathlib.Data.List.MinMax
import Mathlib.Tactic.Common

/-!
# Keeping the best

A scan that starts from a default and takes a candidate over whenever its key is strictly smaller.
It finds the first smallest of the default and the candidates.
-/

universe u v

namespace KeepBest

variable {Item : Type u} {Key : Type v} [LinearOrder Key] (key : Item → Key)

def keep (best candidate : Item) : Item := if key candidate < key best then candidate else best

def scan (start : Item) (candidates : List Item) : Item := candidates.foldl (keep key) start

theorem argmin_eq_scan (start : Item) (candidates : List Item) :
    (start :: candidates).argmin key = some (scan key start candidates) := by
  induction candidates using List.reverseRecOn with
  | nil => rfl
  | append_singleton candidates candidate ih =>
      rw [← List.cons_append, List.argmin_concat, ih]
      simp only [scan, List.foldl_append, List.foldl_cons, List.foldl_nil, keep]
      split
      · next better => exact if_pos better
      · next worse => exact if_neg worse

variable (start : Item) (candidates : List Item)

theorem scan_le {start candidate : Item} {candidates : List Item}
    (mem : candidate ∈ start :: candidates) :
    key (scan key start candidates) ≤ key candidate :=
  List.le_of_mem_argmin mem (argmin_eq_scan key start candidates)

/-- The default only gives way to something better. -/
theorem scan_eq_or_lt :
    scan key start candidates = start ∨
      scan key start candidates ∈ candidates ∧ key (scan key start candidates) < key start := by
  induction candidates using List.reverseRecOn with
  | nil => exact .inl rfl
  | append_singleton candidates candidate ih =>
      have step : scan key start (candidates ++ [candidate]) =
          keep key (scan key start candidates) candidate := by
        simp [scan]
      rw [step, keep]
      split
      · next better =>
          right
          refine ⟨by simp, ?_⟩
          rcases ih with same | ⟨-, lt⟩
          · rwa [same] at better
          · exact lt_trans better lt
      · rcases ih with same | ⟨mem, lt⟩
        · exact .inl same
        · exact .inr ⟨List.mem_append_left _ mem, lt⟩

end KeepBest
