import Mathlib.Algebra.Ring.Nat
import Mathlib.Tactic.Common

/-!
# Tilings of a range

A list of spans, each a start and a size, tiles a range when every span starts where the one
before it ends.  Spans of a tiling are disjoint, in order and inside the range.
-/

universe u

/-- The spans, in order, cover `[start, stop)` without gap or overlap. -/
def Tiles (start : ℕ) (spans : List (ℕ × ℕ)) (stop : ℕ) : Prop :=
  match spans with
  | [] => start = stop
  | span :: spans => span.1 = start ∧ Tiles (start + span.2) spans stop

namespace Tiles

@[simp]
theorem nil {start stop : ℕ} : Tiles start [] stop ↔ start = stop :=
  Iff.rfl

@[simp]
theorem cons {start stop : ℕ} {span : ℕ × ℕ} {spans : List (ℕ × ℕ)} :
    Tiles start (span :: spans) stop ↔ span.1 = start ∧ Tiles (start + span.2) spans stop :=
  Iff.rfl

instance decidable (start : ℕ) (spans : List (ℕ × ℕ)) (stop : ℕ) :
    Decidable (Tiles start spans stop) :=
  match spans with
  | [] => inferInstanceAs (Decidable (start = stop))
  | span :: spans =>
      have := decidable (start + span.2) spans stop
      inferInstanceAs (Decidable (span.1 = start ∧ Tiles (start + span.2) spans stop))

variable {start middle stop : ℕ} {spans later : List (ℕ × ℕ)}

theorem le (tiles : Tiles start spans stop) : start ≤ stop := by
  induction spans generalizing start with
  | nil => exact Nat.le_of_eq tiles
  | cons span spans ih => exact Nat.le_trans (Nat.le_add_right _ _) (ih tiles.2)

theorem append (first : Tiles start spans middle) (second : Tiles middle later stop) :
    Tiles start (spans ++ later) stop := by
  induction spans generalizing start with
  | nil =>
      rw [nil] at first
      subst first
      exact second
  | cons span spans ih => exact ⟨first.1, ih first.2⟩

/-- Every span lies in the range. -/
theorem inside (tiles : Tiles start spans stop) {span : ℕ × ℕ} (mem : span ∈ spans) :
    start ≤ span.1 ∧ span.1 + span.2 ≤ stop := by
  induction spans generalizing start with
  | nil => simp at mem
  | cons first spans ih =>
      rcases tiles with ⟨starts, rest⟩
      rcases List.mem_cons.mp mem with rfl | mem
      · have := rest.le
        omega
      · have := ih rest mem
        omega

/-- Every span ends before the later ones start. -/
theorem pairwise (tiles : Tiles start spans stop) :
    spans.Pairwise fun span after => span.1 + span.2 ≤ after.1 := by
  induction spans generalizing start with
  | nil => exact List.Pairwise.nil
  | cons first spans ih =>
      rcases tiles with ⟨starts, rest⟩
      refine List.Pairwise.cons ?_ (ih rest)
      intro after mem
      rw [starts]
      exact (rest.inside mem).1

end Tiles
