import Mathlib.Order.Lattice
import Mathlib.Algebra.Ring.Nat

/-!
# Ladders of bands

Bands `first k .. second k` follow each other with a gap between every two of them.  A value lies
inside one band, inside one gap, below the first band or above the last one, and a walk up the
ladder ends at the band or at the gap that holds it.
-/

universe u

variable {α : Type u} [LinearOrder α]

/-- `count` bands in ascending order, without an overlap. -/
structure Staircase (count : ℕ) (first second : ℕ → α) : Prop where
  band : ∀ k, k < count → first k ≤ second k
  gap : ∀ k, k + 1 < count → second k < first (k + 1)

namespace Staircase

variable {count j k sel : ℕ} {first second : ℕ → α} {value : α}

theorem second_lt_first (ladder : Staircase count first second) (order : j < k)
    (inside : k < count) : second j < first k := by
  induction k with
  | zero => exact absurd order (Nat.not_lt_zero j)
  | succ k ih =>
      have step : second k < first (k + 1) := ladder.gap k inside
      rcases Nat.lt_or_eq_of_le (Nat.le_of_lt_succ order) with below | same
      · have known : second j < first k := ih below (by omega)
        exact lt_trans known (lt_of_le_of_lt (ladder.band k (by omega)) step)
      · subst same
        exact step

theorem second_le_second (ladder : Staircase count first second) (order : j ≤ k)
    (inside : k < count) : second j ≤ second k := by
  rcases Nat.lt_or_eq_of_le order with less | same
  · exact le_trans (le_of_lt (ladder.second_lt_first less inside)) (ladder.band k inside)
  · rw [same]

theorem first_le_second (ladder : Staircase count first second) (order : j ≤ k)
    (inside : k < count) : first j ≤ second k :=
  le_trans (ladder.band j (by omega)) (ladder.second_le_second order inside)

/-- No band above the one that a value stays under has been reached. -/
theorem le_of_first_le (ladder : Staircase count first second) (inside : k < count)
    (reached : first k ≤ value) (under : value ≤ second j) : k ≤ j := by
  by_contra above
  have apart : second j < first k := ladder.second_lt_first (by omega) inside
  exact not_lt_of_ge under (lt_of_lt_of_le apart reached)

/-! ### The walk -/

/-- The last band, short of the top one, that a value has passed, or the lowest band. -/
structure Passed (count : ℕ) (second : ℕ → α) (value : α) (sel : ℕ) : Prop where
  short : sel + 1 < count
  low : sel = 0 ∨ second sel ≤ value
  high : sel + 2 < count → value < second (sel + 1)

/-- A band that the walk ended at, or the next one. -/
theorem Passed.band (passed : Passed count second value sel)
    (ladder : Staircase count first second) (inside : k < count) (reached : first k ≤ value)
    (under : value ≤ second k) : k = sel ∨ k = sel + 1 ∧ second sel < value := by
  have short := passed.short
  have low : sel ≤ k := by
    rcases passed.low with zero | above
    · omega
    · have start : first sel ≤ value := le_trans (ladder.band sel (by omega)) above
      exact ladder.le_of_first_le (by omega) start under
  have high : k ≤ sel + 1 := by
    by_cases top : sel + 2 < count
    · exact ladder.le_of_first_le inside reached (le_of_lt (passed.high top))
    · omega
  rcases Nat.lt_or_eq_of_le low with below | same
  · have next : k = sel + 1 := by omega
    subst next
    exact .inr ⟨rfl, lt_of_lt_of_le (ladder.gap sel inside) reached⟩
  · exact .inl same.symm

theorem Passed.gap (passed : Passed count second value sel)
    (ladder : Staircase count first second) (inside : k + 1 < count) (above : second k < value)
    (below : value < first (k + 1)) : k = sel := by
  have short := passed.short
  have low : sel ≤ k := by
    rcases passed.low with zero | reached
    · omega
    · by_contra beyond
      have start : first (k + 1) ≤ second sel := ladder.first_le_second (by omega) (by omega)
      exact lt_irrefl value (lt_of_lt_of_le below (le_trans start reached))
  have high : k ≤ sel := by
    by_contra beyond
    have least : second (sel + 1) ≤ second k := ladder.second_le_second (by omega) (by omega)
    exact lt_irrefl value (lt_trans (passed.high (by omega)) (lt_of_le_of_lt least above))
  exact Nat.le_antisymm high low

theorem Passed.below (passed : Passed count second value sel)
    (ladder : Staircase count first second) (below : value < first 0) : sel = 0 := by
  have short := passed.short
  rcases passed.low with zero | reached
  · exact zero
  · have start : first 0 ≤ second sel := ladder.first_le_second (Nat.zero_le sel) (by omega)
    exact absurd (lt_of_lt_of_le below (le_trans start reached)) (lt_irrefl value)

theorem Passed.above (passed : Passed count second value sel)
    (ladder : Staircase count first second) (above : second (count - 1) < value) :
    sel + 2 = count := by
  have short := passed.short
  by_contra other
  have order : second (sel + 1) ≤ second (count - 1) :=
    ladder.second_le_second (by omega) (by omega)
  exact lt_irrefl value (lt_trans (passed.high (by omega)) (lt_of_le_of_lt order above))

end Staircase
