import Mathlib.Tactic.Common

/-!
# Filling a range of a memory

A memory is a function of addresses.  A writer fills a range when what it leaves there does not
depend on what was there, and it leaves everything else alone.  Fills of adjoining ranges compose,
and a loop of fills over records fills them all.
-/

universe u

/-- The writer sets every cell of `[start, stop)` to a value of its own, and no other cell. -/
structure Fills {Cell : Type u} (writer : (Nat → Cell) → Nat → Cell) (start stop : Nat) : Prop where
  determined : ∀ memory memory' cell, start ≤ cell → cell < stop →
    writer memory cell = writer memory' cell
  frame : ∀ memory cell, cell < start ∨ stop ≤ cell → writer memory cell = memory cell

namespace Fills

variable {Cell : Type u} {writer writer' : (Nat → Cell) → Nat → Cell} {start middle stop : Nat}

/-- The values of a list, written from an address on. -/
def put (values : List Cell) (start : Nat) (memory : Nat → Cell) : Nat → Cell := fun cell =>
  if start ≤ cell then values.getD (cell - start) (memory cell) else memory cell

theorem of_put (values : List Cell) (start : Nat) :
    Fills (put values start) start (start + values.length) where
  determined memory memory' cell low high := by
    have inside : cell - start < values.length := by omega
    simp [put, low, List.getD_eq_getElem?_getD, inside]
  frame memory cell outside := by
    unfold put
    split
    · next low =>
        have beyond : values.length ≤ cell - start := by omega
        simp [List.getD_eq_getElem?_getD, beyond]
    · rfl

/-- A fill of nothing. -/
theorem refl (start : Nat) : Fills (id : (Nat → Cell) → Nat → Cell) start start where
  determined _ _ _ low high := absurd low (Nat.not_le_of_lt high)
  frame _ _ _ := rfl

theorem comp (first : Fills writer start middle) (second : Fills writer' middle stop)
    (low : start ≤ middle) (high : middle ≤ stop) :
    Fills (fun memory => writer' (writer memory)) start stop where
  determined memory memory' cell fromStart toStop := by
    by_cases inFirst : cell < middle
    · rw [second.frame _ cell (.inl inFirst), second.frame _ cell (.inl inFirst)]
      exact first.determined memory memory' cell fromStart inFirst
    · exact second.determined _ _ cell (Nat.le_of_not_lt inFirst) toStop
  frame memory cell outside := by
    rw [second.frame _ cell (by omega), first.frame memory cell (by omega)]

/-- A loop over records of equal size. -/
theorem fold {record : Nat → (Nat → Cell) → Nat → Cell} {size : Nat} (count : Nat)
    (fills : ∀ i, i < count → Fills (record i) (start + i * size) (start + (i + 1) * size)) :
    Fills (fun memory => (List.range count).foldl (fun memory i => record i memory) memory) start
      (start + count * size) := by
  induction count with
  | zero =>
      rw [Nat.zero_mul]
      exact refl start
  | succ count ih =>
      have before := ih fun i inside => fills i (Nat.lt_succ_of_lt inside)
      have last := fills count (Nat.lt_succ_self count)
      have grown : start + count * size ≤ start + (count + 1) * size :=
        Nat.add_le_add_left (Nat.mul_le_mul_right size (Nat.le_succ count)) start
      have whole := before.comp last (Nat.le_add_right _ _) grown
      simpa only [List.range_succ, List.foldl_append, List.foldl_cons, List.foldl_nil] using whole

/-- What such a loop leaves in a record is what its own round writes there. -/
theorem fold_record {record : Nat → (Nat → Cell) → Nat → Cell} {size : Nat} {count : Nat}
    (fills : ∀ i, i < count → Fills (record i) (start + i * size) (start + (i + 1) * size))
    {i : Nat} (inside : i < count) (memory : Nat → Cell) {cell : Nat}
    (low : start + i * size ≤ cell) (high : cell < start + (i + 1) * size) :
    (List.range count).foldl (fun memory i => record i memory) memory cell =
      record i memory cell := by
  induction count with
  | zero => exact absurd inside (Nat.not_lt_zero i)
  | succ count ih =>
      simp only [List.range_succ, List.foldl_append, List.foldl_cons, List.foldl_nil]
      rcases Nat.lt_succ_iff_lt_or_eq.mp inside with earlier | rfl
      · have below : start + (i + 1) * size ≤ start + count * size :=
          Nat.add_le_add_left (Nat.mul_le_mul_right size earlier) start
        rw [(fills count (Nat.lt_succ_self count)).frame _ cell (.inl (by omega))]
        exact ih (fun j before => fills j (Nat.lt_succ_of_lt before)) earlier
      · exact (fills i inside).determined _ _ cell low high

/-- A loop over ranges one behind the other, with or without gaps: each range holds what its own
round writes there, and every other cell what it held. -/
theorem fold_apart {record : Nat → (Nat → Cell) → Nat → Cell} {low high : Nat → Nat} {count : Nat}
    (fills : ∀ i, i < count → Fills (record i) (low i) (high i))
    (apart : ∀ i j, i < j → j < count → high i ≤ low j) (memory : Nat → Cell) (cell : Nat) :
    (∀ i, i < count → low i ≤ cell → cell < high i →
      (List.range count).foldl (fun memory i => record i memory) memory cell =
        record i memory cell) ∧
    ((∀ i, i < count → cell < low i ∨ high i ≤ cell) →
      (List.range count).foldl (fun memory i => record i memory) memory cell = memory cell) := by
  induction count with
  | zero => exact ⟨fun i inside => absurd inside (Nat.not_lt_zero i), fun _ => rfl⟩
  | succ count ih =>
      have before := ih (fun i inside => fills i (Nat.lt_succ_of_lt inside))
        fun i j less inside => apart i j less (Nat.lt_succ_of_lt inside)
      have last := fills count (Nat.lt_succ_self count)
      simp only [List.range_succ, List.foldl_append, List.foldl_cons, List.foldl_nil]
      constructor
      · intro i inside fromLow toHigh
        rcases Nat.lt_succ_iff_lt_or_eq.mp inside with earlier | rfl
        · have behind := apart i count earlier (Nat.lt_succ_self count)
          rw [last.frame _ cell (.inl (Nat.lt_of_lt_of_le toHigh behind))]
          exact before.1 i earlier fromLow toHigh
        · exact last.determined _ _ cell fromLow toHigh
      · intro outside
        rw [last.frame _ cell (outside count (Nat.lt_succ_self count))]
        exact before.2 fun i inside => outside i (Nat.lt_succ_of_lt inside)

end Fills
