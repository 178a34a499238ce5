import Mathlib.Tactic.Common

/-!
# Areas of a bitmap

A bitmap allocator looks for an area of clear bits, sets it, and clears it again
later.  `BitmapOps` are the three operations with no promise, and `Documented` is
what their callers rely on.
-/

namespace Bitmap

/-- `nr` clear bits from `index` on, inside the first `size` bits. -/
def ClearArea (map : ℕ → Bool) (size nr index : ℕ) : Prop :=
  index + nr ≤ size ∧ ∀ offset < nr, map (index + offset) = false

instance (map : ℕ → Bool) (size nr index : ℕ) : Decidable (ClearArea map size nr index) :=
  inferInstanceAs (Decidable (_ ∧ _))

structure BitmapOps where
  set : (ℕ → Bool) → ℕ → ℕ → ℕ → Bool
  clear : (ℕ → Bool) → ℕ → ℕ → ℕ → Bool
  findNextZeroArea : (ℕ → Bool) → ℕ → ℕ → ℕ → ℕ

/-- `findNextZeroArea` finds an area of at least one bit if there is one, and a result of
`size` or more tells that there is none. -/
structure BitmapOps.Documented (ops : BitmapOps) : Prop where
  set_apply : ∀ map start nr bit,
    ops.set map start nr bit = (map bit || (start ≤ bit && bit < start + nr))
  clear_apply : ∀ map start nr bit,
    ops.clear map start nr bit = (map bit && !(start ≤ bit && bit < start + nr))
  area_of_lt : ∀ map size start nr, 0 < nr → ops.findNextZeroArea map size start nr < size →
    start ≤ ops.findNextZeroArea map size start nr ∧
      ClearArea map size nr (ops.findNextZeroArea map size start nr)
  lt_of_area : ∀ map size start nr index, 0 < nr → start ≤ index → ClearArea map size nr index →
    ops.findNextZeroArea map size start nr < size

/-- The operations bit by bit. -/
def bitwise : BitmapOps where
  set map start nr bit := map bit || (start ≤ bit && bit < start + nr)
  clear map start nr bit := map bit && !(start ≤ bit && bit < start + nr)
  findNextZeroArea map size start nr :=
    ((List.range size).find? fun index => start ≤ index && ClearArea map size nr index).getD
      (size + nr)

theorem bitwise_documented : bitwise.Documented where
  set_apply _ _ _ _ := rfl
  clear_apply _ _ _ _ := rfl
  area_of_lt map size start nr _ found := by
    unfold bitwise at found ⊢
    cases first : (List.range size).find? fun index =>
        start ≤ index && ClearArea map size nr index with
    | none =>
        simp only [first, Option.getD_none] at found
        omega
    | some index =>
        have isArea := List.find?_some first
        rw [Bool.and_eq_true, decide_eq_true_eq, decide_eq_true_eq] at isArea
        simpa only [first, Option.getD_some] using isArea
  lt_of_area map size start nr index positive above area := by
    have inside : index ∈ List.range size := by
      have := area.1
      exact List.mem_range.mpr (by omega)
    unfold bitwise
    cases first : (List.range size).find? fun index =>
        start ≤ index && ClearArea map size nr index with
    | none =>
        have notArea := List.find?_eq_none.mp first index inside
        simp [above, area] at notArea
    | some found =>
        simp only [first, Option.getD_some]
        exact List.mem_range.mp (List.mem_of_find?_eq_some first)

/-- A search for the first set bit from `start` on; `size` tells that there is none below it. -/
structure NextBit where
  find : (ℕ → Bool) → ℕ → ℕ → ℕ
  le_find : ∀ map {size start}, start ≤ size → start ≤ find map size start
  find_le : ∀ map {size start}, start ≤ size → find map size start ≤ size
  clear_of_lt : ∀ map {size start bit}, start ≤ bit → bit < find map size start → map bit = false
  set_of_lt : ∀ map {size start}, find map size start < size → map (find map size start) = true

/-- From a clear bit the search moves on. -/
theorem NextBit.lt_find (next : NextBit) {map : ℕ → Bool} {size start : ℕ} (inside : start < size)
    (clear : map start = false) : start < next.find map size start := by
  have above := next.le_find map (Nat.le_of_lt inside)
  refine Nat.lt_of_le_of_ne above ?_
  intro stays
  have isSet := next.set_of_lt map (stays ▸ inside)
  rw [← stays, clear] at isSet
  cases isSet

/-- The most clear bits in a row among the first `size`. -/
structure LongestClear (map : ℕ → Bool) (size longest : ℕ) : Prop where
  found : ∃ index, ClearArea map size longest index
  most : ∀ nr index, ClearArea map size nr index → nr ≤ longest

section LongestClear

variable {map : ℕ → Bool} {size size' longest : ℕ}

theorem LongestClear.zero : LongestClear map 0 0 where
  found := ⟨0, by simp [ClearArea]⟩
  most nr index area := by
    have := area.1
    omega

theorem LongestClear.over_set (before : LongestClear map size longest) (above : size ≤ size')
    (isSet : ∀ bit, size ≤ bit → bit < size' → map bit = true) :
    LongestClear map size' longest where
  found := by
    rcases before.found with ⟨index, room, clear⟩
    exact ⟨index, Nat.le_trans room above, clear⟩
  most nr index area := by
    rcases area with ⟨room, clear⟩
    by_cases within : index + nr ≤ size
    · exact before.most nr index ⟨within, clear⟩
    · -- its last bit is beyond `size`
      have last := clear (nr - 1)
      have lastSet := isSet (index + (nr - 1))
      by_cases positive : 0 < nr
      · rw [lastSet (by omega) (by omega)] at last
        cases last (by omega)
      · omega

/-- A row that begins where no clear row ends. -/
theorem LongestClear.over_clear (before : LongestClear map size longest) (above : size ≤ size')
    (closed : size = 0 ∨ map (size - 1) = true)
    (isClear : ∀ bit, size ≤ bit → bit < size' → map bit = false) :
    LongestClear map size' (max longest (size' - size)) where
  found := by
    rcases Nat.le_total longest (size' - size) with longer | shorter
    · rw [Nat.max_eq_right longer]
      refine ⟨size, by omega, ?_⟩
      intro offset inside
      exact isClear (size + offset) (by omega) (by omega)
    · rw [Nat.max_eq_left shorter]
      rcases before.found with ⟨index, room, clear⟩
      exact ⟨index, Nat.le_trans room above, clear⟩
  most nr index area := by
    rcases area with ⟨room, clear⟩
    by_cases within : index + nr ≤ size
    · exact Nat.le_trans (before.most nr index ⟨within, clear⟩) (Nat.le_max_left _ _)
    · refine Nat.le_trans ?_ (Nat.le_max_right _ _)
      by_contra straddles
      have last := clear (size - 1 - index) (by omega)
      rcases closed with zero | isSet
      · omega
      · rw [show index + (size - 1 - index) = size - 1 by omega, isSet] at last
        cases last

theorem LongestClear.exists_area_iff (longestClear : LongestClear map size longest) (nr : ℕ) :
    (∃ index, ClearArea map size nr index) ↔ nr ≤ longest := by
  constructor
  · rintro ⟨index, area⟩
    exact longestClear.most nr index area
  · intro fits
    rcases longestClear.found with ⟨index, room, clear⟩
    refine ⟨index, by omega, ?_⟩
    intro offset inside
    exact clear offset (Nat.lt_of_lt_of_le inside fits)

end LongestClear

/-- The search bit by bit. -/
def nextBitwise : NextBit where
  find map size start := ((List.range size).find? fun bit => start ≤ bit && map bit).getD size
  le_find map size start above := by
    cases found : (List.range size).find? fun bit => start ≤ bit && map bit with
    | none => exact above
    | some bit =>
        have holds := List.find?_some found
        rw [Bool.and_eq_true, decide_eq_true_eq] at holds
        exact holds.1
  find_le map size start _ := by
    cases found : (List.range size).find? fun bit => start ≤ bit && map bit with
    | none => exact Nat.le_refl size
    | some bit => exact Nat.le_of_lt (List.mem_range.mp (List.mem_of_find?_eq_some found))
  clear_of_lt map size start bit above below := by
    cases isSet : map bit with
    | false => rfl
    | true =>
        cases found : (List.range size).find? fun bit => start ≤ bit && map bit with
        | none =>
            simp only [found, Option.getD_none] at below
            have notFound := List.find?_eq_none.mp found bit (List.mem_range.mpr below)
            simp [above, isSet] at notFound
        | some first =>
            simp only [found, Option.getD_some] at below
            rcases List.find?_eq_some_iff_getElem.mp found with ⟨-, i, inRange, atI, earlier⟩
            rw [List.getElem_range] at atI
            have notEarlier := earlier bit (by omega)
            rw [List.getElem_range] at notEarlier
            simp [above, isSet] at notEarlier
  set_of_lt map size start below := by
    cases found : (List.range size).find? fun bit => start ≤ bit && map bit with
    | none => simp [found] at below
    | some bit =>
        have holds := List.find?_some found
        rw [Bool.and_eq_true] at holds
        exact holds.2

end Bitmap
