import Mathlib.Algebra.Ring.Nat
import Mathlib.Tactic.Common

/-!
# Splitting a list into chunks

`chunks size data` cuts a list into pieces of one size, the last of which may be shorter.  It is
what a word-wide queue holds of a byte stream: pieces come off its front, and as long as only
whole pieces are in it a further piece goes on its end.
-/

universe u

namespace Chunks

variable {Datum : Type u} {size : ℕ}

/-- Pieces of `size + 1` data. -/
def chunks (size : ℕ) (data : List Datum) : List (List Datum) :=
  match data with
  | [] => []
  | first :: rest => (first :: rest.take size) :: chunks size (rest.drop size)
  termination_by data.length
  decreasing_by
    rw [List.length_drop, List.length_cons]
    omega

@[simp]
theorem chunks_nil : chunks size ([] : List Datum) = [] := by
  rw [chunks]

theorem chunks_of_ne_nil {data : List Datum} (nonempty : data ≠ []) :
    chunks size data = data.take (size + 1) :: chunks size (data.drop (size + 1)) := by
  cases data with
  | nil => exact absurd rfl nonempty
  | cons first rest => rw [chunks, List.take_succ_cons, List.drop_succ_cons]

@[simp]
theorem chunks_eq_nil {data : List Datum} : chunks size data = [] ↔ data = [] := by
  constructor
  · intro empty
    by_contra nonempty
    rw [chunks_of_ne_nil nonempty] at empty
    exact absurd empty (List.cons_ne_nil _ _)
  · rintro rfl
    exact chunks_nil

theorem chunks_of_le {data : List Datum} (nonempty : data ≠ []) (short : data.length ≤ size + 1) :
    chunks size data = [data] := by
  rw [chunks_of_ne_nil nonempty, List.take_of_length_le short, List.drop_eq_nil_of_le short,
    chunks_nil]

@[simp]
theorem tail_chunks (data : List Datum) :
    (chunks size data).tail = chunks size (data.drop (size + 1)) := by
  by_cases empty : data = []
  · rw [empty, List.drop_nil, chunks_nil, List.tail_nil]
  · rw [chunks_of_ne_nil empty, List.tail_cons]

/-- A piece goes on the end of whole pieces. -/
theorem chunks_append {data piece : List Datum} (whole : size + 1 ∣ data.length)
    (nonempty : piece ≠ []) (short : piece.length ≤ size + 1) :
    chunks size (data ++ piece) = chunks size data ++ [piece] := by
  fun_induction chunks size data with
  | case1 => rw [List.nil_append, List.nil_append, chunks_of_le nonempty short]
  | case2 first rest ih =>
      have long : size + 1 ≤ (first :: rest).length := Nat.le_of_dvd (by simp) whole
      have room : size ≤ rest.length := by simpa using long
      have wholeRest : size + 1 ∣ (rest.drop size).length := by
        have split : (first :: rest).length = (rest.drop size).length + (size + 1) := by
          rw [List.length_drop, List.length_cons]
          omega
        rw [split] at whole
        exact (Nat.dvd_add_left (Nat.dvd_refl _)).mp whole
      rw [List.cons_append, chunks, List.take_append_of_le_length room,
        List.drop_append_of_le_length room, ih wholeRest, List.cons_append]

/-- The whole pieces. -/
theorem countP_chunks (data : List Datum) :
    (chunks size data).countP (fun piece => piece.length = size + 1) =
      data.length / (size + 1) := by
  fun_induction chunks size data with
  | case1 => simp
  | case2 first rest ih =>
      rw [List.countP_cons, ih, List.length_drop, List.length_cons, List.length_cons,
        List.length_take]
      by_cases long : size ≤ rest.length
      · have split : rest.length + 1 = rest.length - size + (size + 1) := by omega
        rw [split, Nat.add_div_right _ (Nat.succ_pos size)]
        simp [long]
      · have none : (rest.length + 1) / (size + 1) = 0 := Nat.div_eq_of_lt (by omega)
        have fewer : rest.length - size = 0 := by omega
        rw [none, fewer, Nat.zero_div, Nat.min_eq_right (by omega), if_neg (by simp; omega)]

end Chunks
