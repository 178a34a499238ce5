import Mathlib.Data.Nat.ModEq
import Mathlib.Logic.Function.Basic

/-!
# Ring buffers

A ring of `n` slots with a head and a tail index holds a queue of at most
`n - 1` elements: the slots from the tail up to the head, cyclically.  The other
slots keep whatever was stored in them last.
-/

universe u

namespace Ring

variable {α : Type u}

/-- The slots from `tail` to `head` hold the queue, oldest element first. -/
structure Holds (n : ℕ) (slots : ℕ → α) (head tail : ℕ) (queue : List α) : Prop where
  tail_lt : tail < n
  short : queue.length < n
  head_eq : head = (tail + queue.length) % n
  slot : ∀ i (inside : i < queue.length), slots ((tail + i) % n) = queue.get ⟨i, inside⟩

theorem Holds.empty {n index : ℕ} (slots : ℕ → α) (lt : index < n) :
    Holds n slots index index [] where
  tail_lt := lt
  short := Nat.lt_of_le_of_lt (Nat.zero_le index) lt
  head_eq := (Nat.mod_eq_of_lt lt).symm
  slot _ inside := absurd inside (Nat.not_lt_zero _)

variable {n head tail : ℕ} {slots : ℕ → α} {queue : List α}

/-- Distances below `n` from the tail are different slots. -/
theorem eq_of_mod_eq {i j : ℕ} (iLt : i < n) (jLt : j < n)
    (same : (tail + i) % n = (tail + j) % n) : i = j := by
  have : i % n = j % n := Nat.ModEq.add_left_cancel' tail same
  rwa [Nat.mod_eq_of_lt iLt, Nat.mod_eq_of_lt jLt] at this

theorem Holds.head_eq_tail_iff (holds : Holds n slots head tail queue) :
    head = tail ↔ queue = [] := by
  have positive : 0 < n := Nat.lt_of_le_of_lt (Nat.zero_le _) holds.tail_lt
  constructor
  · intro same
    have : (tail + queue.length) % n = (tail + 0) % n := by
      rw [← holds.head_eq, same, Nat.add_zero, Nat.mod_eq_of_lt holds.tail_lt]
    exact List.length_eq_zero_iff.mp (eq_of_mod_eq holds.short positive this)
  · rintro rfl
    rw [holds.head_eq, List.length_nil, Nat.add_zero, Nat.mod_eq_of_lt holds.tail_lt]

theorem Holds.length_eq (holds : Holds n slots head tail queue) :
    queue.length = (head + n - tail) % n := by
  have tailLt := holds.tail_lt
  have short := holds.short
  have headEq := holds.head_eq
  rcases Nat.lt_or_ge (tail + queue.length) n with inside | wrapped
  · rw [Nat.mod_eq_of_lt inside] at headEq
    have : head + n - tail = queue.length + n := by omega
    rw [this, Nat.add_mod_right, Nat.mod_eq_of_lt short]
  · rw [Nat.mod_eq_sub_mod wrapped, Nat.mod_eq_of_lt (by omega)] at headEq
    have : head + n - tail = queue.length := by omega
    rw [this, Nat.mod_eq_of_lt short]

theorem Holds.push (holds : Holds n slots head tail queue) (room : (head + 1) % n ≠ tail)
    (x : α) :
    Holds n (Function.update slots head x) ((head + 1) % n) tail (queue ++ [x]) := by
  have tailLt := holds.tail_lt
  have short : queue.length + 1 < n := by
    have := holds.short
    by_contra full
    have lengthEq : queue.length + 1 = n := by omega
    apply room
    rw [holds.head_eq, Nat.mod_add_mod, Nat.add_assoc, lengthEq, Nat.add_mod_right,
      Nat.mod_eq_of_lt tailLt]
  refine ⟨tailLt, ?_, ?_, ?_⟩
  · rw [List.length_append]
    exact short
  · rw [holds.head_eq, Nat.mod_add_mod, List.length_append, ← Nat.add_assoc]
    rfl
  · intro i inside
    rw [List.length_append] at inside
    change i < queue.length + 1 at inside
    rcases Nat.lt_succ_iff_lt_or_eq.mp inside with old | rfl
    · have different : (tail + i) % n ≠ head := by
        rw [holds.head_eq]
        intro same
        have := eq_of_mod_eq (by omega) holds.short same
        omega
      rw [Function.update_of_ne different, holds.slot i old]
      simp [List.getElem_append_left old]
    · rw [← holds.head_eq, Function.update_self]
      simp

theorem Holds.pop {x : α} (holds : Holds n slots head tail (x :: queue)) :
    slots tail = x ∧ Holds n slots head ((tail + 1) % n) queue := by
  have tailLt := holds.tail_lt
  have short := holds.short
  rw [List.length_cons] at short
  refine ⟨?_, Nat.mod_lt _ (by omega), by omega, ?_, ?_⟩
  · have first := holds.slot 0 (Nat.succ_pos _)
    rwa [Nat.add_zero, Nat.mod_eq_of_lt tailLt] at first
  · rw [holds.head_eq, Nat.mod_add_mod, List.length_cons]
    congr 1
    omega
  · intro i inside
    have next := holds.slot (i + 1) (Nat.succ_lt_succ inside)
    rw [Nat.mod_add_mod]
    have shift : tail + 1 + i = tail + (i + 1) := by omega
    rw [shift, next]
    rfl

end Ring
