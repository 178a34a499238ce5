import Mathlib.Algebra.Ring.Nat
import Mathlib.Tactic.Common

/-!
# Little-endian bytes

A natural number stored in a given number of bytes, least significant byte first, and read back.
-/

namespace LittleEndian

/-- The low `count` bytes of a number. -/
def bytes (count value : ℕ) : List UInt8 :=
  match count with
  | 0 => []
  | count + 1 => UInt8.ofNat (value % 256) :: bytes count (value / 256)

def value (stored : List UInt8) : ℕ :=
  match stored with
  | [] => 0
  | byte :: stored => byte.toNat + 256 * value stored

@[simp]
theorem length_bytes (count value : ℕ) : (bytes count value).length = count := by
  induction count generalizing value with
  | zero => rfl
  | succ count ih => simp [bytes, ih]

theorem value_lt (stored : List UInt8) : value stored < 256 ^ stored.length := by
  induction stored with
  | nil => simp [value]
  | cons byte stored ih =>
      have := byte.toNat_lt
      simp only [value, List.length_cons, Nat.pow_succ]
      omega

@[simp]
theorem value_bytes (count number : ℕ) : value (bytes count number) = number % 256 ^ count := by
  induction count generalizing number with
  | zero => simp [bytes, value, Nat.mod_one]
  | succ count ih =>
      rw [bytes, value, ih, UInt8.toNat_ofNat_of_lt' (Nat.mod_lt number (by simp)), Nat.pow_succ,
        Nat.mul_comm (256 ^ count), Nat.mod_mul]

end LittleEndian
