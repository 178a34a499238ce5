import Mathlib.Data.Nat.ModEq
import Mathlib.Tactic.Common

/-!
# The Internet checksum

The one's complement checksum over 16-bit big-endian words, as IPv4 headers
carry it.  Adding with end-around carry is addition modulo `65535` in which
zero is also written `65535`; this is all the round trip below needs.
-/

namespace InternetChecksum

/-- The plain sum of the 16-bit big-endian words of a byte string. -/
def wordSum : List UInt8 → ℕ
  | [] => 0
  | [high] => high.toNat * 256
  | high :: low :: rest => high.toNat * 256 + low.toNat + wordSum rest

/-- Fold the carries out of the low 16 bits back into them. -/
def foldCarries (sum : ℕ) : ℕ :=
  if sum < 65536 then sum else foldCarries (sum / 65536 + sum % 65536)
termination_by sum
decreasing_by omega

/-- The checksum to store for a byte string whose checksum field is zero. -/
def checksum (bytes : List UInt8) : UInt16 :=
  UInt16.ofNat (65535 - foldCarries (wordSum bytes))

/-- A receiver accepts a byte string, its checksum field included. -/
def Verifies (bytes : List UInt8) : Prop :=
  foldCarries (wordSum bytes) = 65535

instance (bytes : List UInt8) : Decidable (Verifies bytes) :=
  inferInstanceAs (Decidable (foldCarries (wordSum bytes) = 65535))

theorem foldCarries_lt (sum : ℕ) : foldCarries sum < 65536 := by
  fun_induction foldCarries sum with
  | case1 sum small => exact small
  | case2 sum large ih => exact ih

theorem foldCarries_mod (sum : ℕ) : foldCarries sum % 65535 = sum % 65535 := by
  fun_induction foldCarries sum with
  | case1 sum small => rfl
  | case2 sum large ih =>
      rw [ih]
      omega

theorem foldCarries_pos {sum : ℕ} (positive : 0 < sum) : 0 < foldCarries sum := by
  fun_induction foldCarries sum with
  | case1 sum small => exact positive
  | case2 sum large ih => exact ih (by omega)

/-- The only multiples of `65535` the folding can reach are `0` and `65535`. -/
theorem foldCarries_eq_iff {sum : ℕ} (positive : 0 < sum) :
    foldCarries sum = 65535 ↔ sum % 65535 = 0 := by
  have bounded := foldCarries_lt sum
  have congruent := foldCarries_mod sum
  have nonzero := foldCarries_pos positive
  omega

/-- Storing the checksum of the rest makes any even split of the string verify. -/
theorem foldCarries_add_checksum {bytes : List UInt8} (positive : 0 < wordSum bytes) :
    foldCarries (wordSum bytes + (checksum bytes).toNat) = 65535 := by
  have bounded := foldCarries_lt (wordSum bytes)
  have congruent := foldCarries_mod (wordSum bytes)
  have stored : (checksum bytes).toNat = 65535 - foldCarries (wordSum bytes) := by
    simp only [checksum, UInt16.toNat_ofNat']
    omega
  rw [foldCarries_eq_iff (by omega), stored]
  omega

end InternetChecksum
