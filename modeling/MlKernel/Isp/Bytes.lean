import Mathlib.Tactic.Common
import Mathlib.Data.Int.Notation

/-!
# Little-endian words and the fields of a float

The tuning file stores words in little-endian order and gains as float32, which the stages decode
from the bit pattern.
-/

namespace MlKernel.Isp

/-- Memory, or the tuning file, by offset. -/
abbrev Bytes : Type := ℕ → UInt8

def arIspGetLe32 (p : Bytes) (offset : ℕ) : UInt32 :=
  (p offset).toUInt32 ||| ((p (offset + 1)).toUInt32 <<< 8) |||
    ((p (offset + 2)).toUInt32 <<< 16) ||| ((p (offset + 3)).toUInt32 <<< 24)

def arIspF32MantBits : ℤ := 23

/-- The mantissa with its implicit leading one restored. -/
def arIspF32Mant (bits : UInt32) : UInt32 := (bits &&& 0x7fffff) ||| 0x800000

/-- The unbiased exponent. -/
def arIspF32Exp (bits : UInt32) : ℤ := ((bits >>> 23) &&& 0xff).toNat - 127

end MlKernel.Isp
