import Mathlib.Tactic.Common
import Mathlib.Algebra.Ring.Int.Defs

/-!
# The exposure and gain of the NT99235

Exposure is a 16-bit count of lines, the gain code goes to two registers, and a commit writes
the four bytes between `GROUP_HOLD = 1` and `GROUP_HOLD = 0`.
-/

namespace MlKernel.Sensor

def nt99235RegGroupHold : UInt16 := 0x0104
def nt99235RegExposureHi : UInt16 := 0x0202
def nt99235RegExposureLo : UInt16 := 0x0203
def nt99235RegAgain0 : UInt16 := 0x0206
def nt99235RegAgain1 : UInt16 := 0x0207

def nt99235AgainMin : ℤ := 0x00
def nt99235AgainMax : ℤ := 0x60
def nt99235ExposureMin : ℤ := 1

/-- What the commit reads of a mode: the frame length in lines, which is 1125, 562 or 752 in
`nt99235_modes`. -/
structure Nt99235Mode where
  vts : UInt16
  lines : 2 < vts.toNat

/-- The four bytes of an exposure and gain pair, as they stand in the sensor. -/
structure Exposure where
  hi : UInt8
  lo : UInt8
  again0 : UInt8
  again1 : UInt8
  deriving DecidableEq, Repr

/-- The bytes `nt99235_commit_exposure` writes. -/
def commitBytes (mode : Nt99235Mode) (lines gain : UInt32) : Exposure :=
  let max := (mode.vts - 2).toUInt32
  let lines := if max < lines then max else lines
  { hi := ((lines >>> 8) &&& 0xff).toUInt8
    lo := (lines &&& 0xff).toUInt8
    again0 := (gain &&& 0xff).toUInt8
    again1 := (gain &&& 0xff).toUInt8 }

/-! ### Reading a pair back -/

/-- The longest exposure of a mode, in lines. -/
def Nt99235Mode.ceiling (mode : Nt99235Mode) : ℤ := mode.vts.toNat - 2

/-- The four bytes are these lines and this gain code. -/
def Exposure.Holds (pair : Exposure) (lines gain : ℤ) : Prop :=
  (pair.hi.toNat * 256 + pair.lo.toNat : ℤ) = lines ∧
    (pair.again0.toNat : ℤ) = gain ∧ (pair.again1.toNat : ℤ) = gain

theorem toNat_ofInt {x : ℤ} (nonneg : 0 ≤ x) (small : x < 2 ^ 32) :
    ((UInt32.ofInt x).toNat : ℤ) = x := by
  have wrapped : (UInt32.ofInt x).toNat = (x % ((2 ^ 32 : ℕ) : ℤ)).toNat := by
    unfold UInt32.ofInt
    simp
    omega
  rw [wrapped]
  omega

theorem lowByte_toNat (x : UInt32) : (x &&& 0xff).toUInt8.toNat = x.toNat % 256 := by
  have low := Nat.and_two_pow_sub_one_eq_mod (x.toNat % 256) 8
  simpa using low

theorem shiftRight_eight_toNat (x : UInt32) : (x >>> 8).toNat = x.toNat / 256 := by
  rw [UInt32.toNat_shiftRight]
  exact Nat.shiftRight_eq_div_pow x.toNat 8

theorem Nt99235Mode.ceiling_toNat (mode : Nt99235Mode) :
    ((mode.vts - 2).toUInt32.toNat : ℤ) = mode.ceiling := by
  have lines := mode.lines
  have ordered : (2 : UInt16) ≤ mode.vts := Nat.le_of_lt lines
  rw [UInt16.toNat_toUInt32, UInt16.toNat_sub_of_le _ _ ordered, ceiling]
  exact Nat.cast_sub (Nat.le_of_lt lines)

/-- The comparison of `nt99235_commit_exposure` clamps to the ceiling of the mode. -/
theorem commitLines_toNat (mode : Nt99235Mode) (lines : UInt32) :
    (((if (mode.vts - 2).toUInt32 < lines then (mode.vts - 2).toUInt32 else lines).toNat : ℕ) : ℤ) =
      min (lines.toNat : ℤ) mode.ceiling := by
  have ceiling := mode.ceiling_toNat
  split
  · next beyond =>
      have lt := UInt32.lt_iff_toNat_lt.mp beyond
      omega
  · next within =>
      have le := Nat.le_of_not_lt (UInt32.lt_iff_toNat_lt.not.mp within)
      omega

theorem commitBytes_holds_iff (mode : Nt99235Mode) {lines gain : ℤ}
    (linesNonneg : 0 ≤ lines) (linesSmall : lines < 2 ^ 32)
    (gainNonneg : 0 ≤ gain) (gainSmall : gain < 256) (lines' gain' : ℤ) :
    (commitBytes mode (.ofInt lines) (.ofInt gain)).Holds lines' gain' ↔
      min lines mode.ceiling = lines' ∧ gain = gain' := by
  have clamped := commitLines_toNat mode (.ofInt lines)
  have vts := mode.vts.toNat_lt
  have code := toNat_ofInt gainNonneg (Int.lt_trans gainSmall (by decide))
  rw [toNat_ofInt linesNonneg linesSmall] at clamped
  simp only [Exposure.Holds, commitBytes, lowByte_toNat, shiftRight_eight_toNat]
  generalize (if (mode.vts - 2).toUInt32 < _ then _ else _ : UInt32).toNat = committed at *
  have ceiling : mode.ceiling < 65536 := by
    unfold Nt99235Mode.ceiling
    omega
  omega

/-! ### The six writes -/

inductive CommitPoint
  | hold
  | exposureHi
  | exposureLo
  | again0
  | again1
  | release
  deriving DecidableEq, Repr

/-- A commit in progress; `failed` is `ret` not zero. -/
structure Commit where
  bytes : Exposure
  point : CommitPoint
  failed : Bool

/-- What a commit comes to with a write: it goes on, or returns. -/
inductive Progress
  | going (commit : Commit)
  | returned (ok : Bool)

def Commit.start (bytes : Exposure) : Commit where
  bytes
  point := .hold
  failed := false

/-- The address and the value of the next write. -/
def Commit.write (c : Commit) : UInt16 × UInt8 :=
  match c.point with
  | .hold => (nt99235RegGroupHold, 1)
  | .exposureHi => (nt99235RegExposureHi, c.bytes.hi)
  | .exposureLo => (nt99235RegExposureLo, c.bytes.lo)
  | .again0 => (nt99235RegAgain0, c.bytes.again0)
  | .again1 => (nt99235RegAgain1, c.bytes.again1)
  | .release => (nt99235RegGroupHold, 0)

/-- A failed write skips the ones that are left, but not the release of the hold. -/
def Commit.stage (c : Commit) (next : CommitPoint) (ok : Bool) : Progress :=
  .going { c with point := if ok then next else .release, failed := !ok }

def Commit.after (c : Commit) (ok : Bool) : Progress :=
  match c.point with
  | .hold => if ok then .going { c with point := .exposureHi } else .returned false
  | .exposureHi => c.stage .exposureLo ok
  | .exposureLo => c.stage .again0 ok
  | .again0 => c.stage .again1 ok
  | .again1 => c.stage .release ok
  | .release => .returned (!c.failed && ok)

/-- The registers of the sensor that a commit writes. -/
structure Nt99235Sensor where
  hold : UInt8
  staged : Exposure

def Nt99235Sensor.write (sensor : Nt99235Sensor) (address : UInt16) (value : UInt8) :
    Nt99235Sensor :=
  if address = nt99235RegGroupHold then { sensor with hold := value }
  else if address = nt99235RegExposureHi then
    { sensor with staged := { sensor.staged with hi := value } }
  else if address = nt99235RegExposureLo then
    { sensor with staged := { sensor.staged with lo := value } }
  else if address = nt99235RegAgain0 then
    { sensor with staged := { sensor.staged with again0 := value } }
  else if address = nt99235RegAgain1 then
    { sensor with staged := { sensor.staged with again1 := value } }
  else sensor

end MlKernel.Sensor
