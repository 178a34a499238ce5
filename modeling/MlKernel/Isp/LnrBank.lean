import MlKernel.Isp.NoiseLadders
import MlKernel.Lib.BitField
import MlKernel.Lib.FieldBank

/-!
# The lnr bank

The packer overwrites the bit fields of its tables, each with the payload word that the gain
selects or blends, and leaves every other bit of the bank to its owner.  No two fields have a bit in
common, so that packing twice is packing once.
-/

namespace MlKernel.Isp

open FieldBank

/-! ### The tables -/

/-- Every field that is packed, in the order of the packer. -/
def lnrTable : List ArIspLnrField :=
  arIspLnrFields ++ (List.range arIspLnrCurveRegs).flatMap lnrCurveFields

def ArIspLnrField.field (f : ArIspLnrField) : BitRange ℕ := ⟨f.reg, f.shift, f.width⟩

/-- The payload word that a gain selects inside a band, or its blend in a gap. -/
def lnrWord (blob : Bytes) (gainQ16 : UInt32) (off : ℕ) : UInt32 :=
  let selected := arIspLadderSelectF32 arIspLnrLadder blob gainQ16
  let word (band : ℕ) : UInt32 :=
    arIspGetLe32 blob (arIspLnrLadder.payload + band * arIspLnrLadder.stride + off)
  if selected.2.t = 0 then word selected.1
  else
    (arIspLadderBlendF32 (word (selected.1 - 1)).toInt32 (word selected.1).toInt32
      selected.2).toUInt32

theorem lnrWord_eq (blob : Bytes) (gainQ16 : UInt32) (off : ℕ) :
    lnrWord blob gainQ16 off =
      arIspLadderReadWordF32 arIspLnrLadder blob
        (arIspLadderSelectF32 arIspLnrLadder blob gainQ16).1 off
        (arIspLadderSelectF32 arIspLnrLadder blob gainQ16).2 := by
  simp only [lnrWord, arIspLadderReadWordF32, blendWords, ite_not]

theorem arIspLnrFromBlob_eq (blob : Bytes) (gainQ16 : UInt32) (dst : ℕ → UInt32) :
    arIspLnrFromBlob blob gainQ16 dst =
      putAll
        (fun f dst => arIspLnrPackField blob (arIspLadderSelectF32 arIspLnrLadder blob gainQ16).1
          (arIspLadderSelectF32 arIspLnrLadder blob gainQ16).2 dst f) lnrTable dst := by
  rw [putAll, lnrTable, List.foldl_append, List.foldl_flatMap]
  rfl

/-- The fields are listed register by register and from the lowest bit up, inside the words. -/
theorem lnrTable_ordered : (lnrTable.map ArIspLnrField.field).IsChain BitRange.Before := by
  decide +kernel

theorem lnrTable_fits {f : ArIspLnrField} (mem : f ∈ lnrTable) :
    f.shift < 32 ∧ f.shift + f.width ≤ 32 := by
  have all : ∀ f ∈ lnrTable, f.shift < 32 ∧ f.shift + f.width ≤ 32 := by decide +kernel
  exact all f mem

theorem lnrTable_apart : lnrTable.Pairwise fun f other => f.field.Apart other.field := by
  have apart := pairwise_apart lnrTable_ordered
  rwa [List.pairwise_map] at apart

/-! ### One field -/

theorem lnrMask_toBitVec {width : ℕ} (few : width ≤ 32) :
    (if width = 32 then 0xffffffff else (1 <<< UInt32.ofNat width) - 1 : UInt32).toBitVec =
      BitVec.ofNat 32 (2 ^ width - 1) := by
  split
  · next full =>
      subst full
      rfl
  · next part =>
      have narrow : width < 32 := by omega
      have places : (UInt32.ofNat width).toNat = width := by
        rw [UInt32.toNat_ofNat']
        omega
      have power : 2 ^ width < 2 ^ 32 := Nat.pow_lt_pow_right (by decide) narrow
      have unit : (1 <<< UInt32.ofNat width : UInt32).toNat = 2 ^ width := by
        rw [UInt32.toNat_shiftLeft, places, Nat.mod_eq_of_lt narrow, Nat.shiftLeft_eq]
        exact (congrArg (· % 2 ^ 32) (Nat.one_mul _)).trans (Nat.mod_eq_of_lt power)
      have positive : 1 ≤ 2 ^ width := Nat.one_le_two_pow
      apply BitVec.eq_of_toNat_eq
      rw [BitVec.toNat_ofNat, Nat.mod_eq_of_lt (by omega)]
      change ((1 <<< UInt32.ofNat width : UInt32) - 1).toNat = _
      rw [UInt32.toNat_sub_of_le, unit]
      · rfl
      · apply UInt32.le_iff_toNat_le.mpr
        rw [unit]
        exact positive

theorem shiftLeft_toBitVec (v : UInt32) {shift : ℕ} (inside : shift < 32) :
    (v <<< UInt32.ofNat shift).toBitVec = v.toBitVec <<< shift := by
  have places : ((UInt32.ofNat shift).toBitVec % 32).toNat = shift := by
    rw [BitVec.toNat_umod]
    change shift % 2 ^ 32 % 32 = shift
    omega
  rw [UInt32.toBitVec_shiftLeft, BitVec.shiftLeft_eq', places]

/-- The bits of a register with a field packed into it. -/
theorem arIspLnrPackField_testBit (blob : Bytes) (band : ℕ) (frac : LadderFrac)
    (dst : ℕ → UInt32) {f : ArIspLnrField} (inside : f.shift < 32) (fits : f.shift + f.width ≤ 32)
    (i : ℕ) :
    (arIspLnrPackField blob band frac dst f f.reg).toNat.testBit i =
      if f.shift ≤ i ∧ i < f.shift + f.width then
        (arIspLadderReadWordF32 arIspLnrLadder blob band f.off frac).toNat.testBit (i - f.shift)
      else (dst f.reg).toNat.testBit i := by
  have few : f.width ≤ 32 := by omega
  have mask := lnrMask_toBitVec few
  simp only [arIspLnrPackField, Function.update_self]
  generalize (if f.width = 32 then 0xffffffff else (1 <<< UInt32.ofNat f.width) - 1 : UInt32) = m
    at mask ⊢
  generalize arIspLadderReadWordF32 arIspLnrLadder blob band f.off frac = v
  have power : 2 ^ f.width ≤ 2 ^ 32 := Nat.pow_le_pow_right (by decide) few
  have positive : 0 < 2 ^ f.width := Nat.two_pow_pos _
  have ones : (2 ^ f.width - 1) % 2 ^ 32 = 2 ^ f.width - 1 := Nat.mod_eq_of_lt (by omega)
  have small : (v.toBitVec &&& BitVec.ofNat 32 (2 ^ f.width - 1)).toNat < 2 ^ f.width := by
    rw [BitVec.toNat_and, BitVec.toNat_ofNat, ones, Nat.and_two_pow_sub_one_eq_mod]
    exact Nat.mod_lt _ positive
  change (_ : UInt32).toBitVec.getLsbD i = _
  rw [UInt32.toBitVec_or, UInt32.toBitVec_and, UInt32.toBitVec_not, shiftLeft_toBitVec _ inside,
    shiftLeft_toBitVec _ inside, UInt32.toBitVec_and, mask, BitField.getLsbD_setField fits small]
  split
  · next within =>
      have low : i - f.shift < f.width := by omega
      have top : i - f.shift < 32 := by omega
      rw [BitVec.getLsbD_and, BitField.getLsbD_ones, decide_eq_true low, decide_eq_true top,
        Bool.and_true, Bool.and_true]
      rfl
  · rfl

/-- A field is overwritten with the low bits of its word. -/
theorem arIspLnrPackField_overwrites (blob : Bytes) (band : ℕ) (frac : LadderFrac)
    {f : ArIspLnrField} (inside : f.shift < 32) (fits : f.shift + f.width ≤ 32) :
    Overwrites (fun word : UInt32 => word.toNat.testBit)
      (fun dst => arIspLnrPackField blob band frac dst f) f.field
      (arIspLadderReadWordF32 arIspLnrLadder blob band f.off frac).toNat.testBit where
  own dst i small := by
    have position : f.shift ≤ f.shift + i ∧ f.shift + i < f.shift + f.width :=
      ⟨Nat.le_add_right _ _, Nat.add_lt_add_left small _⟩
    have bits := arIspLnrPackField_testBit blob band frac dst inside fits (f.shift + i)
    rwa [if_pos position, Nat.add_sub_cancel_left] at bits
  frame dst reg i outside := by
    by_cases own : reg = f.reg
    · subst own
      have bits := arIspLnrPackField_testBit blob band frac dst inside fits i
      have beyond : ¬(f.shift ≤ i ∧ i < f.shift + f.width) := fun within => outside ⟨rfl, within⟩
      rwa [if_neg beyond] at bits
    · exact congrArg (fun word : UInt32 => word.toNat.testBit i) (Function.update_of_ne own _ _)

theorem lnrTable_overwrites (blob : Bytes) (gainQ16 : UInt32) :
    ∀ f ∈ lnrTable, Overwrites (fun word : UInt32 => word.toNat.testBit)
      (fun dst => arIspLnrPackField blob (arIspLadderSelectF32 arIspLnrLadder blob gainQ16).1
        (arIspLadderSelectF32 arIspLnrLadder blob gainQ16).2 dst f) f.field
      (lnrWord blob gainQ16 f.off).toNat.testBit := by
  intro f mem
  rcases lnrTable_fits mem with ⟨inside, fits⟩
  rw [lnrWord_eq]
  exact arIspLnrPackField_overwrites blob _ _ inside fits

/-! ### The bank -/

/-- Every field of the tables reads back its payload word as far as it is wide, every other bit is
as it was, and packing once more changes nothing. -/
theorem arIspLnrFromBlob_overwrites (blob : Bytes) (gainQ16 : UInt32) (dst : ℕ → UInt32) :
    (∀ f ∈ lnrTable,
      (arIspLnrFromBlob blob gainQ16 dst f.reg).toNat / 2 ^ f.shift % 2 ^ f.width =
        (lnrWord blob gainQ16 f.off).toNat % 2 ^ f.width) ∧
      (∀ reg i, (∀ f ∈ lnrTable, ¬f.field.Owns reg i) →
        (arIspLnrFromBlob blob gainQ16 dst reg).toNat.testBit i = (dst reg).toNat.testBit i) ∧
      arIspLnrFromBlob blob gainQ16 (arIspLnrFromBlob blob gainQ16 dst) =
        arIspLnrFromBlob blob gainQ16 dst := by
  have each := lnrTable_overwrites blob gainQ16
  simp only [arIspLnrFromBlob_eq]
  refine ⟨?_, ?_, ?_⟩
  · intro f mem
    apply Nat.eq_of_testBit_eq
    intro i
    rw [Nat.testBit_mod_two_pow, Nat.testBit_mod_two_pow, Nat.testBit_div_two_pow, Nat.add_comm]
    by_cases small : i < f.width
    · exact congrArg (decide (i < f.width) && ·) (putAll_own each lnrTable_apart mem small dst)
    · simp [small]
  · intro reg i outside
    exact putAll_frame each outside dst
  · apply putAll_idempotent _ each lnrTable_apart
    intro a b same
    exact UInt32.toNat_inj.mp (Nat.eq_of_testBit_eq same)

/-- A file of equal bytes over a bank of ones: the byte field of register zero holds the byte, and
the bits below it and the register that is never written stay. -/
theorem arIspLnrFromBlob_overwrites_ones :
    let packed := arIspLnrFromBlob (fun _ => 0x5a) 0x10000 fun _ => 0xffffffff
    (packed 0).toNat / 2 ^ 24 % 2 ^ 8 = 0x5a ∧ (packed 0).toNat.testBit 23 = true ∧
      (packed arIspLnrSkipNeverWritten).toNat.testBit 31 = true := by
  intro packed
  have whole := arIspLnrFromBlob_overwrites (fun _ => 0x5a) 0x10000 fun _ => 0xffffffff
  rcases whole with ⟨reads, keeps, _⟩
  have listed : ⟨0, 0x014, 24, 8⟩ ∈ lnrTable := by simp [lnrTable, arIspLnrFields]
  have free : ∀ f ∈ lnrTable, ¬f.field.Owns 0 23 ∧ ¬f.field.Owns arIspLnrSkipNeverWritten 31 := by
    decide +kernel
  refine ⟨?_, ?_, ?_⟩
  · exact (reads _ listed).trans (by decide +kernel)
  · exact (keeps 0 23 fun f mem => (free f mem).1).trans (by decide)
  · exact (keeps arIspLnrSkipNeverWritten 31 fun f mem => (free f mem).2).trans (by decide)

end MlKernel.Isp
