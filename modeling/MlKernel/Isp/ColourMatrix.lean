import MlKernel.Isp.LadderStages
import MlKernel.Isp.Quantise
import MlKernel.Isp.Words

/-!
# The colour matrices

Each of the two banks holds two packed matrices.  The first bank starts out with two identities, of
which the first copy is replaced by a matrix of the tuning file; the second bank never moves.
-/

namespace MlKernel.Isp

open Binary32 Rounding

def arIspCcm1Bank : ℕ := 0x3400
def arIspCcm2Bank : ℕ := 0x3800
def arIspCcmCopyB : ℕ := 0x20
def arIspCcmWords : ℕ := 6
def arIspCcmDim : ℕ := 3
def arIspCcmBlobGate : ℕ := 0x253fc
def arIspCcmBlobBanksUsed : UInt32 := 0x4
def arIspCcmBlobBankStride : ℕ := 0x24
def arIspCcmBlobBanks : ℕ := 0x25470

def arIspCcm1Init : List UInt32 := [
  0x00000100, 0x00000000, 0x01000000, 0x00000000, 0x00000000, 0x00000100, 0x00000000, 0x00000000,
  0x00000100, 0x00000000, 0x01000000, 0x00000000, 0x00000000, 0x00000100, 0x00000000, 0x00000000,
  0x00000000, 0x00000000, 0x00000000, 0x00000000]

def arIspCcm2Init : List UInt32 := [
  0x80f7020c, 0x00008017, 0x01978051, 0x00008048, 0x80868003, 0x00000187, 0x00000000, 0x00000000,
  0x80f7020c, 0x00008017, 0x01978051, 0x00008048, 0x80868003, 0x00000187, 0x00000000, 0x00000000,
  0x00000000, 0x00000000, 0x00000000, 0x00000000]

/-- Two words for a row: a pair in the halves of the first, and the third coefficient. -/
def ccmPackRow (bits : ℕ → UInt32) (row : ℕ) (memory : Bytes) : Bytes :=
  let a := arIspF32Q8sm (bits (arIspCcmDim * row + 0))
  let b := arIspF32Q8sm (bits (arIspCcmDim * row + 1))
  let c := arIspF32Q8sm (bits (arIspCcmDim * row + 2))
  let memory := arIspPutLe32 (8 * row) (a.toUInt32 ||| (b.toUInt32 <<< 16)) memory
  arIspPutLe32 (8 * row + 4) c.toUInt32 memory

def arIspCcmPack (bits : ℕ → UInt32) (memory : Bytes) : Bytes :=
  (List.range arIspCcmDim).foldl (fun memory row => ccmPackRow bits row memory) memory

/-- The coefficients of a bank of the tuning file, row by row. -/
def ccmBits (blob : Bytes) (bank i : ℕ) : UInt32 :=
  arIspGetLe32 blob (arIspCcmBlobBanks + bank * arIspCcmBlobBankStride + i * 4)

def arIspCcmFromBlob (blob : Bytes) (bank : ℕ) (memory : Bytes) : Bytes :=
  arIspCcmPack (ccmBits blob bank) memory

/-- A bank that does not exist is replaced by the first, also in the parameter. -/
def ccmBankUsed (ccmBank : UInt32) : UInt32 :=
  if arIspCcmBlobBanksUsed ≤ ccmBank then 0 else ccmBank

/-- The registers, and the bank parameter. -/
def arIspCcmApply (ccm : Bool) (tuning : Option Bytes) (ccmBank : UInt32) (regs : RegFile) :
    RegFile × UInt32 :=
  if ccm = false then (regs, ccmBank)
  else
    let regs := writeWords 20 arIspCcm1Bank (fun i => arIspCcm1Init.getD i 0) regs
    let regs := writeWords 20 arIspCcm2Bank (fun i => arIspCcm2Init.getD i 0) regs
    match tuning with
    | none => (regs, ccmBank)
    | some blob =>
        if arIspGetLe32 blob arIspCcmBlobGate ≠ 1 then (regs, ccmBank)
        else
          let ccmBank := ccmBankUsed ccmBank
          let packed := arIspCcmFromBlob blob ccmBank.toNat fun _ => 0
          (writeWords arIspCcmWords arIspCcm1Bank (fun i => arIspGetLe32 packed (i * 4)) regs,
            ccmBank)

/-! ### What the block reads -/

/-- A coefficient of the matrix packed from the register on. -/
def ccmRead (regs : RegFile) (copy row col : ℕ) : ℚ :=
  ccmCoefficient ((regs (copy + 8 * row + col / 2 * 4)).toNat / 2 ^ (16 * (col % 2)) % 2 ^ 16)

section Matrix

variable {regs : RegFile} {count base : ℕ} {values : ℕ → UInt32} {bits : ℕ → UInt32}

theorem writeWords_of_lt {i : ℕ} (inside : i < count) :
    writeWords count base values regs (base + i * 4) = values i := by
  rw [writeWords_eq]
  have distinct : ((wordWrites count base values).map RegisterWrite.addr).Nodup := by
    rw [wordWrites_addr, wordAddrs]
    apply List.Nodup.map _ List.nodup_range
    intro i j same
    simpa using same
  have member : wordWrite (values i) (base + i * 4) ∈ wordWrites count base values :=
    List.mem_map.mpr ⟨i, List.mem_range.mpr inside, rfl⟩
  exact RegisterWrite.storeAll_of_mem distinct member regs

theorem writeWords_of_outside {off : ℕ} (outside : ∀ i < count, off ≠ base + i * 4) :
    writeWords count base values regs off = regs off := by
  rw [writeWords_eq]
  apply RegisterWrite.storeAll_of_untouched
  intro write member
  rcases List.mem_map.mp member with ⟨i, inside, rfl⟩
  exact (outside i (List.mem_range.mp inside)).symm

theorem ccmPack_words (bits : ℕ → UInt32) (memory : Bytes) {row : ℕ} (inside : row < arIspCcmDim) :
    arIspGetLe32 (arIspCcmPack bits memory) (8 * row) =
        (arIspF32Q8sm (bits (3 * row + 0))).toUInt32 |||
          ((arIspF32Q8sm (bits (3 * row + 1))).toUInt32 <<< 16) ∧
      arIspGetLe32 (arIspCcmPack bits memory) (8 * row + 4) =
        (arIspF32Q8sm (bits (3 * row + 2))).toUInt32 := by
  have fills (row : ℕ) : Fills (ccmPackRow bits row) (8 * row) (8 * row + 8) :=
    (putLe32_fills (8 * row) _).comp (putLe32_fills (8 * row + 4) _) (by omega) (by omega)
  have own := fun cell => (@Fills.fold_apart _ _ _ _ arIspCcmDim (fun row _ => fills row)
    (fun i j less _ => by omega) memory cell).1 row inside
  have same : ∀ k ≤ 4, arIspGetLe32 (arIspCcmPack bits memory) (8 * row + k) =
      arIspGetLe32 (ccmPackRow bits row memory) (8 * row + k) := by
    intro k few
    apply arIspGetLe32_congr
    intro cell low high
    exact own cell (by omega) (by omega)
  constructor
  · refine (same 0 (by decide)).trans ?_
    rw [ccmPackRow, arIspGetLe32_putLe32_of_ne _ _ (by omega)]
    exact arIspGetLe32_putLe32 _ _ _
  · refine (same 4 (by decide)).trans ?_
    exact arIspGetLe32_putLe32 _ _ _

theorem pair_halves (a b : UInt16) :
    (a.toUInt32 ||| (b.toUInt32 <<< 16)).toNat = a.toNat + b.toNat * 2 ^ 16 := by
  have small : a.toNat < 2 ^ 16 := a.toNat_lt
  have upper : b.toNat < 2 ^ 16 := b.toNat_lt
  have shifted := @or_shift_toNat a.toUInt32 b.toUInt32 16 16 rfl (by decide)
  rw [UInt16.toNat_toUInt32, UInt16.toNat_toUInt32] at shifted
  exact shifted small (by omega)

/-- A coefficient as it comes from the tuning file: cut off towards zero to the unit of the field,
and limited. -/
structure Truncates (read : ℚ) (bits : UInt32) : Prop where
  exact : read = signOf (IsNegative bits) *
    (((min (2 ^ 15 - 1) ⌊|value bits| * 2 ^ arIspCcmQ⌋₊ : ℕ) : ℚ) / 2 ^ arIspCcmQ)
  magnitude : |read| ≤ |value bits|
  within : |value bits| < 2 ^ 7 → |value bits - read| < 1 / 2 ^ arIspCcmQ

theorem truncates_q8sm (bits : UInt32) :
    Truncates (ccmCoefficient (arIspF32Q8sm bits).toNat) bits := by
  have field := truncated_within (abs_nonneg (value bits)) arIspCcmQ (2 ^ 15 - 1)
  have read := ccmCoefficient_q8sm bits
  have nonneg : (0 : ℚ) ≤
      ((min (2 ^ 15 - 1) ⌊|value bits| * 2 ^ arIspCcmQ⌋₊ : ℕ) : ℚ) / 2 ^ arIspCcmQ := by
    positivity
  refine ⟨read, ?_, ?_⟩
  · rw [read, abs_signOf_mul, abs_of_nonneg nonneg]
    exact field.1
  · intro small
    have inField : |value bits| * 2 ^ arIspCcmQ < ((2 ^ 15 - 1 : ℕ) : ℚ) + 1 := by
      have units : (2 : ℚ) ^ arIspCcmQ = 2 ^ 8 := rfl
      rw [units]
      push_cast
      linarith
    have above := field.2 inField
    have below := field.1
    have signed : |value bits - ccmCoefficient (arIspF32Q8sm bits).toNat| =
        abs (|value bits| - ((min (2 ^ 15 - 1) ⌊|value bits| * 2 ^ arIspCcmQ⌋₊ : ℕ) : ℚ) /
          2 ^ arIspCcmQ) := by
      have magnitude : value bits = signOf (IsNegative bits) * |value bits| := by
        rw [abs_value, value, mul_assoc]
      rw [read]
      conv_lhs => rw [magnitude]
      rw [← mul_sub, abs_signOf_mul, abs_signOf_mul, abs_abs]
    rw [signed, abs_of_nonneg (by linarith)]
    linarith

theorem ccmRead_of_row {row : ℕ} {a b c : UInt16} {copy : ℕ}
    (pair : regs (copy + 8 * row) = a.toUInt32 ||| (b.toUInt32 <<< 16))
    (third : regs (copy + 8 * row + 4) = c.toUInt32) :
    ccmRead regs copy row 0 = ccmCoefficient a.toNat ∧
      ccmRead regs copy row 1 = ccmCoefficient b.toNat ∧
        ccmRead regs copy row 2 = ccmCoefficient c.toNat := by
  have small : a.toNat < 2 ^ 16 := a.toNat_lt
  have upper : b.toNat < 2 ^ 16 := b.toNat_lt
  have last : c.toNat < 2 ^ 16 := c.toNat_lt
  refine ⟨congrArg ccmCoefficient ?_, congrArg ccmCoefficient ?_, congrArg ccmCoefficient ?_⟩
  · simp only [Nat.zero_div, Nat.zero_mul, Nat.add_zero, Nat.zero_mod, Nat.mul_zero, pair,
      pair_halves]
    omega
  · have upperHalf : 2 ^ (16 * (1 % 2)) = 2 ^ 16 := rfl
    simp only [show 1 / 2 * 4 = 0 from rfl, Nat.add_zero, pair, pair_halves, upperHalf]
    omega
  · have lowerHalf : 2 ^ (16 * (2 % 2)) = 1 := rfl
    simp only [show 2 / 2 * 4 = 4 from rfl, third, UInt16.toNat_toUInt32, lowerHalf]
    omega

theorem ccmRead_congr {regs' : RegFile} {copy copy' : ℕ}
    (same : ∀ i < arIspCcmWords, regs (copy + i * 4) = regs' (copy' + i * 4)) {row col : ℕ}
    (rowInside : row < arIspCcmDim) (colInside : col < arIspCcmDim) :
    ccmRead regs copy row col = ccmRead regs' copy' row col := by
  have index (copy : ℕ) : copy + 8 * row + col / 2 * 4 = copy + (2 * row + col / 2) * 4 := by omega
  have inside : 2 * row + col / 2 < arIspCcmWords := by
    simp only [arIspCcmDim, arIspCcmWords] at *
    omega
  rw [ccmRead, ccmRead, index, index, same _ inside]

/-- The packed identity. -/
theorem ccmRead_identity {copy : ℕ}
    (words : ∀ i < arIspCcmWords, regs (copy + i * 4) = arIspCcm1Init.getD i 0) {row col : ℕ}
    (rowInside : row < arIspCcmDim) (colInside : col < arIspCcmDim) :
    ccmRead regs copy row col = if row = col then 1 else 0 := by
  have table := @ccmRead_congr regs (fun off => arIspCcm1Init.getD (off / 4) 0) copy 0
    (fun i inside => by simpa using words i inside) row col rowInside colInside
  rw [table]
  have entries : ∀ row < arIspCcmDim, ∀ col < arIspCcmDim,
      (arIspCcm1Init.getD ((0 + 8 * row + col / 2 * 4) / 4) 0).toNat /
          2 ^ (16 * (col % 2)) % 2 ^ 16 =
        if row = col then 2 ^ 8 else 0 := by
    decide
  rw [ccmRead, entries row rowInside col colInside]
  split <;> norm_num [ccmCoefficient, arIspCcmQ]

/-- The file asks for a matrix of its own. -/
def ccmActive (tuning : Option Bytes) : Option Bytes :=
  tuning.filter fun blob => arIspGetLe32 blob arIspCcmBlobGate = 1

/-! ### The two banks -/

/-- The registers once both banks hold their tables. -/
def ccmTables (regs : RegFile) : RegFile :=
  writeWords 20 arIspCcm2Bank (fun i => arIspCcm2Init.getD i 0)
    (writeWords 20 arIspCcm1Bank (fun i => arIspCcm1Init.getD i 0) regs)

theorem ccmTables_first (regs : RegFile) {i : ℕ} (inside : i < 20) :
    ccmTables regs (arIspCcm1Bank + i * 4) = arIspCcm1Init.getD i 0 := by
  refine (writeWords_of_outside ?_).trans (writeWords_of_lt inside)
  intro j insideJ
  simp only [arIspCcm1Bank, arIspCcm2Bank]
  omega

theorem ccmTables_second (regs : RegFile) {i : ℕ} (inside : i < 20) :
    ccmTables regs (arIspCcm2Bank + i * 4) = arIspCcm2Init.getD i 0 :=
  writeWords_of_lt inside

theorem ccmTables_frame (regs : RegFile) {off : ℕ}
    (outside : ∀ i < 20, off ≠ arIspCcm1Bank + i * 4 ∧ off ≠ arIspCcm2Bank + i * 4) :
    ccmTables regs off = regs off := by
  refine (writeWords_of_outside fun i inside => (outside i inside).2).trans ?_
  exact writeWords_of_outside fun i inside => (outside i inside).1

/-- The matrix of the file goes over the first one of the tables. -/
theorem ccmApply_eq (tuning : Option Bytes) (ccmBank : UInt32) (regs : RegFile) :
    (arIspCcmApply true tuning ccmBank regs).1 = match ccmActive tuning with
      | some blob => writeWords arIspCcmWords arIspCcm1Bank
          (fun i => arIspGetLe32
            (arIspCcmFromBlob blob (ccmBankUsed ccmBank).toNat fun _ => 0) (i * 4))
          (ccmTables regs)
      | none => ccmTables regs := by
  cases tuning with
  | none => rfl
  | some blob =>
      by_cases asked : arIspGetLe32 blob arIspCcmBlobGate = 1
      · have active : ccmActive (some blob) = some blob := by simp [ccmActive, asked]
        simp only [arIspCcmApply, asked, active, ne_eq, not_true, if_false, Bool.true_eq_false]
        rfl
      · have inactive : ccmActive (some blob) = none := by simp [ccmActive, asked]
        simp only [arIspCcmApply, asked, inactive, ne_eq, not_false_eq_true, if_true, if_false,
          Bool.true_eq_false]
        rfl

/-- Nothing but the first matrix depends on the file. -/
theorem ccmApply_kept (tuning : Option Bytes) (ccmBank : UInt32) (regs : RegFile) {off : ℕ}
    (outside : ∀ i < arIspCcmWords, off ≠ arIspCcm1Bank + i * 4) :
    (arIspCcmApply true tuning ccmBank regs).1 off = ccmTables regs off := by
  rw [ccmApply_eq]
  split
  · exact writeWords_of_outside outside
  · rfl

theorem ccmApply_copyB (tuning : Option Bytes) (ccmBank : UInt32) (regs : RegFile) {i : ℕ}
    (inside : i < arIspCcmWords) :
    (arIspCcmApply true tuning ccmBank regs).1 (arIspCcm1Bank + arIspCcmCopyB + i * 4) =
      arIspCcm1Init.getD i 0 := by
  have index : arIspCcm1Bank + arIspCcmCopyB + i * 4 = arIspCcm1Bank + (8 + i) * 4 := by
    simp only [arIspCcmCopyB]
    omega
  have table : ∀ i < arIspCcmWords, arIspCcm1Init.getD (8 + i) 0 = arIspCcm1Init.getD i 0 := by
    decide
  simp only [arIspCcmWords] at inside
  rw [index, ccmApply_kept, ccmTables_first _ (by omega), table i inside]
  intro j less
  simp only [arIspCcmWords] at less
  omega

theorem ccmApply_bank2 (tuning : Option Bytes) (ccmBank : UInt32) (regs : RegFile) {i : ℕ}
    (inside : i < 20) :
    (arIspCcmApply true tuning ccmBank regs).1 (arIspCcm2Bank + i * 4) =
      arIspCcm2Init.getD i 0 := by
  rw [ccmApply_kept, ccmTables_second _ inside]
  intro j less
  simp only [arIspCcm1Bank, arIspCcm2Bank, arIspCcmWords] at less ⊢
  omega

/-- The two copies of the second bank are one matrix. -/
theorem ccmRead_copies (tuning : Option Bytes) (ccmBank : UInt32) (regs : RegFile) {row col : ℕ}
    (rowInside : row < arIspCcmDim) (colInside : col < arIspCcmDim) :
    ccmRead (arIspCcmApply true tuning ccmBank regs).1 arIspCcm2Bank row col =
      ccmRead (arIspCcmApply true tuning ccmBank regs).1 (arIspCcm2Bank + arIspCcmCopyB) row
        col := by
  apply ccmRead_congr _ rowInside colInside
  intro i inside
  have index : arIspCcm2Bank + arIspCcmCopyB + i * 4 = arIspCcm2Bank + (8 + i) * 4 := by
    simp only [arIspCcmCopyB]
    omega
  have table : ∀ i < arIspCcmWords, arIspCcm2Init.getD i 0 = arIspCcm2Init.getD (8 + i) 0 := by
    decide
  simp only [arIspCcmWords] at inside
  rw [index, ccmApply_bank2 _ _ _ (by omega), ccmApply_bank2 _ _ _ (by omega), table i inside]

/-- Six words that hold a packed matrix read as its coefficients. -/
theorem ccmRead_packed (bits : ℕ → UInt32) {copy : ℕ}
    (words : ∀ i < arIspCcmWords, regs (copy + i * 4) =
      arIspGetLe32 (arIspCcmPack bits fun _ => 0) (i * 4)) {row col : ℕ}
    (rowInside : row < arIspCcmDim) (colInside : col < arIspCcmDim) :
    Truncates (ccmRead regs copy row col) (bits (3 * row + col)) := by
  rcases ccmPack_words bits (fun _ => 0) rowInside with ⟨pair, third⟩
  simp only [arIspCcmDim, arIspCcmWords] at rowInside colInside words
  have pairIndex : 2 * row * 4 = 8 * row := by omega
  have thirdIndex : (2 * row + 1) * 4 = 8 * row + 4 := by omega
  have pairWord := words (2 * row) (by omega)
  have thirdWord := words (2 * row + 1) (by omega)
  rw [pairIndex, pair] at pairWord
  rw [thirdIndex, third, ← Nat.add_assoc] at thirdWord
  rcases ccmRead_of_row pairWord thirdWord with ⟨zero, one, two⟩
  have column : col = 0 ∨ col = 1 ∨ col = 2 := by omega
  rcases column with rfl | rfl | rfl
  · exact zero ▸ truncates_q8sm _
  · exact one ▸ truncates_q8sm _
  · exact two ▸ truncates_q8sm _

/-- Whatever the banks held: the block reads the first matrix as the one the tuning file asks for,
or as the identity if it asks for none, and the second copy as the identity.  The other bank has the
same two matrices whatever the file says, and no other register is written. -/
theorem ccmApply_decodes (tuning : Option Bytes) (ccmBank : UInt32) (regs : RegFile) :
    let after := (arIspCcmApply true tuning ccmBank regs).1
    (∀ row < arIspCcmDim, ∀ col < arIspCcmDim,
      (∀ blob, ccmActive tuning = some blob →
        Truncates (ccmRead after arIspCcm1Bank row col)
          (ccmBits blob (ccmBankUsed ccmBank).toNat (3 * row + col))) ∧
      (ccmActive tuning = none →
        ccmRead after arIspCcm1Bank row col = if row = col then 1 else 0) ∧
      ccmRead after (arIspCcm1Bank + arIspCcmCopyB) row col = (if row = col then 1 else 0) ∧
      ccmRead after arIspCcm2Bank row col =
        ccmRead after (arIspCcm2Bank + arIspCcmCopyB) row col) ∧
      ∀ off, (∀ i < 20, off ≠ arIspCcm1Bank + i * 4 ∧ off ≠ arIspCcm2Bank + i * 4) →
        after off = regs off := by
  intro after
  refine ⟨fun row rowInside col colInside => ⟨?_, ?_, ?_, ?_⟩, ?_⟩
  · intro blob asked
    apply ccmRead_packed _ _ rowInside colInside
    intro i inside
    rw [show after = _ from ccmApply_eq tuning ccmBank regs, asked]
    exact writeWords_of_lt inside
  · intro inactive
    apply ccmRead_identity _ rowInside colInside
    intro i inside
    rw [show after = _ from ccmApply_eq tuning ccmBank regs, inactive]
    exact ccmTables_first regs (inside.trans (by decide))
  · exact ccmRead_identity (fun i inside => ccmApply_copyB tuning ccmBank regs inside) rowInside
      colInside
  · exact ccmRead_copies tuning ccmBank regs rowInside colInside
  · intro off outside
    refine (ccmApply_kept tuning ccmBank regs ?_).trans (ccmTables_frame regs outside)
    exact fun i inside => (outside i (inside.trans (by decide))).1

end Matrix

end MlKernel.Isp
