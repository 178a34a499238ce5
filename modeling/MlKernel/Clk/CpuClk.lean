import MlKernel.Lib.BitField
import MlKernel.Lib.Run
import Mathlib.Tactic.IntervalCases

/-!
# The CPU clock

`cgu_cpu_clk` is one register with a mirror.  Bit 30 clear is the 24 MHz oscillator bypass,
bit 31 selects the active bank, and each bank has a gate bit, a mux field and a divider field.
A rate change programs the idle bank and then flips to it with a second write.
-/

namespace MlKernel.Clk

open BitField

/-- `BIT(n)`. -/
abbrev BIT (n : ℕ) : BitVec 32 := bit 32 n

/-- `AR_CPU_MAX_DIV`. -/
def arCpuMaxDiv : ℕ := 128

/-! ### Reading the register -/

def ar9311CpuGetParent (v : BitVec 32) : BitVec 32 :=
  if v &&& BIT 30 = 0 then 0
  else if v &&& BIT 31 ≠ 0 then (v >>> 24) &&& 0x7 else (v >>> 8) &&& 0x7

def ar9311CpuRecalcRate (v : BitVec 32) (parentRate : ℕ) : ℕ :=
  if v &&& BIT 30 = 0 then parentRate
  else
    let div := (if v &&& BIT 31 ≠ 0 then (v >>> 16) &&& 0x7f else v &&& 0x7f) + 1
    parentRate / div.toNat

def ar9311CpuCurDivM1 (v : BitVec 32) : BitVec 32 :=
  if v &&& BIT 30 = 0 then 0
  else if v &&& BIT 31 ≠ 0 then (v >>> 16) &&& 0x7f else v &&& 0x7f

/-! ### The two writes -/

/-- The values `ar9311_cpu_program_one` writes, in their order. -/
def ar9311CpuProgramOne (v mux divM1 : BitVec 32) : BitVec 32 × BitVec 32 :=
  if v &&& BIT 30 = 0 then
    -- leaving bypass: program bank 0, then set bit 30
    let val := (v &&& 0x7fffe000) ||| divM1 ||| (mux <<< 8) ||| BIT 12
    (val, val ||| BIT 30)
  else if v &&& BIT 31 = 0 then
    -- bank 0 running: program bank 1, then flip bit 31 on
    let val := (v &&& 0xe000ffff) ||| (divM1 <<< 16) ||| (mux <<< 24) ||| BIT 28
    (val, val ||| BIT 31)
  else
    -- bank 1 running: program bank 0, then flip bit 31 off
    let val := (v &&& 0xffffe000) ||| divM1 ||| (mux <<< 8) ||| BIT 12
    (val, val &&& ~~~BIT 31)

structure Ar9311CpuClk where
  reg : BitVec 32
  mirror : BitVec 32

def ar9311CpuProgram (cpu : Ar9311CpuClk) (mux divM1 : BitVec 32) : Ar9311CpuClk where
  reg := (ar9311CpuProgramOne cpu.reg mux divM1).2
  mirror := (ar9311CpuProgramOne cpu.mirror mux divM1).2

def ar9311CpuSetParent (cpu : Ar9311CpuClk) (index : BitVec 32) : Ar9311CpuClk :=
  ar9311CpuProgram cpu index (ar9311CpuCurDivM1 cpu.reg)

/-- What `ar9311_cpu_program` is asked for: a three-bit mux and a seven-bit divider field. -/
structure CpuCall where
  mux : BitVec 32
  divM1 : BitVec 32
  mux_lt : mux.toNat < 2 ^ 3
  divM1_lt : divM1.toNat < 2 ^ 7

def CpuCall.writes (call : CpuCall) (v : BitVec 32) : BitVec 32 × BitVec 32 :=
  ar9311CpuProgramOne v call.mux call.divM1

def CpuCall.program (call : CpuCall) (cpu : Ar9311CpuClk) : Ar9311CpuClk :=
  ar9311CpuProgram cpu call.mux call.divM1

/-! ### What the core runs on -/

inductive CpuBank
  | zero
  | one
  deriving DecidableEq, Repr

/-- Where the thirteen bits of a bank start. -/
def CpuBank.base : CpuBank → ℕ
  | zero => 0
  | one => 16

/-- The fields of a bank: the divider, the mux and the gate bit. -/
def CpuBank.fields (bank : CpuBank) (v : BitVec 32) : BitVec 13 := v.extractLsb' bank.base 13

def CpuBank.parent (bank : CpuBank) (v : BitVec 32) : BitVec 32 :=
  (v.extractLsb' (bank.base + 8) 3).setWidth 32

def CpuBank.divM1 (bank : CpuBank) (v : BitVec 32) : BitVec 32 :=
  (v.extractLsb' bank.base 7).setWidth 32

def CpuBank.gate (bank : CpuBank) (v : BitVec 32) : Bool := v.getLsbD (bank.base + 12)

/-- In bypass neither bank drives the core. -/
def runningBank (v : BitVec 32) : Option CpuBank :=
  if v.getLsbD 30 then some (if v.getLsbD 31 then .one else .zero) else none

/-- What reaches the core: the oscillator, or a bank's parent through its divider. -/
structure Effective where
  bypass : Bool
  bank : Option CpuBank
  parent : BitVec 32
  divider : ℕ
  deriving DecidableEq, Repr

def effective (v : BitVec 32) : Effective where
  bypass := !v.getLsbD 30
  bank := runningBank v
  parent := ar9311CpuGetParent v
  divider := (ar9311CpuCurDivM1 v).toNat + 1

/-! ### Reading by the running bank -/

section Reading

variable {v : BitVec 32}

theorem bypass_iff : v &&& BIT 30 = 0 ↔ v.getLsbD 30 = false :=
  and_bit_eq_zero (by decide)

theorem bank_zero_iff : v &&& BIT 31 = 0 ↔ v.getLsbD 31 = false :=
  and_bit_eq_zero (by decide)

theorem runningBank_eq_none : runningBank v = none ↔ v.getLsbD 30 = false := by
  unfold runningBank
  split <;> simp_all

theorem runningBank_eq_zero :
    runningBank v = some .zero ↔ v.getLsbD 30 = true ∧ v.getLsbD 31 = false := by
  unfold runningBank
  split
  · split <;> simp_all
  · simp_all

theorem runningBank_eq_one :
    runningBank v = some .one ↔ v.getLsbD 30 = true ∧ v.getLsbD 31 = true := by
  unfold runningBank
  split
  · split <;> simp_all
  · simp_all

theorem ar9311CpuGetParent_bypass (bypass : runningBank v = none) : ar9311CpuGetParent v = 0 :=
  if_pos (bypass_iff.mpr (runningBank_eq_none.mp bypass))

theorem ar9311CpuCurDivM1_bypass (bypass : runningBank v = none) : ar9311CpuCurDivM1 v = 0 :=
  if_pos (bypass_iff.mpr (runningBank_eq_none.mp bypass))

section Readers

variable {β : Type} {bypass high low : β}

/-- What a reader of the register takes while the low bank runs. -/
theorem read_zero (running : runningBank v = some .zero) :
    (if v &&& BIT 30 = 0 then bypass else if v &&& BIT 31 ≠ 0 then high else low) = low := by
  rcases runningBank_eq_zero.mp running with ⟨on, active⟩
  rw [if_neg (bypass_iff.not.mpr (by rw [on]; decide)),
    if_neg (not_not.mpr (bank_zero_iff.mpr active))]

theorem read_one (running : runningBank v = some .one) :
    (if v &&& BIT 30 = 0 then bypass else if v &&& BIT 31 ≠ 0 then high else low) = high := by
  rcases runningBank_eq_one.mp running with ⟨on, active⟩
  rw [if_neg (bypass_iff.not.mpr (by rw [on]; decide)),
    if_pos (bank_zero_iff.not.mpr (by rw [active]; decide))]

end Readers

theorem ar9311CpuGetParent_running {bank : CpuBank} (running : runningBank v = some bank) :
    ar9311CpuGetParent v = bank.parent v := by
  unfold ar9311CpuGetParent
  cases bank with
  | zero =>
      rw [read_zero running]
      exact shift_and v 8 3
  | one =>
      rw [read_one running]
      exact shift_and v 24 3

theorem ar9311CpuCurDivM1_running {bank : CpuBank} (running : runningBank v = some bank) :
    ar9311CpuCurDivM1 v = bank.divM1 v := by
  unfold ar9311CpuCurDivM1
  cases bank with
  | zero =>
      rw [read_zero running]
      exact (congrArg (· &&& _) (BitVec.ushiftRight_zero v)).symm.trans (shift_and v 0 7)
  | one =>
      rw [read_one running]
      exact shift_and v 16 7

theorem CpuBank.divM1_lt (bank : CpuBank) (v : BitVec 32) : (bank.divM1 v).toNat < 2 ^ 7 := by
  have field := (v.extractLsb' bank.base 7).isLt
  rw [divM1, BitVec.toNat_setWidth]
  omega

theorem ar9311CpuCurDivM1_lt (v : BitVec 32) : (ar9311CpuCurDivM1 v).toNat < 2 ^ 7 := by
  cases running : runningBank v with
  | none => rw [ar9311CpuCurDivM1_bypass running]; decide
  | some bank => rw [ar9311CpuCurDivM1_running running]; exact bank.divM1_lt v

/-- `recalc_rate` divides by the divider of the effective clock. -/
theorem ar9311CpuRecalcRate_eq (v : BitVec 32) (parentRate : ℕ) :
    ar9311CpuRecalcRate v parentRate = parentRate / ((ar9311CpuCurDivM1 v).toNat + 1) := by
  have small := ar9311CpuCurDivM1_lt v
  unfold ar9311CpuRecalcRate
  split
  · next bypass =>
      rw [ar9311CpuCurDivM1_bypass (runningBank_eq_none.mpr (bypass_iff.mp bypass))]
      simp
  · next on =>
      rw [ar9311CpuCurDivM1, if_neg on] at small ⊢
      generalize (if v &&& BIT 31 ≠ 0 then _ else _ : BitVec 32) = field at small ⊢
      have whole : (field + 1).toNat = field.toNat + 1 := by
        rw [BitVec.toNat_add]
        exact Nat.mod_eq_of_lt (Nat.lt_of_le_of_lt (Nat.succ_le_of_lt small) (by decide))
      exact congrArg (parentRate / ·) whole

end Reading

/-! ### What the two writes leave -/

section Writing

variable {v keep : BitVec 32} (call : CpuCall)

/-- Programming a bank: what the mask keeps, and the fields of the call in the bank. -/
def CpuBank.written (bank : CpuBank) (call : CpuCall) (v keep : BitVec 32) : BitVec 32 :=
  (v &&& keep) ||| (call.divM1 <<< bank.base) ||| (call.mux <<< (bank.base + 8)) |||
    BIT (bank.base + 12)

theorem CpuBank.written_parent (bank : CpuBank)
    (cleared : keep.extractLsb' (bank.base + 8) 3 = 0#3) :
    bank.parent (bank.written call v keep) = call.mux := by
  have inside : bank.base + 8 + 3 ≤ 32 := by cases bank <;> decide
  have divider : (call.divM1 <<< bank.base).extractLsb' (bank.base + 8) 3 = 0#3 := by
    rw [extract_shiftLeft (Nat.le_add_right _ _) inside]
    exact extract_of_lt call.divM1_lt (by omega)
  have mux : (call.mux <<< (bank.base + 8)).extractLsb' (bank.base + 8) 3 =
      call.mux.extractLsb' 0 3 := by
    rw [extract_shiftLeft (Nat.le_refl _) inside, Nat.sub_self]
  have gate : (BIT (bank.base + 12)).extractLsb' (bank.base + 8) 3 = 0#3 :=
    extract_shiftLeft_below (by omega)
  rw [parent, written, BitVec.extractLsb'_or, BitVec.extractLsb'_or, BitVec.extractLsb'_or,
    extract_and_zero cleared, divider, mux, gate, BitVec.zero_or, BitVec.zero_or, BitVec.or_zero]
  exact extract_zero_setWidth call.mux_lt

theorem CpuBank.written_divM1 (bank : CpuBank) (cleared : keep.extractLsb' bank.base 7 = 0#7) :
    bank.divM1 (bank.written call v keep) = call.divM1 := by
  have inside : bank.base + 7 ≤ 32 := by cases bank <;> decide
  have divider : (call.divM1 <<< bank.base).extractLsb' bank.base 7 =
      call.divM1.extractLsb' 0 7 := by
    rw [extract_shiftLeft (Nat.le_refl _) inside, Nat.sub_self]
  have mux : (call.mux <<< (bank.base + 8)).extractLsb' bank.base 7 = 0#7 :=
    extract_shiftLeft_below (by omega)
  have gate : (BIT (bank.base + 12)).extractLsb' bank.base 7 = 0#7 :=
    extract_shiftLeft_below (by omega)
  rw [divM1, written, BitVec.extractLsb'_or, BitVec.extractLsb'_or, BitVec.extractLsb'_or,
    extract_and_zero cleared, divider, mux, gate, BitVec.zero_or, BitVec.or_zero, BitVec.or_zero]
  exact extract_zero_setWidth call.divM1_lt

theorem CpuBank.written_gate (bank : CpuBank) : bank.gate (bank.written call v keep) = true := by
  have inside : bank.base + 12 < 32 := by cases bank <;> decide
  rw [gate, written, BitVec.getLsbD_or, getLsbD_bit]
  simp [inside]

/-- Above the bank the written word has the bits the mask keeps. -/
theorem CpuBank.written_above (bank : CpuBank) {i : ℕ} (above : bank.base + 13 ≤ i) :
    (bank.written call v keep).getLsbD i = (v.getLsbD i && keep.getLsbD i) := by
  have divider : call.divM1.getLsbD (i - bank.base) = false :=
    getLsbD_of_lt call.divM1_lt (by omega)
  have mux : call.mux.getLsbD (i - (bank.base + 8)) = false :=
    getLsbD_of_lt call.mux_lt (by omega)
  rw [written, BitVec.getLsbD_or, BitVec.getLsbD_or, BitVec.getLsbD_or, BitVec.getLsbD_and,
    BitVec.getLsbD_shiftLeft, BitVec.getLsbD_shiftLeft, getLsbD_bit, divider, mux]
  simp [show ¬bank.base + 12 = i by omega]

/-- Below the bank too. -/
theorem CpuBank.written_below (bank : CpuBank) {i : ℕ} (below : i < bank.base) :
    (bank.written call v keep).getLsbD i = (v.getLsbD i && keep.getLsbD i) := by
  rw [written, BitVec.getLsbD_or, BitVec.getLsbD_or, BitVec.getLsbD_or, BitVec.getLsbD_and,
    BitVec.getLsbD_shiftLeft, BitVec.getLsbD_shiftLeft, getLsbD_bit]
  simp [below, show i < bank.base + 8 by omega, show ¬bank.base + 12 = i by omega]

end Writing

/-! ### One call -/

/-- The bank a call programs: the idle one, or bank 0 out of bypass. -/
def idleBank (v : BitVec 32) : CpuBank :=
  if runningBank v = some .zero then .one else .zero

/-- What a call leaves alone in its first write. -/
def keptMask (v : BitVec 32) : BitVec 32 :=
  match runningBank v with
  | none => 0x7fffe000
  | some .zero => 0xe000ffff
  | some .one => 0xffffe000

/-- The flip of the second write. -/
def flipped (v val : BitVec 32) : BitVec 32 :=
  match runningBank v with
  | none => val ||| BIT 30
  | some .zero => val ||| BIT 31
  | some .one => val &&& ~~~BIT 31

theorem CpuCall.writes_eq (call : CpuCall) (v : BitVec 32) :
    call.writes v = ((idleBank v).written call v (keptMask v),
      flipped v ((idleBank v).written call v (keptMask v))) := by
  unfold writes ar9311CpuProgramOne idleBank keptMask flipped
  cases running : runningBank v with
  | none =>
      rw [if_pos (bypass_iff.mpr (runningBank_eq_none.mp running)), if_neg nofun]
      simp [CpuBank.written, CpuBank.base]
  | some bank =>
      cases bank with
      | zero =>
          rcases runningBank_eq_zero.mp running with ⟨on, active⟩
          rw [if_neg (bypass_iff.not.mpr (by rw [on]; decide)),
            if_pos (bank_zero_iff.mpr active), if_pos rfl]
          rfl
      | one =>
          rcases runningBank_eq_one.mp running with ⟨on, active⟩
          rw [if_neg (bypass_iff.not.mpr (by rw [on]; decide)),
            if_neg (bank_zero_iff.not.mpr (by rw [active]; decide)), if_neg (by decide)]
          simp [CpuBank.written, CpuBank.base]

theorem flipped_getLsbD (v val : BitVec 32) {i : ℕ} (below : i < 30) :
    (flipped v val).getLsbD i = val.getLsbD i := by
  unfold flipped
  split
  · simp [getLsbD_bit, show ¬30 = i by omega]
  · simp [getLsbD_bit, show ¬31 = i by omega]
  · rw [BitVec.getLsbD_and, BitVec.getLsbD_not, getLsbD_bit]
    simp [show ¬31 = i by omega, show i < 32 by omega]

section Call

variable (call : CpuCall) (v : BitVec 32)

theorem CpuCall.second_eq : (call.writes v).2 = flipped v (call.writes v).1 := by
  rw [writes_eq]

/-- The first write keeps the two control bits, except bit 31 in bypass. -/
theorem CpuCall.first_high {i : ℕ} (high : 30 ≤ i) :
    (call.writes v).1.getLsbD i = (v.getLsbD i && (keptMask v).getLsbD i) := by
  have base : (idleBank v).base ≤ 16 := by cases idleBank v <;> decide
  rw [writes_eq]
  exact CpuBank.written_above call _ (by omega)

theorem CpuCall.first_runningBank : runningBank (call.writes v).1 = runningBank v := by
  have first := fun {i} => call.first_high v (i := i)
  cases running : runningBank v with
  | none =>
      rw [runningBank_eq_none, first (by decide), runningBank_eq_none.mp running]
      rfl
  | some bank =>
      cases bank with
      | zero =>
          rcases runningBank_eq_zero.mp running with ⟨on, active⟩
          rw [runningBank_eq_zero, first (by decide), first (by decide), on, active, keptMask,
            running]
          decide
      | one =>
          rcases runningBank_eq_one.mp running with ⟨on, active⟩
          rw [runningBank_eq_one, first (by decide), first (by decide), on, active, keptMask,
            running]
          decide

/-- The second write hands the core to the programmed bank. -/
theorem CpuCall.second_runningBank : runningBank (call.writes v).2 = some (idleBank v) := by
  have at30 := call.first_high v (show 30 ≤ 30 by decide)
  have at31 := call.first_high v (show 30 ≤ 31 by decide)
  rw [second_eq, flipped, idleBank]
  cases running : runningBank v with
  | none =>
      have off := runningBank_eq_none.mp running
      rw [keptMask, running, off] at at30
      rw [keptMask, running, show (0x7fffe000 : BitVec 32).getLsbD 31 = false by decide,
        Bool.and_false] at at31
      rw [if_neg nofun, runningBank_eq_zero, BitVec.getLsbD_or, BitVec.getLsbD_or, at30, at31]
      decide
  | some bank =>
      cases bank with
      | zero =>
          rcases runningBank_eq_zero.mp running with ⟨on, active⟩
          rw [keptMask, running, on] at at30
          rw [keptMask, running, active] at at31
          rw [if_pos rfl, runningBank_eq_one, BitVec.getLsbD_or, BitVec.getLsbD_or, at30, at31]
          decide
      | one =>
          rcases runningBank_eq_one.mp running with ⟨on, active⟩
          rw [keptMask, running, on] at at30
          rw [keptMask, running, active] at at31
          rw [if_neg (by decide), runningBank_eq_zero, BitVec.getLsbD_and, BitVec.getLsbD_and,
            at30, at31]
          decide

/-- A running bank is not touched by either write. -/
theorem CpuCall.fields_kept {bank : CpuBank} (running : runningBank v = some bank) :
    bank.fields (call.writes v).1 = bank.fields v ∧
      bank.fields (call.writes v).2 = bank.fields v := by
  have first : ∀ i < 13,
      (call.writes v).1.getLsbD (bank.base + i) = v.getLsbD (bank.base + i) := by
    intro i inside
    rw [writes_eq, keptMask, idleBank, running]
    cases bank with
    | zero =>
        rw [if_pos rfl]
        refine (CpuBank.written_below call .one (by simp only [CpuBank.base]; omega)).trans ?_
        interval_cases i <;> simp [CpuBank.base]
    | one =>
        rw [if_neg (by decide)]
        refine (CpuBank.written_above call .zero (by simp only [CpuBank.base]; omega)).trans ?_
        interval_cases i <;> simp [CpuBank.base]
  have below : bank.base + 13 ≤ 30 := by cases bank <;> decide
  refine ⟨extract_congr first, extract_congr ?_⟩
  intro i inside
  rw [second_eq, flipped_getLsbD v _ (by omega), first i inside]

end Call

theorem idleBank_ne {v : BitVec 32} {bank : CpuBank} (running : runningBank v = some bank) :
    idleBank v ≠ bank := by
  rw [idleBank, running]
  cases bank <;> decide

theorem keptMask_clear (v : BitVec 32) :
    (keptMask v).extractLsb' ((idleBank v).base + 8) 3 = 0#3 ∧
      (keptMask v).extractLsb' (idleBank v).base 7 = 0#7 := by
  unfold keptMask idleBank
  cases runningBank v with
  | none => decide
  | some bank => cases bank <;> decide

/-- What the fields below the control bits read does not change with the flip. -/
theorem CpuBank.congr_low (bank : CpuBank) {v other : BitVec 32}
    (same : ∀ i < 30, v.getLsbD i = other.getLsbD i) :
    bank.parent v = bank.parent other ∧ bank.divM1 v = bank.divM1 other ∧
      bank.gate v = bank.gate other := by
  have base : bank.base ≤ 16 := by cases bank <;> decide
  refine ⟨?_, ?_, same _ (by omega)⟩
  · rw [parent, parent, extract_congr fun i _ => same (bank.base + 8 + i) (by omega)]
  · rw [divM1, divM1, extract_congr fun i _ => same (bank.base + i) (by omega)]

/-- Equal fields of a bank read the same. -/
theorem CpuBank.congr_fields {bank : CpuBank} {v other : BitVec 32}
    (same : bank.fields v = bank.fields other) :
    bank.parent v = bank.parent other ∧ bank.divM1 v = bank.divM1 other := by
  have mux (word : BitVec 32) : word.extractLsb' (bank.base + 8) 3 =
      (bank.fields word).extractLsb' 8 3 :=
    (extract_extract word (show 8 + 3 ≤ 13 by decide)).symm
  have div (word : BitVec 32) : word.extractLsb' bank.base 7 =
      (bank.fields word).extractLsb' 0 7 :=
    (extract_extract word (show 0 + 7 ≤ 13 by decide)).symm
  constructor
  · rw [parent, parent, mux, mux, same]
  · rw [divM1, divM1, div, div, same]

/-- One call on a register that reads `v`. -/
structure GlitchFree (call : CpuCall) (v : BitVec 32) : Prop where
  unmoved : effective (call.writes v).1 = effective v
  parent : ar9311CpuGetParent (call.writes v).2 = call.mux
  rate : ∀ parentRate, ar9311CpuRecalcRate (call.writes v).2 parentRate =
    parentRate / (call.divM1.toNat + 1)
  gated : ∃ bank, runningBank (call.writes v).2 = some bank ∧
    bank.gate (call.writes v).2 = true ∧ runningBank v ≠ some bank
  kept : ∀ bank, runningBank v = some bank →
    bank.fields (call.writes v).1 = bank.fields v ∧ bank.fields (call.writes v).2 = bank.fields v

theorem CpuCall.first_effective (call : CpuCall) (v : BitVec 32) :
    effective (call.writes v).1 = effective v := by
  have same := call.first_runningBank v
  cases running : runningBank v with
  | none =>
      rw [running] at same
      rw [effective, effective, same, running, runningBank_eq_none.mp running,
        runningBank_eq_none.mp same, ar9311CpuGetParent_bypass running,
        ar9311CpuGetParent_bypass same, ar9311CpuCurDivM1_bypass running,
        ar9311CpuCurDivM1_bypass same]
  | some bank =>
      rw [running] at same
      rcases CpuBank.congr_fields (call.fields_kept v running).1 with ⟨parent, divM1⟩
      have on {word : BitVec 32} (runs : runningBank word = some bank) :
          word.getLsbD 30 = true := by
        by_contra off
        rw [runningBank_eq_none.mpr (Bool.eq_false_of_not_eq_true off)] at runs
        cases runs
      rw [effective, effective, same, running, on same, on running,
        ar9311CpuGetParent_running running, ar9311CpuGetParent_running same,
        ar9311CpuCurDivM1_running running, ar9311CpuCurDivM1_running same, parent, divM1]

theorem CpuCall.glitchFree (call : CpuCall) (v : BitVec 32) : GlitchFree call v := by
  have second := call.second_runningBank v
  have low : ∀ i < 30, (call.writes v).2.getLsbD i =
      ((idleBank v).written call v (keptMask v)).getLsbD i := by
    intro i below
    rw [writes_eq]
    exact flipped_getLsbD v _ below
  rcases CpuBank.congr_low (idleBank v) low with ⟨parent, divM1, gate⟩
  refine ⟨call.first_effective v, ?_, ?_, ⟨idleBank v, second, ?_, ?_⟩, ?_⟩
  · rw [ar9311CpuGetParent_running second, parent]
    exact CpuBank.written_parent call _ (keptMask_clear v).1
  · intro parentRate
    rw [ar9311CpuRecalcRate_eq, ar9311CpuCurDivM1_running second, divM1,
      CpuBank.written_divM1 call _ (keptMask_clear v).2]
  · rw [gate]
    exact CpuBank.written_gate call _
  · exact fun running => idleBank_ne running rfl
  · exact fun bank running => call.fields_kept v running

/-- A change of parent keeps the divider, which it reads before it programs. -/
theorem ar9311CpuSetParent_divider (cpu : Ar9311CpuClk) {index : BitVec 32}
    (low : index.toNat < 2 ^ 3) :
    ar9311CpuGetParent (ar9311CpuSetParent cpu index).reg = index ∧
      ∀ parentRate, ar9311CpuRecalcRate (ar9311CpuSetParent cpu index).reg parentRate =
        parentRate / (effective cpu.reg).divider := by
  let call : CpuCall := ⟨index, ar9311CpuCurDivM1 cpu.reg, low, ar9311CpuCurDivM1_lt _⟩
  exact ⟨(call.glitchFree cpu.reg).parent, (call.glitchFree cpu.reg).rate⟩

/-! ### Every sequence of calls -/

def programmed (cpu : Ar9311CpuClk) (calls : List CpuCall) : Ar9311CpuClk :=
  calls.foldl (fun cpu call => call.program cpu) cpu

/-- In a sequence of calls each one switches both registers without a glitch, and the mirror
stays in lockstep; a change of parent keeps the divider. -/
theorem ar9311CpuProgram_sequence (cpu : Ar9311CpuClk) (calls : List CpuCall) :
    (∀ before call rest, calls = before ++ call :: rest →
      GlitchFree call (programmed cpu before).reg ∧
        GlitchFree call (programmed cpu before).mirror) ∧
      (cpu.mirror = cpu.reg → ∀ before rest, calls = before ++ rest →
        (programmed cpu before).mirror = (programmed cpu before).reg) ∧
      ∀ index : BitVec 32, index.toNat < 2 ^ 3 →
        ar9311CpuGetParent (ar9311CpuSetParent cpu index).reg = index ∧
          ∀ parentRate, ar9311CpuRecalcRate (ar9311CpuSetParent cpu index).reg parentRate =
            parentRate / (effective cpu.reg).divider := by
  refine ⟨?_, ?_, fun index low => ar9311CpuSetParent_divider cpu low⟩
  · intro before call rest _
    exact ⟨call.glitchFree _, call.glitchFree _⟩
  · intro lockstep before _ _
    have kept (cpu : Ar9311CpuClk) (call : CpuCall) (same : cpu.mirror = cpu.reg) :
        (call.program cpu).mirror = (call.program cpu).reg := by
      change (call.writes cpu.mirror).2 = (call.writes cpu.reg).2
      rw [same]
    exact Run.foldl_invariant _ kept lockstep before

/-- To parent 1 undivided, then to parent 2 divided by two. -/
theorem ar9311CpuProgram_sequence_boot :
    ∃ first second : CpuCall, first.mux = 1 ∧ second.mux = 2 ∧
      ar9311CpuGetParent (programmed ⟨0, 0⟩ [first, second]).reg = 2 ∧
      (programmed ⟨0, 0⟩ [first, second]).mirror = (programmed ⟨0, 0⟩ [first, second]).reg := by
  let first : CpuCall := ⟨1, 0, by decide, by decide⟩
  let second : CpuCall := ⟨2, 1, by decide, by decide⟩
  have sequence := ar9311CpuProgram_sequence ⟨0, 0⟩ [first, second]
  exact ⟨first, second, rfl, rfl, (sequence.1 [first] second [] rfl).1.parent,
    sequence.2.1 rfl [first, second] [] rfl⟩

end MlKernel.Clk
