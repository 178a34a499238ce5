import Mathlib.Data.List.Basic
import Mathlib.Data.Nat.Notation
import Mathlib.Logic.Function.Basic
import Mathlib.Tactic.Common
import MlKernel.Lib.BitField
import MlKernel.Lib.Refinement

/-!
# The GPIO banks

A line of the controller is a bit of its bank's output register and a bit of its direction register.
Neither register can be read back for what was written, so the driver keeps a shadow of each and
writes it as a whole.  The lines are addressed by one number over all banks.
-/

namespace MlKernel.Gpio

/-- Base and count of each bank, `ar_banks`. -/
def arBanks : List (ℕ × ℕ) :=
  [(0, 23), (23, 22), (45, 26), (71, 6), (77, 6), (83, 11), (94, 16)]

/-- `struct ar_gpio_bank`, and the two registers it writes. -/
structure ArGpioBank where
  dirShadow : BitVec 32
  outShadow : BitVec 32
  regDirin : BitVec 32
  regSet : BitVec 32

def arGpioSet (b : ArGpioBank) (off : ℕ) (val : Bool) : ArGpioBank :=
  let shadow :=
    if val then b.outShadow ||| BitField.bit 32 off else b.outShadow &&& ~~~BitField.bit 32 off
  { b with outShadow := shadow, regSet := shadow }

def arGpioDirIn (b : ArGpioBank) (off : ℕ) : ArGpioBank :=
  let shadow := b.dirShadow ||| BitField.bit 32 off
  { b with dirShadow := shadow, regDirin := shadow }

/-- The second locked section of `ar_gpio_dir_out`; the first is `ar_gpio_set`. -/
def dirOutTail (b : ArGpioBank) (off : ℕ) : ArGpioBank :=
  let shadow := b.dirShadow &&& ~~~BitField.bit 32 off
  { b with dirShadow := shadow, regDirin := shadow }

/-- `ar_gpio_get_dir`, `true` for an input. -/
def arGpioGetDir (b : ArGpioBank) (off : ℕ) : Bool :=
  decide (b.dirShadow &&& BitField.bit 32 off ≠ 0)

/-- A bank of `ar_gpio_of_xlate`; `none` is `-EINVAL`. -/
def arGpioOfXlate (bank : ℕ × ℕ) (num : ℕ) : Option ℕ :=
  if num < bank.1 ∨ num ≥ bank.1 + bank.2 then none else some (num - bank.1)

/-- gpiolib asks the banks one after the other. -/
def findLine (num : ℕ) : List (ℕ × ℕ) → ℕ → Option (ℕ × ℕ)
  | [], _ => none
  | bank :: rest, index =>
      match arGpioOfXlate bank num with
      | some off => some (index, off)
      | none => findLine num rest (index + 1)

def lineOf (num : ℕ) : Option (ℕ × ℕ) := findLine num arBanks 0

/-- A locked section; an `ar_gpio_dir_out` is a `set` and then a `dirOut`. -/
inductive GpioCall
  | set (num : ℕ) (val : Bool)
  | dirIn (num : ℕ)
  | dirOut (num : ℕ)
  | getDir (num : ℕ)

def GpioCall.num : GpioCall → ℕ
  | .set num _ => num
  | .dirIn num => num
  | .dirOut num => num
  | .getDir num => num

/-- What the section does to the bank of the line. -/
def GpioCall.locked (call : GpioCall) (off : ℕ) (b : ArGpioBank) : ArGpioBank :=
  match call with
  | .set _ val => arGpioSet b off val
  | .dirIn _ => arGpioDirIn b off
  | .dirOut _ => dirOutTail b off
  | .getDir _ => b

/-- What the call answers, and the banks after it. -/
def gpioStep (banks : ℕ → ArGpioBank) (call : GpioCall) : Option Bool × (ℕ → ArGpioBank) :=
  match lineOf call.num with
  | none => (none, banks)
  | some (bank, off) =>
      (match call with
        | .getDir _ => some (arGpioGetDir (banks bank) off)
        | _ => none,
        Function.update banks bank (call.locked off (banks bank)))

/-- The banks after the probe, over any contents of the registers; `readback` is what a read of
the output registers answers. -/
def gpioProbed (readback regDirin regSet : ℕ → BitVec 32) (bank : ℕ) : ArGpioBank :=
  { dirShadow := 0xffffffff
    outShadow := readback bank
    regDirin := regDirin bank
    regSet := regSet bank }

/-! ### Lines of their own -/

structure Line where
  level : Bool
  input : Bool

def lineStep (lines : ℕ → Line) (call : GpioCall) : Option Bool × (ℕ → Line) :=
  match lineOf call.num with
  | none => (none, lines)
  | some _ =>
      match call with
      | .set num val => (none, Function.update lines num { lines num with level := val })
      | .dirIn num => (none, Function.update lines num { lines num with input := true })
      | .dirOut num => (none, Function.update lines num { lines num with input := false })
      | .getDir num => (some (lines num).input, lines)

/-- The lines by the shadows. -/
def linesOf (banks : ℕ → ArGpioBank) (num : ℕ) : Line :=
  match lineOf num with
  | none => ⟨false, true⟩
  | some (bank, off) =>
      ⟨(banks bank).outShadow.getLsbD off, (banks bank).dirShadow.getLsbD off⟩

theorem findLine_spec {num : ℕ} {banks : List (ℕ × ℕ)} {index i off : ℕ}
    (found : findLine num banks index = some (i, off)) :
    index ≤ i ∧ ∃ bank, banks[i - index]? = some bank ∧ num = bank.1 + off ∧ off < bank.2 := by
  induction banks generalizing index with
  | nil => cases found
  | cons bank rest ih =>
      rw [findLine, arGpioOfXlate] at found
      by_cases outside : num < bank.1 ∨ num ≥ bank.1 + bank.2
      · rw [if_pos outside] at found
        rcases ih found with ⟨above, other, atOther, sum, small⟩
        refine ⟨by omega, other, ?_, sum, small⟩
        rw [show i - index = (i - (index + 1)) + 1 by omega, List.getElem?_cons_succ]
        exact atOther
      · rw [if_neg outside] at found
        cases found
        rcases not_or.mp outside with ⟨low, high⟩
        refine ⟨Nat.le_refl _, bank, ?_, by omega, by omega⟩
        rw [Nat.sub_self, List.getElem?_cons_zero]

/-- No two numbers are one line, and a line is a bit of its registers. -/
theorem lineOf_spec {num bank off : ℕ} (line : lineOf num = some (bank, off)) :
    off < 32 ∧ ∀ num', lineOf num' = some (bank, off) → num' = num := by
  rcases findLine_spec line with ⟨-, range, atRange, sum, small⟩
  have narrow : ∀ range ∈ arBanks, range.2 ≤ 32 := by decide
  refine ⟨Nat.lt_of_lt_of_le small (narrow range (List.mem_of_getElem? atRange)), ?_⟩
  intro num' line'
  rcases findLine_spec line' with ⟨-, range', atRange', sum', -⟩
  cases Option.some.inj (atRange.symm.trans atRange')
  rw [sum, sum']

section Locked

variable {b : ArGpioBank} {off : ℕ}

theorem outShadow_locked (call : GpioCall) (inside : off < 32) (i : ℕ) :
    (call.locked off b).outShadow.getLsbD i =
      match call with
      | .set _ val => if i = off then val else b.outShadow.getLsbD i
      | _ => b.outShadow.getLsbD i := by
  cases call with
  | set num val =>
      simp only [GpioCall.locked, arGpioSet]
      cases val with
      | true =>
          rw [if_pos rfl, BitVec.getLsbD_or, BitField.getLsbD_bit]
          by_cases here : i = off
          · simp [here, inside]
          · simp [here, Ne.symm here]
      | false =>
          simp only [Bool.false_eq_true, if_false]
          rw [BitField.getLsbD_and_not_bit]
          by_cases here : i = off
          · simp [here]
          · simp [here, Ne.symm here]
  | dirIn num => rfl
  | dirOut num => rfl
  | getDir num => rfl

theorem dirShadow_locked (call : GpioCall) (inside : off < 32) (i : ℕ) :
    (call.locked off b).dirShadow.getLsbD i =
      match call with
      | .dirIn _ => if i = off then true else b.dirShadow.getLsbD i
      | .dirOut _ => if i = off then false else b.dirShadow.getLsbD i
      | _ => b.dirShadow.getLsbD i := by
  cases call with
  | set num val => rfl
  | dirIn num =>
      simp only [GpioCall.locked, arGpioDirIn]
      rw [BitVec.getLsbD_or, BitField.getLsbD_bit]
      by_cases here : i = off
      · simp [here, inside]
      · simp [here, Ne.symm here]
  | dirOut num =>
      simp only [GpioCall.locked, dirOutTail]
      rw [BitField.getLsbD_and_not_bit]
      by_cases here : i = off
      · simp [here]
      · simp [here, Ne.symm here]
  | getDir num => rfl

theorem arGpioGetDir_eq (inside : off < 32) : arGpioGetDir b off = b.dirShadow.getLsbD off := by
  have clear := @BitField.and_bit_eq_zero 32 b.dirShadow off inside
  rw [arGpioGetDir]
  cases isSet : b.dirShadow.getLsbD off with
  | true => exact decide_eq_true fun zero => by simp [clear.mp zero] at isSet
  | false => exact decide_eq_false fun nonzero => nonzero (clear.mpr isSet)

end Locked

/-! ### A step, and what the registers hold -/

/-- A locked section changes its own line, as a cell. -/
theorem linesOf_step (banks : ℕ → ArGpioBank) (call : GpioCall) :
    linesOf (gpioStep banks call).2 = (lineStep (linesOf banks) call).2 := by
  cases line : lineOf call.num with
  | none => simp only [gpioStep, lineStep, line]
  | some place =>
      rcases place with ⟨bank, off⟩
      rcases lineOf_spec line with ⟨inside, only⟩
      have own : linesOf banks call.num =
          ⟨(banks bank).outShadow.getLsbD off, (banks bank).dirShadow.getLsbD off⟩ := by
        simp only [linesOf, line]
      have after (num : ℕ) : linesOf (gpioStep banks call).2 num =
          if num = call.num then
            ⟨(call.locked off (banks bank)).outShadow.getLsbD off,
              (call.locked off (banks bank)).dirShadow.getLsbD off⟩
          else linesOf banks num := by
        by_cases same : num = call.num
        · rw [if_pos same, same]
          simp only [linesOf, gpioStep, line, Function.update_self]
        · rw [if_neg same]
          cases there : lineOf num with
          | none => simp only [linesOf, there]
          | some other =>
              rcases other with ⟨bank', off'⟩
              simp only [linesOf, gpioStep, line, there]
              by_cases sameBank : bank' = bank
              · subst sameBank
                have apart : off' ≠ off := by
                  rintro rfl
                  exact same (only num there)
                rw [Function.update_self, outShadow_locked call inside,
                  dirShadow_locked call inside]
                cases call <;> simp [apart]
              · rw [Function.update_of_ne sameBank]
      funext num
      rw [after, outShadow_locked call inside, dirShadow_locked call inside]
      cases call with
      | set n val =>
          have there : lineOf n = some (bank, off) := line
          simp only [lineStep, GpioCall.num, there] at own ⊢
          by_cases same : num = n
          · simp [same, own]
          · simp [same]
      | dirIn n =>
          have there : lineOf n = some (bank, off) := line
          simp only [lineStep, GpioCall.num, there] at own ⊢
          by_cases same : num = n
          · simp [same, own]
          · simp [same]
      | dirOut n =>
          have there : lineOf n = some (bank, off) := line
          simp only [lineStep, GpioCall.num, there] at own ⊢
          by_cases same : num = n
          · simp [same, own]
          · simp [same]
      | getDir n =>
          have there : lineOf n = some (bank, off) := line
          simp only [lineStep, GpioCall.num, there] at own ⊢
          by_cases same : num = n
          · simp [same, own]
          · simp [same]

theorem gpioStep_answer (banks : ℕ → ArGpioBank) (call : GpioCall) :
    (gpioStep banks call).1 = (lineStep (linesOf banks) call).1 := by
  cases line : lineOf call.num with
  | none => simp only [gpioStep, lineStep, line]
  | some place =>
      rcases place with ⟨bank, off⟩
      rcases lineOf_spec line with ⟨inside, -⟩
      cases call with
      | set num val => simp only [gpioStep, lineStep, line]
      | dirIn num => simp only [gpioStep, lineStep, line]
      | dirOut num => simp only [gpioStep, lineStep, line]
      | getDir num =>
          have there : lineOf num = some (bank, off) := line
          simp only [gpioStep, lineStep, line, linesOf, there, arGpioGetDir_eq inside]

/-- The call writes the output register of the bank. -/
def GpioCall.Drives (bank : ℕ) : GpioCall → Prop
  | .set num _ => ∃ off, lineOf num = some (bank, off)
  | _ => False

/-- The call writes the direction register of the bank. -/
def GpioCall.Directs (bank : ℕ) : GpioCall → Prop
  | .dirIn num => ∃ off, lineOf num = some (bank, off)
  | .dirOut num => ∃ off, lineOf num = some (bank, off)
  | _ => False

/-- A section writes its register from the shadow, or leaves both alone. -/
theorem gpioStep_bank (banks : ℕ → ArGpioBank) (call : GpioCall) (bank : ℕ) :
    let after := (gpioStep banks call).2 bank
    (after.regSet = after.outShadow ∨ ¬call.Drives bank ∧
      after.regSet = (banks bank).regSet ∧ after.outShadow = (banks bank).outShadow) ∧
    (after.regDirin = after.dirShadow ∨ ¬call.Directs bank ∧
      after.regDirin = (banks bank).regDirin ∧ after.dirShadow = (banks bank).dirShadow) := by
  intro after
  have elsewhere (away : ∀ off, lineOf call.num ≠ some (bank, off))
      (same : after = banks bank) :
      (after.regSet = after.outShadow ∨ ¬call.Drives bank ∧
        after.regSet = (banks bank).regSet ∧ after.outShadow = (banks bank).outShadow) ∧
      (after.regDirin = after.dirShadow ∨ ¬call.Directs bank ∧
        after.regDirin = (banks bank).regDirin ∧ after.dirShadow = (banks bank).dirShadow) := by
    rw [same]
    refine ⟨.inr ⟨?_, rfl, rfl⟩, .inr ⟨?_, rfl, rfl⟩⟩
    · cases call with
      | set num val => exact fun drives => drives.elim away
      | dirIn num => exact id
      | dirOut num => exact id
      | getDir num => exact id
    · cases call with
      | set num val => exact id
      | dirIn num => exact fun directs => directs.elim away
      | dirOut num => exact fun directs => directs.elim away
      | getDir num => exact id
  cases line : lineOf call.num with
  | none =>
      refine elsewhere (fun off => by rw [line]; nofun) ?_
      simp only [after, gpioStep, line]
  | some place =>
      rcases place with ⟨bank', off⟩
      by_cases here : bank = bank'
      · subst here
        have own : after = call.locked off (banks bank) := by
          simp only [after, gpioStep, line, Function.update_self]
        rw [own]
        cases call with
        | set num val => exact ⟨.inl rfl, .inr ⟨id, rfl, rfl⟩⟩
        | dirIn num => exact ⟨.inr ⟨id, rfl, rfl⟩, .inl rfl⟩
        | dirOut num => exact ⟨.inr ⟨id, rfl, rfl⟩, .inl rfl⟩
        | getDir num => exact ⟨.inr ⟨id, rfl, rfl⟩, .inr ⟨id, rfl, rfl⟩⟩
      · refine elsewhere ?_ ?_
        · intro off' there
          rw [line] at there
          exact here (congrArg Prod.fst (Option.some.inj there)).symm
        · simp only [after, gpioStep, line, Function.update_of_ne here]

/-- Once a bank's register is its shadow, or some call writes it, it is the shadow at the end. -/
theorem run_bank (banks : ℕ → ArGpioBank) (calls : List GpioCall) (bank : ℕ) :
    let after := (Refinement.run gpioStep banks calls).2 bank
    ((banks bank).regSet = (banks bank).outShadow ∨ (∃ call ∈ calls, call.Drives bank) →
      after.regSet = after.outShadow) ∧
    ((banks bank).regDirin = (banks bank).dirShadow ∨ (∃ call ∈ calls, call.Directs bank) →
      after.regDirin = after.dirShadow) := by
  induction calls generalizing banks with
  | nil =>
      refine ⟨?_, ?_⟩
      · rintro (synced | ⟨call, member, -⟩)
        · exact synced
        · cases member
      · rintro (synced | ⟨call, member, -⟩)
        · exact synced
        · cases member
  | cons call rest ih =>
      rcases gpioStep_bank banks call bank with ⟨out, dir⟩
      rcases ih (gpioStep banks call).2 with ⟨outLater, dirLater⟩
      refine ⟨?_, ?_⟩
      · intro synced
        apply outLater
        rcases out with written | ⟨notThis, sameReg, sameShadow⟩
        · exact .inl written
        · rcases synced with before | ⟨other, member, drives⟩
          · exact .inl (sameReg.trans (before.trans sameShadow.symm))
          · rcases List.mem_cons.mp member with rfl | later
            · exact absurd drives notThis
            · exact .inr ⟨other, later, drives⟩
      · intro synced
        apply dirLater
        rcases dir with written | ⟨notThis, sameReg, sameShadow⟩
        · exact .inl written
        · rcases synced with before | ⟨other, member, directs⟩
          · exact .inl (sameReg.trans (before.trans sameShadow.symm))
          · rcases List.mem_cons.mp member with rfl | later
            · exact absurd directs notThis
            · exact .inr ⟨other, later, directs⟩

/-- Over any interleaving of the locked sections of any calls, from any contents of the registers:
every answer is that of a cell a line, and a line's bits in the registers of its bank are its cell,
once any line of the bank has been driven or given a direction.  The numbers below 110 are lines. -/
theorem gpio_refines_lines (readback regDirin regSet : ℕ → BitVec 32) (calls : List GpioCall) :
    let banks := gpioProbed readback regDirin regSet
    let after := Refinement.run gpioStep banks calls
    let lines := Refinement.run lineStep (linesOf banks) calls
    after.1 = lines.1 ∧ (∀ num < 110, (lineOf num).isSome = true) ∧
      ∀ num bank off, lineOf num = some (bank, off) →
        ((∃ call ∈ calls, call.Drives bank) →
          (after.2 bank).regSet.getLsbD off = (lines.2 num).level) ∧
        ((∃ call ∈ calls, call.Directs bank) →
          (after.2 bank).regDirin.getLsbD off = (lines.2 num).input) := by
  intro banks after lines
  rcases Refinement.run_of_view gpioStep_answer linesOf_step banks calls with ⟨answers, view⟩
  refine ⟨answers, by decide +kernel, ?_⟩
  intro num bank off line
  rcases run_bank banks calls bank with ⟨out, dir⟩
  have cell : lines.2 num =
      ⟨(after.2 bank).outShadow.getLsbD off, (after.2 bank).dirShadow.getLsbD off⟩ := by
    simp only [lines, ← view, linesOf, line, after]
  refine ⟨?_, ?_⟩
  · intro driven
    rw [cell]
    exact congrArg (·.getLsbD off) (out (.inr driven))
  · intro directed
    rw [cell]
    exact congrArg (·.getLsbD off) (dir (.inr directed))

end MlKernel.Gpio
