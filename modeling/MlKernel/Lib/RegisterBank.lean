import Mathlib.Tactic.Common
import Mathlib.Logic.Function.Basic
import Mathlib.Algebra.Ring.Nat

/-!
# Stages over a bank of registers

A stage writes registers, and a check of the stage reads registers and counts those that do not
hold what it asks for.  Stages that keep to disjoint footprints do not disturb each other: after
all of them ran, the check of a stage finds what it would have found right after that stage.
-/

universe u v w

/-- A writer of registers with its check, both of which keep to a footprint. -/
structure RegisterStage (Addr : Type u) (Word : Type v) where
  footprint : Addr → Prop
  apply : (Addr → Word) → Addr → Word
  mismatches : (Addr → Word) → ℕ
  apply_frame : ∀ regs addr, ¬footprint addr → apply regs addr = regs addr
  mismatches_congr : ∀ regs regs', (∀ addr, footprint addr → regs addr = regs' addr) →
    mismatches regs = mismatches regs'

namespace RegisterStage

variable {Addr : Type u} {Word : Type v}

/-- Whatever the registers held, the check finds nothing after the stage. -/
def Settles (stage : RegisterStage Addr Word) : Prop :=
  ∀ regs, stage.mismatches (stage.apply regs) = 0

/-- Whatever the registers held, the check finds a mismatch after the stage. -/
def Unsettled (stage : RegisterStage Addr Word) : Prop :=
  ∀ regs, stage.mismatches (stage.apply regs) ≠ 0

def Separate (stage other : RegisterStage Addr Word) : Prop :=
  ∀ addr, stage.footprint addr → ¬other.footprint addr

/-- The stages in order. -/
def applyAll (stages : List (RegisterStage Addr Word)) (regs : Addr → Word) : Addr → Word :=
  stages.foldl (fun regs stage => stage.apply regs) regs

def mismatchesAll (stages : List (RegisterStage Addr Word)) (regs : Addr → Word) : ℕ :=
  (stages.map fun stage => stage.mismatches regs).sum

theorem applyAll_frame {stages : List (RegisterStage Addr Word)} {addr : Addr}
    (outside : ∀ stage ∈ stages, ¬stage.footprint addr) (regs : Addr → Word) :
    applyAll stages regs addr = regs addr := by
  induction stages generalizing regs with
  | nil => rfl
  | cons stage stages ih =>
      have later := ih (fun other member => outside other (List.mem_cons_of_mem _ member))
        (stage.apply regs)
      have here := stage.apply_frame regs addr (outside stage List.mem_cons_self)
      exact later.trans here

/-- After all stages, the check of one finds what it finds right after its own stage. -/
theorem exists_mismatches_applyAll {stages : List (RegisterStage Addr Word)}
    (separate : stages.Pairwise Separate) {stage : RegisterStage Addr Word}
    (member : stage ∈ stages) (regs : Addr → Word) :
    ∃ before, stage.mismatches (applyAll stages regs) =
      stage.mismatches (stage.apply before) := by
  induction stages generalizing regs with
  | nil => cases member
  | cons first stages ih =>
      rcases List.pairwise_cons.mp separate with ⟨apart, separateRest⟩
      rcases List.mem_cons.mp member with rfl | memberRest
      · refine ⟨regs, stage.mismatches_congr _ _ ?_⟩
        intro addr inside
        have undisturbed : ∀ other ∈ stages, ¬other.footprint addr := fun other memberOther =>
          apart other memberOther addr inside
        exact applyAll_frame undisturbed (stage.apply regs)
      · exact ih separateRest memberRest (first.apply regs)

theorem mismatchesAll_applyAll_of_settles {stages : List (RegisterStage Addr Word)}
    (separate : stages.Pairwise Separate) (settles : ∀ stage ∈ stages, stage.Settles)
    (regs : Addr → Word) : mismatchesAll stages (applyAll stages regs) = 0 := by
  apply List.sum_eq_zero_iff_forall_eq_nat.mpr
  intro count member
  rcases List.mem_map.mp member with ⟨stage, memberStage, rfl⟩
  rcases exists_mismatches_applyAll separate memberStage regs with ⟨before, same⟩
  exact same.trans (settles stage memberStage before)

theorem mismatchesAll_applyAll_of_unsettled {stages : List (RegisterStage Addr Word)}
    (separate : stages.Pairwise Separate) {stage : RegisterStage Addr Word}
    (member : stage ∈ stages) (unsettled : stage.Unsettled) (regs : Addr → Word) :
    mismatchesAll stages (applyAll stages regs) ≠ 0 := by
  intro clean
  rcases exists_mismatches_applyAll separate member regs with ⟨before, same⟩
  have counted := List.mem_map_of_mem (f := fun stage => stage.mismatches (applyAll stages regs))
    member
  have none : stage.mismatches (applyAll stages regs) = 0 :=
    List.sum_eq_zero_iff_forall_eq_nat.mp clean _ counted
  exact unsettled before (same.symm.trans none)

end RegisterStage

/-! ### Lists of writes and of checks -/

/-- A write to one register, which may keep some of what the register held. -/
structure RegisterWrite (Addr : Type u) (Word : Type v) where
  addr : Addr
  put : Word → Word

/-- What one register is asked to hold. -/
structure RegisterCheck (Addr : Type u) (Word : Type v) where
  addr : Addr
  holds : Word → Bool

namespace RegisterWrite

variable {Addr : Type u} {Word : Type v} [DecidableEq Addr]

def store (regs : Addr → Word) (write : RegisterWrite Addr Word) : Addr → Word :=
  Function.update regs write.addr (write.put (regs write.addr))

def storeAll (writes : List (RegisterWrite Addr Word)) (regs : Addr → Word) : Addr → Word :=
  writes.foldl store regs

theorem storeAll_of_untouched {writes : List (RegisterWrite Addr Word)} {addr : Addr}
    (untouched : ∀ write ∈ writes, write.addr ≠ addr) (regs : Addr → Word) :
    storeAll writes regs addr = regs addr := by
  induction writes generalizing regs with
  | nil => rfl
  | cons write writes ih =>
      have later := ih (fun other member => untouched other (List.mem_cons_of_mem _ member))
        (store regs write)
      have here : store regs write addr = regs addr :=
        Function.update_of_ne (untouched write List.mem_cons_self).symm _ _
      exact later.trans here

/-- What a write establishes of its register holds in the end, if the later writes to the register
keep it. -/
theorem storeAll_establishes {before after : List (RegisterWrite Addr Word)}
    {write : RegisterWrite Addr Word} {property : Word → Prop}
    (establishes : ∀ word, property (write.put word))
    (keeps : ∀ later ∈ after, later.addr = write.addr →
      ∀ word, property word → property (later.put word)) (regs : Addr → Word) :
    property (storeAll (before ++ write :: after) regs write.addr) := by
  have run : ∀ (writes : List (RegisterWrite Addr Word)) (regs : Addr → Word),
      (∀ later ∈ writes, later.addr = write.addr →
        ∀ word, property word → property (later.put word)) →
      property (regs write.addr) → property (storeAll writes regs write.addr) := by
    intro writes
    induction writes with
    | nil => exact fun _ _ here => here
    | cons first writes ih =>
        intro regs keeps here
        apply ih _ fun later member => keeps later (List.mem_cons_of_mem _ member)
        by_cases same : first.addr = write.addr
        · have put := keeps first List.mem_cons_self same _ here
          rw [store, same, Function.update_self]
          exact put
        · rw [store, Function.update_of_ne (Ne.symm same)]
          exact here
  rw [storeAll, List.foldl_append]
  apply run after _ keeps
  rw [store, Function.update_self]
  exact establishes _

/-- With no address written twice, a register holds what its write puts over what it held. -/
theorem storeAll_of_mem {writes : List (RegisterWrite Addr Word)}
    (distinct : (writes.map RegisterWrite.addr).Nodup) {write : RegisterWrite Addr Word}
    (member : write ∈ writes) (regs : Addr → Word) :
    storeAll writes regs write.addr = write.put (regs write.addr) := by
  induction writes generalizing regs with
  | nil => cases member
  | cons first writes ih =>
      rw [List.map_cons, List.nodup_cons] at distinct
      rcases distinct with ⟨fresh, distinctRest⟩
      have apart : ∀ other ∈ writes, other.addr ≠ first.addr := by
        intro other memberOther same
        exact fresh (same ▸ List.mem_map_of_mem memberOther)
      rcases List.mem_cons.mp member with rfl | memberRest
      · have later := storeAll_of_untouched apart (store regs write)
        exact later.trans (Function.update_self ..)
      · have later := ih distinctRest memberRest (store regs first)
        have here : store regs first write.addr = regs write.addr :=
          Function.update_of_ne (apart write memberRest) _ _
        exact later.trans (congrArg write.put here)

/-- Writes to the same registers leave the same when each puts the same over what was held. -/
theorem storeAll_map_congr {Index : Type w} {indices : List Index}
    {write write' : Index → RegisterWrite Addr Word} {regs : Addr → Word}
    (sameAddr : ∀ i, (write i).addr = (write' i).addr)
    (distinct : (indices.map fun i => (write i).addr).Nodup)
    (samePut : ∀ i ∈ indices, (write i).put (regs (write i).addr) =
      (write' i).put (regs (write i).addr)) :
    storeAll (indices.map write) regs = storeAll (indices.map write') regs := by
  induction indices generalizing regs with
  | nil => rfl
  | cons first indices ih =>
      rw [List.map_cons, List.nodup_cons] at distinct
      rcases distinct with ⟨fresh, distinctRest⟩
      have sameFirst : store regs (write first) = store regs (write' first) := by
        unfold store
        rw [← sameAddr first, samePut first List.mem_cons_self]
      have untouched : ∀ i ∈ indices,
          store regs (write first) (write i).addr = regs (write i).addr := by
        intro i member
        apply Function.update_of_ne
        intro same
        exact fresh (List.mem_map.mpr ⟨i, member, same⟩)
      have samePutRest : ∀ i ∈ indices,
          (write i).put (store regs (write first) (write i).addr) =
            (write' i).put (store regs (write first) (write i).addr) := by
        intro i member
        rw [untouched i member]
        exact samePut i (List.mem_cons_of_mem _ member)
      have rest := ih distinctRest samePutRest
      rw [sameFirst] at rest
      calc storeAll ((first :: indices).map write) regs
          = storeAll (indices.map write) (store regs (write first)) := rfl
        _ = storeAll (indices.map write') (store regs (write' first)) := by rw [sameFirst, rest]
        _ = storeAll ((first :: indices).map write') regs := rfl

end RegisterWrite

namespace RegisterCheck

variable {Addr : Type u} {Word : Type v}

def mismatches (checks : List (RegisterCheck Addr Word)) (regs : Addr → Word) : ℕ :=
  checks.countP fun check => !check.holds (regs check.addr)

theorem mismatches_eq_zero {checks : List (RegisterCheck Addr Word)} {regs : Addr → Word} :
    mismatches checks regs = 0 ↔ ∀ check ∈ checks, check.holds (regs check.addr) = true := by
  simp [mismatches, List.countP_eq_zero]

theorem mismatches_congr {checks : List (RegisterCheck Addr Word)} {regs regs' : Addr → Word}
    (same : ∀ check ∈ checks, regs check.addr = regs' check.addr) :
    mismatches checks regs = mismatches checks regs' := by
  apply List.countP_congr
  intro check member
  rw [same check member]

end RegisterCheck

/-! ### A stage given by its writes and checks -/

/-- A stage that writes no register twice and, when it is off, neither writes nor checks. -/
structure WriteStage (Addr : Type u) (Word : Type v) where
  active : Bool
  footprint : Addr → Prop
  writes : List (RegisterWrite Addr Word)
  checks : List (RegisterCheck Addr Word)
  distinct : (writes.map RegisterWrite.addr).Nodup
  writes_inside : ∀ addr ∈ writes.map RegisterWrite.addr, footprint addr
  checks_inside : ∀ addr ∈ checks.map RegisterCheck.addr, footprint addr

namespace WriteStage

variable {Addr : Type u} {Word : Type v} [DecidableEq Addr]

def toStage (stage : WriteStage Addr Word) : RegisterStage Addr Word where
  footprint := stage.footprint
  apply regs := if stage.active then RegisterWrite.storeAll stage.writes regs else regs
  mismatches regs := if stage.active then RegisterCheck.mismatches stage.checks regs else 0
  apply_frame regs addr outside := by
    have untouched : ∀ write ∈ stage.writes, write.addr ≠ addr := by
      rintro write member rfl
      exact outside (stage.writes_inside write.addr (List.mem_map_of_mem member))
    split
    · exact RegisterWrite.storeAll_of_untouched untouched regs
    · rfl
  mismatches_congr regs regs' same := by
    have sameChecks := RegisterCheck.mismatches_congr fun check member =>
      same check.addr (stage.checks_inside check.addr (List.mem_map_of_mem member))
    rw [sameChecks]

theorem apply_of_untouched {stage : WriteStage Addr Word} {addr : Addr}
    (untouched : addr ∉ stage.writes.map RegisterWrite.addr) (regs : Addr → Word) :
    stage.toStage.apply regs addr = regs addr := by
  simp only [toStage]
  split
  · apply RegisterWrite.storeAll_of_untouched
    rintro write member rfl
    exact untouched (List.mem_map_of_mem member)
  · rfl

/-- Every check is met by what some write puts. -/
theorem settles {stage : WriteStage Addr Word}
    (met : ∀ check ∈ stage.checks, ∃ write ∈ stage.writes, write.addr = check.addr ∧
      ∀ old, check.holds (write.put old) = true) : stage.toStage.Settles := by
  intro regs
  by_cases active : stage.active = true
  · simp only [toStage, active, if_true]
    apply RegisterCheck.mismatches_eq_zero.mpr
    intro check member
    rcases met check member with ⟨write, memberWrite, sameAddr, holds⟩
    rw [← sameAddr, RegisterWrite.storeAll_of_mem stage.distinct memberWrite]
    exact holds (regs write.addr)
  · simp only [toStage, active]
    rfl

theorem settles_of_inactive {stage : WriteStage Addr Word} (inactive : stage.active = false) :
    stage.toStage.Settles := by
  intro regs
  simp [toStage, inactive]

/-- Some check fails on whatever its write puts. -/
theorem unsettled {stage : WriteStage Addr Word} (active : stage.active = true)
    {check : RegisterCheck Addr Word} (memberCheck : check ∈ stage.checks)
    {write : RegisterWrite Addr Word} (memberWrite : write ∈ stage.writes)
    (sameAddr : write.addr = check.addr) (fails : ∀ old, check.holds (write.put old) ≠ true) :
    stage.toStage.Unsettled := by
  intro regs clean
  simp only [toStage, active, if_true] at clean
  have held := RegisterCheck.mismatches_eq_zero.mp clean check memberCheck
  rw [← sameAddr, RegisterWrite.storeAll_of_mem stage.distinct memberWrite] at held
  exact fails (regs write.addr) held

end WriteStage
