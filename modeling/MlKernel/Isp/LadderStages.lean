import MlKernel.Isp.LaddersApply
import MlKernel.Lib.RegisterBank
import MlKernel.Lib.BitField

/-!
# The ladder stages as writes and checks

A stage of the ladders is a list of writes to registers of its own, and its part of the report is
a list of checks on them.
-/

namespace MlKernel.Isp

open RegisterWrite (storeAll)

/-! ### One register -/

def wordWrite (value : UInt32) (off : ℕ) : RegisterWrite ℕ UInt32 := ⟨off, fun _ => value⟩

def rmwWrite (off : ℕ) (mask val : UInt32) : RegisterWrite ℕ UInt32 :=
  ⟨off, fun old => (old &&& ~~~mask) ||| (val &&& mask)⟩

def LadderDemand.check (demand : LadderDemand) : RegisterCheck ℕ UInt32 :=
  ⟨demand.off, fun live => (live ^^^ demand.want) &&& demand.mask == 0⟩

theorem check_wordWrite (demand : LadderDemand) (off : ℕ) (old : UInt32) :
    demand.check.holds ((wordWrite demand.want off).put old) = true := by
  simp [LadderDemand.check, wordWrite]

theorem check_rmwWrite_iff (demand : LadderDemand) (off : ℕ) (val old : UInt32) :
    demand.check.holds ((rmwWrite off demand.mask val).put old) = true ↔
      val &&& demand.mask = demand.want &&& demand.mask := by
  simp only [LadderDemand.check, rmwWrite, beq_iff_eq, ← UInt32.toBitVec_inj]
  exact BitField.merge_agrees_iff old.toBitVec val.toBitVec demand.want.toBitVec
    demand.mask.toBitVec

/-! ### One stage -/

def stageActive (param : Int32) (gate : ℕ) (blob : Bytes) : Bool :=
  !decide (param < 0) && arIspGetLe32 blob gate == 1

theorem recompute_some (param : Int32) (gate : ℕ) (blob : Bytes)
    (stage : Bytes → RegFile → RegFile) (regs : RegFile) :
    recompute param gate (some blob) stage regs =
      if stageActive param gate blob then stage blob regs else regs := by
  by_cases off : param < 0
  · simp [recompute, stageActive, off]
  · by_cases gated : arIspGetLe32 blob gate = 1 <;> simp [recompute, stageActive, off, gated]

theorem compareAll_bad (stage : LadderStage) (regs : RegFile) (demands : List LadderDemand)
    (report : LadderReport) :
    (compareAll stage regs demands report).bad =
      report.bad + RegisterCheck.mismatches (demands.map LadderDemand.check) regs := by
  induction demands generalizing report with
  | nil => rfl
  | cons demand demands ih =>
      have step : (compareAll stage regs (demand :: demands) report).bad = _ :=
        ih (arIspLadderCmp stage demand.off (regs demand.off) demand.want demand.mask report)
      rw [step]
      by_cases ok : ((regs demand.off ^^^ demand.want) &&& demand.mask) = 0
      · simp [arIspLadderCmp, RegisterCheck.mismatches, LadderDemand.check, ok]
      · simp [arIspLadderCmp, RegisterCheck.mismatches, LadderDemand.check, ok]
        omega

theorem compareStage_bad (stage : LadderStage) (param : Int32) (gate : ℕ) (blob : Bytes)
    (demands : List LadderDemand) (regs : RegFile) (report : LadderReport) :
    (compareStage stage param gate blob demands regs report).bad =
      report.bad + if stageActive param gate blob then
        RegisterCheck.mismatches (demands.map LadderDemand.check) regs else 0 := by
  by_cases off : param < 0
  · simp [compareStage, stageActive, arIspLadderSkip, off]
  · by_cases gated : arIspGetLe32 blob gate = 1
    · simp [compareStage, stageActive, off, gated, compareAll_bad]
    · simp [compareStage, stageActive, arIspLadderSkip, off, gated]

/-- The registers of a bank, from one offset up to another. -/
def Within (start stop off : ℕ) : Prop := start ≤ off ∧ off < stop

instance (start stop off : ℕ) : Decidable (Within start stop off) :=
  inferInstanceAs (Decidable (_ ∧ _))

/-- Every demand is what the stage writes, whole or under the mask of the demand. -/
theorem settles_of_covered {stage : WriteStage ℕ UInt32} {demands : List LadderDemand}
    (checks : stage.checks = demands.map LadderDemand.check)
    (covered : ∀ demand ∈ demands, wordWrite demand.want demand.off ∈ stage.writes ∨
      rmwWrite demand.off demand.mask demand.want ∈ stage.writes) : stage.toStage.Settles := by
  apply WriteStage.settles
  rw [checks]
  intro check member
  rcases List.mem_map.mp member with ⟨demand, memberDemand, rfl⟩
  rcases covered demand memberDemand with whole | masked
  · exact ⟨_, whole, rfl, check_wordWrite demand demand.off⟩
  · refine ⟨_, masked, rfl, ?_⟩
    intro old
    exact (check_rmwWrite_iff demand demand.off demand.want old).mpr rfl

theorem storeAll_append (writes writes' : List (RegisterWrite ℕ UInt32)) (regs : RegFile) :
    storeAll (writes ++ writes') regs = storeAll writes' (storeAll writes regs) :=
  List.foldl_append

/-! ### rnr -/

def wordWrites (count base : ℕ) (values : ℕ → UInt32) : List (RegisterWrite ℕ UInt32) :=
  (List.range count).map fun i => wordWrite (values i) (base + i * 4)

theorem writeWords_eq (count base : ℕ) (values : ℕ → UInt32) (regs : RegFile) :
    writeWords count base values regs = storeAll (wordWrites count base values) regs := by
  rw [wordWrites, storeAll, List.foldl_map]
  rfl

def rnrWrites (params : LadderParams) (blob : Bytes) : List (RegisterWrite ℕ UInt32) :=
  wordWrites arIspRnrRegs (arIspRnrBank + arIspRnrLadderOff)
      (arIspRnrFromBlob blob (gainQ16 params.rnrGain)) ++
    wordWrites arIspRnrTailRegs (arIspRnrBank + arIspRnrTail)
      (arIspRnrTailFromBlob blob (gainQ16 params.rnrGain))

def wordAddrs (count base : ℕ) : List ℕ := (List.range count).map fun i => base + i * 4

theorem wordWrites_addr (count base : ℕ) (values : ℕ → UInt32) :
    (wordWrites count base values).map RegisterWrite.addr = wordAddrs count base :=
  List.map_map

theorem demandWords_addr (count base : ℕ) (values : ℕ → UInt32) :
    ((demandWords count base values).map LadderDemand.check).map RegisterCheck.addr =
      wordAddrs count base := by
  rw [demandWords, List.map_map, List.map_map]
  rfl

def rnrStage (params : LadderParams) (blob : Bytes) : WriteStage ℕ UInt32 where
  active := stageActive params.rnrGain (arIspRnrBlobHeader + arIspLadderHdrEnable) blob
  footprint := Within 0x1808 0x1890
  writes := rnrWrites params blob
  checks := (rnrDemands params blob).map LadderDemand.check
  distinct := by
    rw [rnrWrites, List.map_append, wordWrites_addr, wordWrites_addr]
    decide
  writes_inside := by
    rw [rnrWrites, List.map_append, wordWrites_addr, wordWrites_addr]
    decide
  checks_inside := by
    rw [rnrDemands, List.map_append, List.map_append, demandWords_addr, demandWords_addr]
    decide

theorem rnrStage_apply (params : LadderParams) (blob : Bytes) (regs : RegFile) :
    (rnrStage params blob).toStage.apply regs = arIspRnrApply params (some blob) regs := by
  rw [arIspRnrApply, recompute_some]
  simp only [writeWords_eq, ← storeAll_append]
  rfl

theorem rnrStage_settles (params : LadderParams) (blob : Bytes) :
    (rnrStage params blob).toStage.Settles := by
  apply settles_of_covered rfl
  intro demand member
  left
  rcases List.mem_append.mp member with first | second
  · rcases List.mem_map.mp first with ⟨i, inside, rfl⟩
    exact List.mem_append_left _ (List.mem_map.mpr ⟨i, inside, rfl⟩)
  · rcases List.mem_map.mp second with ⟨i, inside, rfl⟩
    exact List.mem_append_right _ (List.mem_map.mpr ⟨i, inside, rfl⟩)

/-! ### lnr -/

theorem keep_all (word : UInt32) : (word &&& 0xffffffff) ||| 0 = word := by
  apply UInt32.toBitVec_inj.mp
  have kept : word.toBitVec &&& BitVec.allOnes 32 = word.toBitVec := BitVec.and_allOnes
  simpa using kept

/-- A packer of a bank that clears some bits of each register and sets others. -/
def IsOverlay (pack : RegFile → RegFile) : Prop :=
  ∃ keep put : RegFile, ∀ dst i, pack dst i = (dst i &&& keep i) ||| put i

namespace IsOverlay

variable {pack pack' : RegFile → RegFile}

theorem refl : IsOverlay id := by
  refine ⟨fun _ => 0xffffffff, fun _ => 0, ?_⟩
  intro dst i
  exact (keep_all (dst i)).symm

theorem comp (first : IsOverlay pack) (second : IsOverlay pack') :
    IsOverlay fun dst => pack' (pack dst) := by
  rcases first with ⟨keep, put, first⟩
  rcases second with ⟨keep', put', second⟩
  refine ⟨fun i => keep i &&& keep' i, fun i => (put i &&& keep' i) ||| put' i, ?_⟩
  intro dst i
  have both : pack' (pack dst) i = (((dst i &&& keep i) ||| put i) &&& keep' i) ||| put' i := by
    rw [second, first]
  exact both.trans (UInt32.toBitVec_inj.mp (BitField.overlay_comp ..))

theorem foldl {Item : Type} {items : List Item} {step : RegFile → Item → RegFile}
    (each : ∀ item, IsOverlay fun dst => step dst item) :
    IsOverlay fun dst => items.foldl step dst := by
  induction items with
  | nil => exact refl
  | cons item items ih => exact (each item).comp ih

/-- The packer acts on each register by itself. -/
theorem pointwise (overlay : IsOverlay pack) {dst dst' : RegFile} {i : ℕ} (same : dst i = dst' i) :
    pack dst i = pack dst' i := by
  rcases overlay with ⟨keep, put, overlay⟩
  rw [overlay, overlay, same]

theorem idempotent (overlay : IsOverlay pack) (dst : RegFile) (i : ℕ) :
    pack (pack dst) i = pack dst i := by
  rcases overlay with ⟨keep, put, overlay⟩
  rw [overlay, overlay]
  exact UInt32.toBitVec_inj.mp (BitField.overlay_idempotent ..)

end IsOverlay

theorem arIspLnrPackField_isOverlay (blob : Bytes) (band : ℕ) (frac : LadderFrac)
    (f : ArIspLnrField) : IsOverlay fun dst => arIspLnrPackField blob band frac dst f := by
  let mask : UInt32 := if f.width = 32 then 0xffffffff else (1 <<< UInt32.ofNat f.width) - 1
  let shift := UInt32.ofNat f.shift
  let field := arIspLadderReadWordF32 arIspLnrLadder blob band f.off frac
  refine ⟨Function.update (fun _ => 0xffffffff) f.reg (~~~(mask <<< shift)),
    Function.update (fun _ => 0) f.reg ((field &&& mask) <<< shift), ?_⟩
  intro dst i
  by_cases here : i = f.reg
  · subst here
    simp only [arIspLnrPackField, Function.update_self]
    rfl
  · simp only [arIspLnrPackField, Function.update_of_ne here]
    exact (keep_all (dst i)).symm

theorem arIspLnrFromBlob_isOverlay (blob : Bytes) (gain : UInt32) :
    IsOverlay (arIspLnrFromBlob blob gain) := by
  let selected := arIspLadderSelectF32 arIspLnrLadder blob gain
  have pack := arIspLnrPackField_isOverlay blob selected.1 selected.2
  have fields : IsOverlay fun dst =>
      arIspLnrFields.foldl (arIspLnrPackField blob selected.1 selected.2) dst :=
    IsOverlay.foldl pack
  have curve (i : ℕ) : IsOverlay fun dst =>
      (lnrCurveFields i).foldl (arIspLnrPackField blob selected.1 selected.2) dst :=
    IsOverlay.foldl pack
  have curves : IsOverlay fun dst => (List.range arIspLnrCurveRegs).foldl
      (fun dst i => (lnrCurveFields i).foldl (arIspLnrPackField blob selected.1 selected.2) dst)
      dst :=
    IsOverlay.foldl curve
  exact fields.comp curves

/-- What the packer makes of one register. -/
def lnrPacked (params : LadderParams) (blob : Bytes) (i : ℕ) (word : UInt32) : UInt32 :=
  arIspLnrFromBlob blob (gainQ16 params.lnrGain) (fun _ => word) i

theorem lnrPacked_eq (params : LadderParams) (blob : Bytes) (dst : RegFile) (i : ℕ) :
    arIspLnrFromBlob blob (gainQ16 params.lnrGain) dst i = lnrPacked params blob i (dst i) :=
  (arIspLnrFromBlob_isOverlay blob _).pointwise rfl

theorem lnrPacked_idempotent (params : LadderParams) (blob : Bytes) (i : ℕ) (word : UInt32) :
    lnrPacked params blob i (lnrPacked params blob i word) = lnrPacked params blob i word := by
  have again := (arIspLnrFromBlob_isOverlay blob (gainQ16 params.lnrGain)).idempotent
    (fun _ => word) i
  rw [lnrPacked_eq] at again
  exact again

def lnrIndices : List ℕ := (List.range arIspLnrRegs).filter fun i => i ≠ arIspLnrSkipNeverWritten

def lnrWrite (packed : ℕ → UInt32 → UInt32) (i : ℕ) : RegisterWrite ℕ UInt32 :=
  ⟨arIspLnrBank + i * 4, packed i⟩

def lnrCheck (packed : ℕ → UInt32 → UInt32) (i : ℕ) : RegisterCheck ℕ UInt32 :=
  ⟨arIspLnrBank + i * 4, fun live => (live ^^^ packed i live) &&& u32Max == 0⟩

theorem lnrWrites_distinct : (lnrIndices.map fun i => arIspLnrBank + i * 4).Nodup := by
  have distinct : lnrIndices.Nodup := List.nodup_range.filter _
  apply distinct.map
  intro i j same
  simp only [Nat.add_left_cancel_iff] at same
  omega

theorem lnrAddrs_inside :
    ∀ addr ∈ lnrIndices.map fun i => arIspLnrBank + i * 4, Within 0x3cc8 0x3e20 addr := by
  intro addr member
  rcases List.mem_map.mp member with ⟨i, inside, rfl⟩
  have small : i < arIspLnrRegs := List.mem_range.mp (List.mem_of_mem_filter inside)
  have bank : arIspLnrBank = 0x3cc8 := rfl
  have count : arIspLnrRegs = 86 := rfl
  unfold Within
  omega

def lnrStage (params : LadderParams) (blob : Bytes) : WriteStage ℕ UInt32 where
  active := stageActive params.lnrGain (arIspLnrBlobHeader + arIspLadderHdrEnable) blob
  footprint := Within 0x3cc8 0x3e20
  writes := lnrIndices.map (lnrWrite (lnrPacked params blob))
  checks := lnrIndices.map (lnrCheck (lnrPacked params blob))
  distinct := by
    rw [List.map_map]
    exact lnrWrites_distinct
  writes_inside := by
    rw [List.map_map]
    exact lnrAddrs_inside
  checks_inside := by
    rw [List.map_map]
    exact lnrAddrs_inside

theorem lnrLoop_eq (values : ℕ → UInt32) (regs : RegFile) :
    storeAll (lnrIndices.map fun i => wordWrite (values i) (arIspLnrBank + i * 4)) regs =
      (List.range arIspLnrRegs).foldl
        (fun regs i =>
          if i = arIspLnrSkipNeverWritten then regs
          else writel (values i) (arIspLnrBank + i * 4) regs) regs := by
  rw [storeAll, lnrIndices, List.foldl_map, List.foldl_filter]
  congr 1
  funext regs i
  by_cases skip : i = arIspLnrSkipNeverWritten
  · simp [skip]
  · simp only [skip, ne_eq, not_false_eq_true, decide_true, if_true, if_false]
    rfl

/-- The bank read once and then written is each register written over what it held. -/
theorem lnrWrites_fixed (packed : ℕ → UInt32 → UInt32) (values : ℕ → UInt32) (regs : RegFile)
    (eachValue : ∀ i, values i = packed i (regs (arIspLnrBank + i * 4))) :
    storeAll (lnrIndices.map (lnrWrite packed)) regs =
      storeAll (lnrIndices.map fun i => wordWrite (values i) (arIspLnrBank + i * 4)) regs := by
  apply RegisterWrite.storeAll_map_congr
  · intro i
    rfl
  · exact lnrWrites_distinct
  · intro i _
    exact (eachValue i).symm

theorem lnrStage_apply (params : LadderParams) (blob : Bytes) (regs : RegFile) :
    (lnrStage params blob).toStage.apply regs = arIspLnrApply params (some blob) regs := by
  have writes := lnrWrites_fixed (lnrPacked params blob) _ regs fun i =>
    lnrPacked_eq params blob (fun i => regs (arIspLnrBank + i * 4)) i
  rw [arIspLnrApply, recompute_some]
  simp only [← lnrLoop_eq, ← writes]
  rfl

/-- Seeding the demands from the registers is checking each register against its own packing. -/
theorem lnrChecks_seeded (packed : ℕ → UInt32 → UInt32) (regs : RegFile) :
    RegisterCheck.mismatches
        ((lnrIndices.map fun i => (⟨arIspLnrBank + i * 4,
          packed i (regs (arIspLnrBank + i * 4)), u32Max⟩ : LadderDemand)).map LadderDemand.check)
        regs =
      RegisterCheck.mismatches (lnrIndices.map (lnrCheck packed)) regs := by
  rw [RegisterCheck.mismatches, RegisterCheck.mismatches, List.map_map, List.countP_map,
    List.countP_map]
  apply List.countP_congr
  intro i _
  exact Iff.rfl

theorem lnrDemands_mismatches (params : LadderParams) (blob : Bytes) (regs : RegFile) :
    RegisterCheck.mismatches ((lnrDemands params blob regs).map LadderDemand.check) regs =
      RegisterCheck.mismatches (lnrIndices.map (lnrCheck (lnrPacked params blob))) regs := by
  rw [← lnrChecks_seeded]
  simp only [lnrDemands, lnrPacked_eq, lnrIndices]

theorem lnrStage_settles (params : LadderParams) (blob : Bytes) :
    (lnrStage params blob).toStage.Settles := by
  apply WriteStage.settles
  intro check member
  rcases List.mem_map.mp member with ⟨i, inside, rfl⟩
  refine ⟨lnrWrite (lnrPacked params blob) i, List.mem_map_of_mem inside, rfl, ?_⟩
  intro old
  simp only [lnrCheck, lnrWrite, lnrPacked_idempotent, UInt32.xor_self, UInt32.zero_and,
    beq_self_eq_true]

/-! ### cfa -/

def cfaWrite (entry : ℕ × UInt32) : RegisterWrite ℕ UInt32 :=
  let off := arIspCfaBank + entry.1
  if off = arIspCfaBank then rmwWrite off arIspCfaHeadMask entry.2 else wordWrite entry.2 off

theorem cfaWrite_addr (entry : ℕ × UInt32) : (cfaWrite entry).addr = arIspCfaBank + entry.1 := by
  by_cases head : arIspCfaBank + entry.1 = arIspCfaBank
  · simp only [cfaWrite, head, if_true]
    rfl
  · simp only [cfaWrite, head, if_false]
    rfl

def cfaAddrs : List ℕ :=
  arIspCfaRuns.flatMap fun run =>
    (List.range run.count).map fun k => arIspCfaBank + (run.reg + k * 4)

theorem arIspCfaFromBlob_addr (blob : Bytes) (gain : UInt32) :
    (arIspCfaFromBlob blob gain).map (fun entry => arIspCfaBank + entry.1) = cfaAddrs := by
  rw [arIspCfaFromBlob, List.map_flatMap]
  simp only [List.map_map]
  rfl

theorem cfaWrites_addr (blob : Bytes) (gain : UInt32) :
    ((arIspCfaFromBlob blob gain).map cfaWrite).map RegisterWrite.addr = cfaAddrs := by
  rw [List.map_map, ← arIspCfaFromBlob_addr blob gain]
  exact List.map_congr_left fun entry _ => cfaWrite_addr entry

theorem cfaDemands_addr (params : LadderParams) (blob : Bytes) :
    ((cfaDemands params blob).map LadderDemand.check).map RegisterCheck.addr = cfaAddrs := by
  rw [cfaDemands, List.map_map, List.map_map, ← arIspCfaFromBlob_addr blob]
  rfl

def cfaStage (params : LadderParams) (blob : Bytes) : WriteStage ℕ UInt32 where
  active := stageActive params.cfaGain (arIspCfaBlobHeader + arIspLadderHdrEnable) blob
  footprint := Within 0x800 0x8d8
  writes := (arIspCfaFromBlob blob (gainQ16 params.cfaGain)).map cfaWrite
  checks := (cfaDemands params blob).map LadderDemand.check
  distinct := by
    rw [cfaWrites_addr]
    decide +kernel
  writes_inside := by
    rw [cfaWrites_addr]
    decide +kernel
  checks_inside := by
    rw [cfaDemands_addr]
    decide +kernel

theorem store_cfaWrite (regs : RegFile) (entry : ℕ × UInt32) :
    RegisterWrite.store regs (cfaWrite entry) =
      let off := arIspCfaBank + entry.1
      if off = arIspCfaBank then arIspRmw off arIspCfaHeadMask entry.2 regs
      else writel entry.2 off regs := by
  by_cases head : arIspCfaBank + entry.1 = arIspCfaBank
  · simp only [cfaWrite, head, if_true]
    rfl
  · simp only [cfaWrite, head, if_false]
    rfl

theorem cfaLoop_eq (entries : List (ℕ × UInt32)) (regs : RegFile) :
    storeAll (entries.map cfaWrite) regs = entries.foldl
      (fun regs entry =>
        let off := arIspCfaBank + entry.1
        if off = arIspCfaBank then arIspRmw off arIspCfaHeadMask entry.2 regs
        else writel entry.2 off regs) regs := by
  rw [storeAll, List.foldl_map]
  simp only [store_cfaWrite]

theorem cfaStage_apply (params : LadderParams) (blob : Bytes) (regs : RegFile) :
    (cfaStage params blob).toStage.apply regs = arIspCfaApply params (some blob) regs := by
  rw [arIspCfaApply, recompute_some]
  simp only [← cfaLoop_eq]
  rfl

theorem cfaStage_settles (params : LadderParams) (blob : Bytes) :
    (cfaStage params blob).toStage.Settles := by
  apply settles_of_covered rfl
  intro demand member
  rcases List.mem_map.mp member with ⟨entry, memberEntry, rfl⟩
  have written : cfaWrite entry ∈ (cfaStage params blob).writes := List.mem_map_of_mem memberEntry
  by_cases head : arIspCfaBank + entry.1 = arIspCfaBank
  · right
    simpa only [cfaWrite, head, if_true] using written
  · left
    simpa only [cfaWrite, head, if_false] using written

/-! ### cnf -/

def cnfWrites (params : LadderParams) (blob : Bytes) : List (RegisterWrite ℕ UInt32) :=
  let strength := arIspCnfStrengthFromBlob blob (gainQ16 params.cnfGain)
  [rmwWrite arIspCnfStrengthReg arIspCnfStrengthMask (arIspCnfPack strength),
    rmwWrite arIspCnfNormRegA arIspCnfNormMask (arIspCnfNormPack strength ||| arIspCnfNormABit),
    rmwWrite arIspCnfNormRegB arIspCnfNormBMask (arIspCnfNormPack arIspCnfNormConstB)]

def cnfStaticWrites (blob : Bytes) : List (RegisterWrite ℕ UInt32) :=
  arIspCnfStatics.zipIdx.map fun entry =>
    rmwWrite (arIspCnfStaticReg + entry.2 * 4) (arIspCnfStaticPack blob entry.1).1
      (arIspCnfStaticPack blob entry.1).2

def cnfAddrs : List ℕ := [arIspCnfStrengthReg, arIspCnfNormRegA, arIspCnfNormRegB]

def cnfStaticAddrs : List ℕ :=
  arIspCnfStatics.zipIdx.map fun entry => arIspCnfStaticReg + entry.2 * 4

theorem cnfStaticWrites_addr (blob : Bytes) :
    (cnfStaticWrites blob).map RegisterWrite.addr = cnfStaticAddrs :=
  List.map_map

theorem cnfWrites_addr (params : LadderParams) (blob : Bytes) :
    (cnfWrites params blob ++ cnfStaticWrites blob).map RegisterWrite.addr =
      cnfAddrs ++ cnfStaticAddrs := by
  rw [List.map_append, cnfStaticWrites_addr]
  rfl

def cnfStage (params : LadderParams) (blob : Bytes) : WriteStage ℕ UInt32 where
  active := !decide (params.cnfGain < 0)
  footprint := Within 0x3c64 0x3ca4
  writes := cnfWrites params blob ++ cnfStaticWrites blob
  checks := (cnfDemands params blob).map LadderDemand.check
  distinct := by
    rw [cnfWrites_addr]
    decide
  writes_inside := by
    rw [cnfWrites_addr]
    decide
  checks_inside := by
    have addrs : ((cnfDemands params blob).map LadderDemand.check).map RegisterCheck.addr =
      cnfAddrs := rfl
    rw [addrs]
    decide

theorem cnfStage_apply (params : LadderParams) (blob : Bytes) (regs : RegFile) :
    (cnfStage params blob).toStage.apply regs = arIspCnfApply params (some blob) regs := by
  have statics (regs : RegFile) : storeAll (cnfStaticWrites blob) regs =
      arIspCnfStatics.zipIdx.foldl
        (fun regs entry =>
          let packed := arIspCnfStaticPack blob entry.1
          arIspRmw (arIspCnfStaticReg + entry.2 * 4) packed.1 packed.2 regs) regs := by
    rw [storeAll, cnfStaticWrites, List.foldl_map]
    rfl
  by_cases off : params.cnfGain < 0
  · simp [WriteStage.toStage, cnfStage, arIspCnfApply, off]
  · simp only [WriteStage.toStage, cnfStage, arIspCnfApply, off, decide_false, Bool.not_false,
      if_true, if_false, storeAll_append, ← statics]
    rfl

theorem cnfStage_settles (params : LadderParams) (blob : Bytes) :
    (cnfStage params blob).toStage.Settles := by
  apply settles_of_covered rfl
  intro demand member
  right
  apply List.mem_append_left
  unfold cnfWrites
  simp only [cnfDemands, List.mem_cons, List.not_mem_nil, or_false] at member
  generalize arIspCnfStrengthFromBlob blob (gainQ16 params.cnfGain) = strength at member ⊢
  rcases member with rfl | rfl | rfl
  · exact .head _
  · exact .tail _ (.head _)
  · exact .tail _ (.tail _ (.head _))

/-! ### cm -/

theorem cmGain_inside : Within 0x483c 0x4840 arIspCmGainReg := by decide

def cmStage (params : LadderParams) (blob : Bytes) : WriteStage ℕ UInt32 where
  active := stageActive params.cmTrigger arIspCmHeader blob
  footprint := Within 0x483c 0x4840
  writes := [rmwWrite arIspCmGainReg arIspCmGainMask
    (arIspCmGainFieldFromBlob blob params.cmTrigger.toUInt32 0)]
  checks := (cmDemands params blob).map LadderDemand.check
  distinct := List.nodup_singleton _
  writes_inside := List.forall_mem_singleton.mpr cmGain_inside
  checks_inside := List.forall_mem_singleton.mpr cmGain_inside

theorem cmStage_apply (params : LadderParams) (blob : Bytes) (regs : RegFile) :
    (cmStage params blob).toStage.apply regs = arIspCmApply params (some blob) regs := by
  rw [arIspCmApply, recompute_some]
  rfl

theorem cmStage_settles (params : LadderParams) (blob : Bytes) :
    (cmStage params blob).toStage.Settles := by
  apply settles_of_covered rfl
  intro demand member
  rcases List.mem_singleton.mp member with rfl
  exact .inr (.head _)

/-! ### cm2 -/

def cm2Writes (params : LadderParams) (blob : Bytes) : List (RegisterWrite ℕ UInt32) :=
  let row := arIspCm2FromBlob blob params.cm2Trigger.toUInt32 0
  [rmwWrite arIspCm2GainReg arIspCm2GainMask row.gainField,
    wordWrite row.lo1 arIspCm2Lo1Reg, wordWrite row.hi1 arIspCm2Hi1Reg,
    wordWrite row.lo2 arIspCm2Lo2Reg, wordWrite row.hi2 arIspCm2Hi2Reg,
    wordWrite row.recip1 arIspCm2Recip1Reg, wordWrite row.recip2 arIspCm2Recip2Reg]

def cm2Addrs : List ℕ :=
  [arIspCm2GainReg, arIspCm2Lo1Reg, arIspCm2Hi1Reg, arIspCm2Lo2Reg, arIspCm2Hi2Reg,
    arIspCm2Recip1Reg, arIspCm2Recip2Reg]

def cm2Stage (params : LadderParams) (blob : Bytes) : WriteStage ℕ UInt32 where
  active := stageActive params.cm2Trigger arIspCm2Header blob
  footprint := Within 0x4804 0x4834
  writes := cm2Writes params blob
  checks := (cm2Demands params blob).map LadderDemand.check
  distinct := by
    have addrs : (cm2Writes params blob).map RegisterWrite.addr = cm2Addrs := rfl
    rw [addrs]
    decide
  writes_inside := by
    have addrs : (cm2Writes params blob).map RegisterWrite.addr = cm2Addrs := rfl
    rw [addrs]
    decide
  checks_inside := by
    have addrs : ((cm2Demands params blob).map LadderDemand.check).map RegisterCheck.addr =
      cm2Addrs := rfl
    rw [addrs]
    decide

theorem cm2Stage_apply (params : LadderParams) (blob : Bytes) (regs : RegFile) :
    (cm2Stage params blob).toStage.apply regs = arIspCm2Apply params (some blob) regs := by
  rw [arIspCm2Apply, recompute_some]
  rfl

theorem cm2Stage_settles (params : LadderParams) (blob : Bytes) :
    (cm2Stage params blob).toStage.Settles := by
  apply settles_of_covered rfl
  intro demand member
  change wordWrite demand.want demand.off ∈ cm2Writes params blob ∨
    rmwWrite demand.off demand.mask demand.want ∈ cm2Writes params blob
  unfold cm2Writes
  simp only [cm2Demands, List.mem_cons, List.not_mem_nil, or_false] at member
  generalize arIspCm2FromBlob blob params.cm2Trigger.toUInt32 0 = row at member ⊢
  rcases member with rfl | rfl | rfl | rfl | rfl | rfl | rfl
  · exact .inr (.head _)
  · exact .inl (.tail _ (.head _))
  · exact .inl (.tail _ (.tail _ (.head _)))
  · exact .inl (.tail _ (.tail _ (.tail _ (.head _))))
  · exact .inl (.tail _ (.tail _ (.tail _ (.tail _ (.head _)))))
  · exact .inl (.tail _ (.tail _ (.tail _ (.tail _ (.tail _ (.head _))))))
  · exact .inl (.tail _ (.tail _ (.tail _ (.tail _ (.tail _ (.tail _ (.head _)))))))

end MlKernel.Isp
