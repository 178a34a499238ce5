import MlKernel.Isp.LaddersApply
import MlKernel.Lib.RegisterBank

/-!
# The stage gates

A stage of the block is switched by bits of registers, or by a whole register that is zero while the
stage is off, and the tuning file says which stages the sensor wants.  The veto brings the gates
round to the file once the replay is done; the report of the gates reads them back against the file.
Two stages for noise share one bit, so that the file can ask for what no register contents satisfy.
-/

namespace MlKernel.Isp

inductive GateKind
  | unknown | bitEnable | bitBypass | word
  deriving DecidableEq, Repr

structure ArIspGate where
  reg : ℕ
  setMask : UInt32
  clearMask : UInt32
  kind : GateKind
  deriving DecidableEq, Repr

def arIspStageFetch : UInt8 := 0x01
def arIspStageNoBlob : UInt8 := 0x02

/-- The registers of the stage do not read back what was written. -/
def arIspStageHwRb : UInt8 := 0x04

structure ArIspStage where
  name : String
  blobGate : ℕ
  flags : UInt8
  gates : List ArIspGate
  deriving DecidableEq, Repr

def arIspStages : List ArIspStage := [
  ⟨"acm", 0x0b00b8, 0, [⟨0x7600, 0x1, 0x1, .bitBypass⟩]⟩,
  ⟨"af_stats", 0x0d5484, 0, [
    ⟨0x7400, 0x1, 0x1, .bitEnable⟩, ⟨0x75ac, 0x0, 0x0, .word⟩,
    ⟨0x75b0, 0x0, 0x0, .word⟩]⟩,
  ⟨"awbs_stats", 0x0bbe98, 0, [⟨0x6c00, 0x1, 0x1, .bitEnable⟩]⟩,
  ⟨"binning_filter", 0x0b6348, 0, [⟨0x3c40, 0x1, 0x1, .bitEnable⟩]⟩,
  ⟨"birnr", 0x0b3550, 0, [⟨0x1800, 0x1, 0x1, .bitBypass⟩]⟩,
  ⟨"blc", 0x000024, 0, [⟨0x0000, 0x4, 0x404, .bitEnable⟩]⟩,
  ⟨"ccm1", 0x0253fc, 0, [⟨0x0000, 0x200000, 0xa00000, .bitEnable⟩]⟩,
  ⟨"cfa", 0x000000, arIspStageNoBlob, [⟨0x0800, 0x10000, 0x10000, .unknown⟩]⟩,
  ⟨"cm", 0x089cfc, 0, [⟨0x4838, 0x0, 0x0, .word⟩]⟩,
  ⟨"cm2", 0x0a1304, 0, [⟨0x4800, 0x1, 0x1, .bitEnable⟩]⟩,
  ⟨"cnf", 0x08e198, 0, [⟨0x3c64, 0x1, 0x1, .bitEnable⟩]⟩,
  ⟨"compander", 0x006cc4, 0, [
    ⟨0x0000, 0x20, 0x2020, .bitEnable⟩, ⟨0x0000, 0x2000, 0x2020, .bitEnable⟩]⟩,
  ⟨"de3d", 0x000000, arIspStageNoBlob, [⟨0x2e00, 0x1, 0x1, .unknown⟩]⟩,
  ⟨"decompander", 0x00906c, 0, [⟨0x0000, 0x20000, 0x20000, .bitEnable⟩]⟩,
  ⟨"derolling_stats", 0x0b64f8, 0, [
    ⟨0x3900, 0x1, 0x1, .bitEnable⟩, ⟨0x3900, 0x40, 0x40, .bitEnable⟩]⟩,
  ⟨"digigain1", 0x0b4000, 0, [⟨0x0000, 0x10, 0x10, .bitBypass⟩]⟩,
  ⟨"dpc", 0x006ce8, arIspStageHwRb, [
    ⟨0x0c10, 0x1, 0x1, .bitEnable⟩, ⟨0x0c10, 0x2, 0x2, .bitBypass⟩,
    ⟨0x0c10, 0x4, 0x4, .bitBypass⟩]⟩,
  ⟨"drc", 0x017a88, arIspStageFetch, [
    ⟨0x0000, 0x80000, 0x180000, .bitEnable⟩, ⟨0x0018, 0x10000, 0x10000, .bitEnable⟩]⟩,
  ⟨"drc_stats", 0x000000, arIspStageNoBlob, [⟨0x300c, 0x40000, 0x40000, .unknown⟩]⟩,
  ⟨"face_rro_stats", 0x0b64f8, 0, [⟨0x64c8, 0x0, 0x0, .word⟩]⟩,
  ⟨"fpn", 0x000000, arIspStageNoBlob, [⟨0x4400, 0x10, 0x10, .unknown⟩]⟩,
  ⟨"gamma", 0x026afc, arIspStageFetch, [
    ⟨0x0000, 0x20000000, 0x60000000, .bitEnable⟩,
    ⟨0x0018, 0x20000, 0x20000, .bitBypass⟩]⟩,
  ⟨"gib", 0x0243e4, 0, [⟨0x2408, 0x40000000, 0x40000000, .bitBypass⟩]⟩,
  ⟨"gtm2", 0x07abd8, arIspStageFetch, [
    ⟨0x2800, 0x10, 0x10, .bitEnable⟩, ⟨0x2800, 0x800, 0x800, .bitEnable⟩]⟩,
  ⟨"hdr_awbs_stats", 0x0bbe98, 0, [⟨0x1e4c, 0x0, 0x0, .word⟩]⟩,
  ⟨"hdr_lsc", 0x0a16c0, 0, [⟨0x1df0, 0x0, 0x0, .word⟩, ⟨0x1e34, 0x0, 0x0, .word⟩]⟩,
  ⟨"ir_lms_horz", 0x0b4ee4, 0, [⟨0x8604, 0x0, 0x0, .word⟩]⟩,
  ⟨"ir_nbbc", 0x000000, arIspStageNoBlob, [⟨0x9000, 0x1, 0x1, .unknown⟩]⟩,
  ⟨"ir_rnr", 0x0b2bf4, 0, [⟨0x8400, 0x1, 0x1, .bitBypass⟩]⟩,
  ⟨"ir_stats", 0x000000, arIspStageNoBlob, [
    ⟨0x8a10, 0x1, 0x1, .unknown⟩, ⟨0x8a24, 0x1, 0x1, .unknown⟩,
    ⟨0x8a24, 0x10, 0x10, .unknown⟩]⟩,
  ⟨"lee_lnr", 0x089e88, 0, [⟨0x3cc8, 0x1, 0x1, .bitEnable⟩]⟩,
  ⟨"lms", 0x0b288c, 0, [⟨0x7268, 0x0, 0x0, .word⟩]⟩,
  ⟨"lsc", 0x009090, arIspStageFetch, [
    ⟨0x4c00, 0x1, 0x1, .bitEnable⟩, ⟨0x4c24, 0x4, 0xff, .bitEnable⟩,
    ⟨0x4c24, 0x10, 0xff, .bitEnable⟩, ⟨0x4c24, 0x20, 0xff, .bitEnable⟩]⟩,
  ⟨"ltm", 0x000000, arIspStageFetch ||| arIspStageNoBlob, [
    ⟨0x2800, 0x10, 0x10, .unknown⟩, ⟨0x2800, 0x800, 0x800, .unknown⟩]⟩,
  ⟨"lut3d", 0x07b634, 0, [
    ⟨0x5800, 0x1, 0x3, .bitEnable⟩, ⟨0x580c, 0x0, 0x0, .word⟩,
    ⟨0x5824, 0x0, 0x0, .word⟩, ⟨0x583c, 0x0, 0x0, .word⟩,
    ⟨0x5854, 0x0, 0x0, .word⟩, ⟨0x5864, 0x0, 0x0, .word⟩]⟩,
  ⟨"nuc_dpc", 0x000000, arIspStageNoBlob, [⟨0x7238, 0x80, 0x80, .unknown⟩]⟩,
  ⟨"qgg", 0x000000, arIspStageNoBlob, [⟨0x7230, 0x1, 0xf, .unknown⟩]⟩,
  ⟨"raw_3dnr", 0x0b500c, 0, [
    ⟨0x4000, 0x1, 0x1, .bitEnable⟩, ⟨0x4000, 0x2, 0x6, .unknown⟩,
    ⟨0x4000, 0x4, 0x6, .unknown⟩, ⟨0x4000, 0x40, 0x3fc0, .unknown⟩,
    ⟨0x4000, 0x80, 0x3fc0, .unknown⟩, ⟨0x4000, 0x100, 0x3fc0, .bitEnable⟩,
    ⟨0x4000, 0x200, 0x3fc0, .bitEnable⟩]⟩,
  ⟨"raw_his_stats", 0x0b64f8, 0, [⟨0x6000, 0x1, 0x1, .bitEnable⟩]⟩,
  ⟨"rgb2yuv", 0x000000, arIspStageNoBlob, [⟨0x0000, 0x80000000, 0x90000000, .unknown⟩]⟩,
  ⟨"rgb_his_stats", 0x0b64f8, 0, [⟨0x5c00, 0x1, 0x1, .bitEnable⟩]⟩,
  ⟨"rgb_max_stats", 0x0b64f8, 0, [⟨0x5400, 0x0, 0x0, .word⟩]⟩,
  ⟨"rnr", 0x0079d8, 0, [⟨0x1800, 0x1, 0x1, .bitBypass⟩]⟩,
  ⟨"rro_stats", 0x0b64f8, 0, [⟨0x6400, 0x1, 0x1, .bitEnable⟩]⟩,
  ⟨"wb", 0x000000, arIspStageNoBlob, [⟨0x5000, 0x0, 0x0, .word⟩]⟩]

/-- The firmware file with the tuning. -/
structure Tuning where
  data : Bytes
  size : ℕ

/-! ### The veto -/

/-- What the veto skips is `none`. -/
def Tuning.vetoes (tuning : Tuning) (st : ArIspStage) : Option Bool :=
  if st.blobGate = 0 ∨ st.flags &&& arIspStageHwRb ≠ 0 then none
  else if tuning.size < st.blobGate + 4 then none
  else some (arIspGetLe32 tuning.data st.blobGate ≠ 0)

/-- What the gate's register is to hold. -/
def ArIspGate.fixed (gate : ArIspGate) (want : Bool) (word : UInt32) : UInt32 :=
  match gate.kind with
  | .bitEnable => if want then word ||| gate.setMask else word &&& ~~~gate.clearMask
  | .bitBypass => if want then word &&& ~~~gate.clearMask else word ||| gate.setMask
  -- What turns such a stage on is computed by the stage, so that only off can be asked for.
  | .word => if want then word else 0
  | .unknown => word

/-- A line of the log. -/
structure GateDeviation where
  stage : String
  reg : ℕ
  word : UInt32
  fixed : UInt32
  deriving DecidableEq, Repr

def vetoGate (commit : Bool) (name : String) (want : Bool)
    (state : List GateDeviation × RegFile) (gate : ArIspGate) : List GateDeviation × RegFile :=
  let word := state.2 gate.reg
  let fixed := gate.fixed want word
  if fixed = word then state
  else
    (state.1 ++ [⟨name, gate.reg, word, fixed⟩],
      if commit then writel fixed gate.reg state.2 else state.2)

/-- The deviations logged, and the registers. -/
def arIspGatesVeto (tuning : Option Tuning) (commit : Bool) (regs : RegFile) :
    List GateDeviation × RegFile :=
  match tuning with
  | none => ([], regs)
  | some tuning =>
      arIspStages.foldl
        (fun state st =>
          match tuning.vetoes st with
          | none => state
          | some want => st.gates.foldl (vetoGate commit st.name want) state)
        ([], regs)

/-! ### The report -/

inductive GateVerdict
  | none | ok | mismatch
  deriving DecidableEq, Repr

/-- A row of the report: `none` is printed as `-1`, or as `word` for a bit. -/
structure GateRow where
  stage : String
  reg : ℕ
  bit : Option ℕ
  word : UInt32
  on : Option Bool
  want : Option Bool
  verdict : GateVerdict
  deriving DecidableEq, Repr

def Tuning.wants (tuning : Option Tuning) (st : ArIspStage) : Option Bool :=
  match tuning with
  | none => none
  | some tuning =>
      if st.blobGate ≠ 0 ∧ st.blobGate + 4 ≤ tuning.size then
        some (arIspGetLe32 tuning.data st.blobGate ≠ 0)
      else none

def ArIspGate.on (gate : ArIspGate) (word : UInt32) : Option Bool :=
  match gate.kind with
  | .bitEnable => some (word &&& gate.setMask ≠ 0)
  | .bitBypass => some (word &&& gate.setMask = 0)
  | .word => some (word ≠ 0)
  | .unknown => none

/-- `__ffs` -/
def lowestBit (mask : UInt32) : Option ℕ :=
  (List.range 32).find? fun i => mask.toBitVec.getLsbD i

def gateVerdict (st : ArIspStage) (gate : ArIspGate) (on want : Option Bool) : GateVerdict :=
  match want, on with
  | some want, some on =>
      if st.flags &&& arIspStageHwRb = 0 ∧ gate.kind ≠ .word ∧ gate.kind ≠ .unknown then
        if on = want then .ok else .mismatch
      else .none
  | _, _ => .none

def gateRow (tuning : Option Tuning) (regs : RegFile) (st : ArIspStage) (g : ℕ)
    (gate : ArIspGate) : GateRow where
  stage := if g = 0 then st.name else ""
  reg := gate.reg
  bit := lowestBit gate.setMask
  word := regs gate.reg
  on := gate.on (regs gate.reg)
  want := Tuning.wants tuning st
  verdict := gateVerdict st gate (gate.on (regs gate.reg)) (Tuning.wants tuning st)

structure GateReport where
  rows : List GateRow
  mismatches : ℕ

def arIspGatesShow (tuning : Option Tuning) (regs : RegFile) : GateReport :=
  let rows := arIspStages.flatMap fun st =>
    st.gates.zipIdx.map fun entry => gateRow tuning regs st entry.2 entry.1
  ⟨rows, rows.countP fun row => row.verdict = .mismatch⟩

/-! ### One gate after the other -/

/-- A gate with its stage. -/
abbrev GateEntry : Type := ArIspStage × ArIspGate

def gateEntries : List GateEntry :=
  arIspStages.flatMap fun st => st.gates.map fun gate => (st, gate)

namespace GateEntry

/-- What the veto puts into the register of the gate. -/
def put (tuning : Tuning) (entry : GateEntry) (word : UInt32) : UInt32 :=
  match tuning.vetoes entry.1 with
  | none => word
  | some want => entry.2.fixed want word

def write (tuning : Tuning) (entry : GateEntry) : RegisterWrite ℕ UInt32 :=
  ⟨entry.2.reg, entry.put tuning⟩

/-- The register is as the veto leaves it. -/
def Settled (tuning : Tuning) (entry : GateEntry) (word : UInt32) : Prop :=
  entry.put tuning word = word

/-- Whatever the tuning file says, the veto does nothing for the gate. -/
def skipped (entry : GateEntry) : Bool :=
  entry.1.blobGate = 0 ∨ entry.1.flags &&& arIspStageHwRb ≠ 0 ∨ entry.2.kind = .unknown

/-- The bits the veto may change. -/
def mask (entry : GateEntry) : UInt32 := entry.2.setMask ||| entry.2.clearMask

/-- A later gate of the register leaves the bits of this one as they are, or as they have to be. -/
def Undisturbed (entry later : GateEntry) : Prop :=
  entry.2.reg = later.2.reg → entry.skipped = true ∨ later.skipped = true ∨
    entry.2.kind ≠ .word ∧ later.2.kind ≠ .word ∧
      (entry.mask &&& later.mask = 0 ∨
        entry.1.blobGate = later.1.blobGate ∧ entry.2.kind = later.2.kind)

instance (entry later : GateEntry) : Decidable (entry.Undisturbed later) := by
  unfold Undisturbed
  infer_instance

end GateEntry

section Veto

variable {tuning : Tuning} {entry later : GateEntry} {word : UInt32} {regs : RegFile}

theorem or_eq_self_iff {word mask : UInt32} :
    word ||| mask = word ↔ ∀ i : ℕ, mask.toBitVec.getLsbD i = true →
      word.toBitVec.getLsbD i = true := by
  rw [← UInt32.toBitVec_inj, UInt32.toBitVec_or]
  constructor
  · intro same i inMask
    rw [← same, BitVec.getLsbD_or, inMask, Bool.or_true]
  · intro covers
    apply BitVec.eq_of_getLsbD_eq
    intro i _
    have covered := covers i
    rw [BitVec.getLsbD_or]
    cases inMask : mask.toBitVec.getLsbD i
    · rw [Bool.or_false]
    · rw [covered inMask, Bool.or_true]

theorem and_not_eq_self_iff {word mask : UInt32} :
    word &&& ~~~mask = word ↔ ∀ i : ℕ, mask.toBitVec.getLsbD i = true →
      word.toBitVec.getLsbD i = false := by
  rw [← UInt32.toBitVec_inj, UInt32.toBitVec_and, UInt32.toBitVec_not]
  constructor
  · intro same i inMask
    rw [← same, BitVec.getLsbD_and, BitVec.getLsbD_not, inMask]
    simp
  · intro covers
    apply BitVec.eq_of_getLsbD_eq
    intro i inside
    have covered := covers i
    rw [BitVec.getLsbD_and, BitVec.getLsbD_not]
    cases inMask : mask.toBitVec.getLsbD i
    · simp [inside]
    · rw [covered inMask, Bool.false_and]

/-- A gate of bits either sets or clears them. -/
def ArIspGate.raises (gate : ArIspGate) (want : Bool) : Bool :=
  want = decide (gate.kind = .bitEnable)

theorem ArIspGate.fixed_of_bits {gate : ArIspGate} (known : gate.kind ≠ .unknown)
    (bits : gate.kind ≠ .word) (want : Bool) (word : UInt32) :
    gate.fixed want word =
      if gate.raises want then word ||| gate.setMask else word &&& ~~~gate.clearMask := by
  rcases gate with ⟨reg, setMask, clearMask, kind⟩
  cases kind <;> cases want <;> simp [ArIspGate.fixed, ArIspGate.raises] at known bits ⊢

theorem put_of_skipped (skipped : entry.skipped = true) : entry.put tuning word = word := by
  simp only [GateEntry.skipped, decide_eq_true_eq] at skipped
  simp only [GateEntry.put, Tuning.vetoes]
  rcases skipped with none | readBack | unknown
  · simp [none]
  · simp [readBack]
  · split
    · rfl
    · simp [ArIspGate.fixed, unknown]

theorem put_put : entry.Settled tuning (entry.put tuning word) := by
  simp only [GateEntry.Settled, GateEntry.put]
  split
  · rfl
  · simp only [ArIspGate.fixed]
    split
    · split <;> simp [UInt32.or_assoc, UInt32.and_assoc]
    · split <;> simp [UInt32.or_assoc, UInt32.and_assoc]
    · split <;> rfl
    · rfl

/-- Stages with one flag are wanted alike. -/
theorem vetoes_congr {st st' : ArIspStage} (same : st.blobGate = st'.blobGate) {want want' : Bool}
    (here : tuning.vetoes st = some want) (there : tuning.vetoes st' = some want') :
    want = want' := by
  simp only [Tuning.vetoes] at here there
  split at here
  · cases here
  split at here
  · cases here
  split at there
  · cases there
  split at there
  · cases there
  simp only [Option.some.injEq] at here there
  rw [← here, ← there, same]

theorem settled_put (undisturbed : entry.Undisturbed later) (sameReg : later.2.reg = entry.2.reg)
    (settled : entry.Settled tuning word) : entry.Settled tuning (later.put tuning word) := by
  rcases undisturbed sameReg.symm with skipped | skipped | ⟨bits, laterBits, apart⟩
  · exact put_of_skipped skipped
  · rw [put_of_skipped skipped]
    exact settled
  by_cases skipped : entry.skipped = true
  · exact put_of_skipped skipped
  by_cases laterSkipped : later.skipped = true
  · rw [put_of_skipped laterSkipped]
    exact settled
  have known : entry.2.kind ≠ .unknown := by
    rintro unknown
    simp [GateEntry.skipped, unknown] at skipped
  have laterKnown : later.2.kind ≠ .unknown := by
    rintro unknown
    simp [GateEntry.skipped, unknown] at laterSkipped
  simp only [GateEntry.Settled, GateEntry.put] at settled ⊢
  cases wanted : tuning.vetoes entry.1 with
  | none => rfl
  | some want =>
      cases laterWanted : tuning.vetoes later.1 with
      | none => simpa [wanted] using settled
      | some want' =>
          simp only [wanted, ArIspGate.fixed_of_bits known bits,
            ArIspGate.fixed_of_bits laterKnown laterBits] at settled ⊢
          have crossed : entry.2.raises want ≠ later.2.raises want' →
              ∀ i : ℕ, entry.mask.toBitVec.getLsbD i = true →
                later.mask.toBitVec.getLsbD i = false := by
            intro differ i inMask
            rcases apart with none | ⟨sameFlag, sameKind⟩
            · have bit := congrArg (fun mask : UInt32 => mask.toBitVec.getLsbD i) none
              simpa [inMask] using bit
            · rw [vetoes_congr sameFlag wanted laterWanted, ArIspGate.raises, ArIspGate.raises,
                sameKind] at differ
              exact absurd rfl differ
          simp only [GateEntry.mask, UInt32.toBitVec_or, BitVec.getLsbD_or, Bool.or_eq_true,
            Bool.or_eq_false_iff] at crossed
          cases up : entry.2.raises want <;> cases laterUp : later.2.raises want' <;>
            simp only [up, laterUp, Bool.false_eq_true, if_false, if_true, ne_eq, not_true,
              not_false_eq_true, forall_const, false_implies, Bool.true_eq_false]
              at settled crossed ⊢
          · rw [UInt32.and_assoc, UInt32.and_comm (~~~_), ← UInt32.and_assoc, settled]
          · rw [and_not_eq_self_iff] at settled ⊢
            intro i inMask
            simp [settled i inMask, (crossed i (.inr inMask)).1]
          · rw [or_eq_self_iff] at settled ⊢
            intro i inMask
            have inside := BitVec.lt_of_getLsbD inMask
            rw [UInt32.toBitVec_and, UInt32.toBitVec_not, BitVec.getLsbD_and, BitVec.getLsbD_not,
              settled i inMask, (crossed i (.inl inMask)).2]
            simp [inside]
          · rw [UInt32.or_assoc, UInt32.or_comm _ entry.2.setMask, ← UInt32.or_assoc, settled]

/-! ### The whole veto -/

def vetoEntry (tuning : Tuning) (commit : Bool) (state : List GateDeviation × RegFile)
    (entry : GateEntry) : List GateDeviation × RegFile :=
  match tuning.vetoes entry.1 with
  | none => state
  | some want => vetoGate commit entry.1.name want state entry.2

theorem arIspGatesVeto_eq (tuning : Tuning) (commit : Bool) (regs : RegFile) :
    arIspGatesVeto (some tuning) commit regs =
      gateEntries.foldl (vetoEntry tuning commit) ([], regs) := by
  have ignored : ∀ (gates : List ArIspGate) (state : List GateDeviation × RegFile),
      gates.foldl (fun state _ => state) state = state := by
    intro gates
    induction gates with
    | nil => exact fun _ => rfl
    | cons _ _ ih => exact ih
  rw [gateEntries, List.foldl_flatMap]
  simp only [arIspGatesVeto, List.foldl_map, vetoEntry]
  congr 1
  funext state st
  cases tuning.vetoes st with
  | none => exact (ignored st.gates state).symm
  | some want => rfl

/-- The registers of a veto that commits. -/
theorem vetoEntry_regs (entries : List GateEntry) (state : List GateDeviation × RegFile) :
    (entries.foldl (vetoEntry tuning true) state).2 =
      RegisterWrite.storeAll (entries.map (GateEntry.write tuning)) state.2 := by
  induction entries generalizing state with
  | nil => rfl
  | cons entry entries ih =>
      have here : (vetoEntry tuning true state entry).2 =
          RegisterWrite.store state.2 (entry.write tuning) := by
        simp only [vetoEntry, RegisterWrite.store, GateEntry.write, GateEntry.put]
        cases tuning.vetoes entry.1 with
        | none => exact (Function.update_eq_self _ _).symm
        | some want =>
            simp only [vetoGate]
            split
            · next same => rw [same, Function.update_eq_self]
            · rfl
      rw [List.foldl_cons, ih, here]
      rfl

/-- A veto that only counts finds nothing exactly when every gate is settled. -/
theorem vetoEntry_deviations (entries : List GateEntry) (logged : List GateDeviation) :
    (entries.foldl (vetoEntry tuning false) (logged, regs)).2 = regs ∧
      ((entries.foldl (vetoEntry tuning false) (logged, regs)).1 = [] ↔
        logged = [] ∧ ∀ entry ∈ entries, entry.Settled tuning (regs entry.2.reg)) := by
  induction entries generalizing logged with
  | nil => simp
  | cons entry entries ih =>
      have here : vetoEntry tuning false (logged, regs) entry = (logged, regs) ∧
            entry.Settled tuning (regs entry.2.reg) ∨
          (∃ line, vetoEntry tuning false (logged, regs) entry = (logged ++ [line], regs)) ∧
            ¬entry.Settled tuning (regs entry.2.reg) := by
        rw [vetoEntry, GateEntry.Settled, GateEntry.put.eq_def]
        cases tuning.vetoes entry.1 with
        | none => exact .inl ⟨rfl, rfl⟩
        | some want =>
            simp only [vetoGate, Bool.false_eq_true, if_false]
            split
            · next same => exact .inl ⟨rfl, same⟩
            · next differs => exact .inr ⟨⟨_, rfl⟩, differs⟩
      rcases here with ⟨same, settled⟩ | ⟨⟨line, grown⟩, unsettled⟩
      · simp [same, settled, ih]
      · simp [grown, unsettled, ih]

theorem vetoEntry_settled (entries : List GateEntry) (logged : List GateDeviation) (commit : Bool)
    (settled : ∀ entry ∈ entries, entry.Settled tuning (regs entry.2.reg)) :
    entries.foldl (vetoEntry tuning commit) (logged, regs) = (logged, regs) := by
  induction entries with
  | nil => rfl
  | cons entry entries ih =>
      have here : vetoEntry tuning commit (logged, regs) entry = (logged, regs) := by
        have same := settled entry List.mem_cons_self
        rw [GateEntry.Settled, GateEntry.put.eq_def] at same
        rw [vetoEntry]
        cases wanted : tuning.vetoes entry.1 with
        | none => rfl
        | some want =>
            simp only [wanted] at same
            simp [vetoGate, same]
      rw [List.foldl_cons, here]
      exact ih fun other member => settled other (List.mem_cons_of_mem _ member)

/-! ### The stages that share a bit -/

/-- The flag of `birnr`, whose gate is that of `rnr`. -/
def birnrFlag : ℕ := 0x0b3550

def rnrFlag : ℕ := 0x0079d8

/-- The tuning file wants the bit both ways. -/
def Tuning.NoiseConflict (tuning : Tuning) : Prop :=
  birnrFlag + 4 ≤ tuning.size ∧
    ¬(arIspGetLe32 tuning.data birnrFlag = 0 ↔ arIspGetLe32 tuning.data rnrFlag = 0)

instance (tuning : Tuning) : Decidable tuning.NoiseConflict :=
  inferInstanceAs (Decidable (_ ∧ _))

theorem gateEntries_undisturbed : gateEntries.Pairwise fun entry later =>
    entry.1.blobGate ≠ birnrFlag → entry.Undisturbed later := by
  decide +kernel

theorem settled_after (tuning : Tuning) (regs : RegFile) {entry : GateEntry}
    (member : entry ∈ gateEntries) (single : entry.1.blobGate ≠ birnrFlag) :
    entry.Settled tuning ((arIspGatesVeto (some tuning) true regs).2 entry.2.reg) := by
  rcases List.append_of_mem member with ⟨before, after, split⟩
  have undisturbed := gateEntries_undisturbed
  rw [split, List.pairwise_append] at undisturbed
  have later := (List.pairwise_cons.mp undisturbed.2.1).1
  rw [arIspGatesVeto_eq, vetoEntry_regs, split, List.map_append, List.map_cons]
  refine @RegisterWrite.storeAll_establishes _ _ _ _ _ (entry.write tuning)
    (entry.Settled tuning) (fun _ => put_put) ?_ regs
  intro write memberWrite sameReg word settled
  rcases List.mem_map.mp memberWrite with ⟨other, memberOther, rfl⟩
  exact settled_put (later other memberOther single) sameReg settled

def birnrEntry : GateEntry := (⟨"birnr", 0x0b3550, 0, [⟨0x1800, 0x1, 0x1, .bitBypass⟩]⟩,
  ⟨0x1800, 0x1, 0x1, .bitBypass⟩)

def rnrEntry : GateEntry := (⟨"rnr", 0x0079d8, 0, [⟨0x1800, 0x1, 0x1, .bitBypass⟩]⟩,
  ⟨0x1800, 0x1, 0x1, .bitBypass⟩)

theorem eq_birnrEntry :
    ∀ entry ∈ gateEntries, entry.1.blobGate = birnrFlag → entry = birnrEntry := by
  decide +kernel

theorem rnrEntry_mem : rnrEntry ∈ gateEntries := by
  decide +kernel

theorem birnrEntry_mem : birnrEntry ∈ gateEntries := by
  decide +kernel

theorem birnr_vetoes (tuning : Tuning) : tuning.vetoes birnrEntry.1 =
    if tuning.size < birnrFlag + 4 then none
    else some (decide (arIspGetLe32 tuning.data birnrFlag ≠ 0)) := rfl

theorem rnr_vetoes (tuning : Tuning) : tuning.vetoes rnrEntry.1 =
    if tuning.size < rnrFlag + 4 then none
    else some (decide (arIspGetLe32 tuning.data rnrFlag ≠ 0)) := rfl

/-- What is read of a gate of bits that is settled is what is wanted. -/
theorem on_of_settled {gate : ArIspGate} (known : gate.kind ≠ .unknown) (bits : gate.kind ≠ .word)
    (some_bit : gate.setMask ≠ 0) (within : gate.setMask &&& gate.clearMask = gate.setMask)
    {want : Bool} (settled : gate.fixed want word = word) : gate.on word = some want := by
  have raised : word ||| gate.setMask = word → word &&& gate.setMask ≠ 0 := by
    intro same none
    rw [← same, UInt32.and_comm, ← UInt32.toBitVec_inj] at none
    apply some_bit
    rw [← UInt32.toBitVec_inj]
    apply BitVec.eq_of_getLsbD_eq
    intro i inside
    have bit := congrArg (fun word => BitVec.getLsbD word i) none
    simp only [UInt32.toBitVec_and, UInt32.toBitVec_or, BitVec.getLsbD_and, BitVec.getLsbD_or]
      at bit
    cases inMask : gate.setMask.toBitVec.getLsbD i
    · simp
    · simp [inMask] at bit
  have lowered : word &&& ~~~gate.clearMask = word → word &&& gate.setMask = 0 := by
    intro same
    rw [and_not_eq_self_iff] at same
    rw [← UInt32.toBitVec_inj]
    apply BitVec.eq_of_getLsbD_eq
    intro i inside
    have bit := congrArg (fun mask : UInt32 => mask.toBitVec.getLsbD i) within
    have clear := same i
    simp only [UInt32.toBitVec_and, BitVec.getLsbD_and] at bit ⊢
    cases inMask : gate.setMask.toBitVec.getLsbD i
    · simp
    · rw [inMask, Bool.true_and] at bit
      rw [clear bit]
      simp
  rcases gate with ⟨reg, setMask, clearMask, kind⟩
  cases kind
  · exact absurd rfl known
  · cases want
    · simp [ArIspGate.on, lowered (by simpa [ArIspGate.fixed] using settled)]
    · simp [ArIspGate.on, raised (by simpa [ArIspGate.fixed] using settled)]
  · cases want
    · simp [ArIspGate.on, raised (by simpa [ArIspGate.fixed] using settled)]
    · simp [ArIspGate.on, lowered (by simpa [ArIspGate.fixed] using settled)]
  · exact absurd rfl bits

theorem gateEntries_masks : ∀ entry ∈ gateEntries, entry.2.kind ≠ .unknown →
    entry.2.kind ≠ .word → entry.2.setMask ≠ 0 ∧
      entry.2.setMask &&& entry.2.clearMask = entry.2.setMask := by
  decide +kernel

/-- With `rnr` as the tuning file wants it, `birnr` is so too unless they are wanted differently. -/
theorem birnr_of_rnr (settled : rnrEntry.Settled tuning word) :
    (birnrEntry.Settled tuning word ↔ ¬tuning.NoiseConflict) ∧
      (tuning.NoiseConflict → birnrEntry.2.on word ≠ tuning.vetoes birnrEntry.1) := by
  have read : ∀ {want : Bool}, birnrEntry.2.fixed want word = word →
      birnrEntry.2.on word = some want := by
    intro want same
    exact on_of_settled (by decide) (by decide) (by decide) (by decide) same
  simp only [GateEntry.Settled, GateEntry.put, rnr_vetoes, birnr_vetoes,
    Tuning.NoiseConflict] at settled ⊢
  by_cases outside : tuning.size < birnrFlag + 4
  · simp [outside, Nat.not_le_of_lt outside]
  have rnrInside : ¬tuning.size < rnrFlag + 4 := by
    have order : rnrFlag < birnrFlag := by decide
    omega
  simp only [outside, rnrInside, if_false, Nat.le_of_not_lt outside, true_and, not_not,
    ne_eq] at settled ⊢
  have rnrRead : birnrEntry.2.on word = some (decide ¬arIspGetLe32 tuning.data rnrFlag = 0) :=
    read settled
  constructor
  · constructor
    · intro same
      have both := Option.some.inj ((read same).symm.trans rnrRead)
      simpa using both
    · intro same
      simp only [same]
      exact settled
  · intro conflict same
    rw [rnrRead, Option.some.injEq] at same
    apply conflict
    simpa using same.symm

/-- Where the hardware does not drive the register, the report wants what the veto wants. -/
theorem wants_eq {st : ArIspStage} (readsBack : st.flags &&& arIspStageHwRb = 0) :
    Tuning.wants (some tuning) st = tuning.vetoes st := by
  simp only [Tuning.wants, Tuning.vetoes, readsBack, ne_eq, not_true, or_false]
  by_cases none : st.blobGate = 0
  · simp [none]
  · by_cases inside : st.blobGate + 4 ≤ tuning.size
    · simp [none, inside, Nat.not_lt_of_le inside]
    · simp [none, inside, Nat.lt_of_not_le inside]

/-- The row of the report for a gate. -/
def GateEntry.verdict (tuning : Tuning) (regs : RegFile) (entry : GateEntry) : GateVerdict :=
  gateVerdict entry.1 entry.2 (entry.2.on (regs entry.2.reg)) (Tuning.wants (some tuning) entry.1)

theorem not_mismatch_of_settled (member : entry ∈ gateEntries)
    (settled : entry.Settled tuning (regs entry.2.reg)) :
    entry.verdict tuning regs ≠ .mismatch := by
  simp only [GateEntry.verdict, gateVerdict]
  split
  · next want on wanted read =>
      split
      · next judged =>
          rcases judged with ⟨readsBack, bits, known⟩
          rcases gateEntries_masks entry member known bits with ⟨some_bit, within⟩
          rw [wants_eq readsBack] at wanted
          simp only [GateEntry.Settled, GateEntry.put, wanted] at settled
          have same := on_of_settled known bits some_bit within settled
          rw [read, Option.some.injEq] at same
          simp [same]
      · simp
  · simp

theorem verdict_after (tuning : Tuning) (regs : RegFile) {entry : GateEntry}
    (member : entry ∈ gateEntries) :
    entry.verdict tuning (arIspGatesVeto (some tuning) true regs).2 = .mismatch ↔
      tuning.NoiseConflict ∧ entry.1.blobGate = birnrFlag := by
  by_cases single : entry.1.blobGate = birnrFlag
  · have rnr := settled_after tuning regs rnrEntry_mem (by decide)
    cases eq_birnrEntry entry member single
    rcases birnr_of_rnr rnr with ⟨settled, differs⟩
    constructor
    · intro mismatch
      refine ⟨?_, single⟩
      by_contra calm
      exact not_mismatch_of_settled member (settled.mpr calm) mismatch
    · rintro ⟨conflict, -⟩
      have wanted := birnr_vetoes tuning
      rw [if_neg (Nat.not_lt_of_le conflict.1)] at wanted
      have apart := differs conflict
      rw [wanted] at apart
      simp only [GateEntry.verdict,
        wants_eq (show birnrEntry.1.flags &&& arIspStageHwRb = 0 from rfl), wanted]
      have judged : birnrEntry.1.flags &&& arIspStageHwRb = 0 ∧ birnrEntry.2.kind ≠ .word ∧
          birnrEntry.2.kind ≠ .unknown := by
        decide
      have read : ∃ on, birnrEntry.2.on ((arIspGatesVeto (some tuning) true regs).2
          birnrEntry.2.reg) = some on := ⟨_, rfl⟩
      rcases read with ⟨on, read⟩
      rw [read]
      simp only [gateVerdict, if_pos judged]
      have unlike : ¬on = decide (arIspGetLe32 tuning.data birnrFlag ≠ 0) := by
        rintro rfl
        exact apart read
      rw [if_neg unlike]
  · simp only [single, and_false, iff_false]
    exact not_mismatch_of_settled member (settled_after tuning regs member single)

/-- The count of the report, over the gates. -/
theorem mismatches_eq (tuning : Tuning) (regs : RegFile) :
    (arIspGatesShow (some tuning) regs).mismatches =
      gateEntries.countP fun entry => entry.verdict tuning regs = .mismatch := by
  simp only [arIspGatesShow, gateEntries, List.countP_flatMap]
  refine congrArg List.sum (List.map_congr_left ?_)
  intro st _
  simp only [Function.comp_apply, List.countP_map]
  have gates : st.gates.zipIdx.map Prod.fst = st.gates := by simp
  conv_rhs => rw [← gates, List.countP_map]
  rfl

/-- The veto may change the bit of the register. -/
def GateEntry.Touches (entry : GateEntry) (reg i : ℕ) : Prop :=
  entry.2.reg = reg ∧ (entry.2.kind = .word ∨ entry.mask.toBitVec.getLsbD i = true)

theorem put_bit {i : ℕ} (kept : entry.skipped = true ∨
      entry.2.kind ≠ .word ∧ entry.mask.toBitVec.getLsbD i = false) :
    (entry.put tuning word).toBitVec.getLsbD i = word.toBitVec.getLsbD i := by
  by_cases skipped : entry.skipped = true
  · rw [put_of_skipped skipped]
  rcases kept with none | ⟨bits, outside⟩
  · exact absurd none skipped
  have known : entry.2.kind ≠ .unknown := by
    rintro unknown
    simp [GateEntry.skipped, unknown] at skipped
  simp only [GateEntry.mask, UInt32.toBitVec_or, BitVec.getLsbD_or, Bool.or_eq_false_iff] at outside
  simp only [GateEntry.put]
  split
  · rfl
  · rw [ArIspGate.fixed_of_bits known bits]
    split
    · simp [outside.1]
    · rw [UInt32.toBitVec_and, UInt32.toBitVec_not, BitVec.getLsbD_and, BitVec.getLsbD_not,
        outside.2]
      by_cases inside : i < 32
      · simp [inside]
      · simp [BitVec.getLsbD_of_ge _ i (Nat.le_of_not_lt inside)]

/-- The veto leaves every bit that no gate it decides masks. -/
theorem veto_frame (tuning : Tuning) (regs : RegFile) {reg i : ℕ}
    (untouched : ∀ entry ∈ gateEntries, entry.skipped = false → ¬entry.Touches reg i) :
    ((arIspGatesVeto (some tuning) true regs).2 reg).toBitVec.getLsbD i =
      (regs reg).toBitVec.getLsbD i := by
  rw [arIspGatesVeto_eq, vetoEntry_regs]
  generalize gateEntries = entries at untouched
  induction entries generalizing regs with
  | nil => rfl
  | cons entry entries ih =>
      have later := ih (RegisterWrite.store regs (entry.write tuning))
        fun other member => untouched other (List.mem_cons_of_mem _ member)
      refine later.trans ?_
      by_cases here : reg = entry.2.reg
      · subst here
        rw [RegisterWrite.store, GateEntry.write, Function.update_self]
        apply put_bit
        cases skipped : entry.skipped
        · right
          have apart := untouched entry List.mem_cons_self skipped
          simpa [GateEntry.Touches] using apart
        · exact .inl rfl
      · rw [RegisterWrite.store, GateEntry.write, Function.update_of_ne here]

/-- From any registers and any tuning file: after a veto that commits, the report disagrees with the
file in one gate, `birnr`'s, if the file wants the two noise stages differently, and in none
otherwise; then the registers are settled, so that a further veto finds nothing.  The bits that no
gate masks stay as they were. -/
theorem gatesVeto_settles (tuning : Tuning) (regs : RegFile) :
    let after := (arIspGatesVeto (some tuning) true regs).2
    (arIspGatesShow (some tuning) after).mismatches = (if tuning.NoiseConflict then 1 else 0) ∧
      (∀ entry ∈ gateEntries, entry.verdict tuning after = .mismatch ↔
        tuning.NoiseConflict ∧ entry.1.blobGate = birnrFlag) ∧
      ((arIspGatesVeto (some tuning) false after).1 = [] ↔ ¬tuning.NoiseConflict) ∧
      (¬tuning.NoiseConflict → ∀ commit, arIspGatesVeto (some tuning) commit after = ([], after)) ∧
      ∀ reg i, (∀ entry ∈ gateEntries, entry.skipped = false → ¬entry.Touches reg i) →
        (after reg).toBitVec.getLsbD i = (regs reg).toBitVec.getLsbD i := by
  intro after
  have rnr := settled_after tuning regs rnrEntry_mem (by decide)
  have settled : ¬tuning.NoiseConflict → ∀ entry ∈ gateEntries,
      entry.Settled tuning (after entry.2.reg) := by
    intro calm entry member
    by_cases single : entry.1.blobGate = birnrFlag
    · cases eq_birnrEntry entry member single
      exact (birnr_of_rnr rnr).1.mpr calm
    · exact settled_after tuning regs member single
  refine ⟨?_, fun entry member => verdict_after tuning regs member, ?_, ?_,
    fun reg i untouched => veto_frame tuning regs untouched⟩
  · rw [mismatches_eq]
    split
    · next conflict =>
        have one : gateEntries.countP (fun entry => entry.1.blobGate = birnrFlag) = 1 := by
          decide +kernel
        refine Eq.trans (List.countP_congr ?_) one
        intro entry member
        simpa [conflict] using verdict_after tuning regs member
    · next calm =>
        apply List.countP_eq_zero.mpr
        intro entry member
        simpa [calm] using verdict_after tuning regs member
  · rw [arIspGatesVeto_eq, (vetoEntry_deviations gateEntries []).2]
    constructor
    · rintro ⟨-, all⟩
      exact (birnr_of_rnr rnr).1.mp (all birnrEntry birnrEntry_mem)
    · exact fun calm => ⟨rfl, settled calm⟩
  · intro calm commit
    rw [arIspGatesVeto_eq]
    exact vetoEntry_settled gateEntries [] commit (settled calm)

end Veto

end MlKernel.Isp
