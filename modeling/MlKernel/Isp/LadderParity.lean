import MlKernel.Isp.LadderStages
import Mathlib.Tactic.Ring
import Mathlib.Tactic.Linarith

/-!
# The ladder parity oracle

The banks are written by the appliers and read back by a report that recomputes what they should
hold.  The two agree on every stage but temporal denoise, where only the applier knows the user
strengths.
-/

namespace MlKernel.Isp

open RegisterWrite (storeAll)

/-! ### de3d -/

def de3dWrites (values : ℕ → UInt32) : List (RegisterWrite ℕ UInt32) :=
  arIspDe3dRegs.zipIdx.map fun entry =>
    rmwWrite (arIspDe3dBank + entry.1.1) entry.1.2 (values entry.2)

def de3dAddrs : List ℕ := arIspDe3dRegs.zipIdx.map fun entry => arIspDe3dBank + entry.1.1

theorem de3dDemands_addr (params : LadderParams) (blob : Bytes) :
    ((de3dDemands params blob).map LadderDemand.check).map RegisterCheck.addr = de3dAddrs := by
  rw [de3dDemands, List.map_map, List.map_map]
  rfl

theorem de3dWrites_addr (values : ℕ → UInt32) :
    (de3dWrites values).map RegisterWrite.addr = de3dAddrs :=
  List.map_map

def de3dStage (params : LadderParams) (blob : Bytes) : WriteStage ℕ UInt32 where
  active := stageActive params.de3dGain (arIspDe3dBlobHeader + arIspLadderHdrEnable) blob
  footprint := Within 0x2e00 0x2f3c
  writes := de3dWrites (de3dStrengthen params (arIspDe3dFromBlob blob (gainQ16 params.de3dGain)))
  checks := (de3dDemands params blob).map LadderDemand.check
  distinct := by
    rw [de3dWrites_addr]
    decide +kernel
  writes_inside := by
    rw [de3dWrites_addr]
    decide +kernel
  checks_inside := by
    rw [de3dDemands_addr]
    decide +kernel

theorem de3dLoop_eq (values : ℕ → UInt32) (regs : RegFile) :
    storeAll (de3dWrites values) regs = arIspDe3dRegs.zipIdx.foldl
      (fun regs entry => arIspRmw (arIspDe3dBank + entry.1.1) entry.1.2 (values entry.2) regs)
      regs := by
  rw [storeAll, de3dWrites, List.foldl_map]
  rfl

theorem de3dStage_apply (params : LadderParams) (blob : Bytes) (regs : RegFile) :
    (de3dStage params blob).toStage.apply regs = arIspDe3dApply params (some blob) regs := by
  rw [arIspDe3dApply, recompute_some]
  simp only [← de3dLoop_eq]
  rfl

/-- The strength leaves a field as it is: it is off, or too close to 50 to move the field. -/
def StrengthIdle (strength : Int32) (field ceil : ℕ) : Prop :=
  ¬strengthActive strength ∨ (strength.toInt < 50 ∧ field = 0) ∨
    (50 < strength.toInt ∧ field ≤ ceil ∧ (strength.toInt - 50) * (ceil - field) < 50)

theorem strengthActive_iff {strength : Int32} :
    strengthActive strength ↔
      0 ≤ strength.toInt ∧ strength.toInt ≤ 100 ∧ strength.toInt ≠ 50 := by
  have fifty : strength ≠ 50 ↔ strength.toInt ≠ 50 := by
    rw [Ne, ← Int32.toInt_inj]
    rfl
  unfold strengthActive
  rw [Int32.le_iff_toInt_le, Int32.le_iff_toInt_le, fifty]
  exact Iff.rfl

/-- The field scaled by the strength, before it is cut to its width. -/
def strengthScaled (strength field ceil : ℤ) : ℤ :=
  (if strength < 50 then strength * field
    else 50 * ceil - (100 - strength) * (ceil - field)).tdiv 50

theorem div_fifty_lt {share span : ℤ} (low : 0 ≤ share) (high : share < 50) (positive : 0 < span) :
    0 ≤ share * span / 50 ∧ share * span / 50 < span := by
  have nonneg : 0 ≤ share * span := Int.mul_nonneg low positive.le
  have product : share * span < 50 * span := Int.mul_lt_mul_of_pos_right high positive
  omega

/-- Below 50 the field shrinks unless it is zero. -/
theorem strengthScaled_below {strength field : ℤ} (ceil : ℤ) (low : 0 ≤ strength)
    (below : strength < 50) (nonneg : 0 ≤ field) :
    0 ≤ strengthScaled strength field ceil ∧ strengthScaled strength field ceil ≤ field ∧
      (strengthScaled strength field ceil = field ↔ field = 0) := by
  have quotient : strengthScaled strength field ceil = strength * field / 50 := by
    rw [strengthScaled, if_pos below, Int.tdiv_eq_ediv_of_nonneg (Int.mul_nonneg low nonneg)]
  rw [quotient]
  rcases nonneg.eq_or_lt with rfl | positive
  · simp
  · rcases div_fifty_lt low below positive with ⟨atLeast, less⟩
    omega

/-- Above 50 the field moves toward the ceiling by the share of what is left to it. -/
theorem strengthScaled_above {strength field ceil : ℤ} (above : 50 < strength)
    (high : strength ≤ 100) (nonneg : 0 ≤ field) (toCeil : field ≤ ceil) :
    0 ≤ strengthScaled strength field ceil ∧ strengthScaled strength field ceil ≤ ceil ∧
      (strengthScaled strength field ceil = field ↔ (strength - 50) * (ceil - field) < 50) := by
  have share : 0 ≤ (strength - 50) * (ceil - field) :=
    Int.mul_nonneg (by omega) (by omega)
  have atMost : (strength - 50) * (ceil - field) ≤ 50 * (ceil - field) :=
    Int.mul_le_mul_of_nonneg_right (by omega) (by omega)
  have quotient : strengthScaled strength field ceil =
      (50 * field + (strength - 50) * (ceil - field)) / 50 := by
    have same : 50 * ceil - (100 - strength) * (ceil - field) =
        50 * field + (strength - 50) * (ceil - field) := by ring
    rw [strengthScaled, if_neg (by omega), same, Int.tdiv_eq_ediv_of_nonneg (by omega)]
  rw [quotient]
  omega

/-- A field above its ceiling comes down. -/
theorem strengthScaled_beyond {strength field ceil : ℤ} (above : 50 < strength)
    (high : strength ≤ 100) (nonneg : 0 ≤ ceil) (beyond : ceil < field) :
    0 ≤ strengthScaled strength field ceil ∧ strengthScaled strength field ceil < field := by
  have positive : 0 < field - ceil := by omega
  have low : 0 ≤ 100 - strength := by omega
  have below : 100 - strength < 50 := by omega
  rcases div_fifty_lt low below positive with ⟨atLeast, less⟩
  have share : 0 ≤ (100 - strength) * (field - ceil) := Int.mul_nonneg low positive.le
  have quotient : strengthScaled strength field ceil =
      (50 * ceil + (100 - strength) * (field - ceil)) / 50 := by
    have same : 50 * ceil - (100 - strength) * (ceil - field) =
        50 * ceil + (100 - strength) * (field - ceil) := by ring
    rw [strengthScaled, if_neg (by omega), same, Int.tdiv_eq_ediv_of_nonneg (by omega)]
  rw [quotient]
  omega

/-- An active strength keeps a field in its width, and leaves it as it is when it is idle. -/
theorem strengthScaled_spec {strength : Int32} {field ceil limit : ℕ}
    (active : strengthActive strength) (fieldFits : field < limit) (ceilFits : ceil < limit) :
    0 ≤ strengthScaled strength.toInt field ceil ∧
      strengthScaled strength.toInt field ceil < limit ∧
      (strengthScaled strength.toInt field ceil = field ↔ StrengthIdle strength field ceil) := by
  rcases strengthActive_iff.mp active with ⟨low, high, notFifty⟩
  unfold StrengthIdle
  rcases lt_or_gt_of_ne notFifty with below | above
  · rcases strengthScaled_below ceil low below (Int.natCast_nonneg field) with
      ⟨atLeast, atMost, same⟩
    refine ⟨atLeast, by omega, same.trans ?_⟩
    simp only [active, not_true_eq_false, below, true_and, false_or]
    omega
  · rcases Nat.lt_or_ge ceil field with beyond | toCeil
    · rcases strengthScaled_beyond above high (Int.natCast_nonneg ceil)
        (Int.ofNat_lt.mpr beyond) with ⟨atLeast, less⟩
      refine ⟨atLeast, by omega, ?_⟩
      simp only [active, not_true_eq_false, false_or]
      omega
    · rcases strengthScaled_above above high (Int.natCast_nonneg field)
        (Int.ofNat_le.mpr toCeil) with ⟨atLeast, atMost, same⟩
      refine ⟨atLeast, by omega, same.trans ?_⟩
      constructor
      · intro close
        exact .inr (.inr ⟨above, toCeil, close⟩)
      · rintro (off | ⟨below, -⟩ | ⟨-, -, close⟩)
        · exact absurd active off
        · omega
        · exact close

theorem toNat_ofInt_of_fits {value : ℤ} (low : 0 ≤ value) (high : value < 2 ^ 32) :
    (UInt32.ofInt value).toNat = value.toNat := by
  have same : value % 2 ^ 32 = value := Int.emod_eq_of_lt low high
  rw [UInt32.ofInt, same, UInt32.toNat_ofNat']
  apply Nat.mod_eq_of_lt
  omega

/-- The strengthened field, cut to its width, is what it was when the strength is idle. -/
theorem strengthened_eq_iff {strength : Int32} {field ceil mask : UInt32} {width : ℕ}
    (active : strengthActive strength) (cut : mask.toNat = 2 ^ width - 1) (word : width ≤ 32)
    (fieldFits : field.toNat < 2 ^ width) (ceilFits : ceil.toNat < 2 ^ width) :
    arIspDe3dStrength field strength.toInt ceil &&& mask = field ↔
      StrengthIdle strength field.toNat ceil.toNat := by
  rcases strengthScaled_spec active fieldFits ceilFits with ⟨low, high, same⟩
  have notFifty : strength.toInt ≠ 50 := (strengthActive_iff.mp active).2.2
  have inWord : 2 ^ width ≤ 2 ^ 32 := Nat.pow_le_pow_right (by decide) word
  have scaled : arIspDe3dStrength field strength.toInt ceil =
      UInt32.ofInt (strengthScaled strength.toInt field.toNat ceil.toNat) := by
    rw [arIspDe3dStrength, if_neg notFifty]
    rfl
  have value : (arIspDe3dStrength field strength.toInt ceil &&& mask).toNat =
      (strengthScaled strength.toInt field.toNat ceil.toNat).toNat := by
    rw [scaled, UInt32.toNat_and, toNat_ofInt_of_fits low (by omega), cut,
      Nat.and_two_pow_sub_one_eq_mod]
    apply Nat.mod_eq_of_lt
    omega
  rw [← UInt32.toNat_inj, value, ← same]
  omega

/-- The field of one payload word, as the tuning file has it at the gain. -/
def de3dField (params : LadderParams) (blob : Bytes) (off width : ℕ) : UInt32 :=
  let selected := arIspLadderSelectF32 arIspDe3dLadder blob (gainQ16 params.de3dGain)
  arIspDe3dField blob selected.1 selected.2 off width

theorem de3dField_lt (params : LadderParams) (blob : Bytes) (off : ℕ) {width : ℕ}
    (cut : ((1 <<< UInt32.ofNat width) - 1 : UInt32).toNat < 2 ^ width) :
    (de3dField params blob off width).toNat < 2 ^ width := by
  rw [de3dField, arIspDe3dField, UInt32.toNat_and]
  exact Nat.lt_of_le_of_lt Nat.and_le_right cut

/-- The two words that the strengths ride on. -/
theorem arIspDe3dFromBlob_strength (params : LadderParams) (blob : Bytes) :
    arIspDe3dFromBlob blob (gainQ16 params.de3dGain) 4 = de3dField params blob 0x34 14 ∧
      arIspDe3dFromBlob blob (gainQ16 params.de3dGain) 5 =
        (de3dField params blob 0x38 9 <<< 16) ||| de3dField params blob 0x40 8 :=
  ⟨rfl, rfl⟩

theorem de3dStrengthen_of_ne (params : LadderParams) (values : ℕ → UInt32) {i : ℕ} (four : i ≠ 4)
    (five : i ≠ 5) : de3dStrengthen params values i = values i := by
  by_cases active : strengthActive params.de3dStrength <;>
    by_cases active9 : strengthActive params.de3dStrength9 <;>
      simp [de3dStrengthen, active, active9, four, five]

theorem de3dStrengthen_four (params : LadderParams) (values : ℕ → UInt32) :
    de3dStrengthen params values 4 =
      if strengthActive params.de3dStrength then
        arIspDe3dStrength (values 4 &&& 0x3fff) params.de3dStrength.toInt 200 &&& 0x3fff
      else values 4 := by
  by_cases active : strengthActive params.de3dStrength <;>
    by_cases active9 : strengthActive params.de3dStrength9 <;>
      simp [de3dStrengthen, active, active9]

theorem de3dStrengthen_five (params : LadderParams) (values : ℕ → UInt32) :
    de3dStrengthen params values 5 =
      if strengthActive params.de3dStrength9 then
        (values 5 &&& ~~~((0x1ff : UInt32) <<< 16)) |||
          ((arIspDe3dStrength ((values 5 >>> 16) &&& 0x1ff) params.de3dStrength9.toInt 120 &&&
            0x1ff) <<< 16)
      else values 5 := by
  by_cases active : strengthActive params.de3dStrength <;>
    by_cases active9 : strengthActive params.de3dStrength9 <;>
      simp [de3dStrengthen, active, active9]

theorem and_ones_of_lt {word mask : UInt32} {width : ℕ} (cut : mask.toNat = 2 ^ width - 1)
    (small : word.toNat < 2 ^ width) : word &&& mask = word := by
  rw [← UInt32.toNat_inj, UInt32.toNat_and, cut, Nat.and_two_pow_sub_one_eq_mod]
  exact Nat.mod_eq_of_lt small

theorem strengthIdle_of_inactive {strength : Int32} (inactive : ¬strengthActive strength)
    (field ceil : ℕ) : StrengthIdle strength field ceil :=
  .inl inactive

/-- The 14-bit field shows under its mask unless the strength is idle. -/
theorem strengthen_four_agrees (params : LadderParams) {values : ℕ → UInt32}
    (fits : (values 4).toNat < 2 ^ 14) :
    de3dStrengthen params values 4 &&& 0x3fff = values 4 &&& 0x3fff ↔
      StrengthIdle params.de3dStrength (values 4).toNat 200 := by
  rw [de3dStrengthen_four]
  by_cases active : strengthActive params.de3dStrength
  · have cut : (0x3fff : UInt32).toNat = 2 ^ 14 - 1 := rfl
    have ceilFits : (200 : UInt32).toNat < 2 ^ 14 := by decide
    have same := strengthened_eq_iff active cut (by decide) fits ceilFits
    rw [if_pos active, and_ones_of_lt cut fits, UInt32.and_assoc, UInt32.and_self]
    exact same
  · rw [if_neg active]
    exact iff_of_true rfl (strengthIdle_of_inactive active _ _)

/-- The 9-bit field shows under the mask of its register unless the strength is idle. -/
theorem strengthen_five_agrees (params : LadderParams) {values : ℕ → UInt32} {high low : UInt32}
    (packed : values 5 = (high <<< 16) ||| low) (highFits : high.toNat < 2 ^ 9)
    (lowFits : low.toNat < 2 ^ 8) :
    de3dStrengthen params values 5 &&& 0x01ff00ff = values 5 &&& 0x01ff00ff ↔
      StrengthIdle params.de3dStrength9 high.toNat 120 := by
  have inWord : 16 + 9 ≤ 32 := by decide
  have field : (values 5 >>> 16) &&& 0x1ff = high := by
    have lowBits : low.toBitVec.toNat < 2 ^ 16 := lowFits.trans (by decide)
    have highBits : high.toBitVec.toNat < 2 ^ 9 := highFits
    rw [packed]
    exact UInt32.toBitVec_inj.mp (BitField.field_of_pack inWord highBits lowBits)
  rw [de3dStrengthen_five]
  by_cases active : strengthActive params.de3dStrength9
  · have cut : (0x1ff : UInt32).toNat = 2 ^ 9 - 1 := rfl
    have ceilFits : (120 : UInt32).toNat < 2 ^ 9 := by decide
    have same := strengthened_eq_iff active cut (by decide) highFits ceilFits
    let replaced := arIspDe3dStrength high params.de3dStrength9.toInt 120 &&& 0x1ff
    have small : replaced.toBitVec.toNat < 2 ^ 9 := by
      rw [UInt32.toNat_toBitVec, UInt32.toNat_and]
      exact Nat.lt_of_le_of_lt Nat.and_le_right (by decide)
    have covers : ∀ i < 9, (0x01ff00ff : BitVec 32).getLsbD (16 + i) = true := by decide
    have shown := BitField.setField_agrees_iff (values 5).toBitVec inWord small covers
    have fieldBits := congrArg UInt32.toBitVec field
    rw [if_pos active, field]
    calc _ ↔ replaced.toBitVec = (values 5).toBitVec >>> 16 &&& BitVec.ofNat 32 (2 ^ 9 - 1) :=
          UInt32.toBitVec_inj.symm.trans shown
      _ ↔ replaced.toBitVec = high.toBitVec :=
          ⟨fun here => here.trans fieldBits, fun here => here.trans fieldBits.symm⟩
      _ ↔ replaced = high := UInt32.toBitVec_inj
      _ ↔ _ := same
  · rw [if_neg active]
    exact iff_of_true rfl (strengthIdle_of_inactive active _ _)

/-- Both strengths leave the fields that the tuning file has at the gain. -/
def StrengthsIdle (params : LadderParams) (blob : Bytes) : Prop :=
  StrengthIdle params.de3dStrength (de3dField params blob 0x34 14).toNat 200 ∧
    StrengthIdle params.de3dStrength9 (de3dField params blob 0x38 9).toNat 120

/-- The register at an index shows the strengths or not. -/
theorem strengthen_agrees {params : LadderParams} {blob : Bytes} {off : ℕ} {mask : UInt32} {i : ℕ}
    (member : ((off, mask), i) ∈ arIspDe3dRegs.zipIdx) (idle : StrengthsIdle params blob) :
    let values := arIspDe3dFromBlob blob (gainQ16 params.de3dGain)
    de3dStrengthen params values i &&& mask = values i &&& mask := by
  have entry : arIspDe3dRegs[i]? = some (off, mask) := List.mk_mem_zipIdx_iff_getElem?.mp member
  rcases arIspDe3dFromBlob_strength params blob with ⟨four, five⟩
  by_cases isFour : i = 4
  · subst isFour
    have row : (0x1c, 0x3fff) = (off, mask) := Option.some.inj entry
    rcases Prod.mk.inj row with ⟨-, rfl⟩
    apply (strengthen_four_agrees params _).mpr
    · rw [four]
      exact idle.1
    · rw [four]
      exact de3dField_lt params blob 0x34 (by decide)
  · by_cases isFive : i = 5
    · subst isFive
      have row : (0x20, 0x01ff00ff) = (off, mask) := Option.some.inj entry
      rcases Prod.mk.inj row with ⟨-, rfl⟩
      exact (strengthen_five_agrees params five (de3dField_lt params blob 0x38 (by decide))
        (de3dField_lt params blob 0x40 (by decide))).mpr idle.2
    · intro values
      rw [de3dStrengthen_of_ne params values isFour isFive]

theorem de3dStage_settles {params : LadderParams} {blob : Bytes}
    (idle : StrengthsIdle params blob) : (de3dStage params blob).toStage.Settles := by
  apply WriteStage.settles
  intro check member
  rcases List.mem_map.mp member with ⟨demand, memberDemand, rfl⟩
  rcases List.mem_map.mp memberDemand with ⟨⟨⟨off, mask⟩, i⟩, memberEntry, rfl⟩
  refine ⟨_, List.mem_map_of_mem memberEntry, rfl, ?_⟩
  intro old
  exact (check_rmwWrite_iff _ _ _ old).mpr (strengthen_agrees memberEntry idle)

/-- A register that a strength moved is reported. -/
theorem de3dStage_unsettled_of_entry {params : LadderParams} {blob : Bytes} {off : ℕ}
    {mask : UInt32} {i : ℕ} (active : (de3dStage params blob).active = true)
    (entry : arIspDe3dRegs[i]? = some (off, mask))
    (moved : de3dStrengthen params (arIspDe3dFromBlob blob (gainQ16 params.de3dGain)) i &&& mask ≠
      arIspDe3dFromBlob blob (gainQ16 params.de3dGain) i &&& mask) :
    (de3dStage params blob).toStage.Unsettled := by
  have member : ((off, mask), i) ∈ arIspDe3dRegs.zipIdx :=
    List.mk_mem_zipIdx_iff_getElem?.mpr entry
  apply WriteStage.unsettled active (List.mem_map_of_mem (List.mem_map_of_mem member))
    (List.mem_map_of_mem member) rfl
  intro old holds
  exact moved ((check_rmwWrite_iff _ _ _ old).mp holds)

theorem de3dStage_unsettled {params : LadderParams} {blob : Bytes}
    (active : (de3dStage params blob).active = true) (moved : ¬StrengthsIdle params blob) :
    (de3dStage params blob).toStage.Unsettled := by
  rcases arIspDe3dFromBlob_strength params blob with ⟨four, five⟩
  by_cases idleFour : StrengthIdle params.de3dStrength (de3dField params blob 0x34 14).toNat 200
  · apply de3dStage_unsettled_of_entry (i := 5) active rfl
    intro same
    have idleFive := (strengthen_five_agrees params five
      (de3dField_lt params blob 0x38 (by decide))
      (de3dField_lt params blob 0x40 (by decide))).mp same
    exact moved ⟨idleFour, idleFive⟩
  · apply de3dStage_unsettled_of_entry (i := 4) active rfl
    intro same
    have fits : (arIspDe3dFromBlob blob (gainQ16 params.de3dGain) 4).toNat < 2 ^ 14 := by
      rw [four]
      exact de3dField_lt params blob 0x34 (by decide)
    have idle := (strengthen_four_agrees params fits).mp same
    rw [four] at idle
    exact idleFour idle

/-! ### All stages -/

def ladderStages (params : LadderParams) (blob : Bytes) : List (RegisterStage ℕ UInt32) :=
  [(rnrStage params blob).toStage, (lnrStage params blob).toStage, (de3dStage params blob).toStage,
    (cfaStage params blob).toStage, (cnfStage params blob).toStage, (cmStage params blob).toStage,
    (cm2Stage params blob).toStage]

/-- Where the registers of each stage lie, in the order of the stages. -/
def ladderFootprints : List (ℕ × ℕ) :=
  [(0x1808, 0x1890), (0x3cc8, 0x3e20), (0x2e00, 0x2f3c), (0x800, 0x8d8), (0x3c64, 0x3ca4),
    (0x483c, 0x4840), (0x4804, 0x4834)]

theorem ladderStages_separate (params : LadderParams) (blob : Bytes) :
    (ladderStages params blob).Pairwise RegisterStage.Separate := by
  have apart : ladderFootprints.Pairwise fun bank other =>
      bank.2 ≤ other.1 ∨ other.2 ≤ bank.1 := by
    decide
  have footprints : (ladderStages params blob).map RegisterStage.footprint =
      ladderFootprints.map fun bank => Within bank.1 bank.2 := rfl
  have separate : ((ladderStages params blob).map RegisterStage.footprint).Pairwise
      fun footprint other => ∀ off, footprint off → ¬other off := by
    rw [footprints, List.pairwise_map]
    apply apart.imp
    rintro ⟨start, stop⟩ ⟨start', stop'⟩ apart off inside inside'
    rcases inside with ⟨low, high⟩
    rcases inside' with ⟨low', high'⟩
    simp only at apart low high low' high'
    omega
  exact (List.pairwise_map (f := RegisterStage.footprint)).mp separate

theorem arIspLaddersApply_eq (params : LadderParams) (blob : Bytes) (regs : RegFile) :
    arIspLaddersApply params (some blob) regs =
      RegisterStage.applyAll (ladderStages params blob) regs := by
  simp only [arIspLaddersApply, ← rnrStage_apply, ← lnrStage_apply, ← de3dStage_apply,
    ← cfaStage_apply, ← cnfStage_apply, ← cmStage_apply, ← cm2Stage_apply]
  rfl

theorem compareCnf_bad (params : LadderParams) (blob : Bytes) (regs : RegFile)
    (report : LadderReport) :
    (if params.cnfGain < 0 then arIspLadderSkip .cnf replayedByParameter report
      else compareAll .cnf regs (cnfDemands params blob) report).bad =
      report.bad + (cnfStage params blob).toStage.mismatches regs := by
  by_cases off : params.cnfGain < 0
  · simp [WriteStage.toStage, cnfStage, arIspLadderSkip, off]
  · simp [WriteStage.toStage, cnfStage, compareAll_bad, off]

theorem arIspLaddersShow_bad (params : LadderParams) (blob : Bytes) (regs : RegFile) :
    (arIspLaddersShow params (some blob) regs).map LadderReport.bad =
      some (RegisterStage.mismatchesAll (ladderStages params blob) regs) := by
  have lnr : (if stageActive params.lnrGain (arIspLnrBlobHeader + arIspLadderHdrEnable) blob then
      RegisterCheck.mismatches ((lnrDemands params blob regs).map LadderDemand.check) regs else 0) =
      (lnrStage params blob).toStage.mismatches regs := by
    rw [lnrDemands_mismatches]
    rfl
  simp only [arIspLaddersShow, Option.map_some, compareStage_bad, compareCnf_bad, lnr,
    RegisterStage.mismatchesAll, ladderStages, List.map_cons, List.map_nil, List.sum_cons,
    List.sum_nil, Nat.zero_add, Nat.add_zero, Nat.add_assoc]
  rfl

theorem ladderStages_settle {params : LadderParams} {blob : Bytes}
    (de3d : (de3dStage params blob).toStage.Settles) :
    ∀ stage ∈ ladderStages params blob, stage.Settles := by
  simp only [ladderStages, List.forall_mem_cons]
  exact ⟨rnrStage_settles params blob, lnrStage_settles params blob, de3d,
    cfaStage_settles params blob, cnfStage_settles params blob, cmStage_settles params blob,
    cm2Stage_settles params blob, List.forall_mem_nil _⟩

theorem de3dStage_active_iff (params : LadderParams) (blob : Bytes) :
    (de3dStage params blob).active = true ↔ ¬params.de3dGain < 0 ∧
      arIspGetLe32 blob (arIspDe3dBlobHeader + arIspLadderHdrEnable) = 1 := by
  simp [de3dStage, stageActive]

/-- A strength that moves its field shows in the report, whatever the registers held. -/
theorem arIspLaddersShow_moved {params : LadderParams} {blob : Bytes}
    (active : (de3dStage params blob).active = true) (moved : ¬StrengthsIdle params blob)
    (regs : RegFile) :
    (arIspLaddersShow params (some blob) (arIspLaddersApply params (some blob) regs)).map
      LadderReport.bad ≠ some 0 := by
  have member : (de3dStage params blob).toStage ∈ ladderStages params blob :=
    .tail _ (.tail _ (.head _))
  rw [arIspLaddersShow_bad, arIspLaddersApply_eq]
  intro clean
  exact RegisterStage.mismatchesAll_applyAll_of_unsettled (ladderStages_separate params blob) member
    (de3dStage_unsettled active moved) regs (Option.some.inj clean)

/-- Right after the ladders were applied the report is clean, unless temporal denoise runs with a
strength that moves its field. -/
theorem arIspLaddersShow_after_apply (params : LadderParams) (blob : Bytes) (regs : RegFile) :
    (arIspLaddersShow params (some blob) (arIspLaddersApply params (some blob) regs)).map
        LadderReport.bad = some 0 ↔
      params.de3dGain < 0 ∨
        arIspGetLe32 blob (arIspDe3dBlobHeader + arIspLadderHdrEnable) ≠ 1 ∨
          StrengthsIdle params blob := by
  have activeIff := de3dStage_active_iff params blob
  constructor
  · intro clean
    by_contra others
    simp only [not_or, not_not] at others
    rcases others with ⟨notOff, gate, moved⟩
    exact arIspLaddersShow_moved (activeIff.mpr ⟨notOff, gate⟩) moved regs clean
  · intro quiet
    have de3d : (de3dStage params blob).toStage.Settles := by
      by_cases active : (de3dStage params blob).active = true
      · rcases activeIff.mp active with ⟨notOff, gate⟩
        rcases quiet with off | gated | idle
        · exact absurd off notOff
        · exact absurd gate gated
        · exact de3dStage_settles idle
      · exact WriteStage.settles_of_inactive (Bool.eq_false_iff.mpr active)
    rw [arIspLaddersShow_bad, arIspLaddersApply_eq]
    exact congrArg some (RegisterStage.mismatchesAll_applyAll_of_settles
      (ladderStages_separate params blob) (ladderStages_settle de3d) regs)

/-- A tuning file with the gate of temporal denoise set and 5 in its 14-bit strength field. -/
def strengthBlob : Bytes := fun off =>
  if off = arIspDe3dBlobHeader then 1 else if off = arIspDe3dLadder.payload + 0x34 then 5 else 0

/-- Temporal denoise alone, with its 14-bit field turned down to nothing. -/
def strengthParams : LadderParams :=
  { rnrGain := -1, lnrGain := -1, de3dGain := 0, de3dStrength := 0, de3dStrength9 := 50,
    cfaGain := -1, cnfGain := -1, cmTrigger := -1, cm2Trigger := -1 }

theorem arIspLaddersShow_mismatch :
    ¬∀ (params : LadderParams) (blob : Bytes) (regs : RegFile),
      (arIspLaddersShow params (some blob) (arIspLaddersApply params (some blob) regs)).map
        LadderReport.bad = some 0 := by
  intro clean
  have field : (de3dField strengthParams strengthBlob 0x34 14).toNat = 5 := by decide +kernel
  have moved : ¬StrengthsIdle strengthParams strengthBlob := by
    rintro ⟨idle, -⟩
    rw [field] at idle
    rcases idle with off | ⟨-, zero⟩ | ⟨above, -⟩
    · exact off (by decide)
    · exact absurd zero (by decide)
    · exact absurd above (by decide)
  have active : (de3dStage strengthParams strengthBlob).active = true := by decide +kernel
  exact arIspLaddersShow_moved active moved (fun _ => 0) (clean strengthParams strengthBlob _)

end MlKernel.Isp
