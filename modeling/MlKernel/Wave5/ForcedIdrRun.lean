import MlKernel.Wave5.ForcedIdr

/-!
# Forced keyframes over whole runs

The period is put back, and every request is served, in exactly the runs in which no restore is
lost before the firmware has taken it and no picture start fails in the call that hands the armed
period to the firmware.
-/

namespace MlKernel.Wave5

open BitField

/-- The next update hands the intra parameters to the firmware. -/
def EncInst.IntraPending (inst : EncInst) : Prop :=
  inst.encRateChangePending.getLsbD 1 = true

instance (inst : EncInst) : Decidable inst.IntraPending :=
  inferInstanceAs (Decidable (_ = _))

theorem and_intraParam_ne_zero (word : U32) :
    word &&& w5EncChangeIntraParam ≠ 0 ↔ word.getLsbD 1 = true := by
  rw [w5EncChangeIntraParam, ne_eq, and_bit_eq_zero (by decide), Bool.not_eq_false]

theorem getLsbD_or_intraParam (word : U32) : (word ||| w5EncChangeIntraParam).getLsbD 1 = true :=
  getLsbD_or_bit word (by decide)

/-! ### What the calls do -/

section Calls

variable (minVbv maxVbv : ℕ) (inst : EncInst) (outcome : UpdateOutcome)

/-- A pending update leaves the forced-keyframe fields alone and clears the mask. -/
structure Applied (inst after : EncInst) (outcome : UpdateOutcome) : Prop where
  force : after.encForceIdr = inst.encForceIdr
  restore : after.encIdrRestore = inst.encIdrRestore
  saved : after.encIdrSavedPeriod = inst.encIdrSavedPeriod
  wave : after.openParam.intraPeriod = inst.openParam.intraPeriod
  pending : after.encRateChangePending = 0
  firmware : after.firmware.intraPeriod =
    if inst.IntraPending ∧ outcome.Taken then inst.openParam.intraPeriod
    else inst.firmware.intraPeriod
  owed : after.owed =
    (inst.owed && (decide (inst.encRateChangePending = 0) || decide (outcome = .ok)))

theorem not_intraPending_of_zero {inst : EncInst} (none : inst.encRateChangePending = 0) :
    ¬inst.IntraPending := by
  simp [EncInst.IntraPending, none]

theorem applied_applyPendingRate :
    Applied inst (wave5VpuEncApplyPendingRate minVbv maxVbv inst outcome) outcome := by
  by_cases none : inst.encRateChangePending = 0
  · have notIntra := not_intraPending_of_zero none
    simp only [wave5VpuEncApplyPendingRate, if_pos none]
    exact ⟨rfl, rfl, rfl, rfl, none, by rw [if_neg (fun both => notIntra both.1)], by simp [none]⟩
  · simp only [wave5VpuEncApplyPendingRate, if_neg none, wave5VpuEncUpdateRate]
    by_cases interrupted : outcome = .interrupted
    · subst interrupted
      simp only [if_true]
      have notTaken : ¬UpdateOutcome.interrupted.Taken := by decide
      refine ⟨rfl, rfl, rfl, rfl, rfl, ?_, by rw [decide_eq_false none, Bool.false_or]⟩
      rw [if_neg (fun both => notTaken both.2)]
    · simp only [if_neg interrupted]
      refine ⟨rfl, rfl, rfl, rfl, rfl, ?_, by rw [decide_eq_false none, Bool.false_or]⟩
      by_cases taken : outcome.Taken
      · simp only [taken, if_true, and_true, wave5VpuEncChangeParam, EncInst.IntraPending,
          and_intraParam_ne_zero]
      · simp only [taken, and_false, if_false]

/-- What a `start_encode` leaves behind, from the fields before it. -/
structure Started (inst after : EncInst) (outcome : UpdateOutcome) (started : Bool) : Prop where
  force : after.encForceIdr = false
  restore : after.encIdrRestore = inst.encForceIdr
  pending : after.IntraPending ↔ inst.encForceIdr = true ∨ inst.encIdrRestore = true
  wave : after.openParam.intraPeriod =
    if inst.encForceIdr then 1
    else if inst.encIdrRestore then inst.encIdrSavedPeriod
    else inst.openParam.intraPeriod
  saved : after.encIdrSavedPeriod =
    if inst.encForceIdr && !inst.encIdrRestore then inst.openParam.intraPeriod
    else inst.encIdrSavedPeriod
  firmware : after.firmware.intraPeriod =
    if inst.IntraPending ∧ outcome.Taken then inst.openParam.intraPeriod
    else inst.firmware.intraPeriod
  owed : after.owed =
    (inst.owed && (decide (inst.encRateChangePending = 0) || decide (outcome = .ok)) &&
      !(started && decide (after.firmware.intraPeriod = 1)))

theorem started_startEncode (started : Bool) :
    Started inst (startEncode minVbv maxVbv inst outcome started) outcome started := by
  have applied := applied_applyPendingRate minVbv maxVbv inst outcome
  simp only [startEncode]
  generalize wave5VpuEncApplyPendingRate minVbv maxVbv inst outcome = after at applied
  have force := applied.force
  have restore := applied.restore
  have saved := applied.saved
  have wave := applied.wave
  have pending := not_intraPending_of_zero applied.pending
  simp only [EncInst.IntraPending] at pending
  cases forced : inst.encForceIdr with
  | true =>
      rw [forced] at force
      simp only [forceEdges, force, if_true]
      refine ⟨rfl, forced.symm, ?_, by simp [forced], ?_, applied.firmware, ?_⟩
      · simp only [EncInst.IntraPending, getLsbD_or_intraParam, forced, true_or]
      · cases restoring : inst.encIdrRestore with
        | true => simp [restore, saved, forced, restoring]
        | false => simp [restore, wave, forced, restoring]
      · simp only [applied.owed]
  | false =>
      rw [forced] at force
      cases restoring : inst.encIdrRestore with
      | true =>
          rw [restoring] at restore
          simp only [forceEdges, force, restore, if_true, Bool.false_eq_true, if_false]
          refine ⟨rfl, forced.symm, ?_, ?_, ?_, applied.firmware, ?_⟩
          · simp only [EncInst.IntraPending, getLsbD_or_intraParam, restoring, or_true]
          · simp [forced, restoring, saved]
          · simp [forced, saved]
          · simp only [applied.owed]
      | false =>
          rw [restoring] at restore
          simp only [forceEdges, force, restore, Bool.false_eq_true, if_false]
          refine ⟨rfl, forced.symm, ?_, ?_, ?_, applied.firmware, ?_⟩
          · simp only [EncInst.IntraPending, forced, restoring, Bool.false_eq_true, or_self,
              iff_false]
            exact pending
          · simp [forced, restoring, wave]
          · simp [forced, saved]
          · simp only [applied.owed]

/-- A rate change leaves everything about keyframes alone. -/
structure Unchanged (inst after : EncInst) : Prop where
  force : after.encForceIdr = inst.encForceIdr
  restore : after.encIdrRestore = inst.encIdrRestore
  pending : after.IntraPending ↔ inst.IntraPending
  wave : after.openParam.intraPeriod = inst.openParam.intraPeriod
  saved : after.encIdrSavedPeriod = inst.encIdrSavedPeriod
  firmware : after.firmware.intraPeriod = inst.firmware.intraPeriod
  owed : after.owed = inst.owed

theorem Unchanged.markPending {before : EncInst} (same : Unchanged inst before)
    (changed running : Bool) {n : ℕ} (other : n ≠ 1) :
    Unchanged inst (markPending before changed running (bit 32 n)) := by
  unfold Wave5.markPending
  split
  · refine ⟨same.force, same.restore, ?_, same.wave, same.saved, same.firmware, same.owed⟩
    rw [← same.pending]
    simp only [EncInst.IntraPending, BitVec.getLsbD_or, getLsbD_bit, other, decide_false,
      Bool.and_false, Bool.or_false]
  · exact same

/-- An event is a request, a picture, or a change of a rate. -/
theorem encStep_cases (event : EncEvent) :
    (event = .forceKeyFrame ∧
        encStep minVbv maxVbv inst event = { inst with encForceIdr := true, owed := true }) ∨
      (∃ outcome started, event = .startEncode outcome started ∧
        Started inst (encStep minVbv maxVbv inst event) outcome started) ∨
      (event.isStart = false ∧ Unchanged inst (encStep minVbv maxVbv inst event)) := by
  cases event with
  | forceKeyFrame => exact .inl ⟨rfl, rfl⟩
  | startEncode outcome started =>
      exact .inr (.inl ⟨outcome, started, rfl,
        started_startEncode minVbv maxVbv inst outcome started⟩)
  | setBitrate value running =>
      have same : Unchanged inst { inst with bitRate := value } :=
        ⟨rfl, rfl, Iff.rfl, rfl, rfl, rfl, rfl⟩
      exact .inr (.inr ⟨rfl, same.markPending inst _ _ (show 8 ≠ 1 by decide)⟩)
  | setVbvSize value running =>
      have same : Unchanged inst { inst with vbvBufSize := value } :=
        ⟨rfl, rfl, Iff.rfl, rfl, rfl, rfl, rfl⟩
      exact .inr (.inr ⟨rfl, same.markPending inst _ _ (show 9 ≠ 1 by decide)⟩)
  | setFrameRate value running =>
      have same : Unchanged inst { inst with frameRate := value } :=
        ⟨rfl, rfl, Iff.rfl, rfl, rfl, rfl, rfl⟩
      exact .inr (.inr ⟨rfl, same.markPending inst _ _ (show 6 ≠ 1 by decide)⟩)

end Calls

/-! ### What holds of a state -/

/-- No further request, and no update that fails. -/
def EncEvent.Calm (event : EncEvent) : Prop :=
  match event with
  | .forceKeyFrame => False
  | .startEncode outcome _ => outcome = .ok
  | _ => True

/-- A picture that is tried is started. -/
def EncEvent.Starts (event : EncEvent) : Prop :=
  match event with
  | .startEncode _ started => started = true
  | _ => True

section Runs

variable (minVbv maxVbv period : ℕ)

/-- A forced keyframe does not stay: the saved period is the configured one, three further calls
put it back, and a request that is still owed its picture gets it in the next two. -/
structure KeyframeOk (inst : EncInst) : Prop where
  saved : inst.encIdrSavedPeriod = 1 → period = 1
  restored : ∀ later : List EncEvent, (∀ event ∈ later, event.Calm) →
    3 ≤ later.countP EncEvent.isStart →
      (later.foldl (encStep minVbv maxVbv) inst).firmware.intraPeriod = period
  served : inst.owed = true → ∀ later : List EncEvent,
    (∀ event ∈ later, event.Calm ∧ event.Starts) → 2 ≤ later.countP EncEvent.isStart →
      (later.foldl (encStep minVbv maxVbv) inst).owed = false

/-- A restore is not lost before the firmware takes it, and the picture starts in the call that
hands the armed period over for a request not yet served, unless another request is there. -/
def Kept (inst : EncInst) (event : EncEvent) : Prop :=
  match event with
  | .startEncode outcome started =>
      inst.encForceIdr = true ∨
        if inst.encIdrRestore then inst.owed = true → outcome = .ok → started = true ∨ period = 1
        else inst.IntraPending → inst.firmware.intraPeriod = period ∨ outcome.Taken
  | _ => True

instance (inst : EncInst) (event : EncEvent) : Decidable (Kept period inst event) := by
  unfold Kept
  split
  all_goals infer_instance

/-! ### Invariants -/

/-- What holds in every run. -/
structure IdrInv (inst : EncInst) : Prop where
  armed : inst.encIdrRestore = true → inst.openParam.intraPeriod = 1 ∧
    inst.encIdrSavedPeriod = period ∧ inst.IntraPending
  atRest : inst.encIdrRestore = false → inst.openParam.intraPeriod = period
  saved : inst.encIdrSavedPeriod = 0 ∨ inst.encIdrSavedPeriod = period
  firmware : inst.firmware.intraPeriod = 1 ∨ inst.firmware.intraPeriod = period
  owed : inst.owed = true → inst.encForceIdr = false → inst.encIdrRestore = false →
    inst.IntraPending ∨ inst.firmware.intraPeriod = period

/-- The period comes back without help. -/
def Returning (inst : EncInst) : Prop :=
  inst.encForceIdr = true ∨ inst.encIdrRestore = true ∨ inst.IntraPending ∨
    inst.firmware.intraPeriod = period

/-- A request that is owed its picture is still on its way. -/
def Underway (inst : EncInst) : Prop :=
  inst.owed = true → inst.encForceIdr = true ∨ inst.encIdrRestore = true ∨ period = 1

end Runs

section Steps

variable {minVbv maxVbv period : ℕ} {inst after : EncInst}

theorem IdrInv.of_unchanged (inv : IdrInv period inst) (same : Unchanged inst after) :
    IdrInv period after := by
  refine ⟨?_, ?_, ?_, ?_, ?_⟩
  · rw [same.restore, same.wave, same.saved, same.pending]
    exact inv.armed
  · rw [same.restore, same.wave]
    exact inv.atRest
  · rw [same.saved]
    exact inv.saved
  · rw [same.firmware]
    exact inv.firmware
  · rw [same.owed, same.force, same.restore, same.pending, same.firmware]
    exact inv.owed

/-- The period the next update would hand over. -/
theorem IdrInv.wave (inv : IdrInv period inst) :
    inst.openParam.intraPeriod = if inst.encIdrRestore then 1 else period := by
  cases restoring : inst.encIdrRestore with
  | true => exact (inv.armed restoring).1
  | false => exact inv.atRest restoring

theorem IdrInv.of_started {outcome : UpdateOutcome} {started : Bool} (inv : IdrInv period inst)
    (call : Started inst after outcome started) : IdrInv period after := by
  have wave := inv.wave
  refine ⟨?_, ?_, ?_, ?_, ?_⟩
  · rw [call.restore]
    intro forced
    refine ⟨?_, ?_, ?_⟩
    · rw [call.wave, if_pos forced]
    · rw [call.saved]
      cases restoring : inst.encIdrRestore with
      | true => simpa [forced] using (inv.armed restoring).2.1
      | false => simpa [forced] using inv.atRest restoring
    · exact call.pending.mpr (.inl forced)
  · rw [call.restore]
    intro calm
    rw [call.wave]
    cases restoring : inst.encIdrRestore with
    | true => simpa [calm] using (inv.armed restoring).2.1
    | false => simpa [calm] using inv.atRest restoring
  · rw [call.saved]
    cases restoring : inst.encIdrRestore with
    | true => simpa using inv.saved
    | false =>
        split
        · exact .inr (inv.atRest restoring)
        · exact inv.saved
  · rw [call.firmware]
    split
    · rw [wave]
      split
      · exact .inl rfl
      · exact .inr rfl
    · exact inv.firmware
  · intro owed _ restored
    rw [call.restore] at restored
    rw [call.owed] at owed
    simp only [Bool.and_eq_true, Bool.or_eq_true, decide_eq_true_eq] at owed
    rw [call.pending, call.firmware]
    cases restoring : inst.encIdrRestore with
    | true => exact .inl (.inr rfl)
    | false =>
        right
        rcases inv.owed owed.1.1 restored restoring with intra | back
        · have ok : outcome = .ok := by
            rcases owed.1.2 with none | ok
            · simp [EncInst.IntraPending, none] at intra
            · exact ok
          rw [if_pos ⟨intra, .inl ok⟩]
          exact inv.atRest restoring
        · split
          · exact inv.atRest restoring
          · exact back

theorem IdrInv.step (inv : IdrInv period inst) (event : EncEvent) :
    IdrInv period (encStep minVbv maxVbv inst event) := by
  rcases encStep_cases minVbv maxVbv inst event with
    ⟨-, forced⟩ | ⟨outcome, started, -, call⟩ | ⟨-, same⟩
  · rw [forced]
    exact ⟨inv.armed, inv.atRest, inv.saved, inv.firmware, fun _ absurdly => nomatch absurdly⟩
  · exact inv.of_started call
  · exact inv.of_unchanged same

theorem Started.owed_before {outcome : UpdateOutcome} {started : Bool}
    (call : Started inst after outcome started) (owed : after.owed = true) : inst.owed = true := by
  rw [call.owed] at owed
  simp only [Bool.and_eq_true] at owed
  exact owed.1.1

/-- In the call that hands the armed period over, the request is served exactly if the picture
starts. -/
theorem Started.owed_iff_of_restoring {outcome : UpdateOutcome} {started : Bool}
    (call : Started inst after outcome started) (inv : IdrInv period inst)
    (restoring : inst.encIdrRestore = true) :
    (after.owed = true → period = 1) ↔
      (inst.owed = true → outcome = .ok → started = true ∨ period = 1) := by
  rcases inv.armed restoring with ⟨wave, -, intra⟩
  have some : inst.encRateChangePending ≠ 0 := by
    intro none
    simp [EncInst.IntraPending, none] at intra
  have firmware := call.firmware
  have owed := call.owed
  simp only [intra, true_and, wave] at firmware
  rw [decide_eq_false some, Bool.false_or] at owed
  by_cases ok : outcome = .ok
  · subst ok
    rw [if_pos (show UpdateOutcome.ok.Taken from .inl rfl)] at firmware
    rw [owed, firmware]
    cases inst.owed <;> cases started <;> simp
  · rw [owed]
    simp [ok]

/-- Without an edge the firmware ends with the configured period exactly if no restore is lost. -/
theorem Started.firmware_iff_of_resting {outcome : UpdateOutcome} {started : Bool}
    (call : Started inst after outcome started) (inv : IdrInv period inst)
    (resting : inst.encIdrRestore = false)
    (returning : inst.IntraPending ∨ inst.firmware.intraPeriod = period) :
    after.firmware.intraPeriod = period ↔
      (inst.IntraPending → inst.firmware.intraPeriod = period ∨ outcome.Taken) := by
  rw [call.firmware, inv.atRest resting]
  by_cases intra : inst.IntraPending
  · by_cases taken : outcome.Taken
    · simp [intra, taken]
    · simp [intra, taken]
  · simpa [intra] using returning.resolve_left intra

/-- The steps that keep the period returning and the requests underway. -/
theorem returning_and_underway_iff (inv : IdrInv period inst) (returning : Returning period inst)
    (underway : Underway period inst) (event : EncEvent) :
    Returning period (encStep minVbv maxVbv inst event) ∧
        Underway period (encStep minVbv maxVbv inst event) ↔
      Kept period inst event := by
  rcases encStep_cases minVbv maxVbv inst event with
    ⟨rfl, forced⟩ | ⟨outcome, started, rfl, call⟩ | ⟨notStart, same⟩
  · rw [forced]
    exact iff_of_true ⟨.inl rfl, fun _ => .inl rfl⟩ trivial
  · generalize encStep minVbv maxVbv inst _ = after at call
    simp only [Returning, Underway, Kept, call.force, call.restore, call.pending]
    cases forced : inst.encForceIdr with
    | true => simp
    | false =>
        cases restoring : inst.encIdrRestore with
        | true => simpa using call.owed_iff_of_restoring inv restoring
        | false =>
            have served : after.owed = true → period = 1 := by
              intro owed
              simpa [forced, restoring] using underway (call.owed_before owed)
            have back : inst.IntraPending ∨ inst.firmware.intraPeriod = period := by
              simpa [Returning, forced, restoring] using returning
            simp only [Bool.false_eq_true, false_or, if_false, or_self]
            rw [and_iff_left served]
            exact call.firmware_iff_of_resting inv restoring back
  · have kept : Kept period inst event := by
      cases event with
      | startEncode outcome started => cases notStart
      | _ => trivial
    refine iff_of_true ⟨?_, ?_⟩ kept
    · simpa only [Returning, same.force, same.restore, same.pending, same.firmware] using returning
    · simpa only [Underway, same.owed, same.force, same.restore] using underway

/-! ### Looking ahead -/

/-- At most `count` further calls until the firmware holds the configured period for good. -/
def Within (period count : ℕ) (inst : EncInst) : Prop :=
  match count with
  | 0 => inst.encForceIdr = false ∧ inst.encIdrRestore = false ∧
      inst.firmware.intraPeriod = period
  | 1 => inst.encForceIdr = false ∧ inst.encIdrRestore = false ∧
      (inst.IntraPending ∨ inst.firmware.intraPeriod = period)
  | 2 => inst.encForceIdr = false ∧ Returning period inst
  | _ => Returning period inst

theorem Within.of_unchanged {count : ℕ} (within : Within period count inst)
    (same : Unchanged inst after) : Within period count after := by
  unfold Within at within ⊢
  split
  · simpa only [same.force, same.restore, same.firmware] using within
  · simpa only [same.force, same.restore, same.pending, same.firmware] using within
  · simpa only [Returning, same.force, same.restore, same.pending, same.firmware] using within
  · simpa only [Returning, same.force, same.restore, same.pending, same.firmware] using within

/-- A call whose update goes well brings the configured period one call nearer. -/
theorem Within.of_started {count : ℕ} {started : Bool} (within : Within period count inst)
    (inv : IdrInv period inst) (call : Started inst after .ok started) :
    Within period (count - 1) after := by
  have wave := inv.wave
  have firmware := call.firmware
  have taken : UpdateOutcome.ok.Taken := .inl rfl
  simp only [taken, and_true, wave] at firmware
  match count, within with
  | 0, ⟨forced, restoring, back⟩ =>
      refine ⟨call.force, call.restore.trans forced, ?_⟩
      rw [firmware, restoring, back]
      simp
  | 1, ⟨forced, restoring, back⟩ =>
      refine ⟨call.force, call.restore.trans forced, ?_⟩
      rw [firmware, restoring]
      by_cases intra : inst.IntraPending
      · simp [intra]
      · simpa [intra] using back.resolve_left intra
  | 2, ⟨forced, returning⟩ =>
      refine ⟨call.force, call.restore.trans forced, ?_⟩
      rw [call.pending, firmware]
      cases restoring : inst.encIdrRestore with
      | true => exact .inl (.inr rfl)
      | false =>
          right
          by_cases intra : inst.IntraPending
          · simp [intra]
          · simpa [Returning, forced, restoring, intra] using returning
  | count + 3, within =>
      have returning : Returning period inst := within
      have next : Returning period after := by
        unfold Returning
        rw [call.force, call.restore, call.pending, firmware]
        cases forced : inst.encForceIdr with
        | true => simp
        | false =>
            cases restoring : inst.encIdrRestore with
            | true => simp
            | false =>
                by_cases intra : inst.IntraPending
                · simp [intra]
                · simpa [Returning, forced, restoring, intra] using returning
      cases count with
      | zero => exact ⟨call.force, next⟩
      | succ count => exact next

/-- At most `count` further calls until the request has its picture. -/
def ServedWithin (period count : ℕ) (inst : EncInst) : Prop :=
  match count with
  | 0 => inst.owed = false
  | 1 => inst.owed = true → inst.encIdrRestore = true ∨ period = 1
  | _ => Underway period inst

theorem ServedWithin.of_unchanged {count : ℕ} (served : ServedWithin period count inst)
    (same : Unchanged inst after) : ServedWithin period count after := by
  unfold ServedWithin at served ⊢
  split
  · simpa only [same.owed] using served
  · simpa only [same.owed, same.restore] using served
  · simpa only [Underway, same.owed, same.force, same.restore] using served

/-- A picture started while the period is armed serves the request. -/
theorem Started.served {outcome : UpdateOutcome} (call : Started inst after outcome true)
    (inv : IdrInv period inst) (ok : outcome = .ok)
    (armed : inst.encIdrRestore = true ∨ period = 1) : after.owed = false := by
  have firmware := call.firmware
  have taken : UpdateOutcome.ok.Taken := .inl rfl
  subst ok
  have one : after.firmware.intraPeriod = 1 := by
    simp only [taken, and_true, inv.wave] at firmware
    rcases armed with restoring | configured
    · rw [firmware, if_pos (inv.armed restoring).2.2, if_pos restoring]
    · have held := inv.firmware
      rw [configured, or_self] at held
      rw [firmware, configured, held]
      simp
  rw [call.owed, one]
  simp

theorem ServedWithin.of_started {count : ℕ} (served : ServedWithin period count inst)
    (inv : IdrInv period inst) (call : Started inst after .ok true) :
    ServedWithin period (count - 1) after := by
  have still (no : inst.owed = false) : after.owed = false := by
    rw [call.owed, no]
    rfl
  cases owed : inst.owed with
  | false =>
      unfold ServedWithin Underway
      split
      all_goals simp [still owed]
  | true =>
      match count, served with
      | 0, served => exact absurd owed (by rw [served]; decide)
      | 1, served => exact call.served inv rfl (served owed)
      | count + 2, served =>
          have next : after.owed = true → after.encIdrRestore = true ∨ period = 1 := by
            intro owedAfter
            rw [call.restore]
            rcases served owed with forced | restoring | configured
            · exact .inl forced
            · rw [call.served inv rfl (.inl restoring)] at owedAfter
              cases owedAfter
            · exact .inr configured
          cases count with
          | zero => exact next
          | succ count => exact fun owedAfter => .inr (next owedAfter)

/-- Counting down over the calls that go well. -/
theorem countdown (minVbv maxVbv : ℕ) (Near : ℕ → EncInst → Prop) (Also : EncEvent → Prop)
    (of_unchanged : ∀ count inst after, Near count inst → Unchanged inst after → Near count after)
    (of_started : ∀ count inst after started, IdrInv period inst → Near count inst →
      Also (.startEncode .ok started) → Started inst after .ok started → Near (count - 1) after)
    {count : ℕ} (inv : IdrInv period inst) (near : Near count inst)
    {later : List EncEvent} (calm : ∀ event ∈ later, event.Calm ∧ Also event)
    (enough : count ≤ later.countP EncEvent.isStart) :
    Near 0 (later.foldl (encStep minVbv maxVbv) inst) := by
  induction later generalizing inst count with
  | nil =>
      rw [List.countP_nil, Nat.le_zero] at enough
      subst enough
      exact near
  | cons event later ih =>
      rw [List.foldl_cons]
      have rest : ∀ event ∈ later, event.Calm ∧ Also event := fun other mem =>
        calm other (List.mem_cons_of_mem event mem)
      rcases calm event List.mem_cons_self with ⟨first, also⟩
      rw [List.countP_cons] at enough
      rcases encStep_cases minVbv maxVbv inst event with
        ⟨rfl, -⟩ | ⟨outcome, started, rfl, call⟩ | ⟨notStart, same⟩
      · exact absurd first id
      · have ok : outcome = .ok := first
        subst ok
        apply ih (inv.of_started call) (of_started _ _ _ _ inv near also call) rest
        rw [if_pos (show (EncEvent.startEncode .ok started).isStart = true from rfl)] at enough
        omega
      · apply ih (inv.of_unchanged same) (of_unchanged _ _ _ near same) rest
        simpa [notStart] using enough

/-- Nothing brings a lost period back but a new request. -/
theorem not_returning_of_started {outcome : UpdateOutcome} {started : Bool}
    (lost : ¬Returning period inst) (call : Started inst after outcome started) :
    ¬Returning period after := by
  simp only [Returning, not_or] at lost ⊢
  rcases lost with ⟨notForced, notRestoring, notIntra, away⟩
  rw [call.force, call.restore, call.pending, call.firmware]
  simp [notForced, notRestoring, notIntra, away]

/-- Nothing serves a forgotten request. -/
theorem not_underway_of_started {started : Bool} (inv : IdrInv period inst)
    (forgotten : ¬Underway period inst) (call : Started inst after .ok started) :
    ¬Underway period after := by
  simp only [Underway, Classical.not_imp, not_or] at forgotten ⊢
  rcases forgotten with ⟨owed, notForced, notRestoring, notOne⟩
  have resting := Bool.eq_false_iff.mpr notRestoring
  have firmware : after.firmware.intraPeriod = period := by
    have back := inv.owed owed (Bool.eq_false_iff.mpr notForced) resting
    rw [call.firmware_iff_of_resting inv resting back]
    exact fun _ => .inr (.inl rfl)
  rw [call.force, call.restore, call.owed, firmware, owed]
  simp [notForced, notOne]

theorem keyframeOk_iff (inv : IdrInv period inst) :
    KeyframeOk minVbv maxVbv period inst ↔ Returning period inst ∧ Underway period inst := by
  constructor
  · intro ok
    have call (inst : EncInst) : Started inst
        (encStep minVbv maxVbv inst (.startEncode .ok true)) .ok true :=
      started_startEncode minVbv maxVbv inst .ok true
    constructor
    · by_contra lost
      have back := ok.restored (List.replicate 3 (.startEncode .ok true))
        (fun event mem => List.eq_of_mem_replicate mem ▸ rfl) (by decide)
      have first := not_returning_of_started lost (call _)
      have second := not_returning_of_started first (call _)
      have third := not_returning_of_started second (call _)
      exact third (.inr (.inr (.inr back)))
    · by_contra forgotten
      have owed : inst.owed = true := by
        by_contra notOwed
        exact forgotten fun owed => absurd owed notOwed
      have served := ok.served owed (List.replicate 2 (.startEncode .ok true))
        (fun event mem => List.eq_of_mem_replicate mem ▸ ⟨rfl, rfl⟩) (by decide)
      have first := not_underway_of_started inv forgotten (call _)
      have second := not_underway_of_started (inv.step _) first (call _)
      refine second fun still => ?_
      exact absurd (still.symm.trans served) (by decide)
  · rintro ⟨returning, underway⟩
    refine ⟨?_, ?_, ?_⟩
    · intro one
      rcases inv.saved with none | configured
      · omega
      · omega
    · intro later calm enough
      have near : Within period 3 inst := returning
      have reached := countdown minVbv maxVbv (Within period) (fun _ => True)
        (fun _ _ _ near same => near.of_unchanged same)
        (fun _ _ _ _ inv near _ call => near.of_started inv call) inv near
        (fun event mem => ⟨calm event mem, trivial⟩) enough
      exact reached.2.2
    · intro _ later calm enough
      have near : ServedWithin period 2 inst := underway
      refine countdown minVbv maxVbv (ServedWithin period) EncEvent.Starts
        (fun _ _ _ near same => near.of_unchanged same) ?_ inv near calm enough
      intro count inst after started inv near starts call
      have did : started = true := starts
      subst did
      exact near.of_started inv call

end Steps

/-! ### Runs -/

theorem EncInst.opened_inv (period bitRate frameRate vbvBufSize rcMode : ℕ) :
    IdrInv period (.opened period bitRate frameRate vbvBufSize rcMode) :=
  ⟨(nomatch ·), fun _ => rfl, .inl rfl, .inr rfl, (nomatch ·)⟩

/-- A forced keyframe stays temporary, and every request is served, in exactly the runs that keep
every restore and start the picture in every call that hands an armed period over. -/
theorem idrRun_keyframeOk_iff (minVbv maxVbv period bitRate frameRate vbvBufSize rcMode : ℕ)
    {events : List EncEvent} {finish : EncInst}
    (run : Run (fun inst event after => some (encStep minVbv maxVbv inst event) = some after)
      (.opened period bitRate frameRate vbvBufSize rcMode) events finish) :
    (∀ before rest middle, events = before ++ rest →
      Run (fun inst event after => some (encStep minVbv maxVbv inst event) = some after)
        (.opened period bitRate frameRate vbvBufSize rcMode) before middle →
          KeyframeOk minVbv maxVbv period middle) ↔
      Run (fun inst event after => Kept period inst event ∧
        some (encStep minVbv maxVbv inst event) = some after)
        (.opened period bitRate frameRate vbvBufSize rcMode) events finish := by
  have inv := EncInst.opened_inv period bitRate frameRate vbvBufSize rcMode
  refine Run.throughout_iff_guarded_of_invariant ?_ run inv ?_
  · intro inst event after allowed stepped
    cases stepped
    have stays : IdrInv period (encStep minVbv maxVbv inst event) := allowed.step event
    refine ⟨stays, ?_⟩
    rw [keyframeOk_iff allowed, keyframeOk_iff stays]
    rintro ⟨returning, underway⟩
    exact returning_and_underway_iff allowed returning underway event
  · rw [keyframeOk_iff inv]
    exact ⟨.inr (.inr (.inr rfl)), fun absurdly => nomatch absurdly⟩

/-- An instance with a period of 60, as the runs below open it. -/
def openedSixty : EncInst := .opened 60 4000000 30 3000 1

/-- Two requests in consecutive frames, a rate change, and the period back at 60. -/
theorem idrRun_keyframeOk_iff_two : ∃ events finish,
    (∀ before rest middle, events = before ++ rest →
      Run (fun inst event after => some (encStep 10 3000 inst event) = some after)
        openedSixty before middle → KeyframeOk 10 3000 60 middle) ∧
    finish.firmware.intraPeriod = 60 ∧ finish.owed = false ∧
    Run (fun inst event after => some (encStep 10 3000 inst event) = some after)
      openedSixty events finish := by
  have done : (([.forceKeyFrame, .startEncode .interrupted true, .forceKeyFrame,
      .startEncode .ok true, .setBitrate 3000000 true, .startEncode .ok true,
      .startEncode .queryFail false] : List EncEvent).foldlM
      (fun inst event => if Kept 60 inst event then some (encStep 10 3000 inst event) else none)
      openedSixty).any (fun finish => decide (finish.firmware.intraPeriod = 60 ∧
        finish.owed = false)) = true := by decide +kernel
  rcases (Option.any_eq_true _ _).mp done with ⟨finish, reached, back⟩
  have kept := Run.of_foldlM_guarded (Kept 60) (fun inst event => some (encStep 10 3000 inst event))
    reached
  have run := kept.imp fun _ _ _ step => step.2
  have ok := (idrRun_keyframeOk_iff 10 3000 60 4000000 30 3000 1 run).mpr kept
  have back := of_decide_eq_true back
  exact ⟨_, finish, ok, back.1, back.2, run⟩

/-- The update that carries the restore is interrupted, and every later picture is a keyframe; and
a request whose armed picture does not start never gets one. -/
theorem idrRun_not_keyframeOk :
    (¬∀ (events : List EncEvent) (finish : EncInst),
      Run (fun inst event after => some (encStep 10 3000 inst event) = some after)
        openedSixty events finish →
      ∀ later : List EncEvent, (∀ event ∈ later, event.Calm) →
        3 ≤ later.countP EncEvent.isStart →
          (later.foldl (encStep 10 3000) finish).firmware.intraPeriod = 60) ∧
    ¬∀ (events : List EncEvent) (finish : EncInst),
      Run (fun inst event after => some (encStep 10 3000 inst event) = some after)
        openedSixty events finish →
      finish.owed = true → ∀ later : List EncEvent,
        (∀ event ∈ later, event.Calm ∧ event.Starts) → 2 ≤ later.countP EncEvent.isStart →
          (later.foldl (encStep 10 3000) finish).owed = false := by
  constructor
  · intro restored
    have run := Run.of_foldl (encStep 10 3000) openedSixty
      [.forceKeyFrame, .startEncode .ok true, .startEncode .ok true, .startEncode .interrupted true]
    have back := restored _ _ (run.imp fun _ _ _ step => congrArg some step)
      (List.replicate 3 (.startEncode .ok true))
      (fun event mem => List.eq_of_mem_replicate mem ▸ rfl) (by decide)
    exact absurd back (by decide +kernel)
  · intro served
    have run := Run.of_foldl (encStep 10 3000) openedSixty
      [.forceKeyFrame, .startEncode .ok true, .startEncode .ok false]
    have lost := served _ _ (run.imp fun _ _ _ step => congrArg some step) (by decide +kernel)
      (List.replicate 2 (.startEncode .ok true))
      (fun event mem => List.eq_of_mem_replicate mem ▸ ⟨rfl, rfl⟩) (by decide)
    exact absurd lost (by decide +kernel)

end MlKernel.Wave5
