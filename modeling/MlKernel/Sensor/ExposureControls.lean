import MlKernel.Lib.Run
import MlKernel.Sensor.Nt99235

/-!
# The two interfaces to exposure and gain

The sensor driver holds exposure and gain twice, as module parameters and as V4L2 controls.
A write to a parameter is copied to both controls; a control that is set is not copied back,
and stream-on commits the parameters.
-/

namespace MlKernel.Sensor

/-- The sensor as it is bound, with its parameters, its controls and its registers. -/
structure Nt99235 where
  mode : Nt99235Mode
  exposureParam : ℤ
  gainParam : ℤ
  exposure : ℤ
  again : ℤ
  /-- Runtime PM references; the sensor is in use while there is one. -/
  users : ℕ
  registers : Exposure
  /-- The values set last, by either interface, in the range of the mode. -/
  lastExposure : ℤ
  lastGain : ℤ

/-- What the control framework makes of a value outside the range of a control. -/
def clampCtrl (low high value : ℤ) : ℤ := max low (min value high)

def clampExposure (mode : Nt99235Mode) (value : ℤ) : ℤ :=
  clampCtrl nt99235ExposureMin mode.ceiling value

def clampGain (value : ℤ) : ℤ := clampCtrl nt99235AgainMin nt99235AgainMax value

/-! ### The driver -/

def nt99235CommitExposure (s : Nt99235) (lines gain : ℤ) : Nt99235 :=
  { s with registers := commitBytes s.mode (.ofInt lines) (.ofInt gain) }

def nt99235SCtrl (s : Nt99235) : Nt99235 :=
  if 0 < s.users then nt99235CommitExposure s s.exposure s.again else s

/-- The framework calls `s_ctrl` for a value that is not the current one. -/
def setExposureCtrl (s : Nt99235) (value : ℤ) : Nt99235 :=
  let value := clampExposure s.mode value
  if value = s.exposure then s else nt99235SCtrl { s with exposure := value }

def setAgainCtrl (s : Nt99235) (value : ℤ) : Nt99235 :=
  let value := clampGain value
  if value = s.again then s else nt99235SCtrl { s with again := value }

def nt99235ApplyLive (s : Nt99235) : Nt99235 :=
  let s := setExposureCtrl s s.exposureParam
  let s := setAgainCtrl s s.gainParam
  if 0 < s.users then nt99235CommitExposure s s.exposureParam s.gainParam else s

/-- The parameters after `param_set_int`, clamped; an exposure has no upper bound here. -/
def nt99235ParamSet (s : Nt99235) (exposure gain : ℤ) : Nt99235 :=
  nt99235ApplyLive
    { s with
      exposureParam := max nt99235ExposureMin exposure
      gainParam := clampGain gain }

def nt99235StartStream (s : Nt99235) : Nt99235 :=
  nt99235CommitExposure s s.exposureParam s.gainParam

/-- `nt99235_init_controls`, with the parameters as `insmod` left them. -/
def nt99235Probe (mode : Nt99235Mode) (exposure gain : Int32) (registers : Exposure) : Nt99235 where
  mode
  exposureParam := max nt99235ExposureMin exposure.toInt
  gainParam := clampGain gain.toInt
  exposure := min (max nt99235ExposureMin exposure.toInt) mode.ceiling
  again := clampGain gain.toInt
  users := 0
  registers
  lastExposure := min (max nt99235ExposureMin exposure.toInt) mode.ceiling
  lastGain := clampGain gain.toInt

inductive ExposureEvent
  | setExposure (value : Int32)
  | setGain (value : Int32)
  | paramExposure (value : Int32)
  | paramGain (value : Int32)
  | streamOn
  | streamOff

def exposureStep (s : Nt99235) : ExposureEvent → Option Nt99235
  | .setExposure value =>
      some (setExposureCtrl { s with lastExposure := clampExposure s.mode value.toInt } value.toInt)
  | .setGain value =>
      some (setAgainCtrl { s with lastGain := clampGain value.toInt } value.toInt)
  | .paramExposure value =>
      some (nt99235ParamSet { s with lastExposure := clampExposure s.mode value.toInt }
        value.toInt s.gainParam)
  | .paramGain value =>
      some (nt99235ParamSet { s with lastGain := clampGain value.toInt }
        s.exposureParam value.toInt)
  | .streamOn => some (nt99235StartStream { s with users := s.users + 1 })
  | .streamOff => if 0 < s.users then some { s with users := s.users - 1 } else none

/-- The sensor and the controls have the values set last. -/
structure FollowsLast (s : Nt99235) : Prop where
  registers : s.registers.Holds s.lastExposure s.lastGain
  exposure : s.exposure = s.lastExposure
  again : s.again = s.lastGain

def InForce (s : Nt99235) : Prop := 0 < s.users → FollowsLast s

/-- Stream-on finds the values set last in the parameters, and so does, for the other of the
two, a write to a parameter while the sensor is in use. -/
def ParamsCurrent (s : Nt99235) : ExposureEvent → Prop
  | .streamOn => clampExposure s.mode s.exposureParam = s.lastExposure ∧ s.gainParam = s.lastGain
  | .paramExposure _ => 0 < s.users → s.gainParam = s.lastGain
  | .paramGain _ => 0 < s.users → clampExposure s.mode s.exposureParam = s.lastExposure
  | .setExposure _ | .setGain _ | .streamOff => True

instance (s : Nt99235) (event : ExposureEvent) : Decidable (ParamsCurrent s event) :=
  match event with
  | .streamOn => inferInstanceAs (Decidable (_ ∧ _))
  | .paramExposure _ | .paramGain _ => inferInstanceAs (Decidable (_ → _))
  | .setExposure _ | .setGain _ | .streamOff => .isTrue trivial

/-! ### The invariant -/

/-- The ranges, and where a control can have its value from. -/
structure ExposureOk (s : Nt99235) : Prop where
  exposureParam : 1 ≤ s.exposureParam ∧ s.exposureParam < 2 ^ 31
  gainParam : 0 ≤ s.gainParam ∧ s.gainParam ≤ 0x60
  exposureRange : 1 ≤ s.exposure ∧ s.exposure ≤ s.mode.ceiling
  againRange : 0 ≤ s.again ∧ s.again ≤ 0x60
  exposure : s.exposure = s.lastExposure ∨ s.exposure = clampExposure s.mode s.exposureParam
  again : s.again = s.lastGain ∨ s.again = s.gainParam

section Clamp

variable {mode : Nt99235Mode} {value : ℤ}

theorem ceiling_pos (mode : Nt99235Mode) : 1 ≤ mode.ceiling ∧ mode.ceiling < 2 ^ 31 := by
  have lines := mode.lines
  have vts := mode.vts.toNat_lt
  unfold Nt99235Mode.ceiling
  omega

theorem clampExposure_range (mode : Nt99235Mode) (value : ℤ) :
    1 ≤ clampExposure mode value ∧ clampExposure mode value ≤ mode.ceiling := by
  have ceiling := ceiling_pos mode
  unfold clampExposure clampCtrl nt99235ExposureMin
  omega

theorem clampGain_range (value : ℤ) : 0 ≤ clampGain value ∧ clampGain value ≤ 0x60 := by
  unfold clampGain clampCtrl nt99235AgainMin nt99235AgainMax
  omega

theorem clampGain_of_range (range : 0 ≤ value ∧ value ≤ 0x60) : clampGain value = value := by
  unfold clampGain clampCtrl nt99235AgainMin nt99235AgainMax
  omega

/-- The commit clamps a parameter as the control is clamped. -/
theorem clampExposure_of_pos (pos : 1 ≤ value) :
    clampExposure mode value = min value mode.ceiling := by
  have ceiling := ceiling_pos mode
  unfold clampExposure clampCtrl nt99235ExposureMin
  omega

theorem clampExposure_param (mode : Nt99235Mode) (value : ℤ) :
    clampExposure mode (max nt99235ExposureMin value) = clampExposure mode value := by
  have ceiling := ceiling_pos mode
  unfold clampExposure clampCtrl nt99235ExposureMin
  omega

end Clamp

section Calls

variable {s : Nt99235}

theorem setExposureCtrl_eq (s : Nt99235) (value : ℤ) :
    setExposureCtrl s value =
      { s with
        exposure := clampExposure s.mode value
        registers :=
          if clampExposure s.mode value ≠ s.exposure ∧ 0 < s.users then
            commitBytes s.mode (.ofInt (clampExposure s.mode value)) (.ofInt s.again)
          else s.registers } := by
  unfold setExposureCtrl nt99235SCtrl nt99235CommitExposure
  by_cases same : clampExposure s.mode value = s.exposure
  · simp [same]
  · by_cases used : 0 < s.users <;> simp [same, used]

theorem setAgainCtrl_eq (s : Nt99235) (value : ℤ) :
    setAgainCtrl s value =
      { s with
        again := clampGain value
        registers :=
          if clampGain value ≠ s.again ∧ 0 < s.users then
            commitBytes s.mode (.ofInt s.exposure) (.ofInt (clampGain value))
          else s.registers } := by
  unfold setAgainCtrl nt99235SCtrl nt99235CommitExposure
  by_cases same : clampGain value = s.again
  · simp [same]
  · by_cases used : 0 < s.users <;> simp [same, used]

theorem nt99235ApplyLive_eq (s : Nt99235) :
    nt99235ApplyLive s =
      { s with
        exposure := clampExposure s.mode s.exposureParam
        again := clampGain s.gainParam
        registers :=
          if 0 < s.users then commitBytes s.mode (.ofInt s.exposureParam) (.ofInt s.gainParam)
          else s.registers } := by
  unfold nt99235ApplyLive nt99235CommitExposure
  simp only [setExposureCtrl_eq, setAgainCtrl_eq]
  by_cases used : 0 < s.users <;> simp [used]

/-- What a commit of a pair in range holds. -/
theorem commit_holds_iff (mode : Nt99235Mode) {lines gain : ℤ} (linesPos : 1 ≤ lines)
    (linesSmall : lines < 2 ^ 31) (gainRange : 0 ≤ gain ∧ gain ≤ 0x60) (lines' gain' : ℤ) :
    (commitBytes mode (.ofInt lines) (.ofInt gain)).Holds lines' gain' ↔
      clampExposure mode lines = lines' ∧ gain = gain' := by
  rw [clampExposure_of_pos linesPos]
  apply commitBytes_holds_iff <;> omega

/-- A commit of the two controls. -/
theorem commit_ctrls_holds {mode : Nt99235Mode} {lines gain : ℤ}
    (linesRange : 1 ≤ lines ∧ lines ≤ mode.ceiling) (gainRange : 0 ≤ gain ∧ gain ≤ 0x60) :
    (commitBytes mode (.ofInt lines) (.ofInt gain)).Holds lines gain := by
  have ceiling := ceiling_pos mode
  refine (commit_holds_iff mode linesRange.1 (by omega) gainRange _ _).mpr ⟨?_, rfl⟩
  rw [clampExposure_of_pos linesRange.1]
  exact Int.min_eq_left linesRange.2

end Calls

section Step

variable {s next : Nt99235}

theorem ExposureOk.setExposure (ok : ExposureOk s) (value : Int32)
    (step : exposureStep s (.setExposure value) = some next) :
    ExposureOk next ∧ (InForce s → InForce next) := by
  cases step
  rw [setExposureCtrl_eq]
  have range := clampExposure_range s.mode value.toInt
  refine ⟨⟨ok.exposureParam, ok.gainParam, range, ok.againRange, .inl rfl, ok.again⟩, ?_⟩
  intro inForce used
  have follows := inForce used
  refine ⟨?_, rfl, follows.again⟩
  by_cases same : clampExposure s.mode value.toInt = s.exposure
  · simp only [same, ne_eq, not_true_eq_false, false_and, if_false]
    rw [follows.exposure]
    exact follows.registers
  · have changed : clampExposure s.mode value.toInt ≠ s.exposure ∧ 0 < s.users := ⟨same, used⟩
    simp only [if_pos changed]
    rw [← follows.again]
    exact commit_ctrls_holds range ok.againRange

theorem ExposureOk.setGain (ok : ExposureOk s) (value : Int32)
    (step : exposureStep s (.setGain value) = some next) :
    ExposureOk next ∧ (InForce s → InForce next) := by
  cases step
  rw [setAgainCtrl_eq]
  have range := clampGain_range value.toInt
  refine ⟨⟨ok.exposureParam, ok.gainParam, ok.exposureRange, range, ok.exposure, .inl rfl⟩, ?_⟩
  intro inForce used
  have follows := inForce used
  refine ⟨?_, follows.exposure, rfl⟩
  by_cases same : clampGain value.toInt = s.again
  · simp only [same, ne_eq, not_true_eq_false, false_and, if_false]
    rw [follows.again]
    exact follows.registers
  · have changed : clampGain value.toInt ≠ s.again ∧ 0 < s.users := ⟨same, used⟩
    simp only [if_pos changed]
    rw [← follows.exposure]
    exact commit_ctrls_holds ok.exposureRange range

/-- After a write to a parameter both controls and, in use, the registers have the parameters. -/
theorem paramSet_inForce_iff (s : Nt99235) {exposure gain : ℤ} (small : exposure < 2 ^ 31) :
    InForce (nt99235ParamSet s exposure gain) ↔
      (0 < s.users → clampExposure s.mode exposure = s.lastExposure ∧
        clampGain gain = s.lastGain) := by
  have param : max nt99235ExposureMin exposure < 2 ^ 31 := by
    unfold nt99235ExposureMin
    omega
  have holds := commit_holds_iff s.mode (Int.le_max_left nt99235ExposureMin exposure)
    param (clampGain_range gain) s.lastExposure s.lastGain
  rw [clampExposure_param] at holds
  unfold nt99235ParamSet
  rw [nt99235ApplyLive_eq]
  constructor
  · intro inForce used
    have registers := (inForce used).registers
    simp only [if_pos used] at registers
    exact holds.mp registers
  · intro same used
    have current := same used
    refine ⟨?_, (clampExposure_param _ _).trans current.1, ?_⟩
    · simp only [if_pos used]
      exact holds.mpr current
    · exact (clampGain_of_range (clampGain_range gain)).trans current.2

theorem paramSet_ok (s : Nt99235) {exposure gain : ℤ} (small : exposure < 2 ^ 31) :
    ExposureOk (nt99235ParamSet s exposure gain) := by
  have param : 1 ≤ max nt99235ExposureMin exposure ∧ max nt99235ExposureMin exposure < 2 ^ 31 := by
    unfold nt99235ExposureMin
    omega
  unfold nt99235ParamSet
  rw [nt99235ApplyLive_eq]
  exact ⟨param, clampGain_range gain, clampExposure_range _ _, clampGain_range _, .inr rfl,
    .inr (clampGain_of_range (clampGain_range gain))⟩

theorem ExposureOk.paramExposure (ok : ExposureOk s) (value : Int32)
    (step : exposureStep s (.paramExposure value) = some next) :
    ExposureOk next ∧ (InForce next ↔ ParamsCurrent s (.paramExposure value)) := by
  cases step
  refine ⟨paramSet_ok _ value.toInt_lt, (paramSet_inForce_iff _ value.toInt_lt).trans ?_⟩
  rw [clampGain_of_range ok.gainParam]
  apply imp_congr_right
  intro _
  exact and_iff_right rfl

theorem ExposureOk.paramGain (ok : ExposureOk s) (value : Int32)
    (step : exposureStep s (.paramGain value) = some next) :
    ExposureOk next ∧ (InForce next ↔ ParamsCurrent s (.paramGain value)) := by
  cases step
  refine ⟨paramSet_ok _ ok.exposureParam.2, (paramSet_inForce_iff _ ok.exposureParam.2).trans ?_⟩
  apply imp_congr_right
  intro _
  exact and_iff_left rfl

/-- Stream-on commits the parameters and leaves the controls. -/
theorem ExposureOk.streamOn (ok : ExposureOk s)
    (step : exposureStep s .streamOn = some next) :
    ExposureOk next ∧ (InForce next ↔ ParamsCurrent s .streamOn) := by
  cases step
  have holds := commit_holds_iff s.mode ok.exposureParam.1 ok.exposureParam.2
    ok.gainParam s.lastExposure s.lastGain
  refine ⟨⟨ok.exposureParam, ok.gainParam, ok.exposureRange, ok.againRange, ok.exposure,
    ok.again⟩, ?_⟩
  constructor
  · intro inForce
    exact holds.mp (inForce (Nat.succ_pos s.users)).registers
  · intro current _
    refine ⟨holds.mpr current, ?_, ?_⟩
    · exact ok.exposure.elim id fun param => param.trans current.1
    · exact ok.again.elim id fun param => param.trans current.2

theorem ExposureOk.streamOff (ok : ExposureOk s)
    (step : exposureStep s .streamOff = some next) :
    ExposureOk next ∧ (InForce s → InForce next) := by
  rcases Option.ite_none_right_eq_some.mp step with ⟨used, stopped⟩
  cases stopped
  refine ⟨⟨ok.exposureParam, ok.gainParam, ok.exposureRange, ok.againRange, ok.exposure,
    ok.again⟩, ?_⟩
  intro inForce _
  exact ⟨(inForce used).registers, (inForce used).exposure, (inForce used).again⟩

theorem ExposureOk.step (ok : ExposureOk s) {event : ExposureEvent}
    (step : exposureStep s event = some next) :
    ExposureOk next ∧ (InForce s → (InForce next ↔ ParamsCurrent s event)) := by
  cases event with
  | setExposure value =>
      rcases ok.setExposure value step with ⟨kept, follows⟩
      exact ⟨kept, fun inForce => iff_of_true (follows inForce) trivial⟩
  | setGain value =>
      rcases ok.setGain value step with ⟨kept, follows⟩
      exact ⟨kept, fun inForce => iff_of_true (follows inForce) trivial⟩
  | paramExposure value =>
      rcases ok.paramExposure value step with ⟨kept, exact⟩
      exact ⟨kept, fun _ => exact⟩
  | paramGain value =>
      rcases ok.paramGain value step with ⟨kept, exact⟩
      exact ⟨kept, fun _ => exact⟩
  | streamOn =>
      rcases ok.streamOn step with ⟨kept, exact⟩
      exact ⟨kept, fun _ => exact⟩
  | streamOff =>
      rcases ok.streamOff step with ⟨kept, follows⟩
      exact ⟨kept, fun inForce => iff_of_true (follows inForce) trivial⟩

end Step

theorem nt99235Probe_ok (mode : Nt99235Mode) (exposure gain : Int32) (registers : Exposure) :
    ExposureOk (nt99235Probe mode exposure gain registers) where
  exposureParam := by
    have small := exposure.toInt_lt
    change 1 ≤ max nt99235ExposureMin _ ∧ max nt99235ExposureMin _ < _
    unfold nt99235ExposureMin
    omega
  gainParam := clampGain_range _
  exposureRange := by
    have ceiling := ceiling_pos mode
    change 1 ≤ min (max nt99235ExposureMin _) _ ∧ min _ _ ≤ mode.ceiling
    unfold nt99235ExposureMin
    omega
  againRange := clampGain_range _
  exposure := .inl rfl
  again := .inl rfl

/-! ### Runs -/

/-- The sensor follows the last setting all the way exactly when the parameters are current at
every stream-on and at every write to the other parameter. -/
theorem exposureRun_inForce_iff (mode : Nt99235Mode) (exposure gain : Int32)
    (registers : Exposure) {events : List ExposureEvent} {finish : Nt99235}
    (run : Run (fun s event next => exposureStep s event = some next)
      (nt99235Probe mode exposure gain registers) events finish) :
    (∀ before rest s, events = before ++ rest →
      Run (fun s event next => exposureStep s event = some next)
        (nt99235Probe mode exposure gain registers) before s → InForce s) ↔
      Run (fun s event next => ParamsCurrent s event ∧ exposureStep s event = some next)
        (nt99235Probe mode exposure gain registers) events finish := by
  have start := nt99235Probe_ok mode exposure gain registers
  refine Run.throughout_iff_guarded_of_invariant ?_ run start ?_
  · intro s event next ok step
    exact ok.step step
  · intro used
    exact absurd used (Nat.lt_irrefl 0)

/-- A control set after the parameters were streamed once, and both in agreement. -/
theorem exposureRun_inForce_iff_sweep : ∃ finish events,
    Run (fun s event next => exposureStep s event = some next)
      (nt99235Probe ⟨0x0465, by decide⟩ 1123 0x3c ⟨0, 0, 0, 0⟩) events finish ∧
    ((∀ before rest s, events = before ++ rest →
      Run (fun s event next => exposureStep s event = some next)
        (nt99235Probe ⟨0x0465, by decide⟩ 1123 0x3c ⟨0, 0, 0, 0⟩) before s → InForce s) ↔
      Run (fun s event next => ParamsCurrent s event ∧ exposureStep s event = some next)
        (nt99235Probe ⟨0x0465, by decide⟩ 1123 0x3c ⟨0, 0, 0, 0⟩) events finish) ∧
    finish.registers = ⟨0x02, 0x58, 0x20, 0x20⟩ := by
  have done : (([.streamOn, .paramExposure 400, .setExposure 600, .setGain 0x20] :
      List ExposureEvent).foldlM exposureStep
        (nt99235Probe ⟨0x0465, by decide⟩ 1123 0x3c ⟨0, 0, 0, 0⟩)).any
          (fun s => decide (s.registers = ⟨0x02, 0x58, 0x20, 0x20⟩)) = true := by decide +kernel
  rcases (Option.any_eq_true _ _).mp done with ⟨finish, reached, registers⟩
  have run := Run.of_foldlM exposureStep reached
  exact ⟨finish, _, run, exposureRun_inForce_iff _ _ _ _ run, of_decide_eq_true registers⟩

/-- An exposure of 400 lines set as a control while the sensor is off: stream-on commits the
1123 lines of the parameter. -/
theorem exposureRun_control_lost : ¬ ∀ (mode : Nt99235Mode) (exposure gain : Int32)
    (registers : Exposure) (events : List ExposureEvent) (s : Nt99235),
    Run (fun s event next => exposureStep s event = some next)
      (nt99235Probe mode exposure gain registers) events s → InForce s := by
  intro follows
  have done : (([.setExposure 400, .streamOn] : List ExposureEvent).foldlM exposureStep
      (nt99235Probe ⟨0x0465, by decide⟩ 1123 0x3c ⟨0, 0, 0, 0⟩)).any
        (fun s => decide (0 < s.users ∧ s.lastExposure = 400 ∧
          s.registers = ⟨0x04, 0x63, 0x3c, 0x3c⟩)) = true := by decide +kernel
  rcases (Option.any_eq_true _ _).mp done with ⟨s, reached, stale⟩
  rcases of_decide_eq_true stale with ⟨used, last, registers⟩
  have holds := (follows _ _ _ _ _ s (Run.of_foldlM _ reached) used).registers.1
  rw [registers, last] at holds
  exact absurd holds (by decide)

end MlKernel.Sensor
