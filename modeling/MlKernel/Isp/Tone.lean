import MlKernel.Isp.Codec
import MlKernel.Isp.Ladder
import MlKernel.Lib.Run

/-!
# The tone cache

The gamma and DRC pages are rebuilt only when the selection differs from the one recorded with
the last fill.  The record is a sentinel while a page holds something other than a selection, so
that a page whose record equals the current selection holds what a rebuild would put there.
-/

namespace MlKernel.Isp

/-- Which entries a tone stage builds from, and how they blend. -/
structure TonePick where
  low : UInt32
  high : UInt32
  tQ12 : UInt32
  deriving DecidableEq

/-- No selection. -/
def arIspToneNone : TonePick := ⟨0xffffffff, 0xffffffff, 0xffffffff⟩

/-! ### The trigger selector -/

def arIspToneBandStride : ℕ := 8

/-- The loop of `ar_isp_tone_select` from band `i` on, with `prevHi` the high edge before it. -/
def arIspToneSelectFrom (blob : Bytes) (bands count : ℕ) (scalar : UInt32) :
    (remaining i : ℕ) → (prevHi : UInt32) → TonePick
  | 0, _, _ => ⟨UInt32.ofNat (count - 1), UInt32.ofNat (count - 1), 0⟩
  | remaining + 1, i, prevHi =>
      let lo := arIspF32Q16 (arIspGetLe32 blob (bands + i * arIspToneBandStride)) >>> 8
      let hi := arIspF32Q16 (arIspGetLe32 blob (bands + i * arIspToneBandStride + 4)) >>> 8
      if scalar ≤ hi then
        if lo ≤ scalar ∨ i = 0 then ⟨UInt32.ofNat i, UInt32.ofNat i, 0⟩
        else
          ⟨UInt32.ofNat (i - 1), UInt32.ofNat i,
            (((scalar - prevHi).toUInt64 <<< 12) / (lo - prevHi).toUInt64).toUInt32⟩
      else arIspToneSelectFrom blob bands count scalar remaining (i + 1) hi

def arIspToneSelect (blob : Bytes) (bands count : ℕ) (scalar : UInt32) : TonePick :=
  arIspToneSelectFrom blob bands count scalar count 0 0

def arIspGammaBlobCount : ℕ := 0x26b04
def arIspGammaBlobBands : ℕ := 0x26b0c
def arIspDrcBlobCount : ℕ := 0x17a90
def arIspDrcBlobBands : ℕ := 0x17a9c

/-- A stage selects among the entries its header counts, or all it has room for. -/
def tonePickAmong (blob : Bytes) (countOffset bands entries : ℕ) (scalar : UInt32) : TonePick :=
  let count := (arIspGetLe32 blob countOffset).toNat
  let count := if count < 1 ∨ entries < count then entries else count
  arIspToneSelect blob bands count scalar

def arIspTonePickGamma (blob : Bytes) (scalar : UInt32) : TonePick :=
  tonePickAmong blob arIspGammaBlobCount arIspGammaBlobBands arIspGammaBlobCurves scalar

def arIspTonePickDrc (blob : Bytes) (scalar : UInt32) : TonePick :=
  tonePickAmong blob arIspDrcBlobCount arIspDrcBlobBands arIspDrcBlobProfiles scalar

/-! ### The parameters -/

structure ToneParams where
  toneScalar : Int32
  gammaCurve : Int32
  drcProfile : Int32
  seed : Bool

/-- The trigger scalar if there is one, else the pinned entry if it is one. -/
def tonePick (trigger : UInt32 → TonePick) (toneScalar pinned : Int32) (entries : ℕ) :
    Option TonePick :=
  if 0 ≤ toneScalar then some (trigger toneScalar.toUInt32)
  else if pinned < 0 ∨ (entries : ℤ) ≤ pinned.toInt then none
  else some ⟨pinned.toUInt32, pinned.toUInt32, 0⟩

def arIspToneGammaPick (params : ToneParams) (blob : Bytes) : Option TonePick :=
  tonePick (arIspTonePickGamma blob) params.toneScalar params.gammaCurve arIspGammaBlobCurves

def arIspToneDrcPick (params : ToneParams) (blob : Bytes) : Option TonePick :=
  tonePick (arIspTonePickDrc blob) params.toneScalar params.drcProfile arIspDrcBlobProfiles

/-! ### A pick is not the sentinel -/

theorem toneSelectFrom_low (blob : Bytes) (bands count : ℕ) (scalar : UInt32)
    (some : 0 < count) (few : count ≤ 6) :
    ∀ remaining i prevHi, i + remaining = count →
      (arIspToneSelectFrom blob bands count scalar remaining i prevHi).low.toNat < 6 := by
  intro remaining
  induction remaining with
  | zero =>
      intro i prevHi _
      simp only [arIspToneSelectFrom, UInt32.toNat_ofNat']
      omega
  | succ remaining ih =>
      intro i prevHi position
      simp only [arIspToneSelectFrom]
      split
      · split
        · simp only [UInt32.toNat_ofNat']
          omega
        · simp only [UInt32.toNat_ofNat']
          omega
      · exact ih (i + 1) _ (by omega)

theorem tonePickAmong_low (blob : Bytes) (countOffset bands entries : ℕ) (scalar : UInt32)
    (some : 0 < entries) (few : entries ≤ 6) :
    (tonePickAmong blob countOffset bands entries scalar).low.toNat < 6 := by
  unfold tonePickAmong arIspToneSelect
  apply toneSelectFrom_low
  · split <;> omega
  · split <;> omega
  · omega

theorem pick_ne_none_of_low {pick : TonePick} (low : pick.low.toNat < 6) :
    pick ≠ arIspToneNone := by
  rintro rfl
  exact absurd low (by decide)

theorem tonePick_ne_none {trigger : UInt32 → TonePick} {toneScalar pinned : Int32} {entries : ℕ}
    {pick : TonePick} (triggered : ∀ scalar, (trigger scalar).low.toNat < 6) (few : entries ≤ 6)
    (picked : tonePick trigger toneScalar pinned entries = some pick) : pick ≠ arIspToneNone := by
  apply pick_ne_none_of_low
  unfold tonePick at picked
  split at picked
  · cases picked
    exact triggered _
  · split at picked
    · cases picked
    · next inside =>
        cases picked
        rw [Int32.lt_iff_toInt_lt, Int32.toInt_zero] at inside
        have nonneg : 0 ≤ pinned := by
          rw [Int32.le_iff_toInt_le, Int32.toInt_zero]
          omega
        have value : pinned.toUInt32.toNat = pinned.toInt.toNat := Int32.toNat_toUInt32_of_le nonneg
        rw [value]
        omega

theorem toneGammaPick_ne_none {params : ToneParams} {blob : Bytes} {pick : TonePick}
    (picked : arIspToneGammaPick params blob = some pick) : pick ≠ arIspToneNone := by
  apply tonePick_ne_none _ _ picked
  · intro scalar
    exact tonePickAmong_low blob _ _ _ scalar (by decide) (by decide)
  · decide

theorem toneDrcPick_ne_none {params : ToneParams} {blob : Bytes} {pick : TonePick}
    (picked : arIspToneDrcPick params blob = some pick) : pick ≠ arIspToneNone := by
  apply tonePick_ne_none _ _ picked
  · intro scalar
    exact tonePickAmong_low blob _ _ _ scalar (by decide) (by decide)
  · decide

/-! ### The pages -/

/-- An owned page with the pick it was last filled from. -/
structure TonePage where
  owned : Bool
  bytes : Bytes
  last : TonePick

structure ToneState where
  params : ToneParams
  gamma : TonePage
  drc : TonePage

/-- What is fixed while the driver runs. -/
structure ToneConfig where
  tables : Bool
  tuning : Option Bytes
  constants : ToneConstants

/-- How a stage selects and builds its page: the bytes that are built, and those allocated. -/
structure ToneStage where
  pick : ToneParams → Bytes → Option TonePick
  build : Bytes → TonePick → Bytes → Bytes
  built : ℕ
  size : ℕ

def arIspGammaSize : ℕ := 0x4000

def gammaStage (config : ToneConfig) : ToneStage where
  pick := arIspToneGammaPick
  build blob pick := buildGamma config.constants blob pick.low pick.high pick.tQ12
  built := 2 * arIspGammaPage
  size := arIspGammaSize

def drcStage (config : ToneConfig) : ToneStage where
  pick := arIspToneDrcPick
  build blob pick := buildDrc config.constants blob pick.low pick.high pick.tQ12
  built := arIspDrcSize
  size := arIspDrcSize

/-- `memcpy` of `size` bytes to the start of a page. -/
def copyBytes (source : Bytes) (size : ℕ) (memory : Bytes) : Bytes := fun i =>
  if i < size then source i else memory i

/-- The page as `ar_isp_fill_gamma` and `ar_isp_fill_drc` leave it; `vendor` is the vendor's page
where it can be mapped. -/
def TonePage.fill (page : TonePage) (stage : ToneStage) (tuning : Option Bytes)
    (params : ToneParams) (vendor : Option Bytes) : TonePage :=
  if !page.owned then page
  else
    let bytes :=
      if params.seed then
        match vendor with
        | some source => copyBytes source stage.size page.bytes
        | none => page.bytes
      else copyBytes (fun _ => 0) stage.size page.bytes
    match tuning with
    | none => { page with bytes := bytes }
    | some blob =>
        match stage.pick params blob with
        | none => { page with bytes := bytes }
        | some pick => { page with bytes := stage.build blob pick bytes, last := pick }

def arIspFillGamma (config : ToneConfig) (vendor : Option Bytes) (s : ToneState) : ToneState :=
  { s with gamma := s.gamma.fill (gammaStage config) config.tuning s.params vendor }

def arIspFillDrc (config : ToneConfig) (vendor : Option Bytes) (s : ToneState) : ToneState :=
  { s with drc := s.drc.fill (drcStage config) config.tuning s.params vendor }

/-- As far as the two pages go. -/
def arIspTablesPrepare (s : ToneState) : ToneState :=
  { s with
    gamma := { s.gamma with last := arIspToneNone }
    drc := { s.drc with last := arIspToneNone } }

/-- As far as the two pages go. -/
def arIspTablesApply (config : ToneConfig) (vendorGamma vendorDrc : Option Bytes) (s : ToneState) :
    ToneState :=
  if !config.tables then s
  else
    let s :=
      { s with
        gamma := { s.gamma with last := arIspToneNone }
        drc := { s.drc with last := arIspToneNone } }
    arIspFillDrc config vendorDrc (arIspFillGamma config vendorGamma s)

/-- The selection of a stage that will be filled. -/
def TonePage.wanted (page : TonePage) (stage : ToneStage) (blob : Bytes) (params : ToneParams) :
    Option TonePick :=
  if page.owned then stage.pick params blob else none

def arIspToneChanged (s : ToneState) (gamma drc : TonePick) (force : Bool) : Bool :=
  force || decide (s.gamma.last ≠ gamma) || decide (s.drc.last ≠ drc)

/-- The page of a stage rebuilt and recorded, or recorded as not filled. -/
def TonePage.rebuild (page : TonePage) (stage : ToneStage) (blob : Bytes) (want : Option TonePick) :
    TonePage :=
  match want with
  | some pick => { page with bytes := stage.build blob pick page.bytes, last := pick }
  | none => { page with last := arIspToneNone }

def arIspToneApply (config : ToneConfig) (force : Bool) (s : ToneState) : ToneState :=
  match config.tables, config.tuning with
  | true, some blob =>
      let gamma := s.gamma.wanted (gammaStage config) blob s.params
      let drc := s.drc.wanted (drcStage config) blob s.params
      if arIspToneChanged s (gamma.getD arIspToneNone) (drc.getD arIspToneNone) force then
        { s with
          gamma := s.gamma.rebuild (gammaStage config) blob gamma
          drc := s.drc.rebuild (drcStage config) blob drc }
      else s
  | _, _ => s

/-! ### Runs -/

inductive ToneEvent
  | toneScalar (value : Int32)
  | gammaCurve (value : Int32)
  | drcProfile (value : Int32)
  | seed (value : Bool)
  | tablesApply (vendorGamma vendorDrc : Option Bytes)
  | toneApply (force : Bool)

/-- The event is a call of the driver, not a change of a parameter. -/
def ToneEvent.IsCall : ToneEvent → Prop
  | .tablesApply _ _ => True
  | .toneApply _ => True
  | _ => False

def toneStep (config : ToneConfig) (s : ToneState) : ToneEvent → ToneState
  | .toneScalar value => { s with params := { s.params with toneScalar := value } }
  | .gammaCurve value => { s with params := { s.params with gammaCurve := value } }
  | .drcProfile value => { s with params := { s.params with drcProfile := value } }
  | .seed value => { s with params := { s.params with seed := value } }
  | .tablesApply vendorGamma vendorDrc => arIspTablesApply config vendorGamma vendorDrc s
  | .toneApply force => arIspToneApply config force s

/-- The page is the one built from scratch for the pick. -/
def TonePage.Holds (page : TonePage) (stage : ToneStage) (blob : Bytes) (pick : TonePick) : Prop :=
  ∀ i, i < stage.built → page.bytes i = stage.build blob pick (fun _ => 0) i

/-- A page that is owned and has a valid selection is the one built for it. -/
def TonePage.Fresh (page : TonePage) (stage : ToneStage) (blob : Bytes) (params : ToneParams) :
    Prop :=
  page.owned = true → ∀ pick, stage.pick params blob = some pick → page.Holds stage blob pick

/-! ### One stage -/

/-- What is recorded is what the page holds. -/
def TonePage.Recorded (page : TonePage) (stage : ToneStage) (blob : Bytes) : Prop :=
  page.last ≠ arIspToneNone → page.Holds stage blob page.last

/-- A stage that builds all of its page, and picks nothing that looks like no pick. -/
structure ToneStage.Sound (stage : ToneStage) : Prop where
  fills : ∀ blob pick, Fills (stage.build blob pick) 0 stage.built
  real : ∀ params blob pick, stage.pick params blob = some pick → pick ≠ arIspToneNone

theorem gammaStage_sound (config : ToneConfig) : (gammaStage config).Sound where
  fills blob pick := buildGamma_fills config.constants blob pick.low pick.high pick.tQ12
  real _ _ _ := toneGammaPick_ne_none

theorem drcStage_sound (config : ToneConfig) : (drcStage config).Sound where
  fills blob pick := buildDrc_fills config.constants blob pick.low pick.high pick.tQ12
  real _ _ _ := toneDrcPick_ne_none

section Stage

variable {stage : ToneStage} {page : TonePage} {blob : Bytes} {params : ToneParams}

theorem ToneStage.Sound.holds (sound : stage.Sound) (bytes : Bytes) (pick : TonePick) :
    ∀ i, i < stage.built → stage.build blob pick bytes i = stage.build blob pick (fun _ => 0) i :=
  fun i inside => (sound.fills blob pick).determined _ _ i (Nat.zero_le i) inside

/-- A stage that is rebuilt from the page it holds is left as it is. -/
theorem ToneStage.Sound.build_eq (sound : stage.Sound) {pick : TonePick}
    (holds : page.Holds stage blob pick) : stage.build blob pick page.bytes = page.bytes := by
  funext i
  by_cases inside : i < stage.built
  · rw [sound.holds page.bytes pick i inside, holds i inside]
  · exact (sound.fills blob pick).frame _ i (.inr (Nat.le_of_not_lt inside))

theorem TonePage.fill_recorded (sound : stage.Sound) (page : TonePage) (blob : Bytes)
    (params : ToneParams) (vendor : Option Bytes) (unrecorded : page.last = arIspToneNone) :
    (page.fill stage (some blob) params vendor).Recorded stage blob ∧
      (page.fill stage (some blob) params vendor).Fresh stage blob params := by
  unfold TonePage.fill
  split
  · next unowned =>
      refine ⟨fun recorded => absurd unrecorded recorded, ?_⟩
      intro owned
      simp [owned] at unowned
  · simp only
    split
    · next unpicked =>
        refine ⟨fun recorded => absurd unrecorded recorded, ?_⟩
        intro _ pick picked
        rw [unpicked] at picked
        cases picked
    · next pick picked =>
        refine ⟨fun _ => sound.holds _ pick, ?_⟩
        intro _ other same
        cases picked.symm.trans same
        exact sound.holds _ pick

theorem TonePage.rebuild_recorded (sound : stage.Sound) (want : Option TonePick) :
    (page.rebuild stage blob want).Recorded stage blob := by
  cases want with
  | none => exact fun recorded => absurd rfl recorded
  | some pick => exact fun _ => sound.holds _ pick

theorem TonePage.rebuild_fresh (sound : stage.Sound) :
    (page.rebuild stage blob (page.wanted stage blob params)).Fresh stage blob params := by
  intro owned pick picked
  have still : page.owned = true := by
    unfold TonePage.rebuild at owned
    split at owned <;> exact owned
  have want : page.wanted stage blob params = some pick := by simp [TonePage.wanted, still, picked]
  rw [want]
  exact sound.holds _ pick

/-- A page whose record is the selection is the page built for it. -/
theorem TonePage.Recorded.fresh (sound : stage.Sound) (recorded : page.Recorded stage blob)
    (unchanged : page.last = (page.wanted stage blob params).getD arIspToneNone) :
    page.Fresh stage blob params := by
  intro owned pick picked
  have last : page.last = pick := by simpa [TonePage.wanted, owned, picked] using unchanged
  rw [← last]
  apply recorded
  rw [last]
  exact sound.real params blob pick picked

/-- Rebuilding a page whose record is the selection changes nothing. -/
theorem TonePage.Recorded.rebuild_eq (sound : stage.Sound) (recorded : page.Recorded stage blob)
    (unchanged : page.last = (page.wanted stage blob params).getD arIspToneNone) :
    page.rebuild stage blob (page.wanted stage blob params) = page := by
  have fresh := recorded.fresh sound unchanged
  rcases want : page.wanted stage blob params with _ | pick
  · rw [want] at unchanged
    simp only [TonePage.rebuild, ← show page.last = arIspToneNone from unchanged]
  · rw [want] at unchanged
    have last : page.last = pick := unchanged
    have owned : page.owned = true := by
      by_contra unowned
      simp [TonePage.wanted, unowned] at want
    have picked : stage.pick params blob = some pick := by simpa [TonePage.wanted, owned] using want
    have built := sound.build_eq (fresh owned pick picked)
    subst last
    simp only [TonePage.rebuild, built]

end Stage

/-! ### The driver -/

/-- What both pages hold is what is recorded for them. -/
structure ToneRecorded (config : ToneConfig) (blob : Bytes) (s : ToneState) : Prop where
  gamma : s.gamma.Recorded (gammaStage config) blob
  drc : s.drc.Recorded (drcStage config) blob

/-- Both pages are the ones built for the current selection. -/
structure ToneFresh (config : ToneConfig) (blob : Bytes) (s : ToneState) : Prop where
  gamma : s.gamma.Fresh (gammaStage config) blob s.params
  drc : s.drc.Fresh (drcStage config) blob s.params

section Driver

variable {config : ToneConfig} {blob : Bytes} {s : ToneState}

theorem tablesPrepare_recorded (s : ToneState) :
    ToneRecorded config blob (arIspTablesPrepare s) where
  gamma recorded := absurd rfl recorded
  drc recorded := absurd rfl recorded

theorem tablesApply_recorded (tables : config.tables = true) (tuned : config.tuning = some blob)
    (vendorGamma vendorDrc : Option Bytes) (s : ToneState) :
    ToneRecorded config blob (arIspTablesApply config vendorGamma vendorDrc s) ∧
      ToneFresh config blob (arIspTablesApply config vendorGamma vendorDrc s) := by
  have gamma := TonePage.fill_recorded (gammaStage_sound config)
    { s.gamma with last := arIspToneNone } blob s.params vendorGamma rfl
  have drc := TonePage.fill_recorded (drcStage_sound config)
    { s.drc with last := arIspToneNone } blob s.params vendorDrc rfl
  simp only [arIspTablesApply, arIspFillDrc, arIspFillGamma, tables, tuned]
  exact ⟨⟨gamma.1, drc.1⟩, ⟨gamma.2, drc.2⟩⟩

/-- What an apply that is not skipped leaves. -/
def ToneState.rebuilt (config : ToneConfig) (blob : Bytes) (s : ToneState) : ToneState :=
  { s with
    gamma := s.gamma.rebuild (gammaStage config) blob
      (s.gamma.wanted (gammaStage config) blob s.params)
    drc := s.drc.rebuild (drcStage config) blob (s.drc.wanted (drcStage config) blob s.params) }

theorem ToneState.rebuilt_recorded (config : ToneConfig) (blob : Bytes) (s : ToneState) :
    ToneRecorded config blob (s.rebuilt config blob) ∧
      ToneFresh config blob (s.rebuilt config blob) := by
  refine ⟨⟨?_, ?_⟩, ⟨?_, ?_⟩⟩
  · exact TonePage.rebuild_recorded (gammaStage_sound config) _
  · exact TonePage.rebuild_recorded (drcStage_sound config) _
  · exact TonePage.rebuild_fresh (gammaStage_sound config)
  · exact TonePage.rebuild_fresh (drcStage_sound config)

/-- An apply rebuilds both pages, or it was not forced and finds both records to be the
selection. -/
theorem toneApply_cases (tables : config.tables = true) (tuned : config.tuning = some blob)
    (force : Bool) (s : ToneState) :
    arIspToneApply config force s = s.rebuilt config blob ∨
      force = false ∧ arIspToneApply config force s = s ∧
        s.gamma.last = (s.gamma.wanted (gammaStage config) blob s.params).getD arIspToneNone ∧
        s.drc.last = (s.drc.wanted (drcStage config) blob s.params).getD arIspToneNone := by
  simp only [arIspToneApply, tables, tuned]
  split
  · exact .inl rfl
  · next unchanged =>
      refine .inr ?_
      simpa [arIspToneChanged, and_assoc] using unchanged

/-- A skipped apply is one whose rebuild would change nothing. -/
theorem ToneRecorded.skipped (recorded : ToneRecorded config blob s)
    (gamma : s.gamma.last = (s.gamma.wanted (gammaStage config) blob s.params).getD arIspToneNone)
    (drc : s.drc.last = (s.drc.wanted (drcStage config) blob s.params).getD arIspToneNone) :
    s.rebuilt config blob = s := by
  have gammaSame := recorded.gamma.rebuild_eq (gammaStage_sound config) gamma
  have drcSame := recorded.drc.rebuild_eq (drcStage_sound config) drc
  simp only [ToneState.rebuilt, gammaSame, drcSame]

theorem ToneRecorded.toneApply (recorded : ToneRecorded config blob s)
    (tables : config.tables = true) (tuned : config.tuning = some blob) (force : Bool) :
    arIspToneApply config force s = s.rebuilt config blob := by
  rcases toneApply_cases tables tuned force s with rebuilt | ⟨_, skipped, gamma, drc⟩
  · exact rebuilt
  · rw [skipped, recorded.skipped gamma drc]

theorem ToneRecorded.step (recorded : ToneRecorded config blob s) (tables : config.tables = true)
    (tuned : config.tuning = some blob) (event : ToneEvent) :
    ToneRecorded config blob (toneStep config s event) ∧
      (event.IsCall → ToneFresh config blob (toneStep config s event)) := by
  cases event with
  | toneScalar value => exact ⟨⟨recorded.gamma, recorded.drc⟩, nofun⟩
  | gammaCurve value => exact ⟨⟨recorded.gamma, recorded.drc⟩, nofun⟩
  | drcProfile value => exact ⟨⟨recorded.gamma, recorded.drc⟩, nofun⟩
  | seed value => exact ⟨⟨recorded.gamma, recorded.drc⟩, nofun⟩
  | tablesApply vendorGamma vendorDrc =>
      have applied := tablesApply_recorded tables tuned vendorGamma vendorDrc s
      exact ⟨applied.1, fun _ => applied.2⟩
  | toneApply force =>
      have rebuilt := ToneState.rebuilt_recorded config blob s
      rw [← recorded.toneApply tables tuned force] at rebuilt
      exact ⟨rebuilt.1, fun _ => rebuilt.2⟩

/-- After every call of every run each owned page with a valid selection is the one built for it,
and an apply that is not forced always leaves what a forced one would. -/
theorem toneCache_never_stale (config : ToneConfig) (blob : Bytes) (tables : config.tables = true)
    (tuned : config.tuning = some blob) (s : ToneState) (events : List ToneEvent) :
    let reached := events.foldl (toneStep config) (arIspTablesPrepare s)
    (∀ event : ToneEvent, event.IsCall → ToneFresh config blob (toneStep config reached event)) ∧
      arIspToneApply config false reached = arIspToneApply config true reached := by
  intro reached
  have recorded : ToneRecorded config blob reached := by
    refine Run.foldl_invariant _ ?_ (tablesPrepare_recorded s) events
    intro state event recorded
    exact (recorded.step tables tuned event).1
  constructor
  · intro event
    exact (recorded.step tables tuned event).2
  · rw [recorded.toneApply tables tuned false, recorded.toneApply tables tuned true]

theorem toneCache_never_stale_pinned :
    let config : ToneConfig :=
      ⟨true, some (fun _ => 0), ⟨fun _ => 0x7ff, 0x7ff, fun _ => 0x100, fun _ => 0x200⟩⟩
    let page : TonePage := ⟨true, fun _ => 0xff, ⟨0, 0, 0⟩⟩
    let events : List ToneEvent := [.gammaCurve 7, .toneApply false, .gammaCurve 3]
    ToneFresh config (fun _ => 0)
      (toneStep config
        (events.foldl (toneStep config) (arIspTablesPrepare ⟨⟨-1, 0, 5, true⟩, page, page⟩))
        (.toneApply false)) :=
  (toneCache_never_stale _ _ rfl rfl _ _).1 (.toneApply false) trivial

end Driver

end MlKernel.Isp
