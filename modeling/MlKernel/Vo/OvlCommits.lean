import Mathlib.Data.Finset.Insert
import Mathlib.Data.Fintype.Defs
import MlKernel.Vo.OvlBanks

/-!
# Commits of overlay planes

An atomic commit as the helpers run it: the pipe is disabled, then the planes are updated or
disabled, then the pipe is enabled.
-/

namespace MlKernel.Vo

open BitField

instance : Fintype OvlPlane where
  elems := {.hud, .video0, .video1}
  complete plane := by cases plane <;> decide

/-! ### The checks -/

/-- The state of an overlay plane, which has a CRTC exactly when it has a framebuffer.  The source
rectangle has sixteen fractional bits. -/
structure PlaneState where
  fb : Option Framebuffer
  src : DstRect
  dst : DstRect

def drmPlaneNoScaling : ℕ := 2 ^ 16

/-- `drm_atomic_helper_check_plane_state`: from the plane, whether the CRTC is enabled, the least
and the greatest scaling, and whether the plane may be positioned and may be updated with the
CRTC disabled, the destination clipped to the mode. -/
abbrev CheckPlaneState : Type :=
  PlaneState → Bool → ℕ → ℕ → Bool → Bool → Option DstRect

def arVoOvlCheck (checkPlaneState : CheckPlaneState) (enable : Bool) (ns : PlaneState) :
    Option PlaneState :=
  match ns.fb with
  | none => some ns
  | some _ =>
      (checkPlaneState ns enable drmPlaneNoScaling drmPlaneNoScaling true true).map
        fun dst => { ns with dst }

/-- A commit: the new state of the CRTC, whether it is a modeset, and the new states of the
planes that are part of it. -/
structure Commit where
  enable : Bool
  active : Bool
  modeset : Bool
  primary : Option (Option Framebuffer)
  planes : OvlPlane → Option PlaneState

/-- The state that was committed, the driver, and the planes whose update or disable wrote to
their bank since the pipe was last enabled, newest first. -/
structure Drm where
  vo : ArVo
  enable : Bool
  active : Bool
  primary : Option Framebuffer
  planes : OvlPlane → PlaneState
  touched : List OvlPlane

def Drm.initial : Drm where
  vo := { curFormat := 0, curCfg := 0, writes := [] }
  enable := false
  active := false
  primary := none
  planes _ := { fb := none, src := ⟨0, 0, 0, 0⟩, dst := ⟨0, 0, 0, 0⟩ }
  touched := []

def Commit.checked (checkPlaneState : CheckPlaneState) (c : Commit) (plane : OvlPlane) :
    Option PlaneState :=
  (c.planes plane).bind (arVoOvlCheck checkPlaneState c.enable)

/-- The commits that pass: an active CRTC is enabled, an enabled one has a primary layer, another
mode or power state is a modeset, a modeset has all planes that are on, and the driver takes each
plane and its format. -/
def Accepted (checkPlaneState : CheckPlaneState) (drm : Drm) (c : Commit) : Prop :=
  (c.active = true → c.enable = true) ∧
  (c.primary.getD drm.primary).isSome = c.enable ∧
  (c.modeset = false → c.enable = drm.enable ∧ c.active = drm.active) ∧
  (c.modeset = true → ∀ plane, (drm.planes plane).fb.isSome = true →
    (c.planes plane).isSome = true) ∧
  (∀ plane, (c.planes plane).isSome = true → (c.checked checkPlaneState plane).isSome = true) ∧
  ∀ plane, ∀ ns ∈ c.checked checkPlaneState plane, ∀ fb ∈ ns.fb, fb.format ∈ plane.formats

instance (checkPlaneState : CheckPlaneState) (drm : Drm) (c : Commit) :
    Decidable (Accepted checkPlaneState drm c) :=
  inferInstanceAs (Decidable (_ ∧ _ ∧ _ ∧ _ ∧ _ ∧ _))

/-! ### The commit -/

section Commits

variable (hw : Readl) (hudBank : OvlBank)

/-- `atomic_disable` for a plane that goes off, `atomic_update` for one that is on. -/
def commitPlane (drm : Drm) (plane : OvlPlane) (ns : Option PlaneState) : Drm :=
  match ns with
  | none => drm
  | some ns =>
      let bank := plane.bank hudBank
      let planes := Function.update drm.planes plane ns
      if (drm.planes plane).fb.isSome && ns.fb.isNone then
        { drm with
          vo := arVoOvlDisable hw drm.vo bank
          planes := planes
          touched := plane :: drm.touched }
      else if ns.fb.isSome then
        let new : OvlState := { fb := ns.fb, active := drm.active, dst := ns.dst }
        { drm with
          vo := plane.update hw drm.vo bank new
          planes := planes
          touched := if drm.active then plane :: drm.touched else drm.touched }
      else { drm with planes := planes }

/-- The planes of a commit, in order. -/
def commitPlanes (planes : List OvlPlane) (checked : OvlPlane → Option PlaneState) (drm : Drm) :
    Drm :=
  planes.foldl (fun drm plane => commitPlane hw hudBank drm plane (checked plane)) drm

/-- The pipe goes off, the primary layer is updated and the CRTC has its new state. -/
def commitPrimary (drm : Drm) (c : Commit) : Drm :=
  let vo := if drm.active && c.modeset then arVoPipeDisable drm.vo else drm.vo
  let vo := match c.primary with
    | none => vo
    | some fb => arVoPipeUpdate vo fb
  { drm with
    vo := vo
    enable := c.enable
    active := c.active
    primary := c.primary.getD drm.primary }

def commitEnable (drm : Drm) (c : Commit) : Drm :=
  match drm.primary with
  | none => drm
  | some fb =>
      if c.active && c.modeset then
        { drm with vo := arVoPipeEnable hw drm.vo fb, touched := [] }
      else drm

def drmCommit (checkPlaneState : CheckPlaneState) (drm : Drm) (c : Commit) : Option Drm :=
  if Accepted checkPlaneState drm c then
    let drm := commitPrimary drm c
    let drm := commitPlanes hw hudBank OvlPlane.all (c.checked checkPlaneState) drm
    some (commitEnable hw drm c)
  else none

/-- The plane that wrote to a bank last, since the pipe was enabled. -/
def Drm.lastOn (drm : Drm) (bank : OvlBank) : Option OvlPlane :=
  drm.touched.find? fun plane => plane.bank hudBank = bank

end Commits

/-! ### What the banks show -/

/-- What a plane shows is on the bank with its format, addresses, strides, position and size, and
`EMIT`. -/
structure PlaneShown (hw : Readl) (hudBank : OvlBank) (drm : Drm) (plane : OvlPlane)
    (fb : Framebuffer) : Prop where
  shows : plane.Shows fb (drm.planes plane).dst (drm.vo.bank hw (plane.bank hudBank))
  position : (drm.planes plane).dst.OnScreen →
    PointAt (drm.vo.bank hw (plane.bank hudBank) .tl)
      (drm.planes plane).dst.x1 (drm.planes plane).dst.y1
  size : (drm.planes plane).dst.OnScreen →
    PointAt (drm.vo.bank hw (plane.bank hudBank) .size)
      ((drm.planes plane).dst.x2 - (drm.planes plane).dst.x1)
      ((drm.planes plane).dst.y2 - (drm.planes plane).dst.y1)

/-- A plane that wrote last to its bank is shown, and a bank emits for a plane only that is
shown. -/
structure BanksOk (hw : Readl) (hudBank : OvlBank) (drm : Drm) : Prop where
  shown : ∀ plane fb, (drm.planes plane).fb = some fb →
    drm.lastOn hudBank (plane.bank hudBank) = some plane → PlaneShown hw hudBank drm plane fb
  quiet : ∀ plane, (drm.planes plane).fb = none →
    Emits (drm.vo.bank hw (plane.bank hudBank)) → ∃ other fb, other ≠ plane ∧
      other.bank hudBank = plane.bank hudBank ∧ (drm.planes other).fb = some fb ∧
        PlaneShown hw hudBank drm other fb

section Steps

variable {hw : Readl} {hudBank : OvlBank} {drm : Drm}

/-- With the pipe active, the plane that wrote to a bank last is shown there or is off. -/
structure Showing (hw : Readl) (hudBank : OvlBank) (drm : Drm) : Prop where
  shown : ∀ plane fb, drm.lastOn hudBank (plane.bank hudBank) = some plane →
    (drm.planes plane).fb = some fb →
      plane.Shows fb (drm.planes plane).dst (drm.vo.bank hw (plane.bank hudBank))
  emits : ∀ bank, Emits (drm.vo.bank hw bank) →
    ∃ plane, drm.lastOn hudBank bank = some plane ∧ (drm.planes plane).fb.isSome = true

theorem Drm.lastOn_bank {bank : OvlBank} {plane : OvlPlane}
    (last : drm.lastOn hudBank bank = some plane) : plane.bank hudBank = bank := by
  have found := List.find?_some last
  exact of_decide_eq_true found

/-- A plane that writes to its bank is the last there, and changes the last of no other bank. -/
theorem Drm.lastOn_touch {drm' : Drm} {plane : OvlPlane}
    (touched : drm'.touched = plane :: drm.touched) (bank : OvlBank) :
    drm'.lastOn hudBank bank =
      if bank = plane.bank hudBank then some plane else drm.lastOn hudBank bank := by
  simp only [Drm.lastOn, touched, List.find?_cons]
  by_cases same : bank = plane.bank hudBank
  · simp [same]
  · simp [same, Ne.symm same]

/-- A plane wrote to its bank alone, and is shown there or the bank does not emit. -/
theorem Showing.touch {drm' : Drm} {plane : OvlPlane} {ns : PlaneState}
    (showing : Showing hw hudBank drm) (planes : drm'.planes = Function.update drm.planes plane ns)
    (touched : drm'.touched = plane :: drm.touched)
    (elsewhere : ∀ bank, bank ≠ plane.bank hudBank → drm'.vo.bank hw bank = drm.vo.bank hw bank)
    (shows : ∀ fb, ns.fb = some fb →
      plane.Shows fb ns.dst (drm'.vo.bank hw (plane.bank hudBank)))
    (off : ns.fb = none → ¬Emits (drm'.vo.bank hw (plane.bank hudBank))) :
    Showing hw hudBank drm' := by
  have mine : drm'.planes plane = ns := by
    rw [planes, Function.update_self]
  have others {other : OvlPlane} (ne : other ≠ plane) : drm'.planes other = drm.planes other := by
    rw [planes, Function.update_of_ne ne]
  constructor
  · intro other fb last on
    rw [Drm.lastOn_touch touched] at last
    split at last
    · rcases Option.some.inj last with rfl
      rw [mine] at on ⊢
      exact shows fb on
    · next apart =>
      have ne : other ≠ plane := fun same => apart (same ▸ rfl)
      rw [others ne] at on ⊢
      rw [elsewhere _ apart]
      exact showing.shown other fb last on
  · intro bank emits
    rw [Drm.lastOn_touch touched]
    by_cases same : bank = plane.bank hudBank
    · rw [if_pos same]
      refine ⟨plane, rfl, ?_⟩
      rw [mine]
      cases on : ns.fb with
      | none =>
          rw [same] at emits
          exact absurd emits (off on)
      | some fb => rfl
    · rw [if_neg same]
      rw [elsewhere bank same] at emits
      rcases showing.emits bank emits with ⟨other, last, on⟩
      have ne : other ≠ plane := by
        rintro rfl
        exact same (Drm.lastOn_bank last).symm
      refine ⟨other, last, ?_⟩
      rw [others ne]
      exact on

theorem commitPlane_on (drm : Drm) (plane : OvlPlane) {ns : PlaneState} {fb : Framebuffer}
    (on : ns.fb = some fb) (active : drm.active = true) :
    commitPlane hw hudBank drm plane (some ns) =
      { drm with
        vo := plane.update hw drm.vo (plane.bank hudBank)
          { fb := ns.fb, active := drm.active, dst := ns.dst }
        planes := Function.update drm.planes plane ns
        touched := plane :: drm.touched } := by
  simp [commitPlane, on, active]

theorem commitPlane_off (drm : Drm) (plane : OvlPlane) {ns : PlaneState} (off : ns.fb = none)
    (was : (drm.planes plane).fb.isSome = true) :
    commitPlane hw hudBank drm plane (some ns) =
      { drm with
        vo := arVoOvlDisable hw drm.vo (plane.bank hudBank)
        planes := Function.update drm.planes plane ns
        touched := plane :: drm.touched } := by
  simp [commitPlane, off, was]

theorem commitPlane_stays_off (drm : Drm) (plane : OvlPlane) {ns : PlaneState}
    (off : ns.fb = none) (was : ¬(drm.planes plane).fb.isSome = true) :
    commitPlane hw hudBank drm plane (some ns) =
      { drm with planes := Function.update drm.planes plane ns } := by
  simp [commitPlane, off, was]

/-- A plane leaves the CRTC and the primary layer as they are. -/
theorem commitPlane_crtc (hw : Readl) (hudBank : OvlBank) (drm : Drm) (plane : OvlPlane)
    (ns : Option PlaneState) :
    (commitPlane hw hudBank drm plane ns).active = drm.active ∧
      (commitPlane hw hudBank drm plane ns).primary = drm.primary := by
  cases ns with
  | none => exact ⟨rfl, rfl⟩
  | some ns =>
      simp only [commitPlane]
      split
      · exact ⟨rfl, rfl⟩
      · split <;> exact ⟨rfl, rfl⟩

/-- The plane has no framebuffer before and after. -/
theorem Showing.stays_off (showing : Showing hw hudBank drm) {plane : OvlPlane} {ns : PlaneState}
    (off : ns.fb = none) (was : ¬(drm.planes plane).fb.isSome = true) :
    Showing hw hudBank { drm with planes := Function.update drm.planes plane ns } := by
  constructor
  · intro other fb last on
    by_cases same : other = plane
    · rw [same] at on
      have mine : Function.update drm.planes plane ns plane = ns := Function.update_self ..
      simp only [mine, off] at on
      cases on
    · have kept : Function.update drm.planes plane ns other = drm.planes other :=
        Function.update_of_ne same ..
      simp only [kept] at on ⊢
      exact showing.shown other fb last on
  · intro bank emits
    rcases showing.emits bank emits with ⟨other, last, on⟩
    refine ⟨other, last, ?_⟩
    have ne : other ≠ plane := by
      rintro rfl
      exact was on
    simp only [Function.update_of_ne ne]
    exact on

theorem Showing.commitPlane (real : OvlHw hw) (showing : Showing hw hudBank drm)
    (active : drm.active = true) (plane : OvlPlane) {ns : Option PlaneState}
    (formats : ∀ s ∈ ns, ∀ fb ∈ s.fb, fb.format ∈ plane.formats) :
    Showing hw hudBank (commitPlane hw hudBank drm plane ns) := by
  cases ns with
  | none => exact showing
  | some ns =>
      cases on : ns.fb with
      | some fb =>
          let new : OvlState := { fb := ns.fb, active := drm.active, dst := ns.dst }
          have shows := plane.update_shows real drm.vo (plane.bank hudBank) new on active
            (formats ns rfl fb on)
          rw [commitPlane_on drm plane on active]
          refine showing.touch rfl rfl ?_ ?_ ?_
          · intro bank apart
            exact plane.update_elsewhere real drm.vo new apart
          · intro shown same
            rcases Option.some.inj (on.symm.trans same) with rfl
            exact shows
          · intro off
            rw [on] at off
            cases off
      | none =>
          by_cases was : (drm.planes plane).fb.isSome = true
          · rw [commitPlane_off drm plane on was]
            refine showing.touch rfl rfl ?_ ?_ ?_
            · intro bank apart
              exact arVoOvlDisable_elsewhere real drm.vo apart
            · intro shown same
              rw [on] at same
              cases same
            · intro _
              exact arVoOvlDisable_emits real drm.vo _
          · rw [commitPlane_stays_off drm plane on was]
            exact showing.stays_off on was

theorem commitPlanes_crtc (hw : Readl) (hudBank : OvlBank) (drm : Drm)
    (planes : List OvlPlane) (checked : OvlPlane → Option PlaneState) :
    (commitPlanes hw hudBank planes checked drm).active = drm.active ∧
      (commitPlanes hw hudBank planes checked drm).primary = drm.primary := by
  induction planes generalizing drm with
  | nil => exact ⟨rfl, rfl⟩
  | cons plane planes ih =>
      rcases commitPlane_crtc hw hudBank drm plane (checked plane) with ⟨active, primary⟩
      rcases ih (commitPlane hw hudBank drm plane (checked plane)) with ⟨later, later'⟩
      exact ⟨later.trans active, later'.trans primary⟩

theorem Showing.commitPlanes (real : OvlHw hw) (showing : Showing hw hudBank drm)
    (active : drm.active = true) {checked : OvlPlane → Option PlaneState}
    (formats : ∀ plane, ∀ ns ∈ checked plane, ∀ fb ∈ ns.fb, fb.format ∈ plane.formats)
    (planes : List OvlPlane) : Showing hw hudBank (commitPlanes hw hudBank planes checked drm) := by
  induction planes generalizing drm with
  | nil => exact showing
  | cons plane planes ih =>
      have first := showing.commitPlane real active plane (formats plane)
      have still := (commitPlane_crtc hw hudBank drm plane (checked plane)).1
      exact ih first (still.trans active)

theorem Showing.congr {drm' : Drm} (showing : Showing hw hudBank drm)
    (banks : SameBanks hw drm.vo drm'.vo) (planes : drm'.planes = drm.planes)
    (touched : drm'.touched = drm.touched) : Showing hw hudBank drm' := by
  have last (bank : OvlBank) : drm'.lastOn hudBank bank = drm.lastOn hudBank bank := by
    rw [Drm.lastOn, touched]
    rfl
  constructor
  · intro plane fb isLast on
    rw [last] at isLast
    rw [planes] at on ⊢
    rw [banks]
    exact showing.shown plane fb isLast on
  · intro bank emits
    rw [banks] at emits
    rw [last, planes]
    exact showing.emits bank emits

/-- After the soft reset no bank emits. -/
theorem Showing.of_cleared (cleared : Cleared hw drm.vo) (untouched : drm.touched = []) :
    Showing hw hudBank drm := by
  constructor
  · intro plane fb last
    rw [Drm.lastOn, untouched] at last
    cases last
  · intro bank emits
    have config : drm.vo.bank hw bank .config = 0 := cleared bank .config
    rw [Emits, config] at emits
    exact absurd rfl emits

theorem commitPrimary_banks (real : OvlHw hw) (drm : Drm) (c : Commit) :
    SameBanks hw drm.vo (commitPrimary drm c).vo := by
  have disabled : SameBanks hw drm.vo
      (if drm.active && c.modeset then arVoPipeDisable drm.vo else drm.vo) := by
    split
    · exact arVoPipeDisable_banks real drm.vo
    · exact .refl _
  cases updated : c.primary with
  | none =>
      simp only [commitPrimary, updated]
      exact disabled
  | some fb =>
      simp only [commitPrimary, updated]
      exact disabled.trans (arVoPipeUpdate_banks real _ fb)

theorem commitEnable_of_not_modeset (drm : Drm) {c : Commit} (plain : c.modeset = false) :
    commitEnable hw drm c = drm := by
  cases primary : drm.primary with
  | none => simp only [commitEnable, primary]
  | some fb => simp [commitEnable, primary, plain]

theorem commitEnable_of_modeset (drm : Drm) {c : Commit} {fb : Framebuffer}
    (primary : drm.primary = some fb) (active : c.active = true) (modeset : c.modeset = true) :
    commitEnable hw drm c =
      { drm with vo := arVoPipeEnable hw drm.vo fb, touched := [] } := by
  simp [commitEnable, primary, active, modeset]

theorem commitEnable_active (drm : Drm) (c : Commit) :
    (commitEnable hw drm c).active = drm.active := by
  cases primary : drm.primary with
  | none => simp only [commitEnable, primary]
  | some fb =>
      simp only [commitEnable, primary]
      split <;> rfl

/-- A commit that leaves the CRTC active: it was active before, or the pipe is enabled last. -/
theorem Showing.step (real : OvlHw hw) {checkPlaneState : CheckPlaneState} {c : Commit}
    {next : Drm} (showing : drm.active = true → Showing hw hudBank drm)
    (step : drmCommit hw hudBank checkPlaneState drm c = some next)
    (active : next.active = true) : Showing hw hudBank next := by
  rcases Option.ite_none_right_eq_some.mp step with ⟨accepted, done⟩
  rcases accepted with ⟨enabled, hasPrimary, plain, -, -, formats⟩
  rcases Option.some.inj done with rfl
  have crtc := commitPlanes_crtc hw hudBank (commitPrimary drm c) OvlPlane.all
    (c.checked checkPlaneState)
  have isActive : c.active = true := (crtc.1.symm.trans (commitEnable_active _ c).symm).trans active
  cases modeset : c.modeset with
  | false =>
      rw [commitEnable_of_not_modeset _ modeset]
      have was : drm.active = true := (plain modeset).2.symm.trans isActive
      have primary := (showing was).congr (commitPrimary_banks real drm c) rfl rfl
      exact primary.commitPlanes real isActive formats OvlPlane.all
  | true =>
      rw [enabled isActive] at hasPrimary
      rcases Option.isSome_iff_exists.mp hasPrimary with ⟨fb, primary⟩
      rw [commitEnable_of_modeset _ (crtc.2.trans primary) isActive modeset]
      exact .of_cleared (arVoPipeEnable_cleared real _ fb) rfl

theorem commitRun_showing (real : OvlHw hw) {checkPlaneState : CheckPlaneState}
    {commits : List Commit} {finish : Drm}
    (run : Run (fun drm c next => drmCommit hw hudBank checkPlaneState drm c = some next)
      .initial commits finish) : finish.active = true → Showing hw hudBank finish := by
  apply run.invariant
  · intro drm c next showing step active
    exact Showing.step real showing step active
  · intro active
    cases active

/-- What a plane shows names its position and its size. -/
theorem Showing.planeShown (showing : Showing hw hudBank drm) {plane : OvlPlane}
    {fb : Framebuffer} (on : (drm.planes plane).fb = some fb)
    (last : drm.lastOn hudBank (plane.bank hudBank) = some plane) :
    PlaneShown hw hudBank drm plane fb := by
  have shows := showing.shown plane fb last on
  constructor
  · exact shows
  · rintro ⟨left, top, width, height, right, bottom⟩
    rw [shows .tl _ rfl]
    apply packXy_pointAt <;> omega
  · rintro ⟨left, top, width, height, right, bottom⟩
    rw [shows .size _ rfl]
    apply packXy_pointAt <;> omega

theorem Showing.banksOk (showing : Showing hw hudBank drm) : BanksOk hw hudBank drm := by
  constructor
  · intro plane fb on last
    exact showing.planeShown on last
  · intro plane off emits
    rcases showing.emits _ emits with ⟨other, last, on⟩
    rcases Option.isSome_iff_exists.mp on with ⟨fb, isFb⟩
    have same := Drm.lastOn_bank last
    refine ⟨other, fb, ?_, same, isFb, showing.planeShown isFb (same ▸ last)⟩
    rintro rfl
    rw [off] at isFb
    cases isFb

end Steps

/-- After a commit that leaves the CRTC active, a plane with a framebuffer that was updated since
the pipe was enabled, with nothing of another plane on its bank after it, is shown, and the bank
of a plane without one does not emit for it. -/
theorem commitRun_banksOk {hw : Readl} (real : OvlHw hw) {hudBank : OvlBank}
    {checkPlaneState : CheckPlaneState} {commits : List Commit} {finish : Drm}
    (run : Run (fun drm c next => drmCommit hw hudBank checkPlaneState drm c = some next)
      .initial commits finish) (active : finish.active = true) : BanksOk hw hudBank finish :=
  (commitRun_showing real run active).banksOk

/-! ### Concrete commits -/

/-- Registers that read as they were written, the shadow registers under the lock, with a soft
reset that clears the block. -/
def voFile : Readl
  | [], _ => 0
  | (reg, value) :: writes, r =>
      if reg = r ∧ (voPort.shadow reg = true → voPort.locked (mainCtrl writes) = true) then value
      else if reg = voGlobal ∧ value &&& voGlobalSreset ≠ 0 then
        match r with
        | .regs _ => 0
        | .crg _ => voFile writes r
      else voFile writes r

theorem voFile_real : OvlHw voFile := by
  constructor
  · intro vo bank reg value held
    exact if_pos ⟨rfl, held⟩
  · intro vo bank reg offset value apart released
    have noReset : ¬(VoReg.regs offset = voGlobal ∧ value &&& voGlobalSreset ≠ 0) := by
      rintro ⟨isGlobal, reset⟩
      exact reset (released isGlobal)
    exact (if_neg fun same => apart same.1).trans (if_neg noReset)
  · intro vo bank reg value reset
    have apart : voGlobal ≠ bank.reg reg := (bank.reg_ne_voGlobal reg).symm
    exact (if_neg fun same => apart same.1).trans (if_pos ⟨rfl, reset⟩)

/-- A plane that is not scaled, clipped to 1080p. -/
def clipTo1080p : CheckPlaneState := fun ns _ _ _ _ _ =>
  if ns.src.x2 - ns.src.x1 = (ns.dst.x2 - ns.dst.x1) * 2 ^ 16 ∧
      ns.src.y2 - ns.src.y1 = (ns.dst.y2 - ns.dst.y1) * 2 ^ 16 then
    some ⟨max ns.dst.x1 0, max ns.dst.y1 0, min ns.dst.x2 1920, min ns.dst.y2 1080⟩
  else none

def fullScreen (fb : Framebuffer) : PlaneState where
  fb := some fb
  src := ⟨0, 0, 1920 * 2 ^ 16, 1080 * 2 ^ 16⟩
  dst := ⟨0, 0, 1920, 1080⟩

def planeOff : PlaneState where
  fb := none
  src := ⟨0, 0, 0, 0⟩
  dst := ⟨0, 0, 0, 0⟩

def osdFb : Framebuffer where
  format := drmFormatArgb4444
  isYuv := false
  numPlanes := 1
  pitches _ := 3840
  address _ := 0x21000000

def tileFb : Framebuffer where
  format := drmFormatNv12
  isYuv := true
  numPlanes := 2
  pitches _ := 1920
  address i := if i = 0 then 0x22000000 else 0x22200000

/-- The pipe is enabled with the console on the primary layer. -/
def powerOn (planes : OvlPlane → Option PlaneState) : Commit where
  enable := true
  active := true
  modeset := true
  primary := some (some consoleFb)
  planes := planes

/-- A commit of overlay planes alone. -/
def flip (planes : OvlPlane → Option PlaneState) : Commit where
  enable := true
  active := true
  modeset := false
  primary := none
  planes := planes

def only (plane : OvlPlane) (ns : PlaneState) : OvlPlane → Option PlaneState :=
  Function.update (fun _ => none) plane (some ns)

/-- The commits leave the CRTC active and a plane with a framebuffer that its bank does not
show. -/
def Unshown (commits : List Commit) : Prop :=
  ∃ finish, Run (fun drm c next => drmCommit voFile voBankHud clipTo1080p drm c = some next)
    .initial commits finish ∧ finish.active = true ∧
      ∃ plane fb, (finish.planes plane).fb = some fb ∧
        ¬plane.Shows fb (finish.planes plane).dst (finish.vo.bank voFile (plane.bank voBankHud))

def unshownAt (plane : OvlPlane) (reg : OvlReg) (drm : Drm) : Bool :=
  drm.active && (drm.planes plane).fb.any fun fb =>
    (plane.word fb (drm.planes plane).dst reg).any fun word =>
      drm.vo.bank voFile (plane.bank voBankHud) reg != word

theorem Unshown.of_run {commits : List Commit} (plane : OvlPlane) (reg : OvlReg)
    (found : (commits.foldlM (drmCommit voFile voBankHud clipTo1080p) .initial).any
      (unshownAt plane reg) = true) : Unshown commits := by
  rcases (Option.any_eq_true _ _).mp found with ⟨finish, reached, unshown⟩
  rcases Bool.and_eq_true_iff.mp unshown with ⟨active, unshown⟩
  rcases (Option.any_eq_true _ _).mp unshown with ⟨fb, on, unshown⟩
  rcases (Option.any_eq_true _ _).mp unshown with ⟨word, asked, differs⟩
  refine ⟨finish, Run.of_foldlM _ reached, active, plane, fb, on, ?_⟩
  intro shows
  exact bne_iff_ne.mp differs (shows reg word asked)

/-- A plane in the commit that enables the pipe is cleared with its bank; the HUD and the second
video plane have one bank, whichever is updated last; and going from that plane to the HUD in one
commit turns off the bank after the HUD was set up. -/
theorem commitRun_unshown : OvlHw voFile ∧
    Unshown [powerOn (only .hud (fullScreen osdFb))] ∧
    Unshown [powerOn fun _ => none, flip (only .hud (fullScreen osdFb)),
      flip (only .video1 (fullScreen tileFb))] ∧
    Unshown [powerOn fun _ => none, flip (only .video1 (fullScreen tileFb)),
      flip (Function.update (only .hud (fullScreen osdFb)) .video1 (some planeOff))] := by
  refine ⟨voFile_real, ?_, ?_, ?_⟩
  · exact .of_run .hud .config (by decide +kernel)
  · exact .of_run .hud .base (by decide +kernel)
  · exact .of_run .hud .config (by decide +kernel)

/-- The HUD over a tile, of which the lower half then moves to the upper half of the screen. -/
theorem commitRun_banksOk_osd : ∃ commits finish,
    Run (fun drm c next => drmCommit voFile voBankHud clipTo1080p drm c = some next)
      .initial commits finish ∧
    BanksOk voFile voBankHud finish ∧ commits.length = 3 ∧
    finish.lastOn voBankHud (OvlPlane.hud.bank voBankHud) = some .hud ∧
    finish.lastOn voBankHud (OvlPlane.video0.bank voBankHud) = some .video0 ∧
    finish.vo.bank voFile 0 .br = packXy 1920 540 := by
  let moved : PlaneState := { fullScreen tileFb with
    src := ⟨0, 540 * 2 ^ 16, 1920 * 2 ^ 16, 1080 * 2 ^ 16⟩
    dst := ⟨0, 0, 1920, 540⟩ }
  have done : (([powerOn fun _ => none,
      flip (Function.update (only .hud (fullScreen osdFb)) .video0 (some (fullScreen tileFb))),
      flip (only .video0 moved)] : List Commit).foldlM
        (drmCommit voFile voBankHud clipTo1080p) .initial).any (fun drm => decide (
          drm.active = true ∧
          drm.lastOn voBankHud (OvlPlane.hud.bank voBankHud) = some .hud ∧
          drm.lastOn voBankHud (OvlPlane.video0.bank voBankHud) = some .video0 ∧
          drm.vo.bank voFile 0 .br = packXy 1920 540)) = true := by decide +kernel
  rcases (Option.any_eq_true _ _).mp done with ⟨finish, reached, facts⟩
  rcases of_decide_eq_true facts with ⟨active, hud, video, corner⟩
  have run := Run.of_foldlM _ reached
  exact ⟨_, finish, run, commitRun_banksOk voFile_real run active, rfl, hud, video, corner⟩

end MlKernel.Vo
