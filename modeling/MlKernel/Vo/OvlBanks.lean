import Mathlib.Logic.Function.Basic
import MlKernel.Vo.Scanout

/-!
# The overlay banks

What an overlay bank reads as after an operation of the driver, and what it has to hold for a
plane to be on the screen.
-/

namespace MlKernel.Vo

open BitField

/-! ### What a plane asks its bank to hold -/

def drmFormatArgb4444 : U32 := 0x32315241

/-- The overlay planes, in the order in which they are set up. -/
inductive OvlPlane
  | hud
  | video0
  | video1
  deriving DecidableEq, Repr

def OvlPlane.all : List OvlPlane := [.hud, .video0, .video1]

/-- The default of the module parameter that names the bank of the HUD. -/
def voBankHud : OvlBank := 1

def OvlPlane.bank (hudBank : OvlBank) : OvlPlane → OvlBank
  | hud => hudBank
  | video0 => 0
  | video1 => 1

def arVoHudFormats : List U32 := [drmFormatArgb4444]
def arVoVidFormats : List U32 := [drmFormatNv12, drmFormatYuv420, drmFormatYvu420]

def OvlPlane.formats : OvlPlane → List U32
  | hud => arVoHudFormats
  | video0 => arVoVidFormats
  | video1 => arVoVidFormats

/-- The format numbers of the controller. -/
def ovlSurface (fourcc : U32) : U32 :=
  if fourcc = drmFormatArgb4444 then 1 else if fourcc = drmFormatNv12 then 17 else 15

/-- The framebuffer plane with the blue chroma, which NV12 has interleaved with the red. -/
def cbPlane (fourcc : U32) : Option ℕ :=
  if fourcc = drmFormatNv12 ∨ fourcc = drmFormatYuv420 then some 1
  else if fourcc = drmFormatYvu420 then some 2
  else none

def crPlane (fourcc : U32) : Option ℕ :=
  if fourcc = drmFormatYuv420 then some 2
  else if fourcc = drmFormatYvu420 then some 1
  else none

/-- What a register has to hold, unless the format does not use it. -/
def OvlPlane.word (plane : OvlPlane) (fb : Framebuffer) (dst : DstRect) : OvlReg → Option U32
  | .config => some ((ovlSurface fb.format <<< 16) ||| voOvlSwizzle ||| voOvlEmit)
  | .alpha => some (if plane = .hud then voOvlAlphaPerpixel else voOvlAlphaOpaque)
  | .base => some (lower32Bits (fb.address 0))
  | .stride => some (fb.pitches 0)
  | .tl => some (packXy dst.x1 dst.y1)
  | .br => some (packXy dst.x2 dst.y2)
  | .size => some (packXy (dst.x2 - dst.x1) (dst.y2 - dst.y1))
  | .uplane => (cbPlane fb.format).map fun i => lower32Bits (fb.address i)
  | .vplane => (crPlane fb.format).map fun i => lower32Bits (fb.address i)
  | .ustride => (cbPlane fb.format).map fb.pitches
  | .vstride => (crPlane fb.format).map fb.pitches
  | .srcGcolor => some 0
  | .dstGcolor => some 0
  | .ckey => some 0
  | .ckeyHi => some 0
  | .clear => some 0

/-- A bank as it reads. -/
def ArVo.bank (vo : ArVo) (hw : Readl) (bank : OvlBank) : OvlReg → U32 :=
  fun reg => vo.readl hw (bank.reg reg)

/-- The words of a plane that shows a framebuffer. -/
def OvlPlane.Shows (plane : OvlPlane) (fb : Framebuffer) (dst : DstRect) (regs : OvlReg → U32) :
    Prop :=
  ∀ reg word, plane.word fb dst reg = some word → regs reg = word

def Emits (regs : OvlReg → U32) : Prop := regs .config &&& voOvlEmit ≠ 0

/-! ### Positions -/

/-- The point, or the size, that a word stands for. -/
def PointAt (word : U32) (x y : ℤ) : Prop :=
  ((word.toNat % 2 ^ 15 : ℕ) : ℤ) = x ∧ ((word.toNat / 2 ^ 15 % 2 ^ 15 : ℕ) : ℤ) = y

/-- A rectangle that the fields of a word can name. -/
structure DstRect.OnScreen (dst : DstRect) : Prop where
  left : 0 ≤ dst.x1
  top : 0 ≤ dst.y1
  width : dst.x1 ≤ dst.x2
  height : dst.y1 ≤ dst.y2
  right : dst.x2 < 2 ^ 15
  bottom : dst.y2 < 2 ^ 15

theorem toNat_field {n : ℤ} (nonneg : 0 ≤ n) (small : n < 2 ^ 15) {mask : U32}
    (fifteen : mask.toNat = 2 ^ 15 - 1) : (BitVec.ofInt 32 n &&& mask).toNat = n.toNat := by
  rcases Int.eq_ofNat_of_zero_le nonneg with ⟨m, rfl⟩
  have below : m < 2 ^ 15 := by exact_mod_cast small
  rw [BitVec.toNat_and, BitVec.toNat_ofInt]
  have whole : ((m : ℤ) % ((2 ^ 32 : ℕ) : ℤ)).toNat = m := by omega
  rw [whole, fifteen]
  exact (Nat.and_two_pow_sub_one_eq_mod m 15).trans (Nat.mod_eq_of_lt below)

theorem packXy_pointAt {x y : ℤ} (left : 0 ≤ x) (top : 0 ≤ y) (right : x < 2 ^ 15)
    (bottom : y < 2 ^ 15) : PointAt (packXy x y) x y := by
  have word : (packXy x y).toNat = 2 ^ 15 * y.toNat + x.toNat := by
    rw [packXy, BitVec.toNat_or, BitVec.toNat_shiftLeft, toNat_field left right rfl,
      toNat_field top bottom rfl, Nat.shiftLeft_eq, Nat.mod_eq_of_lt (by omega), Nat.or_comm,
      Nat.mul_comm]
    exact (Nat.two_pow_add_eq_or_of_lt (by omega) y.toNat).symm
  constructor
  · rw [word]
    omega
  · rw [word]
    omega

/-! ### The hardware -/

/-- The driver holds the lock of the shadow registers. -/
def ArVo.Locked (vo : ArVo) : Prop := voPort.locked (mainCtrl vo.writes) = true

/-- What the driver relies on: an overlay register reads as it was last written, a shadow register
that was written under the lock too, and the soft reset clears the banks. -/
structure OvlHw (hw : Readl) : Prop where
  loads : ∀ (vo : ArVo) (bank : OvlBank) (reg : OvlReg) (value : U32),
    (voPort.shadow (bank.reg reg) = true → vo.Locked) →
      (writel vo value (bank.reg reg)).readl hw (bank.reg reg) = value
  keeps : ∀ (vo : ArVo) (bank : OvlBank) (reg : OvlReg) (offset : ℕ) (value : U32),
    VoReg.regs offset ≠ bank.reg reg →
      (VoReg.regs offset = voGlobal → value &&& voGlobalSreset = 0) →
        (writel vo value (.regs offset)).readl hw (bank.reg reg) = vo.readl hw (bank.reg reg)
  resets : ∀ (vo : ArVo) (bank : OvlBank) (reg : OvlReg) (value : U32),
    value &&& voGlobalSreset ≠ 0 → (writel vo value voGlobal).readl hw (bank.reg reg) = 0

theorem OvlBank.reg_inj {bank other : OvlBank} {reg reg' : OvlReg}
    (same : bank.reg reg = other.reg reg') : bank = other ∧ reg = reg' := by
  have offsets := VoReg.regs.inj same
  have below := bank.isLt
  have below' := other.isLt
  have aligned := reg.offset_aligned
  have aligned' := reg'.offset_aligned
  have sameOffset : reg.offset = reg'.offset := by omega
  refine ⟨Fin.ext (by omega), ?_⟩
  cases reg <;> cases reg' <;> first | rfl | cases sameOffset

/-- An offset between or beside the overlay banks, and not of `VO_GLOBAL`. -/
def BesideBanks : VoReg → Prop
  | .regs offset => (0 < offset ∧ offset < 0x1540) ∨ (0x1800 ≤ offset ∧ offset < 0x1840) ∨
      0x1980 ≤ offset
  | .crg _ => False

instance : (reg : VoReg) → Decidable (BesideBanks reg)
  | .regs offset => inferInstanceAs (Decidable (_ ∨ _ ∨ 0x1980 ≤ offset))
  | .crg _ => isFalse id

theorem BesideBanks.ne {reg : VoReg} (beside : BesideBanks reg) (bank : OvlBank)
    (ovl : OvlReg) : reg ≠ bank.reg ovl := by
  rintro rfl
  have below := bank.isLt
  simp only [OvlBank.reg, BesideBanks] at beside
  cases ovl <;> simp only [OvlReg.offset] at beside <;> omega

theorem mainCtrl_beside : BesideBanks voMainCtrl := by decide

section Hardware

variable {hw : Readl} {vo vo' vo'' : ArVo}

/-- All banks read as they did. -/
def SameBanks (hw : Readl) (vo vo' : ArVo) : Prop := ∀ bank, vo'.bank hw bank = vo.bank hw bank

theorem SameBanks.refl (vo : ArVo) : SameBanks hw vo vo := fun _ => rfl

theorem SameBanks.trans (first : SameBanks hw vo vo') (second : SameBanks hw vo' vo'') :
    SameBanks hw vo vo'' :=
  fun bank => (second bank).trans (first bank)

theorem OvlHw.beside (real : OvlHw hw) (vo : ArVo) {reg : VoReg} (value : U32)
    (beside : BesideBanks reg) : SameBanks hw vo (writel vo value reg) := by
  intro bank
  funext ovl
  have other := beside.ne bank ovl
  rcases reg with offset | offset
  · apply real.keeps vo bank ovl offset value other
    intro isGlobal
    have zero : offset = 0 := VoReg.regs.inj isGlobal
    rw [zero] at beside
    exact absurd beside (by decide)
  · exact beside.elim

theorem OvlHw.besideAll (real : OvlHw hw) (vo : ArVo) {writes : List (U32 × VoReg)}
    (beside : ∀ write ∈ writes, BesideBanks write.2) : SameBanks hw vo (writelAll vo writes) := by
  induction writes generalizing vo with
  | nil => exact .refl vo
  | cons write writes ih =>
      have first := real.beside vo write.1 (beside write List.mem_cons_self)
      exact first.trans (ih _ fun other mem => beside other (List.mem_cons_of_mem _ mem))

/-! ### The primary layer leaves the banks alone -/

theorem arVoSetFbAddr_banks (real : OvlHw hw) (vo : ArVo) (fb : Framebuffer) :
    SameBanks hw vo (arVoSetFbAddr vo fb) := by
  have lock := real.beside vo (vo.curCfg ||| voMainLock) mainCtrl_beside
  refine lock.trans (SameBanks.trans (real.besideAll _ ?_) (real.beside _ _ (by decide)))
  simp only [List.forall_mem_cons]
  exact ⟨by decide, by decide, by decide, nofun⟩

theorem arVoSetLayerCsc_banks (real : OvlHw hw) (vo : ArVo) :
    SameBanks hw vo (arVoSetLayerCsc vo) := by
  have lock := real.beside vo (vo.curCfg ||| voMainLock) mainCtrl_beside
  refine lock.trans (SameBanks.trans (real.besideAll _ ?_) (real.beside _ _ (by decide)))
  decide

theorem arVoProgramLayer_banks (real : OvlHw hw) (vo : ArVo) (fb : Framebuffer) :
    SameBanks hw vo (arVoProgramLayer vo fb) := by
  have strides : SameBanks hw vo (writel vo (fb.pitches 0) voFbStride) :=
    real.beside vo _ (by decide)
  have chroma (vo : ArVo) : SameBanks hw vo (writelAll vo
      [(fb.pitches 1, voUStride), (fb.pitches 2, voVStride), (1, voLayerConfig)]) := by
    apply real.besideAll
    simp only [List.forall_mem_cons]
    exact ⟨by decide, by decide, by decide, nofun⟩
  have format (vo : ArVo) (cfg : U32) :
      SameBanks hw vo (writel { vo with curCfg := cfg } cfg voMainCtrl) :=
    real.beside { vo with curCfg := cfg } cfg (by decide)
  unfold arVoProgramLayer
  cases fb.isYuv with
  | false => exact strides.trans (format _ _)
  | true =>
      have formatted := (strides.trans (chroma _)).trans
        (format _ (arVoFbConfig fb.format &&& ~~~voMainStart))
      exact formatted.trans (arVoSetLayerCsc_banks real _)

theorem arVoShow_banks (real : OvlHw hw) (vo : ArVo) (fb : Framebuffer) :
    SameBanks hw vo (arVoShow vo fb) := by
  have programmed := arVoProgramLayer_banks real vo fb
  have latched := programmed.trans (arVoSetFbAddr_banks real _ fb)
  exact latched.trans (real.beside { (arVoSetFbAddr (arVoProgramLayer vo fb) fb) with
    curCfg := _ } _ (by decide))

theorem arVoPipeUpdate_banks (real : OvlHw hw) (vo : ArVo) (fb : Option Framebuffer) :
    SameBanks hw vo (arVoPipeUpdate vo fb) := by
  cases fb with
  | none => exact .refl vo
  | some fb =>
      simp only [arVoPipeUpdate]
      split
      · exact arVoShow_banks real vo fb
      · exact arVoSetFbAddr_banks real vo fb

theorem arVoPipeDisable_banks (real : OvlHw hw) (vo : ArVo) :
    SameBanks hw vo (arVoPipeDisable vo) :=
  real.beside vo 0 mainCtrl_beside

/-! ### The soft reset -/

def Cleared (hw : Readl) (vo : ArVo) : Prop :=
  ∀ (bank : OvlBank) (reg : OvlReg), vo.readl hw (bank.reg reg) = 0

theorem SameBanks.cleared (same : SameBanks hw vo vo') (cleared : Cleared hw vo) :
    Cleared hw vo' :=
  fun bank reg => (congrFun (same bank) reg).trans (cleared bank reg)

/-- With or without the reset bit, the banks stay clear. -/
theorem Cleared.voGlobal (real : OvlHw hw) (cleared : Cleared hw vo) (value : U32) :
    Cleared hw (writel vo value voGlobal) := by
  intro bank reg
  by_cases reset : value &&& voGlobalSreset = 0
  · have apart : Vo.voGlobal ≠ bank.reg reg := by
      intro same
      have aligned := reg.offset_aligned
      have offsets := VoReg.regs.inj same
      omega
    exact (real.keeps vo bank reg 0 value apart fun _ => reset).trans (cleared bank reg)
  · exact real.resets vo bank reg value reset

theorem or_sreset_ne_zero (g : U32) : (g ||| voGlobalSreset) &&& voGlobalSreset ≠ 0 := by
  intro clear
  have bit := (and_bit_eq_zero (by decide)).mp clear
  rw [voGlobalSreset, getLsbD_or_bit g (by decide)] at bit
  cases bit

theorem arVoPipeEnable_cleared (real : OvlHw hw) (vo : ArVo) (fb : Framebuffer) :
    Cleared hw (arVoPipeEnable hw vo fb) := by
  have pulsed (vo : ArVo) (g : U32) :
      Cleared hw (writelAll vo [(g ||| voGlobalSreset, voGlobal), (g, voGlobal)]) := by
    have reset : Cleared hw (writel vo (g ||| voGlobalSreset) voGlobal) := fun bank reg =>
      real.resets vo bank reg _ (or_sreset_ne_zero g)
    exact reset.voGlobal real g
  have stopped (vo : ArVo) (cleared : Cleared hw vo) : Cleared hw (writel vo 0 voMainCtrl) :=
    (real.beside vo 0 mainCtrl_beside).cleared cleared
  have axi (vo : ArVo) (cleared : Cleared hw vo) :
      Cleared hw (updatelAll vo hw [(voGlobal, (· &&& ~~~voGlobalAxiEn))]) :=
    cleared.voGlobal real _
  have timings : ∀ write ∈ arVo1080p60, BesideBanks write.2 := by decide
  apply (arVoShow_banks real _ fb).cleared
  apply (real.besideAll _ timings).cleared
  exact axi _ (stopped _ (pulsed _ _))

/-! ### What an overlay operation leaves in its bank -/

def storeAll (writes : List (U32 × OvlReg)) (regs : OvlReg → U32) : OvlReg → U32 :=
  writes.foldl (fun regs write => Function.update regs write.2 write.1) regs

def OvlBank.writes (bank : OvlBank) (writes : List (U32 × OvlReg)) : List (U32 × VoReg) :=
  writes.map fun write => (write.1, bank.reg write.2)

theorem OvlBank.reg_ne_voGlobal (bank : OvlBank) (reg : OvlReg) : bank.reg reg ≠ voGlobal := by
  intro same
  have aligned := reg.offset_aligned
  have offsets := VoReg.regs.inj same
  omega

theorem arVoOvlWr_bank (real : OvlHw hw) (vo : ArVo) {bank : OvlBank} {reg : OvlReg}
    (value : U32) (held : voPort.shadow (bank.reg reg) = true → vo.Locked) :
    (arVoOvlWr vo bank reg value).bank hw bank =
      Function.update (vo.bank hw bank) reg value := by
  funext other
  by_cases same : other = reg
  · subst same
    rw [Function.update_self]
    exact real.loads vo bank other value held
  · rw [Function.update_of_ne same]
    refine real.keeps vo bank other _ value ?_ fun isGlobal => ?_
    · intro regs
      exact same (OvlBank.reg_inj regs).2.symm
    · exact absurd isGlobal (bank.reg_ne_voGlobal reg)

theorem arVoOvlWr_elsewhere (real : OvlHw hw) (vo : ArVo) {bank other : OvlBank} (reg : OvlReg)
    (value : U32) (apart : other ≠ bank) :
    (arVoOvlWr vo bank reg value).bank hw other = vo.bank hw other := by
  funext reg'
  refine real.keeps vo other reg' _ value ?_ fun isGlobal => ?_
  · intro regs
    exact apart (OvlBank.reg_inj regs).1.symm
  · exact absurd isGlobal (bank.reg_ne_voGlobal reg)

theorem ArVo.Locked.ovlWr (locked : vo.Locked) (bank : OvlBank) (reg : OvlReg) (value : U32) :
    (arVoOvlWr vo bank reg value).Locked := by
  have same : mainCtrl (arVoOvlWr vo bank reg value).writes = mainCtrl vo.writes :=
    ShadowPort.lastCtrl_of_ne (bank.reg_ne_mainCtrl reg)
  rw [ArVo.Locked, same]
  exact locked

theorem writelAll_bank (real : OvlHw hw) (vo : ArVo) {bank : OvlBank}
    {writes : List (U32 × OvlReg)}
    (held : ∀ write ∈ writes, voPort.shadow (bank.reg write.2) = true → vo.Locked) :
    (writelAll vo (bank.writes writes)).bank hw bank = storeAll writes (vo.bank hw bank) := by
  induction writes generalizing vo with
  | nil => rfl
  | cons write writes ih =>
      have first := arVoOvlWr_bank real vo write.1 (held write List.mem_cons_self)
      have rest := ih (arVoOvlWr vo bank write.2 write.1) fun other mem shadow =>
        (held other (List.mem_cons_of_mem _ mem) shadow).ovlWr bank write.2 write.1
      rw [first] at rest
      exact rest

theorem writelAll_elsewhere (real : OvlHw hw) (vo : ArVo) {bank other : OvlBank}
    (writes : List (U32 × OvlReg)) (apart : other ≠ bank) :
    (writelAll vo (bank.writes writes)).bank hw other = vo.bank hw other := by
  induction writes generalizing vo with
  | nil => rfl
  | cons write writes ih =>
      have first := arVoOvlWr_elsewhere real vo write.2 write.1 apart
      exact (ih (arVoOvlWr vo bank write.2 write.1)).trans first

/-- The registers that `arVoOvlCommit` writes before it takes the lock. -/
def ovlPlain (dst : DstRect) : List (U32 × OvlReg) :=
  [(0, .srcGcolor), (0, .dstGcolor), (0, .ckey), (0, .ckeyHi), (0, .clear),
   (packXy (dst.x2 - dst.x1) (dst.y2 - dst.y1), .size)]

/-- The registers that it writes under the lock. -/
def ovlLatched (dst : DstRect) (y u v : U32) : List (U32 × OvlReg) :=
  [(y, .base), (u, .uplane), (v, .vplane), (packXy dst.x1 dst.y1, .tl),
   (packXy dst.x2 dst.y2, .br)]

/-- The stores, and `EMIT` last. -/
def ovlCommitted (dst : DstRect) (y u v : U32) (regs : OvlReg → U32) : OvlReg → U32 :=
  let regs := storeAll (ovlLatched dst y u v) (storeAll (ovlPlain dst) regs)
  Function.update regs .config (regs .config ||| voOvlEmit)

theorem config_held (bank : OvlBank) :
    voPort.shadow (bank.reg .config) = true → vo.Locked := by
  have quiet : voPort.Quiet (bank.reg .config) := bank.reg_quiet ⟨nofun, nofun, nofun⟩
  intro shadow
  rw [quiet.2] at shadow
  cases shadow

theorem plain_held (bank : OvlBank) {writes : List (U32 × OvlReg)}
    (plain : ∀ write ∈ writes, write.2 ≠ .base ∧ write.2 ≠ .uplane ∧ write.2 ≠ .vplane) :
    ∀ write ∈ writes, voPort.shadow (bank.reg write.2) = true → vo.Locked := by
  intro write mem shadow
  rw [(bank.reg_quiet (plain write mem)).2] at shadow
  cases shadow

/-- The stores outside the lock, the stores under it, and `EMIT`. -/
theorem arVoOvlCommit_stages (hw : Readl) (vo : ArVo) (bank : OvlBank) (dst : DstRect)
    (y u v : U32) : ∃ placed locked latched unlocked,
      placed = writelAll vo (bank.writes (ovlPlain dst)) ∧
      locked = writel placed (vo.curCfg ||| voMainLock) voMainCtrl ∧
      latched = writelAll locked (bank.writes (ovlLatched dst y u v)) ∧
      unlocked = writel latched (vo.curCfg &&& ~~~voMainLock) voMainCtrl ∧
      arVoOvlCommit hw vo bank dst y u v =
        arVoOvlWr unlocked bank .config (arVoOvlRd unlocked hw bank .config ||| voOvlEmit) := by
  have right : dst.x1 + (dst.x2 - dst.x1) = dst.x2 := by omega
  have bottom : dst.y1 + (dst.y2 - dst.y1) = dst.y2 := by omega
  refine ⟨_, _, _, _, rfl, rfl, rfl, rfl, ?_⟩
  simp only [arVoOvlCommit, right, bottom]
  rfl

theorem arVoOvlCommit_bank (real : OvlHw hw) (vo : ArVo) (bank : OvlBank) (dst : DstRect)
    (y u v : U32) : (arVoOvlCommit hw vo bank dst y u v).bank hw bank =
      ovlCommitted dst y u v (vo.bank hw bank) := by
  rcases arVoOvlCommit_stages hw vo bank dst y u v with
    ⟨placed, locked, latched, unlocked, isPlaced, isLocked, isLatched, isUnlocked, emit⟩
  have plain : ∀ write ∈ ovlPlain dst,
      write.2 ≠ .base ∧ write.2 ≠ .uplane ∧ write.2 ≠ .vplane := by
    simp [ovlPlain]
  have held : locked.Locked := by
    have word : mainCtrl locked.writes = vo.curCfg ||| voMainLock := by
      rw [isLocked]
      exact ShadowPort.lastCtrl_ctrl
    rw [ArVo.Locked, word]
    exact getLsbD_or_bit vo.curCfg (by decide)
  have regs : unlocked.bank hw bank =
      storeAll (ovlLatched dst y u v) (storeAll (ovlPlain dst) (vo.bank hw bank)) := by
    rw [isUnlocked, real.beside latched _ mainCtrl_beside bank, isLatched,
      writelAll_bank real locked fun _ _ _ => held, isLocked,
      real.beside placed _ mainCtrl_beside bank, isPlaced,
      writelAll_bank real vo (plain_held bank plain)]
  rw [emit, arVoOvlWr_bank real unlocked _ (config_held bank), ovlCommitted, ← regs]
  rfl

theorem arVoOvlCommit_elsewhere (real : OvlHw hw) (vo : ArVo) {bank other : OvlBank}
    (dst : DstRect) (y u v : U32) (apart : other ≠ bank) :
    (arVoOvlCommit hw vo bank dst y u v).bank hw other = vo.bank hw other := by
  rcases arVoOvlCommit_stages hw vo bank dst y u v with
    ⟨placed, locked, latched, unlocked, isPlaced, isLocked, isLatched, isUnlocked, emit⟩
  rw [emit, arVoOvlWr_elsewhere real unlocked _ _ apart, isUnlocked,
    real.beside latched _ mainCtrl_beside other, isLatched,
    writelAll_elsewhere real locked _ apart, isLocked,
    real.beside placed _ mainCtrl_beside other, isPlaced, writelAll_elsewhere real vo _ apart]

/-- The registers after the commit that follows some stores. -/
theorem ovlCommitted_apply (dst : DstRect) (y u v : U32) (regs : OvlReg → U32) (reg : OvlReg) :
    ovlCommitted dst y u v regs reg =
      match reg with
      | .config => regs .config ||| voOvlEmit
      | .alpha => regs .alpha
      | .base => y
      | .stride => regs .stride
      | .tl => packXy dst.x1 dst.y1
      | .br => packXy dst.x2 dst.y2
      | .size => packXy (dst.x2 - dst.x1) (dst.y2 - dst.y1)
      | .uplane => u
      | .vplane => v
      | .ustride => regs .ustride
      | .vstride => regs .vstride
      | _ => 0 := by
  cases reg <;> rfl

theorem arVoHudUpdate_shows (real : OvlHw hw) (vo : ArVo) (bank : OvlBank) {ns : OvlState}
    {fb : Framebuffer} (shown : ns.fb = some fb) (active : ns.active = true)
    (format : fb.format ∈ arVoHudFormats) :
    OvlPlane.hud.Shows fb ns.dst ((arVoHudUpdate hw vo bank ns).bank hw bank) := by
  have isArgb : fb.format = drmFormatArgb4444 := List.mem_singleton.mp format
  let stores : List (U32 × OvlReg) :=
    [(fb.pitches 0, .stride), (voOvlAlphaPerpixel, .alpha), (voOvlFmtArgb4444, .config)]
  have plain : ∀ write ∈ stores, write.2 ≠ .base ∧ write.2 ≠ .uplane ∧ write.2 ≠ .vplane := by
    simp [stores]
  have update : arVoHudUpdate hw vo bank ns =
      arVoOvlCommit hw (writelAll vo (bank.writes stores)) bank ns.dst
        (lower32Bits (fb.address 0)) (lower32Bits (fb.address 0))
        (lower32Bits (fb.address 0)) := by
    simp only [arVoHudUpdate, shown, active]
    rfl
  rw [update, arVoOvlCommit_bank real, writelAll_bank real vo (plain_held bank plain)]
  intro reg word asked
  rw [ovlCommitted_apply]
  cases reg
  all_goals
    simp [OvlPlane.word, isArgb, ovlSurface, cbPlane, crPlane, drmFormatArgb4444, drmFormatNv12,
      drmFormatYuv420, drmFormatYvu420] at asked
  all_goals exact asked

theorem arVoSurfaceEnum_ovl {fourcc : U32} (format : fourcc ∈ arVoVidFormats) :
    (arVoSurfaceEnum fourcc).1 = ovlSurface fourcc := by
  simp only [arVoVidFormats, List.mem_cons, List.not_mem_nil, or_false] at format
  rcases format with rfl | rfl | rfl
  · decide
  · decide
  · decide

/-- The driver picks the chroma planes by the format as the controller wants them. -/
theorem arVoVidChroma_planes {fb : Framebuffer} (format : fb.format ∈ arVoVidFormats) :
    (∀ i, cbPlane fb.format = some i → (arVoVidChroma fb).1.1 = lower32Bits (fb.address i) ∧
      (arVoVidChroma fb).2.1 = fb.pitches i) ∧
    (∀ i, crPlane fb.format = some i → (arVoVidChroma fb).1.2 = lower32Bits (fb.address i) ∧
      (arVoVidChroma fb).2.2 = fb.pitches i) := by
  simp only [arVoVidFormats, List.mem_cons, List.not_mem_nil, or_false] at format
  rcases format with nv12 | yuv420 | yvu420
  · simp [arVoVidChroma, nv12, cbPlane, crPlane, drmFormatNv12, drmFormatYuv420, drmFormatYvu420]
  · simp [arVoVidChroma, yuv420, cbPlane, crPlane, drmFormatNv12, drmFormatYuv420,
      drmFormatYvu420]
  · simp [arVoVidChroma, yvu420, cbPlane, crPlane, drmFormatNv12, drmFormatYuv420,
      drmFormatYvu420]

theorem arVoVidUpdate_shows (real : OvlHw hw) (vo : ArVo) (bank : OvlBank) {ns : OvlState}
    {fb : Framebuffer} (shown : ns.fb = some fb) (active : ns.active = true)
    (format : fb.format ∈ arVoVidFormats) {plane : OvlPlane} (video : plane ≠ .hud) :
    plane.Shows fb ns.dst ((arVoVidUpdate hw vo bank ns).bank hw bank) := by
  let chroma := arVoVidChroma fb
  let stores : List (U32 × OvlReg) :=
    [(fb.pitches 0, .stride), (chroma.2.1, .ustride), (chroma.2.2, .vstride),
     (voOvlAlphaOpaque, .alpha),
     (((arVoSurfaceEnum fb.format).1 <<< 16) ||| voOvlSwizzle, .config)]
  have plain : ∀ write ∈ stores, write.2 ≠ .base ∧ write.2 ≠ .uplane ∧ write.2 ≠ .vplane := by
    simp [stores]
  have update : arVoVidUpdate hw vo bank ns =
      arVoOvlCommit hw (writelAll vo (bank.writes stores)) bank ns.dst
        (lower32Bits (fb.address 0)) chroma.1.1 chroma.1.2 := by
    simp only [arVoVidUpdate, shown, active]
    rfl
  rw [update, arVoOvlCommit_bank real, writelAll_bank real vo (plain_held bank plain)]
  intro reg word asked
  rw [ovlCommitted_apply]
  have surface := arVoSurfaceEnum_ovl format
  rcases arVoVidChroma_planes format with ⟨cb, cr⟩
  cases reg with
  | config =>
      rw [OvlPlane.word, ← surface] at asked
      exact Option.some.inj asked
  | alpha =>
      rw [OvlPlane.word, if_neg video] at asked
      exact Option.some.inj asked
  | uplane =>
      rcases Option.map_eq_some_iff.mp asked with ⟨i, plane, rfl⟩
      exact (cb i plane).1
  | vplane =>
      rcases Option.map_eq_some_iff.mp asked with ⟨i, plane, rfl⟩
      exact (cr i plane).1
  | ustride =>
      rcases Option.map_eq_some_iff.mp asked with ⟨i, plane, rfl⟩
      exact (cb i plane).2
  | vstride =>
      rcases Option.map_eq_some_iff.mp asked with ⟨i, plane, rfl⟩
      exact (cr i plane).2
  | _ => exact Option.some.inj asked

/-- The update of a plane. -/
def OvlPlane.update (plane : OvlPlane) (hw : Readl) (vo : ArVo) (bank : OvlBank)
    (ns : OvlState) : ArVo :=
  match plane with
  | hud => arVoHudUpdate hw vo bank ns
  | video0 => arVoVidUpdate hw vo bank ns
  | video1 => arVoVidUpdate hw vo bank ns

theorem OvlPlane.update_shows (real : OvlHw hw) (plane : OvlPlane) (vo : ArVo) (bank : OvlBank)
    (ns : OvlState) {fb : Framebuffer} (shown : ns.fb = some fb) (active : ns.active = true)
    (format : fb.format ∈ plane.formats) :
    plane.Shows fb ns.dst ((plane.update hw vo bank ns).bank hw bank) := by
  cases plane with
  | hud => exact arVoHudUpdate_shows real vo bank shown active format
  | video0 => exact arVoVidUpdate_shows real vo bank shown active format nofun
  | video1 => exact arVoVidUpdate_shows real vo bank shown active format nofun

theorem arVoHudUpdate_elsewhere (real : OvlHw hw) (vo : ArVo) {bank other : OvlBank}
    (ns : OvlState) (apart : other ≠ bank) :
    (arVoHudUpdate hw vo bank ns).bank hw other = vo.bank hw other := by
  cases shown : ns.fb with
  | none => simp only [arVoHudUpdate, shown]
  | some fb =>
      simp only [arVoHudUpdate, shown]
      split
      · rfl
      · rw [arVoOvlCommit_elsewhere real _ _ _ _ _ apart, arVoOvlWr_elsewhere real _ _ _ apart,
          arVoOvlWr_elsewhere real _ _ _ apart, arVoOvlWr_elsewhere real _ _ _ apart]

theorem arVoVidUpdate_elsewhere (real : OvlHw hw) (vo : ArVo) {bank other : OvlBank}
    (ns : OvlState) (apart : other ≠ bank) :
    (arVoVidUpdate hw vo bank ns).bank hw other = vo.bank hw other := by
  cases shown : ns.fb with
  | none => simp only [arVoVidUpdate, shown]
  | some fb =>
      simp only [arVoVidUpdate, shown]
      split
      · rfl
      · rw [arVoOvlCommit_elsewhere real _ _ _ _ _ apart, arVoOvlWr_elsewhere real _ _ _ apart,
          arVoOvlWr_elsewhere real _ _ _ apart, arVoOvlWr_elsewhere real _ _ _ apart,
          arVoOvlWr_elsewhere real _ _ _ apart, arVoOvlWr_elsewhere real _ _ _ apart]

theorem OvlPlane.update_elsewhere (real : OvlHw hw) (plane : OvlPlane) (vo : ArVo)
    {bank other : OvlBank} (ns : OvlState) (apart : other ≠ bank) :
    (plane.update hw vo bank ns).bank hw other = vo.bank hw other := by
  cases plane with
  | hud => exact arVoHudUpdate_elsewhere real vo ns apart
  | video0 => exact arVoVidUpdate_elsewhere real vo ns apart
  | video1 => exact arVoVidUpdate_elsewhere real vo ns apart

theorem arVoOvlDisable_emits (real : OvlHw hw) (vo : ArVo) (bank : OvlBank) :
    ¬Emits ((arVoOvlDisable hw vo bank).bank hw bank) := by
  have stored := arVoOvlWr_bank real vo
    (arVoOvlRd vo hw bank .config &&& ~~~voOvlEmit) (config_held bank)
  have config : (arVoOvlDisable hw vo bank).bank hw bank .config =
      arVoOvlRd vo hw bank .config &&& ~~~voOvlEmit :=
    (congrFun stored .config).trans (Function.update_self ..)
  rw [Emits, config, Classical.not_not]
  apply (and_bit_eq_zero (by decide)).mpr
  rw [voOvlEmit, getLsbD_and_not_bit]
  simp

theorem arVoOvlDisable_elsewhere (real : OvlHw hw) (vo : ArVo) {bank other : OvlBank}
    (apart : other ≠ bank) :
    (arVoOvlDisable hw vo bank).bank hw other = vo.bank hw other :=
  arVoOvlWr_elsewhere real vo _ _ apart

end Hardware

end MlKernel.Vo
