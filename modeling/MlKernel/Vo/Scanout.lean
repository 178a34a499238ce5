import MlKernel.Lib.Run
import MlKernel.Vo.ArtosynVo

/-!
# Scanout

What each operation of the display driver leaves in `VO_MAIN_CTRL` and in the driver's copy of
it, over the sequences in which the atomic helpers call them.
-/

namespace MlKernel.Vo

open BitField

/-- The address registers of the primary layer and of the overlay banks. -/
def IsAddress (reg : VoReg) : Prop :=
  reg = voFbBase0 ∨ reg = voPlane2Base ∨ reg = voPlane3Base ∨
    ∃ bank : OvlBank, reg = bank.reg .base ∨ reg = bank.reg .uplane ∨ reg = bank.reg .vplane

instance (reg : VoReg) : Decidable (IsAddress reg) := inferInstanceAs (Decidable (_ ∨ _))

/-- `LOCK` is bit 3 of `VO_MAIN_CTRL`. -/
def voPort : ShadowPort VoReg U32 where
  ctrl := voMainCtrl
  locked word := word.getLsbD 3
  shadow reg := decide (IsAddress reg)
  ctrl_not_shadow := by decide

/-- `VO_MAIN_CTRL` as last written, zero before the first write. -/
def mainCtrl (writes : List (VoReg × U32)) : U32 := voPort.lastCtrl 0 writes

/-! ### Overlay registers -/

theorem OvlReg.offset_aligned (reg : OvlReg) : reg.offset % 0x40 = 0 ∧ 0x1540 ≤ reg.offset := by
  cases reg <;> decide

theorem OvlBank.reg_ne_mainCtrl (bank : OvlBank) (reg : OvlReg) : bank.reg reg ≠ voMainCtrl := by
  have aligned := reg.offset_aligned
  intro same
  have offsets := VoReg.regs.inj same
  omega

theorem OvlBank.reg_quiet (bank : OvlBank) {reg : OvlReg}
    (plain : reg ≠ .base ∧ reg ≠ .uplane ∧ reg ≠ .vplane) : voPort.Quiet (bank.reg reg) := by
  have aligned := reg.offset_aligned
  have below := bank.isLt
  have base : OvlReg.base.offset = 0x15c0 := rfl
  have uplane : OvlReg.uplane.offset = 0x1840 := rfl
  have vplane : OvlReg.vplane.offset = 0x1880 := rfl
  have far : reg.offset ≠ 0x15c0 ∧ reg.offset ≠ 0x1840 ∧ reg.offset ≠ 0x1880 := by
    cases reg <;> simp_all [OvlReg.offset]
  refine ⟨bank.reg_ne_mainCtrl reg, decide_eq_false ?_⟩
  rintro (same | same | same | ⟨other, same | same | same⟩)
  all_goals
    have offsets := VoReg.regs.inj same
    omega

/-! ### What the writes of an operation leave -/

/-- The format words of the surface formats. -/
theorem arVoFbConfig_cases (fourcc : U32) :
    arVoFbConfig fourcc = 0x3c004011 ∨ arVoFbConfig fourcc = 0x44004011 ∨
      arVoFbConfig fourcc = 0x14000011 := by
  unfold arVoFbConfig arVoSurfaceEnum
  split
  · exact .inl rfl
  · split
    · exact .inr (.inl rfl)
    · exact .inr (.inr rfl)

section FbConfig

variable (fourcc : U32)

theorem arVoFbConfig_start : (arVoFbConfig fourcc).getLsbD 4 = true := by
  rcases arVoFbConfig_cases fourcc with config | config | config <;> rw [config] <;> rfl

theorem arVoFbConfig_lock : (arVoFbConfig fourcc).getLsbD 3 = false := by
  rcases arVoFbConfig_cases fourcc with config | config | config <;> rw [config] <;> rfl

/-- Holding display-start off and asserting it last comes back to the word. -/
theorem arVoFbConfig_restart :
    (arVoFbConfig fourcc &&& ~~~voMainStart) ||| voMainStart = arVoFbConfig fourcc := by
  rcases arVoFbConfig_cases fourcc with config | config | config <;> rw [config] <;> rfl

end FbConfig

theorem getLsbD_unlock (word : U32) (i : ℕ) :
    (word &&& ~~~voMainLock).getLsbD i = (word.getLsbD i && !decide (3 = i)) :=
  getLsbD_and_not_bit word 3 i

theorem getLsbD_stop (word : U32) (i : ℕ) :
    (word &&& ~~~voMainStart).getLsbD i = (word.getLsbD i && !decide (4 = i)) :=
  getLsbD_and_not_bit word 4 i

/-- Writes that leave the scanout as it is. -/
structure SameScanout (vo vo' : ArVo) : Prop where
  curCfg : vo'.curCfg = vo.curCfg
  curFormat : vo'.curFormat = vo.curFormat
  mainCtrl : mainCtrl vo'.writes = mainCtrl vo.writes
  held : voPort.Held 0 vo.writes → voPort.Held 0 vo'.writes

/-- A lock and unlock of the driver's copy of the word. -/
structure Latched (vo vo' : ArVo) : Prop where
  curCfg : vo'.curCfg = vo.curCfg
  curFormat : vo'.curFormat = vo.curFormat
  mainCtrl : mainCtrl vo'.writes = vo.curCfg &&& ~~~voMainLock
  held : voPort.Held 0 vo.writes → voPort.Held 0 vo'.writes

section Writes

variable {vo vo' vo'' : ArVo} {reg : VoReg}

theorem SameScanout.refl (vo : ArVo) : SameScanout vo vo := ⟨rfl, rfl, rfl, id⟩

theorem SameScanout.trans (first : SameScanout vo vo') (second : SameScanout vo' vo'') :
    SameScanout vo vo'' where
  curCfg := second.curCfg.trans first.curCfg
  curFormat := second.curFormat.trans first.curFormat
  mainCtrl := second.mainCtrl.trans first.mainCtrl
  held := second.held ∘ first.held

theorem SameScanout.latched (first : SameScanout vo vo') (second : Latched vo' vo'') :
    Latched vo vo'' where
  curCfg := second.curCfg.trans first.curCfg
  curFormat := second.curFormat.trans first.curFormat
  mainCtrl := by rw [second.mainCtrl, first.curCfg]
  held := second.held ∘ first.held

theorem Latched.same (first : Latched vo vo') (second : SameScanout vo' vo'') :
    Latched vo vo'' where
  curCfg := second.curCfg.trans first.curCfg
  curFormat := second.curFormat.trans first.curFormat
  mainCtrl := second.mainCtrl.trans first.mainCtrl
  held := second.held ∘ first.held

theorem writel_same (vo : ArVo) (value : U32) (quiet : voPort.Quiet reg) :
    SameScanout vo (writel vo value reg) where
  curCfg := rfl
  curFormat := rfl
  mainCtrl := ShadowPort.lastCtrl_of_ne quiet.1
  held := (ShadowPort.held_of_not_shadow quiet.2).mpr

theorem writelAll_same (vo : ArVo) {writes : List (U32 × VoReg)}
    (quiet : ∀ write ∈ writes, voPort.Quiet write.2) : SameScanout vo (writelAll vo writes) := by
  induction writes generalizing vo with
  | nil => exact .refl vo
  | cons write writes ih =>
      have first := writel_same vo write.1 (quiet write List.mem_cons_self)
      exact first.trans (ih _ fun other mem => quiet other (List.mem_cons_of_mem _ mem))

theorem updatelAll_same (vo : ArVo) (hw : Readl) {updates : List (VoReg × (U32 → U32))}
    (quiet : ∀ update ∈ updates, voPort.Quiet update.1) :
    SameScanout vo (updatelAll vo hw updates) := by
  induction updates generalizing vo with
  | nil => exact .refl vo
  | cons update updates ih =>
      have first := writel_same vo (update.2 (vo.readl hw update.1))
        (quiet update List.mem_cons_self)
      exact first.trans (ih _ fun other mem => quiet other (List.mem_cons_of_mem _ mem))

theorem writelAll_eq (vo : ArVo) (writes : List (U32 × VoReg)) :
    writelAll vo writes =
      { vo with writes := (writes.map fun write => (write.2, write.1)).reverse ++ vo.writes } := by
  induction writes generalizing vo with
  | nil => rfl
  | cons write writes ih =>
      refine (ih _).trans ?_
      simp [writel]

/-- The lock, writes to other registers than `VO_MAIN_CTRL`, and the unlock. -/
theorem bracket_latched (vo : ArVo) {writes : List (U32 × VoReg)}
    (inside : ∀ write ∈ writes, write.2 ≠ voMainCtrl) :
    Latched vo (writel (writelAll (writel vo (vo.curCfg ||| voMainLock) voMainCtrl) writes)
      (vo.curCfg &&& ~~~voMainLock) voMainCtrl) := by
  rw [writelAll_eq]
  refine ⟨rfl, rfl, ShadowPort.lastCtrl_ctrl, ?_⟩
  intro held
  refine held.bracket (getLsbD_or_bit vo.curCfg (by decide)) ?_
  intro write mem
  rw [List.mem_reverse, List.mem_map] at mem
  rcases mem with ⟨source, member, rfl⟩
  exact inside source member

/-! ### The operations -/

theorem arVoSetFbAddr_latched (vo : ArVo) (fb : Framebuffer) :
    Latched vo (arVoSetFbAddr vo fb) := by
  apply bracket_latched
  simp [voFbBase0, voPlane2Base, voPlane3Base, voMainCtrl]

theorem arVoSetLayerCsc_latched (vo : ArVo) : Latched vo (arVoSetLayerCsc vo) := by
  apply bracket_latched
  simp [arVoLayerCscBt709Full, voLayerCsc, voMainCtrl]

theorem voChromaStrides_quiet (fb : Framebuffer) : ∀ write ∈
    ([(fb.pitches 1, voUStride), (fb.pitches 2, voVStride), (1, voLayerConfig)] :
      List (U32 × VoReg)), voPort.Quiet write.2 := by
  simp only [List.forall_mem_cons]
  exact ⟨by decide, by decide, by decide, nofun⟩

/-- The layer is programmed with display-start held off. -/
structure Programmed (vo vo' : ArVo) (format word : U32) : Prop where
  curCfg : vo'.curCfg = word
  curFormat : vo'.curFormat = format
  mainCtrl : mainCtrl vo'.writes = word
  held : voPort.Held 0 vo.writes → voPort.Held 0 vo'.writes

theorem SameScanout.formatted (strides : SameScanout vo vo') (cfg : U32) :
    Programmed vo (writel { vo' with curCfg := cfg } cfg voMainCtrl) vo'.curFormat cfg where
  curCfg := rfl
  curFormat := rfl
  mainCtrl := ShadowPort.lastCtrl_ctrl
  held held := ShadowPort.held_ctrl.mpr (strides.held held)

theorem Programmed.csc {format cfg : U32} (formatted : Programmed vo vo' format cfg)
    (unlocked : cfg.getLsbD 3 = false) : Programmed vo (arVoSetLayerCsc vo') format cfg := by
  have latched := arVoSetLayerCsc_latched vo'
  refine ⟨latched.curCfg.trans formatted.curCfg, latched.curFormat.trans formatted.curFormat, ?_,
    latched.held ∘ formatted.held⟩
  rw [latched.mainCtrl, formatted.curCfg]
  exact and_not_bit_of_clear unlocked

theorem Programmed.named {format cfg : U32} (formatted : Programmed vo vo' format cfg)
    (format' : U32) : Programmed vo { vo' with curFormat := format' } format' cfg :=
  ⟨formatted.curCfg, rfl, formatted.mainCtrl, formatted.held⟩

theorem arVoProgramLayer_programmed (vo : ArVo) (fb : Framebuffer) :
    Programmed vo (arVoProgramLayer vo fb) fb.format
      (arVoFbConfig fb.format &&& ~~~voMainStart) := by
  have unlocked : (arVoFbConfig fb.format &&& ~~~voMainStart).getLsbD 3 = false := by
    rw [getLsbD_stop, arVoFbConfig_lock]
    rfl
  have stride := writel_same vo (fb.pitches 0) (by decide : voPort.Quiet voFbStride)
  unfold arVoProgramLayer
  generalize arVoFbConfig fb.format &&& ~~~voMainStart = cfg at *
  cases fb.isYuv with
  | false =>
      exact (stride.formatted cfg).named fb.format
  | true =>
      have chroma := writelAll_same (writel vo (fb.pitches 0) voFbStride) (voChromaStrides_quiet fb)
      have formatted := (stride.trans chroma).formatted cfg
      exact (formatted.csc unlocked).named fb.format

theorem arVoShow_programmed (vo : ArVo) (fb : Framebuffer) :
    Programmed vo (arVoShow vo fb) fb.format (arVoFbConfig fb.format) := by
  have layer := arVoProgramLayer_programmed vo fb
  have address := arVoSetFbAddr_latched (arVoProgramLayer vo fb) fb
  have word : (arVoSetFbAddr (arVoProgramLayer vo fb) fb).curCfg ||| voMainStart =
      arVoFbConfig fb.format := by
    rw [address.curCfg, layer.curCfg]
    exact arVoFbConfig_restart fb.format
  refine ⟨word, address.curFormat.trans layer.curFormat, ?_, ?_⟩
  · exact ShadowPort.lastCtrl_ctrl.trans word
  · intro held
    exact ShadowPort.held_ctrl.mpr (address.held (layer.held held))

theorem arVoPipeEnable_programmed (hw : Readl) (vo : ArVo) (fb : Framebuffer) :
    Programmed vo (arVoPipeEnable hw vo fb) fb.format (arVoFbConfig fb.format) := by
  have bringUp : ∀ update ∈ arVoBringUp, voPort.Quiet update.1 := by decide
  have geometry : ∀ write ∈ arVo1080p60, voPort.Quiet write.2 := by decide +kernel
  have global : voPort.Quiet voGlobal := by decide
  refine ⟨(arVoShow_programmed _ fb).curCfg, (arVoShow_programmed _ fb).curFormat,
    (arVoShow_programmed _ fb).mainCtrl, ?_⟩
  intro held
  apply (arVoShow_programmed _ fb).held
  apply (writelAll_same _ geometry).held
  apply (updatelAll_same _ hw (List.forall_mem_singleton.mpr global)).held
  apply ShadowPort.held_ctrl.mpr
  refine (writelAll_same _ ?_).held ((updatelAll_same vo hw bringUp).held held)
  simp only [List.forall_mem_cons]
  exact ⟨global, global, nofun⟩

theorem arVoOvlWr_same (vo : ArVo) (bank : OvlBank) (reg : OvlReg) (value : U32)
    (plain : reg ≠ .base ∧ reg ≠ .uplane ∧ reg ≠ .vplane) :
    SameScanout vo (arVoOvlWr vo bank reg value) :=
  writel_same vo value (bank.reg_quiet plain)

theorem arVoOvlCommit_latched (hw : Readl) (vo : ArVo) (bank : OvlBank) (dst : DstRect)
    (y u v : U32) : Latched vo (arVoOvlCommit hw vo bank dst y u v) := by
  have placed : SameScanout vo (writelAll vo
      [(0, bank.reg .srcGcolor), (0, bank.reg .dstGcolor), (0, bank.reg .ckey),
       (0, bank.reg .ckeyHi), (0, bank.reg .clear),
       (packXy (dst.x2 - dst.x1) (dst.y2 - dst.y1), bank.reg .size)]) := by
    apply writelAll_same
    simp only [List.forall_mem_cons]
    refine ⟨?_, ?_, ?_, ?_, ?_, ?_, nofun⟩ <;> exact bank.reg_quiet (by decide)
  refine (placed.latched (bracket_latched _ ?_)).same
    (arVoOvlWr_same _ bank .config _ (by decide))
  simp only [List.forall_mem_cons]
  refine ⟨?_, ?_, ?_, ?_, ?_, nofun⟩ <;> exact bank.reg_ne_mainCtrl _

/-- An overlay update that is not skipped latches. -/
theorem arVoHudUpdate_latched (hw : Readl) (vo : ArVo) (bank : OvlBank) (ns : OvlState) :
    arVoHudUpdate hw vo bank ns = vo ∨ Latched vo (arVoHudUpdate hw vo bank ns) := by
  unfold arVoHudUpdate
  split
  · exact .inl rfl
  · split
    · exact .inl rfl
    · refine .inr (SameScanout.latched ?_ (arVoOvlCommit_latched ..))
      apply SameScanout.trans (arVoOvlWr_same vo bank .stride _ (by decide))
      apply SameScanout.trans (arVoOvlWr_same _ bank .alpha _ (by decide))
      exact arVoOvlWr_same _ bank .config _ (by decide)

theorem arVoVidUpdate_latched (hw : Readl) (vo : ArVo) (bank : OvlBank) (ns : OvlState) :
    arVoVidUpdate hw vo bank ns = vo ∨ Latched vo (arVoVidUpdate hw vo bank ns) := by
  unfold arVoVidUpdate
  split
  · exact .inl rfl
  · split
    · exact .inl rfl
    · refine .inr (SameScanout.latched ?_ (arVoOvlCommit_latched ..))
      apply SameScanout.trans (arVoOvlWr_same vo bank .stride _ (by decide))
      apply SameScanout.trans (arVoOvlWr_same _ bank .ustride _ (by decide))
      apply SameScanout.trans (arVoOvlWr_same _ bank .vstride _ (by decide))
      apply SameScanout.trans (arVoOvlWr_same _ bank .alpha _ (by decide))
      exact arVoOvlWr_same _ bank .config _ (by decide)

end Writes

/-! ### The display -/

/-- The driver, whether its pipe is enabled, and the format of the framebuffer on the primary
layer. -/
structure Display where
  vo : ArVo
  enabled : Bool
  shown : Option U32

/-- The operations, with what the registers they read back read as. -/
inductive DisplayEvent
  | pipeEnable (hw : Readl) (fb : Framebuffer)
  | pipeDisable
  | pipeUpdate (fb : Option Framebuffer)
  | hudUpdate (hw : Readl) (bank : OvlBank) (ns : OvlState)
  | vidUpdate (hw : Readl) (bank : OvlBank) (ns : OvlState)
  | ovlDisable (hw : Readl) (bank : OvlBank)

def Display.initial : Display where
  vo := { curFormat := 0, curCfg := 0, writes := [] }
  enabled := false
  shown := none

def displayStep (d : Display) : DisplayEvent → Option Display
  | .pipeEnable hw fb =>
      some { vo := arVoPipeEnable hw d.vo fb, enabled := true, shown := some fb.format }
  | .pipeDisable => some { d with vo := arVoPipeDisable d.vo, enabled := false }
  | .pipeUpdate fb =>
      some { d with vo := arVoPipeUpdate d.vo fb, shown := (fb.map (·.format)).or d.shown }
  | .hudUpdate hw bank ns => some { d with vo := arVoHudUpdate hw d.vo bank ns }
  | .vidUpdate hw bank ns => some { d with vo := arVoVidUpdate hw d.vo bank ns }
  | .ovlDisable hw bank => some { d with vo := arVoOvlDisable hw d.vo bank }

/-- `START` (bit 4) is set exactly while the pipe is enabled, `LOCK` (bit 3) is clear, the word is
the one of the format shown, and address registers were written under the lock. -/
structure ScanoutOk (d : Display) : Prop where
  start : (mainCtrl d.vo.writes).getLsbD 4 = d.enabled
  lock : (mainCtrl d.vo.writes).getLsbD 3 = false
  format : d.enabled = true → ∃ fourcc, d.shown = some fourcc ∧
    mainCtrl d.vo.writes = arVoFbConfig fourcc
  latched : ∀ newer reg value older, d.vo.writes = newer ++ (reg, value) :: older →
    IsAddress reg → (mainCtrl older).getLsbD 3 = true ∧
      ∃ word, (voMainCtrl, word) ∈ newer ∧ word.getLsbD 3 = false

/-- An update while the pipe is disabled does not switch the format. -/
def FormatKept (d : Display) : DisplayEvent → Prop
  | .pipeUpdate (some fb) => d.enabled = false → fb.format = d.vo.curFormat
  | _ => True

instance (d : Display) (event : DisplayEvent) : Decidable (FormatKept d event) :=
  match event with
  | .pipeUpdate (some _) => inferInstanceAs (Decidable (_ → _))
  | .pipeUpdate none | .pipeEnable .. | .pipeDisable | .hudUpdate .. | .vidUpdate ..
  | .ovlDisable .. => .isTrue trivial

/-! ### The invariant -/

/-- The word last written and the driver's copy agree on `START`, and while the pipe is enabled
both are the word of the format shown. -/
structure DisplayOk (d : Display) : Prop where
  held : voPort.Held 0 d.vo.writes
  lock : (mainCtrl d.vo.writes).getLsbD 3 = false
  start : (mainCtrl d.vo.writes).getLsbD 4 = d.vo.curCfg.getLsbD 4
  curCfg : d.enabled = true → d.vo.curCfg = arVoFbConfig d.vo.curFormat
  word : d.enabled = true → mainCtrl d.vo.writes = arVoFbConfig d.vo.curFormat
  shown : d.enabled = true → d.shown = some d.vo.curFormat

section Step

variable {d : Display} {vo : ArVo}

theorem DisplayOk.scanoutOk_iff (ok : DisplayOk d) :
    ScanoutOk d ↔ (d.enabled = false → (mainCtrl d.vo.writes).getLsbD 4 = false) := by
  constructor
  · intro scanout disabled
    exact scanout.start.trans disabled
  · intro stopped
    refine ⟨?_, ok.lock, fun enabled => ⟨_, ok.shown enabled, ok.word enabled⟩, ?_⟩
    · cases enabled : d.enabled with
      | false => exact stopped enabled
      | true =>
          rw [ok.word enabled]
          exact arVoFbConfig_start _
    · intro newer reg value older split address
      have shadow : voPort.shadow reg = true := decide_eq_true address
      have held := ok.held
      have lock := ok.lock
      rw [split] at held lock
      exact ⟨held.locked_before shadow, held.cleared_after shadow lock⟩

theorem DisplayOk.same (ok : DisplayOk d) (same : SameScanout d.vo vo) :
    DisplayOk { d with vo } where
  held := same.held ok.held
  lock := by rw [same.mainCtrl]; exact ok.lock
  start := by rw [same.mainCtrl, same.curCfg]; exact ok.start
  curCfg enabled := by rw [same.curCfg, same.curFormat]; exact ok.curCfg enabled
  word enabled := by rw [same.mainCtrl, same.curFormat]; exact ok.word enabled
  shown enabled := by rw [same.curFormat]; exact ok.shown enabled

theorem DisplayOk.latched (ok : DisplayOk d) (latched : Latched d.vo vo) :
    DisplayOk { d with vo } where
  held := latched.held ok.held
  lock := by rw [latched.mainCtrl, getLsbD_unlock]; simp
  start := by rw [latched.mainCtrl, latched.curCfg, getLsbD_unlock]; simp
  curCfg enabled := by rw [latched.curCfg, latched.curFormat]; exact ok.curCfg enabled
  word enabled := by
    rw [latched.mainCtrl, latched.curFormat, ok.curCfg enabled]
    exact and_not_bit_of_clear (arVoFbConfig_lock _)
  shown enabled := by rw [latched.curFormat]; exact ok.shown enabled

theorem DisplayOk.programmed (ok : DisplayOk d) {fourcc : U32} (enabled : Bool)
    (programmed : Programmed d.vo vo fourcc (arVoFbConfig fourcc)) :
    DisplayOk { vo, enabled, shown := some fourcc } where
  held := programmed.held ok.held
  lock := by rw [programmed.mainCtrl]; exact arVoFbConfig_lock fourcc
  start := by rw [programmed.mainCtrl, programmed.curCfg]
  curCfg _ := by rw [programmed.curCfg, programmed.curFormat]
  word _ := by rw [programmed.mainCtrl, programmed.curFormat]
  shown _ := by rw [programmed.curFormat]

theorem DisplayOk.disabled (ok : DisplayOk d) :
    DisplayOk { d with vo := arVoPipeDisable d.vo, enabled := false } ∧
      (mainCtrl (arVoPipeDisable d.vo).writes).getLsbD 4 = false := by
  have word : mainCtrl (arVoPipeDisable d.vo).writes = 0 := ShadowPort.lastCtrl_ctrl
  have stopped : (arVoPipeDisable d.vo).curCfg.getLsbD 4 = false := by
    refine (getLsbD_stop d.vo.curCfg 4).trans ?_
    simp
  refine ⟨⟨ShadowPort.held_ctrl.mpr ok.held, ?_, ?_, nofun, nofun, nofun⟩, ?_⟩
  · rw [word]
    rfl
  · rw [word, stopped]
    rfl
  · rw [word]
    rfl

/-- What leaves the driver's copy of the word alone neither starts nor stops the scanout. -/
theorem DisplayOk.keeps {d' : Display} (ok : DisplayOk d) (ok' : DisplayOk d')
    (curCfg : d'.vo.curCfg = d.vo.curCfg) (enabled : d'.enabled = d.enabled)
    (scanout : ScanoutOk d) : ScanoutOk d' := by
  apply ok'.scanoutOk_iff.mpr
  intro disabled
  rw [ok'.start, curCfg, ← ok.start]
  exact ok.scanoutOk_iff.mp scanout (enabled.symm.trans disabled)

/-- An overlay update, skipped or not. -/
theorem DisplayOk.overlay (ok : DisplayOk d) (updated : vo = d.vo ∨ Latched d.vo vo) :
    DisplayOk { d with vo } ∧ (ScanoutOk d → ScanoutOk { d with vo }) := by
  rcases updated with rfl | latched
  · exact ⟨ok, id⟩
  · exact ⟨ok.latched latched, ok.keeps (ok.latched latched) latched.curCfg rfl⟩

/-- An update of the primary layer: a format switch starts the scanout. -/
theorem DisplayOk.updated (ok : DisplayOk d) (fb : Framebuffer) (next : Display)
    (step : displayStep d (.pipeUpdate (some fb)) = some next) :
    DisplayOk next ∧
      (ScanoutOk d → (ScanoutOk next ↔ (d.enabled = false → fb.format = d.vo.curFormat))) := by
  cases step
  by_cases switch : fb.format = d.vo.curFormat
  · have address := arVoSetFbAddr_latched d.vo fb
    have kept : arVoPipeUpdate d.vo (some fb) = arVoSetFbAddr d.vo fb := if_neg (not_not.mpr switch)
    rw [kept]
    have latched := ok.latched address
    have named : DisplayOk
        { d with vo := arVoSetFbAddr d.vo fb, shown := ((some fb).map (·.format)).or d.shown } :=
      ⟨latched.held, latched.lock, latched.start, latched.curCfg, latched.word, fun _ =>
        congrArg some (switch.trans address.curFormat.symm)⟩
    refine ⟨named, fun scanout => ?_⟩
    exact iff_of_true (ok.keeps named address.curCfg rfl scanout) fun _ => switch
  · have programmed := arVoShow_programmed d.vo fb
    have shown : arVoPipeUpdate d.vo (some fb) = arVoShow d.vo fb := if_pos switch
    rw [shown]
    have started := ok.programmed d.enabled programmed
    refine ⟨started, fun _ => started.scanoutOk_iff.trans ?_⟩
    apply imp_congr_right
    intro _
    refine iff_of_false ?_ switch
    have word : mainCtrl (arVoShow d.vo fb).writes = arVoFbConfig fb.format := programmed.mainCtrl
    intro stopped
    rw [word, arVoFbConfig_start] at stopped
    cases stopped

theorem DisplayOk.step (ok : DisplayOk d) {event : DisplayEvent} {next : Display}
    (step : displayStep d event = some next) :
    DisplayOk next ∧ (ScanoutOk d → (ScanoutOk next ↔ FormatKept d event)) := by
  cases event with
  | pipeEnable hw fb =>
      cases step
      have enabled := ok.programmed true (arVoPipeEnable_programmed hw d.vo fb)
      exact ⟨enabled, fun _ => iff_of_true (enabled.scanoutOk_iff.mpr nofun) trivial⟩
  | pipeDisable =>
      cases step
      rcases ok.disabled with ⟨disabled, stopped⟩
      refine ⟨disabled, fun _ => iff_of_true ?_ trivial⟩
      exact disabled.scanoutOk_iff.mpr fun _ => stopped
  | pipeUpdate fb =>
      cases fb with
      | none =>
          cases step
          exact ⟨ok, fun scanout => iff_of_true scanout trivial⟩
      | some fb => exact ok.updated fb next step
  | hudUpdate hw bank ns =>
      cases step
      rcases ok.overlay (arVoHudUpdate_latched hw d.vo bank ns) with ⟨kept, keeps⟩
      exact ⟨kept, fun scanout => iff_of_true (keeps scanout) trivial⟩
  | vidUpdate hw bank ns =>
      cases step
      rcases ok.overlay (arVoVidUpdate_latched hw d.vo bank ns) with ⟨kept, keeps⟩
      exact ⟨kept, fun scanout => iff_of_true (keeps scanout) trivial⟩
  | ovlDisable hw bank =>
      cases step
      have same := arVoOvlWr_same d.vo bank .config
        (arVoOvlRd d.vo hw bank .config &&& ~~~voOvlEmit) (by decide)
      have kept := ok.same same
      exact ⟨kept, fun scanout => iff_of_true (ok.keeps kept same.curCfg rfl scanout) trivial⟩

end Step

/-! ### Runs -/

theorem Display.initial_ok : DisplayOk .initial where
  held := trivial
  lock := rfl
  start := rfl
  curCfg := nofun
  word := nofun
  shown := nofun

/-- The scanout is right after every operation exactly when no update switches the format while
the pipe is disabled. -/
theorem displayRun_scanoutOk_iff {events : List DisplayEvent} {finish : Display}
    (run : Run (fun d event next => displayStep d event = some next) .initial events finish) :
    (∀ before rest d, events = before ++ rest →
      Run (fun d event next => displayStep d event = some next) .initial before d →
        ScanoutOk d) ↔
      Run (fun d event next => FormatKept d event ∧ displayStep d event = some next)
        .initial events finish := by
  have start := Display.initial_ok
  refine Run.throughout_iff_guarded_of_invariant ?_ run start ?_
  · intro d event next ok step
    exact ok.step step
  · exact start.scanoutOk_iff.mpr fun _ => rfl

def consoleFb : Framebuffer where
  format := drmFormatXrgb8888
  isYuv := false
  numPlanes := 1
  pitches _ := 7680
  address _ := 0x20000000

/-- A console shown, an overlay over it, the pipe disabled and updated with the same format. -/
theorem displayRun_scanoutOk_iff_console : ∃ events finish,
    Run (fun d event next => displayStep d event = some next) .initial events finish ∧
    ((∀ before rest d, events = before ++ rest →
      Run (fun d event next => displayStep d event = some next) .initial before d →
        ScanoutOk d) ↔
      Run (fun d event next => FormatKept d event ∧ displayStep d event = some next)
        .initial events finish) ∧
    events.length = 5 ∧ mainCtrl finish.vo.writes = 0x14000001 := by
  have done : (([.pipeEnable (fun _ _ => 0) consoleFb, .pipeUpdate (some consoleFb),
      .hudUpdate (fun _ _ => 0) 1 ⟨some consoleFb, true, ⟨0, 0, 1920, 1080⟩⟩, .pipeDisable,
      .pipeUpdate (some consoleFb)] : List DisplayEvent).foldlM displayStep .initial).any
        (fun d => decide (mainCtrl d.vo.writes = 0x14000001)) = true := by decide +kernel
  rcases (Option.any_eq_true _ _).mp done with ⟨finish, reached, word⟩
  have run := Run.of_foldlM displayStep reached
  exact ⟨_, finish, run, displayRun_scanoutOk_iff run, rfl, of_decide_eq_true word⟩

/-- An update with the first framebuffer, before the pipe is enabled, starts the scanout. -/
theorem displayRun_started_disabled : ¬ ∀ (events : List DisplayEvent) (d : Display),
    Run (fun d event next => displayStep d event = some next) .initial events d →
      ScanoutOk d := by
  intro scanout
  have done : (([.pipeUpdate (some consoleFb)] : List DisplayEvent).foldlM displayStep
      .initial).any (fun d => decide ((mainCtrl d.vo.writes).getLsbD 4 = true ∧
        d.enabled = false)) = true := by decide +kernel
  rcases (Option.any_eq_true _ _).mp done with ⟨d, reached, started⟩
  rcases of_decide_eq_true started with ⟨start, disabled⟩
  have stopped := (scanout _ d (Run.of_foldlM _ reached)).start
  rw [start, disabled] at stopped
  cases stopped

end MlKernel.Vo
