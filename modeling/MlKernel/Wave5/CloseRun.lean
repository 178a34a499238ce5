import MlKernel.Wave5.Close

/-!
# Closing instances in any order

Whatever order the instances are released in, and however the firmware answers, the buffers of an
instance are freed once, all of them, when the firmware cannot write to them any more, or not at
all.
-/

namespace MlKernel.Wave5

/-! ### Frees -/

/-- The log of frees is in order. -/
structure FreedSound (inst : VpuInst) : Prop where
  once : (inst.freed.map Prod.fst).Nodup
  zero : ∀ entry ∈ inst.freed, inst.size entry.1 = 0
  quiesced : ∀ entry ∈ inst.freed, entry.2 = true

/-- Nothing but buffers is freed between two states of an instance. -/
structure Frees (inst after : VpuInst) : Prop where
  same : after = { inst with size := after.size, freed := after.freed }
  zero : ∀ buf, inst.size buf = 0 → after.size buf = 0
  sound : inst.quiesced = true → FreedSound inst → FreedSound after

namespace Frees

theorem refl (inst : VpuInst) : Frees inst inst := ⟨rfl, fun _ zero => zero, fun _ sound => sound⟩

theorem quiesced_eq {inst after : VpuInst} (frees : Frees inst after) :
    after.quiesced = inst.quiesced := by
  rw [frees.same]
  rfl

theorem trans {inst middle after : VpuInst} (first : Frees inst middle)
    (second : Frees middle after) : Frees inst after where
  same := second.same.trans (by rw [first.same])
  zero := fun buf zero => second.zero buf (first.zero buf zero)
  sound := fun quiet sound => second.sound (first.quiesced_eq.trans quiet) (first.sound quiet sound)

theorem freeDma (inst : VpuInst) (buf : DmaBuf) : Frees inst (freeDma inst buf) := by
  unfold Wave5.freeDma
  split
  · exact refl inst
  · next allocated =>
      refine ⟨rfl, ?_, ?_⟩
      · intro other zero
        simp only
        split
        · rfl
        · exact zero
      · intro quiet sound
        refine ⟨?_, ?_, ?_⟩
        · rw [List.map_cons, List.nodup_cons]
          refine ⟨?_, sound.once⟩
          intro mem
          rcases List.mem_map.mp mem with ⟨entry, inLog, same⟩
          have zero := sound.zero entry inLog
          rw [same] at zero
          exact allocated zero
        · intro entry mem
          rcases List.mem_cons.mp mem with rfl | mem
          · simp
          · simp [sound.zero entry mem]
        · intro entry mem
          rcases List.mem_cons.mp mem with rfl | mem
          · exact quiet
          · exact sound.quiesced entry mem

theorem foldl (bufs : List DmaBuf) (inst : VpuInst) :
    Frees inst (bufs.foldl Wave5.freeDma inst) := by
  induction bufs generalizing inst with
  | nil => exact refl inst
  | cons buf bufs ih => exact (freeDma inst buf).trans (ih _)

theorem resetAuxiliaryBuffers (inst : VpuInst) (i left : ℕ) :
    Frees inst (resetAuxiliaryBuffers inst i left) := by
  induction left generalizing inst i with
  | zero => exact refl inst
  | succ left ih =>
      unfold Wave5.resetAuxiliaryBuffers
      split
      · exact refl inst
      · exact (((freeDma _ _).trans (freeDma _ _)).trans (freeDma _ _)).trans (ih _ _)

end Frees

@[simp]
theorem freeDma_size_self (inst : VpuInst) (buf : DmaBuf) : (freeDma inst buf).size buf = 0 := by
  unfold freeDma
  split
  · assumption
  · simp

theorem foldl_freeDma_size {bufs : List DmaBuf} (inst : VpuInst) {buf : DmaBuf} (mem : buf ∈ bufs) :
    (bufs.foldl freeDma inst).size buf = 0 := by
  induction bufs generalizing inst with
  | nil => cases mem
  | cons first bufs ih =>
      rw [List.foldl_cons]
      rcases List.mem_cons.mp mem with rfl | mem
      · exact (Frees.foldl bufs _).zero _ (freeDma_size_self inst _)
      · exact ih _ mem

/-- A close function frees the work and task buffers, among others. -/
theorem closeFrees_spec (maxRegFrame : ℕ) (inst : VpuInst) :
    Frees inst (closeFrees maxRegFrame inst) ∧
      (closeFrees maxRegFrame inst).size .work = 0 ∧
      (closeFrees maxRegFrame inst).size .task = 0 := by
  have work := freeDma_size_self inst .work
  cases type : inst.type with
  | dec =>
      have aux := Frees.resetAuxiliaryBuffers (freeDma inst .work) 0 maxRegFrame
      simp only [closeFrees, type]
      refine ⟨((Frees.freeDma inst .work).trans aux).trans (Frees.freeDma _ _), ?_, by simp⟩
      exact (Frees.freeDma _ .task).zero _ (aux.zero _ work)
  | enc coded =>
      simp only [closeFrees, type]
      cases coded with
      | true =>
          have aux := Frees.foldl [.subSam, .mv 0, .fbcYTbl 0, .fbcCTbl 0] (freeDma inst .work)
          rw [if_pos rfl]
          refine ⟨((Frees.freeDma inst .work).trans aux).trans (Frees.freeDma _ _), ?_, by simp⟩
          exact (Frees.freeDma _ .task).zero _ (aux.zero _ work)
      | false =>
          rw [if_neg (by decide)]
          refine ⟨(Frees.freeDma inst .work).trans (Frees.freeDma _ _), ?_, by simp⟩
          exact (Frees.freeDma _ .task).zero _ work

/-- Cleanup frees the framebuffers and the bitstream ring, unless they are to be kept. -/
theorem wave5CleanupInstance_spec {inst : VpuInst} (free : inst.keepDmaBufs = false) :
    Frees inst (wave5CleanupInstance inst) ∧
      (wave5CleanupInstance inst).size .bitstream = 0 ∧
      ∀ i < inst.fbcBufCount, (wave5CleanupInstance inst).size (.frame i) = 0 := by
  have frames := Frees.foldl ((List.range inst.fbcBufCount).map .frame) inst
  simp only [wave5CleanupInstance, free, Bool.false_eq_true, if_false]
  refine ⟨frames.trans (Frees.freeDma _ _), by simp, ?_⟩
  intro i inside
  apply (Frees.freeDma _ .bitstream).zero
  apply foldl_freeDma_size
  exact List.mem_map_of_mem (List.mem_range.mpr inside)

/-! ### The promise -/

/-- What closing promises an instance: each buffer is freed at most once and only while the
firmware cannot write to it, and in the end all of them are or none. -/
structure BuffersOk (maxRetry : ℕ) (inst : VpuInst) : Prop where
  once : (inst.freed.map Prod.fst).Nodup
  quiesced : ∀ entry ∈ inst.freed, entry.2 = true
  whole : inst.started = true → inst.phase = .released →
    (inst.size .work = 0 ∧ inst.size .task = 0 ∧ inst.size .bitstream = 0 ∧
      ∀ i < inst.fbcBufCount, inst.size (.frame i) = 0) ∨ inst.freed = []
  attempts : inst.attempts ≤ maxRetry + 1

/-- An instance before its release. -/
structure Opened (inst : VpuInst) : Prop where
  phase : inst.phase = .listed
  keep : inst.keepDmaBufs = false
  freed : inst.freed = []
  attempts : inst.attempts = 0

/-- What holds of an instance at every phase of its release. -/
structure InstInv (maxRetry : ℕ) (inst : VpuInst) : Prop where
  ok : BuffersOk maxRetry inst
  zero : ∀ entry ∈ inst.freed, inst.size entry.1 = 0
  keep : inst.keepDmaBufs = true → inst.freed = []
  untouched : inst.phase = .listed ∨ inst.phase = .delisted →
    inst.freed = [] ∧ inst.keepDmaBufs = false
  closed : inst.phase = .closed → inst.keepDmaBufs = false → inst.quiesced = true ∧
    (inst.started = true → inst.size .work = 0 ∧ inst.size .task = 0)

section Device

variable {Inst : Type} [DecidableEq Inst] {maxRetry maxRegFrame : ℕ} {inst : VpuInst}

theorem InstInv.freedSound (inv : InstInv maxRetry inst) : FreedSound inst :=
  ⟨inv.ok.once, inv.zero, inv.ok.quiesced⟩

theorem Opened.inv (opened : Opened inst) : InstInv maxRetry inst := by
  refine ⟨⟨?_, ?_, ?_, ?_⟩, ?_, ?_, ?_, ?_⟩
  · simp [opened.freed]
  · simp [opened.freed]
  · simp [opened.freed]
  · simp [opened.attempts]
  · simp [opened.freed]
  · simp [opened.freed]
  · simp [opened.freed, opened.keep]
  · simp [opened.phase]

/-- A reset only helps. -/
theorem InstInv.reset (inv : InstInv maxRetry inst) :
    InstInv maxRetry { inst with reset := true } := by
  refine ⟨⟨inv.ok.once, inv.ok.quiesced, inv.ok.whole, inv.ok.attempts⟩, inv.zero, inv.keep,
    inv.untouched, ?_⟩
  intro closed free
  refine ⟨?_, (inv.closed closed free).2⟩
  simp [VpuInst.quiesced]

theorem InstInv.delist (inv : InstInv maxRetry inst) (listed : inst.phase = .listed) :
    InstInv maxRetry { inst with phase := .delisted } := by
  have untouched := inv.untouched (.inl listed)
  exact ⟨⟨inv.ok.once, inv.ok.quiesced, fun _ => (nomatch ·), inv.ok.attempts⟩,
    inv.zero, inv.keep, fun _ => untouched, (nomatch ·)⟩

/-- An instance whose buffers are to be kept. -/
theorem InstInv.kept {finished : Finished} (untouched : inst.freed = [])
    (few : inst.attempts ≤ maxRetry + 1) (keep : inst.keepDmaBufs = true) :
    InstInv maxRetry (closeWith inst finished) := by
  refine ⟨⟨?_, ?_, ?_, few⟩, ?_, fun _ => untouched, ?_, ?_⟩
  · simp [closeWith, untouched]
  · simp [closeWith, untouched]
  · simp [closeWith]
  · simp [closeWith, untouched]
  · simp [closeWith]
  · simp [closeWith, keep]

/-- An instance that is freed when the firmware cannot write to its buffers. -/
theorem InstInv.freeing {finished : Finished} (untouched : inst.freed = [])
    (few : inst.attempts ≤ maxRetry + 1) (free : inst.keepDmaBufs = false)
    (quiet : inst.quiesced = true) :
    InstInv maxRetry (closeWith (closeFrees maxRegFrame inst) finished) := by
  rcases closeFrees_spec maxRegFrame inst with ⟨frees, work, task⟩
  have fresh : FreedSound inst := by
    refine ⟨?_, ?_, ?_⟩
    · simp [untouched]
    · simp [untouched]
    · simp [untouched]
  have sound := frees.sound quiet fresh
  have quiet' := frees.quiesced_eq.trans quiet
  have attempts : (closeFrees maxRegFrame inst).attempts = inst.attempts := by rw [frees.same]
  have keep : (closeFrees maxRegFrame inst).keepDmaBufs = inst.keepDmaBufs := by rw [frees.same]
  refine ⟨⟨sound.once, sound.quiesced, ?_, ?_⟩, sound.zero, ?_, ?_, ?_⟩
  · simp [closeWith]
  · rw [← attempts] at few
    exact few
  · simp [closeWith, keep, free]
  · simp [closeWith]
  · exact fun _ _ => ⟨quiet', fun _ => ⟨work, task⟩⟩

theorem InstInv.cleanup (inv : InstInv maxRetry inst) (closed : inst.phase = .closed) (ret : ℤ) :
    InstInv maxRetry { wave5CleanupInstance inst with phase := .released, ret } := by
  cases keep : inst.keepDmaBufs with
  | true =>
      have kept : wave5CleanupInstance inst = inst := by
        rw [wave5CleanupInstance, if_pos keep]
      rw [kept]
      refine ⟨⟨inv.ok.once, inv.ok.quiesced, fun _ _ => .inr (inv.keep keep), inv.ok.attempts⟩,
        inv.zero, inv.keep, ?_, ?_⟩
      · simp
      · simp
  | false =>
      rcases inv.closed closed keep with ⟨quiet, closedSizes⟩
      rcases wave5CleanupInstance_spec keep with ⟨frees, bitstream, frames⟩
      have sound := frees.sound quiet inv.freedSound
      have attempts : (wave5CleanupInstance inst).attempts = inst.attempts := by rw [frees.same]
      have started : (wave5CleanupInstance inst).started = inst.started := by rw [frees.same]
      have count : (wave5CleanupInstance inst).fbcBufCount = inst.fbcBufCount := by rw [frees.same]
      have keep' : (wave5CleanupInstance inst).keepDmaBufs = false := by
        rw [frees.same]
        exact keep
      refine ⟨⟨sound.once, sound.quiesced, ?_, ?_⟩, sound.zero, ?_, ?_, ?_⟩
      · intro running _
        rcases closedSizes (started ▸ running) with ⟨work, task⟩
        left
        refine ⟨frees.zero _ work, frees.zero _ task, bitstream, ?_⟩
        intro i inside
        exact frames i (count ▸ inside)
      · simp only [attempts]
        exact inv.ok.attempts
      · simp [keep']
      · simp
      · simp

theorem InstInv.closeUnstarted (inv : InstInv maxRetry inst) (delisted : inst.phase = .delisted)
    (unstarted : inst.started = false) : InstInv maxRetry { inst with phase := .closed } := by
  have untouched := inv.untouched (.inr delisted)
  refine ⟨⟨inv.ok.once, inv.ok.quiesced, fun _ => (nomatch ·), inv.ok.attempts⟩, inv.zero,
    inv.keep, ?_, ?_⟩
  · simp
  · simp [VpuInst.quiesced, unstarted]

/-! ### The device -/

/-- The reset flag of the device and every instance. -/
structure VpuInv (maxRetry : ℕ) (s : Vpu Inst) : Prop where
  instances : ∀ i, InstInv maxRetry (s.instances i)
  resetListed : s.resetListed = false

theorem VpuInv.set {s : Vpu Inst} (inv : VpuInv maxRetry s) {i : Inst} {inst : VpuInst}
    (instInv : InstInv maxRetry inst) : VpuInv maxRetry (s.set i inst) := by
  refine ⟨?_, inv.resetListed⟩
  intro other
  simp only [Vpu.set]
  split
  · exact instInv
  · exact inv.instances other

@[simp]
theorem Vpu.set_instances_self (s : Vpu Inst) (i : Inst) (inst : VpuInst) :
    (s.set i inst).instances i = inst := by
  simp [Vpu.set]

variable [Fintype Inst]

omit [DecidableEq Inst] in
/-- With nothing on the list, a reset breaks no promise. -/
theorem VpuInv.recoverLocked {s : Vpu Inst} (inv : VpuInv maxRetry s) (empty : s.ListEmpty)
    (recover : Recover) : VpuInv maxRetry (s.recoverLocked recover) := by
  refine ⟨?_, ?_⟩
  · intro i
    simp only [Vpu.recoverLocked]
    split
    · exact (inv.instances i).reset
    · exact inv.instances i
  · simp [Vpu.recoverLocked, inv.resetListed, empty]

omit [DecidableEq Inst] in
theorem Vpu.recoverLocked_instances (s : Vpu Inst) (recover : Recover) {i : Inst}
    (delisted : (s.instances i).phase = .delisted) :
    (s.recoverLocked recover).instances i =
      { s.instances i with reset := (s.instances i).reset || recover.resets } := by
  cases resets : recover.resets with
  | true => simp [Vpu.recoverLocked, resets, delisted]
  | false => simp [Vpu.recoverLocked, resets]

theorem InstInv.attempted (inv : InstInv maxRetry inst) (delisted : inst.phase = .delisted)
    (finished : Bool) {attempts : ℕ} (few : attempts ≤ maxRetry + 1) :
    InstInv maxRetry { inst with finished, attempts } := by
  refine ⟨⟨inv.ok.once, inv.ok.quiesced, inv.ok.whole, few⟩, inv.zero, inv.keep,
    inv.untouched, ?_⟩
  intro closed
  rw [delisted] at closed
  cases closed

theorem VpuInv.close {s : Vpu Inst} (inv : VpuInv maxRetry s) {i : Inst}
    (delisted : (s.instances i).phase = .delisted) (finishSeq : ℕ → FinishSeq)
    (recover : Recover) :
    VpuInv maxRetry (vpuClose maxRetry maxRegFrame s i finishSeq recover) := by
  rcases finishLoop_spec finishSeq maxRetry false 0 with ⟨few, success⟩
  rcases (inv.instances i).untouched (.inr delisted) with ⟨untouched, free⟩
  simp only [vpuClose]
  generalize finishLoop finishSeq maxRetry false 0 = finished at few success
  rw [Nat.zero_add] at few
  have attempted : VpuInv maxRetry (s.set i { s.instances i with
      finished := (s.instances i).finished || decide (finished.last = .success)
      attempts := finished.attempts }) :=
    inv.set ((inv.instances i).attempted delisted _ few)
  split
  · split
    · apply attempted.set
      apply InstInv.kept
      · simp [untouched]
      · simpa using few
      · rfl
    · next notNonempty =>
        have recovered := attempted.recoverLocked (not_not.mp notNonempty) recover
        have instance' := Vpu.recoverLocked_instances (s.set i { s.instances i with
          finished := (s.instances i).finished || decide (finished.last = .success)
          attempts := finished.attempts }) recover (i := i) (by simp [delisted])
        rw [instance']
        split
        · apply recovered.set
          apply InstInv.kept
          · simp [untouched]
          · simpa using few
          · rfl
        · next isOk =>
            rw [not_not] at isOk
            subst isOk
            apply recovered.set
            apply InstInv.freeing
            · simp [untouched]
            · simpa using few
            · simp [free]
            · simp [VpuInst.quiesced, Recover.resets]
  · next notFailed =>
      apply attempted.set
      apply InstInv.freeing
      · simp [untouched]
      · simpa using few
      · simp [free]
      · simp [VpuInst.quiesced, success notFailed]

theorem VpuInv.step {s next : Vpu Inst} {event : VpuEvent Inst} (inv : VpuInv maxRetry s)
    (step : vpuStep maxRetry maxRegFrame s event = some next) : VpuInv maxRetry next := by
  cases event with
  | delist i =>
      rcases Option.ite_none_right_eq_some.mp step with ⟨listed, done⟩
      cases done
      exact inv.set ((inv.instances i).delist listed)
  | close i finishSeq recover =>
      rcases Option.ite_none_right_eq_some.mp step with ⟨delisted, done⟩
      cases started : (s.instances i).started with
      | true =>
          rw [if_pos started] at done
          cases done
          exact inv.close delisted finishSeq recover
      | false =>
          rw [if_neg (by simp [started])] at done
          cases done
          exact inv.set ((inv.instances i).closeUnstarted delisted started)
  | cleanup i =>
      rcases Option.ite_none_right_eq_some.mp step with ⟨closed, done⟩
      cases done
      exact inv.set ((inv.instances i).cleanup closed _)

end Device

end MlKernel.Wave5
