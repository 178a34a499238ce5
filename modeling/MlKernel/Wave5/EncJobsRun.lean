import MlKernel.Wave5.EncJobs

/-!
# Jobs whose completions are on time

A completion that comes after its job has armed the timeout, and before the timeout expires,
cancels it.  When every completion is such a one, or never comes, a job is always in one of three
stages, and whoever finishes it is the only one that can.
-/

namespace MlKernel.Wave5

/-- Every job but the one that runs was finished once, with all its buffers returned once; the
timeout only ever finishes the job that armed it, is never left behind, and waits for every job
that runs. -/
structure JobsOk (s : EncJobs) : Prop where
  once : s.finished.Nodup
  finished : ∀ job, job ∈ s.finished ↔ job < s.jobs ∧ s.curr ≠ some job
  returned : s.curr = none → s.src.taken = []
  captures : s.dst.taken = []
  returnedOnce : s.src.misreturned = false ∧ s.dst.misreturned = false
  own : ∀ run ∈ s.timeouts, run.2 = some run.1
  notLeft : s.curr = none → s.pending = none ∧ s.running = none
  covered : ∀ job, s.curr = some job →
    job ∈ s.toArm ∨ s.pending = some job ∨ s.running = some job

/-- A completion comes while the timeout of its job is pending. -/
def OnTime (s : EncJobs) (event : JobEvent) : Prop :=
  match event with
  | .finishEncode picture _ => s.pending = some picture.job
  | _ => True

instance (s : EncJobs) (event : JobEvent) : Decidable (OnTime s event) := by
  unfold OnTime
  split
  all_goals infer_instance

/-! ### Buffer queues -/

structure M2mQueue.Ok (q : M2mQueue) : Prop where
  nodup : (q.ready ++ q.taken).Nodup
  active : ∀ idx, idx ∈ q.ready ++ q.taken → q.active idx = true
  sound : q.misreturned = false

namespace M2mQueue.Ok

variable {q : M2mQueue}

theorem empty : M2mQueue.empty.Ok where
  nodup := List.Pairwise.nil
  active := fun _ mem => absurd mem List.not_mem_nil
  sound := rfl

theorem queue (ok : q.Ok) {idx : ℕ} (inactive : ¬q.active idx = true) : (q.queue idx).Ok := by
  have new : idx ∉ q.ready ++ q.taken := fun mem => inactive (ok.active idx mem)
  have shuffled : ((q.queue idx).ready ++ (q.queue idx).taken).Perm
      (idx :: (q.ready ++ q.taken)) := by
    simp only [M2mQueue.queue, List.append_assoc, List.singleton_append]
    exact List.perm_middle
  refine ⟨shuffled.nodup_iff.mpr (List.nodup_cons.mpr ⟨new, ok.nodup⟩), ?_, ok.sound⟩
  intro other mem
  simp only [M2mQueue.queue, Function.update_apply]
  split
  · rfl
  · next different =>
      rcases List.mem_cons.mp (shuffled.mem_iff.mp mem) with same | old
      · exact absurd same different
      · exact ok.active other old

/-- What is taken off the ready queue is taken. -/
theorem remove (ok : q.Ok) : q.remove.2.Ok ∧
    q.remove.2.taken = q.taken ++ q.remove.1.toList := by
  unfold M2mQueue.remove
  split
  · exact ⟨ok, by simp⟩
  · next idx ready removed =>
      have shuffled : (ready ++ (q.taken ++ [idx])).Perm (q.ready ++ q.taken) := by
        rw [removed, ← List.append_assoc, List.cons_append]
        exact List.perm_append_singleton ..
      refine ⟨⟨shuffled.nodup_iff.mpr ok.nodup, ?_, ok.sound⟩, rfl⟩
      intro other mem
      exact ok.active other (shuffled.mem_iff.mp mem)

/-- Returning the only buffer that is taken. -/
theorem bufDone (ok : q.Ok) {idx : ℕ} (taken : q.taken = [idx]) :
    (q.bufDone idx).Ok ∧ (q.bufDone idx).taken = [] := by
  have nodup := ok.nodup
  have none : (q.bufDone idx).taken = [] := by simp [M2mQueue.bufDone, taken]
  rw [taken, List.nodup_append] at nodup
  refine ⟨⟨?_, ?_, ?_⟩, none⟩
  · rw [none, List.append_nil]
    exact nodup.1
  · intro other mem
    rw [none, List.append_nil] at mem
    have different : other ≠ idx := nodup.2.2 other mem idx (List.mem_singleton_self _)
    have untouched : (q.bufDone idx).active other = q.active other :=
      Function.update_of_ne different ..
    rw [untouched]
    exact ok.active other (List.mem_append_left _ mem)
  · simp [M2mQueue.bufDone, ok.sound, taken]

theorem bufDoneSome (ok : q.Ok) {idx : Option ℕ} (taken : q.taken = idx.toList) :
    (q.bufDoneSome idx).Ok ∧ (q.bufDoneSome idx).taken = [] := by
  cases idx with
  | none => exact ⟨ok, taken⟩
  | some idx => exact ok.bufDone taken

theorem removeDone (ok : q.Ok) (none : q.taken = []) :
    q.removeDone.Ok ∧ q.removeDone.taken = [] := by
  rcases ok.remove with ⟨removed, taken⟩
  rw [none, List.nil_append] at taken
  exact removed.bufDoneSome taken

/-- The buffers that are taken are active. -/
theorem filter_active (ok : q.Ok) {idx : Option ℕ} (taken : q.taken = idx.toList) :
    idx.filter q.active = idx := by
  cases idx with
  | none => rfl
  | some idx =>
      have active := ok.active idx (by simp [taken])
      simp [Option.filter, active]

end M2mQueue.Ok

/-! ### Stages -/

/-- Where the timeout of the job that runs is: about to be armed, pending, or expired. -/
inductive Stage (s : EncJobs) : Prop
  | idle (curr : s.curr = none) (toArm : s.toArm = []) (pending : s.pending = none)
      (running : s.running = none) (src : s.activeEncSrcIdx = none)
  | arming (job : ℕ) (curr : s.curr = some job) (toArm : s.toArm = [job])
      (pending : s.pending = none) (running : s.running = none)
  | armed (job : ℕ) (curr : s.curr = some job) (toArm : s.toArm = [])
      (pending : s.pending = some job) (running : s.running = none)
  | expired (job : ℕ) (curr : s.curr = some job) (toArm : s.toArm = [])
      (pending : s.pending = none) (running : s.running = some job)

section Stage

variable {s : EncJobs}

/-- With no job running there is no work. -/
theorem Stage.of_idle (stage : Stage s) (idle : s.curr = none) :
    s.toArm = [] ∧ s.pending = none ∧ s.running = none ∧ s.activeEncSrcIdx = none := by
  cases stage with
  | idle curr toArm pending running src => exact ⟨toArm, pending, running, src⟩
  | arming job curr => simp [curr] at idle
  | armed job curr => simp [curr] at idle
  | expired job curr => simp [curr] at idle

/-- A timeout that is pending is the one of the job that runs. -/
theorem Stage.of_pending (stage : Stage s) {job : ℕ} (armed : s.pending = some job) :
    s.curr = some job ∧ s.toArm = [] ∧ s.running = none := by
  cases stage with
  | idle _ _ none => simp [none] at armed
  | arming _ _ _ none => simp [none] at armed
  | expired _ _ _ none => simp [none] at armed
  | armed other curr toArm pending running =>
      cases pending.symm.trans armed
      exact ⟨curr, toArm, running⟩

/-- The buffers are no concern of the timeout. -/
theorem Stage.withQueues (stage : Stage s) (src dst : M2mQueue) :
    Stage { s with src, dst } := by
  cases stage with
  | idle curr toArm pending running src => exact .idle curr toArm pending running src
  | arming job curr toArm pending running => exact .arming job curr toArm pending running
  | armed job curr toArm pending running => exact .armed job curr toArm pending running
  | expired job curr toArm pending running => exact .expired job curr toArm pending running

end Stage

/-- What holds of the queues and the jobs at every stage. -/
structure JobsSound (s : EncJobs) : Prop where
  once : s.finished.Nodup
  finished : ∀ job, job ∈ s.finished ↔ job < s.jobs ∧ s.curr ≠ some job
  curr : ∀ job, s.curr = some job → job < s.jobs
  src : s.src.Ok
  dst : s.dst.Ok
  taken : s.src.taken = s.activeEncSrcIdx.toList
  captures : s.dst.taken = []
  own : ∀ run ∈ s.timeouts, run.2 = some run.1
  firmware : ∀ picture ∈ s.firmware, picture.job < s.jobs ∧
    (s.curr = some picture.job → picture.src = s.activeEncSrcIdx)

structure JobsInv (s : EncJobs) : Prop where
  sound : JobsSound s
  stage : Stage s

theorem JobsInv.initial : JobsInv .initial := by
  refine ⟨⟨List.Pairwise.nil, ?_, ?_, .empty, .empty, rfl, rfl, ?_, ?_⟩,
    .idle rfl rfl rfl rfl rfl⟩
  · simp [EncJobs.initial]
  · simp [EncJobs.initial]
  · simp [EncJobs.initial]
  · simp [EncJobs.initial]

theorem JobsInv.ok {s : EncJobs} (inv : JobsInv s) : JobsOk s := by
  refine ⟨inv.sound.once, inv.sound.finished, ?_, inv.sound.captures,
    ⟨inv.sound.src.sound, inv.sound.dst.sound⟩, inv.sound.own, ?_, ?_⟩
  · intro idle
    rcases inv.stage.of_idle idle with ⟨-, -, -, src⟩
    rw [inv.sound.taken, src]
    rfl
  · intro idle
    rcases inv.stage.of_idle idle with ⟨-, pending, running, -⟩
    exact ⟨pending, running⟩
  · intro job runs
    cases inv.stage with
    | idle curr => simp [curr] at runs
    | arming other curr toArm =>
        cases curr.symm.trans runs
        exact .inl (by simp [toArm])
    | armed other curr toArm pending =>
        cases curr.symm.trans runs
        exact .inr (.inl pending)
    | expired other curr toArm pending running =>
        cases curr.symm.trans runs
        exact .inr (.inr running)

/-- The job that runs is finished, with its buffers back. -/
structure Finishes (s after : EncJobs) : Prop where
  curr : after.curr = none
  jobs : after.jobs = s.jobs
  finished : ∀ job, s.curr = some job → after.finished = job :: s.finished
  src : after.src.Ok ∧ after.src.taken = []
  dst : after.dst.Ok ∧ after.dst.taken = []
  idx : after.activeEncSrcIdx = none
  timeouts : ∀ run ∈ after.timeouts, run.2 = some run.1
  firmware : ∀ picture ∈ after.firmware, picture ∈ s.firmware

theorem JobsSound.of_finishes {s after : EncJobs} (sound : JobsSound s)
    (finishes : Finishes s after) {job : ℕ} (curr : s.curr = some job) : JobsSound after := by
  have finished := finishes.finished job curr
  have new : job ∉ s.finished := fun mem => ((sound.finished job).mp mem).2 curr
  have started := sound.curr job curr
  refine ⟨?_, ?_, ?_, finishes.src.1, finishes.dst.1, ?_, finishes.dst.2, finishes.timeouts, ?_⟩
  · rw [finished]
    exact List.nodup_cons.mpr ⟨new, sound.once⟩
  · intro other
    rw [finished, finishes.jobs, finishes.curr, List.mem_cons, sound.finished other, curr]
    constructor
    · rintro (rfl | ⟨below, -⟩)
      · exact ⟨started, nofun⟩
      · exact ⟨below, nofun⟩
    · rintro ⟨below, -⟩
      by_cases same : other = job
      · exact .inl same
      · exact .inr ⟨below, fun equal => same (Option.some.inj equal).symm⟩
  · intro other runs
    rw [finishes.curr] at runs
    cases runs
  · rw [finishes.src.2, finishes.idx]
    rfl
  · intro picture mem
    rw [finishes.jobs, finishes.curr]
    exact ⟨(sound.firmware picture (finishes.firmware picture mem)).1, nofun⟩

/-! ### Steps -/

section Steps

variable {s next : EncJobs}

theorem EncJobs.jobFinish_of_curr {job : ℕ} (curr : s.curr = some job) :
    s.jobFinish = { s with curr := none, finished := job :: s.finished } := by
  simp [EncJobs.jobFinish, curr]

/-- The buffers of a state are as its job has them. -/
structure Owned (s : EncJobs) : Prop where
  src : s.src.Ok
  dst : s.dst.Ok
  taken : s.src.taken = s.activeEncSrcIdx.toList
  captures : s.dst.taken = []

theorem Owned.returnActiveSrc (owned : Owned s) : Owned s.returnActiveSrc := by
  have whole : s.activeSrcBuf = s.activeEncSrcIdx := owned.src.filter_active owned.taken
  rcases owned.src.bufDoneSome owned.taken with ⟨ok, none⟩
  rw [EncJobs.returnActiveSrc, whole]
  exact ⟨ok, owned.dst, none, owned.captures⟩

theorem Owned.returnDst (owned : Owned s) : Owned s.returnDst := by
  rcases owned.dst.removeDone owned.captures with ⟨ok, none⟩
  exact ⟨owned.src, ok, owned.taken, none⟩

theorem JobsSound.owned (sound : JobsSound s) : Owned s :=
  ⟨sound.src, sound.dst, sound.taken, sound.captures⟩

/-- A state that differs from one with a running job in its buffers is finished. -/
theorem Finishes.jobFinish {after : EncJobs} (owned : Owned after) {job : ℕ}
    (curr : s.curr = some job) (currSame : after.curr = s.curr) (jobs : after.jobs = s.jobs)
    (finished : after.finished = s.finished) (idx : after.activeEncSrcIdx = none)
    (timeouts : ∀ run ∈ after.timeouts, run.2 = some run.1)
    (firmware : ∀ picture ∈ after.firmware, picture ∈ s.firmware) :
    Finishes s after.jobFinish := by
  have none : after.src.taken = [] := by rw [owned.taken, idx]; rfl
  rw [EncJobs.jobFinish_of_curr (currSame.trans curr)]
  refine ⟨rfl, jobs, ?_, ⟨owned.src, none⟩, ⟨owned.dst, owned.captures⟩, idx, timeouts, firmware⟩
  intro other runs
  cases curr.symm.trans runs
  simp only [finished]

theorem JobsSound.finishEncode (sound : JobsSound s) {picture : EncPicture}
    (curr : s.curr = some picture.job) (mem : picture ∈ s.firmware) (result : EncResult) :
    Finishes s (s.finishEncode picture result) := by
  have owned : Owned { s with pending := none, firmware := s.firmware.erase picture } :=
    ⟨sound.src, sound.dst, sound.taken, sound.captures⟩
  have fewer : ∀ other ∈ s.firmware.erase picture, other ∈ s.firmware :=
    fun other inside => List.mem_of_mem_erase inside
  have source := (sound.firmware picture mem).2 curr
  cases result with
  | ok =>
      cases read : picture.src with
      | none =>
          simp only [EncJobs.finishEncode, read]
          exact .jobFinish owned.returnDst curr rfl rfl rfl (source.symm.trans read) sound.own fewer
      | some idx =>
          have back := owned.returnActiveSrc
          have same : EncJobs.activeSrcBuf
              { s with pending := none, firmware := s.firmware.erase picture } =
                (some idx).filter s.src.active := by
            rw [← read, source]
            rfl
          rw [EncJobs.returnActiveSrc, same] at back
          simp only [EncJobs.finishEncode, read]
          exact .jobFinish back.returnDst curr rfl rfl rfl rfl sound.own fewer
  | vlcBufFull => exact .jobFinish owned.returnActiveSrc curr rfl rfl rfl rfl sound.own fewer
  | error =>
      exact .jobFinish owned.returnActiveSrc.returnDst curr rfl rfl rfl rfl sound.own fewer

theorem JobsSound.jobTimeout (sound : JobsSound s) {job : ℕ} (curr : s.curr = some job) :
    Finishes s (s.jobTimeout job) := by
  have owned : Owned { s with running := none, timeouts := (job, s.curr) :: s.timeouts } :=
    ⟨sound.src, sound.dst, sound.taken, sound.captures⟩
  refine .jobFinish owned.returnActiveSrc.returnDst curr rfl rfl rfl rfl ?_ fun _ mem => mem
  intro run mem
  rcases List.mem_cons.mp mem with rfl | mem
  · exact curr
  · exact sound.own run mem

/-- Finishing a job leaves the work as it is. -/
theorem EncJobs.jobFinish_work (s : EncJobs) : s.jobFinish.toArm = s.toArm ∧
    s.jobFinish.pending = s.pending ∧ s.jobFinish.running = s.running := by
  unfold EncJobs.jobFinish
  split
  · exact ⟨rfl, rfl, rfl⟩
  · exact ⟨rfl, rfl, rfl⟩

theorem EncJobs.finishEncode_work (s : EncJobs) (picture : EncPicture) (result : EncResult) :
    (s.finishEncode picture result).toArm = s.toArm ∧
      (s.finishEncode picture result).pending = none ∧
      (s.finishEncode picture result).running = s.running := by
  cases result with
  | ok =>
      cases read : picture.src with
      | none =>
          simp only [EncJobs.finishEncode, read]
          exact EncJobs.jobFinish_work _
      | some idx =>
          simp only [EncJobs.finishEncode, read]
          exact EncJobs.jobFinish_work _
  | vlcBufFull => exact EncJobs.jobFinish_work _
  | error => exact EncJobs.jobFinish_work _

theorem JobsInv.finishEncode (inv : JobsInv s) {picture : EncPicture}
    (onTime : s.pending = some picture.job) (mem : picture ∈ s.firmware) (result : EncResult) :
    JobsInv (s.finishEncode picture result) := by
  rcases s.finishEncode_work picture result with ⟨toArm, pending, running⟩
  rcases inv.stage.of_pending onTime with ⟨curr, noneToArm, noneRunning⟩
  have finishes := inv.sound.finishEncode curr mem result
  exact ⟨inv.sound.of_finishes finishes curr, .idle finishes.curr (toArm.trans noneToArm)
    pending (running.trans noneRunning) finishes.idx⟩

theorem JobsInv.jobTimeout (inv : JobsInv s) {job : ℕ} (runs : s.running = some job) :
    JobsInv (s.jobTimeout job) := by
  cases inv.stage with
  | idle _ _ _ none => simp [none] at runs
  | arming _ _ _ _ none => simp [none] at runs
  | armed _ _ _ _ none => simp [none] at runs
  | expired other curr toArm pending running =>
      cases running.symm.trans runs
      have finishes := inv.sound.jobTimeout curr
      have work := EncJobs.jobFinish_work { s with
        running := none, timeouts := (job, s.curr) :: s.timeouts }.returnActiveSrc.returnDst
      exact ⟨inv.sound.of_finishes finishes curr, .idle finishes.curr (work.1.trans toArm)
        (work.2.1.trans pending) work.2.2 finishes.idx⟩

theorem JobsInv.queueSrc (inv : JobsInv s) {idx : ℕ} (inactive : ¬s.src.active idx = true) :
    JobsInv { s with src := s.src.queue idx } where
  sound := { inv.sound with src := inv.sound.src.queue inactive }
  stage := inv.stage.withQueues _ _

theorem JobsInv.queueDst (inv : JobsInv s) {idx : ℕ} (inactive : ¬s.dst.active idx = true) :
    JobsInv { s with dst := s.dst.queue idx } where
  sound := { inv.sound with dst := inv.sound.dst.queue inactive }
  stage := inv.stage.withQueues _ _

/-- The timeout work is no concern of the buffers. -/
theorem JobsSound.withWork (sound : JobsSound s) (toArm : List ℕ) (pending running : Option ℕ) :
    JobsSound { s with toArm, pending, running } :=
  ⟨sound.once, sound.finished, sound.curr, sound.src, sound.dst, sound.taken, sound.captures,
    sound.own, sound.firmware⟩

theorem JobsInv.arm (inv : JobsInv s) {job : ℕ} (mem : job ∈ s.toArm) :
    JobsInv { s with toArm := s.toArm.erase job, pending := s.pending.or (some job) } := by
  refine ⟨inv.sound.withWork _ _ s.running, ?_⟩
  cases inv.stage with
  | idle _ toArm => simp [toArm] at mem
  | armed _ _ toArm => simp [toArm] at mem
  | expired _ _ toArm => simp [toArm] at mem
  | arming other curr toArm pending running =>
      have same : job = other := by simpa [toArm] using mem
      subst same
      exact .armed job curr (by simp [toArm]) (by simp [pending]) running

theorem JobsInv.expire (inv : JobsInv s) {job : ℕ} (pending : s.pending = some job) :
    JobsInv { s with pending := none, running := some job } := by
  refine ⟨inv.sound.withWork s.toArm _ _, ?_⟩
  rcases inv.stage.of_pending pending with ⟨curr, toArm, -⟩
  exact .expired job curr toArm rfl rfl

theorem JobsInv.cleanup (inv : JobsInv s) (idle : s.curr = none) :
    JobsInv { s with pending := none } := by
  refine ⟨inv.sound.withWork s.toArm _ s.running, ?_⟩
  rcases inv.stage.of_idle idle with ⟨toArm, -, running, src⟩
  exact .idle idle toArm rfl running src

/-- The job that `device_run` is called for. -/
theorem JobsSound.started (sound : JobsSound s) (idle : s.curr = none) :
    JobsSound { s with curr := some s.jobs, jobs := s.jobs + 1 } := by
  refine ⟨sound.once, ?_, ?_, sound.src, sound.dst, sound.taken, sound.captures, sound.own, ?_⟩
  · intro job
    rw [sound.finished job, idle]
    constructor
    · rintro ⟨below, -⟩
      refine ⟨Nat.lt_succ_of_lt below, ?_⟩
      rintro ⟨⟩
      exact Nat.lt_irrefl _ below
    · rintro ⟨below, notStarted⟩
      have different : job ≠ s.jobs := fun same => notStarted (by rw [same])
      simp only at below
      exact ⟨by omega, nofun⟩
  · rintro job ⟨⟩
    exact Nat.lt_succ_self _
  · intro picture mem
    have below := (sound.firmware picture mem).1
    refine ⟨Nat.lt_succ_of_lt below, ?_⟩
    intro runs
    simp only [Option.some.injEq] at runs
    omega

theorem JobsInv.deviceRun (inv : JobsInv s) (idle : s.curr = none) (outcome : StartEncode) :
    JobsInv (s.deviceRun outcome) := by
  have started := inv.sound.started idle
  rcases inv.stage.of_idle idle with ⟨toArm, pending, running, src⟩
  have untaken : s.src.taken = [] := by rw [inv.sound.taken, src]; rfl
  have older : ∀ picture ∈ s.firmware, some s.jobs ≠ some picture.job := by
    intro picture mem same
    have below := (inv.sound.firmware picture mem).1
    simp only [Option.some.injEq] at same
    omega
  have refused : JobsInv { s with curr := some s.jobs, jobs := s.jobs + 1 }.jobFinish := by
    have finishes := Finishes.jobFinish started.owned rfl rfl rfl rfl src started.own
      fun _ mem => mem
    exact ⟨started.of_finishes finishes rfl, .idle rfl toArm pending running src⟩
  simp only [EncJobs.deviceRun]
  split
  · exact refused
  · exact refused
  · refine ⟨⟨started.once, started.finished, started.curr, ?_, started.dst, ?_,
      started.captures, started.own, ?_⟩, .arming s.jobs rfl (by simp [toArm]) pending running⟩
    · exact started.src.remove.1
    · have taken := inv.sound.src.remove.2
      rw [untaken, List.nil_append] at taken
      exact taken
    · intro picture mem
      rcases List.mem_cons.mp mem with rfl | old
      · exact ⟨Nat.lt_succ_self _, fun _ => rfl⟩
      · exact ⟨(started.firmware picture old).1, fun runs => absurd runs (older picture old)⟩
  · exact refused
  · have sources := inv.sound.src.removeDone untaken
    have captures := inv.sound.dst.removeDone inv.sound.captures
    refine ⟨⟨started.once, started.finished, started.curr, sources.1, captures.1, sources.2,
      captures.2, started.own, ?_⟩, .arming s.jobs rfl (by simp [toArm]) pending running⟩
    intro picture mem
    exact ⟨(started.firmware picture mem).1, fun runs => absurd runs (older picture mem)⟩

theorem JobsInv.step {event : JobEvent} (inv : JobsInv s) (onTime : OnTime s event)
    (step : jobStep s event = some next) : JobsInv next := by
  cases event with
  | queueSrc idx =>
      rcases Option.ite_none_left_eq_some.mp step with ⟨inactive, done⟩
      cases done
      exact inv.queueSrc inactive
  | queueDst idx =>
      rcases Option.ite_none_left_eq_some.mp step with ⟨inactive, done⟩
      cases done
      exact inv.queueDst inactive
  | deviceRun outcome =>
      rcases Option.ite_none_right_eq_some.mp step with ⟨idle, done⟩
      cases done
      exact inv.deviceRun idle outcome
  | arm job =>
      rcases Option.ite_none_right_eq_some.mp step with ⟨mem, done⟩
      cases done
      exact inv.arm mem
  | finishEncode picture result =>
      rcases Option.ite_none_right_eq_some.mp step with ⟨mem, done⟩
      cases done
      exact inv.finishEncode onTime mem result
  | expire =>
      simp only [jobStep] at step
      split at step
      · next job pending _ =>
          cases step
          exact inv.expire pending
      · cases step
  | jobTimeout =>
      rcases Option.map_eq_some_iff.mp step with ⟨job, runs, rfl⟩
      exact inv.jobTimeout runs
  | cleanup =>
      rcases Option.ite_none_right_eq_some.mp step with ⟨⟨idle, -⟩, done⟩
      cases done
      exact inv.cleanup idle

/-- When no completion is early or late, every job is finished once and by its own. -/
theorem jobRun_ok {events : List JobEvent}
    (run : Run (fun s event next => OnTime s event ∧ jobStep s event = some next) .initial
      events s) : JobsOk s := by
  have inv : JobsInv s := by
    refine run.invariant ?_ .initial
    intro s event next inv step
    exact inv.step step.1 step.2
  exact inv.ok

end Steps

/-- One picture completes, one is never heard of, and one is rejected. -/
theorem jobRun_ok_three : ∃ events s,
    Run (fun s event next => OnTime s event ∧ jobStep s event = some next) .initial events s ∧
    JobsOk s ∧ s.finished = [2, 1, 0] ∧ s.timeouts = [(2, some 2), (1, some 1)] := by
  have done : (([.queueSrc 0, .queueSrc 1, .queueDst 0, .queueDst 1, .deviceRun .queued, .arm 0,
      .finishEncode ⟨0, some 0⟩ .ok, .deviceRun .queued, .arm 1, .queueSrc 0, .queueDst 0, .expire,
      .jobTimeout, .deviceRun .rejected, .arm 2, .expire, .jobTimeout, .cleanup] :
      List JobEvent).foldlM (fun s event => if OnTime s event then jobStep s event else none)
      .initial).any (fun s => decide (s.finished = [2, 1, 0] ∧
        s.timeouts = [(2, some 2), (1, some 1)])) = true := by
    decide +kernel
  rcases (Option.any_eq_true _ _).mp done with ⟨s, reached, facts⟩
  have run := Run.of_foldlM_guarded OnTime jobStep reached
  exact ⟨_, s, run, jobRun_ok run, of_decide_eq_true facts⟩

/-- A picture completes before its timeout is armed: the timeout finishes the next job. -/
theorem jobRun_not_ok : ¬∀ (events : List JobEvent) (s : EncJobs),
    Run (fun s event next => jobStep s event = some next) .initial events s → JobsOk s := by
  intro ok
  have done : (([.queueSrc 0, .queueSrc 1, .queueDst 0, .queueDst 1, .deviceRun .queued,
      .finishEncode ⟨0, some 0⟩ .ok, .arm 0, .deviceRun .queued, .arm 1, .expire, .jobTimeout] :
      List JobEvent).foldlM jobStep .initial).any
        (fun s => decide (s.timeouts = [(0, some 1)])) = true := by
    decide +kernel
  rcases (Option.any_eq_true _ _).mp done with ⟨s, reached, facts⟩
  have own := (ok _ s (Run.of_foldlM _ reached)).own (0, some 1)
    (by rw [of_decide_eq_true facts]; exact List.mem_singleton_self _)
  cases own

end MlKernel.Wave5
