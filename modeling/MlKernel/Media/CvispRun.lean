import MlKernel.Media.CvispMoves

/-!
# Every buffer in one place, and in order

What each move of the buffers keeps, a run keeps.  The plane registers follow
`held[0]` or the vendor's ring, except that a frame tick may come between the plane
writes of `ar_cvisp_configure`.
-/

namespace MlKernel.Media

namespace CvispSystem

def decided (s : CvispSystem) : List Completion :=
  s.returned.filterMap (·.completion?) ++ s.completing.toList

/-- The DONE completions of one stream. -/
def decidedOf (s : CvispSystem) (stream : ℕ) : List Completion :=
  s.decided.filter fun c => c.stream = stream

/-- The places of a buffer that vb2 has handed to the driver. -/
def holders (s : CvispSystem) : List ArCvispBuffer :=
  s.cv.bufferList ++ Pipeline.contents s.cv.held ++ (s.completing.map (·.buffer)).toList ++
    s.op.pending

end CvispSystem

/-! ### What vb2 is promised -/

structure BuffersOk (depth : ℕ) (s : CvispSystem) : Prop where
  distinct : (s.owned.map (·.index)).Nodup
  placed : s.holders.Perm s.owned
  heldOwned : ∀ buf, some buf ∈ s.cv.held → buf ∈ s.owned
  returnedOnce : s.queued.Perm (s.returned.map (·.buffer) ++ s.owned)
  ordered : ∀ k, (s.decidedOf k).map (·.buffer) <:+: s.queued
  numbered : ∀ k, (s.decidedOf k).map (·.sequence) =
    (List.range (s.decidedOf k).length).map UInt32.ofNat
  aged : ∀ c ∈ s.decided, c.armedAt + depth ≤ c.doneAt

/-- No tick has still to complete a buffer when the driver has returned what it had. -/
def CompletesFirst (s : CvispSystem) : CvispEvent → Prop
  | .handBack => s.op.finishes = true → s.completing.isNone = true
  | _ => True

instance (s : CvispSystem) (event : CvispEvent) : Decidable (CompletesFirst s event) :=
  match event with
  | .handBack => inferInstanceAs (Decidable (s.op.finishes = true → _))
  | .queue _ | .streamOn .. | .configureWrite | .configured | .start | .streamOff | .takeBuffers
  | .tick _ | .tickDone => .isTrue trivial

/-- One plane write of `ar_cvisp_configure` is left. -/
def QueueOp.lastWrite : QueueOp → Bool
  | configuring [_] => true
  | _ => false

/-- Before the last plane write the other two planes are the table's. -/
def SparesTable (s : CvispSystem) : CvispEvent → Prop
  | .configureWrite => s.op.lastWrite = true →
      s.cv.planes.y = some (arCvispRing arCvispSetupSlot).y ∧
        s.cv.planes.u = some (arCvispRing arCvispSetupSlot).u
  | _ => True

instance (s : CvispSystem) (event : CvispEvent) : Decidable (SparesTable s event) :=
  match event with
  | .configureWrite => inferInstanceAs (Decidable (s.op.lastWrite = true → _))
  | .queue _ | .streamOn .. | .configured | .start | .streamOff | .takeBuffers | .handBack
  | .tick _ | .tickDone => .isTrue trivial

/-! ### The slots -/

structure SlotsOk (depth : ℕ) (s : CvispSystem) : Prop where
  slots : s.cv.held.length = arCvispMaxDepth
  within : Pipeline.Within depth s.cv.held
  streaming : s.op ≠ .idle → s.cv.streaming = false
  stopped : s.cv.streaming = false → s.op.settled = true → Pipeline.contents s.cv.held = []
  table : ∀ writes, s.op = .configuring writes → writes <:+ arCvispSetupPlanes
  emptied : ∀ state pending, s.op = .returning state pending →
    s.cv.bufferList = [] ∧ Pipeline.contents s.cv.held = []

section Invariants

variable {depth : ℕ} {s next : CvispSystem} {event : CvispEvent}

theorem within_replicate (count : ℕ) :
    Pipeline.Within depth (List.replicate count (none : Option ArCvispBuffer)) :=
  fun _ mem => List.eq_of_mem_replicate (List.mem_of_mem_drop mem)

theorem SlotsOk.used (ok : SlotsOk depth s) (bound : depth ≤ arCvispMaxDepth) :
    depth ≤ s.cv.held.length := by
  rw [ok.slots]
  exact bound

theorem SlotsOk.step (ok : SlotsOk depth s) (positive : 0 < depth) (bound : depth ≤ arCvispMaxDepth)
    (move : CvispMove depth s event next) : SlotsOk depth next := by
  have used := ok.used bound
  cases move with
  | queued buf idle fresh =>
      exact ⟨ok.slots, ok.within, ok.streaming, ok.stopped, ok.table,
        fun _ _ returning => absurd (idle.symm.trans returning) (by nofun)⟩
  | ticked rotate cv free same goesOn planes =>
      refine ⟨?_, ?_, ?_, ?_, ok.table, ?_⟩
      · rw [same.held]
        exact ok.slots
      · rw [same.held]
        exact ok.within
      · rw [goesOn]
        exact ok.streaming
      · rw [goesOn, same.held]
        exact ok.stopped
      · rw [same.list, same.held]
        exact ok.emptied
  | moved event other cv op same moves planes =>
      refine ⟨?_, ?_, fun _ => moves.stopped, ?_, ?_,
        fun state pending returning => absurd returning (moves.unreturned state pending)⟩
      · rw [same.held]
        exact ok.slots
      · rw [same.held]
        exact ok.within
      · intro _ settled
        rw [same.held]
        exact ok.stopped (moves.settled settled).1 (moves.settled settled).2
      · intro writes configuring
        have table := moves.table writes configuring
        subst table
        exact List.suffix_rfl
  | wrote write writes configuring =>
      have off := ok.streaming (by rw [configuring]; nofun)
      refine ⟨ok.slots, ok.within, fun _ => off, ?_, ?_, nofun⟩
      · intro _ _
        exact ok.stopped off (by rw [configuring]; rfl)
      · rintro _ ⟨⟩
        exact (List.suffix_cons write writes).trans (ok.table _ configuring)
  | started first cv starting on =>
      rcases arCvispStreamOn_some on with ⟨_, streaming, _, held, _⟩
      refine ⟨by rw [held]; rfl, ?_, fun busy => absurd rfl busy, ?_, nofun, nofun⟩
      · intro slot mem
        rw [held] at mem
        rw [← Nat.sub_add_cancel positive, List.drop_succ_cons] at mem
        exact List.eq_of_mem_replicate (List.mem_of_mem_drop mem)
      · intro off
        exact absurd (off.symm.trans streaming) Bool.false_ne_true
  | armed next cv free arms =>
      have noOther : ∀ {claim : Prop}, s.op ≠ .idle → claim := fun busy =>
        absurd ((ok.streaming busy).symm.trans arms.streaming) Bool.false_ne_true
      refine ⟨?_, ?_, noOther, ?_, ok.table, ?_⟩
      · rw [arms.held, Pipeline.length_enter]
        exact ok.slots
      · rw [arms.held]
        exact Pipeline.within_enter positive used ok.within next
      · intro off
        exact absurd (off.symm.trans arms.streaming') Bool.false_ne_true
      · intro state pending returning
        exact noOther (returning.trans_ne (by nofun))
  | taken state handing =>
      refine ⟨List.length_replicate, within_replicate _, ?_, ?_, nofun,
        fun _ _ _ => ⟨rfl, Pipeline.contents_replicate_none _⟩⟩
      · intro _
        exact ok.streaming (by rw [handing]; nofun)
      · intro _ _
        exact Pipeline.contents_replicate_none _
  | handedBack state buf pending returning =>
      refine ⟨ok.slots, ok.within, ?_, ?_, nofun, fun _ _ _ => ok.emptied _ _ returning⟩
      · intro _
        exact ok.streaming (by rw [returning]; nofun)
      · intro off _
        exact ok.stopped off (by rw [returning]; rfl)
  | completed c completing =>
      exact ⟨ok.slots, ok.within, ok.streaming, ok.stopped, ok.table, ok.emptied⟩

/-! ### Custody -/

structure Custody (s : CvispSystem) : Prop where
  distinct : (s.owned.map (·.index)).Nodup
  placed : s.holders.Perm s.owned
  returnedOnce : s.queued.Perm (s.returned.map (·.buffer) ++ s.owned)

/-- A buffer that vb2 gets back leaves the one place it was in. -/
theorem Custody.giveBack (ok : Custody s) (call : BufferDone) (rest : List ArCvispBuffer)
    (placed : (call.buffer :: rest).Perm s.owned) :
    ((s.giveBack call).owned.map (·.index)).Nodup ∧ rest.Perm (s.giveBack call).owned ∧
      s.queued.Perm ((s.giveBack call).returned.map (·.buffer) ++ (s.giveBack call).owned) := by
  have others : rest.Perm (s.giveBack call).owned := by
    have distinct : (call.buffer.index :: rest.map (·.index)).Nodup :=
      (placed.map ArCvispBuffer.index).nodup_iff.mpr ok.distinct
    have left := placed.filter fun buf => decide (buf.index ≠ call.buffer.index)
    rw [List.filter_cons_of_neg (by simp), List.filter_eq_self.mpr] at left
    · exact left
    · intro buf mem
      have apart := (List.nodup_cons.mp distinct).1
      refine decide_eq_true fun same => apart ?_
      rw [← same]
      exact List.mem_map_of_mem mem
  refine ⟨?_, others, ?_⟩
  · exact ok.distinct.sublist (List.Sublist.map _ List.filter_sublist)
  · refine ok.returnedOnce.trans ?_
    have put : s.owned.Perm (call.buffer :: (s.giveBack call).owned) :=
      placed.symm.trans (others.cons _)
    refine (put.append_left _).trans ?_
    rw [CvispSystem.giveBack, List.map_append, List.append_assoc]
    exact .refl _

theorem Custody.step (ok : Custody s) (slots : SlotsOk depth s) (positive : 0 < depth)
    (bound : depth ≤ arCvispMaxDepth) (move : CvispMove depth s event next) : Custody next := by
  have placed := fun buf => ok.placed.count_eq buf
  simp only [CvispSystem.holders, List.count_append] at placed
  cases move with
  | queued buf idle fresh =>
      refine ⟨?_, List.perm_iff_count.mpr fun other => ?_, ?_⟩
      · rw [List.map_append, List.nodup_append]
        refine ⟨ok.distinct, List.pairwise_singleton _ _, ?_⟩
        rintro index mem _ same rfl
        rw [List.map_singleton, List.mem_singleton] at same
        exact fresh (same ▸ mem)
      · simp only [CvispSystem.holders, arCvispBufferQueue, List.count_append]
        have := placed other
        omega
      · rw [← List.append_assoc]
        exact ok.returnedOnce.append_right [buf]
  | ticked rotate cv free same goesOn planes =>
      refine ⟨ok.distinct, ?_, ok.returnedOnce⟩
      have holders := ok.placed
      rw [CvispSystem.holders, free] at holders
      rw [CvispSystem.holders, same.list, same.held]
      exact holders
  | moved event other cv op same moves planes =>
      refine ⟨ok.distinct, ?_, ok.returnedOnce⟩
      have holders := ok.placed
      rw [CvispSystem.holders, moves.taken] at holders
      rw [CvispSystem.holders, same.list, same.held, moves.taken']
      exact holders
  | wrote write writes configuring =>
      refine ⟨ok.distinct, ?_, ok.returnedOnce⟩
      have holders := ok.placed
      rw [CvispSystem.holders, configuring] at holders
      exact holders
  | started first cv starting on =>
      rcases arCvispStreamOn_some on with ⟨list, _, _, held, _⟩
      have empty := slots.stopped (slots.streaming (by rw [starting]; nofun))
        (by rw [starting]; rfl)
      refine ⟨ok.distinct, List.perm_iff_count.mpr fun other => ?_, ok.returnedOnce⟩
      have before := placed other
      rw [empty, list, starting] at before
      simp only [CvispSystem.holders, CvispSystem.noteArmed, held, Pipeline.contents_cons,
        Pipeline.contents_replicate_none, List.count_append, QueueOp.pending, Option.toList,
        List.count_cons, List.count_nil] at before ⊢
      omega
  | armed next cv free arms =>
      have used := slots.used bound
      have through := Pipeline.contents_enter positive used slots.within next
      refine ⟨ok.distinct, List.perm_iff_count.mpr fun other => ?_, ok.returnedOnce⟩
      have before := placed other
      have counted := congrArg (List.count other) through
      rw [arms.list, free] at before
      rw [← arms.held] at counted
      simp only [CvispSystem.holders, CvispSystem.noteArmed, leaver_buffer, Option.map_none,
        Option.toList_none, List.count_append, List.count_cons, List.count_nil]
        at before counted ⊢
      omega
  | taken state handing =>
      refine ⟨ok.distinct, List.perm_iff_count.mpr fun other => ?_, ok.returnedOnce⟩
      have before := placed other
      have held := (Pipeline.contents_perm s.cv.held).count_eq other
      rw [handing] at before
      simp only [CvispSystem.holders, arCvispTakeBuffers, QueueOp.pending,
        Pipeline.contents_replicate_none, List.count_append, List.count_nil] at before ⊢
      omega
  | handedBack state buf pending returning =>
      have rest := ok.giveBack (.handedBack buf state)
        (s.cv.bufferList ++ Pipeline.contents s.cv.held ++
          (s.completing.map (·.buffer)).toList ++ pending) ?_
      · exact ⟨rest.1, rest.2.1, rest.2.2⟩
      · refine .trans ?_ ok.placed
        rw [CvispSystem.holders, returning]
        exact List.perm_middle.symm
  | completed c completing =>
      have rest := ok.giveBack (.done c)
        (s.cv.bufferList ++ Pipeline.contents s.cv.held ++ s.op.pending) ?_
      · refine ⟨rest.1, ?_, rest.2.2⟩
        change (s.cv.bufferList ++ Pipeline.contents s.cv.held ++ [] ++ s.op.pending).Perm _
        rw [List.append_nil]
        exact rest.2.1
      · refine .trans ?_ ok.placed
        rw [CvispSystem.holders, completing]
        change (c.buffer :: _).Perm (_ ++ [c.buffer] ++ _)
        rw [List.append_assoc _ [c.buffer]]
        exact List.perm_middle.symm

/-! ### The order of the completions -/

theorem map_range_succ (count : ℕ) :
    (List.range (count + 1)).map UInt32.ofNat =
      (List.range count).map UInt32.ofNat ++ [UInt32.ofNat count] := by
  rw [List.range_succ, List.map_append, List.map_singleton]

theorem decided_ticked (free : s.completing = none) (cv : ArCvisp) :
    ({ s with cv, completing := none } : CvispSystem).decided = s.decided := by
  rw [CvispSystem.decided, CvispSystem.decided, free]

theorem decided_handedBack (buf : ArCvispBuffer) (state : HandBackState) :
    (s.giveBack (.handedBack buf state)).decided = s.decided := by
  rw [CvispSystem.decided, CvispSystem.giveBack, List.filterMap_append]
  exact congrArg (· ++ _) (List.append_nil _)

theorem decided_completed {c : Completion} (completing : s.completing = some c) :
    ({ s.giveBack (.done c) with completing := none } : CvispSystem).decided = s.decided := by
  rw [CvispSystem.decided, CvispSystem.giveBack, List.filterMap_append, CvispSystem.decided,
    completing]
  exact List.append_nil _

theorem decided_armed (free : s.completing = none) (buf : ArCvispBuffer) (cv : ArCvisp) :
    ({ s.noteArmed (some buf) with cv, completing := leaver depth s } : CvispSystem).decided =
      s.decided ++ (leaver depth s).toList := by
  rw [CvispSystem.decided, CvispSystem.decided, free, Option.toList_none, List.append_nil]
  rfl

structure InOrder (s : CvispSystem) : Prop where
  waiting : s.cv.streaming = false → s.op.settled = true → s.cv.bufferList <:+ s.queued
  current : s.cv.streaming = true →
    (s.decidedOf s.stream).map (·.buffer) ++ (Pipeline.contents s.cv.held ++ s.cv.bufferList) <:+
      s.queued
  sequence : s.cv.streaming = true →
    s.cv.sequence = UInt32.ofNat (s.decidedOf s.stream).length
  ordered : ∀ k, (s.decidedOf k).map (·.buffer) <:+: s.queued
  numbered : ∀ k, (s.decidedOf k).map (·.sequence) =
    (List.range (s.decidedOf k).length).map UInt32.ofNat
  known : ∀ c ∈ s.decided, c.stream ≤ s.stream

/-- A move that completes nothing leaves the decided completions. -/
theorem InOrder.of_decided (ok : InOrder s) (decided : next.decided = s.decided)
    (queued : s.queued <:+: next.queued) (streams : s.stream ≤ next.stream)
    (waiting : next.cv.streaming = false → next.op.settled = true →
      next.cv.bufferList <:+ next.queued)
    (current : next.cv.streaming = true →
      (next.decidedOf next.stream).map (·.buffer) ++
        (Pipeline.contents next.cv.held ++ next.cv.bufferList) <:+ next.queued)
    (sequence : next.cv.streaming = true →
      next.cv.sequence = UInt32.ofNat (next.decidedOf next.stream).length) : InOrder next := by
  have decidedOf : ∀ k, next.decidedOf k = s.decidedOf k := by
    intro k
    rw [CvispSystem.decidedOf, decided]
    rfl
  refine ⟨waiting, current, sequence, ?_, ?_, ?_⟩
  · intro k
    rw [decidedOf]
    exact (ok.ordered k).trans queued
  · intro k
    rw [decidedOf]
    exact ok.numbered k
  · intro c mem
    rw [decided] at mem
    exact Nat.le_trans (ok.known c mem) streams

theorem InOrder.of_same (ok : InOrder s) (decided : next.decided = s.decided)
    (cv : next.cv = s.cv) (queued : next.queued = s.queued) (stream : next.stream = s.stream)
    (settled : next.op.settled = true → s.op.settled = true) : InOrder next := by
  have decidedOf : next.decidedOf = s.decidedOf := by
    funext k
    rw [CvispSystem.decidedOf, decided]
    rfl
  refine ok.of_decided decided ?_ (Nat.le_of_eq stream.symm) ?_ ?_ ?_
  · exact queued ▸ List.infix_refl _
  · rw [cv, queued]
    exact fun off done => ok.waiting off (settled done)
  · rw [cv, queued, stream, decidedOf]
    exact ok.current
  · rw [cv, stream, decidedOf]
    exact ok.sequence

theorem suffix_append_right {before after : List ArCvispBuffer} (suffix : before <:+ after)
    (more : List ArCvispBuffer) : before ++ more <:+ after ++ more := by
  rcases suffix with ⟨front, rfl⟩
  exact ⟨front, by rw [List.append_assoc]⟩

theorem decidedOf_started (ok : InOrder s) : s.decidedOf (s.stream + 1) = [] := by
  apply List.filter_eq_nil_iff.mpr
  intro c mem
  have known := ok.known c mem
  simp only [decide_eq_true_eq]
  omega

/-- A completion that is decided belongs to the stream that runs. -/
theorem decidedOf_leaver (decided : next.decided = s.decided ++ (leaver depth s).toList) :
    next.decidedOf s.stream = s.decidedOf s.stream ++ (leaver depth s).toList := by
  rw [CvispSystem.decidedOf, decided, List.filter_append, leaver]
  congr 1
  cases Pipeline.leaving depth s.cv.held with
  | none => rfl
  | some done => exact List.filter_cons_of_pos (decide_eq_true rfl)

theorem decidedOf_leaver_of_ne (decided : next.decided = s.decided ++ (leaver depth s).toList)
    {k : ℕ} (other : k ≠ s.stream) : next.decidedOf k = s.decidedOf k := by
  rw [CvispSystem.decidedOf, decided, List.filter_append, leaver]
  cases Pipeline.leaving depth s.cv.held with
  | none => exact List.append_nil _
  | some done =>
      rw [Option.map_some, Option.toList_some,
        List.filter_cons_of_neg (by simpa using other.symm)]
      exact List.append_nil _

theorem InOrder.armed (ok : InOrder s) (slots : SlotsOk depth s) (positive : 0 < depth)
    (bound : depth ≤ arCvispMaxDepth) {buf : ArCvispBuffer} (arms : Arms depth s.cv buf next.cv)
    (queued : next.queued = s.queued) (stream : next.stream = s.stream)
    (decided : next.decided = s.decided ++ (leaver depth s).toList) : InOrder next := by
  have used := slots.used bound
  have through := Pipeline.contents_enter positive used slots.within buf
  have before := ok.current arms.streaming
  have ofThis := decidedOf_leaver decided
  have current : (next.decidedOf s.stream).map (·.buffer) ++
      (Pipeline.contents next.cv.held ++ next.cv.bufferList) <:+ next.queued := by
    rw [arms.list, ← List.singleton_append, ← List.append_assoc (Pipeline.contents _), ← through]
      at before
    rw [ofThis, List.map_append, ← Option.toList_map, leaver_buffer, queued, arms.held]
    simpa only [List.append_assoc] using before
  refine ⟨?_, ?_, ?_, ?_, ?_, ?_⟩
  · intro off
    exact absurd (off.symm.trans arms.streaming') Bool.false_ne_true
  · intro _
    rw [stream]
    exact current
  · intro _
    rw [stream, ofThis, arms.sequence, ok.sequence arms.streaming, leaver]
    cases Pipeline.leaving depth s.cv.held with
    | none => simp
    | some done => simp
  · intro k
    by_cases this : k = s.stream
    · subst this
      exact (List.prefix_append _ _).isInfix.trans current.isInfix
    · rw [decidedOf_leaver_of_ne decided this, queued]
      exact ok.ordered k
  · intro k
    by_cases this : k = s.stream
    · subst this
      have numbered := ok.numbered s.stream
      have sequence := ok.sequence arms.streaming
      rw [ofThis, List.map_append, List.length_append, numbered, leaver]
      cases Pipeline.leaving depth s.cv.held with
      | none => exact List.append_nil _
      | some done =>
          change _ ++ [s.cv.sequence] = _
          rw [sequence]
          exact (map_range_succ _).symm
    · rw [decidedOf_leaver_of_ne decided this]
      exact ok.numbered k
  · intro c mem
    rw [decided] at mem
    rw [stream]
    rcases List.mem_append.mp mem with old | new
    · exact ok.known c old
    · rw [leaver] at new
      rcases Option.map_eq_some_iff.mp (Option.mem_toList.mp new) with ⟨done, _, rfl⟩
      exact Nat.le_refl _

theorem InOrder.step (ok : InOrder s) (slots : SlotsOk depth s) (positive : 0 < depth)
    (bound : depth ≤ arCvispMaxDepth) (move : CvispMove depth s event next) : InOrder next := by
  cases move with
  | queued buf idle fresh =>
      refine ok.of_decided rfl (List.prefix_append _ _).isInfix (Nat.le_refl _) ?_ ?_ ok.sequence
      · intro off settled
        exact suffix_append_right (ok.waiting off settled) [buf]
      · intro on
        have suffix := suffix_append_right (ok.current on) [buf]
        rw [List.append_assoc, List.append_assoc] at suffix
        exact suffix
  | ticked rotate cv free same goesOn planes =>
      have decided := decided_ticked free cv
      refine ok.of_decided decided (List.infix_refl _) (Nat.le_refl _) ?_ ?_ ?_
      · rw [goesOn, same.list]
        exact ok.waiting
      · rw [CvispSystem.decidedOf, decided, goesOn, same.list, same.held]
        exact ok.current
      · rw [CvispSystem.decidedOf, decided, goesOn, same.sequence]
        exact ok.sequence
  | moved event other cv op same moves planes =>
      have off : ∀ {claim : Prop}, cv.streaming = true → claim := fun on =>
        absurd (moves.stopped.symm.trans on) Bool.false_ne_true
      refine ok.of_decided rfl (List.infix_refl _) (Nat.le_refl _) ?_ off off
      intro _ settled
      rw [same.list]
      exact ok.waiting (moves.settled settled).1 (moves.settled settled).2
  | wrote write writes configuring =>
      refine ok.of_decided rfl (List.infix_refl _) (Nat.le_refl _) ?_ ok.current ok.sequence
      intro off _
      exact ok.waiting off (by rw [configuring]; rfl)
  | started first cv starting on =>
      rcases arCvispStreamOn_some on with ⟨list, streaming, sequence, held, _⟩
      have decided := decidedOf_started ok
      have queue := ok.waiting (slots.streaming (by rw [starting]; nofun)) (by rw [starting]; rfl)
      refine ok.of_decided rfl (List.infix_refl _) (Nat.le_succ _) ?_ ?_ ?_
      · intro off
        exact absurd (off.symm.trans streaming) Bool.false_ne_true
      · intro _
        change (s.decidedOf (s.stream + 1)).map _ ++
          (Pipeline.contents cv.held ++ cv.bufferList) <:+ s.queued
        rw [decided, held, Pipeline.contents_cons, Pipeline.contents_replicate_none]
        rw [list] at queue
        exact queue
      · intro _
        change cv.sequence = UInt32.ofNat (s.decidedOf (s.stream + 1)).length
        rw [decided, sequence]
        rfl
  | armed buf cv free arms =>
      exact ok.armed slots positive bound arms rfl rfl (decided_armed free buf cv)
  | taken state handing =>
      have off := slots.streaming (by rw [handing]; nofun)
      have never : ∀ {claim : Prop}, s.cv.streaming = true → claim := fun on =>
        absurd (off.symm.trans on) Bool.false_ne_true
      exact ok.of_decided rfl (List.infix_refl _) (Nat.le_refl _)
        (fun _ _ => List.nil_suffix) never never
  | handedBack state buf pending returning =>
      refine ok.of_same (decided_handedBack buf state) rfl rfl rfl ?_
      intro _
      rw [returning]
      rfl
  | completed c completing => exact ok.of_same (decided_completed completing) rfl rfl rfl id

/-! ### The age of a completed buffer -/

structure AgesOk (depth : ℕ) (s : CvispSystem) : Prop where
  held : Pipeline.Aged (fun buf => s.armedAt buf.index) s.arms s.cv.held
  decided : ∀ c ∈ s.decided, c.armedAt + depth = c.doneAt

/-- What is held and what is queued are different buffers. -/
theorem Custody.apart (ok : Custody s) {held queued : ArCvispBuffer}
    (isHeld : held ∈ Pipeline.contents s.cv.held) (isQueued : queued ∈ s.cv.bufferList) :
    held.index ≠ queued.index := by
  have distinct : (s.holders.map (·.index)).Nodup := (ok.placed.map _).nodup_iff.mpr ok.distinct
  rw [CvispSystem.holders, List.append_assoc, List.map_append, List.map_append] at distinct
  have queue := (List.nodup_append.mp (List.nodup_append.mp distinct).1).2.2
  exact (queue _ (List.mem_map_of_mem isQueued) _ (List.mem_map_of_mem isHeld)).symm

theorem AgesOk.step (ok : AgesOk depth s) (slots : SlotsOk depth s) (custody : Custody s)
    (positive : 0 < depth) (bound : depth ≤ arCvispMaxDepth) (move : CvispMove depth s event next) :
    AgesOk depth next := by
  cases move with
  | queued buf idle fresh => exact ⟨ok.held, ok.decided⟩
  | ticked rotate cv free same goesOn planes =>
      refine ⟨?_, ?_⟩
      · rw [same.held]
        exact ok.held
      · rw [decided_ticked free]
        exact ok.decided
  | moved event other cv op same moves planes =>
      refine ⟨?_, ok.decided⟩
      rw [same.held]
      exact ok.held
  | wrote write writes configuring => exact ⟨ok.held, ok.decided⟩
  | started first cv starting on =>
      rcases arCvispStreamOn_some on with ⟨_, _, _, held, _⟩
      refine ⟨?_, ok.decided⟩
      rw [held]
      apply Pipeline.Aged.single
      exact if_pos rfl
  | armed buf cv free arms =>
      have used := slots.used bound
      refine ⟨?_, ?_⟩
      · rw [arms.held]
        refine ok.held.enter positive used slots.within (if_pos rfl) ?_
        intro held isHeld
        apply if_neg
        exact custody.apart isHeld (by rw [arms.list]; exact List.mem_cons_self)
      · intro c mem
        rw [decided_armed free buf cv] at mem
        rcases List.mem_append.mp mem with old | new
        · exact ok.decided c old
        · rcases Option.map_eq_some_iff.mp (Option.mem_toList.mp new) with ⟨done, leaves, rfl⟩
          have age := ok.held.leaving leaves
          change s.armedAt done.index + depth = s.arms + 1
          omega
  | taken state handing =>
      exact ⟨.of_empty (Pipeline.contents_replicate_none _) _ _, ok.decided⟩
  | handedBack state buf pending returning =>
      refine ⟨ok.held, ?_⟩
      intro c mem
      exact ok.decided c ((decided_handedBack buf state) ▸ mem)
  | completed c completing =>
      refine ⟨ok.held, ?_⟩
      rw [decided_completed completing]
      exact ok.decided

/-! ### The planes -/

/-- Outside the plane writes of `ar_cvisp_configure` the planes are right. -/
def PlanesIntact (s : CvispSystem) : Prop :=
  s.op.tableOpen = false → PlanesOk s.cv

theorem arCvispRing_v : ∀ slot, (arCvispRing arCvispSetupSlot).v = (arCvispRing slot).v →
    slot = arCvispSetupSlot := by
  decide

/-- The last plane write ends with the ring slot that the table is for, or with no slot. -/
theorem planesOk_lastWrite {cv : ArCvisp} (stopped : cv.streaming = false) {write : PlaneWrite}
    (last : [write] <:+ arCvispSetupPlanes) :
    PlanesOk { cv with planes := cv.planes.write write } ↔
      cv.planes.y = some (arCvispRing arCvispSetupSlot).y ∧
        cv.planes.u = some (arCvispRing arCvispSetupSlot).u := by
  have isV : write = .v (arCvispRing arCvispSetupSlot).v := by
    rcases last with ⟨front, split⟩
    have same := congrArg List.getLast? split
    rw [List.getLast?_append] at same
    exact Option.some.inj same
  subst isV
  constructor
  · intro ok
    cases ok with
    | unwritten never => cases congrArg PlaneRegs.v never
    | ring slot programmed =>
        have v : (arCvispRing arCvispSetupSlot).v = (arCvispRing slot).v :=
          Option.some.inj (congrArg PlaneRegs.v programmed)
        have isLast := arCvispRing_v slot v
        subst isLast
        exact ⟨congrArg PlaneRegs.y programmed, congrArg PlaneRegs.u programmed⟩
    | held buf on young programmed => exact absurd (stopped.symm.trans on) Bool.false_ne_true
  · rintro ⟨y, u⟩
    refine .ring arCvispSetupSlot ?_
    rw [PlaneRegs.write, y, u]
    rfl

/-- A step keeps the planes right exactly when it spares the table. -/
theorem planesIntact_iff (slots : SlotsOk depth s) (positive : 0 < depth)
    (bound : depth ≤ arCvispMaxDepth) (intact : PlanesIntact s)
    (move : CvispMove depth s event next) : PlanesIntact next ↔ SparesTable s event := by
  cases move with
  | queued buf idle fresh =>
      refine iff_of_true (fun closed => ?_) trivial
      exact (intact closed).of_same rfl rfl rfl
  | ticked rotate cv free same goesOn planes =>
      exact iff_of_true (fun closed => planes (intact closed)) trivial
  | moved event other cv op same moves planes =>
      refine iff_of_true (fun _ => planes (intact moves.closed)) ?_
      cases event <;> first | exact absurd rfl other | trivial
  | wrote write writes configuring =>
      have off := slots.streaming (by rw [configuring]; nofun)
      have within := slots.table _ configuring
      cases writes with
      | nil =>
          have lastIff := planesOk_lastWrite off within
          rw [PlanesIntact, SparesTable, configuring, ← lastIff]
          exact ⟨fun ok _ => ok rfl, fun ok _ => ok rfl⟩
      | cons second writes =>
          have shorter : (second :: writes).length < arCvispSetupPlanes.length :=
            Nat.lt_of_lt_of_le (Nat.lt_succ_self _) within.length_le
          refine iff_of_true (fun closed => ?_) ?_
          · have isOpen : QueueOp.tableOpen (.configuring (second :: writes)) = true :=
              decide_eq_true shorter
            exact absurd (closed.symm.trans isOpen) Bool.false_ne_true
          · intro last
            rw [configuring] at last
            cases last
  | started first cv starting on =>
      rcases arCvispStreamOn_some on with ⟨_, streaming, _, held, planes⟩
      refine iff_of_true (fun _ => .held first streaming ?_ planes) trivial
      rw [held]
      rfl
  | armed buf cv free arms =>
      have used := slots.used bound
      refine iff_of_true (fun _ => .held buf arms.streaming' ?_ arms.planes) trivial
      rw [arms.held]
      exact Pipeline.head_enter positive used buf
  | taken state handing =>
      have off := slots.streaming (by rw [handing]; nofun)
      refine iff_of_true (fun _ => ?_) trivial
      exact (intact (by rw [handing]; rfl)).of_stopped off rfl
  | handedBack state buf pending returning =>
      refine iff_of_true (fun _ => ?_) trivial
      exact intact (by rw [returning]; rfl)
  | completed c completing => exact iff_of_true intact trivial

/-! ### Every run -/

theorem mem_holders_of_held {buf : ArCvispBuffer} (isHeld : some buf ∈ s.cv.held) :
    buf ∈ s.holders := by
  have mem := Pipeline.mem_contents.mpr isHeld
  rw [CvispSystem.holders, List.append_assoc]
  exact List.mem_append_left _ (List.mem_append_right _ mem)

structure CvispOk (depth : ℕ) (s : CvispSystem) : Prop where
  slots : SlotsOk depth s
  custody : Custody s
  order : InOrder s
  ages : AgesOk depth s

theorem CvispOk.probed : CvispOk depth .probed where
  slots := ⟨rfl, within_replicate _, fun busy => absurd rfl busy,
    fun _ _ => Pipeline.contents_replicate_none _, nofun, nofun⟩
  custody := ⟨.nil, .refl _, .refl _⟩
  order := ⟨fun _ _ => List.suffix_rfl, nofun, nofun, fun _ => List.infix_refl _, fun _ => rfl,
    nofun⟩
  ages := ⟨.of_empty (Pipeline.contents_replicate_none _) _ _, nofun⟩

theorem QueueOp.finishes_iff {op : QueueOp} :
    op.finishes = true ↔ ∃ state, op = .returning state [] := by
  constructor
  · intro finishes
    cases op with
    | returning state pending =>
        cases pending with
        | nil => exact ⟨state, rfl⟩
        | cons => cases finishes
    | idle | configuring | starting | handingBack => cases finishes
  · rintro ⟨state, rfl⟩
    rfl

/-- What the driver still has once its lists are empty is a buffer that a tick completes. -/
theorem CvispOk.owned_of_finishes (ok : CvispOk depth s) (finishes : s.op.finishes = true) :
    (s.completing.map (·.buffer)).toList.Perm s.owned := by
  rcases QueueOp.finishes_iff.mp finishes with ⟨state, returning⟩
  have placed := ok.custody.placed
  rcases ok.slots.emptied _ _ returning with ⟨list, held⟩
  rw [CvispSystem.holders, list, held, returning] at placed
  rwa [QueueOp.pending, List.append_nil, List.nil_append, List.nil_append] at placed

theorem CvispOk.move (ok : CvispOk depth s) (first : CompletesFirst s event)
    (step : cvispStep depth s event = some next) : CvispMove depth s event next := by
  refine cvispStep_move ok.slots.streaming ?_ step
  rintro rfl finishes
  have owned := ok.owned_of_finishes finishes
  rw [Option.isNone_iff_eq_none.mp (first finishes)] at owned
  exact owned.nil_eq.symm

theorem CvispOk.step (ok : CvispOk depth s) (positive : 0 < depth)
    (bound : depth ≤ arCvispMaxDepth) (first : CompletesFirst s event)
    (step : cvispStep depth s event = some next) : CvispOk depth next where
  slots := ok.slots.step positive bound (ok.move first step)
  custody := ok.custody.step ok.slots positive bound (ok.move first step)
  order := ok.order.step ok.slots positive bound (ok.move first step)
  ages := ok.ages.step ok.slots ok.custody positive bound (ok.move first step)

/-- A buffer that vb2 has to take back is still one that the driver completes. -/
theorem completesFirst_of_placed (step : cvispStep depth s event = some next)
    (placed : next.holders.Perm next.owned) : CompletesFirst s event := by
  cases event with
  | handBack =>
      intro finishes
      rcases QueueOp.finishes_iff.mp finishes with ⟨state, returning⟩
      rw [cvispStep, returning] at step
      cases step
      cases completing : s.completing with
      | none => rfl
      | some c =>
          have held : c.buffer ∈ s.reclaim.holders := by
            simp [CvispSystem.holders, CvispSystem.reclaim, completing]
          exact absurd (placed.subset held) List.not_mem_nil
  | queue | streamOn | configureWrite | configured | start | streamOff | takeBuffers | tick
  | tickDone => trivial

theorem CvispOk.buffersOk (ok : CvispOk depth s) : BuffersOk depth s where
  distinct := ok.custody.distinct
  placed := ok.custody.placed
  heldOwned := fun _ isHeld => ok.custody.placed.subset (mem_holders_of_held isHeld)
  returnedOnce := ok.custody.returnedOnce
  ordered := ok.order.ordered
  numbered := ok.order.numbered
  aged := fun c mem => Nat.le_of_eq (ok.ages.decided c mem)

end Invariants

section Runs

variable {depth : ℕ} {events : List CvispEvent} {finish : CvispSystem}

def CvispStep (depth : ℕ) (s : CvispSystem) (event : CvispEvent) (next : CvispSystem) : Prop :=
  cvispStep depth s event = some next

/-- Every state that the events lead through has the property. -/
def CvispThroughout (depth : ℕ) (events : List CvispEvent) (property : CvispSystem → Prop) : Prop :=
  ∀ before rest middle, events = before ++ rest →
    Run (CvispStep depth) .probed before middle → property middle

/-- In a run the buffers are right all the way exactly when the driver completes what a tick has
taken before it gives its queue up, and the planes with them exactly when every step spares the
table too. -/
theorem cvispBuffers_ok (positive : 0 < depth) (bound : depth ≤ arCvispMaxDepth)
    (run : Run (CvispStep depth) .probed events finish) :
    (CvispThroughout depth events (BuffersOk depth) ↔
      Run (fun s event next => CompletesFirst s event ∧ CvispStep depth s event next)
        .probed events finish) ∧
    (CvispThroughout depth events (fun s => BuffersOk depth s ∧ PlanesIntact s) ↔
      Run (fun s event next =>
          (CompletesFirst s event ∧ SparesTable s event) ∧ CvispStep depth s event next)
        .probed events finish) := by
  constructor
  · refine run.throughout_iff_guarded_of_sound (fun _ ok => CvispOk.buffersOk ok) ?_ .probed
    intro s event next ok step
    exact ⟨fun buffers => completesFirst_of_placed step buffers.placed,
      fun first => ok.step positive bound first step⟩
  · have exactly : ∀ s event next, CvispOk depth s ∧ PlanesIntact s →
        cvispStep depth s event = some next →
        (BuffersOk depth next ∧ PlanesIntact next → CompletesFirst s event ∧ SparesTable s event) ∧
          (CompletesFirst s event ∧ SparesTable s event →
            CvispOk depth next ∧ PlanesIntact next) := by
      rintro s event next ⟨ok, intact⟩ step
      have planes := fun first =>
        planesIntact_iff ok.slots positive bound intact (ok.move first step)
      constructor
      · intro good
        have first := completesFirst_of_placed step good.1.placed
        exact ⟨first, (planes first).mp good.2⟩
      · rintro ⟨first, spares⟩
        exact ⟨ok.step positive bound first step, (planes first).mpr spares⟩
    have shows : ∀ s, CvispOk depth s ∧ PlanesIntact s → BuffersOk depth s ∧ PlanesIntact s :=
      fun _ both => ⟨both.1.buffersOk, both.2⟩
    exact run.throughout_iff_guarded_of_sound shows exactly ⟨.probed, fun _ => .unwritten rfl⟩

end Runs

/-- Three buffers, one of them completed and queued again, a tick with nothing queued, and the
end of the stream while a tick completes a buffer. -/
theorem cvispBuffers_ok_stopped :
    ∃ s, Run (fun s event next =>
          (CompletesFirst s event ∧ SparesTable s event) ∧ CvispStep 2 s event next) .probed
        [.queue ⟨0, 0x29000000, 0x29220000, 0x292a8000⟩,
          .queue ⟨1, 0x29330000, 0x29550000, 0x295d8000⟩,
          .queue ⟨2, 0x29660000, 0x29880000, 0x29908000⟩, .tick true, .streamOn true true 0 0,
          .configureWrite, .configureWrite, .configureWrite, .configureWrite, .configureWrite,
          .configureWrite, .configured, .tick true, .start, .tick true, .tick true, .tickDone,
          .tick true, .queue ⟨0, 0x29000000, 0x29220000, 0x292a8000⟩, .tick true, .streamOff,
          .takeBuffers, .handBack, .tickDone, .handBack, .tick false, .handBack] s ∧
      s.returned.length = 4 ∧ s.owned = [] ∧ BuffersOk 2 s ∧ PlanesIntact s := by
  have checked : ([.queue ⟨0, 0x29000000, 0x29220000, 0x292a8000⟩,
      .queue ⟨1, 0x29330000, 0x29550000, 0x295d8000⟩,
      .queue ⟨2, 0x29660000, 0x29880000, 0x29908000⟩, .tick true, .streamOn true true 0 0,
      .configureWrite, .configureWrite, .configureWrite, .configureWrite, .configureWrite,
      .configureWrite, .configured, .tick true, .start, .tick true, .tick true, .tickDone,
      .tick true, .queue ⟨0, 0x29000000, 0x29220000, 0x292a8000⟩, .tick true, .streamOff,
      .takeBuffers, .handBack, .tickDone, .handBack, .tick false, .handBack].foldlM
        (fun s event =>
          if CompletesFirst s event ∧ SparesTable s event then cvispStep 2 s event else none)
        CvispSystem.probed).any (fun s =>
          decide (s.returned.length = 4 ∧ s.owned = [])) = true := by
    decide +kernel
  rcases (Option.any_eq_true _ _).mp checked with ⟨s, done, facts⟩
  rcases of_decide_eq_true facts with ⟨four, none⟩
  have guarded := Run.of_foldlM_guarded
    (fun s event => CompletesFirst s event ∧ SparesTable s event) (cvispStep 2) done
  have run := guarded.imp fun _ _ _ step => step.2
  have ok := (cvispBuffers_ok (by decide) (by decide) run).2.mpr guarded _ [] s
    (List.append_nil _).symm run
  exact ⟨s, guarded, four, none, ok.1, ok.2⟩

/-- A frame tick comes after four of the six plane writes. -/
theorem cvispPlanes_mixed :
    ∃ s, Run (CvispStep 1) .probed
        [.queue ⟨0, 0x29000000, 0x29220000, 0x292a8000⟩,
          .queue ⟨1, 0x29330000, 0x29550000, 0x295d8000⟩, .streamOn true true 0 0, .configureWrite,
          .configureWrite, .configureWrite, .configureWrite, .tick true, .configureWrite,
          .configureWrite, .configured] s ∧
      s.op.tableOpen = false ∧ ¬ PlanesOk s.cv := by
  have mixed : ([.queue ⟨0, 0x29000000, 0x29220000, 0x292a8000⟩,
      .queue ⟨1, 0x29330000, 0x29550000, 0x295d8000⟩, .streamOn true true 0 0, .configureWrite,
      .configureWrite, .configureWrite, .configureWrite, .tick true, .configureWrite,
      .configureWrite, .configured].foldlM (cvispStep 1) CvispSystem.probed).any (fun s =>
        decide (s.op.tableOpen = false ∧ s.cv.streaming = false ∧
          s.cv.planes = ⟨some (arCvispRing 0).y, some (arCvispRing 4).u, some (arCvispRing 4).v⟩)) =
      true := by
    decide +kernel
  rcases (Option.any_eq_true _ _).mp mixed with ⟨s, done, facts⟩
  rcases of_decide_eq_true facts with ⟨closed, stopped, planes⟩
  refine ⟨s, Run.of_foldlM (cvispStep 1) done, closed, ?_⟩
  intro ok
  cases ok with
  | unwritten never =>
      rw [planes] at never
      cases never
  | ring slot programmed =>
      rw [planes] at programmed
      revert programmed
      revert slot
      decide
  | held buf on young programmed => exact absurd (stopped.symm.trans on) Bool.false_ne_true

/-- A STREAMOFF is over before the tick completes its buffer, which vb2 has taken back by then. -/
theorem cvispBuffers_returnedTwice :
    ∃ s, Run (CvispStep 1) .probed
        [.queue ⟨0, 0x29000000, 0x29220000, 0x292a8000⟩,
          .queue ⟨1, 0x29330000, 0x29550000, 0x295d8000⟩, .streamOn true true 0 0, .configureWrite,
          .configureWrite, .configureWrite, .configureWrite, .configureWrite, .configureWrite,
          .configured, .start, .tick true, .streamOff, .takeBuffers, .handBack, .handBack,
          .tickDone] s ∧
      s.queued.map (·.index) = [0, 1] ∧ s.returned.map (·.buffer.index) = [1, 0, 0] := by
  have twice : ([.queue ⟨0, 0x29000000, 0x29220000, 0x292a8000⟩,
      .queue ⟨1, 0x29330000, 0x29550000, 0x295d8000⟩, .streamOn true true 0 0, .configureWrite,
      .configureWrite, .configureWrite, .configureWrite, .configureWrite, .configureWrite,
      .configured, .start, .tick true, .streamOff, .takeBuffers, .handBack, .handBack,
      .tickDone].foldlM (cvispStep 1) CvispSystem.probed).any (fun s =>
        decide (s.queued.map (·.index) = [0, 1] ∧
          s.returned.map (·.buffer.index) = [1, 0, 0])) = true := by
    decide +kernel
  rcases (Option.any_eq_true _ _).mp twice with ⟨s, done, facts⟩
  exact ⟨s, Run.of_foldlM (cvispStep 1) done, of_decide_eq_true facts⟩

/-- The buffers and the planes each have a run in which they are not right. -/
theorem not_cvispBuffers :
    (∃ events s, Run (CvispStep 1) .probed events s ∧ ¬ BuffersOk 1 s) ∧
      ∃ events s, Run (CvispStep 1) .probed events s ∧ ¬ PlanesIntact s := by
  rcases cvispBuffers_returnedTwice with ⟨twice, twiceRun, queued, returned⟩
  rcases cvispPlanes_mixed with ⟨mixed, mixedRun, closed, wrong⟩
  refine ⟨⟨_, twice, twiceRun, fun ok => ?_⟩, ⟨_, mixed, mixedRun, fun ok => wrong (ok closed)⟩⟩
  have once := (ok.returnedOnce.map (·.index)).length_eq
  rw [queued, List.map_append, List.length_append, List.map_map] at once
  have three := congrArg List.length returned
  simp only [List.length_map, List.length_cons, List.length_nil] at once three
  omega

end MlKernel.Media
