import MlKernel.Lib.Chunks
import MlKernel.Lib.Run
import MlKernel.Spi.Ar9301

/-!
# Data phases over whole runs

A data phase moves exactly the bytes of its own operation as long as nothing of an earlier
operation is left in its way.  The FIFOs are never cleared, so an operation that gave up can leave
words in them, or leave the controller short of bytes; and the tail of a write is stored without a
look at the free space.
-/

namespace MlKernel.Spi

open Chunks BitField

/-! ### Promises -/

/-- What an operation promises when it returns. -/
structure OpResult.Exact (r : OpResult) : Prop where
  write : r.ret = 0 → r.op.Writes → r.clockedOut = r.op.bufOut
  read : r.ret = 0 → r.op.Reads → r.buf = r.clockedIn ∧ r.buf.length = r.op.nbytes
  own : r.ret ≠ 0 → r.slow = true

structure QspiOk (s : Qspi) : Prop where
  lost : s.lost = false
  results : ∀ r ∈ s.results, r.Exact

/-- The controller can finish its transfer with what the FIFOs hold, or have room for. -/
def Controller.Settles (hw : Controller) : Prop :=
  match hw.engine with
  | .idle => True
  | .writing left => left ≤ hw.tx.flatten.length
  | .reading left => (left + 3) / 4 + hw.rx.length ≤ ar9301FifoWords

instance : (hw : Controller) → Decidable hw.Settles
  | { engine := .idle, .. } => inferInstanceAs (Decidable True)
  | { engine := .writing left, tx, .. } =>
      inferInstanceAs (Decidable (left ≤ tx.flatten.length))
  | { engine := .reading left, rx, .. } =>
      inferInstanceAs (Decidable ((left + 3) / 4 + rx.length ≤ ar9301FifoWords))

/-- How many stores these bytes take: whole words, and then bytes. -/
def storesOf (bytes : List UInt8) : ℕ := bytes.length / 4 + bytes.length % 4

/-- An operation is only issued while the controller can settle the one before, its FIFO is empty
when it is armed, and a byte of the tail of a write that is more than the FIFO takes is only stored
when there is room. -/
def Undisturbed (s : Qspi) (event : QspiEvent) : Prop :=
  match event, s.pc with
  | .driver (.exec _), _ => s.hw.Settles
  | .driver (.poll true), .sendCmd op =>
      (op.Writes → s.hw.tx = []) ∧ (op.Reads → s.hw.rx = [])
  | .driver .store, .txTail op _ => storesOf op.bufOut ≤ ar9301FifoWords ∨ s.hw.txFree ≠ 0
  | _, _ => True

instance (s : Qspi) (event : QspiEvent) : Decidable (Undisturbed s event) := by
  unfold Undisturbed
  split
  all_goals infer_instance

/-! ### The controller's steps -/

theorem hwStep_cases {hw hw' : Controller} {event : HwEvent} (step : hwStep hw event = some hw') :
    (∃ left word tx, hw.engine = .writing left ∧ left ≠ 0 ∧ hw.tx = word :: tx ∧
        hw' = { hw with
          engine := .writing (left - word.length)
          tx
          clockedOut := hw.clockedOut ++ word.take left }) ∨
      (∃ left bytes, hw.engine = .reading left ∧ left ≠ 0 ∧ hw.rx.length < ar9301FifoWords ∧
        bytes.length = min 4 left ∧
        hw' = { hw with
          engine := .reading (left - bytes.length)
          rx := hw.rx ++ [bytes]
          clockedIn := hw.clockedIn ++ bytes }) ∨
      ((hw.engine = .writing 0 ∨ hw.engine = .reading 0) ∧ hw' = { hw with engine := .idle }) := by
  unfold hwStep at step
  split at step
  · next left word tx engine queue =>
      rcases Option.ite_none_left_eq_some.mp step with ⟨more, done⟩
      left
      exact ⟨left, word, tx, engine, more, queue, (Option.some.inj done).symm⟩
  · next _ bytes left engine =>
      rcases Option.ite_none_right_eq_some.mp step with ⟨⟨more, room, size⟩, done⟩
      right
      left
      exact ⟨left, bytes, engine, more, room, size, (Option.some.inj done).symm⟩
  · next left _ engine =>
      rcases Option.ite_none_right_eq_some.mp step with ⟨rfl, done⟩
      right
      right
      exact ⟨.inl engine, (Option.some.inj done).symm⟩
  · next left _ engine =>
      rcases Option.ite_none_right_eq_some.mp step with ⟨rfl, done⟩
      right
      right
      exact ⟨.inr engine, (Option.some.inj done).symm⟩
  · cases step

theorem Controller.Settles.step {hw hw' : Controller} {event : HwEvent} (settles : hw.Settles)
    (step : hwStep hw event = some hw') : hw'.Settles := by
  rcases hwStep_cases step with ⟨left, word, tx, engine, more, queue, rfl⟩ |
    ⟨left, bytes, engine, more, room, size, rfl⟩ | ⟨-, rfl⟩
  · simp only [Settles, engine, queue, List.flatten_cons, List.length_append] at settles ⊢
    omega
  · simp only [Settles, engine, List.length_append, List.length_singleton] at settles ⊢
    omega
  · trivial

/-- A controller that can settle is not stuck. -/
theorem Controller.Settles.canMove {hw : Controller} (settles : hw.Settles)
    (busy : hw.engine ≠ .idle) : hw.CanMove := by
  unfold Settles at settles
  split at settles
  · next engine => exact absurd engine busy
  · next left engine =>
      simp only [CanMove, engine]
      by_cases done : left = 0
      · exact .inl done
      · right
        intro empty
        rw [empty, List.flatten_nil, List.length_nil] at settles
        exact done (Nat.le_zero.mp settles)
  · next left engine =>
      simp only [CanMove, engine]
      omega

/-! ### Data phases -/

/-- Between arming a write and its end: what went out, what the FIFO holds and what is still to be
stored are, in this order, the buffer. -/
structure Writing (hw : Controller) (op : SpiMemOp) (rest : List UInt8) : Prop where
  writes : op.Writes
  bytes : hw.clockedOut ++ (hw.tx.flatten ++ rest) = op.bufOut
  engine : hw.engine = .writing (hw.tx.flatten ++ rest).length ∨
    hw.engine = .idle ∧ hw.tx.flatten ++ rest = []
  words : ∀ word ∈ hw.tx, word ≠ []
  stores : hw.tx.length + storesOf rest ≤ storesOf op.bufOut

/-- Between arming a read and its end: `pending` is what the FIFO holds, word by word, and `left`
what is still to come. -/
structure Reading (hw : Controller) (op : SpiMemOp) (got pending : List UInt8) (left : ℕ) :
    Prop where
  reads : op.Reads
  bytes : hw.clockedIn = got ++ pending
  queue : hw.rx = chunks 3 pending
  engine : hw.engine = .reading left ∨ hw.engine = .idle ∧ left = 0
  total : got.length + pending.length + left = op.nbytes
  whole : left = 0 ∨ 4 ∣ pending.length

/-- What holds of the controller at each place of the driver. -/
def PcOk (hw : Controller) (pc : Pc) : Prop :=
  match pc with
  | .idle => True
  | .sendCmd _ => hw.Settles
  | .txPoll op rest => Writing hw op rest ∧ 4 ≤ rest.length
  | .txBurst op n rest => Writing hw op rest ∧ n ≠ 0 ∧ 4 * n ≤ rest.length ∧ n ≤ hw.txFree
  | .txTail op rest => Writing hw op rest ∧ rest ≠ [] ∧ rest.length < 4
  | .txDrain op => Writing hw op []
  | .rxPoll op got => ∃ pending left, Reading hw op got pending left ∧ 4 ≤ op.nbytes - got.length
  | .rxBurst op n got => ∃ pending left, Reading hw op got pending left ∧ n ≠ 0 ∧
      4 * n ≤ op.nbytes - got.length ∧ 4 * n ≤ pending.length
  | .rxTail op got => ∃ pending left, Reading hw op got pending left ∧
      got.length < op.nbytes ∧ op.nbytes - got.length < 4
  | .rxTailWord op got => ∃ pending left, Reading hw op got pending left ∧
      op.nbytes - got.length < 4 ∧ pending ≠ []
  | .rxCheck op got => ∃ pending left, Reading hw op got pending left ∧ got.length = op.nbytes
  | .out => True

section Write

variable {hw : Controller} {op : SpiMemOp} {rest : List UInt8}

theorem Writing.step {hw' : Controller} {event : HwEvent} (writing : Writing hw op rest)
    (step : hwStep hw event = some hw') : Writing hw' op rest ∧ hw.txFree ≤ hw'.txFree := by
  rcases hwStep_cases step with ⟨left, word, tx, engine, more, queue, rfl⟩ |
    ⟨left, bytes, engine, more, room, size, rfl⟩ | ⟨engine, rfl⟩
  · have outstanding : left = word.length + (tx.flatten ++ rest).length := by
      rcases writing.engine with armed | ⟨retired, -⟩
      · rw [engine, queue] at armed
        simpa [Nat.add_assoc] using armed
      · rw [engine] at retired
        cases retired
    have whole : word.take left = word := List.take_of_length_le (by omega)
    have stores := writing.stores
    rw [queue, List.length_cons] at stores
    refine ⟨⟨writing.writes, ?_, ?_, ?_, by dsimp only; omega⟩, ?_⟩
    · have bytes := writing.bytes
      rw [queue] at bytes
      simpa [whole] using bytes
    · left
      simp only [Engine.writing.injEq]
      omega
    · intro other mem
      exact writing.words other (queue ▸ List.mem_cons_of_mem word mem)
    · simp only [Controller.txFree, queue, List.length_cons]
      omega
  · rcases writing.engine with armed | ⟨retired, -⟩
    · rw [engine] at armed
      cases armed
    · rw [engine] at retired
      cases retired
  · refine ⟨⟨writing.writes, writing.bytes, .inr ⟨rfl, ?_⟩, writing.words, writing.stores⟩,
      Nat.le_refl _⟩
    rcases writing.engine with armed | ⟨-, done⟩
    · rcases engine with engine | engine
      · rw [engine, Engine.writing.injEq] at armed
        exact List.length_eq_zero_iff.mp armed.symm
      · rw [engine] at armed
        cases armed
    · exact done

/-- A store into a FIFO with room moves the front of the rest into the FIFO. -/
theorem Writing.store (writing : Writing hw op rest) (room : hw.txFree ≠ 0) {count : ℕ}
    (nonempty : rest ≠ []) (positive : 0 < count)
    (fewer : storesOf (rest.drop count) < storesOf rest) :
    Writing (hw.storeTx (rest.take count)) op (rest.drop count) ∧
      (hw.storeTx (rest.take count)).txFree = hw.txFree - 1 := by
  have stored : hw.storeTx (rest.take count) = { hw with tx := hw.tx ++ [rest.take count] } := by
    rw [Controller.storeTx, if_neg room]
  have joined :
      (hw.tx ++ [rest.take count]).flatten ++ rest.drop count = hw.tx.flatten ++ rest := by
    simp
  have stores := writing.stores
  rw [stored]
  refine ⟨⟨writing.writes, ?_, ?_, ?_, ?_⟩, ?_⟩
  · simp only [joined]
    exact writing.bytes
  · simp only [joined]
    exact writing.engine
  · intro word mem
    rcases List.mem_append.mp mem with mem | mem
    · exact writing.words word mem
    · rw [List.mem_singleton] at mem
      subst mem
      simp only [ne_eq, List.take_eq_nil_iff, not_or]
      exact ⟨Nat.ne_of_gt positive, nonempty⟩
  · simp only [List.length_append, List.length_singleton]
    omega
  · simp only [Controller.txFree, List.length_append, List.length_singleton]
    omega

/-- A write that the FIFO takes whole has room for each byte of its tail. -/
theorem Writing.room_of_short (writing : Writing hw op rest) (some : rest ≠ [])
    (short : storesOf op.bufOut ≤ ar9301FifoWords) : hw.txFree ≠ 0 := by
  have stores := writing.stores
  have left : 0 < rest.length := List.length_pos_iff.mpr some
  have needed : 0 < storesOf rest := by
    unfold storesOf
    omega
  rw [Controller.txFree]
  omega

/-- While something is left to store, or in the FIFO, the engine is not starved for good. -/
theorem Writing.canMove (writing : Writing hw op rest) (full : hw.tx ≠ []) : hw.CanMove := by
  have some : hw.tx.flatten ++ rest ≠ [] := by
    intro empty
    rcases List.exists_cons_of_ne_nil full with ⟨word, tx, queue⟩
    have first := writing.words word (by simp [queue])
    simp only [List.append_eq_nil_iff, List.flatten_eq_nil_iff] at empty
    exact first (empty.1 word (by simp [queue]))
  rcases writing.engine with armed | ⟨-, done⟩
  · unfold Controller.CanMove
    simp only [armed]
    exact .inr full
  · exact absurd done some

theorem Writing.next (writing : Writing hw op rest) {n : ℕ} (words : 4 * n ≤ rest.length)
    (room : n ≤ hw.txFree) : PcOk hw (txNext op n rest) := by
  unfold txNext
  split
  · next some => exact ⟨writing, some, words, room⟩
  · split
    · next whole =>
        refine ⟨writing, ?_⟩
        omega
    · split
      · next tail => exact ⟨writing, tail, by omega⟩
      · next empty =>
          rw [not_not] at empty
          subst empty
          exact writing

end Write

section Read

variable {hw : Controller} {op : SpiMemOp} {got pending : List UInt8} {left : ℕ}

theorem Reading.step {hw' : Controller} {event : HwEvent} (reading : Reading hw op got pending left)
    (step : hwStep hw event = some hw') :
    ∃ more left', Reading hw' op got (pending ++ more) left' := by
  rcases hwStep_cases step with ⟨left', word, tx, engine, -, -, rfl⟩ |
    ⟨left', bytes, engine, more, room, size, rfl⟩ | ⟨engine, rfl⟩
  · rcases reading.engine with armed | ⟨retired, -⟩
    · rw [engine] at armed
      cases armed
    · rw [engine] at retired
      cases retired
  · have same : left' = left := by
      rcases reading.engine with armed | ⟨retired, -⟩
      · rw [engine] at armed
        exact Engine.reading.inj armed
      · rw [engine] at retired
        cases retired
    subst same
    have whole : 4 ∣ pending.length := reading.whole.resolve_left more
    have nonempty : bytes ≠ [] := by
      apply List.ne_nil_of_length_pos
      omega
    refine ⟨bytes, left' - bytes.length, reading.reads, ?_, ?_, .inl rfl, ?_, ?_⟩
    · simp [reading.bytes]
    · simp only [reading.queue]
      rw [chunks_append whole nonempty (by omega)]
    · have total := reading.total
      simp only [List.length_append]
      omega
    · simp only [List.length_append]
      omega
  · refine ⟨[], 0, reading.reads, ?_, ?_, .inr ⟨rfl, rfl⟩, ?_, .inl rfl⟩
    · rw [List.append_nil]
      exact reading.bytes
    · rw [List.append_nil]
      exact reading.queue
    · have total := reading.total
      have done : left = 0 := by
        rcases reading.engine with armed | ⟨-, done⟩
        · rcases engine with engine | engine
          · rw [engine] at armed
            cases armed
          · rw [engine] at armed
            exact (Engine.reading.inj armed).symm
        · exact done
      rw [List.append_nil]
      omega

theorem Reading.rxLevel_eq (reading : Reading hw op got pending left) :
    hw.rxLevel = pending.length / 4 := by
  rw [Controller.rxLevel, reading.queue]
  exact countP_chunks pending

/-- With nothing in the FIFO and something to come, the controller can move. -/
theorem Reading.canMove (reading : Reading hw op got [] left) (more : left ≠ 0) : hw.CanMove := by
  have empty := reading.queue
  rw [chunks_nil] at empty
  rcases reading.engine with armed | ⟨-, done⟩
  · unfold Controller.CanMove
    simp [armed, empty]
  · exact absurd done more

/-- A load of a whole word. -/
theorem Reading.load (reading : Reading hw op got pending left) (word : 4 ≤ pending.length) :
    Reading hw.popRx op (got ++ hw.rxWord) (pending.drop 4) left ∧
      (got ++ hw.rxWord).length = got.length + 4 := by
  have nonempty : pending ≠ [] := by
    apply List.ne_nil_of_length_pos
    omega
  have size : (pending.take 4).length = 4 := by
    rw [List.length_take]
    omega
  have first : hw.rxWord = pending.take 4 := by
    rw [Controller.rxWord, reading.queue, chunks_of_ne_nil nonempty, List.headD_cons,
      List.take_append_of_le_length (Nat.le_of_eq size.symm),
      List.take_of_length_le (Nat.le_of_eq size)]
  rw [first]
  refine ⟨⟨reading.reads, ?_, ?_, reading.engine, ?_, ?_⟩, ?_⟩
  · rw [List.append_assoc, List.take_append_drop]
    exact reading.bytes
  · rw [Controller.popRx, reading.queue, tail_chunks]
  · have total := reading.total
    rw [List.length_append, size, List.length_drop]
    omega
  · have whole := reading.whole
    rw [List.length_drop]
    omega
  · rw [List.length_append, size]

/-- A load of the partial word that ends a read. -/
theorem Reading.loadTail (reading : Reading hw op got pending left)
    (tail : op.nbytes - got.length < 4) (landed : pending ≠ []) :
    Reading hw.popRx op (got ++ hw.rxWord.take (op.nbytes - got.length)) [] 0 ∧
      (got ++ hw.rxWord.take (op.nbytes - got.length)).length = op.nbytes := by
  have total := reading.total
  have some : 0 < pending.length := List.length_pos_iff.mpr landed
  have done : left = 0 := by
    rcases reading.whole with done | whole
    · exact done
    · have := Nat.le_of_dvd some whole
      omega
  have size : op.nbytes - got.length = pending.length := by omega
  have word : hw.rxWord.take (op.nbytes - got.length) = pending := by
    have first : (chunks 3 pending).headD [] = pending := by
      rw [chunks_of_le landed (by omega), List.headD_cons]
    rw [Controller.rxWord, reading.queue, first, size, List.take_take, Nat.min_eq_left (by omega),
      List.take_left]
  rw [word]
  refine ⟨⟨reading.reads, ?_, ?_, ?_, ?_, .inl rfl⟩, ?_⟩
  · rw [List.append_nil]
    exact reading.bytes
  · rw [Controller.popRx, reading.queue, tail_chunks, List.drop_eq_nil_of_le (by omega)]
  · have engine := reading.engine
    rw [done] at engine
    exact engine
  · rw [List.length_append, List.length_nil]
    omega
  · rw [List.length_append]
    omega

theorem Reading.next (reading : Reading hw op got pending left) {n : ℕ}
    (words : 4 * n ≤ op.nbytes - got.length) (level : 4 * n ≤ pending.length) :
    PcOk hw (rxNext op n got) := by
  have total := reading.total
  unfold rxNext
  split
  · next some => exact ⟨pending, left, reading, some, words, level⟩
  · split
    · next whole =>
        refine ⟨pending, left, reading, ?_⟩
        omega
    · split
      · next short tail =>
          refine ⟨pending, left, reading, ?_, ?_⟩
          · omega
          · omega
      · next done =>
          refine ⟨pending, left, reading, ?_⟩
          omega

end Read

/-! ### Arming -/

theorem getLsbD_fieldPrep {shift width i : ℕ} (value : U32) (beyond : shift + width ≤ i) :
    (fieldPrep shift width value).getLsbD i = false := by
  rw [fieldPrep, BitVec.getLsbD_and, BitVec.getLsbD_shiftLeft (BitVec.ofNat 32 (2 ^ width - 1)),
    getLsbD_ones]
  have outside : ¬i - shift < width := by omega
  simp [outside]

/-- The direction bit and the length of the command arm the engine. -/
theorem arm_engine (hw : Controller) (op : SpiMemOp) :
    ({ hw with regs := ar9301SendCmd op hw.regs }).arm.engine =
      if op.dir = .dataOut then .writing op.nbytes else .reading op.nbytes := by
  have length : (BitVec.ofNat 32 op.nbytes).toNat = op.nbytes := by
    have capped := op.capped
    simp only [ar9301MaxDataLen] at capped
    rw [BitVec.toNat_ofNat, Nat.mod_eq_of_lt (by omega)]
  simp only [Controller.arm, ar9301SendCmd, length, ar9301CmdWrite]
  by_cases direction : op.dir = .dataOut
  · rw [if_pos direction, if_pos direction, if_pos]
    rw [ne_eq, and_bit_eq_zero (by decide), getLsbD_or_bit _ (by decide)]
    simp
  · rw [if_neg direction, if_neg direction, if_neg]
    rw [not_not, and_bit_eq_zero (by decide)]
    simp only [BitVec.getLsbD_or, ar9301CmdOpcode, ar9301CmdAddrBytes, ar9301CmdDummyBytes]
    rw [getLsbD_fieldPrep _ (by decide), getLsbD_fieldPrep _ (by decide),
      getLsbD_fieldPrep _ (by decide)]
    rfl

theorem writing_of_armed {hw : Controller} {op : SpiMemOp} (writes : op.Writes)
    (empty : hw.tx = []) :
    Writing ({ hw with regs := ar9301SendCmd op hw.regs }).arm op op.bufOut := by
  have engine := arm_engine hw op
  rw [if_pos writes.2] at engine
  refine ⟨writes, ?_, ?_, ?_, ?_⟩
  · simp [Controller.arm, empty]
  · left
    rw [engine]
    simp [Controller.arm, empty, op.staged writes.2]
  · simp [Controller.arm, empty]
  · simp [Controller.arm, empty]

theorem reading_of_armed {hw : Controller} {op : SpiMemOp} (reads : op.Reads) (empty : hw.rx = []) :
    Reading ({ hw with regs := ar9301SendCmd op hw.regs }).arm op [] [] op.nbytes := by
  have engine := arm_engine hw op
  rw [if_neg reads.2] at engine
  exact ⟨reads, rfl, by simp [Controller.arm, empty], .inl engine, by simp, .inr ⟨0, rfl⟩⟩

/-! ### Runs -/

/-- The promises, and what the driver's place says of the controller. -/
structure QspiInv (s : Qspi) : Prop where
  ok : QspiOk s
  pc : PcOk s.hw s.pc

theorem PcOk.step {hw hw' : Controller} {pc : Pc} {event : HwEvent} (ok : PcOk hw pc)
    (step : hwStep hw event = some hw') : PcOk hw' pc := by
  cases pc with
  | idle => trivial
  | sendCmd op => exact Controller.Settles.step ok step
  | txPoll op rest => exact ⟨(ok.1.step step).1, ok.2⟩
  | txBurst op n rest =>
      rcases ok with ⟨writing, some, words, room⟩
      rcases writing.step step with ⟨writing', freed⟩
      exact ⟨writing', some, words, Nat.le_trans room freed⟩
  | txTail op rest => exact ⟨(ok.1.step step).1, ok.2⟩
  | txDrain op => exact (Writing.step ok step).1
  | rxPoll op got =>
      rcases ok with ⟨pending, left, reading, words⟩
      rcases reading.step step with ⟨more, left', reading'⟩
      exact ⟨pending ++ more, left', reading', words⟩
  | rxBurst op n got =>
      rcases ok with ⟨pending, left, reading, some, words, level⟩
      rcases reading.step step with ⟨more, left', reading'⟩
      refine ⟨pending ++ more, left', reading', some, words, ?_⟩
      rw [List.length_append]
      omega
  | rxTail op got =>
      rcases ok with ⟨pending, left, reading, tail⟩
      rcases reading.step step with ⟨more, left', reading'⟩
      exact ⟨pending ++ more, left', reading', tail⟩
  | rxTailWord op got =>
      rcases ok with ⟨pending, left, reading, tail, landed⟩
      rcases reading.step step with ⟨more, left', reading'⟩
      exact ⟨pending ++ more, left', reading', tail, List.append_ne_nil_of_left_ne_nil landed more⟩
  | rxCheck op got =>
      rcases ok with ⟨pending, left, reading, done⟩
      rcases reading.step step with ⟨more, left', reading'⟩
      exact ⟨pending ++ more, left', reading', done⟩
  | out => trivial

theorem QspiOk.returns {s : Qspi} (ok : QspiOk s) {op : SpiMemOp} {ret : ℤ} {buf : List UInt8}
    (exact : OpResult.Exact ⟨op, ret, buf, s.hw.clockedOut, s.hw.clockedIn, s.slow⟩) :
    QspiInv (s.returns op ret buf) where
  ok := by
    refine ⟨ok.lost, ?_⟩
    intro r mem
    rcases List.mem_cons.mp mem with rfl | mem
    · exact exact
    · exact ok.results r mem
  pc := trivial

/-- A poll that gives up while the controller could still move. -/
theorem QspiOk.timesOut {s : Qspi} (ok : QspiOk s) (op : SpiMemOp) (buf : List UInt8)
    (moves : s.hw.CanMove) : QspiInv (s.timesOut op buf) := by
  have same : QspiOk { s with slow := s.slow || decide s.hw.CanMove } := ⟨ok.lost, ok.results⟩
  apply same.returns
  refine ⟨?_, ?_, ?_⟩
  · intro returned
    exact absurd (show etimedout = 0 from returned) (by decide)
  · intro returned
    exact absurd (show etimedout = 0 from returned) (by decide)
  · intro _
    simp [moves]

theorem SpiMemOp.not_reads_of_writes {op : SpiMemOp} (writes : op.Writes) : ¬op.Reads :=
  fun reads => reads.2 writes.2

/-- The controller is idle: the operation is armed, or is over when it has no data. -/
theorem QspiInv.armed {s : Qspi} (inv : QspiInv s) {op : SpiMemOp}
    (noTx : op.Writes → s.hw.tx = []) (noRx : op.Reads → s.hw.rx = []) :
    let s' := { s with hw := ({ s.hw with regs := ar9301SendCmd op s.hw.regs }).arm }
    QspiInv (if op.Writes then { s' with pc := txNext op 0 op.bufOut }
      else if op.Reads then { s' with pc := rxNext op 0 [] }
      else s'.returns op 0 []) := by
  have sameOk : ∀ hw pc, QspiOk { s with hw, pc } := fun _ _ => ⟨inv.ok.lost, inv.ok.results⟩
  intro s'
  by_cases writes : op.Writes
  · rw [if_pos writes]
    refine ⟨sameOk _ _, ?_⟩
    exact (writing_of_armed writes (noTx writes)).next (Nat.zero_le _) (Nat.zero_le _)
  · rw [if_neg writes]
    by_cases reads : op.Reads
    · rw [if_pos reads]
      refine ⟨sameOk _ _, ?_⟩
      exact (reading_of_armed reads (noRx reads)).next (n := 0) (Nat.zero_le _) (Nat.zero_le _)
    · rw [if_neg reads]
      apply QspiOk.returns (sameOk _ s.pc)
      refine ⟨?_, ?_, ?_⟩
      · exact fun _ absurdly => absurd absurdly writes
      · exact fun _ absurdly => absurd absurdly reads
      · exact fun absurdly => absurd rfl absurdly

/-- A full TX FIFO drains. -/
theorem Writing.canMove_of_full {hw : Controller} {op : SpiMemOp} {rest : List UInt8}
    (writing : Writing hw op rest) (filled : hw.txFree ≠ ar9301FifoWords) : hw.CanMove := by
  apply writing.canMove
  intro empty
  simp [Controller.txFree, empty] at filled

/-- With the TX FIFO empty and nothing left to store, the buffer went out. -/
theorem QspiInv.drained {s : Qspi} (inv : QspiInv s) {op : SpiMemOp}
    (writing : Writing s.hw op []) (drained : s.hw.txFree = ar9301FifoWords) :
    QspiInv (s.returns op 0 []) := by
  have empty : s.hw.tx = [] := by
    apply List.length_eq_zero_iff.mp
    simp only [Controller.txFree, ar9301FifoWords] at drained
    omega
  apply inv.ok.returns
  refine ⟨?_, ?_, ?_⟩
  · intro _ _
    have bytes := writing.bytes
    rw [empty] at bytes
    simpa using bytes
  · exact fun _ reads => absurd reads (SpiMemOp.not_reads_of_writes writing.writes)
  · exact fun absurdly => absurd rfl absurdly

/-- With nothing in the RX FIFO and bytes missing, more comes. -/
theorem Reading.canMove_of_empty {hw : Controller} {op : SpiMemOp} {got : List UInt8} {left : ℕ}
    (reading : Reading hw op got [] left) (more : got.length < op.nbytes) : hw.CanMove := by
  have total := reading.total
  apply reading.canMove
  simp only [List.length_nil] at total
  omega

/-- What the polls see leads to the next place, and a poll that gives up was not stuck. -/
theorem QspiInv.poll {s next : Qspi} {op : SpiMemOp} {buf : List UInt8} {condition : Bool}
    (inv : QspiInv s) (undisturbed : Undisturbed s (.driver (.poll condition)))
    (polled : pollOf s = some (op, buf, condition, next)) :
    (condition = true → QspiInv next) ∧ (condition = false → s.hw.CanMove) := by
  have pc := inv.pc
  have sameOk : ∀ pc, QspiOk { s with pc } := fun _ => ⟨inv.ok.lost, inv.ok.results⟩
  unfold pollOf at polled
  split at polled
  · next op' place =>
      cases polled
      rw [place] at pc
      simp only [decide_eq_true_eq, decide_eq_false_iff_not]
      refine ⟨?_, Controller.Settles.canMove pc⟩
      intro idle
      simp only [Undisturbed, place, idle, decide_true] at undisturbed
      exact inv.armed undisturbed.1 undisturbed.2
  · next op' rest place =>
      cases polled
      rw [place] at pc
      rcases pc with ⟨writing, words⟩
      simp only [decide_eq_true_eq, decide_eq_false_iff_not, not_not]
      constructor
      · intro room
        exact ⟨sameOk _, writing.next (by omega) (Nat.min_le_left _ _)⟩
      · intro full
        exact writing.canMove_of_full (full ▸ by decide)
  · next op' place =>
      cases polled
      rw [place] at pc
      simp only [decide_eq_true_eq, decide_eq_false_iff_not]
      exact ⟨inv.drained pc, Writing.canMove_of_full pc⟩
  · next op' got place =>
      cases polled
      rw [place] at pc
      rcases pc with ⟨pending, left, reading, words⟩
      have level := reading.rxLevel_eq
      have total := reading.total
      simp only [decide_eq_true_eq, decide_eq_false_iff_not, not_not]
      constructor
      · intro landed
        exact ⟨sameOk _, reading.next (by omega) (by omega)⟩
      · intro none
        have empty : pending = [] := by
          apply List.length_eq_zero_iff.mp
          rcases reading.whole with done | whole
          · omega
          · omega
        subst empty
        exact reading.canMove_of_empty (by omega)
  · next op' got place =>
      cases polled
      rw [place] at pc
      rcases pc with ⟨pending, left, reading, more, tail⟩
      simp only [decide_eq_true_eq, decide_eq_false_iff_not, not_not, reading.queue, ne_eq,
        chunks_eq_nil]
      constructor
      · intro landed
        exact ⟨sameOk _, pending, left, reading, tail, landed⟩
      · intro empty
        subst empty
        exact reading.canMove_of_empty more
  · cases polled

theorem QspiInv.store {s : Qspi} {op : SpiMemOp} {rest : List UInt8} (inv : QspiInv s)
    (writing : Writing s.hw op rest) (room : s.hw.txFree ≠ 0) {n count : ℕ} (nonempty : rest ≠ [])
    (positive : 0 < count) (fewer : storesOf (rest.drop count) < storesOf rest)
    (words : 4 * n ≤ (rest.drop count).length) (fits : n + 1 ≤ s.hw.txFree) :
    QspiInv { s.store (rest.take count) with pc := txNext op n (rest.drop count) } := by
  rcases writing.store room nonempty positive fewer with ⟨writing', free⟩
  refine ⟨⟨?_, inv.ok.results⟩, ?_⟩
  · simp [Qspi.store, inv.ok.lost, room]
  · refine Writing.next writing' words ?_
    omega

theorem QspiInv.driverStep {s next : Qspi} {event : DriverEvent} (inv : QspiInv s)
    (undisturbed : Undisturbed s (.driver event)) (step : driverStep s event = some next) :
    QspiInv next := by
  have pc := inv.pc
  have sameOk : ∀ hw pc, QspiOk { s with hw, pc } := fun _ _ => ⟨inv.ok.lost, inv.ok.results⟩
  unfold Spi.driverStep at step
  split at step
  · next op place =>
      cases step
      exact ⟨⟨inv.ok.lost, inv.ok.results⟩, undisturbed⟩
  · next seen =>
      split at step
      · next op buf condition after polled =>
          rcases Option.ite_none_left_eq_some.mp step with ⟨same, done⟩
          rw [not_not] at same
          subst same
          rcases inv.poll undisturbed polled with ⟨saw, gaveUp⟩
          cases seen with
          | true =>
              cases done
              exact saw rfl
          | false =>
              cases done
              exact inv.ok.timesOut op buf (gaveUp rfl)
      · cases step
  · next op n rest place =>
      cases step
      rw [place] at pc
      rcases pc with ⟨writing, some, words, room⟩
      apply inv.store writing (by omega) ?_ (by omega) ?_ ?_ (by omega)
      · apply List.ne_nil_of_length_pos
        omega
      · simp only [storesOf, List.length_drop]
        omega
      · rw [List.length_drop]
        omega
  · next op rest place =>
      cases step
      rw [place] at pc
      rcases pc with ⟨writing, some, tail⟩
      simp only [Undisturbed, place] at undisturbed
      have left : 0 < rest.length := List.length_pos_iff.mpr some
      have room : s.hw.txFree ≠ 0 := undisturbed.elim (writing.room_of_short some) id
      apply inv.store writing room some (by omega) ?_ (Nat.zero_le _) (by omega)
      simp only [storesOf, List.length_drop]
      omega
  · next op n got place =>
      cases step
      rw [place] at pc
      rcases pc with ⟨pending, left, reading, some, words, level⟩
      rcases reading.load (by omega) with ⟨reading', size⟩
      refine ⟨sameOk _ _, reading'.next ?_ ?_⟩
      · omega
      · rw [List.length_drop]
        omega
  · next op got place =>
      cases step
      rw [place] at pc
      rcases pc with ⟨pending, left, reading, tail, landed⟩
      rcases reading.loadTail tail landed with ⟨reading', size⟩
      exact ⟨sameOk _ _, [], 0, reading', size⟩
  · next op got place =>
      cases step
      rw [place] at pc
      rcases pc with ⟨pending, left, reading, done⟩
      have total := reading.total
      have empty : pending = [] := by
        apply List.length_eq_zero_iff.mp
        omega
      subst empty
      have drained : s.hw.rx = [] := by rw [reading.queue, chunks_nil]
      rw [if_pos drained]
      apply inv.ok.returns
      refine ⟨?_, ?_, ?_⟩
      · exact fun _ writes => absurd reading.reads (SpiMemOp.not_reads_of_writes writes)
      · intro _ _
        have bytes := reading.bytes
        rw [List.append_nil] at bytes
        exact ⟨bytes.symm, done⟩
      · exact fun absurdly => absurd rfl absurdly
  · next place =>
      cases step
      exact ⟨sameOk _ _, trivial⟩
  · cases step

theorem QspiInv.step {s next : Qspi} {event : QspiEvent} (inv : QspiInv s)
    (undisturbed : Undisturbed s event) (step : qspiStep s event = some next) : QspiInv next := by
  cases event with
  | hw event =>
      rcases Option.map_eq_some_iff.mp step with ⟨hw, moved, rfl⟩
      exact ⟨⟨inv.ok.lost, inv.ok.results⟩, inv.pc.step moved⟩
  | driver event => exact inv.driverStep undisturbed step

theorem Qspi.initial_inv : QspiInv .initial :=
  ⟨⟨rfl, fun _ mem => absurd mem List.not_mem_nil⟩, trivial⟩

end MlKernel.Spi
