import MlKernel.Sdio.Recv

/-!
# The reader of the command queue

A short read puts the rest of its frame back at the head of `cmd_rxq`, where the
overflow of `artosyn_sdio_recv` looks for the oldest frame.  The stream of the
reader stays whole as long as no run arrives at a full queue while the head is
such a rest: `SparesStarted`.
-/

namespace MlKernel.Sdio

/-- The `cap` of the `LINK_TYPE_CMD` case. -/
def LinkRx.cmdRxqCap (eth : LinkRx) : ℕ :=
  if eth.cmdReaders ≠ 0 then cmdRxqMaxReader else cmdRxqMaxIdle

inductive ReadErrno
  | eagain
  | efault
  deriving DecidableEq

/-- `artosyn_do_read` on an fd that does not block, with the result of `copy_to_user`. -/
def artosynDoRead (eth : LinkRx) (count : ℕ) (copied : Bool) :
    Except ReadErrno (List UInt8) × LinkRx :=
  if count = 0 then (.ok [], eth)
  else
    match eth.cmdRxq with
    | [] => (.error .eagain, eth)
    | skb :: rest =>
      let n := min skb.length count
      if copied = false then (.error .efault, eth)
      else if skb.length ≤ n then (.ok (skb.take n), { eth with cmdRxq := rest })
      else (.ok (skb.take n), { eth with cmdRxq := skb.drop n :: rest })

/-- The receive half and its reader, and a record of both ends. -/
structure CmdSystem where
  eth : LinkRx
  /-- The payloads of the 0xDD runs, oldest first. -/
  received : List (List UInt8)
  /-- The bytes that reads have returned. -/
  delivered : List UInt8
  /-- The head of `cmd_rxq` is the rest of a frame that a read has begun. -/
  headStarted : Bool

def CmdSystem.initial : CmdSystem :=
  { eth := .initial, received := [], delivered := [], headStarted := false }

inductive CmdEvent
  | recv (payload : List UInt8)
  | read (count : ℕ) (copied : Bool)
  | open
  | close
  deriving DecidableEq

/-- A read that is short of its frame. -/
def CmdSystem.cutsShort (s : CmdSystem) (count : ℕ) : Bool :=
  s.eth.cmdRxq.head?.any fun skb => count < skb.length

def cmdStep (netdevAllocSkb : ℕ → Bool) (s : CmdSystem) : CmdEvent → CmdSystem
  | .recv payload =>
    { s with
      eth := recvCmd netdevAllocSkb s.eth payload
      received := s.received ++ [payload]
      headStarted := s.headStarted && s.eth.cmdRxq.length < s.eth.cmdRxqCap }
  | .read count copied =>
    match artosynDoRead s.eth count copied with
    | (.ok bytes, eth) =>
      { s with
        eth
        delivered := s.delivered ++ bytes
        headStarted := if count = 0 then s.headStarted else s.cutsShort count }
    | (.error _, eth) => { s with eth }
  | .open => { s with eth.cmdReaders := s.eth.cmdReaders + 1 }
  | .close => { s with eth.cmdReaders := s.eth.cmdReaders - 1 }

/-! ### What the reader is promised -/

/-- The bytes are whole payloads in the order they were received, or whole ones and a part of
the next, whose rest is at the head of the queue. -/
inductive StreamIntact (s : CmdSystem) : Prop where
  | whole (frames : List (List UInt8)) (inOrder : frames.Sublist s.received)
      (given : s.delivered = frames.flatten)
  | cut (frames : List (List UInt8)) (frame : List UInt8) (taken : ℕ)
      (inOrder : (frames ++ [frame]).Sublist s.received)
      (started : 0 < taken) (unfinished : taken < frame.length)
      (given : s.delivered = frames.flatten ++ frame.take taken)
      (remains : s.eth.cmdRxq.head? = some (frame.drop taken))

/-- No run arrives at a full queue whose head has been begun. -/
def SparesStarted (s : CmdSystem) : CmdEvent → Prop
  | .recv _ => s.headStarted = true → s.eth.cmdRxq.length < s.eth.cmdRxqCap
  | _ => True

instance (s : CmdSystem) (event : CmdEvent) : Decidable (SparesStarted s event) :=
  match event with
  | .recv _ => inferInstanceAs (Decidable (s.headStarted = true → _))
  | .read .. | .open | .close => .isTrue trivial

/-! ### The invariant -/

/-- What was delivered, and what is still queued behind it. -/
inductive StreamOk (s : CmdSystem) : Prop where
  | between (frames : List (List UInt8)) (notStarted : s.headStarted = false)
      (inOrder : (frames ++ s.eth.cmdRxq).Sublist s.received)
      (given : s.delivered = frames.flatten)
  | within (frames : List (List UInt8)) (frame : List UInt8) (taken : ℕ)
      (rest : List (List UInt8)) (isStarted : s.headStarted = true)
      (queue : s.eth.cmdRxq = frame.drop taken :: rest)
      (inOrder : (frames ++ frame :: rest).Sublist s.received)
      (started : 0 < taken) (unfinished : taken < frame.length)
      (given : s.delivered = frames.flatten ++ frame.take taken)

theorem StreamOk.intact {s : CmdSystem} (ok : StreamOk s) : StreamIntact s := by
  cases ok with
  | between frames notStarted inOrder given =>
      exact .whole frames ((List.sublist_append_left frames _).trans inOrder) given
  | within frames frame taken rest isStarted queue inOrder started unfinished given =>
      refine .cut frames frame taken (.trans ?_ inOrder) started unfinished given ?_
      · apply List.Sublist.append_left
        simp
      · rw [queue, List.head?_cons]

/-- The overflow drops from the head, and nothing below the cap. -/
theorem trimCmdRxq_sublist (cap : ℕ) (cmdRxq : List (List UInt8)) (overflow : UInt32) :
    (trimCmdRxq cap cmdRxq overflow).1.Sublist cmdRxq := by
  fun_induction trimCmdRxq cap cmdRxq overflow with
  | case1 overflow => exact .refl _
  | case2 overflow old rest full ih => exact ih.trans (List.sublist_cons_self old rest)
  | case3 overflow old rest room => exact .refl _

theorem trimCmdRxq_of_lt {cap : ℕ} {cmdRxq : List (List UInt8)} (room : cmdRxq.length < cap)
    (overflow : UInt32) : trimCmdRxq cap cmdRxq overflow = (cmdRxq, overflow) := by
  cases cmdRxq with
  | nil => rfl
  | cons old rest => rw [trimCmdRxq, if_neg (Nat.not_le.mpr room)]

section Step

variable {netdevAllocSkb : ℕ → Bool} {s : CmdSystem}

/-- The queue as a run leaves it. -/
theorem recvCmd_cmdRxq (eth : LinkRx) (payload : List UInt8) :
    (recvCmd netdevAllocSkb eth payload).cmdRxq =
      if netdevAllocSkb eth.rx.skbAllocs then
        (trimCmdRxq eth.cmdRxqCap eth.cmdRxq eth.cmdRxqOverflow).1 ++ [payload]
      else (trimCmdRxq eth.cmdRxqCap eth.cmdRxq eth.cmdRxqOverflow).1 := rfl

/-- Whatever is kept of the queue, the new payload comes behind it. -/
theorem sublist_arrival {frames kept received : List (List UInt8)} (payload : List UInt8)
    (allocated : Bool) (inOrder : (frames ++ kept).Sublist received) :
    (frames ++ if allocated then kept ++ [payload] else kept).Sublist
      (received ++ [payload]) := by
  split
  · rw [← List.append_assoc]
    exact inOrder.append (.refl _)
  · exact inOrder.trans (List.sublist_append_left _ _)

theorem StreamOk.recv (ok : StreamOk s) {payload : List UInt8}
    (spares : SparesStarted s (.recv payload)) :
    StreamOk (cmdStep netdevAllocSkb s (.recv payload)) := by
  cases ok with
  | between frames notStarted inOrder given =>
      refine .between frames (by simp [cmdStep, notStarted]) ?_ given
      simp only [cmdStep, recvCmd_cmdRxq]
      apply sublist_arrival
      exact (List.Sublist.append_left (trimCmdRxq_sublist ..) frames).trans inOrder
  | within frames frame taken rest isStarted queue inOrder started unfinished given =>
      have room := spares isStarted
      rcases (⟨_, rfl⟩ : ∃ after, after =
        if netdevAllocSkb s.eth.rx.skbAllocs then rest ++ [payload] else rest) with ⟨after, kept⟩
      refine .within frames frame taken after (by simp [cmdStep, isStarted, room]) ?_ ?_ started
        unfinished given
      · simp only [cmdStep, recvCmd_cmdRxq]
        rw [trimCmdRxq_of_lt room, queue, kept]
        split <;> rfl
      · have behind : (frames ++ [frame] ++ rest).Sublist s.received := by simpa using inOrder
        have arrived := sublist_arrival payload (netdevAllocSkb s.eth.rx.skbAllocs) behind
        rw [kept]
        simpa [cmdStep] using arrived

/-- A read hands out the head of the queue, or the start of it. -/
theorem cmdStep_read {skb : List UInt8} {rest : List (List UInt8)}
    (queue : s.eth.cmdRxq = skb :: rest) {count : ℕ} (positive : count ≠ 0) :
    cmdStep netdevAllocSkb s (.read count true) =
      { s with
        eth.cmdRxq := if skb.length ≤ count then rest else skb.drop count :: rest
        delivered := s.delivered ++ skb.take count
        headStarted := count < skb.length } := by
  have head : artosynDoRead s.eth count true = (.ok (skb.take count),
      { s.eth with cmdRxq := if skb.length ≤ count then rest else skb.drop count :: rest }) := by
    rw [artosynDoRead, if_neg positive, queue]
    by_cases whole : skb.length ≤ count
    · simp [whole, List.take_of_length_le]
    · have short : min skb.length count = count := Nat.min_eq_right (Nat.le_of_not_le whole)
      simp [whole, short]
  simp only [cmdStep, head, if_neg positive, CmdSystem.cutsShort, queue, List.head?_cons,
    Option.any_some]

/-- The frames read so far, when a read takes `count` bytes of what is left of one. -/
theorem StreamOk.take {frames : List (List UInt8)} {frame : List UInt8} {taken : ℕ}
    {rest : List (List UInt8)} (queue : s.eth.cmdRxq = frame.drop taken :: rest)
    (inOrder : (frames ++ frame :: rest).Sublist s.received)
    (given : s.delivered = frames.flatten ++ frame.take taken) {count : ℕ}
    (positive : count ≠ 0) : StreamOk (cmdStep netdevAllocSkb s (.read count true)) := by
  have bytes : s.delivered ++ (frame.drop taken).take count =
      frames.flatten ++ frame.take (taken + count) := by
    rw [given, List.append_assoc, List.take_add]
  rw [cmdStep_read queue positive, bytes, List.length_drop]
  by_cases whole : frame.length - taken ≤ count
  · refine .between (frames ++ [frame]) (by simpa using whole) (by simpa [whole] using inOrder) ?_
    rw [List.take_of_length_le (by omega)]
    simp
  · have short : count < frame.length - taken := Nat.lt_of_not_le whole
    refine .within frames frame (taken + count) rest (decide_eq_true short) ?_ inOrder ?_ ?_ rfl
    · simp [whole, List.drop_drop]
    · omega
    · omega

theorem StreamOk.read (ok : StreamOk s) (count : ℕ) (copied : Bool) :
    StreamOk (cmdStep netdevAllocSkb s (.read count copied)) := by
  by_cases positive : count = 0
  · simpa [cmdStep, artosynDoRead, positive] using ok
  · cases copied with
    | false =>
        cases queue : s.eth.cmdRxq with
        | nil => simpa [cmdStep, artosynDoRead, positive, queue] using ok
        | cons skb rest => simpa [cmdStep, artosynDoRead, positive, queue] using ok
    | true =>
        cases ok with
        | between frames notStarted inOrder given =>
            cases queue : s.eth.cmdRxq with
            | nil =>
                have same : cmdStep netdevAllocSkb s (.read count true) = s := by
                  simp [cmdStep, artosynDoRead, positive, queue]
                rw [same]
                exact .between frames notStarted inOrder given
            | cons skb rest =>
                have unread : s.eth.cmdRxq = skb.drop 0 :: rest := queue
                rw [queue] at inOrder
                exact .take unread inOrder (by simpa using given) positive
        | within frames frame taken rest isStarted queue inOrder started unfinished given =>
            exact .take queue inOrder given positive

/-- Opening and closing change the cap alone. -/
theorem StreamOk.readers (ok : StreamOk s) (readers : ℕ) :
    StreamOk { s with eth.cmdReaders := readers } := by
  cases ok with
  | between frames notStarted inOrder given => exact .between frames notStarted inOrder given
  | within frames frame taken rest isStarted queue inOrder started unfinished given =>
      exact .within frames frame taken rest isStarted queue inOrder started unfinished given

theorem StreamOk.step (ok : StreamOk s) {event : CmdEvent} (spares : SparesStarted s event) :
    StreamOk (cmdStep netdevAllocSkb s event) := by
  cases event with
  | recv payload => exact ok.recv spares
  | read count copied => exact ok.read count copied
  | «open» => exact ok.readers _
  | close => exact ok.readers _

end Step

/-! ### Every run -/

theorem cmdStream_intact {netdevAllocSkb : ℕ → Bool} {events : List CmdEvent} {s : CmdSystem}
    (run : Trace (fun s event next => SparesStarted s event ∧ cmdStep netdevAllocSkb s event = next)
      .initial events s) : StreamIntact s := by
  have ok : StreamOk s := by
    refine run.invariant ?_ (.between [] rfl (.refl _) rfl)
    rintro s event next ok ⟨spares, rfl⟩
    exact ok.step spares
  exact ok.intact

/-- A run arrives between the two reads of a frame. -/
theorem cmdStream_intact_between_reads :
    ∃ s, Trace (fun s event next => SparesStarted s event ∧ cmdStep (fun _ => true) s event = next)
      .initial [.open, .recv [1, 2], .read 1 true, .recv [3], .read 5 true, .read 5 true] s ∧
      s.delivered = [1, 2, 3] ∧ StreamIntact s := by
  have run : Trace (fun s event next => SparesStarted s event ∧
      cmdStep (fun _ => true) s event = next) CmdSystem.initial
      [.open, .recv [1, 2], .read 1 true, .recv [3], .read 5 true, .read 5 true] _ :=
    .cons ⟨by decide, rfl⟩ (.cons ⟨by decide, rfl⟩ (.cons ⟨by decide, rfl⟩
      (.cons ⟨by decide, rfl⟩ (.cons ⟨by decide, rfl⟩ (.cons ⟨by decide, rfl⟩ (.nil _))))))
  exact ⟨_, run, rfl, cmdStream_intact run⟩

/-- The first byte of `[1, 2]` has been read, and `n` runs of one byte wait behind the second. -/
structure Burst (n : ℕ) (s : CmdSystem) : Prop where
  readers : s.eth.cmdReaders = 1
  queue : s.eth.cmdRxq = [2] :: List.replicate n [3]
  received : s.received = [1, 2] :: List.replicate n [3]
  delivered : s.delivered = [1]

theorem exists_burst {n : ℕ} (fits : n < cmdRxqMaxReader) :
    ∃ events s, Trace (fun s event next => cmdStep (fun _ => true) s event = next)
      .initial events s ∧ Burst n s := by
  induction n with
  | zero =>
      have run : Trace (fun s event next => cmdStep (fun _ => true) s event = next)
          CmdSystem.initial [.open, .recv [1, 2], .read 1 true] _ :=
        .cons rfl (.cons rfl (.cons rfl (.nil _)))
      exact ⟨_, _, run, rfl, rfl, rfl, rfl⟩
  | succ n ih =>
      rcases ih (Nat.lt_of_succ_lt fits) with ⟨events, s, run, burst⟩
      have room : s.eth.cmdRxq.length < s.eth.cmdRxqCap := by
        simpa [LinkRx.cmdRxqCap, burst.readers, burst.queue] using fits
      have arrival : Trace (fun s event next => cmdStep (fun _ => true) s event = next) s
          [.recv [3]] _ := .cons rfl (.nil _)
      refine ⟨_, _, run.append arrival, burst.readers, ?_, ?_, burst.delivered⟩
      · simp only [cmdStep, recvCmd_cmdRxq, if_pos, trimCmdRxq_of_lt room]
        rw [burst.queue, List.replicate_succ', List.cons_append]
      · simp only [cmdStep, burst.received]
        rw [List.replicate_succ', List.cons_append]

/-- One more run finds the queue full, and the byte behind the first is dropped. -/
theorem Burst.overflow {s : CmdSystem} (burst : Burst 1023 s) :
    (cmdStep (fun _ => true) s (.recv [3])).eth.cmdRxq = List.replicate 1024 [3] := by
  have cap : s.eth.cmdRxqCap = 1024 := by simp [LinkRx.cmdRxqCap, burst.readers, cmdRxqMaxReader]
  have trimmed : (trimCmdRxq 1024 ([2] :: List.replicate 1023 [3]) s.eth.cmdRxqOverflow).1 =
      List.replicate 1023 [3] := by
    rw [trimCmdRxq, if_pos (by rw [List.length_cons, List.length_replicate]),
      trimCmdRxq_of_lt (by rw [List.length_replicate]; decide)]
  simp only [cmdStep, recvCmd_cmdRxq, if_pos, cap, burst.queue]
  rw [trimmed, ← List.replicate_succ']

/-- No payload of a burst begins with the two bytes that a reader then gets. -/
theorem flatten_ne_skipped {frames : List (List UInt8)}
    (payloads : ∀ frame ∈ frames, frame = [1, 2] ∨ frame = [3]) {tail : List UInt8}
    (short : tail.length < 2) : frames.flatten ++ tail ≠ [1, 3] := by
  intro skipped
  cases frames with
  | nil =>
      rw [List.flatten_nil, List.nil_append] at skipped
      rw [skipped] at short
      exact absurd short (by decide)
  | cons frame frames =>
      rcases payloads frame List.mem_cons_self with rfl | rfl <;> simp at skipped

theorem intact_not_skipped {s : CmdSystem} (intact : StreamIntact s)
    (payloads : ∀ payload ∈ s.received, payload = [1, 2] ∨ payload = [3]) :
    s.delivered ≠ [1, 3] := by
  cases intact with
  | whole frames inOrder given =>
      have ofFrames := flatten_ne_skipped (fun frame mem => payloads frame (inOrder.subset mem))
        (show ([] : List UInt8).length < 2 by decide)
      rwa [given, ← List.append_nil frames.flatten]
  | cut frames frame taken inOrder started unfinished given remains =>
      rw [given]
      apply flatten_ne_skipped
      · intro other mem
        exact payloads other (inOrder.subset (List.mem_append_left _ mem))
      · have mem := inOrder.subset (List.mem_append_right frames (List.mem_singleton_self frame))
        have atMost : frame.length ≤ 2 := by
          rcases payloads frame mem with rfl | rfl <;> decide
        rw [List.length_take]
        omega

/-- A run arrives at the full queue and drops the second byte, and the read goes on with the
next frame. -/
theorem cmdStream_not_intact :
    ¬ ∀ (netdevAllocSkb : ℕ → Bool) (events : List CmdEvent) (s : CmdSystem),
      Trace (fun s event next => cmdStep netdevAllocSkb s event = next) .initial events s →
        StreamIntact s := by
  intro always
  rcases exists_burst (Nat.lt_succ_self 1023) with ⟨events, s, run, burst⟩
  have rest : Trace (fun s event next => cmdStep (fun _ => true) s event = next) s
      [.recv [3], .read 1 true] _ := .cons rfl (.cons rfl (.nil _))
  have intact := always _ _ _ (run.append rest)
  have queue : (cmdStep (fun _ => true) s (.recv [3])).eth.cmdRxq =
      [3] :: List.replicate 1023 [3] := burst.overflow
  refine intact_not_skipped intact ?_ ?_
  · rw [cmdStep_read queue Nat.one_ne_zero]
    intro payload mem
    simp only [cmdStep, burst.received, List.mem_append, List.mem_cons, List.mem_replicate] at mem
    rcases mem with (rfl | ⟨_, rfl⟩) | rfl | none
    · exact .inl rfl
    · exact .inr rfl
    · exact .inr rfl
    · cases none
  · rw [cmdStep_read queue Nat.one_ne_zero]
    simp [cmdStep, burst.delivered]

end MlKernel.Sdio
