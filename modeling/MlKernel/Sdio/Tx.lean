import MlKernel.Sdio.TxPack

/-!
# The transmit side and its credit

The chip grants transmit credit in blocks (`tx_write_acc`); a grant is consumed
by setting `tx_read_acc` to it.  `artosyn_sdio_send_data` and
`artosyn_sdio_send_cmd` each spend at most one grant.  Their accounts are right
as long as a batch does not outgrow the staging buffer under the grant.
-/

namespace MlKernel.Sdio

def arsdioInflightCap : ℕ := 1024

/-- What the transmit half reads and writes of the device and of its netdev, and a record of
what it did.  `unacked_max` is an `int` that is compared as a `u32`. -/
structure LinkTx where
  /-- What `sdio_memcpy_toio` returns, by the number of the call. -/
  toio : ℕ → ℤ
  txReadAcc : ℕ
  txWriteAcc : ℕ
  unackedBytes : UInt32
  unackedMax : UInt32
  dataTxq : List (List UInt8)
  cmdTxq : List (List UInt8)
  txBuf : TxBuf
  counters : TxCounters
  /-- The state of TX queue 0. -/
  queueStopped : Bool
  workQueued : Bool
  txPackets : ℕ
  txBytes : ℕ
  /-- The transfers handed to `sdio_memcpy_toio`, oldest first. -/
  transfers : List Transfer
  /-- The packets taken from `data_txq`, oldest first. -/
  dataLog : List (List UInt8 × TxOutcome)
  /-- The packets taken from `cmd_txq`, oldest first. -/
  cmdLog : List (List UInt8 × TxOutcome)

namespace LinkTx

/-- The locals of a send function at the start of its loop. -/
def startPack (dev : LinkTx) (log : List (List UInt8 × TxOutcome)) : Pack :=
  ⟨dev.toio, dev.txBuf, 0, dev.transfers, dev.counters, log⟩

/-- The device as a loop leaves it. -/
def endPack (dev : LinkTx) (pack : Pack) : LinkTx :=
  { dev with
    txBuf := pack.txBuf
    transfers := pack.transfers
    counters := pack.counters }

def throttled (dev : LinkTx) : Bool :=
  decide (dev.unackedMax ≠ 0) && decide (dev.unackedMax < dev.unackedBytes)

def initial (toio : ℕ → ℤ) (unackedMax : UInt32) : LinkTx where
  toio := toio
  txReadAcc := 0
  txWriteAcc := 0
  unackedBytes := 0
  unackedMax := unackedMax
  dataTxq := []
  cmdTxq := []
  txBuf := ⟨List.replicate arsdioStaging 0, List.length_replicate⟩
  counters := ⟨0, 0, 0, 0⟩
  queueStopped := false
  workQueued := false
  txPackets := 0
  txBytes := 0
  transfers := []
  dataLog := []
  cmdLog := []

end LinkTx

/-- The end of `artosyn_sdio_send_data`: the queue is woken below the in-flight cap. -/
def wakeQueue (dev : LinkTx) : LinkTx :=
  if dev.counters.inflight < arsdioInflightCap then { dev with queueStopped := false } else dev

def artosynSdioSendData (dev : LinkTx) : LinkTx :=
  if dev.txWriteAcc = dev.txReadAcc then dev
  else if dev.throttled then dev
  else
    let (pack, dataTxq) := packTxq dataKind dev.txWriteAcc (dev.startPack dev.dataLog) dev.dataTxq
    let dev := { dev with dataTxq := dataTxq, dataLog := pack.log }
    if pack.used ≠ 0 then
      wakeQueue
        { dev.endPack (pack.flush linkTypeIp) with
          txReadAcc := dev.txWriteAcc
          unackedBytes := dev.unackedBytes + UInt32.ofNat pack.used }
    else wakeQueue (dev.endPack pack)

/-- `artosyn_sdio_send_cmd`, with the empty-0xDD keepalive. -/
def artosynSdioSendCmd (dev : LinkTx) : LinkTx :=
  if dev.txWriteAcc = dev.txReadAcc then dev
  else
    let (pack, cmdTxq) := packTxq cmdKind dev.txWriteAcc (dev.startPack dev.cmdLog) dev.cmdTxq
    let dev := { dev with cmdTxq := cmdTxq, cmdLog := pack.log }
    if pack.used ≠ 0 then
      { dev.endPack (pack.flush linkTypeCmd) with txReadAcc := dev.txWriteAcc }
    else if dev.dataTxq ≠ [] ∧ dev.txWriteAcc ≠ dev.txReadAcc then
      { dev.endPack (pack.flush linkTypeCmd) with txReadAcc := dev.txWriteAcc }
    else dev.endPack pack

/-! ### The accounts of one call -/

def issuedSince (before after : LinkTx) : List Transfer :=
  after.transfers.drop before.transfers.length

/-- The transfers fit the grant, and a grant of which anything was used is consumed. -/
def CreditKept (before after : LinkTx) : Prop :=
  ((issuedSince before after).map fun transfer => transfer.blocks.length).sum ≤ before.txWriteAcc ∧
    (issuedSince before after ≠ [] → after.txReadAcc = after.txWriteAcc)

/-- The in-flight window counts the 0xCC payload bytes issued. -/
def UnackedKept (before after : LinkTx) : Prop :=
  after.unackedBytes =
    before.unackedBytes + UInt32.ofNat (payloads linkTypeIp (issuedSince before after)).length

/-- A grant the chip can report, with credit left in it. -/
structure Granted (dev : LinkTx) : Prop where
  blocks : ∃ count ≤ 255, dev.txWriteAcc = arsdioBlock * count
  unspent : dev.txReadAcc < dev.txWriteAcc

/-! ### What one call does -/

theorem wakeQueue_eq (dev : LinkTx) :
    ∃ stopped, wakeQueue dev = { dev with queueStopped := stopped } := by
  rw [wakeQueue]
  split
  · exact ⟨false, rfl⟩
  · exact ⟨dev.queueStopped, rfl⟩

/-- What the loop of a call that may send leaves to the end of the call: the transfers of the early
flushes, and a batch that fits the grant or an empty queue. -/
structure LoopEnds (kind : PackKind) (dev : LinkTx) (queue : List (List UInt8)) (pack : Pack)
    (left : List (List UInt8)) (early : List Transfer) : Prop where
  fits : pack.Fits
  transfers : pack.transfers = dev.transfers ++ early
  ofBatch : ∀ transfer ∈ early, transfer.OfBatch kind.type
  credit : pack.used ≠ 0 → runSize pack.used ≤ dev.txWriteAcc
  stays : StaysInBuffer dev.txWriteAcc 0 (wireLengths kind queue) ↔ early = []
  drained : pack.used = 0 → left = []

theorem loopEnds (kind : PackKind) (dev : LinkTx) (log : List (List UInt8 × TxOutcome))
    (queue : List (List UInt8)) :
    ∃ early, LoopEnds kind dev queue (packTxq kind dev.txWriteAcc (dev.startPack log) queue).1
      (packTxq kind dev.txWriteAcc (dev.startPack log) queue).2 early := by
  have fits : (dev.startPack log).Fits := by simp [LinkTx.startPack, Pack.Fits]
  rcases packTxq_issued kind dev.txWriteAcc fits (fun batch => absurd rfl batch) queue with
    ⟨early, transfers, ofBatch, credit, stays⟩
  refine ⟨early, (packTxq_stream kind dev.txWriteAcc fits queue).1, transfers, ofBatch, credit,
    stays, ?_⟩
  intro unused
  by_contra queued
  exact packTxq_requeued kind dev.txWriteAcc (dev.startPack log) queue queued unused

/-- The last flush of a call. -/
theorem LoopEnds.flush {kind : PackKind} {dev : LinkTx} {queue left : List (List UInt8)}
    {pack : Pack} {early : List Transfer} (ends : LoopEnds kind dev queue pack left early)
    (batch : pack.used ≠ 0) :
    ∃ transfer, (pack.flush kind.type).transfers = dev.transfers ++ (early ++ [transfer]) ∧
      (∀ issued ∈ early ++ [transfer], issued.OfBatch kind.type) ∧
      transfer.blocks.length ≤ dev.txWriteAcc ∧ transfer.used = pack.used := by
  rcases ends.fits.flush_issued batch kind.type with ⟨transfer, flushed, last, used⟩
  refine ⟨transfer, ?_, ?_, ?_, used⟩
  · rw [flushed, ends.transfers, List.append_assoc]
  · intro issued member
    rcases List.mem_append.mp member with inEarly | inLast
    · exact ends.ofBatch issued inEarly
    · rwa [List.mem_singleton.mp inLast]
  · rw [last.length_blocks, used]
    exact ends.credit batch

/-- A call that may send: the transfers of the early flushes, and the last one if a batch is
left, which is the only one the accounts see. -/
theorem artosynSdioSendData_effect {dev : LinkTx} (unspent : dev.txWriteAcc ≠ dev.txReadAcc)
    (unthrottled : dev.throttled = false) :
    ∃ early last : List Transfer,
      (artosynSdioSendData dev).transfers = dev.transfers ++ (early ++ last) ∧
      (∀ transfer ∈ early ++ last, transfer.OfBatch linkTypeIp) ∧
      (StaysInBuffer dev.txWriteAcc 0 (wireLengths dataKind dev.dataTxq) ↔ early = []) ∧
      (artosynSdioSendData dev).txWriteAcc = dev.txWriteAcc ∧
      (artosynSdioSendData dev).cmdTxq = dev.cmdTxq ∧
      (last = [] ∧ (artosynSdioSendData dev).dataTxq = [] ∧
          (artosynSdioSendData dev).txReadAcc = dev.txReadAcc ∧
          (artosynSdioSendData dev).unackedBytes = dev.unackedBytes ∨
        ∃ transfer, last = [transfer] ∧ transfer.blocks.length ≤ dev.txWriteAcc ∧
          (artosynSdioSendData dev).txReadAcc = dev.txWriteAcc ∧
          (artosynSdioSendData dev).unackedBytes =
            dev.unackedBytes + UInt32.ofNat transfer.used) := by
  rcases loopEnds dataKind dev dev.dataLog dev.dataTxq with ⟨early, ends⟩
  simp only [artosynSdioSendData, unthrottled]
  rw [if_neg unspent, if_neg (by simp)]
  generalize packTxq dataKind dev.txWriteAcc (dev.startPack dev.dataLog) dev.dataTxq = result
    at ends ⊢
  rcases result with ⟨pack, dataTxq⟩
  by_cases batch : pack.used = 0
  · simp only [batch, ne_eq, not_true_eq_false, if_false]
    rcases wakeQueue_eq
      (LinkTx.endPack { dev with dataTxq := dataTxq, dataLog := pack.log } pack) with
      ⟨stopped, woken⟩
    rw [woken]
    refine ⟨early, [], ?_, ?_, ends.stays, rfl, rfl, Or.inl ⟨rfl, ends.drained batch, rfl, rfl⟩⟩
    · rw [List.append_nil]
      exact ends.transfers
    · rw [List.append_nil]
      exact ends.ofBatch
  · rcases ends.flush batch with ⟨transfer, transfers, ofBatch, credit, used⟩
    simp only [ne_eq, batch, not_false_eq_true, if_true]
    rcases wakeQueue_eq
      { LinkTx.endPack { dev with dataTxq := dataTxq, dataLog := pack.log }
          (pack.flush linkTypeIp) with
        txReadAcc := dev.txWriteAcc
        unackedBytes := dev.unackedBytes + UInt32.ofNat pack.used } with ⟨stopped, woken⟩
    rw [woken]
    refine ⟨early, [transfer], transfers, ofBatch, ends.stays, rfl, rfl,
      Or.inr ⟨transfer, rfl, credit, rfl, ?_⟩⟩
    rw [used]

/-- The same for commands.  Without a batch there is the keepalive, if IP packets are queued. -/
theorem artosynSdioSendCmd_effect {dev : LinkTx} (unspent : dev.txWriteAcc ≠ dev.txReadAcc) :
    ∃ early last : List Transfer,
      (artosynSdioSendCmd dev).transfers = dev.transfers ++ (early ++ last) ∧
      (∀ transfer ∈ early ++ last, transfer.type = linkTypeCmd) ∧
      (StaysInBuffer dev.txWriteAcc 0 (wireLengths cmdKind dev.cmdTxq) ↔ early = []) ∧
      (artosynSdioSendCmd dev).txWriteAcc = dev.txWriteAcc ∧
      (artosynSdioSendCmd dev).dataTxq = dev.dataTxq ∧
      (artosynSdioSendCmd dev).dataLog = dev.dataLog ∧
      (last = [] ∧ (artosynSdioSendCmd dev).cmdTxq = [] ∧ dev.dataTxq = [] ∧
          (artosynSdioSendCmd dev).txReadAcc = dev.txReadAcc ∨
        ∃ transfer, last = [transfer] ∧
          (arsdioBlock ≤ dev.txWriteAcc → transfer.blocks.length ≤ dev.txWriteAcc) ∧
          (artosynSdioSendCmd dev).txReadAcc = dev.txWriteAcc) := by
  rcases loopEnds cmdKind dev dev.cmdLog dev.cmdTxq with ⟨early, ends⟩
  simp only [artosynSdioSendCmd]
  rw [if_neg unspent]
  generalize packTxq cmdKind dev.txWriteAcc (dev.startPack dev.cmdLog) dev.cmdTxq = result
    at ends ⊢
  rcases result with ⟨pack, cmdTxq⟩
  have earlyType : ∀ transfer ∈ early, transfer.type = linkTypeCmd :=
    fun transfer member => (ends.ofBatch transfer member).type_eq
  by_cases batch : pack.used = 0
  · rw [if_neg (by simpa using batch)]
    by_cases queued : dev.dataTxq = []
    · rw [if_neg (by simp [queued])]
      refine ⟨early, [], ?_, ?_, ends.stays, rfl, rfl, rfl,
        Or.inl ⟨rfl, ends.drained batch, queued, rfl⟩⟩
      · rw [List.append_nil]
        exact ends.transfers
      · rwa [List.append_nil]
    · rw [if_pos ⟨queued, unspent⟩]
      refine ⟨early, [⟨linkTypeCmd, 0, (stageRun pack.txBuf 0 linkTypeCmd).2,
          pack.toio pack.transfers.length⟩], ?_, ?_,
        ends.stays, rfl, rfl, rfl, Or.inr ⟨_, rfl, ?_, rfl⟩⟩
      · change (pack.flush linkTypeCmd).transfers = _
        rw [pack.flush_transfers, batch, ends.transfers, List.append_assoc]
      · intro transfer member
        rcases List.mem_append.mp member with inEarly | inLast
        · exact earlyType transfer inEarly
        · rw [List.mem_singleton.mp inLast]
      · intro block
        rw [length_stageRun_snd (by simp)]
        exact block
  · rcases ends.flush batch with ⟨transfer, transfers, ofBatch, credit, -⟩
    rw [if_pos (by simpa using batch)]
    exact ⟨early, [transfer], transfers, fun issued member => (ofBatch issued member).type_eq,
      ends.stays, rfl, rfl, rfl, Or.inr ⟨transfer, rfl, fun _ => credit, rfl⟩⟩

/-- Whatever a call sends, the 0xCC payload written grows by the frames of the packets it logs as
staged in a batch that is written, and it takes its packets from the head of the queue. -/
theorem artosynSdioSendData_stream (dev : LinkTx) :
    ∃ taken : List (List UInt8 × TxOutcome),
      (∀ entry ∈ taken, entry.2.Explains dataKind dev.txWriteAcc entry.1) ∧
      taken.map Prod.fst ++ (artosynSdioSendData dev).dataTxq = dev.dataTxq ∧
      (artosynSdioSendData dev).dataLog = dev.dataLog ++ taken ∧
      (artosynSdioSendData dev).toio = dev.toio ∧
      writtenPayloads linkTypeIp (artosynSdioSendData dev).transfers =
        writtenPayloads linkTypeIp dev.transfers ++ writtenFrames dataKind dev.toio taken := by
  by_cases idle : dev.txWriteAcc = dev.txReadAcc ∨ dev.throttled = true
  · have unchanged : artosynSdioSendData dev = dev := by
      rw [artosynSdioSendData]
      rcases idle with spent | throttled
      · rw [if_pos spent]
      · rw [if_pos throttled, ite_self]
    rw [unchanged]
    exact ⟨[], by simp, by simp, by simp, rfl, by simp [writtenFrames]⟩
  · push Not at idle
    have fits : (dev.startPack dev.dataLog).Fits := by simp [LinkTx.startPack, Pack.Fits]
    have loop := packTxq_stream dataKind dev.txWriteAcc fits dev.dataTxq
    simp only [artosynSdioSendData]
    rw [if_neg idle.1, if_neg idle.2]
    generalize packTxq dataKind dev.txWriteAcc (dev.startPack dev.dataLog) dev.dataTxq = result
      at loop ⊢
    rcases result with ⟨pack, dataTxq⟩
    rcases loop with ⟨finalFits, taken, explained, split, log, stream⟩
    have startIdle : (dev.startPack dev.dataLog).used = 0 := rfl
    rw [Pack.stream_of_idle startIdle] at stream
    change pack.stream linkTypeIp = writtenPayloads linkTypeIp dev.transfers ++ _ at stream
    refine ⟨taken, explained, ?_⟩
    by_cases batch : pack.used = 0
    · rcases wakeQueue_eq
        (LinkTx.endPack { dev with dataTxq := dataTxq, dataLog := pack.log } pack) with
        ⟨stopped, woken⟩
      rw [if_neg (by simpa using batch), woken]
      rw [Pack.stream_of_idle batch] at stream
      exact ⟨split, log, rfl, stream⟩
    · rcases wakeQueue_eq
        { LinkTx.endPack { dev with dataTxq := dataTxq, dataLog := pack.log }
            (pack.flush linkTypeIp) with
          txReadAcc := dev.txWriteAcc
          unackedBytes := dev.unackedBytes + UInt32.ofNat pack.used } with ⟨stopped, woken⟩
      rw [if_pos (by simpa using batch), woken]
      have flushed := finalFits.flush_stream linkTypeIp
      rw [Pack.stream_of_idle rfl, stream] at flushed
      exact ⟨split, log, rfl, flushed⟩

theorem writtenPayloads_of_other_type {type : UInt8} {issued : List Transfer}
    (other : ∀ transfer ∈ issued, transfer.type ≠ type) : writtenPayloads type issued = [] := by
  rw [writtenPayloads, payloads, List.filter_eq_nil_iff.mpr]
  · rfl
  · intro transfer member
    simpa using other transfer (List.mem_of_mem_filter member)

theorem artosynSdioSendCmd_toio (dev : LinkTx) : (artosynSdioSendCmd dev).toio = dev.toio := by
  simp only [artosynSdioSendCmd]
  split
  · rfl
  · split
    · rfl
    · split <;> rfl

/-- Commands leave the 0xCC payload and the IP queue alone. -/
theorem artosynSdioSendCmd_stream (dev : LinkTx) :
    (artosynSdioSendCmd dev).dataTxq = dev.dataTxq ∧
      (artosynSdioSendCmd dev).dataLog = dev.dataLog ∧ (artosynSdioSendCmd dev).toio = dev.toio ∧
      writtenPayloads linkTypeIp (artosynSdioSendCmd dev).transfers =
        writtenPayloads linkTypeIp dev.transfers := by
  by_cases spent : dev.txWriteAcc = dev.txReadAcc
  · rw [artosynSdioSendCmd, if_pos spent]
    exact ⟨rfl, rfl, rfl, rfl⟩
  · rcases artosynSdioSendCmd_effect spent with
      ⟨early, last, transfers, types, -, -, sameData, sameLog, -⟩
    refine ⟨sameData, sameLog, artosynSdioSendCmd_toio dev, ?_⟩
    have noIp : writtenPayloads linkTypeIp (early ++ last) = [] := by
      apply writtenPayloads_of_other_type
      intro transfer member
      rw [types transfer member]
      decide
    rw [transfers, writtenPayloads_append, noIp, List.append_nil]

/-! ### The accounts -/

theorem issuedSince_eq {before after : LinkTx} {issued : List Transfer}
    (transfers : after.transfers = before.transfers ++ issued) :
    issuedSince before after = issued := by
  rw [issuedSince, transfers, List.drop_left]

theorem Transfer.OfBatch.length_payload {type : UInt8} {transfer : Transfer}
    (ofBatch : transfer.OfBatch type) : transfer.payload.length = transfer.used := by
  have room := le_runSize transfer.used
  rw [Transfer.payload, List.length_take, ofBatch.length_blocks]
  omega

theorem length_payloads {type : UInt8} {issued : List Transfer}
    (ofBatch : ∀ transfer ∈ issued, transfer.OfBatch type) :
    (payloads type issued).length = (issued.map Transfer.used).sum := by
  induction issued with
  | nil => rfl
  | cons transfer issued ih =>
      rcases List.forall_mem_cons.mp ofBatch with ⟨first, rest⟩
      rw [← List.singleton_append, payloads_append, List.length_append, ih rest]
      simp [payloads, first.type_eq, first.length_payload]

theorem eq_nil_of_sum_used {type : UInt8} {issued : List Transfer}
    (ofBatch : ∀ transfer ∈ issued, transfer.OfBatch type)
    (zero : (issued.map Transfer.used).sum = 0) : issued = [] := by
  cases issued with
  | nil => rfl
  | cons transfer issued =>
      have nonempty := (ofBatch transfer List.mem_cons_self).nonempty
      simp only [List.map_cons, List.sum_cons] at zero
      omega

theorem sum_used_le_sum_blocks {type : UInt8} {issued : List Transfer}
    (ofBatch : ∀ transfer ∈ issued, transfer.OfBatch type) :
    (issued.map Transfer.used).sum ≤ (issued.map fun transfer => transfer.blocks.length).sum := by
  induction issued with
  | nil => simp
  | cons transfer issued ih =>
      rcases List.forall_mem_cons.mp ofBatch with ⟨first, rest⟩
      have later := ih rest
      have room := le_runSize transfer.used
      have blocks := first.length_blocks
      simp only [List.map_cons, List.sum_cons]
      omega

/-- A throttled call, or one that finds no credit, does nothing. -/
theorem artosynSdioSendData_of_throttled {dev : LinkTx} (throttled : dev.throttled = true) :
    artosynSdioSendData dev = dev := by
  rw [artosynSdioSendData, if_pos throttled, ite_self]

/-- One call of `artosyn_sdio_send_data` keeps both accounts exactly if it is throttled or its
queue stays in the staging buffer. -/
theorem artosynSdioSendData_accounts_iff {dev : LinkTx} (granted : Granted dev) :
    CreditKept dev (artosynSdioSendData dev) ∧ UnackedKept dev (artosynSdioSendData dev) ↔
      dev.throttled = true ∨
        StaysInBuffer dev.txWriteAcc 0 (wireLengths dataKind dev.dataTxq) := by
  rcases granted with ⟨⟨count, count_le, grant⟩, unspent⟩
  cases throttled : dev.throttled with
  | true =>
      rw [artosynSdioSendData_of_throttled throttled]
      simp [CreditKept, UnackedKept, issuedSince, payloads]
  | false =>
      rcases artosynSdioSendData_effect (Nat.ne_of_gt unspent) throttled with
        ⟨early, last, transfers, ofBatch, stays, sameGrant, -, accounts⟩
      simp only [CreditKept, UnackedKept, issuedSince_eq transfers, length_payloads ofBatch,
        sameGrant, Bool.false_eq_true, false_or, stays]
      constructor
      · rintro ⟨⟨sumCredit, -⟩, unacked⟩
        have earlyBatch : ∀ transfer ∈ early, transfer.OfBatch linkTypeIp :=
          fun transfer member => ofBatch transfer (List.mem_append_left last member)
        have usedLe := sum_used_le_sum_blocks earlyBatch
        apply eq_nil_of_sum_used earlyBatch
        -- fewer than 2^32 bytes fit the grant, so the missing ones cannot wrap around
        have unacked := congrArg UInt32.toNat unacked
        simp only [List.map_append, List.sum_append, arsdioBlock] at unacked sumCredit grant
        rcases accounts with ⟨rfl, -, -, same⟩ | ⟨transfer, rfl, -, -, added⟩
        · rw [same] at unacked
          have := dev.unackedBytes.toNat_lt
          simp only [List.map_nil, List.sum_nil, UInt32.toNat_add, UInt32.toNat_ofNat'] at unacked
          omega
        · rw [added] at unacked
          simp only [List.map_cons, List.map_nil, List.sum_cons, List.sum_nil, UInt32.toNat_add,
            UInt32.toNat_ofNat'] at unacked
          omega
      · rintro rfl
        rcases accounts with ⟨rfl, -, -, same⟩ | ⟨transfer, rfl, blocks, consumed, added⟩
        · simp [same]
        · simp [blocks, consumed, added]

/-- One call of `artosyn_sdio_send_cmd` keeps the credit if its queue stays in the staging
buffer. -/
theorem artosynSdioSendCmd_creditKept {dev : LinkTx} (granted : Granted dev)
    (stays : StaysInBuffer dev.txWriteAcc 0 (wireLengths cmdKind dev.cmdTxq)) :
    CreditKept dev (artosynSdioSendCmd dev) := by
  rcases granted with ⟨⟨count, count_le, grant⟩, unspent⟩
  rcases artosynSdioSendCmd_effect (Nat.ne_of_gt unspent) with
    ⟨early, last, transfers, -, staysIff, sameGrant, -, -, accounts⟩
  rcases staysIff.mp stays with rfl
  have block : arsdioBlock ≤ dev.txWriteAcc := by
    simp only [arsdioBlock] at grant ⊢
    omega
  rw [CreditKept, issuedSince_eq transfers, sameGrant]
  rcases accounts with ⟨rfl, -⟩ | ⟨transfer, rfl, blocks, consumed⟩
  · simp
  · simpa [consumed] using blocks block

/-- The transmit accounts: exact for IP packets, and kept for commands, while a queue stays in
the staging buffer. -/
theorem artosynSdioSend_accounts {dev : LinkTx} (granted : Granted dev) :
    (CreditKept dev (artosynSdioSendData dev) ∧ UnackedKept dev (artosynSdioSendData dev) ↔
      dev.throttled = true ∨
        StaysInBuffer dev.txWriteAcc 0 (wireLengths dataKind dev.dataTxq)) ∧
    (StaysInBuffer dev.txWriteAcc 0 (wireLengths cmdKind dev.cmdTxq) →
      CreditKept dev (artosynSdioSendCmd dev)) :=
  ⟨artosynSdioSendData_accounts_iff granted, artosynSdioSendCmd_creditKept granted⟩

theorem wireLengths_dataKind_cons {rest : List UInt8} (long : 19 ≤ rest.length)
    (queue : List (List UInt8)) :
    wireLengths dataKind ((0x45 :: rest) :: queue) =
      (rest.length - 7) :: wireLengths dataKind queue := by
  have supported : dataKind.supported (0x45 :: rest) = true := by
    simp only [dataKind, Bool.and_eq_true, decide_eq_true_eq]
    exact ⟨by simp only [iphdrSize, List.length_cons]; omega, rfl⟩
  have length : dataKind.wireLength (0x45 :: rest) = rest.length - 7 := by
    simp only [dataKind, ipHeadShrink, List.length_cons]
    omega
  rw [wireLengths_cons supported (by omega), length]

/-- A full-MTU packet and a command under a grant of nine blocks. -/
theorem artosynSdioSend_accounts_full_mtu :
    let dev : LinkTx :=
      { LinkTx.initial (fun _ => 0) 40960 with
        txWriteAcc := 4608
        dataTxq := [0x45 :: List.replicate 4095 0]
        cmdTxq := [[1, 2, 3]] }
    (CreditKept dev (artosynSdioSendData dev) ∧ UnackedKept dev (artosynSdioSendData dev)) ∧
      CreditKept dev (artosynSdioSendCmd dev) := by
  intro dev
  have granted : Granted dev := ⟨⟨9, by decide, rfl⟩, by decide⟩
  have lengths : wireLengths dataKind dev.dataTxq = [4088] := by
    rw [wireLengths_dataKind_cons (by rw [List.length_replicate]; omega), List.length_replicate]
    rfl
  have accounts := artosynSdioSend_accounts granted
  exact ⟨accounts.1.mpr (Or.inr (by rw [lengths]; decide)), accounts.2 (by decide)⟩

/-- Two packets of 40000 bytes fit a grant of 255 blocks but not the staging buffer. -/
theorem artosynSdioSend_miscounts :
    ¬∀ dev : LinkTx, Granted dev →
      (CreditKept dev (artosynSdioSendData dev) ∧ UnackedKept dev (artosynSdioSendData dev)) ∧
        CreditKept dev (artosynSdioSendCmd dev) := by
  intro kept
  let dev : LinkTx :=
    { LinkTx.initial (fun _ => 0) 40960 with
      txWriteAcc := 130560
      dataTxq := [0x45 :: List.replicate 39999 0, 0x45 :: List.replicate 39999 0] }
  have granted : Granted dev := ⟨⟨255, by decide, rfl⟩, by decide⟩
  have lengths : wireLengths dataKind dev.dataTxq = [39992, 39992] := by
    have long : 19 ≤ (List.replicate 39999 (0 : UInt8)).length := by
      rw [List.length_replicate]
      omega
    rw [wireLengths_dataKind_cons long, wireLengths_dataKind_cons long, List.length_replicate]
    rfl
  rcases (artosynSdioSendData_accounts_iff granted).mp (kept dev granted).1 with throttled | stays
  · exact absurd throttled (by decide)
  · rw [lengths] at stays
    exact absurd stays (by decide)

end MlKernel.Sdio
