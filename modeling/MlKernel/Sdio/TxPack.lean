import Mathlib.Data.List.Infix
import MlKernel.Sdio.IpHead
import MlKernel.Sdio.LinkRun

/-!
# Packing a transmit queue

`artosyn_sdio_send_data` and `artosyn_sdio_send_cmd` drain their queues with the
same loop: a packet is skipped, dropped, put back or copied behind the ones
already staged, and the batch is flushed early when the staging buffer would
overflow.  The loop is written once, over a `PackKind` that says what the two
do differently.

The early flush is where the loop loses count: it starts the next batch from
zero, and both the fit test against the grant and the caller see the last batch
only.  `packTxq_issued` says exactly when it happens.

A flush whose `sdio_memcpy_toio` fails is reported to the debug log and otherwise
goes on as one that succeeds: its packets are gone.  `packTxq_stream` says which
frames get through.
-/

namespace MlKernel.Sdio

structure Transfer where
  type : UInt8
  used : ℕ
  blocks : List UInt8
  /-- What `artosyn_tx_flush` returned. -/
  ret : ℤ
  deriving DecidableEq

/-- The bytes a transfer carries ahead of its padding and trailer. -/
def Transfer.payload (transfer : Transfer) : List UInt8 := transfer.blocks.take transfer.used

/-- What became of a packet taken from a queue. -/
inductive TxOutcome
  | unsupported
  | noCredit
  | tooLong
  /-- Copied into the batch that is the `transfer`-th to be flushed. -/
  | staged (transfer : ℕ)
  deriving DecidableEq

def TxOutcome.isStaged : TxOutcome → Bool
  | .staged _ => true
  | .unsupported | .noCredit | .tooLong => false

structure TxCounters where
  inflight : ℕ
  txDropped : ℕ
  totalTxPkts : ℕ
  totalTxBytes : ℕ
  deriving DecidableEq

/-- What the packing loop works on: the staging buffer and the bytes used in it, the transfers
issued, the counters, and a record of the packets consumed.  `toio` is what `sdio_memcpy_toio`
returns, by the number of the call. -/
structure Pack where
  toio : ℕ → ℤ
  txBuf : TxBuf
  used : ℕ
  transfers : List Transfer
  counters : TxCounters
  log : List (List UInt8 × TxOutcome)

/-- What distinguishes the loop over `data_txq` from the loop over `cmd_txq`. -/
structure PackKind where
  type : UInt8
  supported : List UInt8 → Bool
  /-- The bytes a packet takes on the wire. -/
  wireLength : List UInt8 → ℕ
  /-- The bytes copied into the staging buffer. -/
  frame : List UInt8 → List UInt8
  /-- The bookkeeping for a packet that leaves the queue. -/
  count : TxOutcome → List UInt8 → TxCounters → TxCounters
  length_frame : ∀ skb, (frame skb).length = wireLength skb

/-- The loop over `data_txq`. -/
def dataKind : PackKind where
  type := linkTypeIp
  supported skb := decide (iphdrSize ≤ skb.length) && byteAt skb 0 == 0x45
  wireLength skb := skb.length - ipHeadShrink
  frame := artosynSdioBuildIpHead
  count
    | .unsupported, _, counters => { counters with inflight := counters.inflight - 1 }
    | .noCredit, _, counters =>
        { counters with
          txDropped := counters.txDropped + 1
          inflight := counters.inflight - 1 }
    | .tooLong, _, counters => { counters with inflight := counters.inflight - 1 }
    | .staged _, skb, counters =>
        { counters with
          totalTxPkts := counters.totalTxPkts + 1
          totalTxBytes := counters.totalTxBytes + (skb.length - ipHeadShrink)
          inflight := counters.inflight - 1 }
  length_frame := length_artosynSdioBuildIpHead

/-- The loop over `cmd_txq`. -/
def cmdKind : PackKind where
  type := linkTypeCmd
  supported _ := true
  wireLength := List.length
  frame := id
  count _ _ counters := counters
  length_frame _ := rfl

namespace Pack

/-- `artosyn_tx_flush` of the current batch, and the next batch from the start of the buffer.  A
result other than 0 only reaches a debug print. -/
def flush (pack : Pack) (type : UInt8) : Pack :=
  let (txBuf, blocks, ret) :=
    artosynTxFlush (pack.toio pack.transfers.length) pack.txBuf pack.used type
  { pack with
    txBuf := txBuf
    used := 0
    transfers := pack.transfers ++ [⟨type, pack.used, blocks, ret⟩] }

/-- The flush when a frame of `length` bytes would overflow the staging buffer. -/
def flushFull (pack : Pack) (type : UInt8) (length : ℕ) : Pack :=
  if pack.used ≠ 0 ∧ arsdioStaging < pack.used + length + linkTrailerLen then pack.flush type
  else pack

def copy (pack : Pack) (frame : List UInt8) : Pack :=
  { pack with
    txBuf := pack.txBuf.copy pack.used frame
    used := pack.used + frame.length }

def consume (pack : Pack) (kind : PackKind) (outcome : TxOutcome) (skb : List UInt8) : Pack :=
  { pack with
    counters := kind.count outcome skb pack.counters
    log := pack.log ++ [(skb, outcome)] }

end Pack

variable (kind : PackKind) (txWriteAcc : ℕ)

/-- One turn of the loop; `none` is the requeue and the `break`. -/
def packSkb (pack : Pack) (skb : List UInt8) : Option Pack :=
  if kind.supported skb = false then some (pack.consume kind .unsupported skb)
  else if txWriteAcc < runSize (pack.used + kind.wireLength skb) then
    if pack.used ≠ 0 then none else some (pack.consume kind .noCredit skb)
  else
    let frame := kind.frame skb
    let pack := pack.flushFull kind.type frame.length
    if arsdioStaging < frame.length + linkTrailerLen then some (pack.consume kind .tooLong skb)
    else some ((pack.copy frame).consume kind (.staged pack.transfers.length) skb)

/-- The `while` loop: where it leaves the batch, and what stays in the queue. -/
def packTxq (pack : Pack) (queue : List (List UInt8)) : Pack × List (List UInt8) :=
  match queue with
  | [] => (pack, [])
  | skb :: rest =>
      match packSkb kind txWriteAcc pack skb with
      | none => (pack, skb :: rest)
      | some pack => packTxq pack rest

/-! ### What one turn can do -/

/-- Why a packet left the queue the way it did. -/
def TxOutcome.Explains (skb : List UInt8) : TxOutcome → Prop
  | .unsupported => kind.supported skb = false
  | .noCredit => kind.supported skb = true ∧ txWriteAcc < runSize (kind.wireLength skb)
  | .tooLong => kind.supported skb = true ∧ arsdioStaging < kind.wireLength skb + linkTrailerLen
  | .staged _ => kind.supported skb = true ∧ kind.wireLength skb + linkTrailerLen ≤ arsdioStaging

/-- The turns of the packing loop. -/
inductive PackTurn (pack : Pack) (skb : List UInt8) : Option Pack → Prop where
  | unsupported (unsupported : kind.supported skb = false) :
      PackTurn pack skb (some (pack.consume kind .unsupported skb))
  | requeue (supported : kind.supported skb = true)
      (noCredit : txWriteAcc < runSize (pack.used + kind.wireLength skb))
      (batch : pack.used ≠ 0) : PackTurn pack skb none
  | noCredit (supported : kind.supported skb = true)
      (noCredit : txWriteAcc < runSize (pack.used + kind.wireLength skb))
      (idle : pack.used = 0) : PackTurn pack skb (some (pack.consume kind .noCredit skb))
  | tooLong (supported : kind.supported skb = true)
      (credit : runSize (pack.used + kind.wireLength skb) ≤ txWriteAcc)
      (long : arsdioStaging < kind.wireLength skb + linkTrailerLen) :
      PackTurn pack skb
        (some ((pack.flushFull kind.type (kind.wireLength skb)).consume kind .tooLong skb))
  | staged (supported : kind.supported skb = true)
      (credit : runSize (pack.used + kind.wireLength skb) ≤ txWriteAcc)
      (short : kind.wireLength skb + linkTrailerLen ≤ arsdioStaging) :
      PackTurn pack skb
        (some (((pack.flushFull kind.type (kind.wireLength skb)).copy (kind.frame skb)).consume kind
          (.staged (pack.flushFull kind.type (kind.wireLength skb)).transfers.length) skb))

theorem packTurn_packSkb (pack : Pack) (skb : List UInt8) :
    PackTurn kind txWriteAcc pack skb (packSkb kind txWriteAcc pack skb) := by
  rw [packSkb]
  by_cases supported : kind.supported skb = false
  · rw [if_pos supported]
    exact .unsupported supported
  · have supported' : kind.supported skb = true := by simpa using supported
    rw [if_neg supported]
    by_cases noCredit : txWriteAcc < runSize (pack.used + kind.wireLength skb)
    · rw [if_pos noCredit]
      by_cases batch : pack.used = 0
      · rw [if_neg (by simpa using batch)]
        exact .noCredit supported' noCredit batch
      · rw [if_pos batch]
        exact .requeue supported' noCredit batch
    · rw [if_neg noCredit]
      simp only [kind.length_frame]
      by_cases long : arsdioStaging < kind.wireLength skb + linkTrailerLen
      · rw [if_pos long]
        exact .tooLong supported' (Nat.le_of_not_lt noCredit) long
      · rw [if_neg long]
        exact .staged supported' (Nat.le_of_not_lt noCredit) (Nat.le_of_not_lt long)

variable {kind txWriteAcc}

/-- The trailer still fits behind the batch. -/
def Pack.Fits (pack : Pack) : Prop := pack.used + linkTrailerLen ≤ arsdioStaging

def payloads (type : UInt8) (transfers : List Transfer) : List UInt8 :=
  (transfers.filter (·.type = type)).flatMap Transfer.payload

theorem payloads_append (type : UInt8) (transfers later : List Transfer) :
    payloads type (transfers ++ later) = payloads type transfers ++ payloads type later := by
  simp [payloads]

/-- The payload of the transfers that were written.  A run that was not written whole has no
trailer, so the other side finds no payload in it. -/
def writtenPayloads (type : UInt8) (transfers : List Transfer) : List UInt8 :=
  payloads type (transfers.filter (·.ret = 0))

theorem writtenPayloads_append (type : UInt8) (transfers later : List Transfer) :
    writtenPayloads type (transfers ++ later) =
      writtenPayloads type transfers ++ writtenPayloads type later := by
  rw [writtenPayloads, List.filter_append, payloads_append]
  rfl

theorem writtenPayloads_singleton (transfer : Transfer) :
    writtenPayloads transfer.type [transfer] =
      if transfer.ret = 0 then transfer.payload else [] := by
  by_cases written : transfer.ret = 0
  · simp [writtenPayloads, payloads, written]
  · simp [writtenPayloads, payloads, written]

/-- The bytes a receiver of this kind of transfer gets once the batch is flushed. -/
def Pack.stream (pack : Pack) (type : UInt8) : List UInt8 :=
  writtenPayloads type pack.transfers ++
    if pack.toio pack.transfers.length = 0 then pack.txBuf.bytes.take pack.used else []

theorem Pack.stream_of_idle {pack : Pack} (idle : pack.used = 0) (type : UInt8) :
    pack.stream type = writtenPayloads type pack.transfers := by
  rw [Pack.stream, idle, List.take_zero, ite_self, List.append_nil]

/-- The bytes a packet adds to what the receiver gets. -/
def TxOutcome.frame (kind : PackKind) (toio : ℕ → ℤ) (skb : List UInt8) : TxOutcome → List UInt8
  | .staged transfer => if toio transfer = 0 then kind.frame skb else []
  | _ => []

/-- The frames of the packets a log records as staged in a batch that is written. -/
def writtenFrames (kind : PackKind) (toio : ℕ → ℤ) (log : List (List UInt8 × TxOutcome)) :
    List UInt8 :=
  log.flatMap fun entry => entry.2.frame kind toio entry.1

theorem Pack.flush_transfers (pack : Pack) (type : UInt8) :
    (pack.flush type).transfers =
      pack.transfers ++ [⟨type, pack.used, (stageRun pack.txBuf pack.used type).2,
        pack.toio pack.transfers.length⟩] := rfl

theorem Pack.Fits.flush {pack : Pack} {type : UInt8} : (pack.flush type).Fits := by
  simp [Pack.Fits, Pack.flush]

theorem Pack.Fits.flush_stream {pack : Pack} (fits : pack.Fits) (type : UInt8) :
    (pack.flush type).stream type = pack.stream type := by
  rw [Pack.stream_of_idle rfl, Pack.flush_transfers, writtenPayloads_append, Pack.stream]
  congr 1
  rw [← stageRun_snd_take fits pack.txBuf type]
  exact writtenPayloads_singleton ⟨type, pack.used, _, _⟩

theorem Pack.flushFull_cases (pack : Pack) (type : UInt8) (length : ℕ) :
    (pack.used ≠ 0 ∧ arsdioStaging < pack.used + length + linkTrailerLen ∧
        pack.flushFull type length = pack.flush type) ∨
      ((pack.used = 0 ∨ pack.used + length + linkTrailerLen ≤ arsdioStaging) ∧
        pack.flushFull type length = pack) := by
  rw [Pack.flushFull]
  split
  · rename_i full
    exact Or.inl ⟨full.1, full.2, rfl⟩
  · rename_i room
    refine Or.inr ⟨?_, rfl⟩
    by_contra full
    push Not at full
    exact room full

theorem Pack.Fits.flushFull {pack : Pack} (fits : pack.Fits) (type : UInt8) (length : ℕ) :
    (pack.flushFull type length).Fits ∧
      (pack.flushFull type length).stream type = pack.stream type ∧
      (pack.flushFull type length).log = pack.log ∧
      (pack.flushFull type length).toio = pack.toio := by
  rcases pack.flushFull_cases type length with ⟨_, _, flushed⟩ | ⟨_, same⟩
  · rw [flushed]
    exact ⟨.flush, fits.flush_stream type, rfl, rfl⟩
  · rw [same]
    exact ⟨fits, rfl, rfl, rfl⟩

/-- What the early flush is for: the frame fits behind what it leaves. -/
theorem Pack.flushFull_room (pack : Pack) (type : UInt8) {length : ℕ}
    (short : length + linkTrailerLen ≤ arsdioStaging) :
    (pack.flushFull type length).used + length + linkTrailerLen ≤ arsdioStaging := by
  rcases pack.flushFull_cases type length with ⟨_, _, flushed⟩ | ⟨empty | room, same⟩
  · rw [flushed]
    simpa [Pack.flush] using short
  · rw [same, empty]
    simpa using short
  · rw [same]
    exact room

theorem Pack.copy_stream (pack : Pack) (frame : List UInt8) (type : UInt8)
    (room : pack.used + frame.length + linkTrailerLen ≤ arsdioStaging) :
    (pack.copy frame).stream type =
      pack.stream type ++ if pack.toio pack.transfers.length = 0 then frame else [] := by
  simp only [Pack.stream, Pack.copy]
  rw [TxBuf.copy_take (by simp only [linkTrailerLen] at room; omega), List.append_assoc]
  by_cases written : pack.toio pack.transfers.length = 0
  · simp only [written, if_true]
  · simp only [written, if_false, List.append_nil]

/-- A turn that takes the packet records it and extends the stream by its frame, if it is staged
in a batch that is written. -/
theorem packSkb_stream {pack next : Pack} {skb : List UInt8} (fits : pack.Fits)
    (turn : packSkb kind txWriteAcc pack skb = some next) :
    next.Fits ∧ next.toio = pack.toio ∧
      ∃ outcome : TxOutcome, outcome.Explains kind txWriteAcc skb ∧
        next.log = pack.log ++ [(skb, outcome)] ∧
        next.stream kind.type = pack.stream kind.type ++ outcome.frame kind pack.toio skb := by
  have turns := packTurn_packSkb kind txWriteAcc pack skb
  rw [turn] at turns
  cases turns with
  | unsupported unsupported =>
      exact ⟨fits, rfl, .unsupported, unsupported, rfl, (List.append_nil _).symm⟩
  | noCredit supported noCredit idle =>
      rw [idle, Nat.zero_add] at noCredit
      exact ⟨fits, rfl, .noCredit, ⟨supported, noCredit⟩, rfl, (List.append_nil _).symm⟩
  | tooLong supported credit long =>
      rcases fits.flushFull kind.type (kind.wireLength skb) with
        ⟨stillFits, sameStream, sameLog, sameToio⟩
      refine ⟨stillFits, sameToio, .tooLong, ⟨supported, long⟩, ?_, ?_⟩
      · rw [← sameLog]
        rfl
      · rw [← sameStream]
        exact (List.append_nil _).symm
  | staged supported credit short =>
      rcases fits.flushFull kind.type (kind.wireLength skb) with ⟨_, sameStream, sameLog, sameToio⟩
      have room := pack.flushFull_room kind.type short
      have copied := (pack.flushFull kind.type (kind.wireLength skb)).copy_stream (kind.frame skb)
        kind.type (by rwa [kind.length_frame])
      refine ⟨?_, sameToio,
        .staged (pack.flushFull kind.type (kind.wireLength skb)).transfers.length,
        ⟨supported, short⟩, ?_, ?_⟩
      · rw [Pack.Fits]
        change _ + (kind.frame skb).length + _ ≤ _
        rw [kind.length_frame]
        exact room
      · rw [← sameLog]
        rfl
      · rw [← sameStream, ← sameToio]
        exact copied

variable (kind txWriteAcc) in
/-- The loop records the packets it takes, in queue order, and stages the frames of some. -/
theorem packTxq_stream {pack : Pack} (fits : pack.Fits) (queue : List (List UInt8)) :
    (packTxq kind txWriteAcc pack queue).1.Fits ∧
      ∃ taken : List (List UInt8 × TxOutcome),
        (∀ entry ∈ taken, entry.2.Explains kind txWriteAcc entry.1) ∧
        taken.map Prod.fst ++ (packTxq kind txWriteAcc pack queue).2 = queue ∧
        (packTxq kind txWriteAcc pack queue).1.log = pack.log ++ taken ∧
        (packTxq kind txWriteAcc pack queue).1.stream kind.type =
          pack.stream kind.type ++ writtenFrames kind pack.toio taken := by
  fun_induction packTxq kind txWriteAcc pack queue with
  | case1 pack => exact ⟨fits, [], by simp, by simp, by simp, by simp [writtenFrames]⟩
  | case2 pack skb rest requeued =>
      exact ⟨fits, [], by simp, by simp, by simp, by simp [writtenFrames]⟩
  | case3 pack skb rest next turn ih =>
      rcases packSkb_stream fits turn with ⟨nextFits, sameToio, outcome, explains, log, stream⟩
      rcases ih nextFits with ⟨finalFits, taken, explained, split, finalLog, finalStream⟩
      refine ⟨finalFits, (skb, outcome) :: taken, ?_, ?_, ?_, ?_⟩
      · intro entry member
        rcases List.mem_cons.mp member with rfl | member
        · exact explains
        · exact explained entry member
      · rw [List.map_cons, List.cons_append, split]
      · rw [finalLog, log, List.append_assoc]
        rfl
      · rw [finalStream, stream, List.append_assoc, sameToio]
        rfl

variable (kind txWriteAcc) in
/-- Packets stay queued only behind a batch. -/
theorem packTxq_requeued (pack : Pack) (queue : List (List UInt8))
    (requeued : (packTxq kind txWriteAcc pack queue).2 ≠ []) :
    (packTxq kind txWriteAcc pack queue).1.used ≠ 0 := by
  fun_induction packTxq kind txWriteAcc pack queue with
  | case1 pack => exact absurd rfl requeued
  | case2 pack skb rest turn =>
      have turns := packTurn_packSkb kind txWriteAcc pack skb
      rw [turn] at turns
      cases turns with
      | requeue _ _ batch => exact batch
  | case3 pack skb rest next turn ih => exact ih requeued

/-! ### When the staging buffer overflows -/

/-- A transfer of a non-empty batch that fitted the staging buffer. -/
structure Transfer.OfBatch (type : UInt8) (transfer : Transfer) : Prop where
  type_eq : transfer.type = type
  nonempty : 0 < transfer.used
  fits : transfer.used + linkTrailerLen ≤ arsdioStaging
  length_blocks : transfer.blocks.length = runSize transfer.used

/-- A batch of `used` bytes overflows the staging buffer under no credit to go on: wherever
the packed lengths pass the end of the buffer, they have passed the grant as well. -/
def OneBatch (txWriteAcc used : ℕ) (lengths : List ℕ) : Prop :=
  ∀ front ∈ lengths.inits, arsdioStaging < used + front.sum + linkTrailerLen →
    txWriteAcc < runSize (used + front.sum)

instance (txWriteAcc used : ℕ) (lengths : List ℕ) : Decidable (OneBatch txWriteAcc used lengths) :=
  inferInstanceAs (Decidable (∀ _ ∈ _, _ → _))

/-- A packet the loop drops when it finds it at the head of a batch. -/
def unfit (txWriteAcc length : ℕ) : Bool :=
  decide (txWriteAcc < runSize length) || decide (arsdioStaging < length + linkTrailerLen)

/-- The lengths of the packets that take part in packing. -/
def wireLengths (kind : PackKind) (queue : List (List UInt8)) : List ℕ :=
  ((queue.filter kind.supported).map kind.wireLength).filter (0 < ·)

/-- The queue is packed without an early flush. -/
def StaysInBuffer (txWriteAcc used : ℕ) (lengths : List ℕ) : Prop :=
  OneBatch txWriteAcc used
    (if used = 0 then lengths.dropWhile (unfit txWriteAcc) else lengths)

instance (txWriteAcc used : ℕ) (lengths : List ℕ) :
    Decidable (StaysInBuffer txWriteAcc used lengths) :=
  inferInstanceAs (Decidable (OneBatch _ _ _))

theorem oneBatch_cons {used length : ℕ} {lengths : List ℕ}
    (fits : used + linkTrailerLen ≤ arsdioStaging) :
    OneBatch txWriteAcc used (length :: lengths) ↔ OneBatch txWriteAcc (used + length) lengths := by
  simp only [OneBatch, List.inits_cons, List.forall_mem_cons, List.forall_mem_map, List.sum_nil,
    List.sum_cons, Nat.add_zero, Nat.add_assoc]
  constructor
  · exact fun oneBatch => oneBatch.2
  · intro oneBatch
    refine ⟨fun overflow => ?_, oneBatch⟩
    omega

theorem oneBatch_nil {used : ℕ} (fits : used + linkTrailerLen ≤ arsdioStaging) :
    OneBatch txWriteAcc used [] := by
  intro front member overflow
  have empty : front = [] := by simpa using member
  subst empty
  simp only [List.sum_nil] at overflow
  omega

theorem oneBatch_of_noCredit {used : ℕ} (noCredit : txWriteAcc < runSize used)
    (lengths : List ℕ) : OneBatch txWriteAcc used lengths := by
  intro front _ _
  exact Nat.lt_of_lt_of_le noCredit (runSize_mono (Nat.le_add_right used _))

theorem not_oneBatch_of_overflow {used : ℕ} (overflow : arsdioStaging < used + linkTrailerLen)
    (credit : runSize used ≤ txWriteAcc) (lengths : List ℕ) :
    ¬OneBatch txWriteAcc used lengths := by
  intro oneBatch
  have noCredit := oneBatch [] (by simp) (by simpa using overflow)
  simp only [List.sum_nil, Nat.add_zero] at noCredit
  omega

theorem staysInBuffer_of_used {used : ℕ} (batch : used ≠ 0) (lengths : List ℕ) :
    StaysInBuffer txWriteAcc used lengths ↔ OneBatch txWriteAcc used lengths := by
  rw [StaysInBuffer, if_neg batch]

theorem staysInBuffer_cons_of_unfit {length : ℕ} (unfit : unfit txWriteAcc length = true)
    (lengths : List ℕ) :
    StaysInBuffer txWriteAcc 0 (length :: lengths) ↔ StaysInBuffer txWriteAcc 0 lengths := by
  rw [StaysInBuffer, StaysInBuffer, if_pos rfl, if_pos rfl, List.dropWhile_cons_of_pos unfit]

theorem staysInBuffer_cons_of_fit {length : ℕ} (fit : unfit txWriteAcc length = false)
    (positive : 0 < length) (lengths : List ℕ) :
    StaysInBuffer txWriteAcc 0 (length :: lengths) ↔ StaysInBuffer txWriteAcc length lengths := by
  rw [StaysInBuffer, StaysInBuffer, if_pos rfl, if_neg (by omega),
    List.dropWhile_cons_of_neg (by simp [fit]), oneBatch_cons (by simp), Nat.zero_add]

theorem wireLengths_cons_of_unsupported {skb : List UInt8}
    (unsupported : kind.supported skb = false)
    (queue : List (List UInt8)) : wireLengths kind (skb :: queue) = wireLengths kind queue := by
  simp [wireLengths, unsupported]

theorem wireLengths_cons_of_zero {skb : List UInt8} (zero : kind.wireLength skb = 0)
    (queue : List (List UInt8)) : wireLengths kind (skb :: queue) = wireLengths kind queue := by
  cases supported : kind.supported skb with
  | false => exact wireLengths_cons_of_unsupported supported queue
  | true => simp [wireLengths, supported, zero]

theorem wireLengths_cons {skb : List UInt8} (supported : kind.supported skb = true)
    (positive : 0 < kind.wireLength skb) (queue : List (List UInt8)) :
    wireLengths kind (skb :: queue) = kind.wireLength skb :: wireLengths kind queue := by
  simp [wireLengths, supported, positive]

theorem Pack.Fits.flush_issued {pack : Pack} (fits : pack.Fits) (batch : pack.used ≠ 0)
    (type : UInt8) :
    ∃ transfer, (pack.flush type).transfers = pack.transfers ++ [transfer] ∧
      Transfer.OfBatch type transfer ∧ transfer.used = pack.used :=
  ⟨_, rfl, ⟨rfl, Nat.pos_of_ne_zero batch, fits, length_stageRun_snd fits _ _⟩, rfl⟩

/-- A packet that does not fit behind a batch takes the queue out of the buffer. -/
theorem Pack.Fits.leaves_of_overflow {pack : Pack} {skb : List UInt8} (fits : pack.Fits)
    (batch : pack.used ≠ 0) (supported : kind.supported skb = true)
    (overflow : arsdioStaging < pack.used + kind.wireLength skb + linkTrailerLen)
    (room : runSize (pack.used + kind.wireLength skb) ≤ txWriteAcc) (rest : List (List UInt8)) :
    ¬StaysInBuffer txWriteAcc pack.used (wireLengths kind (skb :: rest)) := by
  have positive : 0 < kind.wireLength skb := by
    rw [Pack.Fits] at fits
    omega
  rw [wireLengths_cons supported positive, staysInBuffer_of_used batch, oneBatch_cons fits]
  exact not_oneBatch_of_overflow overflow room _

/-- A packet that is staged without a flush leaves it to the rest of the queue. -/
theorem Pack.Fits.stays_cons {pack : Pack} {skb : List UInt8} (fits : pack.Fits)
    (supported : kind.supported skb = true)
    (room : runSize (pack.used + kind.wireLength skb) ≤ txWriteAcc)
    (short : kind.wireLength skb + linkTrailerLen ≤ arsdioStaging) (rest : List (List UInt8)) :
    StaysInBuffer txWriteAcc pack.used (wireLengths kind (skb :: rest)) ↔
      StaysInBuffer txWriteAcc (pack.used + kind.wireLength skb) (wireLengths kind rest) := by
  rcases Nat.eq_zero_or_pos (kind.wireLength skb) with zero | positive
  · rw [wireLengths_cons_of_zero zero, zero]
    simp
  · rw [wireLengths_cons supported positive]
    rcases Nat.eq_zero_or_pos pack.used with idle | batch
    · rw [idle, Nat.zero_add] at room ⊢
      have fit : unfit txWriteAcc (kind.wireLength skb) = false := by
        simp only [unfit, Bool.or_eq_false_iff, decide_eq_false_iff_not]
        omega
      exact staysInBuffer_cons_of_fit fit positive _
    · rw [staysInBuffer_of_used (by omega), staysInBuffer_of_used (by omega)]
      exact oneBatch_cons fits

/-- What a turn issues, and that the rest of the queue decides whether more will be. -/
theorem packSkb_issued {pack next : Pack} {skb : List UInt8} (fits : pack.Fits)
    (credit : pack.used ≠ 0 → runSize pack.used ≤ txWriteAcc)
    (turn : packSkb kind txWriteAcc pack skb = some next) (rest : List (List UInt8)) :
    ∃ issued, next.transfers = pack.transfers ++ issued ∧
      (∀ transfer ∈ issued, Transfer.OfBatch kind.type transfer) ∧
      (next.used ≠ 0 → runSize next.used ≤ txWriteAcc) ∧
      (StaysInBuffer txWriteAcc pack.used (wireLengths kind (skb :: rest)) ↔
        issued = [] ∧ StaysInBuffer txWriteAcc next.used (wireLengths kind rest)) := by
  have turns := packTurn_packSkb kind txWriteAcc pack skb
  rw [turn] at turns
  cases turns with
  | unsupported unsupported =>
      refine ⟨[], by simp [Pack.consume], by simp, credit, ?_⟩
      rw [wireLengths_cons_of_unsupported unsupported]
      simp [Pack.consume]
  | noCredit supported noCredit idle =>
      rw [idle, Nat.zero_add] at noCredit
      refine ⟨[], by simp [Pack.consume], by simp, credit, ?_⟩
      rcases Nat.eq_zero_or_pos (kind.wireLength skb) with zero | positive
      · rw [wireLengths_cons_of_zero zero]
        simp [Pack.consume]
      · rw [wireLengths_cons supported positive, idle,
          staysInBuffer_cons_of_unfit (by simp [unfit, noCredit])]
        simp [Pack.consume, idle]
  | tooLong supported room long =>
      rcases pack.flushFull_cases kind.type (kind.wireLength skb) with
        ⟨batch, overflow, flushed⟩ | ⟨idle | short, same⟩
      · rcases fits.flush_issued batch kind.type with ⟨transfer, transfers, ofBatch, -⟩
        rw [flushed]
        refine ⟨[transfer], transfers, by simpa using ofBatch, by simp [Pack.consume, Pack.flush],
          ?_⟩
        simpa using fits.leaves_of_overflow batch supported overflow room rest
      · have positive : 0 < kind.wireLength skb := by
          simp only [arsdioStaging, linkTrailerLen] at long
          omega
        rw [same]
        refine ⟨[], by simp [Pack.consume], by simp, credit, ?_⟩
        rw [wireLengths_cons supported positive, idle, staysInBuffer_cons_of_unfit
          (by simp only [unfit, long, decide_true, Bool.or_true])]
        simp [Pack.consume, idle]
      · omega
  | staged supported room short =>
      have nextUsed : (((pack.flushFull kind.type (kind.wireLength skb)).copy
          (kind.frame skb)).consume kind (.staged
            (pack.flushFull kind.type (kind.wireLength skb)).transfers.length) skb).used =
            (pack.flushFull kind.type (kind.wireLength skb)).used + kind.wireLength skb := by
        rw [← kind.length_frame skb]
        rfl
      rw [nextUsed]
      rcases pack.flushFull_cases kind.type (kind.wireLength skb) with
        ⟨batch, overflow, flushed⟩ | ⟨space, same⟩
      · rcases fits.flush_issued batch kind.type with ⟨transfer, transfers, ofBatch, -⟩
        rw [flushed]
        refine ⟨[transfer], transfers, by simpa using ofBatch, ?_, ?_⟩
        · intro _
          exact Nat.le_trans (runSize_mono (by simp [Pack.flush])) room
        · simpa using fits.leaves_of_overflow batch supported overflow room rest
      · rw [same]
        refine ⟨[], by simp [Pack.consume, Pack.copy], by simp, fun _ => room, ?_⟩
        simpa using fits.stays_cons supported room short rest

variable (kind txWriteAcc) in
/-- A loop flushes early exactly if its queue does not stay in the staging buffer, and what it
leaves unflushed fits the grant. -/
theorem packTxq_issued {pack : Pack} (fits : pack.Fits)
    (credit : pack.used ≠ 0 → runSize pack.used ≤ txWriteAcc) (queue : List (List UInt8)) :
    ∃ issued, (packTxq kind txWriteAcc pack queue).1.transfers = pack.transfers ++ issued ∧
      (∀ transfer ∈ issued, Transfer.OfBatch kind.type transfer) ∧
      ((packTxq kind txWriteAcc pack queue).1.used ≠ 0 →
        runSize (packTxq kind txWriteAcc pack queue).1.used ≤ txWriteAcc) ∧
      (StaysInBuffer txWriteAcc pack.used (wireLengths kind queue) ↔ issued = []) := by
  fun_induction packTxq kind txWriteAcc pack queue with
  | case1 pack =>
      refine ⟨[], by simp, by simp, credit, ?_⟩
      simpa [wireLengths, StaysInBuffer] using oneBatch_nil fits
  | case2 pack skb rest requeued =>
      refine ⟨[], by simp, by simp, credit, ?_⟩
      have turns := packTurn_packSkb kind txWriteAcc pack skb
      rw [requeued] at turns
      cases turns with
      | requeue supported noCredit batch =>
          have positive : 0 < kind.wireLength skb := by
            by_contra zero
            have := credit batch
            rw [Nat.eq_zero_of_not_pos zero, Nat.add_zero] at noCredit
            omega
          rw [wireLengths_cons supported positive, staysInBuffer_of_used batch, oneBatch_cons fits]
          simpa using oneBatch_of_noCredit noCredit _
  | case3 pack skb rest next turn ih =>
      rcases packSkb_stream fits turn with ⟨nextFits, -⟩
      rcases packSkb_issued fits credit turn rest with
        ⟨issued, transfers, ofBatch, nextCredit, stays⟩
      rcases ih nextFits nextCredit with
        ⟨later, laterTransfers, laterOfBatch, laterCredit, laterStays⟩
      refine ⟨issued ++ later, ?_, ?_, laterCredit, ?_⟩
      · rw [laterTransfers, transfers, List.append_assoc]
      · intro transfer member
        rcases List.mem_append.mp member with member | member
        · exact ofBatch transfer member
        · exact laterOfBatch transfer member
      · rw [stays, laterStays, List.append_eq_nil_iff]

end MlKernel.Sdio
