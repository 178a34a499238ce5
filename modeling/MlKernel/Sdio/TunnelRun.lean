import Mathlib.Data.List.Forall2
import MlKernel.Sdio.Tunnel

/-!
# Tunnel fidelity over whole runs

The transmit half runs through any sequence of packets, commands, ACKs, worker
passes and grants; the 0xCC payload it sends is cut into receive transfers in
any way.  `Tunnelling` is the invariant that carries the result: the payload
written so far is exactly the frames of the packets logged as staged in a
transfer that was written.
-/

namespace MlKernel.Sdio

/-- A packet the tunnel is meant for. -/
structure Tunnelled (pfx : LinkPrefix) (skb : List UInt8) : Prop where
  marker : byteAt skb 0 = 0x45
  protocol : LinkCarries (byteAt skb 9)
  totalLength : be16At skb 2 = skb.length
  payload : iphdrSize < skb.length
  length_le : skb.length ≤ 4096
  inPrefix : InPrefix pfx skb

theorem Tunnelled.frame {pfx : LinkPrefix} {skb : List UInt8} (tunnelled : Tunnelled pfx skb) :
    Frame (artosynSdioBuildIpHead skb) := by
  have long := Nat.le_of_lt tunnelled.payload
  refine ⟨?_, length_wireSize long tunnelled.totalLength⟩
  rw [believable_artosynSdioBuildIpHead_iff long tunnelled.marker tunnelled.totalLength]
  exact ⟨tunnelled.protocol, tunnelled.payload,
    Nat.le_trans tunnelled.length_le (by simp only [arsdioIpFrameMax]; omega)⟩

/-- Why such a packet leaves the queue: it is staged, or dropped for want of credit. -/
theorem Tunnelled.outcome {pfx : LinkPrefix} {skb : List UInt8} (tunnelled : Tunnelled pfx skb)
    {txWriteAcc : ℕ} {outcome : TxOutcome} (explains : outcome.Explains dataKind txWriteAcc skb) :
    outcome.isStaged = true ∨ outcome = .noCredit := by
  have payload := tunnelled.payload
  have length_le := tunnelled.length_le
  cases outcome with
  | unsupported =>
      have unsupported : dataKind.supported skb = false := explains
      simp only [dataKind, tunnelled.marker, Bool.and_eq_false_iff,
        decide_eq_false_iff_not] at unsupported
      rcases unsupported with short | other
      · omega
      · cases other
  | noCredit => exact Or.inr rfl
  | tooLong =>
      have long := explains.2
      simp only [dataKind, arsdioStaging, linkTrailerLen] at long
      omega
  | staged transfer => exact Or.inl rfl

/-- The packets that were not dropped for want of credit. -/
def notDropped (log : List (List UInt8 × TxOutcome)) : List (List UInt8) :=
  (log.filter fun entry => entry.2 ≠ .noCredit).map Prod.fst

/-- The write of the transfer a packet was staged in failed. -/
def TxOutcome.lost (toio : ℕ → ℤ) : TxOutcome → Bool
  | .staged transfer => toio transfer ≠ 0
  | .unsupported | .noCredit | .tooLong => false

/-- The packets that were neither dropped for want of credit nor lost with their transfer. -/
def delivered (toio : ℕ → ℤ) (log : List (List UInt8 × TxOutcome)) : List (List UInt8) :=
  notDropped (log.filter fun entry => !entry.2.lost toio)

/-- The transmit half has carried tunnelled packets only, and its 0xCC payload is their frames. -/
structure Tunnelling (pfx : LinkPrefix) (dev : LinkTx) : Prop where
  stream : writtenPayloads linkTypeIp dev.transfers = writtenFrames dataKind dev.toio dev.dataLog
  taken : ∀ entry ∈ dev.dataLog,
    Tunnelled pfx entry.1 ∧ (entry.2.isStaged = true ∨ entry.2 = .noCredit)
  queued : ∀ skb ∈ dev.dataTxq, Tunnelled pfx skb

def LinkTx.seen (dev : LinkTx) : List (List UInt8) := dev.dataLog.map Prod.fst ++ dev.dataTxq

theorem writtenFrames_append (kind : PackKind) (toio : ℕ → ℤ)
    (log later : List (List UInt8 × TxOutcome)) :
    writtenFrames kind toio (log ++ later) =
      writtenFrames kind toio log ++ writtenFrames kind toio later := by
  simp [writtenFrames]

theorem Tunnelling.sendData {pfx : LinkPrefix} {dev : LinkTx} (tunnelling : Tunnelling pfx dev) :
    Tunnelling pfx (artosynSdioSendData dev) ∧ (artosynSdioSendData dev).seen = dev.seen ∧
      (artosynSdioSendData dev).toio = dev.toio := by
  rcases artosynSdioSendData_stream dev with ⟨taken, explained, split, log, toio, stream⟩
  have fromQueue : ∀ skb, skb ∈ taken.map Prod.fst ∨ skb ∈ (artosynSdioSendData dev).dataTxq →
      Tunnelled pfx skb := by
    intro skb member
    apply tunnelling.queued
    rw [← split]
    exact List.mem_append.mpr member
  refine ⟨⟨?_, ?_, ?_⟩, ?_, toio⟩
  · rw [stream, log, toio, writtenFrames_append, tunnelling.stream]
  · intro entry member
    rw [log] at member
    rcases List.mem_append.mp member with earlier | now
    · exact tunnelling.taken entry earlier
    · have tunnelled := fromQueue entry.1 (Or.inl (List.mem_map_of_mem now))
      exact ⟨tunnelled, tunnelled.outcome (explained entry now)⟩
  · exact fun skb member => fromQueue skb (Or.inr member)
  · rw [LinkTx.seen, LinkTx.seen, log, List.map_append, List.append_assoc, split]

theorem Tunnelling.txPass {pfx : LinkPrefix} {dev : LinkTx} (tunnelling : Tunnelling pfx dev)
    {arrivals : Arrivals} (carried : ∀ skb ∈ arrivals.data, Tunnelled pfx skb) :
    Tunnelling pfx (txPass dev arrivals) ∧
      (MlKernel.Sdio.txPass dev arrivals).seen = dev.seen ++ arrivals.data ∧
      (MlKernel.Sdio.txPass dev arrivals).toio = dev.toio := by
  rcases tunnelling.sendData with ⟨sent, seen, toio⟩
  rcases artosynSdioSendCmd_stream (enqueue (artosynSdioSendData dev) arrivals) with
    ⟨sameQueue, sameLog, sameToio, samePayload⟩
  refine ⟨⟨?_, ?_, ?_⟩, ?_, sameToio.trans toio⟩
  · rw [MlKernel.Sdio.txPass, samePayload, sameLog, sameToio]
    exact sent.stream
  · rw [MlKernel.Sdio.txPass, sameLog]
    exact sent.taken
  · rw [MlKernel.Sdio.txPass, sameQueue]
    intro skb member
    rcases List.mem_append.mp member with earlier | arrived
    · exact sent.queued skb earlier
    · exact carried skb arrived
  · rw [LinkTx.seen, MlKernel.Sdio.txPass, sameQueue, sameLog, ← seen, LinkTx.seen,
      List.append_assoc]
    rfl

/-- An event that puts nothing but tunnelled packets on the queue, and closes nothing. -/
def TxEvent.Carries (pfx : LinkPrefix) : TxEvent → Prop
  | .startXmit skb => Tunnelled pfx skb
  | .write _ => True
  | .worker arrivals => ∀ skb ∈ arrivals.data, Tunnelled pfx skb
  | .irq _ _ arrivals => ∀ skb ∈ arrivals.data, Tunnelled pfx skb
  | .close => False

/-- The packets an event puts on the queue. -/
def TxEvent.queues (system : TxSystem) : TxEvent → List (List UInt8)
  | .startXmit skb =>
      (artosynSdioNetStartXmit system.dev skb).2.dataTxq.drop system.dev.dataTxq.length
  | .write _ => []
  | .worker arrivals => arrivals.data
  | .irq grants _ arrivals => if (readGrants system.dev false grants).2 then arrivals.data else []
  | .close => []

/-- The packets a run puts on the queue, in order. -/
def queuedAlong (system : TxSystem) : List TxEvent → List (List UInt8)
  | [] => []
  | event :: events => event.queues system ++ queuedAlong (system.step event) events

theorem Tunnelling.startXmit {pfx : LinkPrefix} {dev : LinkTx} (tunnelling : Tunnelling pfx dev)
    {skb : List UInt8} (tunnelled : Tunnelled pfx skb) :
    Tunnelling pfx (artosynSdioNetStartXmit dev skb).2 ∧
      (artosynSdioNetStartXmit dev skb).2.seen =
        dev.seen ++ (artosynSdioNetStartXmit dev skb).2.dataTxq.drop dev.dataTxq.length ∧
      (artosynSdioNetStartXmit dev skb).2.toio = dev.toio := by
  rcases tunnelling with ⟨stream, taken, queued⟩
  simp only [artosynSdioNetStartXmit]
  split
  · exact ⟨⟨stream, taken, queued⟩, by simp [LinkTx.seen], rfl⟩
  · split
    · exact ⟨⟨stream, taken, queued⟩, by simp [LinkTx.seen], rfl⟩
    · refine ⟨⟨stream, taken, ?_⟩, by simp [LinkTx.seen], rfl⟩
      intro packet member
      rcases List.mem_append.mp member with earlier | now
      · exact queued packet earlier
      · rwa [List.mem_singleton.mp now]

/-- The two states agree on what the tunnel is about. -/
structure SameTunnel (before after : LinkTx) : Prop where
  toio : after.toio = before.toio
  transfers : after.transfers = before.transfers
  dataLog : after.dataLog = before.dataLog
  dataTxq : after.dataTxq = before.dataTxq

theorem SameTunnel.trans {first second third : LinkTx} (one : SameTunnel first second)
    (two : SameTunnel second third) : SameTunnel first third :=
  ⟨two.toio.trans one.toio, two.transfers.trans one.transfers, two.dataLog.trans one.dataLog,
    two.dataTxq.trans one.dataTxq⟩

theorem sameTunnel_readGrants (dev : LinkTx) (doTx : Bool) (grants : List UInt8) :
    SameTunnel dev (readGrants dev doTx grants).1 := by
  induction grants generalizing dev doTx with
  | nil => exact ⟨rfl, rfl, rfl, rfl⟩
  | cons blocks grants ih =>
      have first : SameTunnel dev (evtTx dev doTx blocks).1 := by
        rw [evtTx]
        split <;> exact ⟨rfl, rfl, rfl, rfl⟩
      exact first.trans (ih _ _)

theorem sameTunnel_recvAcked (dev : LinkTx) (acks : List UInt32) :
    SameTunnel dev (acks.foldl recvAcked dev) := by
  induction acks generalizing dev with
  | nil => exact ⟨rfl, rfl, rfl, rfl⟩
  | cons acked acks ih =>
      have first : SameTunnel dev (recvAcked dev acked) := by
        rw [recvAcked]
        split <;> exact ⟨rfl, rfl, rfl, rfl⟩
      exact first.trans (ih _)

theorem SameTunnel.tunnelling {pfx : LinkPrefix} {before after : LinkTx}
    (same : SameTunnel before after) (tunnelling : Tunnelling pfx before) :
    Tunnelling pfx after ∧ after.seen = before.seen := by
  rcases same with ⟨toio, transfers, dataLog, dataTxq⟩
  rcases tunnelling with ⟨stream, taken, queued⟩
  exact ⟨⟨by rw [transfers, dataLog, toio, stream], by rwa [dataLog], by rwa [dataTxq]⟩,
    by rw [LinkTx.seen, LinkTx.seen, dataLog, dataTxq]⟩

theorem Tunnelling.step {pfx : LinkPrefix} {system : TxSystem}
    (tunnelling : Tunnelling pfx system.dev) {event : TxEvent} (carries : event.Carries pfx) :
    Tunnelling pfx (system.step event).dev ∧
      (system.step event).dev.seen = system.dev.seen ++ event.queues system ∧
      (system.step event).dev.toio = system.dev.toio := by
  cases event with
  | startXmit skb => exact tunnelling.startXmit carries
  | write cmd =>
      rw [TxEvent.queues, List.append_nil]
      have same : SameTunnel system.dev (system.step (.write cmd)).dev :=
        ⟨rfl, rfl, rfl, by simp [TxSystem.step, enqueue]⟩
      rcases same.tunnelling tunnelling with ⟨still, seen⟩
      exact ⟨still, seen, rfl⟩
  | worker arrivals =>
      have woken : Tunnelling pfx { system.dev with workQueued := false } :=
        ⟨tunnelling.stream, tunnelling.taken, tunnelling.queued⟩
      exact woken.txPass carries
  | irq grants acks arrivals =>
      have same := (sameTunnel_readGrants system.dev false grants).trans
        (sameTunnel_recvAcked _ acks)
      rcases same.tunnelling tunnelling with ⟨still, seen⟩
      simp only [TxSystem.step, irqTx, TxEvent.queues]
      split
      · rw [← seen, ← same.toio]
        exact still.txPass carries
      · rw [List.append_nil]
        exact ⟨still, seen, same.toio⟩
  | close => exact carries.elim

/-- Along a run the invariant holds and every packet queued is accounted for. -/
theorem Tunnelling.run {pfx : LinkPrefix} {system : TxSystem}
    (tunnelling : Tunnelling pfx system.dev) {events : List TxEvent}
    (carries : ∀ event ∈ events, event.Carries pfx) :
    Tunnelling pfx (events.foldl TxSystem.step system).dev ∧
      (events.foldl TxSystem.step system).dev.seen =
        system.dev.seen ++ queuedAlong system events ∧
      (events.foldl TxSystem.step system).dev.toio = system.dev.toio := by
  induction events generalizing system with
  | nil => exact ⟨tunnelling, by simp [queuedAlong], rfl⟩
  | cons event events ih =>
      rcases List.forall_mem_cons.mp carries with ⟨first, rest⟩
      rcases tunnelling.step first with ⟨stepped, seen, toio⟩
      rcases ih stepped rest with ⟨final, finalSeen, finalToio⟩
      refine ⟨final, ?_, finalToio.trans toio⟩
      rw [List.foldl_cons, finalSeen, seen, queuedAlong, List.append_assoc]

/-! ### The receiver -/

theorem writtenFrames_eq {pfx : LinkPrefix} {toio : ℕ → ℤ} {log : List (List UInt8 × TxOutcome)}
    (taken : ∀ entry ∈ log,
      Tunnelled pfx entry.1 ∧ (entry.2.isStaged = true ∨ entry.2 = .noCredit)) :
    writtenFrames dataKind toio log =
      ((delivered toio log).map artosynSdioBuildIpHead).flatten := by
  induction log with
  | nil => rfl
  | cons entry log ih =>
      rcases List.forall_mem_cons.mp taken with ⟨⟨-, outcome⟩, rest⟩
      have later := ih rest
      rcases entry with ⟨skb, _ | _ | _ | transfer⟩
      · simp [TxOutcome.isStaged] at outcome
      · exact later
      · simp [TxOutcome.isStaged] at outcome
      · rw [writtenFrames, List.flatMap_cons]
        change (if toio transfer = 0 then artosynSdioBuildIpHead skb else []) ++
          writtenFrames dataKind toio log = _
        rw [later]
        by_cases written : toio transfer = 0
        · simp [delivered, notDropped, TxOutcome.lost, written]
        · simp [delivered, notDropped, TxOutcome.lost, written]

theorem tunnelled_of_delivered {pfx : LinkPrefix} {toio : ℕ → ℤ}
    {log : List (List UInt8 × TxOutcome)}
    (taken : ∀ entry ∈ log,
      Tunnelled pfx entry.1 ∧ (entry.2.isStaged = true ∨ entry.2 = .noCredit)) :
    ∀ skb ∈ delivered toio log, Tunnelled pfx skb := by
  intro skb member
  rcases List.mem_map.mp member with ⟨entry, inLog, rfl⟩
  exact (taken entry (List.mem_of_mem_filter (List.mem_of_mem_filter inLog))).1

section Receiver

variable {ipFastCsum : List UInt8 → ℕ → UInt16} {netdevAllocSkb : ℕ → Bool} {pfx : LinkPrefix}

/-- A receiver of frames hands all of them on, however they are cut. -/
theorem rxTransfers_frames (allocated : ∀ n, netdevAllocSkb n = true)
    {frames cuts : List (List UInt8)} (areFrames : ∀ frame ∈ frames, Frame frame)
    (cut : cuts.flatten = frames.flatten) :
    (rxTransfers ipFastCsum netdevAllocSkb pfx .initial cuts).netifRx =
      frames.map (artosynSdioRestoreIpHead ipFastCsum pfx) := by
  have start : CutAt cuts.flatten .initial 0 [] cuts :=
    ⟨.nothing rfl rfl, rfl, fun _ member => member⟩
  have finished := start.finished ipFastCsum pfx allocated (by
    rw [cut, rejections_flatten areFrames]
    simp)
  rw [List.nil_append, cut, scan_flatten areFrames] at finished
  have handedOn : HandedOn ipFastCsum pfx
      (rxTransfers ipFastCsum netdevAllocSkb pfx .initial cuts) :=
    handedOn_rxTransfers cuts rfl
  rw [handedOn, finished]
  rfl

theorem forall₂_restored (csum : ComputesChecksum ipFastCsum) {packets : List (List UInt8)}
    (tunnelled : ∀ skb ∈ packets, Tunnelled pfx skb) :
    List.Forall₂ Restored packets
      ((packets.map artosynSdioBuildIpHead).map (artosynSdioRestoreIpHead ipFastCsum pfx)) := by
  rw [List.forall₂_map_right_iff, List.forall₂_map_right_iff, List.forall₂_same]
  intro skb member
  have packet := tunnelled skb member
  exact restored_artosynSdioRestoreIpHead csum (Nat.le_of_lt packet.payload) packet.marker
    packet.inPrefix

/-- The far receiver hands on the packets the sender neither dropped nor lost with a transfer it
could not write, in order and once, each as it was up to the type of service, the time to live and
the checksum. -/
theorem tunnel_fidelity (csum : ComputesChecksum ipFastCsum)
    (allocated : ∀ n, netdevAllocSkb n = true) (toio : ℕ → ℤ) (unackedMax : UInt32)
    {events : List TxEvent} (carries : ∀ event ∈ events, event.Carries pfx) {dev : LinkTx}
    (sent : dev = (events.foldl TxSystem.step (.idle (.initial toio unackedMax))).dev)
    {cuts : List (List UInt8)} (cut : cuts.flatten = writtenPayloads linkTypeIp dev.transfers) :
    List.Forall₂ Restored (delivered toio dev.dataLog)
        (rxTransfers ipFastCsum netdevAllocSkb pfx .initial cuts).netifRx ∧
      dev.dataLog.map Prod.fst ++ dev.dataTxq =
        queuedAlong (.idle (.initial toio unackedMax)) events := by
  have idle : Tunnelling pfx (TxSystem.idle (.initial toio unackedMax)).dev :=
    ⟨rfl, fun _ member => absurd member List.not_mem_nil,
      fun _ member => absurd member List.not_mem_nil⟩
  rcases idle.run carries with ⟨⟨stream, taken, -⟩, seen, sameToio⟩
  rw [sameToio] at stream
  rw [← sent] at stream taken seen
  refine ⟨?_, seen⟩
  have tunnelled : ∀ skb ∈ delivered toio dev.dataLog, Tunnelled pfx skb :=
    tunnelled_of_delivered taken
  have areFrames : ∀ frame ∈ (delivered toio dev.dataLog).map artosynSdioBuildIpHead,
      Frame frame := by
    intro frame member
    rcases List.mem_map.mp member with ⟨skb, inLog, rfl⟩
    exact (tunnelled skb inLog).frame
  rw [rxTransfers_frames allocated areFrames (by rw [cut, stream]; exact writtenFrames_eq taken)]
  exact forall₂_restored csum tunnelled

end Receiver

/-- A received packet in which only the six DSCP bits of the type of service were cleared. -/
structure KeepsEcn (original received : List UInt8) : Prop where
  length_eq : received.length = original.length
  ecn : byteAt received 1 = byteAt original 1 &&& 0x03
  ttl : byteAt received 8 = 64
  checksum : InternetChecksum.Verifies (received.take iphdrSize)
  unchanged : ∀ i, i ≠ 1 → i ≠ 8 → i ≠ 10 → i ≠ 11 → byteAt received i = byteAt original i

/-- Every run delivers the packets it does not drop, up to a relation between the original and
the received packet, over a controller with these results and to a receiver with this allocator. -/
def Delivers (toio : ℕ → ℤ) (netdevAllocSkb : ℕ → Bool)
    (same : List UInt8 → List UInt8 → Prop) : Prop :=
  ∀ (ipFastCsum : List UInt8 → ℕ → UInt16) (pfx : LinkPrefix) (unackedMax : UInt32)
    (events : List TxEvent) (dev : LinkTx) (cuts : List (List UInt8)),
    ComputesChecksum ipFastCsum → (∀ event ∈ events, event.Carries pfx) →
    dev = (events.foldl TxSystem.step (.idle (.initial toio unackedMax))).dev →
    cuts.flatten = writtenPayloads linkTypeIp dev.transfers →
    List.Forall₂ same (notDropped dev.dataLog)
      (rxTransfers ipFastCsum netdevAllocSkb pfx .initial cuts).netifRx

/-- A packet with an ECN codepoint, sent under one grant and cut in its header.  The write of the
packet that is sent before it fails. -/
theorem tunnel_fidelity_ecn :
    let packet : List UInt8 :=
      [0x45, 2, 0, 24, 0, 1, 0, 0, 63, 17, 0, 0, 10, 0, 0, 1, 10, 0, 0, 2, 1, 2, 3, 4]
    let events : List TxEvent :=
      [.startXmit packet, .irq [1] [] ⟨[], []⟩, .startXmit packet, .irq [1] [] ⟨[], []⟩]
    let toio : ℕ → ℤ := fun call => if call = 0 then -84 else 0
    let dev := (events.foldl TxSystem.step (.idle (.initial toio 40960))).dev
    let payload := writtenPayloads linkTypeIp dev.transfers
    (delivered toio dev.dataLog = [packet] ∧ notDropped dev.dataLog = [packet, packet]) ∧
      List.Forall₂ Restored (delivered toio dev.dataLog)
        (rxTransfers (fun bytes ihl => InternetChecksum.checksum (bytes.take (4 * ihl)))
          (fun _ => true) ⟨10, 0, 0⟩ .initial [payload.take 5, payload.drop 5]).netifRx ∧
      dev.dataLog.map Prod.fst ++ dev.dataTxq =
        queuedAlong (.idle (.initial toio 40960)) events := by
  intro packet events toio dev payload
  have tunnelled : Tunnelled ⟨10, 0, 0⟩ packet :=
    ⟨by decide, by decide, by decide, by decide, by decide, by decide⟩
  refine ⟨by decide +kernel, tunnel_fidelity (fun _ _ _ => rfl) (fun _ => rfl) toio 40960 ?_ rfl ?_⟩
  · simp [events, TxEvent.Carries, tunnelled]
  · simp only [List.flatten_cons, List.flatten_nil, List.append_nil, List.take_append_drop]
    rfl

/-- The whole type-of-service byte is cleared, the ECN bits with it; a receiver that runs out of
buffers delivers nothing, and neither does a sender whose transfers fail. -/
theorem not_delivers_ecn :
    ¬Delivers (fun _ => 0) (fun _ => true) KeepsEcn ∧
      ¬Delivers (fun _ => 0) (fun _ => false) Restored ∧
      ¬Delivers (fun _ => -84) (fun _ => true) Restored := by
  let packet : List UInt8 :=
    [0x45, 2, 0, 24, 0, 1, 0, 0, 63, 17, 0, 0, 10, 0, 0, 1, 10, 0, 0, 2, 1, 2, 3, 4]
  let events : List TxEvent := [.startXmit packet, .irq [1] [] ⟨[], []⟩]
  have tunnelled : Tunnelled ⟨10, 0, 0⟩ packet :=
    ⟨by decide, by decide, by decide, by decide, by decide, by decide⟩
  have carries : ∀ event ∈ events, event.Carries ⟨10, 0, 0⟩ := by
    simp [events, TxEvent.Carries, tunnelled]
  have log : ∀ ret ∈ [0, -84],
      (events.foldl TxSystem.step (.idle (.initial (fun _ => ret) 40960))).dev.dataLog =
        [(packet, .staged 0)] := by
    decide +kernel
  have payload (ret : ℤ) (chosen : ret ∈ [0, -84]) :
      writtenPayloads linkTypeIp
          (events.foldl TxSystem.step (.idle (.initial (fun _ => ret) 40960))).dev.transfers =
        if ret = 0 then artosynSdioBuildIpHead packet else [] := by
    have idle : Tunnelling ⟨10, 0, 0⟩ (TxSystem.idle (.initial (fun _ => ret) 40960)).dev :=
      ⟨rfl, fun _ member => absurd member List.not_mem_nil,
        fun _ member => absurd member List.not_mem_nil⟩
    have run := idle.run carries
    rw [run.1.stream, log ret chosen, run.2.2]
    exact List.append_nil _
  let csum : List UInt8 → ℕ → UInt16 :=
    fun bytes ihl => InternetChecksum.checksum (bytes.take (4 * ihl))
  have computes : ComputesChecksum csum := fun _ _ _ => rfl
  refine ⟨?_, ?_, ?_⟩
  · intro delivers
    have received := delivers csum ⟨10, 0, 0⟩ 40960 events _ [artosynSdioBuildIpHead packet]
      computes carries rfl (by rw [payload 0 (by decide)]; rfl)
    have rebuilt : (rxTransfers csum (fun _ => true) ⟨10, 0, 0⟩ .initial
        [artosynSdioBuildIpHead packet]).netifRx =
          [artosynSdioBuildIpHead packet].map (artosynSdioRestoreIpHead csum ⟨10, 0, 0⟩) :=
      rxTransfers_frames (fun _ => rfl) (List.forall_mem_singleton.mpr tunnelled.frame) rfl
    have restored := restored_artosynSdioRestoreIpHead computes (Nat.le_of_lt tunnelled.payload)
      tunnelled.marker tunnelled.inPrefix
    rw [log 0 (by decide), rebuilt] at received
    have ecn := (List.forall₂_cons.mp received).1.ecn
    rw [restored.tos] at ecn
    exact absurd ecn (by decide)
  · intro delivers
    have received := delivers csum ⟨10, 0, 0⟩ 40960 events _ [artosynSdioBuildIpHead packet]
      computes carries rfl (by rw [payload 0 (by decide)]; rfl)
    have nothing : (rxTransfers csum (fun _ => false) ⟨10, 0, 0⟩ .initial
        [artosynSdioBuildIpHead packet]).netifRx = [] := by
      decide +kernel
    rw [log 0 (by decide), nothing] at received
    cases received
  · intro delivers
    have received := delivers csum ⟨10, 0, 0⟩ 40960 events _ [] computes carries rfl
      (by rw [payload (-84) (by decide)]; rfl)
    rw [log (-84) (by decide)] at received
    cases received

end MlKernel.Sdio
