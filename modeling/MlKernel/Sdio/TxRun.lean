import MlKernel.Lib.Run
import MlKernel.Sdio.Tx

/-!
# The transmit half between interrupts

Packets arrive, ACKs arrive, the worker runs and the chip grants credit, in any
order.  A grant is only accepted when the last one is consumed, so a pass that
left a packet queued and its grant unconsumed would stop the transmit half for
good.  `txPass_consumed_or_empty` rules this out for one pass, whatever arrives
in the middle of it, and `tx_never_wedges` for every run.
-/

namespace MlKernel.Sdio

inductive NetdevTx
  | ok
  | busy
  deriving DecidableEq

def artosynSdioNetStartXmit (dev : LinkTx) (skb : List UInt8) : NetdevTx × LinkTx :=
  if skb.length < iphdrSize ∨ byteAt skb 0 &&& 0xf0 ≠ 0x40 then
    (.ok, { dev with counters := { dev.counters with txDropped := dev.counters.txDropped + 1 } })
  else
    let inflight := dev.counters.inflight + 1
    if arsdioInflightCap < inflight then (.busy, { dev with queueStopped := true })
    else
      (.ok,
        { dev with
          counters := { dev.counters with inflight := inflight }
          dataTxq := dev.dataTxq ++ [skb]
          txPackets := dev.txPackets + 1
          txBytes := dev.txBytes + skb.length
          workQueued := true })

/-- `artosyn_sdio_net_close` drains both queues. -/
def artosynSdioNetClose (dev : LinkTx) : LinkTx :=
  { dev with
    queueStopped := true
    workQueued := false
    counters := { dev.counters with inflight := dev.counters.inflight - dev.dataTxq.length }
    dataTxq := []
    cmdTxq := [] }

/-- What is queued while another context runs. -/
structure Arrivals where
  data : List (List UInt8)
  cmd : List (List UInt8)

/-- A writer's command, or a burst of arrivals, at the tails of the queues. -/
def enqueue (dev : LinkTx) (arrivals : Arrivals) : LinkTx :=
  { dev with
    dataTxq := dev.dataTxq ++ arrivals.data
    cmdTxq := dev.cmdTxq ++ arrivals.cmd }

/-- Data before commands, as the worker and the interrupt handler both do it. -/
def txPass (dev : LinkTx) (arrivals : Arrivals) : LinkTx :=
  artosynSdioSendCmd (enqueue (artosynSdioSendData dev) arrivals)

def artosynSdioEthWorker (dev : LinkTx) (arrivals : Arrivals) : LinkTx :=
  txPass { dev with workQueued := false } arrivals

/-- The `EVT_TX` branch of the interrupt loop, with the block count read from
`REG_TX_CREDIT`: the device and `do_tx`. -/
def evtTx (dev : LinkTx) (doTx : Bool) (blocks : UInt8) : LinkTx × Bool :=
  if doTx = false ∧ dev.txReadAcc = dev.txWriteAcc then
    ({ dev with txReadAcc := 0, txWriteAcc := blocks.toNat <<< 9 }, true)
  else (dev, doTx)

/-- The `EVT_TX` branches of one interrupt. -/
def readGrants (dev : LinkTx) (doTx : Bool) : List UInt8 → LinkTx × Bool
  | [] => (dev, doTx)
  | blocks :: grants => readGrants (evtTx dev doTx blocks).1 (evtTx dev doTx blocks).2 grants

/-- An ACK leaves the chip's pending count, if it is lower. -/
def recvAcked (dev : LinkTx) (acked : UInt32) : LinkTx :=
  if acked < dev.unackedBytes then { dev with unackedBytes := acked } else dev

/-- The transmit side of `artosyn_sdio_irqhandler`: the grants its loop reads, the ACKs of the
receive half, then the pass. -/
def irqTx (dev : LinkTx) (grants : List UInt8) (acks : List UInt32) (arrivals : Arrivals) :
    LinkTx :=
  let (dev, doTx) := readGrants dev false grants
  let dev := acks.foldl recvAcked dev
  if doTx then txPass dev arrivals else dev

/-- What can happen to the transmit half. -/
inductive TxEvent
  | startXmit (skb : List UInt8)
  | write (cmd : List UInt8)
  | worker (arrivals : Arrivals)
  | irq (grants : List UInt8) (acks : List UInt32) (arrivals : Arrivals)
  | close

/-- The transmit half, and how many packets the last pass left queued. -/
structure TxSystem where
  dev : LinkTx
  leftover : ℕ

def TxSystem.idle (dev : LinkTx) : TxSystem := ⟨dev, 0⟩

def TxSystem.passed (dev : LinkTx) : TxSystem := ⟨dev, dev.dataTxq.length + dev.cmdTxq.length⟩

def TxSystem.step (system : TxSystem) : TxEvent → TxSystem
  | .startXmit skb => { system with dev := (artosynSdioNetStartXmit system.dev skb).2 }
  | .write cmd => { system with dev := enqueue system.dev ⟨[], [cmd]⟩ }
  | .worker arrivals => .passed (artosynSdioEthWorker system.dev arrivals)
  | .irq grants acks arrivals =>
      if (readGrants system.dev false grants).2 then
        .passed (irqTx system.dev grants acks arrivals)
      else { system with dev := irqTx system.dev grants acks arrivals }
  | .close => ⟨artosynSdioNetClose system.dev, 0⟩

/-- After a pass the grant is consumed, or nothing is queued that the pass could have sent. -/
theorem txPass_consumed_or_empty (dev : LinkTx) (arrivals : Arrivals) :
    (txPass dev arrivals).txReadAcc = (txPass dev arrivals).txWriteAcc ∨
      ((txPass dev arrivals).dataTxq = [] ∧ (txPass dev arrivals).cmdTxq = []) := by
  generalize sent : enqueue (artosynSdioSendData dev) arrivals = middle
  rw [txPass, sent]
  by_cases unspent : middle.txWriteAcc = middle.txReadAcc
  · left
    rw [artosynSdioSendCmd, if_pos unspent]
    exact unspent.symm
  · rcases artosynSdioSendCmd_effect unspent with ⟨_, _, -, -, -, sameGrant, sameData, -, accounts⟩
    rw [sameGrant, sameData]
    rcases accounts with ⟨-, drained, empty, -⟩ | ⟨_, -, -, consumed⟩
    · exact Or.inr ⟨empty, drained⟩
    · exact Or.inl consumed

/-- Whatever a pass left queued, it left with its grant consumed. -/
def NotWedged (system : TxSystem) : Prop :=
  system.leftover ≠ 0 → system.dev.txReadAcc = system.dev.txWriteAcc

theorem notWedged_passed (dev : LinkTx) (arrivals : Arrivals) :
    NotWedged (.passed (txPass dev arrivals)) := by
  intro leftover
  rcases txPass_consumed_or_empty dev arrivals with consumed | ⟨noData, noCmd⟩
  · exact consumed
  · simp [TxSystem.passed, noData, noCmd] at leftover

/-- An interrupt that accepts no grant leaves the device to its receive half. -/
theorem readGrants_of_refused {dev : LinkTx} {doTx : Bool} {grants : List UInt8}
    (refused : (readGrants dev doTx grants).2 = false) :
    doTx = false ∧ (readGrants dev doTx grants).1 = dev := by
  induction grants generalizing dev doTx with
  | nil => exact ⟨refused, rfl⟩
  | cons blocks grants ih =>
      rcases ih refused with ⟨first, rest⟩
      rw [readGrants, rest]
      rw [evtTx] at first ⊢
      split at first
      · cases first
      · rename_i notAccepted
        rw [if_neg notAccepted]
        exact ⟨first, rfl⟩

theorem foldl_recvAcked_credit (dev : LinkTx) (acks : List UInt32) :
    (acks.foldl recvAcked dev).txReadAcc = dev.txReadAcc ∧
      (acks.foldl recvAcked dev).txWriteAcc = dev.txWriteAcc := by
  induction acks generalizing dev with
  | nil => exact ⟨rfl, rfl⟩
  | cons acked acks ih =>
      have sameCredit : (recvAcked dev acked).txReadAcc = dev.txReadAcc ∧
          (recvAcked dev acked).txWriteAcc = dev.txWriteAcc := by
        rw [recvAcked]
        split <;> exact ⟨rfl, rfl⟩
      rw [List.foldl_cons, (ih _).1, (ih _).2]
      exact sameCredit

/-- Every event keeps the transmit half from wedging. -/
theorem notWedged_step (system : TxSystem) (event : TxEvent) (holds : NotWedged system) :
    NotWedged (system.step event) := by
  cases event with
  | startXmit skb =>
      intro leftover
      have sameCredit :
          (artosynSdioNetStartXmit system.dev skb).2.txReadAcc = system.dev.txReadAcc ∧
          (artosynSdioNetStartXmit system.dev skb).2.txWriteAcc = system.dev.txWriteAcc := by
        rw [artosynSdioNetStartXmit]
        split
        · exact ⟨rfl, rfl⟩
        · simp only
          split <;> exact ⟨rfl, rfl⟩
      exact sameCredit.1.trans ((holds leftover).trans sameCredit.2.symm)
  | write cmd => exact holds
  | worker arrivals => exact notWedged_passed _ arrivals
  | irq grants acks arrivals =>
      rw [TxSystem.step]
      split
      · rename_i accepted
        rw [irqTx]
        simp only [accepted, if_true]
        exact notWedged_passed _ arrivals
      · rename_i ignored
        intro leftover
        have refused : (readGrants system.dev false grants).2 = false := by simpa using ignored
        have sameDev := (readGrants_of_refused refused).2
        have sameCredit := foldl_recvAcked_credit system.dev acks
        simp only [irqTx, refused, sameDev, Bool.false_eq_true, if_false]
        rw [sameCredit.1, sameCredit.2]
        exact holds leftover
  | close => exact fun leftover => absurd rfl leftover

theorem notWedged_run (dev : LinkTx) (events : List TxEvent) :
    NotWedged (events.foldl TxSystem.step (.idle dev)) :=
  Run.foldl_invariant TxSystem.step notWedged_step (fun leftover => absurd rfl leftover) events

/-- After a pass the grant is consumed or both queues are empty, and between passes, as long as
something is still queued from the last one, the next grant is accepted. -/
theorem tx_never_wedges (dev : LinkTx) (arrivals : Arrivals) (start : LinkTx)
    (events : List TxEvent) (blocks : UInt8) :
    ((txPass dev arrivals).txReadAcc = (txPass dev arrivals).txWriteAcc ∨
      ((txPass dev arrivals).dataTxq = [] ∧ (txPass dev arrivals).cmdTxq = [])) ∧
    ((events.foldl TxSystem.step (.idle start)).leftover ≠ 0 →
      evtTx (events.foldl TxSystem.step (.idle start)).dev false blocks =
        ({ (events.foldl TxSystem.step (.idle start)).dev with
            txReadAcc := 0, txWriteAcc := blocks.toNat <<< 9 }, true)) := by
  refine ⟨txPass_consumed_or_empty dev arrivals, fun leftover => ?_⟩
  rw [evtTx, if_pos ⟨rfl, notWedged_run start events leftover⟩]

/-- Two packets under a grant of one block: the second stays queued, and the next grant is
accepted. -/
theorem tx_never_wedges_requeued :
    let start := LinkTx.initial (fun _ => 0) 40960
    let events : List TxEvent :=
      [.startXmit (0x45 :: List.replicate 299 0), .startXmit (0x45 :: List.replicate 299 0),
        .irq [1] [] ⟨[], []⟩]
    (events.foldl TxSystem.step (.idle start)).leftover = 1 ∧
      (evtTx (events.foldl TxSystem.step (.idle start)).dev false 9).2 = true := by
  intro start events
  have leftover : (events.foldl TxSystem.step (.idle start)).leftover = 1 := by
    decide +kernel
  refine ⟨leftover, congrArg Prod.snd ((tx_never_wedges start ⟨[], []⟩ start events 9).2 ?_)⟩
  rw [leftover]
  decide

end MlKernel.Sdio
