import Mathlib.Logic.Relation
import MlKernel.Lib.Calls
import MlKernel.Sdio.TxRun

/-!
# The transmit half with its threads

`start_xmit` runs on any number of CPUs, `net_close` beside it, and the passes of
the worker and of the interrupt under the host claim.  A step is one atomic
operation, one operation on a queue, or one stop or wake of the netdev queue.
What a pass keeps to itself (its batch, the credit, the in-flight window) changes
with the step it belongs to.
-/

namespace MlKernel.Sdio

/-- A call of `start_xmit` or `net_close` between two of its steps. -/
inductive TxCall
  /-- Counted, and inside the cap. -/
  | admitted (skb : List UInt8)
  | queued (length : ℕ)
  /-- Counted, and over the cap. -/
  | overCap
  | stopping
  | closing
  | cancelling
  | draining
  /-- A packet is taken from the queue and still counted. -/
  | drained
  | purging
  deriving DecidableEq

/-- Where a pass is in `artosyn_sdio_send_data` and then `artosyn_sdio_send_cmd`. -/
inductive PassPoint
  | dataGate
  | dataLoop (pack : Pack)
  /-- A packet is taken from the queue and still counted. -/
  | dataHold (pack : Pack) (skb : List UInt8)
  | dataEnd (pack : Pack)
  | dataCount
  | dataWake
  | cmdGate
  | cmdLoop (pack : Pack)
  | cmdHold (pack : Pack) (skb : List UInt8)
  | cmdEnd (pack : Pack)

structure LinkPass where
  byWorker : Bool
  point : PassPoint

/-- The transmit half, the calls in it and the pass that has the host claimed. -/
structure TxThreads where
  dev : LinkTx
  calls : List TxCall
  pass : Option LinkPass
  /-- The worker runs and waits for the host. -/
  workerWaiting : Bool

namespace LinkTx

def countDown (dev : LinkTx) : LinkTx :=
  { dev with counters := { dev.counters with inflight := dev.counters.inflight - 1 } }

/-- The next step of a call, and where it is then. -/
def callStep (dev : LinkTx) : TxCall → LinkTx × Option TxCall
  | .admitted skb => ({ dev with dataTxq := dev.dataTxq ++ [skb] }, some (.queued skb.length))
  | .queued length =>
    ({ dev with
        txPackets := dev.txPackets + 1, txBytes := dev.txBytes + length, workQueued := true },
      none)
  | .overCap => (dev.countDown, some .stopping)
  | .stopping => ({ dev with queueStopped := true }, none)
  | .closing => ({ dev with queueStopped := true }, some .cancelling)
  | .cancelling => ({ dev with workQueued := false }, some .draining)
  | .draining =>
    match dev.dataTxq with
    | [] => (dev, some .purging)
    | _ :: rest => ({ dev with dataTxq := rest }, some .drained)
  | .drained => (dev.countDown, some .draining)
  | .purging => ({ dev with cmdTxq := [] }, none)

/-- The counters are shared, and the batch is the pass's own. -/
def endShared (dev : LinkTx) (pack : Pack) : LinkTx :=
  dev.endPack { pack with counters := dev.counters }

/-- The next step of a pass, and where it is then. -/
def passStep (dev : LinkTx) : PassPoint → LinkTx × Option PassPoint
  | .dataGate =>
    if dev.txWriteAcc = dev.txReadAcc then (dev, some .cmdGate)
    else if dev.throttled then (dev, some .cmdGate)
    else (dev, some (.dataLoop (dev.startPack dev.dataLog)))
  | .dataLoop pack =>
    match dev.dataTxq with
    | [] => (dev, some (.dataEnd pack))
    | skb :: rest => ({ dev with dataTxq := rest }, some (.dataHold pack skb))
  | .dataHold pack skb =>
    match packSkb dataKind dev.txWriteAcc { pack with counters := dev.counters } skb with
    | none => ({ dev with dataTxq := skb :: dev.dataTxq }, some (.dataEnd pack))
    | some pack => ({ dev with counters := pack.counters }, some (.dataLoop pack))
  | .dataEnd pack =>
    let dev := { dev with dataLog := pack.log }
    if pack.used ≠ 0 then
      ({ dev.endShared (pack.flush linkTypeIp) with
          txReadAcc := dev.txWriteAcc
          unackedBytes := dev.unackedBytes + UInt32.ofNat pack.used },
        some .dataCount)
    else (dev.endShared pack, some .dataCount)
  | .dataCount =>
    (dev, some (if dev.counters.inflight < arsdioInflightCap then .dataWake else .cmdGate))
  | .dataWake => ({ dev with queueStopped := false }, some .cmdGate)
  | .cmdGate =>
    (dev,
      if dev.txWriteAcc = dev.txReadAcc then none else some (.cmdLoop (dev.startPack dev.cmdLog)))
  | .cmdLoop pack =>
    match dev.cmdTxq with
    | [] => (dev, some (.cmdEnd pack))
    | skb :: rest => ({ dev with cmdTxq := rest }, some (.cmdHold pack skb))
  | .cmdHold pack skb =>
    match packSkb cmdKind dev.txWriteAcc { pack with counters := dev.counters } skb with
    | none => ({ dev with cmdTxq := skb :: dev.cmdTxq }, some (.cmdEnd pack))
    | some pack => ({ dev with counters := pack.counters }, some (.cmdLoop pack))
  | .cmdEnd pack =>
    let dev := { dev with cmdLog := pack.log }
    if pack.used ≠ 0 then
      ({ dev.endShared (pack.flush linkTypeCmd) with txReadAcc := dev.txWriteAcc }, none)
    else if dev.dataTxq ≠ [] ∧ dev.txWriteAcc ≠ dev.txReadAcc then
      ({ dev.endShared (pack.flush linkTypeCmd) with txReadAcc := dev.txWriteAcc }, none)
    else (dev.endShared pack, none)

end LinkTx

inductive TxStep
  | startXmit (skb : List UInt8)
  | open
  | close
  /-- A writer's command. -/
  | write (cmd : List UInt8)
  /-- `queue_work` by a writer or the delayed worker. -/
  | queueWork
  /-- The `i`-th call goes on. -/
  | call (i : ℕ)
  | worker
  | claimHost
  | irq (grants : List UInt8) (acks : List UInt32)
  | pass

namespace TxThreads

def initial (toio : ℕ → ℤ) (unackedMax : UInt32) : TxThreads :=
  { dev := .initial toio unackedMax, calls := [], pass := none, workerWaiting := false }

/-- What `cancel_work_sync` waits for. -/
def workerBusy (s : TxThreads) : Bool := s.workerWaiting || s.pass.any (·.byWorker)

/-- The first step of `artosyn_sdio_net_start_xmit`. -/
def startXmit (s : TxThreads) (skb : List UInt8) : TxThreads :=
  if skb.length < iphdrSize ∨ byteAt skb 0 &&& 0xf0 ≠ 0x40 then
    { s with
      dev.counters := { s.dev.counters with txDropped := s.dev.counters.txDropped + 1 } }
  else
    let inflight := s.dev.counters.inflight + 1
    { s with
      dev.counters := { s.dev.counters with inflight }
      calls := (if arsdioInflightCap < inflight then .overCap else .admitted skb) :: s.calls }

end TxThreads

/-- One step; `none` where there is nobody to take it. -/
def txStep (s : TxThreads) : TxStep → Option TxThreads
  | .startXmit skb => some (s.startXmit skb)
  | .open => some { s with dev.queueStopped := false }
  | .close => some { s with calls := .closing :: s.calls }
  | .write cmd => some { s with dev.cmdTxq := s.dev.cmdTxq ++ [cmd] }
  | .queueWork => some { s with dev.workQueued := true }
  | .call i =>
    match s.calls[i]? with
    | some call =>
      if call = .cancelling ∧ s.workerBusy = true then none
      else
        some
          { s with
            dev := (s.dev.callStep call).1
            calls := Calls.advance s.calls i (s.dev.callStep call).2 }
    | none => none
  | .worker =>
    if s.dev.workQueued = true ∧ s.workerBusy = false then
      some { s with dev.workQueued := false, workerWaiting := true }
    else none
  | .claimHost =>
    match s.pass with
    | none =>
      if s.workerWaiting then some { s with pass := some ⟨true, .dataGate⟩, workerWaiting := false }
      else none
    | some _ => none
  | .irq grants acks =>
    match s.pass with
    | none =>
      let (dev, doTx) := readGrants s.dev false grants
      some
        { s with
          dev := acks.foldl recvAcked dev
          pass := if doTx then some ⟨false, .dataGate⟩ else none }
    | some _ => none
  | .pass =>
    match s.pass with
    | some pass =>
      some
        { s with
          dev := (s.dev.passStep pass.point).1
          pass := (s.dev.passStep pass.point).2.map fun point => { pass with point } }
    | none => none

/-- The steps by who takes them, with what lets them. -/
inductive TxMove (s : TxThreads) : TxStep → TxThreads → Prop
  | startXmit (skb : List UInt8) : TxMove s (.startXmit skb) (s.startXmit skb)
  | open : TxMove s .open { s with dev.queueStopped := false }
  | close : TxMove s .close { s with calls := .closing :: s.calls }
  | write (cmd : List UInt8) : TxMove s (.write cmd) { s with dev.cmdTxq := s.dev.cmdTxq ++ [cmd] }
  | queueWork : TxMove s .queueWork { s with dev.workQueued := true }
  | call {i : ℕ} {call : TxCall} (running : s.calls[i]? = some call) :
      TxMove s (.call i) { s with
        dev := (s.dev.callStep call).1
        calls := Calls.advance s.calls i (s.dev.callStep call).2 }
  | worker : TxMove s .worker { s with dev.workQueued := false, workerWaiting := true }
  | claimHost (free : s.pass = none) :
      TxMove s .claimHost { s with pass := some ⟨true, .dataGate⟩, workerWaiting := false }
  | irq (free : s.pass = none) (grants : List UInt8) (acks : List UInt32) :
      TxMove s (.irq grants acks) { s with
        dev := acks.foldl recvAcked (readGrants s.dev false grants).1
        pass := if (readGrants s.dev false grants).2 then some ⟨false, .dataGate⟩ else none }
  | pass {pass : LinkPass} (running : s.pass = some pass) :
      TxMove s .pass { s with
        dev := (s.dev.passStep pass.point).1
        pass := (s.dev.passStep pass.point).2.map fun point => { pass with point } }

theorem txStep_move {s next : TxThreads} {step : TxStep} (done : txStep s step = some next) :
    TxMove s step next := by
  cases step with
  | startXmit skb =>
      cases done
      exact .startXmit skb
  | «open» =>
      cases done
      exact .open
  | close =>
      cases done
      exact .close
  | write cmd =>
      cases done
      exact .write cmd
  | queueWork =>
      cases done
      exact .queueWork
  | call i =>
      simp only [txStep] at done
      split at done
      · next call running =>
          rcases Option.ite_none_left_eq_some.mp done with ⟨-, stepped⟩
          cases stepped
          exact .call running
      · cases done
  | worker =>
      rcases Option.ite_none_right_eq_some.mp done with ⟨-, started⟩
      cases started
      exact .worker
  | claimHost =>
      simp only [txStep] at done
      split at done
      · next free =>
          rcases Option.ite_none_right_eq_some.mp done with ⟨-, claimed⟩
          cases claimed
          exact .claimHost free
      · cases done
  | irq grants acks =>
      simp only [txStep] at done
      split at done
      · next free =>
          cases done
          exact .irq free grants acks
      · cases done
  | pass =>
      simp only [txStep] at done
      split at done
      · next pass running =>
          cases done
          exact .pass running
      · cases done

/-! ### A pass that nothing interrupts -/

/-- One step of a pass, while no other thread moves. -/
def PassMoves (before after : LinkTx × PassPoint) : Prop :=
  before.1.passStep before.2 = (after.1, some after.2)

theorem packTxq_moves (dev : LinkTx) (pack : Pack) (sameCounters : pack.counters = dev.counters)
    (queue : List (List UInt8)) :
    Relation.ReflTransGen PassMoves ({ dev with dataTxq := queue }, .dataLoop pack)
      ({ dev with
          dataTxq := (packTxq dataKind dev.txWriteAcc pack queue).2
          counters := (packTxq dataKind dev.txWriteAcc pack queue).1.counters },
        .dataEnd (packTxq dataKind dev.txWriteAcc pack queue).1) := by
  induction queue generalizing dev pack with
  | nil =>
      apply Relation.ReflTransGen.single
      simp [PassMoves, LinkTx.passStep, packTxq, sameCounters]
  | cons skb rest ih =>
      have shared : { pack with counters := dev.counters } = pack := by rw [← sameCounters]
      have dequeued : PassMoves ({ dev with dataTxq := skb :: rest }, .dataLoop pack)
          ({ dev with dataTxq := rest }, .dataHold pack skb) := rfl
      refine .head dequeued ?_
      rw [packTxq]
      cases turn : packSkb dataKind dev.txWriteAcc pack skb with
      | none =>
          apply Relation.ReflTransGen.single
          simp [PassMoves, LinkTx.passStep, shared, turn, sameCounters]
      | some next =>
          refine .head (b := ({ dev with dataTxq := rest, counters := next.counters },
            .dataLoop next)) ?_ ?_
          · simp [PassMoves, LinkTx.passStep, shared, turn]
          · exact ih { dev with counters := next.counters } next rfl

theorem wakeQueue_moves (dev : LinkTx) :
    Relation.ReflTransGen PassMoves (dev, .dataCount) (wakeQueue dev, .cmdGate) := by
  rw [wakeQueue]
  by_cases below : dev.counters.inflight < arsdioInflightCap
  · rw [if_pos below]
    have counted : PassMoves (dev, .dataCount) (dev, .dataWake) := by
      simp [PassMoves, LinkTx.passStep, below]
    exact .head counted (.single rfl)
  · rw [if_neg below]
    apply Relation.ReflTransGen.single
    simp [PassMoves, LinkTx.passStep, below]

/-- Without interruption the pass is `artosyn_sdio_send_data` and goes on to the commands. -/
theorem artosynSdioSendData_moves (dev : LinkTx) :
    Relation.ReflTransGen PassMoves (dev, .dataGate) (artosynSdioSendData dev, .cmdGate) := by
  by_cases spent : dev.txWriteAcc = dev.txReadAcc
  · apply Relation.ReflTransGen.single
    simp [PassMoves, LinkTx.passStep, artosynSdioSendData, spent]
  · cases throttled : dev.throttled with
    | true =>
        apply Relation.ReflTransGen.single
        simp [PassMoves, LinkTx.passStep, artosynSdioSendData, spent, throttled]
    | false =>
        have open_gate : PassMoves (dev, .dataGate)
            (dev, .dataLoop (dev.startPack dev.dataLog)) := by
          simp [PassMoves, LinkTx.passStep, spent, throttled]
        have loop := packTxq_moves dev (dev.startPack dev.dataLog) rfl dev.dataTxq
        refine .head open_gate (.trans loop ?_)
        simp only [artosynSdioSendData, throttled, Bool.false_eq_true, if_false, spent]
        generalize packTxq dataKind dev.txWriteAcc (dev.startPack dev.dataLog) dev.dataTxq = result
        rcases result with ⟨pack, dataTxq⟩
        by_cases batch : pack.used = 0
        · simp only [batch, ne_eq, not_true_eq_false, if_false]
          refine .head ?_ (wakeQueue_moves _)
          simp [PassMoves, LinkTx.passStep, batch, LinkTx.endShared, LinkTx.endPack]
        · simp only [batch, ne_eq, not_false_eq_true, if_true]
          refine .head ?_ (wakeQueue_moves _)
          simp only [PassMoves, LinkTx.passStep, ne_eq, batch, not_false_eq_true, if_true]
          rfl

end MlKernel.Sdio
