import MlKernel.Sdio.TxInflight

/-!
# Who wakes the netdev queue

`start_xmit` stops the queue some steps after it has seen the count over the cap.
A pass that drains the packets and wakes the queue in between makes the stop come
too late: nothing is queued that would bring another pass.  `StopsInTime` says
that a stop finds a packet queued or a pass that has its wake still ahead.
-/

namespace MlKernel.Sdio

/-- The pass will come to its wake. -/
def PassPoint.wakes (dev : LinkTx) : PassPoint → Bool
  | .dataGate => dev.txWriteAcc ≠ dev.txReadAcc && !dev.throttled
  | .dataLoop _ | .dataHold _ _ | .dataEnd _ | .dataCount | .dataWake => true
  | .cmdGate | .cmdLoop _ | .cmdHold _ _ | .cmdEnd _ => false

def TxThreads.passWakes (s : TxThreads) : Bool := s.pass.any fun pass => pass.point.wakes s.dev

/-- The netdev stays open, and `start_xmit` stops the queue while a packet is in it or before a
pass has woken it. -/
def StopsInTime (s : TxThreads) : TxStep → Prop
  | .close => False
  | .call i => s.calls[i]? = some .stopping → s.dev.dataTxq ≠ [] ∨ s.passWakes = true
  | _ => True

instance (s : TxThreads) (step : TxStep) : Decidable (StopsInTime s step) :=
  match step with
  | .call i => inferInstanceAs (Decidable (s.calls[i]? = some .stopping →
      s.dev.dataTxq ≠ [] ∨ s.passWakes = true))
  | .close => .isFalse id
  | .startXmit _ | .open | .write _ | .queueWork | .worker | .claimHost | .irq .. | .pass =>
    .isTrue trivial

/-- A step of an open netdev, which keeps to `StopsInTime`. -/
def InTimeStep (s : TxThreads) (step : TxStep) (next : TxThreads) : Prop :=
  StopsInTime s step ∧ txStep s step = some next

theorem InTimeStep.opened {s next : TxThreads} {step : TxStep} (done : InTimeStep s step next) :
    step ≠ .close ∧ txStep s step = some next := by
  refine ⟨?_, done.2⟩
  rintro rfl
  exact done.1

/-- No call is in progress, and no work is pending. -/
def TxThreads.Quiet (s : TxThreads) : Prop :=
  s.calls = [] ∧ s.pass = none ∧ s.workerWaiting = false ∧ s.dev.workQueued = false

instance (s : TxThreads) : Decidable s.Quiet :=
  decidable_of_iff (s.calls = [] ∧ s.pass.isNone = true ∧ s.workerWaiting = false ∧
    s.dev.workQueued = false) (by simp [TxThreads.Quiet])

/-- The next grant is accepted, and unless it is empty or the pass is throttled, the pass wakes
the queue. -/
structure WakesAgain (dev : LinkTx) : Prop where
  spent : dev.txReadAcc = dev.txWriteAcc
  accepted : ∀ blocks, (evtTx dev false blocks).2 = true
  woken : ∀ blocks, blocks ≠ 0 → dev.throttled = false →
    (artosynSdioSendData (evtTx dev false blocks).1).queueStopped = false

/-! ### The invariant -/

def TxCall.ofXmit : TxCall → Bool
  | .admitted _ | .queued _ | .overCap | .stopping => true
  | _ => false

def TxCall.isQueued : TxCall → Bool
  | .queued _ => true
  | _ => false

/-- A call that will queue a packet, or stop the queue. -/
def TxCall.pending : TxCall → Bool
  | .admitted _ | .overCap | .stopping => true
  | _ => false

/-- On an open netdev a grant that is left over for a packet has a pass coming, and a stopped
queue has a packet in it, a pass that wakes it or a call that comes back to it. -/
structure WakeComes (s : TxThreads) : Prop where
  counted : InflightCounted s
  xmits : ∀ call ∈ s.calls, call.ofXmit = true
  passComes : s.dev.txReadAcc ≠ s.dev.txWriteAcc → s.dev.dataTxq ≠ [] →
    s.dev.workQueued = true ∨ s.workerWaiting = true ∨ s.pass.isSome = true ∨
      ∃ call ∈ s.calls, call.isQueued = true
  stopped : s.dev.queueStopped = true →
    s.dev.dataTxq ≠ [] ∨ s.passWakes = true ∨ ∃ call ∈ s.calls, call.pending = true

theorem TxThreads.initial_wakeComes (toio : ℕ → ℤ) (unackedMax : UInt32) :
    WakeComes (.initial toio unackedMax) where
  counted := TxThreads.initial_inflight toio unackedMax
  xmits _ member := by simp [TxThreads.initial] at member
  passComes _ queued := absurd rfl queued
  stopped isStopped := absurd isStopped Bool.false_ne_true

/-! ### One step -/

/-- A pass that was to wake the queue wakes it, unless it reads a full count. -/
theorem passStep_wakes (dev : LinkTx) (point : PassPoint) :
    (dev.passStep point).1.queueStopped = false ∨
      (dev.passStep point).2.any (PassPoint.wakes (dev.passStep point).1) = true ∨
      ((dev.passStep point).1.queueStopped = dev.queueStopped ∧
        (dev.passStep point).1.dataTxq = dev.dataTxq ∧
        (point.wakes dev = true →
          arsdioInflightCap ≤ dev.counters.inflight ∧ point.holding = 0)) := by
  cases point with
  | dataGate =>
      by_cases spent : dev.txWriteAcc = dev.txReadAcc
      · right
        right
        simp [LinkTx.passStep, PassPoint.wakes, spent]
      · cases throttled : dev.throttled with
        | true =>
            right
            right
            simp [LinkTx.passStep, PassPoint.wakes, throttled]
        | false =>
            right
            left
            simp [LinkTx.passStep, PassPoint.wakes, spent, throttled]
  | dataLoop pack =>
      right
      left
      simp only [LinkTx.passStep]
      split <;> rfl
  | dataHold pack skb =>
      right
      left
      simp only [LinkTx.passStep]
      split <;> rfl
  | dataEnd pack =>
      right
      left
      simp only [LinkTx.passStep]
      split <;> rfl
  | dataCount =>
      right
      by_cases below : dev.counters.inflight < arsdioInflightCap
      · left
        simp [LinkTx.passStep, PassPoint.wakes, below]
      · right
        exact ⟨rfl, rfl, fun _ => ⟨Nat.le_of_not_lt below, rfl⟩⟩
  | dataWake =>
      left
      rfl
  | cmdGate =>
      right
      right
      exact ⟨rfl, rfl, fun wakes => by cases wakes⟩
  | cmdLoop pack =>
      right
      right
      simp only [LinkTx.passStep]
      split <;> exact ⟨rfl, rfl, fun wakes => by cases wakes⟩
  | cmdHold pack skb =>
      right
      right
      simp only [LinkTx.passStep]
      split <;> exact ⟨rfl, rfl, fun wakes => by cases wakes⟩
  | cmdEnd pack =>
      right
      right
      simp only [LinkTx.passStep]
      split
      · exact ⟨rfl, rfl, fun wakes => by cases wakes⟩
      · split <;> exact ⟨rfl, rfl, fun wakes => by cases wakes⟩

/-- A pass ends with the grant spent or nothing queued. -/
theorem passStep_ends {dev : LinkTx} {point : PassPoint} (ends : (dev.passStep point).2 = none) :
    (dev.passStep point).1.txReadAcc = (dev.passStep point).1.txWriteAcc ∨
      (dev.passStep point).1.dataTxq = [] := by
  cases point with
  | dataGate =>
      simp only [LinkTx.passStep] at ends
      split at ends
      · cases ends
      · split at ends <;> cases ends
  | dataLoop | dataHold | dataEnd | cmdLoop | cmdHold =>
      simp only [LinkTx.passStep] at ends
      split at ends <;> cases ends
  | dataCount | dataWake => cases ends
  | cmdGate =>
      simp only [LinkTx.passStep, ite_eq_left_iff, reduceCtorEq, imp_false, not_not] at ends ⊢
      left
      exact ends.symm
  | cmdEnd pack =>
      simp only [LinkTx.passStep]
      split
      · left
        rfl
      · split
        · left
          rfl
        · rename_i noKeepalive
          by_cases spent : dev.txWriteAcc = dev.txReadAcc
          · left
            exact spent.symm
          · right
            by_contra queued
            exact noKeepalive ⟨queued, spent⟩

section Step

variable {s : TxThreads}

theorem WakeComes.pass (ok : WakeComes s) {pass : LinkPass} (running : s.pass = some pass) :
    WakeComes
      { s with
        dev := (s.dev.passStep pass.point).1
        pass := (s.dev.passStep pass.point).2.map fun point => { pass with point } } := by
  refine ⟨ok.counted.pass running, ok.xmits, ?_, ?_⟩
  · intro unspent queued
    cases next : (s.dev.passStep pass.point).2 with
    | none =>
        rcases passStep_ends next with spent | empty
        · exact absurd spent unspent
        · exact absurd empty queued
    | some point =>
        right
        right
        left
        rfl
  · intro isStopped
    rcases passStep_wakes s.dev pass.point with woken | wakes | ⟨sameStop, sameQueue, full⟩
    · simp [woken] at isStopped
    · right
      left
      rw [TxThreads.passWakes, Option.any_map]
      exact wakes
    · dsimp only at isStopped ⊢
      rw [sameStop] at isStopped
      rw [sameQueue]
      rcases ok.stopped isStopped with queued | passWakes | pending
      · left
        exact queued
      · -- the pass has read a full count, so somebody else has the packets
        by_cases queued : s.dev.dataTxq = []
        · right
          right
          simp only [TxThreads.passWakes, running, Option.any_some] at passWakes
          rcases full passWakes with ⟨atCap, notHolding⟩
          have counts := ok.counted.counts
          simp only [running, Option.map_some, holding, Option.elim_some, notHolding, queued,
            List.length_nil] at counts
          have positive : 0 < s.calls.countP TxCall.counted := by
            simp only [arsdioInflightCap] at atCap
            omega
          rcases List.countP_pos_iff.mp positive with ⟨call, inFlight, counted⟩
          refine ⟨call, inFlight, ?_⟩
          have ofXmit := ok.xmits call inFlight
          cases call with
          | admitted | overCap | stopping => rfl
          | queued => cases counted
          | closing | cancelling | draining | drained | purging => cases ofXmit
        · left
          exact queued
      · right
        right
        exact pending

/-- A call goes on beside the pass. -/
theorem WakeComes.call (ok : WakeComes s) {i : ℕ} {call : TxCall}
    (running : s.calls[i]? = some call) (inTime : StopsInTime s (.call i)) :
    WakeComes
      { s with
        dev := (s.dev.callStep call).1
        calls := Calls.advance s.calls i (s.dev.callStep call).2 } := by
  have ofXmit := ok.xmits call (List.mem_of_getElem? running)
  have others {other : TxCall} (inFlight : other ∈ s.calls) (different : other ≠ call) :
      other ∈ Calls.advance s.calls i (s.dev.callStep call).2 :=
    Calls.advance_mem _ running inFlight different
  refine ⟨ok.counted.call running, ?_, ?_, ?_⟩
  · intro other member
    rcases Calls.mem_advance running member with old | new
    · exact ok.xmits other old
    · cases call with
      | admitted | overCap =>
          cases new
          rfl
      | queued | stopping => cases new
      | closing | cancelling | draining | drained | purging => cases ofXmit
  · intro unspent queued
    cases call with
    | admitted skb =>
        right
        right
        right
        exact ⟨_, Calls.next_mem_advance running, rfl⟩
    | queued length =>
        left
        rfl
    | overCap | stopping =>
        rcases ok.passComes unspent queued with
          work | waiting | passing | ⟨other, inFlight, isQueued⟩
        · left
          exact work
        · right
          left
          exact waiting
        · right
          right
          left
          exact passing
        · right
          right
          right
          refine ⟨other, others inFlight ?_, isQueued⟩
          rintro rfl
          cases isQueued
    | closing | cancelling | draining | drained | purging => cases ofXmit
  · intro isStopped
    cases call with
    | admitted skb =>
        left
        simp [LinkTx.callStep]
    | queued length =>
        rcases ok.stopped isStopped with queued | passWakes | ⟨other, inFlight, pending⟩
        · left
          exact queued
        · right
          left
          exact passWakes
        · right
          right
          refine ⟨other, others inFlight ?_, pending⟩
          rintro rfl
          cases pending
    | overCap =>
        right
        right
        exact ⟨_, Calls.next_mem_advance running, rfl⟩
    | stopping =>
        rcases inTime running with queued | passWakes
        · left
          exact queued
        · right
          left
          exact passWakes
    | closing | cancelling | draining | drained | purging => cases ofXmit

theorem WakeComes.startXmit (ok : WakeComes s) (skb : List UInt8) :
    WakeComes (s.startXmit skb) := by
  have counted := ok.counted.startXmit skb
  unfold TxThreads.startXmit at counted ⊢
  split
  · rename_i dropped
    rw [if_pos dropped] at counted
    exact ⟨counted, ok.xmits, ok.passComes, ok.stopped⟩
  · rename_i counts
    rw [if_neg counts] at counted
    refine ⟨counted, ?_, ?_, ?_⟩
    · intro call member
      rcases List.mem_cons.mp member with rfl | old
      · split <;> rfl
      · exact ok.xmits call old
    · intro unspent queued
      rcases ok.passComes unspent queued with work | waiting | passing | ⟨call, inFlight, isQueued⟩
      · left
        exact work
      · right
        left
        exact waiting
      · right
        right
        left
        exact passing
      · right
        right
        right
        exact ⟨call, List.mem_cons_of_mem _ inFlight, isQueued⟩
    · intro isStopped
      rcases ok.stopped isStopped with queued | passWakes | ⟨call, inFlight, pending⟩
      · left
        exact queued
      · right
        left
        exact passWakes
      · right
        right
        exact ⟨call, List.mem_cons_of_mem _ inFlight, pending⟩

/-- With no pass on its way, a stopped queue has a packet in it or a call that comes back. -/
theorem WakeComes.stopped_of_free (ok : WakeComes s) (free : s.pass = none)
    (isStopped : s.dev.queueStopped = true) :
    s.dev.dataTxq ≠ [] ∨ ∃ call ∈ s.calls, call.pending = true := by
  rcases ok.stopped isStopped with queued | passWakes | pending
  · exact .inl queued
  · simp [TxThreads.passWakes, free] at passWakes
  · exact .inr pending

theorem txStep_wakeComes (ok : WakeComes s) {step : TxStep} {next : TxThreads}
    (inTime : StopsInTime s step) (done : txStep s step = some next) :
    WakeComes next := by
  have counted := txStep_inflight ok.counted done
  cases txStep_move done with
  | startXmit skb => exact ok.startXmit skb
  | «open» =>
      exact ⟨counted, ok.xmits, ok.passComes, fun isStopped => absurd isStopped Bool.false_ne_true⟩
  | close => exact inTime.elim
  | write cmd => exact ⟨counted, ok.xmits, ok.passComes, ok.stopped⟩
  | queueWork => exact ⟨counted, ok.xmits, fun _ _ => .inl rfl, ok.stopped⟩
  | call running => exact ok.call running inTime
  | worker => exact ⟨counted, ok.xmits, fun _ _ => .inr (.inl rfl), ok.stopped⟩
  | claimHost free =>
      refine ⟨counted, ok.xmits, fun _ _ => .inr (.inr (.inl rfl)), ?_⟩
      intro isStopped
      rcases ok.stopped_of_free free isStopped with queued | pending
      · left
        exact queued
      · right
        right
        exact pending
  | irq free grants acks =>
      have kept := (foldl_recvAcked_kept _ acks).trans (readGrants_kept s.dev false grants)
      simp only [LinkTx.kept, Prod.mk.injEq] at kept
      rcases kept with ⟨-, sameQueue, sameStop, sameWork⟩
      refine ⟨counted, ok.xmits, ?_, ?_⟩
      · dsimp only
        cases accepted : (readGrants s.dev false grants).2 with
        | true =>
            intro _ _
            right
            right
            left
            rfl
        | false =>
            have credit := foldl_recvAcked_credit (readGrants s.dev false grants).1 acks
            rw [(readGrants_of_refused accepted).2] at credit sameQueue sameWork ⊢
            rw [credit.1, credit.2, sameQueue, sameWork]
            simpa [free] using ok.passComes
      · dsimp only
        rw [sameStop, sameQueue]
        intro isStopped
        rcases ok.stopped_of_free free isStopped with queued | pending
        · left
          exact queued
        · right
          right
          exact pending
  | pass running => exact ok.pass running

end Step

/-! ### The next grant -/

theorem packTxq_inflight_le (txWriteAcc : ℕ) (pack : Pack) (queue : List (List UInt8)) :
    (packTxq dataKind txWriteAcc pack queue).1.counters.inflight ≤ pack.counters.inflight := by
  fun_induction packTxq dataKind txWriteAcc pack queue with
  | case1 pack => exact Nat.le_refl _
  | case2 pack skb rest requeued => exact Nat.le_refl _
  | case3 pack skb rest next turn ih =>
      have := packSkb_dataKind_inflight turn
      omega

/-- The first packet of a pass leaves the queue one way or another. -/
theorem packTxq_inflight_lt {txWriteAcc : ℕ} {pack : Pack} (idle : pack.used = 0)
    (counted : 0 < pack.counters.inflight) {queue : List (List UInt8)} (queued : queue ≠ []) :
    (packTxq dataKind txWriteAcc pack queue).1.counters.inflight < pack.counters.inflight := by
  cases queue with
  | nil => exact absurd rfl queued
  | cons skb rest =>
      rw [packTxq]
      cases turn : packSkb dataKind txWriteAcc pack skb with
      | none =>
          have turns := packTurn_packSkb dataKind txWriteAcc pack skb
          rw [turn] at turns
          cases turns with
          | requeue _ _ batch => exact absurd idle batch
      | some next =>
          have first := packSkb_dataKind_inflight turn
          have later := packTxq_inflight_le txWriteAcc next rest
          dsimp only
          omega

theorem wakeQueue_woken {dev : LinkTx} (below : dev.counters.inflight < arsdioInflightCap) :
    (wakeQueue dev).queueStopped = false := by
  rw [wakeQueue, if_pos below]

theorem artosynSdioSendData_woken {dev : LinkTx} (unspent : dev.txWriteAcc ≠ dev.txReadAcc)
    (unthrottled : dev.throttled = false) (queued : dev.dataTxq ≠ [])
    (counted : dev.counters.inflight = dev.dataTxq.length)
    (cap : dev.dataTxq.length ≤ arsdioInflightCap) :
    (artosynSdioSendData dev).queueStopped = false := by
  have positive := List.length_pos_iff.mpr queued
  have below : (packTxq dataKind dev.txWriteAcc (dev.startPack dev.dataLog)
      dev.dataTxq).1.counters.inflight < arsdioInflightCap :=
    calc
      _ < (dev.startPack dev.dataLog).counters.inflight :=
        packTxq_inflight_lt rfl (counted ▸ positive) queued
      _ = dev.dataTxq.length := counted
      _ ≤ arsdioInflightCap := cap
  simp only [artosynSdioSendData, unspent, if_false, unthrottled, Bool.false_eq_true]
  generalize packTxq dataKind dev.txWriteAcc (dev.startPack dev.dataLog) dev.dataTxq = result
    at below ⊢
  rcases result with ⟨pack, dataTxq⟩
  split
  · exact wakeQueue_woken below
  · exact wakeQueue_woken below

theorem WakeComes.wakesAgain {s : TxThreads} (ok : WakeComes s) (quiet : s.Quiet)
    (stopped : s.dev.queueStopped = true) : WakesAgain s.dev := by
  rcases quiet with ⟨noCall, noPass, notWaiting, noWork⟩
  have queued : s.dev.dataTxq ≠ [] := by
    rcases ok.stopped_of_free noPass stopped with queued | ⟨call, inFlight, -⟩
    · exact queued
    · simp [noCall] at inFlight
  have spent : s.dev.txReadAcc = s.dev.txWriteAcc := by
    by_contra unspent
    have comes := ok.passComes unspent queued
    simp [noWork, notWaiting, noPass, noCall] at comes
  have kept := ok.counted.kept.quiet noCall noPass
  refine ⟨spent, fun blocks => ?_, fun blocks nonempty unthrottled => ?_⟩
  · simp [evtTx, spent]
  · have granted : evtTx s.dev false blocks =
        ({ s.dev with txReadAcc := 0, txWriteAcc := blocks.toNat <<< 9 }, true) := by
      rw [evtTx, if_pos ⟨rfl, spent⟩]
    rw [granted]
    refine artosynSdioSendData_woken ?_ unthrottled queued kept.1 kept.2
    simp only [Nat.shiftLeft_eq]
    have positive : blocks.toNat ≠ 0 := fun zero => nonempty (UInt8.toNat_inj.mp zero)
    omega

/-! ### A full queue -/

/-- A packet that needs two blocks. -/
def twoBlockPacket : List UInt8 := 0x45 :: List.replicate 599 0

/-- Nothing is granted, `n` packets wait, and no thread moves but the calls. -/
structure Filled (calls : List TxCall) (work : Bool) (n : ℕ) (s : TxThreads) : Prop where
  calls : s.calls = calls
  pass : s.pass = none
  notWaiting : s.workerWaiting = false
  work : s.dev.workQueued = work
  queue : s.dev.dataTxq = List.replicate n twoBlockPacket
  inflight : s.dev.counters.inflight = n
  noCmd : s.dev.cmdTxq = []
  noGrant : s.dev.txReadAcc = s.dev.txWriteAcc
  unthrottled : s.dev.throttled = false

theorem startXmit_twoBlockPacket (s : TxThreads) :
    s.startXmit twoBlockPacket =
      { s with
        dev.counters := { s.dev.counters with inflight := s.dev.counters.inflight + 1 }
        calls := (if arsdioInflightCap < s.dev.counters.inflight + 1 then .overCap
          else .admitted twoBlockPacket) :: s.calls } := by
  rw [TxThreads.startXmit, if_neg (by decide +kernel)]

theorem Filled.one_more {n : ℕ} {s : TxThreads} (filled : Filled [] true n s)
    (room : n < arsdioInflightCap) :
    ∃ steps next, Trace InTimeStep s steps next ∧ Filled [] true (n + 1) next := by
  have admitted : InTimeStep s (.startXmit twoBlockPacket)
      { s with
        dev.counters := { s.dev.counters with inflight := n + 1 }
        calls := [.admitted twoBlockPacket] } := by
    refine ⟨trivial, ?_⟩
    rw [txStep, startXmit_twoBlockPacket, filled.inflight, filled.calls,
      if_neg (Nat.not_lt.mpr room)]
  have queued : InTimeStep
      { s with
        dev.counters := { s.dev.counters with inflight := n + 1 }
        calls := [.admitted twoBlockPacket] }
      (.call 0)
      { s with
        dev.counters := { s.dev.counters with inflight := n + 1 }
        dev.dataTxq := List.replicate (n + 1) twoBlockPacket
        calls := [.queued twoBlockPacket.length] } := by
    refine ⟨by simp [StopsInTime], ?_⟩
    simp [txStep, LinkTx.callStep, Calls.advance, filled.queue, List.replicate_succ']
  have returned : InTimeStep
      { s with
        dev.counters := { s.dev.counters with inflight := n + 1 }
        dev.dataTxq := List.replicate (n + 1) twoBlockPacket
        calls := [.queued twoBlockPacket.length] }
      (.call 0)
      { s with
        dev.counters := { s.dev.counters with inflight := n + 1 }
        dev.dataTxq := List.replicate (n + 1) twoBlockPacket
        dev.txPackets := s.dev.txPackets + 1
        dev.txBytes := s.dev.txBytes + twoBlockPacket.length
        dev.workQueued := true
        calls := [] } := by
    refine ⟨by simp [StopsInTime], ?_⟩
    simp [txStep, LinkTx.callStep, Calls.advance]
  exact ⟨_, _, .cons admitted (.cons queued (.cons returned (.nil _))),
    { filled with calls := rfl, work := rfl, queue := rfl, inflight := rfl }⟩

theorem exists_filled {n : ℕ} (within : n ≤ arsdioInflightCap) :
    ∃ steps s, Trace InTimeStep (.initial (fun _ => 0) 0) steps s ∧ Filled [] true n s := by
  induction n with
  | zero =>
      refine ⟨[.queueWork], _, .cons ⟨trivial, rfl⟩ (.nil _), ?_⟩
      exact ⟨rfl, rfl, rfl, rfl, rfl, rfl, rfl, rfl, rfl⟩
  | succ n ih =>
      rcases ih (by omega) with ⟨steps, s, run, filled⟩
      rcases filled.one_more within with ⟨more, next, rest, filledNext⟩
      exact ⟨steps ++ more, next, run.append rest, filledNext⟩

/-- The worker finds no credit, and one packet more is over the cap. -/
theorem Filled.oneMoreThanCap {s : TxThreads} (filled : Filled [] true arsdioInflightCap s) :
    ∃ steps next, Trace InTimeStep s steps next ∧
      Filled [.stopping] false arsdioInflightCap next := by
  have started : InTimeStep s .worker
      { s with dev.workQueued := false, workerWaiting := true } := by
    refine ⟨trivial, ?_⟩
    simp [txStep, TxThreads.workerBusy, filled.work, filled.notWaiting, filled.pass]
  have claimed : InTimeStep { s with dev.workQueued := false, workerWaiting := true } .claimHost
      { s with
        dev.workQueued := false, pass := some ⟨true, .dataGate⟩, workerWaiting := false } := by
    refine ⟨trivial, ?_⟩
    simp [txStep, filled.pass]
  have noCredit : InTimeStep
      { s with dev.workQueued := false, pass := some ⟨true, .dataGate⟩, workerWaiting := false }
      .pass
      { s with
        dev.workQueued := false, pass := some ⟨true, .cmdGate⟩, workerWaiting := false } := by
    refine ⟨trivial, ?_⟩
    simp [txStep, LinkTx.passStep, filled.noGrant]
  have passed : InTimeStep
      { s with dev.workQueued := false, pass := some ⟨true, .cmdGate⟩, workerWaiting := false }
      .pass { s with dev.workQueued := false, pass := none, workerWaiting := false } := by
    refine ⟨trivial, ?_⟩
    simp [txStep, LinkTx.passStep, filled.noGrant]
  have decremented : InTimeStep
      { s with dev.workQueued := false, pass := none, workerWaiting := false }
      (.startXmit twoBlockPacket)
      { s with
        dev.workQueued := false
        dev.counters := { s.dev.counters with inflight := arsdioInflightCap + 1 }
        calls := [.overCap], pass := none, workerWaiting := false } := by
    refine ⟨trivial, ?_⟩
    rw [txStep, startXmit_twoBlockPacket]
    simp [filled.inflight, filled.calls]
  have countedDown : InTimeStep
      { s with
        dev.workQueued := false
        dev.counters := { s.dev.counters with inflight := arsdioInflightCap + 1 }
        calls := [.overCap], pass := none, workerWaiting := false }
      (.call 0)
      { s with
        dev.workQueued := false
        dev.counters := { s.dev.counters with inflight := arsdioInflightCap }
        calls := [.stopping], pass := none, workerWaiting := false } := by
    refine ⟨by simp [StopsInTime], ?_⟩
    simp [txStep, LinkTx.callStep, LinkTx.countDown, Calls.advance]
  exact ⟨_, _, .cons started (.cons claimed (.cons noCredit (.cons passed (.cons decremented
    (.cons countedDown (.nil _)))))),
    { filled with calls := rfl, pass := rfl, notWaiting := rfl, work := rfl, inflight := rfl }⟩

/-- A pass that nothing interrupts is a part of a run. -/
theorem passMoves_run (s : TxThreads) (byWorker : Bool) {before after : LinkTx × PassPoint}
    (moves : Relation.ReflTransGen PassMoves before after) :
    ∃ steps, Trace InTimeStep { s with dev := before.1, pass := some ⟨byWorker, before.2⟩ } steps
      { s with dev := after.1, pass := some ⟨byWorker, after.2⟩ } := by
  induction moves using Relation.ReflTransGen.head_induction_on with
  | refl => exact ⟨[], .nil _⟩
  | head first _ ih =>
      rcases ih with ⟨steps, rest⟩
      refine ⟨.pass :: steps, .cons ⟨trivial, ?_⟩ rest⟩
      rw [PassMoves] at first
      simp [txStep, first]

/-- A grant of one block drops every packet of two, and stays unspent. -/
theorem packTxq_twoBlockPacket {pack : Pack} (idle : pack.used = 0) (n : ℕ) :
    (packTxq dataKind 512 pack (List.replicate n twoBlockPacket)).1.used = 0 ∧
      (packTxq dataKind 512 pack (List.replicate n twoBlockPacket)).2 = [] := by
  induction n generalizing pack with
  | zero => exact ⟨idle, rfl⟩
  | succ n ih =>
      have supported : dataKind.supported twoBlockPacket = true := by decide +kernel
      have long : 512 < runSize (pack.used + dataKind.wireLength twoBlockPacket) := by
        rw [idle]
        decide +kernel
      have dropped : packSkb dataKind 512 pack twoBlockPacket =
          some (pack.consume dataKind .noCredit twoBlockPacket) := by
        rw [packSkb, if_neg (by simp [supported]), if_pos long, if_neg (by simpa using idle)]
      rw [List.replicate_succ, packTxq, dropped]
      exact ih idle

/-- A pass under a grant of one block leaves the grant and nothing else. -/
theorem Filled.sent {calls : List TxCall} {work : Bool} {n : ℕ} {s : TxThreads}
    (filled : Filled calls work n s) {dev : LinkTx}
    (granted : dev = { s.dev with txReadAcc := 0, txWriteAcc := 512 }) :
    ∃ pack : Pack, ∃ stopped, artosynSdioSendData dev =
      { dev.endPack pack with dataTxq := [], dataLog := pack.log, queueStopped := stopped } := by
  have idle : (dev.startPack dev.dataLog).used = 0 := rfl
  have dropped := packTxq_twoBlockPacket idle n
  have credit : dev.txWriteAcc = 512 := by rw [granted]
  have queue : dev.dataTxq = List.replicate n twoBlockPacket := by rw [granted, ← filled.queue]
  have unspent : dev.txWriteAcc ≠ dev.txReadAcc := by simp [granted]
  have unthrottled : dev.throttled = false := by
    rw [granted]
    exact filled.unthrottled
  rw [← credit, ← queue] at dropped
  simp only [artosynSdioSendData, unspent, unthrottled, if_false, Bool.false_eq_true]
  generalize packTxq dataKind dev.txWriteAcc (dev.startPack dev.dataLog) dev.dataTxq = result
    at dropped ⊢
  rcases result with ⟨pack, dataTxq⟩
  rcases dropped with ⟨idle, empty⟩
  dsimp only at idle empty ⊢
  rw [if_neg (by simpa using idle), empty]
  rcases wakeQueue_eq (LinkTx.endPack { dev with dataTxq := [], dataLog := pack.log } pack) with
    ⟨stopped, woken⟩
  exact ⟨pack, stopped, woken⟩

/-! ### The whole run -/

theorem stopped_wakesAgain {toio : ℕ → ℤ} {unackedMax : UInt32} {steps : List TxStep}
    {s : TxThreads} (run : Trace InTimeStep (.initial toio unackedMax) steps s) (quiet : s.Quiet)
    (stopped : s.dev.queueStopped = true) : WakesAgain s.dev := by
  have comes : WakeComes s := by
    refine run.invariant ?_ (TxThreads.initial_wakeComes toio unackedMax)
    intro s step next ok done
    exact txStep_wakeComes ok done.1 done.2
  exact comes.wakesAgain quiet stopped

/-- The queue is stopped with all packets in it. -/
theorem stopped_wakesAgain_full :
    ∃ steps s, Trace InTimeStep (.initial (fun _ => 0) 0) steps s ∧
      s.dev.dataTxq.length = arsdioInflightCap ∧ WakesAgain s.dev := by
  rcases exists_filled (Nat.le_refl arsdioInflightCap) with ⟨steps, s, run, filled⟩
  rcases filled.oneMoreThanCap with ⟨more, late, rest, overrun⟩
  have stops : InTimeStep late (.call 0) { late with dev.queueStopped := true, calls := [] } := by
    refine ⟨fun _ => .inl ?_, ?_⟩
    · rw [overrun.queue, ne_eq, List.replicate_eq_nil_iff]
      decide
    · simp [txStep, overrun.calls, LinkTx.callStep, Calls.advance]
  have whole := (run.append rest).append (.cons stops (.nil _))
  refine ⟨_, _, whole, ?_, stopped_wakesAgain whole
    ⟨rfl, overrun.pass, overrun.notWaiting, overrun.work⟩ rfl⟩
  dsimp only
  rw [overrun.queue, List.length_replicate]

/-- A pass drops all packets and wakes the queue before the stop. -/
theorem stopped_not_wakesAgain :
    ¬ ∀ (toio : ℕ → ℤ) (unackedMax : UInt32) (steps : List TxStep) (s : TxThreads),
      Trace (fun s step next => step ≠ .close ∧ txStep s step = some next)
        (.initial toio unackedMax) steps s →
      s.Quiet → s.dev.queueStopped = true → s.dev.txReadAcc = s.dev.txWriteAcc := by
  intro alwaysSpent
  rcases exists_filled (Nat.le_refl arsdioInflightCap) with ⟨steps, s, run, filled⟩
  rcases filled.oneMoreThanCap with ⟨more, late, rest, overrun⟩
  let dev : LinkTx := { late.dev with txReadAcc := 0, txWriteAcc := 512 }
  have granted : InTimeStep late (.irq [1] [])
      { late with dev := dev, pass := some ⟨false, .dataGate⟩ } := by
    refine ⟨trivial, ?_⟩
    simp [txStep, overrun.pass, readGrants, evtTx, overrun.noGrant, dev]
  rcases overrun.sent (rfl : dev = _) with ⟨pack, stopped, sent⟩
  generalize whole : { dev.endPack pack with
    dataTxq := [], dataLog := pack.log, queueStopped := stopped } = left at sent
  have unspent : left.txReadAcc = 0 ∧ left.txWriteAcc = 512 := by
    simp [← whole, LinkTx.endPack, dev]
  have noCmd : left.cmdTxq = [] := by simp [← whole, LinkTx.endPack, dev, overrun.noCmd]
  have noData : left.dataTxq = [] := by simp [← whole]
  have noWork : left.workQueued = false := by simp [← whole, LinkTx.endPack, dev, overrun.work]
  have gate : PassMoves (artosynSdioSendData dev, .cmdGate)
      (left, .cmdLoop (left.startPack left.cmdLog)) := by
    simp [PassMoves, LinkTx.passStep, sent, unspent]
  have loop : PassMoves (left, .cmdLoop (left.startPack left.cmdLog))
      (left, .cmdEnd (left.startPack left.cmdLog)) := by
    simp [PassMoves, LinkTx.passStep, noCmd]
  rcases passMoves_run late false (((artosynSdioSendData_moves dev).tail gate).tail loop) with
    ⟨passes, passing⟩
  have ends : InTimeStep
      { late with dev := left, pass := some ⟨false, .cmdEnd (left.startPack left.cmdLog)⟩ } .pass
      { late with dev := left.endShared (left.startPack left.cmdLog), pass := none } := by
    have last : left.passStep (.cmdEnd (left.startPack left.cmdLog)) =
        (left.endShared (left.startPack left.cmdLog), none) := by
      simp only [LinkTx.passStep]
      rw [if_neg (by simp [LinkTx.startPack]), if_neg (by simp [noData])]
      rfl
    exact ⟨trivial, by simp [txStep, last]⟩
  have inTime := (((run.append rest).append (.cons granted (.nil _))).append passing).append
    (.cons ends (.nil _))
  have stops : txStep
      { late with dev := left.endShared (left.startPack left.cmdLog), pass := none } (.call 0) =
      some
        { late with
          dev := { left.endShared (left.startPack left.cmdLog) with queueStopped := true }
          calls := [], pass := none } := by
    simp [txStep, overrun.calls, LinkTx.callStep, Calls.advance]
  have opened := inTime.imp fun _ _ _ => InTimeStep.opened
  have spent := alwaysSpent (fun _ => 0) 0 _ _ (opened.append (.cons ⟨by simp, stops⟩ (.nil _)))
    ⟨rfl, rfl, overrun.notWaiting, noWork⟩ rfl
  have still : left.txReadAcc = left.txWriteAcc := spent
  simp [unspent] at still

end MlKernel.Sdio
