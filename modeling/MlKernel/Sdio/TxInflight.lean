import MlKernel.Sdio.TxThreads

/-!
# The in-flight count

Every packet counted by `start_xmit` is queued, or some thread has it in its
hands.  `InflightCounted` says so for any number of threads, and that only the
calls over the cap can take the count past it.
-/

namespace MlKernel.Sdio

/-- `start_xmit` between its increment and its enqueue or decrement. -/
def TxCall.xmitting : TxCall → Bool
  | .admitted _ | .overCap => true
  | _ => false

/-- A drain between its dequeue and its decrement. -/
def TxCall.consuming (call : TxCall) : Bool := call = .drained

def TxCall.isOver (call : TxCall) : Bool := call = .overCap

/-- A pass between its dequeue and its decrement or requeue. -/
def PassPoint.holding : PassPoint → ℕ
  | .dataHold _ _ => 1
  | _ => 0

def holding (point : Option PassPoint) : ℕ := point.elim 0 PassPoint.holding

/-- What the in-flight count promises: it counts the queue and the threads at work on it, and
without them it is the queue, inside the cap. -/
structure InflightKept (s : TxThreads) : Prop where
  counts : s.dev.counters.inflight = s.dev.dataTxq.length + s.calls.countP TxCall.xmitting +
    (s.calls.countP TxCall.consuming + holding (s.pass.map LinkPass.point))
  quiet : s.calls = [] → s.pass = none →
    s.dev.counters.inflight = s.dev.dataTxq.length ∧ s.dev.dataTxq.length ≤ arsdioInflightCap

/-! ### The invariant -/

/-- A call with a packet that is counted and not queued. -/
def TxCall.counted (call : TxCall) : Bool := call.xmitting || call.consuming

structure InflightCounted (s : TxThreads) : Prop where
  counts : s.dev.counters.inflight = s.dev.dataTxq.length + s.calls.countP TxCall.counted +
    holding (s.pass.map LinkPass.point)
  cap : s.dev.counters.inflight ≤ arsdioInflightCap + s.calls.countP TxCall.isOver

theorem countP_counted (calls : List TxCall) :
    calls.countP TxCall.counted =
      calls.countP TxCall.xmitting + calls.countP TxCall.consuming := by
  induction calls with
  | nil => rfl
  | cons call calls ih =>
      simp only [List.countP_cons, ih]
      cases call <;> simp [TxCall.counted, TxCall.xmitting, TxCall.consuming] <;> omega

theorem InflightCounted.kept {s : TxThreads} (ok : InflightCounted s) : InflightKept s where
  counts := by
    have := ok.counts
    rw [countP_counted] at this
    omega
  quiet noCall noPass := by
    have counts := ok.counts
    have cap := ok.cap
    simp only [noCall, noPass, List.countP_nil, Option.map_none, holding, Option.elim_none,
      Nat.add_zero] at counts cap
    exact ⟨counts, counts ▸ cap⟩

theorem Pack.flushFull_counters (pack : Pack) (type : UInt8) (length : ℕ) :
    (pack.flushFull type length).counters = pack.counters := by
  rw [Pack.flushFull]
  split <;> rfl

/-- Whatever becomes of an IP packet, it is counted down once. -/
theorem packSkb_dataKind_inflight {txWriteAcc : ℕ} {pack next : Pack} {skb : List UInt8}
    (turn : packSkb dataKind txWriteAcc pack skb = some next) :
    next.counters.inflight = pack.counters.inflight - 1 := by
  have turns := packTurn_packSkb dataKind txWriteAcc pack skb
  rw [turn] at turns
  cases turns with
  | unsupported | noCredit => rfl
  | tooLong =>
      simp only [Pack.consume, dataKind]
      rw [Pack.flushFull_counters]
  | staged =>
      simp only [Pack.consume, Pack.copy, dataKind]
      rw [Pack.flushFull_counters]

theorem packSkb_cmdKind_counters {txWriteAcc : ℕ} {pack next : Pack} {skb : List UInt8}
    (turn : packSkb cmdKind txWriteAcc pack skb = some next) : next.counters = pack.counters := by
  have turns := packTurn_packSkb cmdKind txWriteAcc pack skb
  rw [turn] at turns
  cases turns with
  | unsupported | noCredit => rfl
  | tooLong => exact Pack.flushFull_counters ..
  | staged => exact Pack.flushFull_counters ..

attribute [local simp] holding PassPoint.holding TxCall.counted TxCall.xmitting TxCall.consuming
  TxCall.isOver

/-- A step of a pass moves packets and counts together. -/
theorem passStep_inflight {dev : LinkTx} {point : PassPoint}
    (counted : point.holding ≤ dev.counters.inflight) :
    (dev.passStep point).1.counters.inflight + dev.dataTxq.length + point.holding =
        dev.counters.inflight + (dev.passStep point).1.dataTxq.length +
          holding (dev.passStep point).2 ∧
      (dev.passStep point).1.counters.inflight ≤ dev.counters.inflight := by
  cases point with
  | dataGate =>
      simp only [LinkTx.passStep]
      split
      · simp
      · split <;> simp
  | dataLoop pack =>
      simp only [LinkTx.passStep]
      split
      · simp
      · rename_i queue
        simp only [holding, PassPoint.holding, Option.elim_some, queue, List.length_cons]
        omega
  | dataHold pack skb =>
      simp only [LinkTx.passStep]
      split
      · simp only [holding, PassPoint.holding, Option.elim_some, List.length_cons]
        omega
      · rename_i next turn
        have down := packSkb_dataKind_inflight turn
        simp only [PassPoint.holding, holding, Option.elim_some] at counted down ⊢
        omega
  | dataEnd pack =>
      simp only [LinkTx.passStep]
      split <;> simp [LinkTx.endShared, LinkTx.endPack, Pack.flush]
  | dataCount =>
      simp only [LinkTx.passStep]
      split <;> simp
  | dataWake => simp [LinkTx.passStep]
  | cmdGate =>
      simp only [LinkTx.passStep]
      split <;> simp
  | cmdLoop pack =>
      simp only [LinkTx.passStep]
      split <;> simp
  | cmdHold pack skb =>
      simp only [LinkTx.passStep]
      split
      · simp
      · rename_i next turn
        rw [packSkb_cmdKind_counters turn]
        simp
  | cmdEnd pack =>
      simp only [LinkTx.passStep]
      split
      · simp [LinkTx.endShared, LinkTx.endPack, Pack.flush]
      · split <;> simp [LinkTx.endShared, LinkTx.endPack, Pack.flush]

/-- So does a step of a call. -/
theorem callStep_inflight {dev : LinkTx} {call : TxCall}
    (counted : [call].countP TxCall.counted ≤ dev.counters.inflight) :
    (dev.callStep call).1.counters.inflight + dev.dataTxq.length +
          [call].countP TxCall.counted =
        dev.counters.inflight + (dev.callStep call).1.dataTxq.length +
          (dev.callStep call).2.toList.countP TxCall.counted ∧
      (dev.callStep call).1.counters.inflight + [call].countP TxCall.isOver ≤
        dev.counters.inflight + (dev.callStep call).2.toList.countP TxCall.isOver := by
  cases call with
  | admitted skb =>
      simp [LinkTx.callStep]
      omega
  | overCap | drained =>
      simp [LinkTx.callStep, LinkTx.countDown] at counted ⊢
      omega
  | draining =>
      simp only [LinkTx.callStep]
      split
      · simp
      · rename_i queue
        simp [queue]
        omega
  | queued | stopping | closing | cancelling | purging =>
      simp [LinkTx.callStep]

/-- What an interrupt leaves alone until its pass. -/
def LinkTx.kept (dev : LinkTx) : TxCounters × List (List UInt8) × Bool × Bool :=
  (dev.counters, dev.dataTxq, dev.queueStopped, dev.workQueued)

theorem readGrants_kept (dev : LinkTx) (doTx : Bool) (grants : List UInt8) :
    (readGrants dev doTx grants).1.kept = dev.kept := by
  induction grants generalizing dev doTx with
  | nil => rfl
  | cons blocks grants ih =>
      rw [readGrants, ih, evtTx]
      split <;> rfl

theorem foldl_recvAcked_kept (dev : LinkTx) (acks : List UInt32) :
    (acks.foldl recvAcked dev).kept = dev.kept := by
  induction acks generalizing dev with
  | nil => rfl
  | cons acked acks ih =>
      rw [List.foldl_cons, ih, recvAcked]
      split <;> rfl

/-- A step that touches neither the count, the queue nor the threads. -/
theorem InflightCounted.same {s next : TxThreads} (ok : InflightCounted s)
    (inflight : next.dev.counters.inflight = s.dev.counters.inflight)
    (dataTxq : next.dev.dataTxq = s.dev.dataTxq) (calls : next.calls = s.calls)
    (pass : holding (next.pass.map LinkPass.point) = holding (s.pass.map LinkPass.point)) :
    InflightCounted next where
  counts := by
    rw [inflight, dataTxq, calls, pass]
    exact ok.counts
  cap := by
    rw [inflight, calls]
    exact ok.cap

theorem InflightCounted.startXmit {s : TxThreads} (ok : InflightCounted s) (skb : List UInt8) :
    InflightCounted (s.startXmit skb) := by
  have counts := ok.counts
  have cap := ok.cap
  unfold TxThreads.startXmit
  split
  · exact ok.same rfl rfl rfl rfl
  · dsimp only
    split
    · refine ⟨?_, ?_⟩
      · simp only [List.countP_cons, TxCall.counted, TxCall.xmitting, Bool.true_or, if_true]
        omega
      · simp only [List.countP_cons, TxCall.isOver, decide_true, if_true]
        omega
    · refine ⟨?_, ?_⟩
      · simp only [List.countP_cons, TxCall.counted, TxCall.xmitting, Bool.true_or, if_true]
        omega
      · dsimp only
        omega

theorem InflightCounted.call {s : TxThreads} (ok : InflightCounted s) {i : ℕ} {call : TxCall}
    (running : s.calls[i]? = some call) :
    InflightCounted
      { s with
        dev := (s.dev.callStep call).1
        calls := Calls.advance s.calls i (s.dev.callStep call).2 } := by
  have counts := ok.counts
  have cap := ok.cap
  have countedStep := Calls.countP_advance TxCall.counted running (s.dev.callStep call).2
  have overStep := Calls.countP_advance TxCall.isOver running (s.dev.callStep call).2
  have counted : [call].countP TxCall.counted ≤ s.dev.counters.inflight := by
    have among : [call].countP TxCall.counted ≤ s.calls.countP TxCall.counted :=
      (List.singleton_sublist.mpr (List.mem_of_getElem? running)).countP_le
    omega
  rcases callStep_inflight counted with ⟨moved, within⟩
  refine ⟨?_, ?_⟩
  · dsimp only
    omega
  · dsimp only
    omega

theorem InflightCounted.pass {s : TxThreads} (ok : InflightCounted s) {pass : LinkPass}
    (running : s.pass = some pass) :
    InflightCounted
      { s with
        dev := (s.dev.passStep pass.point).1
        pass := (s.dev.passStep pass.point).2.map fun point => { pass with point } } := by
  have counts := ok.counts
  have cap := ok.cap
  simp only [running, Option.map_some, holding, Option.elim_some] at counts
  have counted : pass.point.holding ≤ s.dev.counters.inflight := by omega
  rcases passStep_inflight counted with ⟨moved, within⟩
  refine ⟨?_, ?_⟩
  · simp only [Option.map_map, Function.comp_def, Option.map_id']
    omega
  · dsimp only
    omega

theorem txStep_inflight {s next : TxThreads} (ok : InflightCounted s) {step : TxStep}
    (done : txStep s step = some next) : InflightCounted next := by
  cases txStep_move done with
  | startXmit skb => exact ok.startXmit skb
  | «open» | write cmd | queueWork | worker => exact ok.same rfl rfl rfl rfl
  | close =>
      refine ⟨?_, ?_⟩
      · simpa using ok.counts
      · simpa using ok.cap
  | call running => exact ok.call running
  | claimHost free => exact ok.same rfl rfl rfl (by simp [free])
  | irq free grants acks =>
      have kept := (foldl_recvAcked_kept _ acks).trans (readGrants_kept s.dev false grants)
      simp only [LinkTx.kept, Prod.mk.injEq] at kept
      refine ok.same ?_ kept.2.1 rfl ?_
      · dsimp only
        rw [kept.1]
      · dsimp only
        split <;> simp [free]
  | pass running => exact ok.pass running

/-! ### The whole run -/

theorem TxThreads.initial_inflight (toio : ℕ → ℤ) (unackedMax : UInt32) :
    InflightCounted (.initial toio unackedMax) where
  counts := rfl
  cap := Nat.zero_le _

theorem inflight_kept {toio : ℕ → ℤ} {unackedMax : UInt32} {steps : List TxStep} {s : TxThreads}
    (run : Trace (fun s step next => txStep s step = some next) (.initial toio unackedMax) steps
      s) :
    InflightKept s := by
  have counted : InflightCounted s := by
    refine run.invariant ?_ (TxThreads.initial_inflight toio unackedMax)
    intro s step next ok done
    exact txStep_inflight ok done
  exact counted.kept

/-- A pass has one packet in its hands, and a second one is counted and not yet queued. -/
theorem inflight_kept_two_packets :
    ∃ s, Trace (fun s step next => txStep s step = some next) (.initial (fun _ => 0) 40960)
        [.startXmit (0x45 :: List.replicate 19 0), .startXmit (0x45 :: List.replicate 29 0),
          .call 1, .irq [1] [], .pass, .pass] s ∧
      s.dev.counters.inflight = 2 ∧ s.dev.dataTxq = [] ∧ InflightKept s := by
  have checked : ([.startXmit (0x45 :: List.replicate 19 0),
      .startXmit (0x45 :: List.replicate 29 0), .call 1, .irq [1] [], .pass, .pass].foldlM txStep
        (.initial (fun _ => 0) 40960)).any
        (fun s => decide (s.dev.counters.inflight = 2 ∧ s.dev.dataTxq = [])) = true := by
    decide +kernel
  rcases (Option.any_eq_true _ _).mp checked with ⟨s, done, facts⟩
  rcases of_decide_eq_true facts with ⟨two, empty⟩
  have run := Run.of_foldlM txStep done
  exact ⟨s, run, two, empty, inflight_kept run⟩

end MlKernel.Sdio
