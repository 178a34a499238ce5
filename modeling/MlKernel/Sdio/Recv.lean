import Mathlib.Data.List.Induction
import MlKernel.Sdio.LinkRun
import MlKernel.Sdio.RxStream

/-!
# The receive bottom half

`artosyn_sdio_recv` reads everything the chip has posted in one transfer.  One
read can cover several link runs, so it looks for their boundaries by walking
the trailers back from the end, into an array of `ARSDIO_MAX_RUNS` entries.
When the walk does not end exactly at the start of the buffer, the whole read is
taken for one run.
-/

namespace MlKernel.Sdio

/-- An entry of `runs[]`. -/
structure Run where
  start : ℕ
  size : ℕ
  payload : ℕ
  type : UInt8
  deriving DecidableEq

/-- The little-endian payload length of the trailer that ends at `pos`. -/
def trailerPayload (buf : List UInt8) (pos : ℕ) : ℕ :=
  (byteAt buf (pos - 2)).toNat ||| (byteAt buf (pos - 1)).toNat <<< 8

/-- The backward walk with `slots` entries of `runs[]` left: the runs found, last run first,
and the position it stopped at. -/
def walkRuns (buf : List UInt8) (pos : ℕ) (slots : ℕ) : List Run × ℕ :=
  match slots with
  | 0 => ([], pos)
  | slots + 1 =>
      if pos < arsdioBlock then ([], pos)
      else
        let t := byteAt buf (pos - 3)
        let pl := trailerPayload buf pos
        let rsize := runSize pl
        if byteAt buf (pos - 4) ≠ 0x00 ∨ pos < rsize ∨
            (t ≠ linkTypeIp ∧ t ≠ linkTypeCmd ∧ t ≠ linkTypeAck) then ([], pos)
        else
          let (runs, stop) := walkRuns buf (pos - rsize) slots
          (⟨pos - rsize, rsize, pl, t⟩ :: runs, stop)

/-- The fallback: the whole read is one run, its payload cut to what precedes the trailer. -/
def legacyRun (buf : List UInt8) : Run :=
  ⟨0, buf.length, min (trailerPayload buf buf.length) (buf.length - linkTrailerLen),
    byteAt buf (buf.length - 3)⟩

/-- The runs of a read as `runs[]` holds them, last run first. -/
def recoverRuns (buf : List UInt8) : List Run :=
  let (runs, pos) := walkRuns buf buf.length arsdioMaxRuns
  if pos ≠ 0 ∨ runs = [] then [legacyRun buf] else runs

def Run.content (buf : List UInt8) (run : Run) : UInt8 × List UInt8 :=
  (run.type, (buf.drop run.start).take run.payload)

def cmdRxqMaxIdle : ℕ := 64

def cmdRxqMaxReader : ℕ := 1024

/-- What the receive half reads and writes of the device and of its netdev. -/
structure LinkRx where
  rxReadAcc : UInt32
  rxWriteAcc : UInt32
  netDevOpened : Bool
  rx : RxEth
  cmdReaders : ℕ
  cmdRxq : List (List UInt8)
  cmdRxqOverflow : UInt32
  unackedBytes : UInt32
  /-- The runs the dispatch switch has been entered for, oldest first. -/
  dispatched : List (UInt8 × List UInt8)

def LinkRx.initial : LinkRx where
  rxReadAcc := 0
  rxWriteAcc := 0
  netDevOpened := true
  rx := .initial
  cmdReaders := 0
  cmdRxq := []
  cmdRxqOverflow := 0
  unackedBytes := 0
  dispatched := []

/-- Dropping the oldest commands while the queue is at its cap: the queue and the overflow
count. -/
def trimCmdRxq (cap : ℕ) (cmdRxq : List (List UInt8)) (overflow : UInt32) :
    List (List UInt8) × UInt32 :=
  match cmdRxq with
  | [] => ([], overflow)
  | old :: rest =>
      if cap ≤ (old :: rest).length then trimCmdRxq cap rest (overflow + 1)
      else (old :: rest, overflow)

section Receiver

variable (ipFastCsum : List UInt8 → ℕ → UInt16) (netdevAllocSkb : ℕ → Bool) (pfx : LinkPrefix)

/-- The `LINK_TYPE_CMD` case. -/
def recvCmd (eth : LinkRx) (rbuf : List UInt8) : LinkRx :=
  let cap := if eth.cmdReaders ≠ 0 then cmdRxqMaxReader else cmdRxqMaxIdle
  let (cmdRxq, overflow) := trimCmdRxq cap eth.cmdRxq eth.cmdRxqOverflow
  let eth :=
    { eth with
      cmdRxq := if netdevAllocSkb eth.rx.skbAllocs then cmdRxq ++ [rbuf] else cmdRxq
      cmdRxqOverflow := overflow }
  { eth with rx := { eth.rx with skbAllocs := eth.rx.skbAllocs + 1 } }

/-- The `LINK_TYPE_ACK` case: the pending count stands in the last four bytes before the
trailer. -/
def recvAck (eth : LinkRx) (buf : List UInt8) (run : Run) : LinkRx :=
  let rend := run.start + run.size
  if run.size < 8 then eth
  else
    let acked : UInt32 :=
      (byteAt buf (rend - 8)).toUInt32 <<< 24 ||| (byteAt buf (rend - 7)).toUInt32 <<< 16 |||
        (byteAt buf (rend - 6)).toUInt32 <<< 8 ||| (byteAt buf (rend - 5)).toUInt32
    if acked < eth.unackedBytes then { eth with unackedBytes := acked } else eth

/-- The dispatch switch. -/
def dispatchRun (buf : List UInt8) (eth : LinkRx) (run : Run) : LinkRx :=
  let content := run.content buf
  let eth := { eth with dispatched := eth.dispatched ++ [content] }
  if content.1 = linkTypeIp then
    if eth.netDevOpened then
      { eth with rx := artosynRxIpStream ipFastCsum netdevAllocSkb pfx eth.rx content.2 }
    else eth
  else if content.1 = linkTypeCmd then recvCmd netdevAllocSkb eth content.2
  else if content.1 = linkTypeAck then recvAck eth buf run
  else eth

/-- `artosyn_sdio_recv`, with the bytes `sdio_memcpy_fromio` delivers for a length, if it
succeeds. -/
def artosynSdioRecv (sdioMemcpyFromio : ℕ → Option (List UInt8)) (eth : LinkRx) : LinkRx :=
  let len := (eth.rxWriteAcc - eth.rxReadAcc).toNat
  let eth := { eth with rxReadAcc := eth.rxWriteAcc }
  if len = 0 then eth
  else
    let len := min len arsdioRxBuf
    if len < linkTrailerLen then eth
    else
      match sdioMemcpyFromio len with
      | none => eth
      | some buf =>
          (recoverRuns buf).reverse.foldl (dispatchRun ipFastCsum netdevAllocSkb pfx buf) eth

end Receiver

/-! ### Run recovery undoes run framing -/

theorem payload_bytes {used : ℕ} (fits : used < 65536) :
    (UInt8.ofNat (used &&& 0xff)).toNat ||| (UInt8.ofNat ((used >>> 8) &&& 0xff)).toNat <<< 8 =
      used := by
  have low : used &&& 0xff = used % 256 := Nat.and_two_pow_sub_one_eq_mod used 8
  have high : (used >>> 8) &&& 0xff = used / 256 := by
    rw [Nat.shiftRight_eq_div_pow]
    exact (Nat.and_two_pow_sub_one_eq_mod (used / 2 ^ 8) 8).trans (Nat.mod_eq_of_lt (by omega))
  have joined := Nat.shiftLeft_add_eq_or_of_lt (show used % 256 < 2 ^ 8 by omega) (used / 256)
  rw [low, high, UInt8.toNat_ofNat_of_lt' (Nat.mod_lt used (by decide)),
    UInt8.toNat_ofNat_of_lt' (show used / 256 < 256 by omega), Nat.or_comm, ← joined,
    Nat.shiftLeft_eq]
  omega

theorem byteAt_trailer (head later : List UInt8) (used : ℕ) (type : UInt8) {i : ℕ}
    (inside : i < 4) :
    byteAt (head ++ linkTrailer used type ++ later) (head.length + i) =
      byteAt (linkTrailer used type) i := by
  rw [List.append_assoc, byteAt_append_right, byteAt_append_left]
  exact inside

/-- One step of the backward walk, over a run some sender framed. -/
theorem walkRuns_frame (front later : List UInt8) (run : LinkRun) (slots : ℕ) :
    walkRuns (front ++ run.frame ++ later) (front.length + runSize run.used) (slots + 1) =
      (⟨front.length, runSize run.used, run.used, run.type⟩ ::
          (walkRuns (front ++ run.frame ++ later) front.length slots).1,
        (walkRuns (front ++ run.frame ++ later) front.length slots).2) := by
  have blocks := arsdioBlock_le_runSize run.used
  have fits := run.fits
  obtain ⟨head, headEq, headLength⟩ : ∃ head, front ++ run.frame ++ later =
      head ++ linkTrailer run.used run.type ++ later ∧
        head.length + 4 = front.length + runSize run.used := by
    refine ⟨front ++ (run.payload ++ run.padding), ?_, ?_⟩
    · rw [run.frame_eq, ← List.append_assoc front]
    · have length := run.length_frame
      rw [run.frame_eq, List.length_append] at length
      rw [List.length_append, ← length, linkTrailer]
      rfl
  simp only [arsdioBlock, linkTrailerLen, arsdioStaging] at blocks fits
  have zero :
      byteAt (front ++ run.frame ++ later) (front.length + runSize run.used - 4) = 0x00 := by
    rw [headEq, show front.length + runSize run.used - 4 = head.length + 0 by omega,
      byteAt_trailer _ _ _ _ (by omega)]
    rfl
  have type : byteAt (front ++ run.frame ++ later) (front.length + runSize run.used - 3) =
      run.type := by
    rw [headEq, show front.length + runSize run.used - 3 = head.length + 1 by omega,
      byteAt_trailer _ _ _ _ (by omega)]
    rfl
  have payload : trailerPayload (front ++ run.frame ++ later)
      (front.length + runSize run.used) = run.used := by
    rw [trailerPayload, headEq,
      show front.length + runSize run.used - 2 = head.length + 2 by omega,
      show front.length + runSize run.used - 1 = head.length + 3 by omega,
      byteAt_trailer _ _ _ _ (by omega), byteAt_trailer _ _ _ _ (by omega)]
    exact payload_bytes (by omega)
  rw [walkRuns, if_neg (by simp only [arsdioBlock]; omega)]
  simp only [zero, type, payload, Nat.add_sub_cancel]
  rw [if_neg ?_]
  rintro (absurd | absurd | ⟨notIp, notCmd, notAck⟩)
  · exact absurd rfl
  · omega
  · rcases run.known with known | known | known
    · exact notIp known
    · exact notCmd known
    · exact notAck known

/-- The runs framed one behind the other. -/
def mergedRead (runs : List LinkRun) : List UInt8 := (runs.map LinkRun.frame).flatten

def LinkRun.content (run : LinkRun) : UInt8 × List UInt8 := (run.type, run.payload)

theorem mergedRead_concat (runs : List LinkRun) (run : LinkRun) :
    mergedRead (runs ++ [run]) = mergedRead runs ++ run.frame := by
  simp [mergedRead]

theorem length_mergedRead_pos {runs : List LinkRun} (nonempty : runs ≠ []) :
    arsdioBlock ≤ (mergedRead runs).length := by
  cases runs with
  | nil => exact absurd rfl nonempty
  | cons run runs =>
      have blocks := arsdioBlock_le_runSize run.used
      rw [mergedRead, List.map_cons, List.flatten_cons, List.length_append, run.length_frame]
      omega

/-- With a slot for every run the walk finds them all. -/
theorem walkRuns_mergedRead {runs : List LinkRun} (later : List UInt8) {slots : ℕ}
    (room : runs.length ≤ slots) :
    (walkRuns (mergedRead runs ++ later) (mergedRead runs).length slots).2 = 0 ∧
      (walkRuns (mergedRead runs ++ later) (mergedRead runs).length slots).1.reverse.map
        (Run.content (mergedRead runs ++ later)) = runs.map LinkRun.content := by
  induction runs using List.reverseRecOn generalizing slots later with
  | nil =>
      cases slots with
      | zero => simp [walkRuns, mergedRead]
      | succ slots => simp [walkRuns, mergedRead]
  | append_singleton runs run ih =>
      have someSlot : ∃ less, slots = less + 1 := by
        rw [List.length_append, List.length_singleton] at room
        exact ⟨slots - 1, by omega⟩
      rcases someSlot with ⟨slots, rfl⟩
      rw [mergedRead_concat, List.length_append, run.length_frame, walkRuns_frame,
        List.append_assoc]
      have restRoom : runs.length ≤ slots := by simpa using room
      rcases ih (run.frame ++ later) restRoom with ⟨stop, contents⟩
      refine ⟨stop, ?_⟩
      rw [List.reverse_cons, List.map_append, contents, List.map_append]
      congr 1
      simp only [List.map_cons, List.map_nil, Run.content, LinkRun.content, List.drop_left]
      rw [run.frame_eq, List.append_assoc, List.append_assoc, ← run.length_payload, List.take_left]

/-- Without one it stops before the start of the buffer. -/
theorem walkRuns_mergedRead_stuck {runs : List LinkRun} (later : List UInt8) {slots : ℕ}
    (tooMany : slots < runs.length) :
    (walkRuns (mergedRead runs ++ later) (mergedRead runs).length slots).2 ≠ 0 := by
  induction runs using List.reverseRecOn generalizing slots later with
  | nil => simp at tooMany
  | append_singleton runs run ih =>
      cases slots with
      | zero =>
          have nonempty : runs ++ [run] ≠ [] := by simp
          have blocks := length_mergedRead_pos nonempty
          rw [walkRuns]
          simp only [arsdioBlock] at blocks
          omega
      | succ slots =>
          rw [mergedRead_concat, List.length_append, run.length_frame, walkRuns_frame,
            List.append_assoc]
          exact ih (run.frame ++ later) (by simpa using tooMany)

theorem length_mergedRead (runs : List LinkRun) :
    (mergedRead runs).length = (runs.map fun run => runSize run.used).sum := by
  simp only [mergedRead, List.length_flatten, List.map_map]
  congr 1
  exact List.map_congr_left fun run _ => run.length_frame

/-- Every run is recovered, with its type and its payload, in stream order. -/
theorem recoverRuns_mergedRead {runs : List LinkRun} (nonempty : runs ≠ [])
    (room : runs.length ≤ arsdioMaxRuns) :
    (recoverRuns (mergedRead runs)).reverse.map (Run.content (mergedRead runs)) =
      runs.map LinkRun.content := by
  have found := walkRuns_mergedRead [] room
  rw [List.append_nil] at found
  rcases found with ⟨stop, contents⟩
  have someRun : (walkRuns (mergedRead runs) (mergedRead runs).length arsdioMaxRuns).1 ≠ [] := by
    intro none
    rw [none] at contents
    exact nonempty (List.map_eq_nil_iff.mp contents.symm)
  simp only [recoverRuns]
  rw [if_neg (by simp only [stop, someRun]; simp)]
  exact contents

/-- Past the last slot the whole read is taken for one run. -/
theorem recoverRuns_mergedRead_stuck {runs : List LinkRun}
    (tooMany : arsdioMaxRuns < runs.length) :
    recoverRuns (mergedRead runs) = [legacyRun (mergedRead runs)] := by
  have stuck := walkRuns_mergedRead_stuck [] tooMany
  rw [List.append_nil] at stuck
  simp only [recoverRuns]
  rw [if_pos (Or.inl stuck)]

section Receiver

variable {ipFastCsum : List UInt8 → ℕ → UInt16} {netdevAllocSkb : ℕ → Bool} {pfx : LinkPrefix}

theorem dispatchRun_dispatched (buf : List UInt8) (eth : LinkRx) (run : Run) :
    (dispatchRun ipFastCsum netdevAllocSkb pfx buf eth run).dispatched =
      eth.dispatched ++ [run.content buf] := by
  simp only [dispatchRun, recvCmd, recvAck]
  repeat' split
  all_goals rfl

theorem foldl_dispatchRun_dispatched (buf : List UInt8) (eth : LinkRx) (runs : List Run) :
    (runs.foldl (dispatchRun ipFastCsum netdevAllocSkb pfx buf) eth).dispatched =
      eth.dispatched ++ runs.map (Run.content buf) := by
  induction runs generalizing eth with
  | nil => simp
  | cons run runs ih =>
      rw [List.foldl_cons, ih, dispatchRun_dispatched, List.append_assoc]
      rfl

/-- What a read of some posted bytes dispatches. -/
theorem artosynSdioRecv_dispatched {sdioMemcpyFromio : ℕ → Option (List UInt8)} {eth : LinkRx}
    {buf : List UInt8} (posted : (eth.rxWriteAcc - eth.rxReadAcc).toNat = buf.length)
    (enough : linkTrailerLen ≤ buf.length) (fits : buf.length ≤ arsdioRxBuf)
    (read : sdioMemcpyFromio buf.length = some buf) :
    (artosynSdioRecv ipFastCsum netdevAllocSkb pfx sdioMemcpyFromio eth).dispatched =
      eth.dispatched ++ (recoverRuns buf).reverse.map (Run.content buf) := by
  simp only [linkTrailerLen] at enough
  simp only [artosynSdioRecv, posted, Nat.min_eq_left fits]
  rw [if_neg (by omega), if_neg (by simp only [linkTrailerLen]; omega), read]
  exact foldl_dispatchRun_dispatched buf _ _

theorem artosynSdioRecv_dispatched_of_empty {sdioMemcpyFromio : ℕ → Option (List UInt8)}
    {eth : LinkRx} (posted : (eth.rxWriteAcc - eth.rxReadAcc).toNat = 0) :
    (artosynSdioRecv ipFastCsum netdevAllocSkb pfx sdioMemcpyFromio eth).dispatched =
      eth.dispatched := by
  simp only [artosynSdioRecv, posted]
  rfl

/-- A merged read is dispatched run by run exactly if `runs[]` has room for its runs. -/
theorem artosynSdioRecv_mergedRead_iff {sdioMemcpyFromio : ℕ → Option (List UInt8)} {eth : LinkRx}
    {runs : List LinkRun}
    (posted : (eth.rxWriteAcc - eth.rxReadAcc).toNat = (mergedRead runs).length)
    (fits : (mergedRead runs).length ≤ 255 * arsdioBlock)
    (read : sdioMemcpyFromio (mergedRead runs).length = some (mergedRead runs)) :
    (artosynSdioRecv ipFastCsum netdevAllocSkb pfx sdioMemcpyFromio eth).dispatched =
      eth.dispatched ++ runs.map LinkRun.content ↔ runs.length ≤ arsdioMaxRuns := by
  by_cases nonempty : runs = []
  · subst nonempty
    rw [artosynSdioRecv_dispatched_of_empty posted]
    simp
  · have blocks := length_mergedRead_pos nonempty
    simp only [arsdioBlock] at blocks fits
    rw [artosynSdioRecv_dispatched posted (by simp only [linkTrailerLen]; omega)
      (by simp only [arsdioRxBuf]; omega) read, List.append_cancel_left_eq]
    constructor
    · intro dispatched
      by_contra tooMany
      rw [recoverRuns_mergedRead_stuck (Nat.lt_of_not_le tooMany)] at dispatched
      have lengths := congrArg List.length dispatched
      simp only [List.reverse_singleton, List.map_cons, List.map_nil, List.length_singleton,
        List.length_map] at lengths
      simp only [arsdioMaxRuns] at tooMany
      omega
    · exact recoverRuns_mergedRead nonempty

end Receiver

/-- A command and an ACK in one read. -/
theorem artosynSdioRecv_mergedRead_two :
    (artosynSdioRecv (fun _ _ => 0) (fun _ => true) ⟨10, 0, 0⟩
      (fun _ => some (mergedRead
        [.ofPayload linkTypeCmd [1, 2, 3] (by decide) (by decide),
          .ofPayload linkTypeAck [] (by decide) (by decide)]))
      { LinkRx.initial with rxWriteAcc := 1024 }).dispatched =
        LinkRx.initial.dispatched ++
          [LinkRun.ofPayload linkTypeCmd [1, 2, 3] (by decide) (by decide),
            LinkRun.ofPayload linkTypeAck [] (by decide) (by decide)].map LinkRun.content := by
  refine (artosynSdioRecv_mergedRead_iff ?_ ?_ rfl).mpr (by decide)
  · rw [length_mergedRead]
    rfl
  · rw [length_mergedRead]
    decide

/-- Sixty-five empty ACK runs in one read are not dispatched one by one. -/
theorem artosynSdioRecv_mergedRead_ne :
    ¬∀ (runs : List LinkRun) (eth : LinkRx),
      (eth.rxWriteAcc - eth.rxReadAcc).toNat = (mergedRead runs).length →
      (mergedRead runs).length ≤ 255 * arsdioBlock →
      (artosynSdioRecv (fun _ _ => 0) (fun _ => true) ⟨10, 0, 0⟩ (fun _ => some (mergedRead runs))
        eth).dispatched = eth.dispatched ++ runs.map LinkRun.content := by
  intro recovered
  have sixtyFive := recovered
    (List.replicate 65 (.ofPayload linkTypeAck [] (by decide) (by decide)))
    { LinkRx.initial with rxWriteAcc := 33280 }
  have length : (mergedRead
      (List.replicate 65 (.ofPayload linkTypeAck [] (by decide) (by decide)))).length = 33280 := by
    rw [length_mergedRead, List.map_replicate, List.sum_replicate_nat]
    rfl
  have dispatched := sixtyFive (by rw [length]; rfl) (by rw [length]; decide)
  rw [artosynSdioRecv_dispatched (by rw [length]; rfl) (by rw [length]; decide)
    (by rw [length]; decide) rfl, recoverRuns_mergedRead_stuck (by simp)] at dispatched
  have lengths := congrArg List.length dispatched
  simp at lengths

end MlKernel.Sdio
