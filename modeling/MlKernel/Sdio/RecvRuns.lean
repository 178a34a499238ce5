import MlKernel.Lib.Tiling
import MlKernel.Sdio.Recv

/-!
# The runs of an untrusted read

Whatever the bytes of a read are, the runs `artosyn_sdio_recv` dispatches tile it, and what is
read of a run lies inside the run and before its trailer.
-/

namespace MlKernel.Sdio

def Run.span (run : Run) : ℕ × ℕ := (run.start, run.size)

/-- The indices of the four bytes that `LINK_TYPE_ACK` reads of a run. -/
def Run.ackWord (run : Run) : List ℕ :=
  let rend := run.start + run.size
  if run.size < 8 then [] else [rend - 8, rend - 7, rend - 6, rend - 5]

/-- The run without its trailer, as a slice of the read. -/
def Run.body (buf : List UInt8) (run : Run) : List UInt8 :=
  (buf.drop run.start).take (run.size - linkTrailerLen)

/-- What the runs of a read promise the dispatch switch. -/
structure RunsOf (buf : List UInt8) (runs : List Run) : Prop where
  tiles : Tiles 0 (runs.map Run.span) buf.length
  disjoint : runs.Pairwise fun run after => run.start + run.size ≤ after.start
  inside : ∀ run ∈ runs, run.start + run.size ≤ buf.length
  slots : runs.length ≤ arsdioMaxRuns
  slice : ∀ run ∈ runs, run.payload + linkTrailerLen ≤ run.size
  ackWord : ∀ run ∈ runs, ∀ i ∈ run.ackWord,
    run.start ≤ i ∧ i + linkTrailerLen < run.start + run.size
  fallback : ¬Tiles 0 ((walkRuns buf buf.length arsdioMaxRuns).1.reverse.map Run.span) buf.length →
    ∃ run, runs = [run] ∧ run.span = (0, buf.length)

/-! ### The backward walk -/

/-- What the walk found lies, in stream order, between where it stopped and where it began. -/
theorem walkRuns_tiles (buf : List UInt8) (pos slots : ℕ) :
    Tiles (walkRuns buf pos slots).2 ((walkRuns buf pos slots).1.reverse.map Run.span) pos := by
  induction slots generalizing pos with
  | zero => exact Tiles.nil.mpr rfl
  | succ slots ih =>
      rw [walkRuns]
      split
      · exact Tiles.nil.mpr rfl
      · simp only
        split
        · exact Tiles.nil.mpr rfl
        · next parsed =>
            have fits : runSize (trailerPayload buf pos) ≤ pos := by
              apply Nat.le_of_not_lt
              intro long
              exact parsed (Or.inr (Or.inl long))
            rw [List.reverse_cons, List.map_append]
            apply (ih (pos - runSize (trailerPayload buf pos))).append
            rw [List.map_singleton, Tiles.cons, Tiles.nil]
            exact ⟨rfl, Nat.sub_add_cancel fits⟩

theorem length_walkRuns (buf : List UInt8) (pos slots : ℕ) :
    (walkRuns buf pos slots).1.length ≤ slots := by
  induction slots generalizing pos with
  | zero => simp [walkRuns]
  | succ slots ih =>
      have := ih (pos - runSize (trailerPayload buf pos))
      rw [walkRuns]
      split
      · simp
      · simp only
        split
        · simp
        · simpa using this

/-- A run the walk found has the size its payload needs. -/
theorem walkRuns_size {buf : List UInt8} {pos slots : ℕ} {run : Run}
    (mem : run ∈ (walkRuns buf pos slots).1) : run.size = runSize run.payload := by
  induction slots generalizing pos with
  | zero => simp [walkRuns] at mem
  | succ slots ih =>
      rw [walkRuns] at mem
      split at mem
      · simp at mem
      · simp only at mem
        split at mem
        · simp at mem
        · rcases List.mem_cons.mp mem with rfl | mem
          · rfl
          · exact ih mem

/-! ### Recovery -/

/-- Either the walk tiled the whole read, or the read is one run. -/
theorem recoverRuns_cases (buf : List UInt8) :
    ((walkRuns buf buf.length arsdioMaxRuns).2 = 0 ∧
        recoverRuns buf = (walkRuns buf buf.length arsdioMaxRuns).1) ∨
      recoverRuns buf = [legacyRun buf] := by
  simp only [recoverRuns]
  split
  · right
    rfl
  · next tiled =>
      rw [not_or, not_not] at tiled
      left
      exact ⟨tiled.1, rfl⟩

theorem recoverRuns_of_untiled {buf : List UInt8}
    (untiled : (walkRuns buf buf.length arsdioMaxRuns).2 ≠ 0) :
    recoverRuns buf = [legacyRun buf] := by
  rcases recoverRuns_cases buf with ⟨stop, -⟩ | whole
  · exact absurd stop untiled
  · exact whole

theorem ackWord_inside {run : Run} {i : ℕ} (mem : i ∈ run.ackWord) :
    run.start ≤ i ∧ i + 4 < run.start + run.size := by
  simp only [Run.ackWord] at mem
  split at mem
  · simp at mem
  · simp only [List.mem_cons, List.not_mem_nil, or_false] at mem
    omega

theorem recoverRuns_tiles (buf : List UInt8) :
    Tiles 0 ((recoverRuns buf).reverse.map Run.span) buf.length := by
  rcases recoverRuns_cases buf with ⟨stop, found⟩ | whole
  · have walked := walkRuns_tiles buf buf.length arsdioMaxRuns
    rw [found]
    rw [stop] at walked
    exact walked
  · rw [whole]
    simp [Run.span, legacyRun]

theorem length_recoverRuns (buf : List UInt8) : (recoverRuns buf).length ≤ arsdioMaxRuns := by
  rcases recoverRuns_cases buf with ⟨-, found⟩ | whole
  · rw [found]
    exact length_walkRuns _ _ _
  · rw [whole]
    simp

/-- The payload of a run ends before its trailer. -/
theorem recoverRuns_payload {buf : List UInt8} (enough : linkTrailerLen ≤ buf.length) {run : Run}
    (mem : run ∈ recoverRuns buf) : run.payload + linkTrailerLen ≤ run.size := by
  rcases recoverRuns_cases buf with ⟨-, found⟩ | whole
  · rw [found] at mem
    rw [walkRuns_size mem]
    exact le_runSize _
  · rw [whole, List.mem_singleton] at mem
    subst mem
    simp only [legacyRun, linkTrailerLen] at enough ⊢
    omega

theorem recoverRuns_runsOf {buf : List UInt8} (enough : linkTrailerLen ≤ buf.length) :
    RunsOf buf (recoverRuns buf).reverse where
  tiles := recoverRuns_tiles buf
  disjoint := List.pairwise_map.mp (recoverRuns_tiles buf).pairwise
  inside run mem := ((recoverRuns_tiles buf).inside (List.mem_map_of_mem mem)).2
  slots := by
    rw [List.length_reverse]
    exact length_recoverRuns buf
  slice run mem := recoverRuns_payload enough (List.mem_reverse.mp mem)
  ackWord run _ i mem := ackWord_inside mem
  fallback untiled := by
    refine ⟨legacyRun buf, ?_, rfl⟩
    have stuck : (walkRuns buf buf.length arsdioMaxRuns).2 ≠ 0 := by
      intro stop
      have walked := walkRuns_tiles buf buf.length arsdioMaxRuns
      rw [stop] at walked
      exact untiled walked
    rw [recoverRuns_of_untiled stuck, List.reverse_singleton]

/-! ### Dispatch -/

theorem byteAt_slice (buf : List UInt8) (start : ℕ) {count i : ℕ} (inside : i < count) :
    byteAt ((buf.drop start).take count) i = byteAt buf (start + i) := by
  simp [byteAt, List.getElem?_drop, inside]

theorem Run.content_congr {buf other : List UInt8} {run : Run}
    (fits : run.payload + linkTrailerLen ≤ run.size) (same : run.body buf = run.body other) :
    run.content buf = run.content other := by
  simp only [linkTrailerLen] at fits
  have short : min run.payload (run.size - 4) = run.payload := by omega
  have taken := congrArg (List.take run.payload) same
  simp only [Run.body, linkTrailerLen, List.take_take, short] at taken
  rw [Run.content, Run.content, taken]

/-- The pending count is read from the four bytes of `ackWord`. -/
theorem recvAck_congr (eth : LinkRx) {buf other : List UInt8} {run : Run}
    (same : ∀ i ∈ run.ackWord, byteAt buf i = byteAt other i) :
    recvAck eth buf run = recvAck eth other run := by
  simp only [recvAck]
  split
  · rfl
  · next long =>
      simp only [Run.ackWord, if_neg long, List.forall_mem_cons] at same
      rcases same with ⟨first, second, third, fourth, -⟩
      rw [first, second, third, fourth]

theorem byteAt_ackWord {buf other : List UInt8} {run : Run} (same : run.body buf = run.body other)
    {i : ℕ} (mem : i ∈ run.ackWord) : byteAt buf i = byteAt other i := by
  rcases ackWord_inside mem with ⟨low, high⟩
  have within : i - run.start < run.size - linkTrailerLen := by
    simp only [linkTrailerLen]
    omega
  have start : run.start + (i - run.start) = i := by omega
  have bytes := congrArg (byteAt · (i - run.start)) same
  simp only [Run.body, byteAt_slice _ _ within, start] at bytes
  exact bytes

section Receiver

variable {ipFastCsum : List UInt8 → ℕ → UInt16} {netdevAllocSkb : ℕ → Bool} {pfx : LinkPrefix}

/-- Dispatching a run reads nothing but its body. -/
theorem dispatchRun_congr (eth : LinkRx) {buf other : List UInt8} {run : Run}
    (fits : run.payload + linkTrailerLen ≤ run.size) (same : run.body buf = run.body other) :
    dispatchRun ipFastCsum netdevAllocSkb pfx buf eth run =
      dispatchRun ipFastCsum netdevAllocSkb pfx other eth run := by
  simp only [dispatchRun, Run.content_congr fits same]
  rw [recvAck_congr _ fun i mem => byteAt_ackWord same mem]

theorem artosynSdioRecv_eq_foldl {sdioMemcpyFromio : ℕ → Option (List UInt8)} {eth : LinkRx}
    {buf : List UInt8} (posted : (eth.rxWriteAcc - eth.rxReadAcc).toNat = buf.length)
    (enough : linkTrailerLen ≤ buf.length) (fits : buf.length ≤ arsdioRxBuf)
    (read : sdioMemcpyFromio buf.length = some buf) :
    artosynSdioRecv ipFastCsum netdevAllocSkb pfx sdioMemcpyFromio eth =
      (recoverRuns buf).reverse.foldl (dispatchRun ipFastCsum netdevAllocSkb pfx buf)
        { eth with rxReadAcc := eth.rxWriteAcc } := by
  simp only [linkTrailerLen] at enough
  simp only [artosynSdioRecv, posted, Nat.min_eq_left fits]
  rw [if_neg (by omega), if_neg (by simp only [linkTrailerLen]; omega), read]

/-- A read of whole blocks, whatever is in it, is dispatched as runs that tile it, and each of
them is handled from what lies inside the run and before its trailer. -/
theorem artosynSdioRecv_runsOf {sdioMemcpyFromio : ℕ → Option (List UInt8)} {eth : LinkRx}
    {buf : List UInt8} (posted : (eth.rxWriteAcc - eth.rxReadAcc).toNat = buf.length)
    (nonempty : 0 < buf.length) (blocks : arsdioBlock ∣ buf.length)
    (fits : buf.length ≤ 255 * arsdioBlock) (read : sdioMemcpyFromio buf.length = some buf) :
    ∃ runs, RunsOf buf runs ∧
      artosynSdioRecv ipFastCsum netdevAllocSkb pfx sdioMemcpyFromio eth =
        runs.foldl (dispatchRun ipFastCsum netdevAllocSkb pfx buf)
          { eth with rxReadAcc := eth.rxWriteAcc } ∧
      ∀ run ∈ runs, ∀ (eth : LinkRx) (other : List UInt8), run.body buf = run.body other →
        dispatchRun ipFastCsum netdevAllocSkb pfx buf eth run =
          dispatchRun ipFastCsum netdevAllocSkb pfx other eth run := by
  have block := Nat.le_of_dvd nonempty blocks
  have enough : linkTrailerLen ≤ buf.length := Nat.le_trans (by simp) block
  have recovered := recoverRuns_runsOf enough
  have buffer : buf.length ≤ arsdioRxBuf := Nat.le_trans fits (by simp)
  refine ⟨_, recovered, artosynSdioRecv_eq_foldl posted enough buffer read, ?_⟩
  intro run mem eth other same
  exact dispatchRun_congr eth (recovered.slice run mem) same

end Receiver

/-- A command and two blocks of packets, which one read has merged. -/
def twoRuns : List UInt8 :=
  List.replicate 508 1 ++ linkTrailer 300 linkTypeCmd ++
    (List.replicate 1020 2 ++ linkTrailer 1000 linkTypeIp)

theorem artosynSdioRecv_runsOf_twoRuns :
    (recoverRuns twoRuns).reverse =
        [⟨0, 512, 300, linkTypeCmd⟩, ⟨512, 1024, 1000, linkTypeIp⟩] ∧
      ∃ runs, RunsOf twoRuns runs ∧
        artosynSdioRecv (fun _ _ => 0) (fun _ => true) ⟨10, 0, 0⟩ (fun _ => some twoRuns)
            { LinkRx.initial with rxWriteAcc := 1536 } =
          runs.foldl (dispatchRun (fun _ _ => 0) (fun _ => true) ⟨10, 0, 0⟩ twoRuns)
            { LinkRx.initial with rxWriteAcc := 1536, rxReadAcc := 1536 } ∧
        ∀ run ∈ runs, ∀ (eth : LinkRx) (other : List UInt8),
          run.body twoRuns = run.body other →
            dispatchRun (fun _ _ => 0) (fun _ => true) ⟨10, 0, 0⟩ twoRuns eth run =
              dispatchRun (fun _ _ => 0) (fun _ => true) ⟨10, 0, 0⟩ other eth run := by
  have length : twoRuns.length = 1536 := by
    simp only [twoRuns, linkTrailer, List.length_append, List.length_replicate, List.length_cons,
      List.length_nil]
  refine ⟨by decide +kernel, ?_⟩
  apply artosynSdioRecv_runsOf _ _ _ _ rfl
  · rw [length]
    rfl
  all_goals
    rw [length]
    decide

end MlKernel.Sdio
