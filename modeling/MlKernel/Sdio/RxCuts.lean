import MlKernel.Sdio.RxStream

/-!
# How the tunnel stream is cut into transfers

The frames received do not depend on where the baseband cuts the stream, as long
as no cut falls into a rejected header that hides an acceptable one.  Such a
header is the one thing `artosyn_rx_ip_stream` treats differently when it is cut:
the walk inside a transfer skips its first byte, the carry drops all of it.
-/

namespace MlKernel.Sdio

/-- The stream offsets at which the transfers starting at `position` begin and end. -/
def boundaries (position : ℕ) : List (List UInt8) → List ℕ
  | [] => [position]
  | buf :: later => position :: boundaries (position + buf.length) later

/-- A cut falls behind the first byte and before the last one of the header at `offset`. -/
def HeaderCut (cuts : List ℕ) (offset : ℕ) : Prop :=
  ∃ cut ∈ cuts, offset < cut ∧ cut < offset + ipCompressedHdr

instance (cuts : List ℕ) (offset : ℕ) : Decidable (HeaderCut cuts offset) :=
  inferInstanceAs (Decidable (∃ _ ∈ _, _ ∧ _))

/-- No acceptable header starts inside the header at `offset`. -/
def HidesNone (stream : List UInt8) (offset : ℕ) : Prop :=
  ∀ hidden < offset + ipCompressedHdr, offset < hidden →
    ¬compressedFormat.Accepts (stream.drop hidden)

instance (stream : List UInt8) (offset : ℕ) : Decidable (HidesNone stream offset) :=
  inferInstanceAs (Decidable (∀ _ < _, _ → _))

theorem HeaderCut.mono {cuts moreCuts : List ℕ} (subset : cuts ⊆ moreCuts) {offset : ℕ}
    (headerCut : HeaderCut cuts offset) : HeaderCut moreCuts offset := by
  rcases headerCut with ⟨cut, member, behind, before⟩
  exact ⟨cut, subset member, behind, before⟩

/-- Every rejected header with a cut in it hides no acceptable header. -/
def HarmlessCuts (transfers : List (List UInt8)) : Prop :=
  ∀ offset ∈ compressedFormat.rejections 0 transfers.flatten,
    HeaderCut (boundaries 0 transfers) offset → HidesNone transfers.flatten offset

instance (transfers : List (List UInt8)) : Decidable (HarmlessCuts transfers) :=
  inferInstanceAs (Decidable (∀ _ ∈ _, _ → _))

/-- The receiver has consumed the stream up to `position`, holds `pending`, and has `later`
still to come. -/
structure CutAt (stream : List UInt8) (eth : RxEth) (position : ℕ) (pending : List UInt8)
    (later : List (List UInt8)) : Prop where
  parked : Parked eth pending
  remaining : stream.drop position = pending ++ later.flatten
  rejections : ∀ offset ∈ compressedFormat.rejections position (pending ++ later.flatten),
    offset ∈ compressedFormat.rejections 0 stream

/-- A scan from `position`, resumed with the tail it left, is the scan of all that remains. -/
theorem CutAt.of_scansTo (position : ℕ) {stream text : List UInt8} {before after : RxEth}
    {later : List (List UInt8)} (scansTo : ScansTo before after text)
    (remaining : stream.drop position = text ++ later.flatten)
    (rejections : ∀ offset ∈ compressedFormat.rejections position (text ++ later.flatten),
      offset ∈ compressedFormat.rejections 0 stream) :
    CutAt stream after (position + (text.length - (compressedFormat.scan text).2.length))
      (compressedFormat.scan text).2 later where
  parked := scansTo.2
  remaining := by
    rw [← List.drop_drop, remaining, List.drop_append_of_le_length (Nat.sub_le _ _),
      compressedFormat.drop_scan_snd]
  rejections := by
    intro offset member
    exact rejections offset (compressedFormat.mem_rejections_append text later.flatten member)

/-- No acceptable header starts inside a header that is turned down and hides none. -/
theorem HidesNone.of_rejected {stream text rest : List UInt8} {position : ℕ}
    (hidesNone : HidesNone stream position) (remaining : stream.drop position = text ++ rest)
    (complete : ipCompressedHdr ≤ text.length)
    (rejected : compressedFormat.announced text = none) :
    ∀ offset < ipCompressedHdr, ¬compressedFormat.Accepts ((text ++ rest).drop offset) := by
  have stillRejected : compressedFormat.announced (text ++ rest) = none := by
    rw [compressedFormat.announced_append rest complete]
    exact rejected
  intro offset inside accepted
  rcases Nat.eq_zero_or_pos offset with rfl | positive
  · have announced := accepted.2.2
    rw [List.drop_zero, stillRejected] at announced
    cases announced
  · refine hidesNone (position + offset) (by omega) (by omega) ?_
    rw [← List.drop_drop, remaining]
    exact accepted

section Receiver

variable (ipFastCsum : List UInt8 → ℕ → UInt16) {netdevAllocSkb : ℕ → Bool} (pfx : LinkPrefix)

/-- A transfer takes the receiver to the next cut, and what it emits is what the scan of the
rest of the stream finds first. -/
theorem CutAt.step (allocated : ∀ n, netdevAllocSkb n = true) {stream pending buf : List UInt8}
    {eth : RxEth} {position : ℕ} {later : List (List UInt8)}
    (cutAt : CutAt stream eth position pending (buf :: later))
    (harmless : ∀ offset ∈ compressedFormat.rejections 0 stream,
      HeaderCut [position + pending.length] offset → HidesNone stream offset) :
    ∃ nextPosition nextPending,
      CutAt stream (artosynRxIpStream ipFastCsum netdevAllocSkb pfx eth buf) nextPosition
        nextPending later ∧
      nextPosition + nextPending.length = position + pending.length + buf.length ∧
      eth.finished ++ (compressedFormat.scan (pending ++ (buf :: later).flatten)).1 =
        (artosynRxIpStream ipFastCsum netdevAllocSkb pfx eth buf).finished ++
          (compressedFormat.scan (nextPending ++ later.flatten)).1 := by
  rcases cutAt with ⟨parked, remaining, rejections⟩
  rw [List.flatten_cons, ← List.append_assoc] at remaining rejections ⊢
  rcases artosynRxIpStream_cases ipFastCsum pfx allocated buf parked with
    resumed | ⟨⟨first, tail, pendingEq, marked⟩, short, complete, rejected, skipped⟩
  · refine ⟨_, _, .of_scansTo position resumed remaining rejections, ?_, ?_⟩
    · have tailLength := compressedFormat.length_scan_snd_le (pending ++ buf)
      rw [List.length_append] at tailLength ⊢
      omega
    · rw [compressedFormat.scan_append, resumed.1, List.append_assoc]
  · have listed : position ∈ compressedFormat.rejections 0 stream := by
      have wholeComplete : ipCompressedHdr ≤ (pending ++ buf ++ later.flatten).length := by
        rw [List.length_append]
        omega
      have stillRejected : compressedFormat.announced (pending ++ buf ++ later.flatten) = none := by
        rw [compressedFormat.announced_append later.flatten complete]
        exact rejected
      apply rejections position
      subst pendingEq
      rw [List.cons_append, List.cons_append] at wholeComplete stillRejected ⊢
      rw [compressedFormat.rejections_of_rejected marked wholeComplete stillRejected]
      exact List.mem_cons_self
    have isCut : HeaderCut [position + pending.length] position := by
      refine ⟨_, List.mem_singleton.mpr rfl, ?_, by omega⟩
      subst pendingEq
      simp
    have hidesNone := (harmless position listed isCut).of_rejected remaining complete rejected
    have dropped : (pending ++ buf ++ later.flatten).drop ipCompressedHdr =
        (pending ++ buf).drop ipCompressedHdr ++ later.flatten :=
      List.drop_append_of_le_length complete
    refine ⟨_, _, .of_scansTo (position + ipCompressedHdr) skipped ?_ ?_, ?_, ?_⟩
    · rw [← List.drop_drop, remaining, dropped]
    · intro offset member
      rw [← dropped] at member
      exact rejections offset (compressedFormat.mem_rejections_drop hidesNone member)
    · have tailLength :=
        compressedFormat.length_scan_snd_le ((pending ++ buf).drop ipCompressedHdr)
      rw [List.length_drop] at tailLength ⊢
      rw [List.length_append] at tailLength complete ⊢
      omega
    · rw [compressedFormat.scan_fst_drop hidesNone, dropped, compressedFormat.scan_append,
        skipped.1, List.append_assoc]

/-- The frames emitted from a cut on are the frames in the rest of the stream. -/
theorem CutAt.finished (allocated : ∀ n, netdevAllocSkb n = true) {stream pending : List UInt8}
    {eth : RxEth} {position : ℕ} {transfers : List (List UInt8)}
    (cutAt : CutAt stream eth position pending transfers)
    (harmless : ∀ offset ∈ compressedFormat.rejections 0 stream,
      HeaderCut (boundaries (position + pending.length) transfers) offset →
        HidesNone stream offset) :
    (rxTransfers ipFastCsum netdevAllocSkb pfx eth transfers).finished =
      eth.finished ++ (compressedFormat.scan (pending ++ transfers.flatten)).1 := by
  induction transfers generalizing eth position pending with
  | nil =>
      rw [List.flatten_nil, List.append_nil, cutAt.parked.scan_eq, List.append_nil]
      rfl
  | cons buf later ih =>
      have firstCut : [position + pending.length] ⊆
          boundaries (position + pending.length) (buf :: later) := by
        simp [boundaries]
      have atFirst : ∀ offset ∈ compressedFormat.rejections 0 stream,
          HeaderCut [position + pending.length] offset → HidesNone stream offset :=
        fun offset member cut => harmless offset member (cut.mono firstCut)
      rcases cutAt.step ipFastCsum pfx allocated atFirst with
        ⟨nextPosition, nextPending, nextCut, consumed, emitted⟩
      rw [emitted, rxTransfers, List.foldl_cons]
      apply ih nextCut
      intro offset member cut
      apply harmless offset member
      rw [consumed] at cut
      exact cut.mono (List.subset_cons_self _ _)

/-- One transfer from an idle receiver emits the frames of its payload. -/
theorem artosynRxIpStream_initial (allocated : ∀ n, netdevAllocSkb n = true)
    (stream : List UInt8) :
    (artosynRxIpStream ipFastCsum netdevAllocSkb pfx .initial stream).finished =
      (compressedFormat.scan stream).1 := by
  rcases artosynRxIpStream_cases ipFastCsum pfx allocated stream
    (Parked.nothing rfl rfl : Parked .initial []) with whole | ⟨⟨_, _, pending, _⟩, _⟩
  · simpa [RxEth.initial] using whole.1
  · cases pending

/-- Without a harmful cut the receiver refines the ideal one, which keeps the unfinished tail
of every transfer. -/
theorem rxTransfers_refines_feedAll (allocated : ∀ n, netdevAllocSkb n = true)
    (transfers : List (List UInt8)) (harmless : HarmlessCuts transfers) :
    (rxTransfers ipFastCsum netdevAllocSkb pfx .initial transfers).finished =
      (compressedFormat.feedAll [] transfers).1 := by
  have start : CutAt transfers.flatten .initial 0 [] transfers :=
    ⟨.nothing rfl rfl, rfl, fun _ member => member⟩
  have unfinished : compressedFormat.Unfinished [] := compressedFormat.scan_nil
  rw [start.finished ipFastCsum pfx allocated harmless,
    compressedFormat.feedAll_eq_scan unfinished]
  rfl

/-- The frames received do not depend on the cuts, if no cut falls into a rejected header
that hides an acceptable one. -/
theorem rxTransfers_finished_eq (allocated : ∀ n, netdevAllocSkb n = true)
    (transfers : List (List UInt8)) (harmless : HarmlessCuts transfers) :
    (rxTransfers ipFastCsum netdevAllocSkb pfx .initial transfers).finished =
      (artosynRxIpStream ipFastCsum netdevAllocSkb pfx .initial transfers.flatten).finished := by
  rw [rxTransfers_refines_feedAll ipFastCsum pfx allocated transfers harmless,
    compressedFormat.feedAll_eq_scan compressedFormat.scan_nil,
    artosynRxIpStream_initial ipFastCsum pfx allocated]
  rfl

end Receiver

/-- A stray marker and a frame header, each split. -/
theorem rxTransfers_finished_eq_split :
    (rxTransfers (fun _ _ => 0) (fun _ => true) ⟨10, 0, 0⟩ .initial
        [[0x45, 9, 0, 0], [0, 0, 0, 0, 0, 0, 0, 0, 0x45, 17, 0],
          [1, 0, 21, 0, 0, 10, 0, 2, 9, 0xAA]]).finished =
      (artosynRxIpStream (fun _ _ => 0) (fun _ => true) ⟨10, 0, 0⟩ .initial
        [0x45, 9, 0, 0, 0, 0, 0, 0, 0, 0, 0, 0, 0x45, 17, 0, 1, 0, 21, 0, 0, 10, 0, 2, 9,
          0xAA]).finished :=
  rxTransfers_finished_eq _ _ (fun _ => rfl)
    [[0x45, 9, 0, 0], [0, 0, 0, 0, 0, 0, 0, 0, 0x45, 17, 0], [1, 0, 21, 0, 0, 10, 0, 2, 9, 0xAA]]
    (by decide +kernel)

/-- A stray marker at the end of a transfer loses the frame that starts the next one. -/
theorem rxTransfers_finished_ne :
    ¬∀ transfers : List (List UInt8),
      (rxTransfers (fun _ _ => 0) (fun _ => true) ⟨10, 0, 0⟩ .initial transfers).finished =
        (artosynRxIpStream (fun _ _ => 0) (fun _ => true) ⟨10, 0, 0⟩ .initial
          transfers.flatten).finished := by
  intro uncut
  have received := uncut [[0x45], [0x45, 17, 0, 1, 0, 21, 0, 0, 10, 0, 2, 9, 0xAA]]
  revert received
  decide +kernel

end MlKernel.Sdio
