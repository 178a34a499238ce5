import MlKernel.Sdio.RxCuts
import MlKernel.Sdio.TxRun

/-!
# The tunnel from end to end

A packet put on `data_txq` leaves compressed in some 0xCC transfer and comes out
of the far receiver rebuilt.  `Frame` is what the two ends have to agree on: a
compressed frame the receiver recognises and whose announced length is its own.
The sender checks less than the receiver (`peerParses_iff`); for packets both
accept, a run of any shape delivers every packet that was not dropped for want
of credit, in order and once.
-/

namespace MlKernel.Sdio

/-- The protocols `artosyn_ip_hdr_plausible` lets through. -/
def LinkCarries (protocol : UInt8) : Prop :=
  protocol = ipprotoUdp ∨ protocol = ipprotoTcp ∨ protocol = ipprotoIcmp ∨ protocol = ipprotoIgmp

instance (protocol : UInt8) : Decidable (LinkCarries protocol) :=
  inferInstanceAs (Decidable (_ ∨ _ ∨ _ ∨ _))

theorem artosynIpHdrPlausible_iff (p : List UInt8) (totlen : ℕ) :
    artosynIpHdrPlausible p totlen = true ↔
      byteAt p 0 = 0x45 ∧ LinkCarries (byteAt p 1) ∧ iphdrSize < totlen ∧
        totlen ≤ arsdioIpFrameMax := by
  rw [artosynIpHdrPlausible, LinkCarries]
  by_cases marker : byteAt p 0 = 0x45
  · rw [if_neg (by simpa using marker)]
    split
    · rename_i other
      simp only [Bool.false_eq_true, false_iff]
      rintro ⟨-, known, -⟩
      rcases known with known | known | known | known
      · exact other.1 known
      · exact other.2.1 known
      · exact other.2.2.1 known
      · exact other.2.2.2 known
    · rename_i known
      simp only [Bool.and_eq_true, decide_eq_true_eq, marker, true_and]
      constructor
      · intro size
        refine ⟨?_, size⟩
        by_contra other
        push Not at other
        exact known other
      · exact fun carried => carried.2
  · rw [if_pos marker]
    simp [marker]

/-- A compressed frame as the receiver has to find it. -/
structure Frame (frame : List UInt8) : Prop where
  believable : artosynIpHdrPlausible frame (compressedTotlen frame) = true
  need : wireSize (compressedTotlen frame) = frame.length

theorem Frame.announced {frame : List UInt8} (isFrame : Frame frame) (later : List UInt8) :
    compressedFormat.announced (frame ++ later) = some frame.length := by
  have announcement := compressedFormat_announced_of_believable isFrame.believable
  have complete := compressedFormat.headerLength_le_announced announcement
  rw [isFrame.need] at announcement complete
  rw [compressedFormat.announced_append later complete, announcement]

theorem Frame.exists_cons {frame : List UInt8} (isFrame : Frame frame) :
    ∃ first tail, frame = first :: tail ∧ compressedFormat.marker first = true := by
  have marker := ((artosynIpHdrPlausible_iff _ _).mp isFrame.believable).1
  cases frame with
  | nil =>
      rw [byteAt] at marker
      exact absurd marker (by decide)
  | cons first tail => exact ⟨first, tail, rfl, by simpa [compressedFormat, byteAt] using marker⟩

theorem Frame.scan {frame : List UInt8} (isFrame : Frame frame) (later : List UInt8) :
    compressedFormat.scan (frame ++ later) =
      (frame :: (compressedFormat.scan later).1, (compressedFormat.scan later).2) := by
  have announcement := isFrame.announced later
  rcases isFrame.exists_cons with ⟨first, tail, rfl, marked⟩
  rw [List.cons_append] at announcement ⊢
  rw [compressedFormat.scan_of_frame marked announcement (by simp), ← List.cons_append,
    List.take_left, List.drop_left]

theorem Frame.rejections {frame : List UInt8} (isFrame : Frame frame) (position : ℕ)
    (later : List UInt8) :
    compressedFormat.rejections position (frame ++ later) =
      compressedFormat.rejections (position + frame.length) later := by
  have announcement := isFrame.announced later
  rcases isFrame.exists_cons with ⟨first, tail, rfl, marked⟩
  rw [List.cons_append] at announcement ⊢
  rw [compressedFormat.rejections_of_frame marked announcement (by simp), ← List.cons_append,
    List.drop_left]

theorem scan_flatten {frames : List (List UInt8)} (areFrames : ∀ frame ∈ frames, Frame frame) :
    compressedFormat.scan frames.flatten = (frames, []) := by
  induction frames with
  | nil => exact compressedFormat.scan_nil
  | cons frame frames ih =>
      rcases List.forall_mem_cons.mp areFrames with ⟨first, rest⟩
      rw [List.flatten_cons, first.scan, ih rest]

theorem rejections_flatten {frames : List (List UInt8)}
    (areFrames : ∀ frame ∈ frames, Frame frame) (position : ℕ) :
    compressedFormat.rejections position frames.flatten = [] := by
  induction frames generalizing position with
  | nil => exact compressedFormat.rejections_of_short (by simp [compressedFormat])
  | cons frame frames ih =>
      rcases List.forall_mem_cons.mp areFrames with ⟨first, rest⟩
      rw [List.flatten_cons, first.rejections, ih rest]

/-! ### What the sender may put on the wire -/

/-- The packets one call of `artosyn_sdio_send_data` copies into its batches. -/
def packedBy (sender : LinkTx) : List (List UInt8) :=
  (((artosynSdioSendData sender).dataLog.drop sender.dataLog.length).filter
    (·.2.isStaged)).map Prod.fst

/-- A packet the call packs has passed the sender's only test. -/
theorem supported_of_packedBy {sender : LinkTx} {skb : List UInt8}
    (packed : skb ∈ packedBy sender) :
    iphdrSize ≤ skb.length ∧ byteAt skb 0 = 0x45 := by
  rcases artosynSdioSendData_stream sender with ⟨taken, explained, -, log, -⟩
  rw [packedBy, log, List.drop_left] at packed
  rcases List.mem_map.mp packed with ⟨⟨packet, outcome⟩, member, rfl⟩
  rcases List.mem_filter.mp member with ⟨inTaken, staged⟩
  have supported : dataKind.supported packet = true := by
    cases outcome with
    | staged transfer => exact (explained _ inTaken).1
    | unsupported | noCredit | tooLong => simp [TxOutcome.isStaged] at staged
  simp only [dataKind, Bool.and_eq_true, decide_eq_true_eq, beq_iff_eq] at supported
  exact supported

theorem length_wireSize {skb : List UInt8} (long : iphdrSize ≤ skb.length)
    (totalLength : be16At skb 2 = skb.length) :
    wireSize (compressedTotlen (artosynSdioBuildIpHead skb)) =
      (artosynSdioBuildIpHead skb).length := by
  rw [compressedTotlen, (artosynSdioBuildIpHead_fields long).2.2, totalLength,
    length_artosynSdioBuildIpHead]
  simp only [wireSize, ipCompressedHdr, iphdrSize, ipHeadShrink] at long ⊢
  omega

theorem believable_artosynSdioBuildIpHead_iff {skb : List UInt8} (long : iphdrSize ≤ skb.length)
    (marker : byteAt skb 0 = 0x45) (totalLength : be16At skb 2 = skb.length) :
    artosynIpHdrPlausible (artosynSdioBuildIpHead skb)
        (compressedTotlen (artosynSdioBuildIpHead skb)) = true ↔
      LinkCarries (byteAt skb 9) ∧ iphdrSize < skb.length ∧ skb.length ≤ arsdioIpFrameMax := by
  rcases artosynSdioBuildIpHead_fields long with ⟨first, protocol, length⟩
  rw [artosynIpHdrPlausible_iff, compressedTotlen, first, protocol, length, totalLength]
  simp [marker]

/-- What a peer makes of a packet's frame: the header is plausible, it announces the bytes that
were written, and the receiver emits the frame and is aligned behind it. -/
structure PeerParses (skb : List UInt8) : Prop where
  believable : artosynIpHdrPlausible (artosynSdioBuildIpHead skb)
    (compressedTotlen (artosynSdioBuildIpHead skb)) = true
  need : wireSize (compressedTotlen (artosynSdioBuildIpHead skb)) =
    (artosynSdioBuildIpHead skb).length
  aligned : ∀ (ipFastCsum : List UInt8 → ℕ → UInt16) (netdevAllocSkb : ℕ → Bool)
    (pfx : LinkPrefix), (∀ n, netdevAllocSkb n = true) → ∀ later,
      (artosynRxIpStream ipFastCsum netdevAllocSkb pfx .initial
        (artosynSdioBuildIpHead skb ++ later)).finished =
      artosynSdioBuildIpHead skb ::
        (artosynRxIpStream ipFastCsum netdevAllocSkb pfx .initial later).finished

theorem Frame.peerParses {skb : List UInt8} (isFrame : Frame (artosynSdioBuildIpHead skb)) :
    PeerParses skb where
  believable := isFrame.believable
  need := isFrame.need
  aligned := by
    intro ipFastCsum netdevAllocSkb pfx allocated later
    rw [artosynRxIpStream_initial ipFastCsum pfx allocated,
      artosynRxIpStream_initial ipFastCsum pfx allocated, isFrame.scan]

/-- The peer parses what is packed exactly if it is a packet of a carried protocol with a
payload, and no longer than the largest believable frame. -/
theorem peerParses_iff (sender : LinkTx) {skb : List UInt8}
    (packed : skb ∈ packedBy sender) (totalLength : be16At skb 2 = skb.length) :
    PeerParses skb ↔
      LinkCarries (byteAt skb 9) ∧ iphdrSize < skb.length ∧ skb.length ≤ arsdioIpFrameMax := by
  rcases supported_of_packedBy packed with ⟨long, marker⟩
  rw [← believable_artosynSdioBuildIpHead_iff long marker totalLength]
  constructor
  · exact fun parses => parses.believable
  · exact fun believable => Frame.peerParses ⟨believable, length_wireSize long totalLength⟩

/-- A TCP packet with four bytes of payload. -/
theorem peerParses_tcp :
    PeerParses [0x45, 0, 0, 24, 0, 1, 0, 0, 64, 6, 0, 0, 10, 0, 0, 1, 10, 0, 0, 2, 1, 2, 3, 4] :=
  (peerParses_iff
    { LinkTx.initial (fun _ => 0) 40960 with
      txWriteAcc := 512
      dataTxq :=
        [[0x45, 0, 0, 24, 0, 1, 0, 0, 64, 6, 0, 0, 10, 0, 0, 1, 10, 0, 0, 2, 1, 2, 3, 4]] }
    (by decide +kernel) (by decide)).mpr (by decide)

/-- A GRE packet is accepted and packed, and the peer does not parse it. -/
theorem not_peerParses_gre :
    ¬∀ (dev sender : LinkTx) (skb : List UInt8),
      (artosynSdioNetStartXmit dev skb).2.dataTxq = dev.dataTxq ++ [skb] →
      skb ∈ packedBy sender → be16At skb 2 = skb.length → PeerParses skb := by
  intro parses
  have gre := parses (.initial (fun _ => 0) 40960)
    { LinkTx.initial (fun _ => 0) 40960 with
      txWriteAcc := 512
      dataTxq :=
        [[0x45, 0, 0, 24, 0, 1, 0, 0, 64, 47, 0, 0, 10, 0, 0, 1, 10, 0, 0, 2, 1, 2, 3, 4]] }
    [0x45, 0, 0, 24, 0, 1, 0, 0, 64, 47, 0, 0, 10, 0, 0, 1, 10, 0, 0, 2, 1, 2, 3, 4]
    (by decide +kernel) (by decide +kernel) (by decide)
  exact absurd gre.believable (by decide)

end MlKernel.Sdio
