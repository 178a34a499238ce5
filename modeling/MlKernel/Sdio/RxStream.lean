import MlKernel.Lib.Framing
import MlKernel.Sdio.IpHead

/-!
# The tunnel receive path

`artosyn_rx_ip_stream` walks the payload of one 0xCC transfer and parks what a
transfer leaves unfinished: the head of a 12-byte compressed header, or a frame
whose body is still to come.  The definitions follow the source; the format the
two ends share is `compressedFormat`, an instance of `Framing.Format`, and
`artosynRxIpStream_cases` says everything one transfer can do in terms of its
scan.

The receiver keeps exactly the unfinished tail of the stream, with one
exception.  When a header parked at the end of a transfer turns out not to be
one, all twelve bytes are skipped, where the walk inside a transfer skips one
byte and looks again.  A frame that starts in those bytes is lost.
-/

namespace MlKernel.Sdio

/-- The frame length a compressed header gives: bytes 4 and 5, big-endian. -/
def compressedTotlen (p : List UInt8) : ℕ := be16At p 4

def artosynIpHdrPlausible (p : List UInt8) (totlen : ℕ) : Bool :=
  if byteAt p 0 ≠ 0x45 then false
  else if byteAt p 1 ≠ ipprotoUdp ∧ byteAt p 1 ≠ ipprotoTcp ∧
      byteAt p 1 ≠ ipprotoIcmp ∧ byteAt p 1 ≠ ipprotoIgmp then false
  else decide (iphdrSize < totlen) && decide (totlen ≤ arsdioIpFrameMax)

/-- The on-wire size of a frame: the compressed header and the payload behind it. -/
def wireSize (totlen : ℕ) : ℕ := ipCompressedHdr + (totlen - iphdrSize)

/-- The reassembly state of `struct artosyn_sdio_eth`, the receive counters, and a record
of what was handed on.  `hdr_carry_len` is the length of `hdrCarry`. -/
structure RxEth where
  partialSkb : Option (List UInt8)
  partialSkbLeft : ℕ
  hdrCarry : List UInt8
  /-- The `netdev_alloc_skb` calls made so far. -/
  skbAllocs : ℕ
  /-- The frames handed to `artosyn_rx_finish_ip`, oldest first. -/
  finished : List (List UInt8)
  /-- The packets handed to `netif_rx`, oldest first. -/
  netifRx : List (List UInt8)
  totalRxPkts : ℕ
  totalRxBytes : ℕ
  rxFrameErrors : ℕ
  deriving DecidableEq

def RxEth.initial : RxEth where
  partialSkb := none
  partialSkbLeft := 0
  hdrCarry := []
  skbAllocs := 0
  finished := []
  netifRx := []
  totalRxPkts := 0
  totalRxBytes := 0
  rxFrameErrors := 0

section Receiver

/-! The kernel's checksum routine, the outcome of the `n`-th skb allocation, and the link
prefix are what the receiver takes from outside. -/

variable (ipFastCsum : List UInt8 → ℕ → UInt16) (netdevAllocSkb : ℕ → Bool) (pfx : LinkPrefix)

def artosynRxFinishIp (eth : RxEth) (skb : List UInt8) : RxEth :=
  let packet := artosynSdioRestoreIpHead ipFastCsum pfx skb
  { eth with
    finished := eth.finished ++ [skb]
    netifRx := eth.netifRx ++ [packet]
    totalRxPkts := eth.totalRxPkts + 1
    totalRxBytes := eth.totalRxBytes + packet.length }

/-- The end of `artosyn_rx_ip_stream`: one frame error per transfer with skipped bytes. -/
def countJunk (eth : RxEth) (junk : ℕ) : RxEth :=
  if junk = 0 then eth else { eth with rxFrameErrors := eth.rxFrameErrors + 1 }

/-- The `while (off < len)` walk over what is left of the transfer. -/
def rxWalk (eth : RxEth) (junk : ℕ) (p : List UInt8) : RxEth :=
  match p with
  | [] => countJunk eth junk
  | first :: tail =>
      if first ≠ 0x45 then rxWalk eth (junk + 1) tail
      else if (first :: tail).length < ipCompressedHdr then
        { eth with hdrCarry := first :: tail }
      else
        let totlen := compressedTotlen (first :: tail)
        if artosynIpHdrPlausible (first :: tail) totlen = false then
          rxWalk eth (junk + 1) tail
        else
          let need := wireSize totlen
          if netdevAllocSkb eth.skbAllocs = false then
            countJunk { eth with skbAllocs := eth.skbAllocs + 1 } junk
          else
            let eth := { eth with skbAllocs := eth.skbAllocs + 1 }
            if (first :: tail).length < need then
              { eth with
                partialSkb := some (first :: tail)
                partialSkbLeft := need - (first :: tail).length }
            else
              rxWalk (artosynRxFinishIp ipFastCsum pfx eth ((first :: tail).take need)) junk
                ((first :: tail).drop need)
termination_by p.length
decreasing_by
  · simp
  · simp
  · simp only [wireSize, ipCompressedHdr, List.length_drop, List.length_cons]
    omega

/-- The part of `artosyn_rx_ip_stream` that finishes a parked frame, and the walk behind it. -/
def rxResume (eth : RxEth) (junk : ℕ) (p : List UInt8) : RxEth :=
  match eth.partialSkb with
  | none => rxWalk ipFastCsum netdevAllocSkb pfx eth junk p
  | some skb =>
      let take := min eth.partialSkbLeft p.length
      let skb := skb ++ p.take take
      let left := eth.partialSkbLeft - take
      if left ≠ 0 then { eth with partialSkb := some skb, partialSkbLeft := left }
      else
        let eth := { eth with partialSkbLeft := left }
        let eth := artosynRxFinishIp ipFastCsum pfx eth skb
        rxWalk ipFastCsum netdevAllocSkb pfx { eth with partialSkb := none } junk (p.drop take)

def artosynRxIpStream (eth : RxEth) (buf : List UInt8) : RxEth :=
  if eth.hdrCarry = [] then rxResume ipFastCsum netdevAllocSkb pfx eth 0 buf
  else
    let take := min (ipCompressedHdr - eth.hdrCarry.length) buf.length
    let header := eth.hdrCarry ++ buf.take take
    if header.length < ipCompressedHdr then { eth with hdrCarry := header }
    else
      let eth := { eth with hdrCarry := [] }
      let totlen := compressedTotlen header
      if artosynIpHdrPlausible header totlen then
        let need := wireSize totlen
        let allocated := netdevAllocSkb eth.skbAllocs
        let eth := { eth with skbAllocs := eth.skbAllocs + 1 }
        if allocated then
          rxResume ipFastCsum netdevAllocSkb pfx
            { eth with partialSkb := some header, partialSkbLeft := need - ipCompressedHdr } 0
            (buf.drop take)
        else rxResume ipFastCsum netdevAllocSkb pfx eth 0 (buf.drop take)
      else rxResume ipFastCsum netdevAllocSkb pfx eth ipCompressedHdr (buf.drop take)

def rxTransfers (eth : RxEth) (transfers : List (List UInt8)) : RxEth :=
  transfers.foldl (artosynRxIpStream ipFastCsum netdevAllocSkb pfx) eth

end Receiver

/-! ### What a transfer does to the stream -/

theorem artosynIpHdrPlausible_append {p : List UInt8} (later : List UInt8) (totlen : ℕ)
    (complete : ipCompressedHdr ≤ p.length) :
    artosynIpHdrPlausible (p ++ later) totlen = artosynIpHdrPlausible p totlen := by
  simp only [ipCompressedHdr] at complete
  simp only [artosynIpHdrPlausible, byteAt_append_left later (show 0 < p.length by omega),
    byteAt_append_left later (show 1 < p.length by omega)]

theorem compressedTotlen_append {p : List UInt8} (later : List UInt8)
    (complete : ipCompressedHdr ≤ p.length) :
    compressedTotlen (p ++ later) = compressedTotlen p := by
  simp only [ipCompressedHdr] at complete
  exact be16At_append_left later (by omega)

/-- The frame format of the tunnel. -/
def compressedFormat : Framing.Format UInt8 where
  marker first := first == 0x45
  headerLength := ipCompressedHdr
  announced p :=
    if artosynIpHdrPlausible p (compressedTotlen p) then some (wireSize (compressedTotlen p))
    else none
  headerLength_pos := by simp
  headerLength_le_announced := by
    intro stream length announcement
    split at announcement
    · cases announcement
      simp [wireSize]
    · cases announcement
  announced_append := by
    intro stream later complete
    simp only [compressedTotlen_append later complete,
      artosynIpHdrPlausible_append later _ complete]

theorem compressedFormat_announced_of_believable {p : List UInt8}
    (believable : artosynIpHdrPlausible p (compressedTotlen p) = true) :
    compressedFormat.announced p = some (wireSize (compressedTotlen p)) :=
  if_pos believable

theorem compressedFormat_announced_eq_none {p : List UInt8}
    (unbelievable : artosynIpHdrPlausible p (compressedTotlen p) = false) :
    compressedFormat.announced p = none :=
  if_neg (by simp [unbelievable])

theorem ipCompressedHdr_lt_of_announced {p : List UInt8} {length : ℕ}
    (announcement : compressedFormat.announced p = some length) : ipCompressedHdr < length := by
  simp only [compressedFormat] at announcement
  split at announcement
  · rename_i believable
    cases announcement
    simp only [artosynIpHdrPlausible] at believable
    split at believable
    · cases believable
    · split at believable
      · cases believable
      · simp only [Bool.and_eq_true, decide_eq_true_eq] at believable
        have payload := believable.1
        simp only [iphdrSize] at payload
        simp only [wireSize, iphdrSize, ipCompressedHdr]
        omega
  · cases announcement

/-- The receiver has parked this unfinished tail of the stream. -/
inductive Parked (eth : RxEth) : List UInt8 → Prop where
  | nothing (noCarry : eth.hdrCarry = []) (noPartial : eth.partialSkb = none) : Parked eth []
  | header {first : UInt8} {tail : List UInt8} (carry : eth.hdrCarry = first :: tail)
      (noPartial : eth.partialSkb = none) (marked : compressedFormat.marker first = true)
      (short : (first :: tail).length < ipCompressedHdr) : Parked eth (first :: tail)
  | frame {first : UInt8} {tail : List UInt8} {length : ℕ} (noCarry : eth.hdrCarry = [])
      (partialSkb : eth.partialSkb = some (first :: tail))
      (marked : compressedFormat.marker first = true)
      (announcement : compressedFormat.announced (first :: tail) = some length)
      (left : (first :: tail).length + eth.partialSkbLeft = length)
      (unfinished : 0 < eth.partialSkbLeft)
      (complete : ipCompressedHdr ≤ (first :: tail).length) : Parked eth (first :: tail)

theorem Parked.scan_eq {eth : RxEth} {pending : List UInt8} (parked : Parked eth pending) :
    compressedFormat.scan pending = ([], pending) := by
  cases parked with
  | nothing => exact compressedFormat.scan_nil
  | header _ _ marked short => exact compressedFormat.scan_of_short marked short
  | frame _ _ marked announcement left unfinished =>
      exact compressedFormat.scan_of_unfinished marked announcement (by omega)

section Receiver

variable {ipFastCsum : List UInt8 → ℕ → UInt16} {netdevAllocSkb : ℕ → Bool} {pfx : LinkPrefix}

/-- One transfer emitted the frames a scan finds and parked the tail the scan leaves. -/
def ScansTo (before after : RxEth) (stream : List UInt8) : Prop :=
  after.finished = before.finished ++ (compressedFormat.scan stream).1 ∧
    Parked after (compressedFormat.scan stream).2

theorem ScansTo.of_finished_eq {before middle after : RxEth} {stream : List UInt8}
    (same : middle.finished = before.finished) (scansTo : ScansTo middle after stream) :
    ScansTo before after stream := by
  rw [ScansTo, ← same]
  exact scansTo

theorem ScansTo.of_frame {before middle after : RxEth} {stream frame rest : List UInt8}
    (scanned : compressedFormat.scan stream =
      (frame :: (compressedFormat.scan rest).1, (compressedFormat.scan rest).2))
    (emitted : middle.finished = before.finished ++ [frame])
    (remainder : ScansTo middle after rest) : ScansTo before after stream := by
  rcases remainder with ⟨finished, parked⟩
  rw [ScansTo, scanned]
  refine ⟨?_, parked⟩
  rw [finished, emitted, List.append_assoc]
  rfl

theorem countJunk_scansTo_nil {eth : RxEth} (noCarry : eth.hdrCarry = [])
    (noPartial : eth.partialSkb = none) (junk : ℕ) : ScansTo eth (countJunk eth junk) [] := by
  simp only [ScansTo, Framing.Format.scan_nil, List.append_nil, countJunk]
  split
  · exact ⟨rfl, .nothing noCarry noPartial⟩
  · exact ⟨rfl, .nothing noCarry noPartial⟩

theorem rxWalk_scansTo (allocated : ∀ n, netdevAllocSkb n = true) {eth : RxEth} {junk : ℕ}
    {p : List UInt8} (noCarry : eth.hdrCarry = []) (noPartial : eth.partialSkb = none) :
    ScansTo eth (rxWalk ipFastCsum netdevAllocSkb pfx eth junk p) p := by
  fun_induction rxWalk ipFastCsum netdevAllocSkb pfx eth junk p with
  | case1 eth junk => exact countJunk_scansTo_nil noCarry noPartial junk
  | case2 eth junk first tail notMarker ih =>
      have notMarker : compressedFormat.marker first = false := by
        simpa [compressedFormat] using notMarker
      rw [ScansTo, compressedFormat.scan_cons_of_not_marker notMarker]
      exact ih noCarry noPartial
  | case3 eth junk first tail marker short =>
      have marked : compressedFormat.marker first = true := by
        simpa [compressedFormat] using marker
      rw [ScansTo, compressedFormat.scan_of_short marked short]
      exact ⟨by simp, .header rfl noPartial marked short⟩
  | case4 eth junk first tail marker complete totlen unbelievable ih =>
      rw [ScansTo, compressedFormat.scan_of_rejected (Nat.le_of_not_lt complete)
        (compressedFormat_announced_eq_none unbelievable)]
      exact ih noCarry noPartial
  | case5 eth junk first tail marker complete totlen believable failed =>
      rw [allocated] at failed
      cases failed
  | case6 eth junk first tail marker complete totlen believable need got eth' unfinished =>
      have marked : compressedFormat.marker first = true := by
        simpa [compressedFormat] using marker
      have announcement := compressedFormat_announced_of_believable (by simpa using believable)
      rw [ScansTo, compressedFormat.scan_of_unfinished marked announcement unfinished]
      refine ⟨by simp [eth'], Parked.frame ?_ rfl marked announcement ?_ ?_ ?_⟩
      · exact noCarry
      · change _ + (need - _) = need
        omega
      · change 0 < need - _
        omega
      · exact Nat.le_of_not_lt complete
  | case7 eth junk first tail marker complete totlen believable need got eth' finished ih =>
      have marked : compressedFormat.marker first = true := by
        simpa [compressedFormat] using marker
      have announcement := compressedFormat_announced_of_believable (by simpa using believable)
      exact .of_frame
        (compressedFormat.scan_of_frame marked announcement (Nat.le_of_not_lt finished)) rfl
        (ih noCarry noPartial)

theorem rxResume_of_unfinished {eth : RxEth} {junk : ℕ} {skb p : List UInt8}
    (partialSkb : eth.partialSkb = some skb) (more : p.length < eth.partialSkbLeft) :
    rxResume ipFastCsum netdevAllocSkb pfx eth junk p =
      { eth with
        partialSkb := some (skb ++ p), partialSkbLeft := eth.partialSkbLeft - p.length } := by
  have takeAll : min eth.partialSkbLeft p.length = p.length := by omega
  simp only [rxResume, partialSkb]
  rw [takeAll, if_pos (by omega), List.take_length]

theorem rxResume_of_finished {eth : RxEth} {junk : ℕ} {skb p : List UInt8}
    (partialSkb : eth.partialSkb = some skb) (finished : eth.partialSkbLeft ≤ p.length) :
    rxResume ipFastCsum netdevAllocSkb pfx eth junk p =
      rxWalk ipFastCsum netdevAllocSkb pfx
        { artosynRxFinishIp ipFastCsum pfx { eth with partialSkbLeft := 0 }
          (skb ++ p.take eth.partialSkbLeft) with partialSkb := none }
        junk (p.drop eth.partialSkbLeft) := by
  have takeLeft : min eth.partialSkbLeft p.length = eth.partialSkbLeft := by omega
  simp only [rxResume, partialSkb]
  rw [takeLeft, if_neg (by omega), Nat.sub_self]

/-- Finishing a parked frame and walking on is scanning the parked bytes and the new ones. -/
theorem rxResume_scansTo (allocated : ∀ n, netdevAllocSkb n = true) {eth : RxEth} {junk : ℕ}
    {pending p : List UInt8} (noCarry : eth.hdrCarry = []) (parked : Parked eth pending) :
    ScansTo eth (rxResume ipFastCsum netdevAllocSkb pfx eth junk p) (pending ++ p) := by
  cases parked with
  | nothing _ noPartial =>
      simp only [rxResume, noPartial]
      exact rxWalk_scansTo allocated noCarry noPartial
  | header carry =>
      rw [noCarry] at carry
      cases carry
  | @frame first tail length _ partialSkb marked announcement left unfinished complete =>
      have laterAnnouncement : compressedFormat.announced (first :: (tail ++ p)) = some length := by
        rw [← List.cons_append, compressedFormat.announced_append p complete]
        exact announcement
      by_cases more : p.length < eth.partialSkbLeft
      · have scanned : compressedFormat.scan (first :: (tail ++ p)) = ([], first :: (tail ++ p)) :=
          compressedFormat.scan_of_unfinished marked laterAnnouncement (by
            simp only [List.length_cons, List.length_append] at left ⊢
            omega)
        rw [rxResume_of_unfinished partialSkb more, ScansTo, List.cons_append, scanned]
        refine ⟨by simp, Parked.frame noCarry rfl marked laterAnnouncement ?_ ?_ ?_⟩
        · simp only [List.length_cons, List.length_append] at left ⊢
          omega
        · change 0 < eth.partialSkbLeft - p.length
          omega
        · simp only [List.length_cons, List.length_append] at complete ⊢
          omega
      · have frameEnd : length = (first :: tail).length + eth.partialSkbLeft := left.symm
        have scanned : compressedFormat.scan ((first :: tail) ++ p) =
            (((first :: tail) ++ p.take eth.partialSkbLeft) ::
                (compressedFormat.scan (p.drop eth.partialSkbLeft)).1,
              (compressedFormat.scan (p.drop eth.partialSkbLeft)).2) := by
          rw [List.cons_append, compressedFormat.scan_of_frame marked laterAnnouncement (by
              simp only [List.length_cons, List.length_append] at left ⊢
              omega),
            ← List.cons_append, frameEnd, List.take_length_add_append,
            List.drop_length_add_append]
        rw [rxResume_of_finished partialSkb (Nat.le_of_not_lt more)]
        exact .of_frame scanned rfl (rxWalk_scansTo allocated noCarry rfl)

theorem artosynRxIpStream_of_short {eth : RxEth} {first : UInt8} {tail buf : List UInt8}
    (carry : eth.hdrCarry = first :: tail)
    (short : (first :: tail ++ buf).length < ipCompressedHdr) :
    artosynRxIpStream ipFastCsum netdevAllocSkb pfx eth buf =
      { eth with hdrCarry := first :: tail ++ buf } := by
  have takeAll : min (ipCompressedHdr - (first :: tail).length) buf.length = buf.length := by
    simp only [List.length_append] at short
    omega
  simp only [artosynRxIpStream, carry]
  rw [if_neg (by simp), takeAll, List.take_length, if_pos short]

/-- The header a transfer completes, and what the transfer carries behind it. -/
theorem exists_completed_header {first : UInt8} {tail buf : List UInt8}
    (short : (first :: tail).length < ipCompressedHdr)
    (complete : ipCompressedHdr ≤ (first :: tail ++ buf).length) :
    ∃ headerTail body, (first :: headerTail).length = ipCompressedHdr ∧
      first :: tail ++ buf = first :: headerTail ++ body ∧
      first :: headerTail = first :: tail ++ buf.take (ipCompressedHdr - (first :: tail).length) ∧
      body = buf.drop (ipCompressedHdr - (first :: tail).length) := by
  refine ⟨tail ++ buf.take (ipCompressedHdr - (first :: tail).length),
    buf.drop (ipCompressedHdr - (first :: tail).length), ?_, ?_, rfl, rfl⟩
  · simp only [List.length_append, List.length_cons, List.length_take] at short complete ⊢
    omega
  · simp only [List.cons_append, List.append_assoc, List.take_append_drop]

theorem artosynRxIpStream_of_completed (allocated : ∀ n, netdevAllocSkb n = true) {eth : RxEth}
    {first : UInt8} {tail buf headerTail : List UInt8} (carry : eth.hdrCarry = first :: tail)
    (complete : ipCompressedHdr ≤ (first :: tail ++ buf).length)
    (headerLength : (first :: headerTail).length = ipCompressedHdr)
    (headerEq : first :: headerTail =
      first :: tail ++ buf.take (ipCompressedHdr - (first :: tail).length)) :
    artosynRxIpStream ipFastCsum netdevAllocSkb pfx eth buf =
      let header := first :: headerTail
      let body := buf.drop (ipCompressedHdr - (first :: tail).length)
      if artosynIpHdrPlausible header (compressedTotlen header) then
        rxResume ipFastCsum netdevAllocSkb pfx
          { eth with
            hdrCarry := []
            skbAllocs := eth.skbAllocs + 1
            partialSkb := some header
            partialSkbLeft := wireSize (compressedTotlen header) - ipCompressedHdr } 0 body
      else rxResume ipFastCsum netdevAllocSkb pfx { eth with hdrCarry := [] } ipCompressedHdr
        body := by
  have takeRest : min (ipCompressedHdr - (first :: tail).length) buf.length =
      ipCompressedHdr - (first :: tail).length := by
    simp only [List.length_append] at complete
    omega
  simp only [artosynRxIpStream, carry, takeRest, ← headerEq, allocated]
  rw [if_neg (by simp), if_neg (by omega)]
  simp only [if_true]

/-- A header just completed is a parked frame without a body. -/
theorem Parked.of_header {eth : RxEth} {first : UInt8} {headerTail : List UInt8} {length : ℕ}
    (noCarry : eth.hdrCarry = []) (partialSkb : eth.partialSkb = some (first :: headerTail))
    (marked : compressedFormat.marker first = true)
    (headerLength : (first :: headerTail).length = ipCompressedHdr)
    (announcement : compressedFormat.announced (first :: headerTail) = some length)
    (left : eth.partialSkbLeft = length - ipCompressedHdr) :
    Parked eth (first :: headerTail) := by
  have longer := ipCompressedHdr_lt_of_announced announcement
  exact .frame noCarry partialSkb marked announcement (by omega) (by omega) (by omega)

variable (ipFastCsum pfx) in
/-- Everything one transfer can do: it resumes the scan where the last one stopped, or, when
the header it completes is turned down, it resumes it behind all of that header. -/
theorem artosynRxIpStream_cases (allocated : ∀ n, netdevAllocSkb n = true) {eth : RxEth}
    {pending : List UInt8} (buf : List UInt8) (parked : Parked eth pending) :
    ScansTo eth (artosynRxIpStream ipFastCsum netdevAllocSkb pfx eth buf) (pending ++ buf) ∨
      ((∃ first tail, pending = first :: tail ∧ compressedFormat.marker first = true) ∧
        pending.length < ipCompressedHdr ∧ ipCompressedHdr ≤ (pending ++ buf).length ∧
        compressedFormat.announced (pending ++ buf) = none ∧
        ScansTo eth (artosynRxIpStream ipFastCsum netdevAllocSkb pfx eth buf)
          ((pending ++ buf).drop ipCompressedHdr)) := by
  cases parked with
  | nothing noCarry noPartial =>
      left
      rw [artosynRxIpStream, if_pos noCarry]
      exact rxResume_scansTo allocated noCarry (.nothing noCarry noPartial)
  | frame noCarry partialSkb marked announcement left unfinished complete =>
      left
      rw [artosynRxIpStream, if_pos noCarry]
      exact rxResume_scansTo allocated noCarry
        (.frame noCarry partialSkb marked announcement left unfinished complete)
  | @header first tail carry noPartial marked short =>
      by_cases stillShort : (first :: tail ++ buf).length < ipCompressedHdr
      · left
        have scanned : compressedFormat.scan (first :: tail ++ buf) = ([], first :: tail ++ buf) :=
          compressedFormat.scan_of_short marked stillShort
        rw [artosynRxIpStream_of_short carry stillShort, ScansTo, scanned]
        exact ⟨by simp, .header rfl noPartial marked stillShort⟩
      · have complete := Nat.le_of_not_lt stillShort
        rcases exists_completed_header short complete with
          ⟨headerTail, body, headerLength, joined, headerEq, bodyEq⟩
        have sameHeader :=
          compressedFormat.announced_append body (Nat.le_of_eq headerLength.symm)
        rw [artosynRxIpStream_of_completed allocated carry complete headerLength headerEq,
          ← bodyEq, joined]
        by_cases believable : artosynIpHdrPlausible (first :: headerTail)
            (compressedTotlen (first :: headerTail)) = true
        · left
          simp only [believable, if_true]
          exact .of_finished_eq rfl (rxResume_scansTo allocated rfl
            (.of_header rfl rfl marked headerLength
              (compressedFormat_announced_of_believable believable) rfl))
        · right
          have unbelievable := Bool.eq_false_iff.mpr believable
          refine ⟨⟨first, tail, rfl, marked⟩, short, ?_, ?_, ?_⟩
          · rw [← joined]
            exact complete
          · rw [sameHeader, compressedFormat_announced_eq_none unbelievable]
          · simp only [unbelievable, Bool.false_eq_true, if_false]
            rw [← headerLength, List.drop_left]
            change ScansTo _ _ ([] ++ body)
            exact .of_finished_eq rfl (rxResume_scansTo allocated rfl (.nothing rfl noPartial))

/-- Every finished frame has been handed on, rebuilt. -/
def HandedOn (ipFastCsum : List UInt8 → ℕ → UInt16) (pfx : LinkPrefix) (eth : RxEth) : Prop :=
  eth.netifRx = eth.finished.map (artosynSdioRestoreIpHead ipFastCsum pfx)

theorem handedOn_artosynRxFinishIp {eth : RxEth} (handedOn : HandedOn ipFastCsum pfx eth)
    (skb : List UInt8) : HandedOn ipFastCsum pfx (artosynRxFinishIp ipFastCsum pfx eth skb) := by
  rw [HandedOn] at handedOn
  simp [HandedOn, artosynRxFinishIp, handedOn]

theorem handedOn_rxWalk {eth : RxEth} {junk : ℕ} {p : List UInt8}
    (handedOn : HandedOn ipFastCsum pfx eth) :
    HandedOn ipFastCsum pfx (rxWalk ipFastCsum netdevAllocSkb pfx eth junk p) := by
  have counted : ∀ {eth : RxEth} {junk : ℕ}, HandedOn ipFastCsum pfx eth →
      HandedOn ipFastCsum pfx (countJunk eth junk) := by
    intro eth junk handedOn
    rw [countJunk]
    split <;> exact handedOn
  fun_induction rxWalk ipFastCsum netdevAllocSkb pfx eth junk p with
  | case1 => exact counted handedOn
  | case2 eth junk first tail notMarker ih => exact ih handedOn
  | case3 => exact handedOn
  | case4 eth junk first tail marker complete totlen unbelievable ih => exact ih handedOn
  | case5 => exact counted handedOn
  | case6 => exact handedOn
  | case7 eth junk first tail marker complete totlen believable need got eth' finished ih =>
      exact ih (handedOn_artosynRxFinishIp handedOn _)

theorem handedOn_rxResume {eth : RxEth} {junk : ℕ} {p : List UInt8}
    (handedOn : HandedOn ipFastCsum pfx eth) :
    HandedOn ipFastCsum pfx (rxResume ipFastCsum netdevAllocSkb pfx eth junk p) := by
  cases partialSkb : eth.partialSkb with
  | none =>
      simp only [rxResume, partialSkb]
      exact handedOn_rxWalk handedOn
  | some skb =>
      by_cases more : p.length < eth.partialSkbLeft
      · rw [rxResume_of_unfinished partialSkb more]
        exact handedOn
      · rw [rxResume_of_finished partialSkb (Nat.le_of_not_lt more)]
        exact handedOn_rxWalk (handedOn_artosynRxFinishIp handedOn _)

theorem handedOn_artosynRxIpStream {eth : RxEth} (buf : List UInt8)
    (handedOn : HandedOn ipFastCsum pfx eth) :
    HandedOn ipFastCsum pfx (artosynRxIpStream ipFastCsum netdevAllocSkb pfx eth buf) := by
  simp only [artosynRxIpStream]
  split
  · exact handedOn_rxResume handedOn
  · split
    · exact handedOn
    · split
      · split
        · exact handedOn_rxResume handedOn
        · exact handedOn_rxResume handedOn
      · exact handedOn_rxResume handedOn

theorem handedOn_rxTransfers {eth : RxEth} (transfers : List (List UInt8))
    (handedOn : HandedOn ipFastCsum pfx eth) :
    HandedOn ipFastCsum pfx (rxTransfers ipFastCsum netdevAllocSkb pfx eth transfers) := by
  induction transfers generalizing eth with
  | nil => exact handedOn
  | cons buf later ih => exact ih (handedOn_artosynRxIpStream buf handedOn)

end Receiver

end MlKernel.Sdio
