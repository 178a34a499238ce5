import MlKernel.Lib.Align
import MlKernel.Sdio.Basic

/-!
# Link runs

Every SDIO transfer on the link, in either direction, is a run of 512-byte blocks
that ends in the trailer `{ 0x00, type, len_lo, len_hi }`.  `artosyn_tx_flush`
builds one in the staging buffer; what lies between the payload and the trailer
is whatever the buffer held before.
-/

namespace MlKernel.Sdio

/-- The size of the block run that carries `used` payload bytes and the trailer. -/
def runSize (used : ℕ) : ℕ := Align.up (used + linkTrailerLen) arsdioBlock

theorem arsdioBlock_dvd_runSize (used : ℕ) : arsdioBlock ∣ runSize used :=
  Align.dvd_up _ _

theorem le_runSize (used : ℕ) : used + linkTrailerLen ≤ runSize used :=
  Align.le_up _ (by simp)

theorem arsdioBlock_le_runSize (used : ℕ) : arsdioBlock ≤ runSize used := by
  have positive := le_runSize used
  simp only [linkTrailerLen] at positive
  exact Nat.le_of_dvd (by omega) (arsdioBlock_dvd_runSize used)

theorem runSize_mono {used more : ℕ} (le : used ≤ more) : runSize used ≤ runSize more :=
  Align.up_mono _ (by omega)

theorem runSize_le_staging {used : ℕ} (fits : used + linkTrailerLen ≤ arsdioStaging) :
    runSize used ≤ arsdioStaging :=
  Align.up_le_of_dvd (by simp) (by decide) fits

def linkTrailer (used : ℕ) (type : UInt8) : List UInt8 :=
  [0x00, type, UInt8.ofNat (used &&& 0xff), UInt8.ofNat ((used >>> 8) &&& 0xff)]

structure TxBuf where
  bytes : List UInt8
  staged : bytes.length = arsdioStaging

/-- `memcpy` into a buffer; what would land behind its end is not written. -/
def memcpyAt (buf : List UInt8) (offset : ℕ) (src : List UInt8) : List UInt8 :=
  (buf.take offset ++ src ++ buf.drop (offset + src.length)).take buf.length

theorem length_memcpyAt (buf : List UInt8) (offset : ℕ) (src : List UInt8) :
    (memcpyAt buf offset src).length = buf.length := by
  simp only [memcpyAt, List.length_take, List.length_append, List.length_drop]
  omega

theorem memcpyAt_of_fits {buf src : List UInt8} {offset : ℕ}
    (fits : offset + src.length ≤ buf.length) :
    memcpyAt buf offset src = buf.take offset ++ src ++ buf.drop (offset + src.length) := by
  apply List.take_of_length_le
  simp only [List.length_take, List.length_append, List.length_drop]
  omega

namespace TxBuf

def copy (buf : TxBuf) (used : ℕ) (frame : List UInt8) : TxBuf where
  bytes := memcpyAt buf.bytes used frame
  staged := by rw [length_memcpyAt, buf.staged]

theorem copy_take {buf : TxBuf} {used : ℕ} {frame : List UInt8}
    (fits : used + frame.length ≤ arsdioStaging) :
    (buf.copy used frame).bytes.take (used + frame.length) = buf.bytes.take used ++ frame := by
  have staged := buf.staged
  have prefixLength : (buf.bytes.take used ++ frame).length = used + frame.length := by
    rw [List.length_append, List.length_take]
    omega
  change (memcpyAt buf.bytes used frame).take (used + frame.length) = _
  rw [memcpyAt_of_fits (by omega), ← prefixLength, List.take_left]

end TxBuf

/-- The trailer bytes stored over the last four of `blk`. -/
def storeTrailer (buf : List UInt8) (blk used : ℕ) (type : UInt8) : List UInt8 :=
  let buf := buf.set (blk - 4) 0x00
  let buf := buf.set (blk - 3) type
  let buf := buf.set (blk - 2) (UInt8.ofNat (used &&& 0xff))
  buf.set (blk - 1) (UInt8.ofNat ((used >>> 8) &&& 0xff))

theorem length_storeTrailer (buf : List UInt8) (blk used : ℕ) (type : UInt8) :
    (storeTrailer buf blk used type).length = buf.length := by
  simp [storeTrailer]

/-- The staging buffer with the trailer stored behind `used` bytes, and the run at its front. -/
def stageRun (buf : TxBuf) (used : ℕ) (type : UInt8) : TxBuf × List UInt8 :=
  let blk := runSize used
  let bytes := storeTrailer buf.bytes blk used type
  (⟨bytes, (length_storeTrailer _ _ _ _).trans buf.staged⟩, bytes.take blk)

/-- `artosyn_tx_flush`, with what its `sdio_memcpy_toio` returns: the staging buffer it leaves, the
run it hands to `sdio_memcpy_toio`, and its own result. -/
def artosynTxFlush (sdioMemcpyToio : ℤ) (buf : TxBuf) (used : ℕ) (type : UInt8) :
    TxBuf × List UInt8 × ℤ :=
  let (buf, blocks) := stageRun buf used type
  (buf, blocks, sdioMemcpyToio)

theorem set_trailer (front rest : List UInt8) (a b c d w x y z : UInt8) :
    ((((front ++ [a, b, c, d] ++ rest).set front.length w).set (front.length + 1) x).set
      (front.length + 2) y).set (front.length + 3) z = front ++ [w, x, y, z] ++ rest := by
  simp

theorem stageRun_snd {used : ℕ} (fits : used + linkTrailerLen ≤ arsdioStaging) (buf : TxBuf)
    (type : UInt8) :
    (stageRun buf used type).2 =
      buf.bytes.take (runSize used - linkTrailerLen) ++ linkTrailer used type := by
  have nonempty := arsdioBlock_le_runSize used
  have inside := runSize_le_staging fits
  rw [← buf.staged] at inside
  simp only [arsdioBlock, linkTrailerLen] at nonempty ⊢
  obtain ⟨front, trailer, rest, split, frontLength, trailerLength⟩ :
      ∃ front trailer rest, buf.bytes = front ++ trailer ++ rest ∧
        front.length = runSize used - 4 ∧ trailer.length = 4 := by
    refine ⟨buf.bytes.take (runSize used - 4), (buf.bytes.drop (runSize used - 4)).take 4,
      (buf.bytes.drop (runSize used - 4)).drop 4, ?_, ?_, ?_⟩
    · rw [List.append_assoc, List.take_append_drop, List.take_append_drop]
    · rw [List.length_take]
      omega
    · rw [List.length_take, List.length_drop]
      omega
  obtain ⟨a, b, c, d, rfl⟩ : ∃ a b c d, trailer = [a, b, c, d] := by
    match trailer, trailerLength with
    | [a, b, c, d], _ => exact ⟨a, b, c, d, rfl⟩
  have size : runSize used = front.length + 4 := by omega
  simp only [stageRun, storeTrailer, split, size, Nat.add_sub_cancel_right]
  rw [show front.length + 4 - 3 = front.length + 1 by omega,
    show front.length + 4 - 2 = front.length + 2 by omega,
    show front.length + 4 - 1 = front.length + 3 by omega, set_trailer]
  simp [linkTrailer, List.take_append, List.take_of_length_le]

theorem stageRun_snd_take {used : ℕ} (fits : used + linkTrailerLen ≤ arsdioStaging)
    (buf : TxBuf) (type : UInt8) :
    (stageRun buf used type).2.take used = buf.bytes.take used := by
  have room := le_runSize used
  have staged := buf.staged
  have inside := runSize_le_staging fits
  rw [stageRun_snd fits, List.take_append_of_le_length, List.take_take]
  · congr 1
    omega
  · rw [List.length_take]
    omega

theorem length_stageRun_snd {used : ℕ} (fits : used + linkTrailerLen ≤ arsdioStaging)
    (buf : TxBuf) (type : UInt8) : (stageRun buf used type).2.length = runSize used := by
  have room := le_runSize used
  have staged := buf.staged
  have inside := runSize_le_staging fits
  rw [stageRun_snd fits, List.length_append, List.length_take, linkTrailer]
  simp only [linkTrailerLen, List.length_cons, List.length_nil] at room ⊢
  omega

/-- A run as a sender stages it: the payload is the front of the staging buffer, and its
length fits the trailer. -/
structure LinkRun where
  type : UInt8
  txBuf : TxBuf
  used : ℕ
  known : type = linkTypeIp ∨ type = linkTypeCmd ∨ type = linkTypeAck
  fits : used + linkTrailerLen ≤ arsdioStaging

namespace LinkRun

def payload (run : LinkRun) : List UInt8 := run.txBuf.bytes.take run.used

/-- The blocks of a run. -/
def frame (run : LinkRun) : List UInt8 := (stageRun run.txBuf run.used run.type).2

/-- What lies between the payload and the trailer. -/
def padding (run : LinkRun) : List UInt8 :=
  (run.txBuf.bytes.drop run.used).take (runSize run.used - linkTrailerLen - run.used)

theorem length_payload (run : LinkRun) : run.payload.length = run.used := by
  have := run.fits
  rw [payload, List.length_take, run.txBuf.staged]
  omega

theorem frame_eq (run : LinkRun) :
    run.frame = run.payload ++ run.padding ++ linkTrailer run.used run.type := by
  have room := le_runSize run.used
  rw [frame, stageRun_snd run.fits, payload, padding, ← List.take_add]
  congr 2
  omega

theorem length_frame (run : LinkRun) : run.frame.length = runSize run.used :=
  length_stageRun_snd run.fits run.txBuf run.type

/-- A payload staged in a cleared buffer. -/
def ofPayload (type : UInt8) (payload : List UInt8)
    (known : type = linkTypeIp ∨ type = linkTypeCmd ∨ type = linkTypeAck)
    (fits : payload.length + linkTrailerLen ≤ arsdioStaging) : LinkRun where
  type := type
  txBuf :=
    { bytes := payload ++ List.replicate (arsdioStaging - payload.length) 0
      staged := by
        rw [List.length_append, List.length_replicate]
        omega }
  used := payload.length
  known := known
  fits := fits

end LinkRun

end MlKernel.Sdio
