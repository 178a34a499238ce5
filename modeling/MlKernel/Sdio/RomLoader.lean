import MlKernel.Lib.LittleEndian
import MlKernel.Lib.Tiling
import MlKernel.Sdio.Basic

/-!
# The firmware uploader

`sdio_rom_send` pushes a segment to the ROM loader as a run of "SD" frames, each a twelve-byte
header and a chunk of the segment.  A frame is written at its exact size: in block mode if that is
a multiple of 512, and otherwise in byte mode, which takes less than 512 bytes.
-/

namespace MlKernel.Sdio

@[simp] def arsdioScratch : ℕ := 4096

def sdFrameMagic : ℕ := 0x4453

@[simp] def sdFrameHdrLen : ℕ := 12

@[simp] def sdFramePayloadMax : ℕ := 0xff4

@[simp] def sdFrameBlkPayload : ℕ := arsdioBlock - sdFrameHdrLen

/-- One pass of the loop: the chunk it takes of the segment, and what it announces and writes. -/
structure SdFrame where
  off : ℕ
  chunk : ℕ
  lenField : ℕ
  wire : ℕ
  deriving DecidableEq

def SdFrame.span (frame : SdFrame) : ℕ × ℕ := (frame.off, frame.chunk)

/-- The frame the loop body sizes at an offset of a segment. -/
def sdFrame (len off : ℕ) : SdFrame :=
  let remaining := len - off
  if len = 0 then ⟨off, 0, 0, sdFrameHdrLen⟩
  else if off = 0 ∧ remaining < sdFrameBlkPayload then
    ⟨off, remaining, remaining + sdFrameHdrLen, sdFrameHdrLen + remaining + sdFrameHdrLen⟩
  else if sdFramePayloadMax ≤ remaining then
    ⟨off, sdFramePayloadMax, sdFramePayloadMax, sdFrameHdrLen + sdFramePayloadMax⟩
  else if sdFrameBlkPayload ≤ remaining then
    ⟨off, sdFrameBlkPayload, sdFrameBlkPayload, sdFrameHdrLen + sdFrameBlkPayload⟩
  else ⟨off, remaining, remaining, sdFrameHdrLen + remaining⟩

/-- What the scratch buffer holds of a frame; the `memset` leaves the rest of its size zero. -/
def SdFrame.bytes (dstAddr : UInt64) (payload : List UInt8) (frame : SdFrame) : List UInt8 :=
  LittleEndian.bytes 2 sdFrameMagic ++ LittleEndian.bytes 2 frame.lenField ++
    LittleEndian.bytes 8 (dstAddr + UInt64.ofNat frame.off).toNat ++
    (payload.drop frame.off).take frame.chunk ++
    List.replicate (frame.wire - sdFrameHdrLen - frame.chunk) 0

/-- How a frame is sized, in order of the loop body's tests. -/
theorem sdFrame_cases {len off : ℕ} (more : off < len) :
    (off = 0 ∧ len < 500 ∧ sdFrame len off = ⟨0, len, len + 12, len + 24⟩) ∨
      (4084 ≤ len - off ∧ sdFrame len off = ⟨off, 4084, 4084, 4096⟩) ∨
      (500 ≤ len - off ∧ sdFrame len off = ⟨off, 500, 500, 512⟩) ∨
      (0 < off ∧ len - off < 500 ∧
        sdFrame len off = ⟨off, len - off, len - off, len - off + 12⟩) := by
  have nonempty : len ≠ 0 := by omega
  simp only [sdFrame, if_neg nonempty]
  split
  · next tiny =>
      rcases tiny with ⟨rfl, small⟩
      left
      simp only [sdFrameBlkPayload, arsdioBlock, sdFrameHdrLen] at small
      refine ⟨rfl, small, ?_⟩
      change SdFrame.mk 0 len (len + 12) (12 + len + 12) = _
      rw [show 12 + len + 12 = len + 24 by omega]
  · next notTiny =>
    right
    split
    · next full =>
        left
        exact ⟨full, rfl⟩
    · right
      split
      · next block =>
          left
          exact ⟨block, rfl⟩
      · next tail =>
          right
          have small := Nat.lt_of_not_le tail
          refine ⟨Nat.pos_of_ne_zero fun start => notTiny ⟨start, small⟩, small, ?_⟩
          rw [Nat.add_comm]
          rfl

theorem sdFrame_off (len off : ℕ) : (sdFrame len off).off = off := by
  simp only [sdFrame]
  repeat' split
  all_goals rfl

/-- A pass that is not the last one takes something. -/
theorem sdFrame_chunk_pos {len off : ℕ} (more : off < len) : 0 < (sdFrame len off).chunk := by
  rcases sdFrame_cases more with ⟨start, small, eq⟩ | ⟨large, eq⟩ | ⟨large, eq⟩ | ⟨later, small, eq⟩
  all_goals simp only [eq]
  all_goals omega

theorem sdFrame_chunk_le {len off : ℕ} (more : off < len) :
    off + (sdFrame len off).chunk ≤ len := by
  rcases sdFrame_cases more with ⟨start, small, eq⟩ | ⟨large, eq⟩ | ⟨large, eq⟩ | ⟨later, small, eq⟩
  all_goals simp only [eq]
  all_goals omega

theorem sdFrame_chunk_wire {len off : ℕ} (more : off < len) :
    12 + (sdFrame len off).chunk ≤ (sdFrame len off).wire := by
  rcases sdFrame_cases more with ⟨start, small, eq⟩ | ⟨large, eq⟩ | ⟨large, eq⟩ | ⟨later, small, eq⟩
  all_goals simp only [eq]
  all_goals omega

theorem sdFrame_wire_le {len off : ℕ} (more : off < len) : (sdFrame len off).wire ≤ 4096 := by
  rcases sdFrame_cases more with ⟨start, small, eq⟩ | ⟨large, eq⟩ | ⟨large, eq⟩ | ⟨later, small, eq⟩
  all_goals simp only [eq]
  all_goals omega

section Uploader

variable (sdioMemcpyToio : ℕ → ℤ) (len : ℕ)

/-- The loop from an offset on, `sent` frames being out: what it returns, and the frames it
writes.  `sdioMemcpyToio` is what the call with a number returns. -/
def sdioRomSendFrom (off sent : ℕ) : ℤ × List SdFrame :=
  let frame := sdFrame len off
  let ret := sdioMemcpyToio sent
  if ret ≠ 0 then (ret, [frame])
  else if off + frame.chunk < len then
    let rest := sdioRomSendFrom (off + frame.chunk) (sent + 1)
    (rest.1, frame :: rest.2)
  else (0, [frame])
  termination_by len - off
  decreasing_by
    rename_i more
    have := sdFrame_chunk_pos (show off < len by omega)
    omega

def sdioRomSend : ℤ × List SdFrame := sdioRomSendFrom sdioMemcpyToio len 0 0

end Uploader

/-- The mainline function that splits a transfer into CMD53 commands: a block multiple within the
scratch buffer goes out in one, and so does less than a block. -/
structure SplitsByBlock (cmd53 : ℕ → List ℕ) : Prop where
  byteMode : ∀ size, 0 < size → size < arsdioBlock → cmd53 size = [size]
  blockMode : ∀ size, 0 < size → size ≤ arsdioScratch → arsdioBlock ∣ size → cmd53 size = [size]

/-- What the uploader promises of one frame. -/
structure SdFrame.WellFramed (cmd53 : ℕ → List ℕ) (dstAddr : UInt64) (payload : List UInt8)
    (frame : SdFrame) : Prop where
  size : (frame.bytes dstAddr payload).length = frame.wire
  address : LittleEndian.value (((frame.bytes dstAddr payload).drop 4).take 8) =
    (dstAddr + UInt64.ofNat frame.off).toNat
  chunk : ((frame.bytes dstAddr payload).drop sdFrameHdrLen).take frame.chunk =
    (payload.drop frame.off).take frame.chunk
  scratch : frame.wire ≤ arsdioScratch
  mode : arsdioBlock ∣ frame.wire ∨ frame.wire < arsdioBlock
  command : cmd53 frame.wire = [frame.wire]

/-- The frames of a segment tile what was written of it, all of it if no call failed. -/
structure RomFraming (cmd53 : ℕ → List ℕ) (dstAddr : UInt64) (payload : List UInt8)
    (sent : ℤ × List SdFrame) : Prop where
  tiles : ∃ stop, stop ≤ payload.length ∧ Tiles 0 (sent.2.map SdFrame.span) stop ∧
    (sent.1 = 0 → stop = payload.length)
  wellFramed : ∀ frame ∈ sent.2, frame.WellFramed cmd53 dstAddr payload

/-- The first frame of these segments is too long for byte mode and no block multiple. -/
def OverlongTiny (len : ℕ) : Prop := 489 ≤ len ∧ len ≤ 499

theorem sdioRomSendFrom_tiles (sdioMemcpyToio : ℕ → ℤ) {len off : ℕ} (sent : ℕ)
    (inside : off < len) :
    ∃ stop, stop ≤ len ∧
      Tiles off ((sdioRomSendFrom sdioMemcpyToio len off sent).2.map SdFrame.span) stop ∧
      ((sdioRomSendFrom sdioMemcpyToio len off sent).1 = 0 → stop = len) := by
  fun_induction sdioRomSendFrom sdioMemcpyToio len off sent with
  | case1 off sent frame ret failed =>
      refine ⟨off + frame.chunk, sdFrame_chunk_le inside, ?_,
        fun succeeded => absurd succeeded failed⟩
      simp [SdFrame.span, frame, sdFrame_off]
  | case2 off sent frame ret succeeded more rest ih =>
      rcases ih more with ⟨stop, within, tiles, whole⟩
      refine ⟨stop, within, ?_, whole⟩
      exact ⟨sdFrame_off len off, tiles⟩
  | case3 off sent frame ret succeeded last =>
      have le := sdFrame_chunk_le inside
      refine ⟨off + frame.chunk, le, ?_, fun _ => ?_⟩
      · simp [SdFrame.span, frame, sdFrame_off]
      · exact Nat.le_antisymm le (Nat.le_of_not_lt last)

/-- Every frame is the one its offset calls for. -/
theorem mem_sdioRomSendFrom {sdioMemcpyToio : ℕ → ℤ} {len off sent : ℕ} (inside : off < len)
    {frame : SdFrame} (mem : frame ∈ (sdioRomSendFrom sdioMemcpyToio len off sent).2) :
    frame = sdFrame len frame.off ∧ frame.off < len := by
  fun_induction sdioRomSendFrom sdioMemcpyToio len off sent with
  | case1 off sent first ret failed =>
      rw [List.mem_singleton] at mem
      subst mem
      simp [first, sdFrame_off, inside]
  | case2 off sent first ret succeeded more rest ih =>
      rcases List.mem_cons.mp mem with rfl | mem
      · simp [first, sdFrame_off, inside]
      · exact ih more mem
  | case3 off sent first ret succeeded last =>
      rw [List.mem_singleton] at mem
      subst mem
      simp [first, sdFrame_off, inside]

theorem head_mem_sdioRomSend (sdioMemcpyToio : ℕ → ℤ) (len : ℕ) :
    sdFrame len 0 ∈ (sdioRomSend sdioMemcpyToio len).2 := by
  rw [sdioRomSend, sdioRomSendFrom]
  simp only
  repeat' split
  all_goals simp

/-- Only the padded first frame can miss both modes. -/
theorem sdFrame_mode {len off : ℕ} (more : off < len) (proper : ¬OverlongTiny len) :
    512 ∣ (sdFrame len off).wire ∨ (sdFrame len off).wire < 512 := by
  simp only [OverlongTiny] at proper
  rcases sdFrame_cases more with ⟨start, small, eq⟩ | ⟨large, eq⟩ | ⟨large, eq⟩ | ⟨later, small, eq⟩
  all_goals simp only [eq]
  all_goals omega

theorem sdFrame_overlong {len : ℕ} (overlong : OverlongTiny len) :
    ¬(512 ∣ (sdFrame len 0).wire ∨ (sdFrame len 0).wire < 512) := by
  rcases overlong with ⟨low, high⟩
  have more : 0 < len := by omega
  rcases sdFrame_cases more with ⟨start, small, eq⟩ | ⟨large, eq⟩ | ⟨large, eq⟩ | ⟨later, small, eq⟩
  all_goals simp only [eq]
  all_goals omega

theorem SdFrame.length_bytes {dstAddr : UInt64} {payload : List UInt8} {frame : SdFrame}
    (inside : frame.off + frame.chunk ≤ payload.length)
    (room : sdFrameHdrLen + frame.chunk ≤ frame.wire) :
    (frame.bytes dstAddr payload).length = frame.wire := by
  simp only [sdFrameHdrLen] at room
  simp only [bytes, List.length_append, LittleEndian.length_bytes, List.length_take,
    List.length_drop, List.length_replicate, sdFrameHdrLen]
  omega

/-- The header address of a frame is the segment's address plus the chunk's offset. -/
theorem SdFrame.address_bytes (dstAddr : UInt64) (payload : List UInt8) (frame : SdFrame) :
    LittleEndian.value (((frame.bytes dstAddr payload).drop 4).take 8) =
      (dstAddr + UInt64.ofNat frame.off).toNat := by
  have header : ((frame.bytes dstAddr payload).drop 4).take 8 =
      LittleEndian.bytes 8 (dstAddr + UInt64.ofNat frame.off).toNat := by
    rw [bytes, List.append_assoc, List.append_assoc]
    rw [List.drop_left' (by simp), List.take_left' (by simp)]
  rw [header, LittleEndian.value_bytes]
  exact Nat.mod_eq_of_lt (UInt64.toNat_lt _)

theorem SdFrame.chunk_bytes {dstAddr : UInt64} {payload : List UInt8} {frame : SdFrame}
    (inside : frame.off + frame.chunk ≤ payload.length) :
    ((frame.bytes dstAddr payload).drop sdFrameHdrLen).take frame.chunk =
      (payload.drop frame.off).take frame.chunk := by
  have size : ((payload.drop frame.off).take frame.chunk).length = frame.chunk := by
    rw [List.length_take, List.length_drop]
    omega
  rw [bytes, List.append_assoc _ ((payload.drop frame.off).take frame.chunk)]
  rw [List.drop_left' (by simp), List.take_left' size]

/-- A segment is framed as documented exactly if its first frame fits one of the modes. -/
theorem romFraming_iff {cmd53 : ℕ → List ℕ} (splits : SplitsByBlock cmd53)
    (sdioMemcpyToio : ℕ → ℤ) (dstAddr : UInt64) {payload : List UInt8}
    (nonempty : 0 < payload.length) :
    RomFraming cmd53 dstAddr payload (sdioRomSend sdioMemcpyToio payload.length) ↔
      ¬OverlongTiny payload.length := by
  constructor
  · intro framing overlong
    have first := framing.wellFramed _ (head_mem_sdioRomSend sdioMemcpyToio payload.length)
    exact sdFrame_overlong overlong first.mode
  · intro proper
    refine ⟨sdioRomSendFrom_tiles sdioMemcpyToio 0 nonempty, ?_⟩
    intro frame mem
    rcases mem_sdioRomSendFrom nonempty mem with ⟨eq, off⟩
    have inside := sdFrame_chunk_le off
    have room := sdFrame_chunk_wire off
    have scratch := sdFrame_wire_le off
    have mode := sdFrame_mode off proper
    rw [← eq] at inside room scratch mode
    have positive : 0 < frame.wire := by omega
    refine ⟨SdFrame.length_bytes inside room, SdFrame.address_bytes _ _ _,
      SdFrame.chunk_bytes inside, scratch, mode, ?_⟩
    rcases mode with block | byte
    · exact splits.blockMode _ positive scratch block
    · exact splits.byteMode _ positive byte

/-- `sdio_io_rw_ext_helper` on a host without a lower limit: beyond one block the whole blocks go
out in block mode, and what is left over in byte mode. -/
def sdioRwExtCommands (size : ℕ) : List ℕ :=
  if size ≤ arsdioBlock then [size]
  else if arsdioBlock ∣ size then [size]
  else [size / arsdioBlock * arsdioBlock, size % arsdioBlock]

theorem sdioRwExtCommands_splits : SplitsByBlock sdioRwExtCommands where
  byteMode size positive small := if_pos (Nat.le_of_lt small)
  blockMode size positive fits block := by
    simp only [sdioRwExtCommands, if_pos block, ite_self]

/-- A segment of 5000 bytes goes out as a frame of the full scratch, one block, and the rest. -/
theorem romFraming_segment :
    (sdioRomSend (fun _ => 0) 5000).2 =
        [⟨0, 4084, 4084, 4096⟩, ⟨4084, 500, 500, 512⟩, ⟨4584, 416, 416, 428⟩] ∧
      RomFraming sdioRwExtCommands 0x2f0040 (List.replicate 5000 7)
        (sdioRomSend (fun _ => 0) (List.replicate 5000 (7 : UInt8)).length) := by
  have length : (List.replicate 5000 (7 : UInt8)).length = 5000 := List.length_replicate
  have nonempty : 0 < (List.replicate 5000 (7 : UInt8)).length := by
    rw [length]
    decide
  have proper : ¬OverlongTiny (List.replicate 5000 (7 : UInt8)).length := by
    rw [length, OverlongTiny]
    decide
  refine ⟨?_, (romFraming_iff sdioRwExtCommands_splits (fun _ => 0) _ nonempty).mpr proper⟩
  simp [sdioRomSend, sdioRomSendFrom, sdFrame]

/-- A segment of 489 bytes is written as one frame of 513. -/
theorem not_romFraming :
    ¬∀ (cmd53 : ℕ → List ℕ) (sdioMemcpyToio : ℕ → ℤ) (dstAddr : UInt64) (payload : List UInt8),
      SplitsByBlock cmd53 → 0 < payload.length →
        RomFraming cmd53 dstAddr payload (sdioRomSend sdioMemcpyToio payload.length) := by
  intro framed
  have framing := framed sdioRwExtCommands (fun _ => 0) 0 (List.replicate 489 0)
    sdioRwExtCommands_splits (List.length_pos_of_ne_nil (List.cons_ne_nil _ _))
  have first := framing.wellFramed _ (head_mem_sdioRomSend _ _)
  rw [List.length_replicate] at first
  exact sdFrame_overlong ⟨Nat.le_refl _, by decide⟩ first.mode

end MlKernel.Sdio
