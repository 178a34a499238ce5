import Mathlib.Data.List.Basic
import Mathlib.Tactic.Common
import MlKernel.Lib.Run

/-!
# The baseband link driver: constants and byte access

The constants of `modules/artosyn_sdio.c` that the modelled functions use, and
byte access into its buffers.  Buffers are byte lists; lengths and offsets are
`u32` in the source and stay far below `2 ^ 32` wherever they are computed, so
they are natural numbers here, and `ALIGN` is `Align.up`.
-/

namespace MlKernel.Sdio

/-- A run of a transition system; what the driver calls a run is a piece of a transfer. -/
abbrev Trace {State Event : Type} (step : State → Event → State → Prop) := Run step

/-- `ARSDIO_BLOCK`: the SDIO block size of a CMD53 transfer. -/
@[simp] def arsdioBlock : ℕ := 512

@[simp] def arsdioStaging : ℕ := 65536

@[simp] def arsdioRxBuf : ℕ := 0x21000

/-- `ARSDIO_MAX_RUNS`: the block runs recovered from one merged read. -/
@[simp] def arsdioMaxRuns : ℕ := 64

@[simp] def linkTrailerLen : ℕ := 4

/-- `IP_HEAD_SHRINK`: what `build_ip_head` takes off an IPv4 header. -/
@[simp] def ipHeadShrink : ℕ := 8

@[simp] def ipCompressedHdr : ℕ := 12

@[simp] def iphdrSize : ℕ := 20

/-- `ARSDIO_IP_FRAME_MAX`: the largest believable tunnel frame. -/
@[simp] def arsdioIpFrameMax : ℕ := 4352

def linkTypeIp : UInt8 := 0xCC

def linkTypeCmd : UInt8 := 0xDD

def linkTypeAck : UInt8 := 0xEE

def ipprotoIcmp : UInt8 := 1

def ipprotoIgmp : UInt8 := 2

def ipprotoTcp : UInt8 := 6

def ipprotoUdp : UInt8 := 17

def byteAt (buf : List UInt8) (i : ℕ) : UInt8 := buf.getD i 0

/-- The big-endian `u16` at an index. -/
def be16At (buf : List UInt8) (i : ℕ) : ℕ :=
  (byteAt buf i).toNat * 256 + (byteAt buf (i + 1)).toNat

@[simp]
theorem byteAt_append_left {buf : List UInt8} (later : List UInt8) {i : ℕ}
    (inside : i < buf.length) : byteAt (buf ++ later) i = byteAt buf i := by
  simp [byteAt, List.getElem?_append_left inside]

theorem byteAt_append_right (buf later : List UInt8) (i : ℕ) :
    byteAt (buf ++ later) (buf.length + i) = byteAt later i := by
  simp [byteAt, List.getElem?_append_right]

theorem be16At_append_left {buf : List UInt8} (later : List UInt8) {i : ℕ}
    (inside : i + 1 < buf.length) : be16At (buf ++ later) i = be16At buf i := by
  simp [be16At, inside, show i < buf.length by omega]

end MlKernel.Sdio
