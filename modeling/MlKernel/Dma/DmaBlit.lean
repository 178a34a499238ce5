import MlKernel.Dma.BufCache
import MlKernel.Lib.LowBit

/-!
# Batched copies

A request names copies between mapped buffers.  All of them are checked first; then the DMA driver
cuts each copy into blocks that the engine takes at once, and the blocks of all copies, in order,
make one list that one channel works through.
-/

namespace MlKernel.Dma

/-! ### The engine -/

/-- A channel with what its device tree node gives; the device trees have a data width of 3 and
blocks of 4096 items. -/
structure AxiChan where
  mDataWidth : ℕ
  blockSize : ℕ
  wordAtLeast : 2 ≤ mDataWidth
  fitsLong : mDataWidth < 64
  severalItems : 3 ≤ blockSize

/-- `axi_chan_get_xfer_width`: `__ffs` of everything that is to be aligned. -/
def axiChanGetXferWidth (chan : AxiChan) (src dst len : ℕ) : ℕ :=
  lowBit 64 (src ||| dst ||| len ||| 2 ^ chan.mDataWidth)

/-- `struct axi_dma_memcpy_entry`. -/
structure MemcpyEntry where
  dst : ℕ
  src : ℕ
  len : ℕ
  deriving DecidableEq

/-- A block of the list: its allocation and what is written to it. -/
structure HwDesc (Lli : Type) where
  lli : Lli
  sar : ℕ
  dar : ℕ
  width : ℕ
  blockTs : ℕ
  len : ℕ
  deriving DecidableEq

inductive FillResult (Lli : Type)
  | ok (descs : List (HwDesc Lli))
  | enomem (descs : List (HwDesc Lli))
  /-- An access past the end of `hw_desc[]`. -/
  | outside
  /-- The loop is still running. -/
  | unfinished

section Engine

variable {Lli : Type} (chan : AxiChan) (descGet : ℕ → Option Lli)

/-- `axi_desc_put`, with the blocks that it frees. -/
def axiDescPut (descs : List (HwDesc Lli)) : List Lli := descs.map HwDesc.lli

end Engine

/-! ### The request -/

structure MlDmablitCopy where
  srcFd : ℤ
  srcOff : UInt32
  dstOff : UInt32
  len : UInt32

def mlDmablitMaxCopies : ℕ := 8

structure MlDmablitReq where
  dstFd : ℤ
  n : UInt32
  copy : Vector MlDmablitCopy mlDmablitMaxCopies

/-- The entries of `copy[]` that are in use. -/
def MlDmablitReq.copies (req : MlDmablitReq) : List MlDmablitCopy :=
  req.copy.toList.take req.n.toNat

/-- The channels, of which the module has at least one, and the next one to use. -/
structure MlDmablit where
  gChans : List AxiChan
  gNextChan : Fin gChans.length

namespace MlDmablit

def chan (dev : MlDmablit) : AxiChan := dev.gChans[dev.gNextChan]

def rotate (dev : MlDmablit) : MlDmablit where
  gChans := dev.gChans
  gNextChan := ⟨(dev.gNextChan + 1) % dev.gChans.length, Nat.mod_lt _ dev.gNextChan.pos⟩

end MlDmablit

/-- What one request meets: the dma-buf core at each of its calls, the allocations, and how the
engine takes the batch. -/
structure BlitEnv (DmaBuf Lli : Type) where
  core : ℕ → DmaBufCore DmaBuf
  descAlloc : Bool
  descGet : ℕ → Option Lli
  submitError : Bool
  inTime : Bool
  noError : Bool

def einval : ℕ := 22

def eio : ℕ := 5

def etimedout : ℕ := 110

section Submit

variable {DmaBuf Lli : Type} [DecidableEq DmaBuf]

/-- What the engine makes of a batch. -/
def BlitEnv.outcome (env : BlitEnv DmaBuf Lli) : ℤ :=
  if env.inTime = false then -etimedout else if env.noError = false then -eio else 0

end Submit

end MlKernel.Dma
