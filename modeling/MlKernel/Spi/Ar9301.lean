import MlKernel.Lib.BitField
import Mathlib.Algebra.Ring.Int.Defs

/-!
# The QSPI controller

`spi-ar9301.c` runs one operation after another under its lock: it programs the command, which
arms the controller, and moves the data phase through the FIFO ports.  The controller works at a
speed of its own: while an operation is armed it takes words off the TX FIFO, or puts words into
the RX FIFO, whenever it likes.
-/

namespace MlKernel.Spi

open BitField

abbrev U32 : Type := BitVec 32

/-! ### Registers -/

/-- `FIELD_PREP` of a field of `width` bits at `shift`. -/
def fieldPrep (shift width : ℕ) (value : U32) : U32 :=
  value <<< shift &&& (BitVec.ofNat 32 (2 ^ width - 1) <<< shift)

def ar9301CmdOpcode (value : U32) : U32 := fieldPrep 0 8 value
def ar9301CmdAddrBytes (value : U32) : U32 := fieldPrep 8 3 value
def ar9301CmdDummyBytes (value : U32) : U32 := fieldPrep 12 4 value
def ar9301CmdWrite : U32 := bit 32 24
def ar9301LaneEnable : U32 := bit 32 0
def ar9301LaneCmdaddr (value : U32) : U32 := fieldPrep 2 2 value
def ar9301LaneAddr (value : U32) : U32 := fieldPrep 4 2 value
def ar9301LaneDummy (value : U32) : U32 := fieldPrep 6 2 value
def ar9301LaneData (value : U32) : U32 := fieldPrep 8 2 value

@[simp] def ar9301FifoWords : ℕ := 64

@[simp] def ar9301MaxDataLen : ℕ := 0x3ffc

def eio : ℤ := -5

def etimedout : ℤ := -110

structure Regs where
  cmd : U32
  addr : U32
  dataLen : U32
  dmactrl : U32
  lane : U32
  irqEn : U32
  deriving DecidableEq

/-! ### Operations -/

inductive DataDir
  | noData
  | dataIn
  | dataOut
  deriving DecidableEq

/-- A `struct spi_mem_op` as `ar9301_adjust_op_size` lets it through. -/
structure SpiMemOp where
  opcode : U32
  cmdBuswidth : ℕ
  addrNbytes : U32
  addrBuswidth : ℕ
  addrVal : BitVec 64
  dummyNbytes : U32
  dummyBuswidth : ℕ
  dataBuswidth : ℕ
  dir : DataDir
  nbytes : ℕ
  bufOut : List UInt8
  capped : nbytes ≤ ar9301MaxDataLen
  staged : dir = .dataOut → bufOut.length = nbytes
  deriving DecidableEq

/-- The operation takes the branch that feeds the TX FIFO. -/
def SpiMemOp.Writes (op : SpiMemOp) : Prop := op.nbytes ≠ 0 ∧ op.dir = .dataOut

/-- The operation takes the branch that drains the RX FIFO. -/
def SpiMemOp.Reads (op : SpiMemOp) : Prop := op.nbytes ≠ 0 ∧ op.dir ≠ .dataOut

instance (op : SpiMemOp) : Decidable op.Writes :=
  inferInstanceAs (Decidable (_ ∧ _))

instance (op : SpiMemOp) : Decidable op.Reads :=
  inferInstanceAs (Decidable (_ ∧ _))

def ar9301LaneCode (buswidth : ℕ) : U32 :=
  match buswidth with
  | 4 => 2
  | 2 => 1
  | _ => 0

/-- The stores of `ar9301_send_cmd`. -/
def ar9301SendCmd (op : SpiMemOp) (regs : Regs) : Regs :=
  let cmd := ar9301CmdOpcode op.opcode ||| ar9301CmdAddrBytes op.addrNbytes |||
    ar9301CmdDummyBytes op.dummyNbytes
  let cmd := if op.dir = .dataOut then cmd ||| ar9301CmdWrite else cmd
  let addrCode := ar9301LaneCode op.addrBuswidth
  { regs with
    cmd
    addr := if op.addrNbytes ≠ 0 then op.addrVal.setWidth 32 else regs.addr
    dataLen := BitVec.ofNat 32 op.nbytes
    lane := ar9301LaneEnable ||| ar9301LaneCmdaddr (if op.cmdBuswidth = 1 then 0 else addrCode) |||
      ar9301LaneAddr addrCode ||| ar9301LaneDummy (ar9301LaneCode op.dummyBuswidth) |||
      ar9301LaneData (ar9301LaneCode op.dataBuswidth) }

/-! ### The controller -/

/-- The transfer the controller is busy with, and the bytes it has still to move. -/
inductive Engine
  | idle
  | reading (left : ℕ)
  | writing (left : ℕ)
  deriving DecidableEq

/-- The controller.  A word of a FIFO is the bytes it carries; a byte store makes a word of one
byte, and the last word of a read can be a partial one. -/
structure Controller where
  regs : Regs
  engine : Engine
  tx : List (List UInt8)
  rx : List (List UInt8)
  /-- The bytes that went out to the flash since the last operation was armed. -/
  clockedOut : List UInt8
  /-- The bytes that came in from it. -/
  clockedIn : List UInt8
  deriving DecidableEq

namespace Controller

/-- What a `writel` to `AR9301_LANE` arms. -/
def arm (hw : Controller) : Controller :=
  { hw with
    engine := if hw.regs.cmd &&& ar9301CmdWrite ≠ 0 then .writing hw.regs.dataLen.toNat
      else .reading hw.regs.dataLen.toNat
    clockedOut := []
    clockedIn := [] }

def txFree (hw : Controller) : ℕ := ar9301FifoWords - hw.tx.length

/-- The whole words: a partial one does not advance the level. -/
def rxLevel (hw : Controller) : ℕ := hw.rx.countP fun word => word.length = 4

/-- A store to the TX port; a full FIFO loses it. -/
def storeTx (hw : Controller) (bytes : List UInt8) : Controller :=
  if hw.txFree = 0 then hw else { hw with tx := hw.tx ++ [bytes] }

/-- The 32-bit word a load from the RX port returns. -/
def rxWord (hw : Controller) : List UInt8 :=
  (hw.rx.headD [] ++ List.replicate 4 0).take 4

def popRx (hw : Controller) : Controller := { hw with rx := hw.rx.tail }

/-- The controller has something to do that its FIFOs let it do. -/
def CanMove (hw : Controller) : Prop :=
  match hw.engine with
  | .idle => False
  | .writing left => left = 0 ∨ hw.tx ≠ []
  | .reading left => left = 0 ∨ hw.rx.length < ar9301FifoWords

instance (hw : Controller) : Decidable hw.CanMove := by
  unfold CanMove
  split
  · exact inferInstanceAs (Decidable False)
  · exact inferInstanceAs (Decidable (_ ∨ _))
  · exact inferInstanceAs (Decidable (_ ∨ _))

end Controller

/-- What the controller does by itself. -/
inductive HwEvent
  | clockOut
  | clockIn (bytes : List UInt8)
  | retire
  deriving DecidableEq

def hwStep (hw : Controller) (event : HwEvent) : Option Controller :=
  match event, hw.engine, hw.tx with
  | .clockOut, .writing left, word :: tx =>
      if left = 0 then none
      else some { hw with
        engine := .writing (left - word.length)
        tx
        clockedOut := hw.clockedOut ++ word.take left }
  | .clockIn bytes, .reading left, _ =>
      if left ≠ 0 ∧ hw.rx.length < ar9301FifoWords ∧ bytes.length = min 4 left then
        some { hw with
          engine := .reading (left - bytes.length)
          rx := hw.rx ++ [bytes]
          clockedIn := hw.clockedIn ++ bytes }
      else none
  | .retire, .writing left, _ => if left = 0 then some { hw with engine := .idle } else none
  | .retire, .reading left, _ => if left = 0 then some { hw with engine := .idle } else none
  | _, _, _ => none

/-! ### The driver -/

/-- Where `ar9301_exec_op` stands.  `rest` is what is still to be stored, `got` what is in the
buffer, and `n` the count of the running burst. -/
inductive Pc
  | idle
  | sendCmd (op : SpiMemOp)
  | txPoll (op : SpiMemOp) (rest : List UInt8)
  | txBurst (op : SpiMemOp) (n : ℕ) (rest : List UInt8)
  | txTail (op : SpiMemOp) (rest : List UInt8)
  | txDrain (op : SpiMemOp)
  | rxPoll (op : SpiMemOp) (got : List UInt8)
  | rxBurst (op : SpiMemOp) (n : ℕ) (got : List UInt8)
  | rxTail (op : SpiMemOp) (got : List UInt8)
  | rxTailWord (op : SpiMemOp) (got : List UInt8)
  | rxCheck (op : SpiMemOp) (got : List UInt8)
  | out
  deriving DecidableEq

/-- What an operation returned, what it left in its buffer and what the controller moved for it.
`slow` says that one of its polls gave up while the controller could still move. -/
structure OpResult where
  op : SpiMemOp
  ret : ℤ
  buf : List UInt8
  clockedOut : List UInt8
  clockedIn : List UInt8
  slow : Bool
  deriving DecidableEq

structure Qspi where
  hw : Controller
  pc : Pc
  /-- A poll of the current operation gave up while the controller could still move. -/
  slow : Bool
  /-- Some store went to a full TX FIFO. -/
  lost : Bool
  results : List OpResult
  deriving DecidableEq

/-- The driver's own steps: a status poll that sees its condition or gives up, a store to the TX
port, a load from the RX port, the check behind a read, and the register writes at the end. -/
inductive DriverEvent
  | exec (op : SpiMemOp)
  | poll (seen : Bool)
  | store
  | load
  | check
  | finish
  deriving DecidableEq

inductive QspiEvent
  | hw (event : HwEvent)
  | driver (event : DriverEvent)
  deriving DecidableEq

namespace Qspi

/-- `ret` is set; what is left is the way out. -/
def returns (s : Qspi) (op : SpiMemOp) (ret : ℤ) (buf : List UInt8) : Qspi :=
  { s with
    pc := .out
    results := ⟨op, ret, buf, s.hw.clockedOut, s.hw.clockedIn, s.slow⟩ :: s.results }

def timesOut (s : Qspi) (op : SpiMemOp) (buf : List UInt8) : Qspi :=
  { s with slow := s.slow || decide s.hw.CanMove }.returns op etimedout buf

def store (s : Qspi) (bytes : List UInt8) : Qspi :=
  { s with hw := s.hw.storeTx bytes, lost := s.lost || decide (s.hw.txFree = 0) }

end Qspi

/-- Where `ar9301_write_fifo` goes on with `n` words of a burst left. -/
def txNext (op : SpiMemOp) (n : ℕ) (rest : List UInt8) : Pc :=
  if n ≠ 0 then .txBurst op n rest
  else if rest.length / 4 ≠ 0 then .txPoll op rest
  else if rest ≠ [] then .txTail op rest
  else .txDrain op

/-- Where `ar9301_read_fifo` goes on. -/
def rxNext (op : SpiMemOp) (n : ℕ) (got : List UInt8) : Pc :=
  if n ≠ 0 then .rxBurst op n got
  else if (op.nbytes - got.length) / 4 ≠ 0 then .rxPoll op got
  else if op.nbytes - got.length ≠ 0 then .rxTail op got
  else .rxCheck op got

/-- The poll behind a place of the driver: its condition, and the state it leads to when the
condition is seen. -/
def pollOf (s : Qspi) : Option (SpiMemOp × List UInt8 × Bool × Qspi) :=
  match s.pc with
  | .sendCmd op =>
      let s' := { s with hw := ({ s.hw with regs := ar9301SendCmd op s.hw.regs }).arm }
      some (op, [], decide (s.hw.engine = .idle),
        if op.Writes then { s' with pc := txNext op 0 op.bufOut }
        else if op.Reads then { s' with pc := rxNext op 0 [] }
        else s'.returns op 0 [])
  | .txPoll op rest =>
      some (op, [], decide (s.hw.txFree ≠ 0),
        { s with pc := txNext op (min s.hw.txFree (rest.length / 4)) rest })
  | .txDrain op =>
      some (op, [], decide (s.hw.txFree = ar9301FifoWords), s.returns op 0 [])
  | .rxPoll op got =>
      some (op, got, decide (s.hw.rxLevel ≠ 0),
        { s with pc := rxNext op (min s.hw.rxLevel ((op.nbytes - got.length) / 4)) got })
  | .rxTail op got =>
      some (op, got, decide (s.hw.rx ≠ []), { s with pc := .rxTailWord op got })
  | _ => none

def driverStep (s : Qspi) (event : DriverEvent) : Option Qspi :=
  match event, s.pc with
  | .exec op, .idle => some { s with pc := .sendCmd op, slow := false }
  | .poll seen, _ =>
      match pollOf s with
      | some (op, buf, condition, next) =>
          if seen ≠ condition then none
          else if seen then some next
          else some (s.timesOut op buf)
      | none => none
  | .store, .txBurst op n rest =>
      some { s.store (rest.take 4) with pc := txNext op (n - 1) (rest.drop 4) }
  | .store, .txTail op rest =>
      some { s.store (rest.take 1) with pc := txNext op 0 (rest.drop 1) }
  | .load, .rxBurst op n got =>
      some { s with hw := s.hw.popRx, pc := rxNext op (n - 1) (got ++ s.hw.rxWord) }
  | .load, .rxTailWord op got =>
      some { s with
        hw := s.hw.popRx
        pc := .rxCheck op (got ++ s.hw.rxWord.take (op.nbytes - got.length)) }
  | .check, .rxCheck op got => some (s.returns op (if s.hw.rx = [] then 0 else eio) got)
  | .finish, .out =>
      some { s with
        hw := { s.hw with regs := { s.hw.regs with dmactrl := 0, irqEn := 0 } }
        pc := .idle }
  | _, _ => none

def qspiStep (s : Qspi) (event : QspiEvent) : Option Qspi :=
  match event with
  | .hw event => (hwStep s.hw event).map fun hw => { s with hw }
  | .driver event => driverStep s event

/-- What probe leaves behind. -/
def Qspi.initial : Qspi where
  hw := ⟨⟨0, 0, 0, 0, 0, 0⟩, .idle, [], [], [], []⟩
  pc := .idle
  slow := false
  lost := false
  results := []

end MlKernel.Spi
