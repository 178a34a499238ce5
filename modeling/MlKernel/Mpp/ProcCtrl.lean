import Mathlib.Algebra.Ring.Nat
import Mathlib.Logic.Function.Basic
import MlKernel.Lib.Run

/-!
# The proc-message shuttle

A write to an entry below `/proc/umap` waits in the entry for a daemon thread to fetch it.  The
list of entries has a lock, and so has each entry; a request that has found its entry on the list
lets go of the first lock before it takes the second one.
-/

namespace MlKernel.Mpp

def payloadLen : ℕ := 256

def showLen : ℕ := 4096

/-- `struct proc_dev`.  `lastWrite` is the write that `msg` holds, if it holds all of one. -/
structure ProcDev where
  handle : ℕ
  pde : Bool
  showBuf : List UInt8
  showLen : ℕ
  msg : List UInt8
  msgLen : ℕ
  msgPending : Bool
  lastWrite : Option ℕ

/-- Bytes in a zeroed payload field. -/
def pad (bytes : List UInt8) : List UInt8 :=
  bytes ++ List.replicate (payloadLen - bytes.length) 0

/-- What `copy_from_user` leaves; a fault after some bytes zeroes the rest. -/
def copyFromUser (bytes : List UInt8) : Option ℕ → List UInt8
  | none => bytes
  | some copied => bytes.take copied ++ List.replicate (bytes.length - copied) 0

/-- `struct msg_arg` as it goes back. -/
structure MsgArg where
  data : List UInt8
  len : ℕ
  type : ℕ
  handle : ℕ
  deriving DecidableEq

/-- A request of a daemon thread between its two critical sections. -/
inductive PcCall
  | idle
  | msgFound (d cap : ℕ)
  | writeFound (d : ℕ)
  | closeFound (d : ℕ)
  deriving DecidableEq

/-- The entry that a request has in its hands. -/
def PcCall.entry : PcCall → Option ℕ
  | .idle => none
  | .msgFound d _ => some d
  | .writeFound d => some d
  | .closeFound d => some d

/-- A write that reached an entry. -/
structure ProcWrite where
  dev : ℕ
  handle : ℕ
  bytes : List UInt8

/-- A message that a request returned: the limit the caller set, whether the entry had one pending
when it was taken, and the write it came from. -/
structure Delivered where
  out : MsgArg
  cap : ℕ
  pending : Bool
  write : Option ℕ

/-- The driver with the requests of the daemon threads.  Entries are numbered as they are
allocated; what is in a freed one means nothing. -/
structure ProcCtrl (Thread : Type) where
  devs : List ℕ
  dev : ℕ → ProcDev
  created : ℕ
  nextHandle : ℕ
  call : Thread → PcCall
  freed : ℕ → Bool
  writes : List ProcWrite
  delivered : List Delivered
  staleUse : Bool

/-- `fault` is after how many bytes a user copy fails, if it does. -/
inductive ProcEvent (Thread : Type)
  | create (pde : Bool)
  | umapWrite (d : ℕ) (bytes : List UInt8) (fault : Option ℕ)
  | msgScan (t : Thread) (cap : ℕ)
  | msgCopy (t : Thread) (fault : Bool)
  | writeFind (t : Thread) (handle : ℕ)
  | writeCopy (t : Thread) (bytes : List UInt8) (fault : Option ℕ)
  | closeRemove (t : Thread) (handle : ℕ)
  | closeFree (t : Thread)

namespace ProcCtrl

variable {Thread : Type}

def initial : ProcCtrl Thread where
  devs := []
  dev _ :=
    { handle := 0, pde := false, showBuf := [], showLen := 0, msg := [], msgLen := 0
      msgPending := false, lastWrite := none }
  created := 0
  nextHandle := 0
  call _ := .idle
  freed _ := false
  writes := []
  delivered := []
  staleUse := false

def devByHandle (s : ProcCtrl Thread) (h : ℕ) : Option ℕ :=
  s.devs.find? fun d => (s.dev d).handle = h

def setDev (s : ProcCtrl Thread) (d : ℕ) (dev : ProcDev) : ProcCtrl Thread :=
  { s with dev := Function.update s.dev d dev }

/-- An entry is used. -/
def use (s : ProcCtrl Thread) (d : ℕ) : ProcCtrl Thread :=
  { s with staleUse := s.staleUse || s.freed d }

/-- The `g.lock` section of `pc_create`. -/
def pcCreate (s : ProcCtrl Thread) (pde : Bool) : ProcCtrl Thread :=
  let handle := (s.nextHandle + 1) % 2 ^ 64
  { s with
    devs := s.devs ++ [s.created]
    dev := Function.update s.dev s.created
      { handle, pde, showBuf := List.replicate Mpp.showLen 0, showLen := 0
        msg := List.replicate payloadLen 0, msgLen := 0, msgPending := false, lastWrite := none }
    created := s.created + 1
    nextHandle := handle }

/-- `umap_write`, under the lock of the entry. -/
def umapWrite (s : ProcCtrl Thread) (d : ℕ) (bytes : List UInt8) (fault : Option ℕ) :
    ProcCtrl Thread :=
  let len := min bytes.length (payloadLen - 1)
  let msg := pad (copyFromUser (bytes.take len) fault)
  match fault with
  | some _ => s.setDev d { s.dev d with msg, lastWrite := none }
  | none =>
      let s := s.setDev d { s.dev d with
        msg, msgLen := len, msgPending := true, lastWrite := some s.writes.length }
      { s with writes := s.writes ++ [{ dev := d, handle := (s.dev d).handle, bytes }] }

/-- What the second section of `pc_msg` puts together. -/
def msgOut (dev : ProcDev) (cap : ℕ) : MsgArg :=
  let len := min dev.msgLen cap
  { data := pad (dev.msg.take len), len, type := 1, handle := dev.handle }

def message (dev : ProcDev) (cap : ℕ) : Delivered :=
  { out := msgOut dev cap, cap, pending := dev.msgPending, write := dev.lastWrite }

/-- The second section of `pc_msg`; after a fault of the `copy_to_user` at its end the message is
gone. -/
def msgCopy (s : ProcCtrl Thread) (d cap : ℕ) (fault : Bool) : ProcCtrl Thread :=
  let dev := s.dev d
  let s := (s.use d).setDev d { dev with msgPending := false }
  { s with delivered := if fault then s.delivered else s.delivered ++ [message dev cap] }

/-- The second section of `pc_write`. -/
def writeCopy (s : ProcCtrl Thread) (d : ℕ) (bytes : List UInt8) (fault : Option ℕ) :
    ProcCtrl Thread :=
  let dev := s.dev d
  let len := min bytes.length (Mpp.showLen - 1)
  let text := copyFromUser (bytes.take len) fault
  match fault with
  | some _ => (s.use d).setDev d { dev with showBuf := text ++ dev.showBuf.drop len }
  | none =>
      (s.use d).setDev d { dev with
        showBuf := text ++ 0 :: dev.showBuf.drop (len + 1), showLen := len }

variable [DecidableEq Thread]

def setCall (s : ProcCtrl Thread) (t : Thread) (call : PcCall) : ProcCtrl Thread :=
  { s with call := Function.update s.call t call }

end ProcCtrl

/-- One critical section.  The proc file system lets no write start on an entry without a file, or
one that is being removed, and removal waits for the writes under way. -/
def procStep {Thread : Type} [DecidableEq Thread] (s : ProcCtrl Thread) :
    ProcEvent Thread → Option (ProcCtrl Thread)
  | .create pde => some (s.pcCreate pde)
  | .umapWrite d bytes fault =>
      if d ∈ s.devs ∧ (s.dev d).pde = true then some (s.umapWrite d bytes fault) else none
  | .msgScan t cap =>
      if s.call t = .idle then
        match s.devs.find? fun d => (s.dev d).msgPending with
        | some found => some (s.setCall t (.msgFound found (min cap payloadLen)))
        -- it waits, and scans again
        | none => some s
      else none
  | .msgCopy t fault =>
      match s.call t with
      | .msgFound d cap => some ((s.msgCopy d cap fault).setCall t .idle)
      | _ => none
  | .writeFind t handle =>
      if s.call t = .idle then
        match s.devByHandle handle with
        | some d => some (s.setCall t (.writeFound d))
        | none => some s
      else none
  | .writeCopy t bytes fault =>
      match s.call t with
      | .writeFound d => some ((s.writeCopy d bytes fault).setCall t .idle)
      | _ => none
  | .closeRemove t handle =>
      if s.call t = .idle then
        match s.devByHandle handle with
        | some d => some ({ s with devs := s.devs.filter (· ≠ d) }.setCall t (.closeFound d))
        | none => some s
      else none
  | .closeFree t =>
      match s.call t with
      | .closeFound d => some ({ s with freed := Function.update s.freed d true }.setCall t .idle)
      | _ => none

end MlKernel.Mpp
