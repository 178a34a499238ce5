import Mathlib.Logic.Function.Basic
import MlKernel.Mmz.Device

/-!
# Video buffer pools

`/dev/ar_vb` carves its pools from the MMZ allocator.  Its ioctls run under
`g_vb_lock`, which the MMZ ioctls do not take: between the two halves of a
`CRTPL` or a `DESTPL` any MMZ ioctl can run.  `VbSystem` is the pool table, the
MMZ state and the ioctl that holds `g_vb_lock` in the middle of its work.
-/

namespace MlKernel.Mmz

def maxPools : ℕ := 512

def vbHandleMax : ℕ := 0x1ffffff

def vbUidMax : ℕ := 0x17

structure VbPoolCfg where
  blkSize : ℕ
  blkCnt : ℕ
  deriving DecidableEq

def VbPoolCfg.total (cfg : VbPoolCfg) : ℕ := cfg.blkSize * cfg.blkCnt

/-- `struct vb_blk` as `GETBLK` reads it. -/
structure VbBlk where
  poolId : ℕ
  blkSize : ℕ
  vbUid : ℕ

structure VbPool where
  used : Bool
  id : ℕ
  mmb : ℕ
  base : ℕ
  blkSize : ℕ
  blkCnt : ℕ
  freeMap : List Bool
  deriving DecidableEq

/-- A slot that was never used, or that `DESTPL` has cleared. -/
def VbPool.zero : VbPool :=
  { used := false, id := 0, mmb := 0, base := 0, blkSize := 0, blkCnt := 0, freeMap := [] }

/-- Who holds `g_vb_lock` in the middle of an ioctl. -/
inductive VbLock
  | free
  /-- `CRTPL` has its block, and not yet its bitmap. -/
  | crtpl (slot : ℕ) (cfg : VbPoolCfg) (mmb : Mmb)
  /-- `DESTPL` has freed the block, and not yet cleared the slot. -/
  | destpl (slot : ℕ)
  deriving DecidableEq

structure VbSystem where
  mmz : MmzState
  pools : ℕ → VbPool
  lock : VbLock

def VbSystem.poolById (s : VbSystem) (id : ℕ) : Option VbPool :=
  if id < maxPools ∧ (s.pools id).used then some (s.pools id) else none

def VbSystem.freeSlot (s : VbSystem) : Option ℕ :=
  (List.range maxPools).find? fun i => ¬ (s.pools i).used

/-- `vb_crtpl` up to its `hil_mmb_alloc`.  The slot is only filled in at the end. -/
def VbSystem.crtpl (s : VbSystem) (cfg : VbPoolCfg) (kzallocOk : Bool) :
    Except Errno Unit × VbSystem :=
  if cfg.blkSize = 0 ∨ cfg.blkCnt = 0 ∨ 0xffff < cfg.blkCnt then (.error .einval, s)
  else if 2 ^ 64 ≤ cfg.total then (.error .einval, s)
  else
    match s.freeSlot with
    | none => (.error .enospc, s)
    | some slot =>
      match s.mmz.hilMmbAlloc "" cfg.total pageSize kzallocOk with
      | (none, mmz) => (.error .enomem, { s with mmz })
      | (some mmb, mmz) => (.ok (), { s with mmz, lock := .crtpl slot cfg mmb })

/-- The pool that `vb_crtpl` leaves in its slot. -/
def newPool (slot : ℕ) (cfg : VbPoolCfg) (mmb : Mmb) : VbPool :=
  { used := true
    id := slot
    mmb := mmb.ptr
    base := mmb.phys
    blkSize := cfg.blkSize
    blkCnt := cfg.blkCnt
    freeMap := List.replicate cfg.blkCnt true }

/-- The rest of `vb_crtpl`, with the outcome of its `bitmap_alloc`. -/
def VbSystem.crtplFinish (s : VbSystem) (slot : ℕ) (cfg : VbPoolCfg) (mmb : Mmb)
    (bitmapOk : Bool) : Except Errno ℕ × VbSystem :=
  if bitmapOk then
    (.ok slot,
      { s with pools := Function.update s.pools slot (newPool slot cfg mmb), lock := .free })
  else (.error .enomem, { s with mmz := s.mmz.hilMmbFree mmb.ptr, lock := .free })

/-- `vb_destpl` up to its `hil_mmb_free`. -/
def VbSystem.destpl (s : VbSystem) (id : ℕ) : Except Errno Unit × VbSystem :=
  match s.poolById id with
  | none => (.error .einval, s)
  | some p => (.ok (), { s with mmz := s.mmz.hilMmbFree p.mmb, lock := .destpl id })

/-- The `memset` of `vb_destpl`. -/
def VbSystem.destplFinish (s : VbSystem) (slot : ℕ) : VbSystem :=
  { s with pools := Function.update s.pools slot .zero, lock := .free }

def vbHandle (id idx : ℕ) : ℕ := id <<< 16 ||| idx &&& 0xffff

/-- The pools that `GETBLK` may take a block from when the caller names none. -/
def VbSystem.anyPool (s : VbSystem) (blk : VbBlk) : Option ℕ :=
  (List.range maxPools).find? fun i =>
    (s.pools i).used && (blk.blkSize = 0 || blk.blkSize ≤ (s.pools i).blkSize) &&
      (s.pools i).freeMap.any id

/-- The slot that `GETBLK` looks into. -/
def VbSystem.getblkSlot (s : VbSystem) (blk : VbBlk) : Option ℕ :=
  if blk.poolId = 2 ^ 32 - 1 then s.anyPool blk
  else if blk.poolId < maxPools ∧ (s.pools blk.poolId).used then some blk.poolId
  else none

def VbSystem.setFreeMap (s : VbSystem) (slot : ℕ) (freeMap : List Bool) : VbSystem :=
  { s with pools := Function.update s.pools slot { s.pools slot with freeMap } }

/-- `vb_getblk`. -/
def VbSystem.getblk (s : VbSystem) (blk : VbBlk) : Except Errno ℕ × VbSystem :=
  if vbUidMax < blk.vbUid then (.error .einval, s)
  else
    match s.getblkSlot blk with
    | none => (.error .einval, s)
    | some slot =>
      let p := s.pools slot
      if blk.blkSize ≠ 0 ∧ p.blkSize < blk.blkSize then (.error .einval, s)
      else
        let idx := p.freeMap.findIdx id
        if p.blkCnt ≤ idx then (.error .enospc, s)
        else (.ok (vbHandle p.id idx), s.setFreeMap slot (p.freeMap.set idx false))

/-- `vb_rlsblk`. -/
def VbSystem.rlsblk (s : VbSystem) (handle : ℕ) : Except Errno Unit × VbSystem :=
  if vbHandleMax < handle then (.error .einval, s)
  else
    match s.poolById (handle >>> 16) with
    | none => (.error .einval, s)
    | some p =>
      let idx := handle &&& 0xffff
      if idx < p.blkCnt then (.ok (), s.setFreeMap (handle >>> 16) (p.freeMap.set idx true))
      else (.ok (), s)

end MlKernel.Mmz
