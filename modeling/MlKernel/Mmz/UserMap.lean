import MlKernel.Lib.Run
import MlKernel.Mmz.Device

/-!
# User mappings of MMZ memory

`mmap` validates a physical range, maps it and registers the mapping; the
registry is one list for all processes, keyed by the user address alone, and it
drives the `user_kref` of the blocks.  The vmas belong to the kernel: `munmap`
splits them, `fork` copies them without telling the driver, and a removed piece
reaches the driver as one call with its start address.

`UserSystem` is the MMZ state, the registry and the vmas of all processes.  Calls
that are on their way are part of it: an `mmap` between mapping and registering,
and the calls of `ar_mmz_user_map_del` that a `munmap`, an exit or a `USER_UNMAP`
still has to make.
-/

namespace MlKernel.Mmz

def pageShift : ℕ := 12

structure UserMap where
  uvaddr : ℕ
  phys : ℕ
  size : ℕ
  deriving DecidableEq

/-- A vma over MMZ memory: user addresses from `start` to `stop`, mapped from `phys` on.
`mapId` and `mapAddr` name the `mmap` call it comes from. -/
structure Vma where
  pid : ℕ
  start : ℕ
  stop : ℕ
  phys : ℕ
  mapId : ℕ
  mapAddr : ℕ
  deriving DecidableEq

/-- A call of `ar_mmz_user_map_del` that is still to come. -/
inductive Drop
  /-- From `mmz_vma_close` of a removed piece. -/
  | close (v : Vma)
  /-- From the second half of `IOC_MMB_USER_UNMAP`. -/
  | userUnmap (addr : ℕ)
  deriving DecidableEq

def Drop.uvaddr : Drop → ℕ
  | .close v => v.start
  | .userUnmap addr => addr

/-- A registered `mmap` call whose registration nobody has dropped. -/
structure Opened where
  mapId : ℕ
  addr : ℕ
  deriving DecidableEq

structure UserSystem where
  mmz : MmzState
  userMaps : List UserMap
  vmas : List Vma
  /-- Mapped by `remap_pfn_range`, not registered yet. -/
  arriving : List Vma
  dropping : List Drop
  opened : List Opened
  nextMap : ℕ

def mmzFind (zones : List MmzZone) (phys : ℕ) : Option MmzZone :=
  zones.find? fun z => z.base ≤ phys && phys < (z.base + z.size) % 2 ^ 64

def hilIsPhysInMmz (zones : List MmzZone) (phys size : ℕ) : Bool :=
  match mmzFind zones phys with
  | none => false
  | some z => (phys + size) % 2 ^ 64 ≤ (z.base + z.size) % 2 ^ 64

/-- `user_kref` of a block, incremented or decremented. -/
def MmzState.addUserKref (mmz : MmzState) (ptr : ℕ) (delta : ℤ) : MmzState :=
  mmz.modify ptr fun b => { b with userKref := wrapInt (b.userKref + delta) }

/-- `ar_mmz_user_map_add`, with the outcome of its `kzalloc`. -/
def arMmzUserMapAdd (s : UserSystem) (uvaddr phys size : ℕ) (kzallocOk : Bool) :
    Except Errno Unit × UserSystem :=
  if kzallocOk then
    let mmz :=
      match s.mmz.getbyPhys2 phys with
      | none => s.mmz
      | some b => s.mmz.addUserKref b.ptr 1
    (.ok (), { s with mmz, userMaps := { uvaddr, phys, size } :: s.userMaps })
  else (.error .enomem, s)

def arMmzUserMapDel (s : UserSystem) (uvaddr : ℕ) : UserSystem :=
  match s.userMaps.find? fun m => m.uvaddr = uvaddr with
  | none => s
  | some m =>
    let mmz :=
      match s.mmz.getbyPhys2 m.phys with
      | none => s.mmz
      | some b => if 0 < b.userKref then s.mmz.addUserKref b.ptr (-1) else s.mmz
    { s with mmz, userMaps := s.userMaps.erase m }

/-- The checks of `ar_mmz_mmap_wc`: the physical address to map. -/
def mmapPhys (s : UserSystem) (pgoff size : ℕ) : Option ℕ :=
  let phys := pgoff <<< pageShift % 2 ^ 64
  if phys >>> pageShift ≠ pgoff then none
  else if hilIsPhysInMmz s.mmz.zones phys size then some phys
  else none

/-- `ar_mmz_mmap_wc` up to a `remap_pfn_range` that succeeds. -/
def arMmzMmapWc (s : UserSystem) (pid addr len pgoff : ℕ) : Except Errno Unit × UserSystem :=
  match mmapPhys s pgoff (pages len) with
  | none => (.error .einval, s)
  | some phys =>
    let v : Vma :=
      { pid, start := addr, stop := addr + pages len, phys, mapId := s.nextMap, mapAddr := addr }
    (.ok (), { s with arriving := v :: s.arriving, nextMap := s.nextMap + 1 })

def Vma.cut (v : Vma) (lower upper : ℕ) : Vma :=
  { v with start := lower, stop := upper, phys := v.phys + (lower - v.start) }

/-- The pieces that a `munmap` of a range leaves. -/
def Vma.outside (v : Vma) (lower upper : ℕ) : List Vma :=
  [v.cut v.start (min v.stop lower), v.cut (max v.start upper) v.stop].filter fun w =>
    w.start < w.stop

/-- The piece that a `munmap` of a range removes. -/
def Vma.inside (v : Vma) (lower upper : ℕ) : List Vma :=
  [v.cut (max v.start lower) (min v.stop upper)].filter fun w => w.start < w.stop

/-- `munmap` in one process: vmas are split and the removed pieces will be closed. -/
def UserSystem.munmap (s : UserSystem) (pid lower upper : ℕ) : UserSystem :=
  { s with
    vmas := s.vmas.flatMap fun v => if v.pid = pid then v.outside lower upper else [v]
    dropping := s.dropping ++
      (s.vmas.flatMap fun v => if v.pid = pid then v.inside lower upper else []).map .close }

def UserSystem.willDrop (s : UserSystem) (drop : Drop) : UserSystem :=
  { s with dropping := s.dropping ++ [drop] }

/-- `fork` copies the vmas; there is no `.open` to call. -/
def UserSystem.fork (s : UserSystem) (parent child : ℕ) : UserSystem :=
  { s with
    vmas := s.vmas ++ (s.vmas.filter fun v => v.pid = parent).map fun v => { v with pid := child } }

def UserSystem.exit (s : UserSystem) (pid : ℕ) : UserSystem :=
  { s with
    vmas := s.vmas.filter fun v => v.pid ≠ pid
    dropping := s.dropping ++ (s.vmas.filter fun v => v.pid = pid).map .close }

inductive UserEvent
  | mmbAlloc (zoneName : String) (size align : ℕ) (kzallocOk : Bool)
  | mmbFree (phys : ℕ)
  | mmbGet (phys : ℕ)
  | mmbPut (phys : ℕ)
  | mmap (pid addr len pgoff : ℕ)
  /-- The `i`-th arriving `mmap` registers. -/
  | mapAdd (i : ℕ) (kzallocOk : Bool)
  | munmap (pid addr len : ℕ)
  | fork (parent child : ℕ)
  | exit (pid : ℕ)
  | userUnmap (pid addr len : ℕ) (unmapOk : Bool)
  /-- The `i`-th outstanding call of `ar_mmz_user_map_del`. -/
  | mapDel (i : ℕ)

def UserSystem.mmapLocked (s : UserSystem) (pid : ℕ) : Bool := s.arriving.any fun v => v.pid = pid

def UserSystem.rangeFree (s : UserSystem) (pid lower upper : ℕ) : Bool :=
  s.vmas.all fun v => v.pid ≠ pid || v.stop ≤ lower || upper ≤ v.start

/-- The registrations that are open after a drop: a close drops that of its own mapping
when it comes with the address of the mapping. -/
def openedAfter (opened : List Opened) : Drop → List Opened
  | .close v => opened.erase { mapId := v.mapId, addr := v.start }
  | .userUnmap _ => opened

/-- One event; `none` where the kernel does not let it happen. -/
def userStep (s : UserSystem) : UserEvent → Option UserSystem
  | .mmbAlloc zoneName size align kzallocOk =>
    some { s with mmz := (s.mmz.hilMmbAlloc zoneName size align kzallocOk).2 }
  | .mmbFree phys => some { s with mmz := (s.mmz.iocMmbFree phys).2 }
  | .mmbGet phys => some { s with mmz := (s.mmz.iocMmbGet phys).2 }
  | .mmbPut phys => some { s with mmz := (s.mmz.iocMmbPut phys).2 }
  | .mmap pid addr len pgoff =>
    if addr % pageSize = 0 ∧ len ≠ 0 ∧ s.mmapLocked pid = false ∧
        s.rangeFree pid addr (addr + pages len) then
      some (arMmzMmapWc s pid addr len pgoff).2
    else none
  | .mapAdd i kzallocOk =>
    match s.arriving[i]? with
    | none => none
    | some v =>
      let added := (arMmzUserMapAdd s v.start v.phys (v.stop - v.start) kzallocOk).2
      some
        { added with
          vmas := v :: s.vmas
          arriving := s.arriving.eraseIdx i
          opened :=
            if kzallocOk then { mapId := v.mapId, addr := v.start } :: s.opened else s.opened }
  | .munmap pid addr len =>
    if addr % pageSize = 0 ∧ len ≠ 0 ∧ s.mmapLocked pid = false then
      some (s.munmap pid addr (addr + pages len))
    else none
  | .fork parent child =>
    if s.mmapLocked parent = false ∧ s.mmapLocked child = false ∧ s.vmas.all (·.pid ≠ child) then
      some (s.fork parent child)
    else none
  | .exit pid => if s.mmapLocked pid then none else some (s.exit pid)
  | .userUnmap pid addr len unmapOk =>
    if addr = 0 then some s
    -- a failing `vm_munmap` is ignored
    else if unmapOk = false then some (s.willDrop (.userUnmap addr))
    else if addr % pageSize = 0 ∧ len ≠ 0 ∧ s.mmapLocked pid = false then
      some ((s.munmap pid addr (addr + pages len)).willDrop (.userUnmap addr))
    else none
  | .mapDel i =>
    match s.dropping[i]? with
    | none => none
    | some drop =>
      some
        { arMmzUserMapDel s drop.uvaddr with
          dropping := s.dropping.eraseIdx i
          opened := openedAfter s.opened drop }

/-- The driver loaded over the zones, and no process has opened it. -/
def UserSystem.loaded (zones : List MmzZone) : UserSystem :=
  { mmz := { zones, nextPtr := 0, freed := [] }
    userMaps := []
    vmas := []
    arriving := []
    dropping := []
    opened := []
    nextMap := 0 }

end MlKernel.Mmz
