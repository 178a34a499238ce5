import MlKernel.Mmz.VbRun

/-!
# Block handles

A handle is a pool slot and a block index in one word, and the two translations
compute it from an address and back.  `VbUsers` records which handles the users
hold: `GETBLK` grants one, and `RLSBLK` of the handle or `DESTPL` of its pool ends
the grant.
-/

namespace MlKernel.Mmz

def VbSystem.poolByPhys (s : VbSystem) (phys : ℕ) : Option VbPool :=
  ((List.range maxPools).map s.pools).find? fun p =>
    p.used && p.base ≤ phys && phys < (p.base + p.blkSize * p.blkCnt % 2 ^ 64) % 2 ^ 64

def VbSystem.vbPa2hl (s : VbSystem) (phys : ℕ) : Except Errno ℕ :=
  match s.poolByPhys phys with
  | none => .error .einval
  | some p => .ok (vbHandle p.id ((phys - p.base) / p.blkSize % 2 ^ 32))

def VbSystem.vbHl2pa (s : VbSystem) (handle : ℕ) : Except Errno ℕ :=
  if vbHandleMax < handle then .error .einval
  else
    match s.poolById (handle >>> 16) with
    | none => .error .einval
    | some p =>
      let idx := handle &&& 0xffff
      if p.blkCnt ≤ idx then .error .einval
      else .ok ((p.base + idx * p.blkSize % 2 ^ 64) % 2 ^ 64)

/-- A handle in use, and the size it was asked for. -/
structure Grant where
  handle : ℕ
  blkSize : ℕ

structure VbUsers where
  sys : VbSystem
  outstanding : List Grant

def VbUsers.outstandingAfter (u : VbUsers) : VbEvent → List Grant
  | .getblk blk =>
    match (u.sys.getblk blk).1 with
    | .ok handle => { handle, blkSize := blk.blkSize } :: u.outstanding
    | .error _ => u.outstanding
  | .rlsblk handle =>
    match (u.sys.rlsblk handle).1 with
    | .ok _ => u.outstanding.filter fun g => g.handle ≠ handle
    | .error _ => u.outstanding
  | .destpl id =>
    match (u.sys.destpl id).1 with
    | .ok _ => u.outstanding.filter fun g => g.handle >>> 16 ≠ id
    | .error _ => u.outstanding
  | _ => u.outstanding

def usersStep (u : VbUsers) (event : VbEvent) : Option VbUsers :=
  (vbStep u.sys event).map fun sys => { sys, outstanding := u.outstandingAfter event }

def VbUsers.loaded (zones : List MmzZone) : VbUsers := { sys := .loaded zones, outstanding := [] }

def VbUsers.Spares (u : VbUsers) (event : VbEvent) : Prop := SparesPools u.sys event

instance (u : VbUsers) (event : VbEvent) : Decidable (u.Spares event) :=
  inferInstanceAs (Decidable (SparesPools u.sys event))

def UsersStep (u : VbUsers) (event : VbEvent) (next : VbUsers) : Prop :=
  u.Spares event ∧ usersStep u event = some next

/-! ### What the users are promised -/

/-- The bytes that the holder of a handle takes for its block. -/
def VbSystem.Denotes (s : VbSystem) (handle phys size : ℕ) : Prop :=
  s.vbHl2pa handle = .ok phys ∧ size = (s.pools (handle >>> 16)).blkSize

def VbSystem.blockStart (s : VbSystem) (i idx : ℕ) : ℕ :=
  (s.pools i).base + idx * (s.pools i).blkSize

structure HandlesOk (u : VbUsers) : Prop where
  fresh : u.sys.lock = .free → ∀ blk handle, (u.sys.getblk blk).1 = .ok handle →
    ∀ g ∈ u.outstanding, g.handle ≠ handle
  inRange : ∀ g ∈ u.outstanding, g.handle ≤ vbHandleMax
  denotes : ∀ g ∈ u.outstanding, ∃ phys size, u.sys.Denotes g.handle phys size ∧
    g.blkSize ≤ size ∧
    ∃ b ∈ u.sys.mmz.blocks, b.ptr = (u.sys.pools (g.handle >>> 16)).mmb ∧
      b.phys ≤ phys ∧ phys + size ≤ b.phys + b.size
  apart : ∀ g ∈ u.outstanding, ∀ k ∈ u.outstanding, g.handle ≠ k.handle →
    ∀ phys size phys' size', u.sys.Denotes g.handle phys size →
      u.sys.Denotes k.handle phys' size' → Apart phys (phys + size) phys' (phys' + size')
  translates : u.sys.lock = .free → ∀ i, u.sys.Live i → ∀ idx < (u.sys.pools i).blkCnt,
    ∀ phys, u.sys.blockStart i idx ≤ phys →
      phys < u.sys.blockStart i idx + (u.sys.pools i).blkSize →
      ∃ handle, u.sys.vbPa2hl phys = .ok handle ∧
        ∀ other, u.sys.vbHl2pa other = .ok (u.sys.blockStart i idx) ↔ other = handle
  anyPool : u.sys.lock = .free → ∀ blk : VbBlk, blk.poolId = 2 ^ 32 - 1 →
    blk.vbUid ≤ vbUidMax → ∀ errno, (u.sys.getblk blk).1 = .error errno →
      ∀ i, u.sys.Live i → blk.blkSize ≤ (u.sys.pools i).blkSize →
        ∀ idx < (u.sys.pools i).blkCnt, (u.sys.pools i).freeMap[idx]? ≠ some true

/-! ### Packed handles -/

theorem and_ffff (handle : ℕ) : handle &&& 0xffff = handle % 2 ^ 16 :=
  Nat.and_two_pow_sub_one_eq_mod handle 16

theorem vbHandle_eq (id : ℕ) {idx : ℕ} (fits : idx < 2 ^ 16) :
    vbHandle id idx = id * 2 ^ 16 + idx := by
  rw [vbHandle, and_ffff, Nat.mod_eq_of_lt fits, ← Nat.shiftLeft_add_eq_or_of_lt fits,
    Nat.shiftLeft_eq]

theorem vbHandle_pool (id : ℕ) {idx : ℕ} (fits : idx < 2 ^ 16) :
    vbHandle id idx >>> 16 = id := by
  rw [vbHandle_eq id fits, Nat.shiftRight_eq_div_pow]
  omega

theorem vbHandle_index (id : ℕ) {idx : ℕ} (fits : idx < 2 ^ 16) :
    vbHandle id idx &&& 0xffff = idx := by
  rw [vbHandle_eq id fits, and_ffff]
  omega

theorem vbHandle_inj {id id' idx idx' : ℕ} (fits : idx < 2 ^ 16) (fits' : idx' < 2 ^ 16)
    (same : vbHandle id idx = vbHandle id' idx') : id = id' ∧ idx = idx' := by
  constructor
  · rw [← vbHandle_pool id fits, same, vbHandle_pool id' fits']
  · rw [← vbHandle_index id fits, same, vbHandle_index id' fits']

theorem vbHandle_parts (handle : ℕ) : vbHandle (handle >>> 16) (handle &&& 0xffff) = handle := by
  have fits : handle &&& 0xffff < 2 ^ 16 := by
    rw [and_ffff]
    exact Nat.mod_lt _ (Nat.two_pow_pos 16)
  rw [vbHandle_eq _ fits, and_ffff, Nat.shiftRight_eq_div_pow]
  exact Nat.div_add_mod' ..

theorem vbHandle_le {id idx : ℕ} (inTable : id < maxPools) (fits : idx < 2 ^ 16) :
    vbHandle id idx ≤ vbHandleMax := by
  rw [vbHandle_eq id fits]
  simp only [maxPools, vbHandleMax] at inTable ⊢
  omega

/-! ### The pool table -/

/-- What `CRTPL` puts in a slot, up to the bits of the map. -/
structure PoolShape (i : ℕ) (p : VbPool) : Prop where
  id : p.id = i
  positive : 0 < p.blkSize
  few : p.blkCnt ≤ 0xffff
  mapped : p.freeMap.length = p.blkCnt

structure TableOk (s : VbSystem) : Prop where
  shape : ∀ i, (s.pools i).used = true → PoolShape i (s.pools i)
  created : ∀ slot cfg mmb, s.lock = .crtpl slot cfg mmb → 0 < cfg.blkSize ∧ cfg.blkCnt ≤ 0xffff

/-- The block at an index is not free. -/
def VbPool.Taken (p : VbPool) (idx : ℕ) : Prop := p.freeMap[idx]? = some false

/-- The grant is of a taken block of a live pool with large enough blocks. -/
def Grant.Held (g : Grant) (s : VbSystem) : Prop :=
  ∃ i idx, g.handle = vbHandle i idx ∧ s.Live i ∧ (s.pools i).Taken idx ∧
    g.blkSize ≤ (s.pools i).blkSize

structure GrantsOk (u : VbUsers) : Prop where
  own : PoolsOwn u.sys
  table : TableOk u.sys
  held : ∀ g ∈ u.outstanding, g.Held u.sys

theorem TableOk.mapped_lt {s : VbSystem} (table : TableOk s) {i idx : ℕ}
    (used : (s.pools i).used = true) {bit : Bool}
    (mapped : (s.pools i).freeMap[idx]? = some bit) :
    idx < (s.pools i).blkCnt ∧ idx < 2 ^ 16 := by
  have shape := table.shape i used
  have inMap := (List.getElem?_eq_some_iff.mp mapped).1
  rw [shape.mapped] at inMap
  exact ⟨inMap, Nat.lt_of_lt_of_le inMap (Nat.le_succ_of_le shape.few)⟩

/-- What an operation on the bitmap of one pool changes. -/
@[simp]
theorem setFreeMap_same (s : VbSystem) (slot : ℕ) (freeMap : List Bool) :
    (s.setFreeMap slot freeMap).pools slot = { s.pools slot with freeMap } :=
  Function.update_self ..

@[simp]
theorem setFreeMap_of_ne (s : VbSystem) {slot i : ℕ} (other : i ≠ slot) (freeMap : List Bool) :
    (s.setFreeMap slot freeMap).pools i = s.pools i :=
  Function.update_of_ne other ..

theorem TableOk.setFreeMap {s : VbSystem} (table : TableOk s) {slot : ℕ} {freeMap : List Bool}
    (length : freeMap.length = (s.pools slot).freeMap.length) :
    TableOk (s.setFreeMap slot freeMap) := by
  refine ⟨?_, table.created⟩
  intro i used
  by_cases here : i = slot
  · subst here
    rw [setFreeMap_same] at used ⊢
    have shape := table.shape i used
    exact ⟨shape.id, shape.positive, shape.few, length.trans shape.mapped⟩
  · rw [setFreeMap_of_ne s here] at used ⊢
    exact table.shape i used

theorem VbSystem.Live.setFreeMap {s : VbSystem} {i : ℕ} (live : s.Live i) (slot : ℕ)
    (freeMap : List Bool) : (s.setFreeMap slot freeMap).Live i := by
  refine ⟨live.1, ?_, live.2.2⟩
  by_cases here : i = slot
  · subst here
    rw [setFreeMap_same]
    exact live.2.1
  · rw [setFreeMap_of_ne s here]
    exact live.2.1

/-- A grant is kept where its own bit is not set. -/
theorem Grant.Held.setFreeMap {g : Grant} {s : VbSystem} (held : g.Held s) {slot at' : ℕ}
    {bit : Bool} (bitOff : bit = true → g.handle ≠ vbHandle slot at') :
    g.Held (s.setFreeMap slot ((s.pools slot).freeMap.set at' bit)) := by
  rcases held with ⟨i, idx, handle, live, taken, large⟩
  refine ⟨i, idx, handle, live.setFreeMap _ _, ?_⟩
  by_cases here : i = slot
  · subst here
    refine ⟨?_, ?_⟩
    · simp only [VbPool.Taken, setFreeMap_same, List.getElem?_set]
      split
      next same =>
        subst same
        rw [if_pos (List.getElem?_eq_some_iff.mp taken).1]
        cases bit with
        | false => rfl
        | true => exact absurd handle (bitOff rfl)
      next => exact taken
    · simpa using large
  · simp only [VbPool.Taken, setFreeMap_of_ne s here]
    exact ⟨taken, large⟩

/-- A grant is kept where one other pool comes or goes. -/
theorem Grant.Held.of_kept {g : Grant} {s next : VbSystem} (held : g.Held s) {slot : ℕ}
    (dead : ¬ s.Live slot) (kept : ∀ i, i ≠ slot → next.pools i = s.pools i)
    (free : next.lock = .free) : g.Held next := by
  rcases held with ⟨i, idx, handle, live, taken, large⟩
  have other : i ≠ slot := by
    rintro rfl
    exact dead live
  refine ⟨i, idx, handle, ⟨live.1, ?_, by rw [free]; nofun⟩, ?_, ?_⟩
  · rw [kept i other]
    exact live.2.1
  · rwa [kept i other]
  · rwa [kept i other]

theorem VbSystem.live_of_used {s : VbSystem} (free : s.lock = .free) {i : ℕ}
    (inTable : i < maxPools)
    (used : (s.pools i).used = true) : s.Live i := by
  refine ⟨inTable, used, ?_⟩
  rw [free]
  exact nofun

theorem VbSystem.getblkSlot_live {s : VbSystem} (free : s.lock = .free) {blk : VbBlk} {slot : ℕ}
    (found : s.getblkSlot blk = some slot) : s.Live slot := by
  rw [VbSystem.getblkSlot] at found
  split at found
  next =>
    have member := List.mem_of_find?_eq_some found
    have fits := List.find?_some found
    simp only [Bool.and_eq_true] at fits
    exact s.live_of_used free (List.mem_range.mp member) fits.1.1
  next =>
    rcases Option.ite_none_right_eq_some.mp found with ⟨⟨inTable, used⟩, same⟩
    cases same
    exact s.live_of_used free inTable used

/-- `GETBLK` takes a free block of a live pool with large enough blocks, or changes nothing. -/
theorem VbSystem.getblk_cases {s : VbSystem} (table : TableOk s) (free : s.lock = .free)
    (blk : VbBlk) :
    (∃ errno, s.getblk blk = (.error errno, s)) ∨
      ∃ slot idx, s.Live slot ∧ blk.blkSize ≤ (s.pools slot).blkSize ∧
        (s.pools slot).freeMap[idx]? = some true ∧
        s.getblk blk = (.ok (vbHandle slot idx),
          s.setFreeMap slot ((s.pools slot).freeMap.set idx false)) := by
  rw [VbSystem.getblk]
  split
  next => exact .inl ⟨_, rfl⟩
  next =>
    split
    next => exact .inl ⟨_, rfl⟩
    next slot found =>
      have live := VbSystem.getblkSlot_live free found
      have shape := table.shape slot live.2.1
      dsimp only
      split
      next => exact .inl ⟨_, rfl⟩
      next fits =>
        split
        next => exact .inl ⟨_, rfl⟩
        next inPool =>
          have inMap : (s.pools slot).freeMap.findIdx id < (s.pools slot).freeMap.length := by
            rw [shape.mapped]
            exact Nat.lt_of_not_le inPool
          have isFree := List.findIdx_getElem (w := inMap)
          refine .inr ⟨slot, _, live, by omega, ?_, by rw [shape.id]⟩
          rw [List.getElem?_eq_getElem inMap]
          exact congrArg some isFree

/-- `RLSBLK` sets the bit of its handle, or changes nothing. -/
theorem VbSystem.rlsblk_cases (s : VbSystem) (handle : ℕ) :
    (∃ errno, s.rlsblk handle = (.error errno, s)) ∨ s.rlsblk handle = (.ok (), s) ∨
      s.rlsblk handle = (.ok (), s.setFreeMap (handle >>> 16)
        ((s.pools (handle >>> 16)).freeMap.set (handle &&& 0xffff) true)) := by
  rw [VbSystem.rlsblk]
  split
  next => exact .inl ⟨_, rfl⟩
  next =>
    split
    next => exact .inl ⟨_, rfl⟩
    next p found =>
      rcases VbSystem.poolById_spec found with ⟨_, _, rfl⟩
      dsimp only
      split
      next => exact .inr (.inr rfl)
      next => exact .inr (.inl rfl)

/-! ### Every event -/

section Step

variable {u next : VbUsers}

theorem GrantsOk.getblk (ok : GrantsOk u) (free : u.sys.lock = .free) (blk : VbBlk)
    (own : PoolsOwn (u.sys.getblk blk).2) :
    GrantsOk ⟨(u.sys.getblk blk).2, u.outstandingAfter (.getblk blk)⟩ := by
  rcases VbSystem.getblk_cases ok.table free blk with
    ⟨errno, failed⟩ | ⟨slot, idx, live, large, isFree, granted⟩
  · simp only [VbUsers.outstandingAfter, failed]
    exact ok
  · simp only [VbUsers.outstandingAfter, granted] at own ⊢
    refine ⟨own, ok.table.setFreeMap (List.length_set ..), ?_⟩
    intro g mem
    rcases List.mem_cons.mp mem with rfl | old
    · refine ⟨slot, idx, rfl, live.setFreeMap _ _, ?_, by simpa using large⟩
      have inMap := (List.getElem?_eq_some_iff.mp isFree).1
      simp [VbPool.Taken, inMap]
    · exact (ok.held g old).setFreeMap fun off => absurd off Bool.false_ne_true

theorem GrantsOk.rlsblk (ok : GrantsOk u) (handle : ℕ) (own : PoolsOwn (u.sys.rlsblk handle).2) :
    GrantsOk ⟨(u.sys.rlsblk handle).2, u.outstandingAfter (.rlsblk handle)⟩ := by
  have others : ∀ g ∈ u.outstanding.filter fun g => g.handle ≠ handle,
      g.handle ≠ handle ∧ g.Held u.sys := by
    intro g mem
    rcases List.mem_filter.mp mem with ⟨old, other⟩
    exact ⟨of_decide_eq_true other, ok.held g old⟩
  rcases u.sys.rlsblk_cases handle with ⟨errno, failed⟩ | nothing | released
  · simp only [VbUsers.outstandingAfter, failed]
    exact ok
  · simp only [VbUsers.outstandingAfter, nothing] at own ⊢
    exact ⟨own, ok.table, fun g mem => (others g mem).2⟩
  · simp only [VbUsers.outstandingAfter, released] at own ⊢
    refine ⟨own, ok.table.setFreeMap (List.length_set ..), ?_⟩
    intro g mem
    apply (others g mem).2.setFreeMap
    intro _
    rw [vbHandle_parts]
    exact (others g mem).1

/-- Grants stay where the pools are the same and as much alive. -/
theorem GrantsOk.samePools (ok : GrantsOk u) (own : PoolsOwn next.sys)
    (pools : next.sys.pools = u.sys.pools)
    (created : ∀ slot cfg mmb, next.sys.lock = .crtpl slot cfg mmb →
      0 < cfg.blkSize ∧ cfg.blkCnt ≤ 0xffff)
    (fewer : ∀ g ∈ next.outstanding, g ∈ u.outstanding)
    (live : ∀ g ∈ next.outstanding, ∀ i idx, g.handle = vbHandle i idx →
      u.sys.Live i → (u.sys.pools i).Taken idx → next.sys.Live i) : GrantsOk next := by
  refine ⟨own, ⟨?_, created⟩, ?_⟩
  · rw [pools]
    exact ok.table.shape
  · intro g mem
    rcases ok.held g (fewer g mem) with ⟨i, idx, handle, wasLive, taken, large⟩
    refine ⟨i, idx, handle, live g mem i idx handle wasLive taken, ?_, ?_⟩
    · rwa [pools]
    · rwa [pools]

theorem VbSystem.crtpl_cases (s : VbSystem) (cfg : VbPoolCfg) (kzallocOk : Bool) :
    (s.crtpl cfg kzallocOk).2.pools = s.pools ∧ ((s.crtpl cfg kzallocOk).2.lock = s.lock ∨
      ∃ slot mmb, (s.crtpl cfg kzallocOk).2.lock = .crtpl slot cfg mmb ∧
        0 < cfg.blkSize ∧ cfg.blkCnt ≤ 0xffff) := by
  rw [VbSystem.crtpl]
  split
  next => exact ⟨rfl, .inl rfl⟩
  next valid =>
    split
    next => exact ⟨rfl, .inl rfl⟩
    next =>
      split
      next => exact ⟨rfl, .inl rfl⟩
      next slot _ =>
        split
        next => exact ⟨rfl, .inl rfl⟩
        next mmb _ _ => exact ⟨rfl, .inr ⟨slot, mmb, rfl, by omega, by omega⟩⟩

theorem GrantsOk.crtpl (ok : GrantsOk u) (free : u.sys.lock = .free) (cfg : VbPoolCfg)
    (kzallocOk : Bool) (own : PoolsOwn (u.sys.crtpl cfg kzallocOk).2) :
    GrantsOk ⟨(u.sys.crtpl cfg kzallocOk).2, u.outstanding⟩ := by
  rcases u.sys.crtpl_cases cfg kzallocOk with ⟨pools, lock⟩
  refine ok.samePools own pools ?_ (fun g mem => mem) ?_
  · intro slot other mmb creating
    rcases lock with same | ⟨_, _, created, valid⟩
    · exact absurd ((creating.symm.trans same).trans free) nofun
    · rw [created] at creating
      cases creating
      exact valid
  · rintro g mem i idx handle ⟨inTable, used, _⟩ taken
    refine ⟨inTable, by rwa [pools], ?_⟩
    rcases lock with same | ⟨_, _, created, _⟩
    · rw [same, free]
      exact nofun
    · rw [created]
      exact nofun

theorem GrantsOk.crtplFinish (ok : GrantsOk u) {slot : ℕ} {cfg : VbPoolCfg} {mmb : Mmb}
    (lock : u.sys.lock = .crtpl slot cfg mmb) (bitmapOk : Bool)
    (own : PoolsOwn (u.sys.crtplFinish slot cfg mmb bitmapOk).2) :
    GrantsOk ⟨(u.sys.crtplFinish slot cfg mmb bitmapOk).2, u.outstanding⟩ := by
  rcases ok.table.created slot cfg mmb lock with ⟨positive, few⟩
  cases bitmapOk with
  | false =>
      exact ok.samePools own rfl nofun (fun g mem => mem)
        fun g mem i idx handle live taken => ⟨live.1, live.2.1, nofun⟩
  | true =>
      have kept : ∀ i, i ≠ slot →
          (u.sys.crtplFinish slot cfg mmb true).2.pools i = u.sys.pools i :=
        fun i other => Function.update_of_ne other ..
      have filled : (u.sys.crtplFinish slot cfg mmb true).2.pools slot = newPool slot cfg mmb :=
        Function.update_self ..
      refine ⟨own, ⟨?_, nofun⟩, ?_⟩
      · intro i used
        by_cases here : i = slot
        · subst here
          rw [filled]
          exact ⟨rfl, positive, few, List.length_replicate⟩
        · rw [kept i here] at used ⊢
          exact ok.table.shape i used
      · intro g mem
        refine (ok.held g mem).of_kept ?_ kept rfl
        intro live
        exact absurd ((ok.own.slot slot cfg mmb lock).2.symm.trans live.2.1) Bool.false_ne_true

theorem GrantsOk.destpl (ok : GrantsOk u) (id : ℕ) (own : PoolsOwn (u.sys.destpl id).2) :
    GrantsOk ⟨(u.sys.destpl id).2, u.outstandingAfter (.destpl id)⟩ := by
  cases found : u.sys.poolById id with
  | none =>
      have failed : u.sys.destpl id = (.error .einval, u.sys) := by rw [VbSystem.destpl, found]
      simp only [VbUsers.outstandingAfter, failed]
      exact ok
  | some p =>
      have freed : u.sys.destpl id =
          (.ok (), { u.sys with mmz := u.sys.mmz.hilMmbFree p.mmb, lock := .destpl id }) := by
        rw [VbSystem.destpl, found]
      simp only [VbUsers.outstandingAfter, freed] at own ⊢
      refine ok.samePools own rfl ?_ (fun g mem => (List.mem_filter.mp mem).1) ?_
      · intro slot cfg mmb creating
        cases creating
      · intro g mem i idx handle live taken
        refine ⟨live.1, live.2.1, ?_⟩
        rintro ⟨⟩
        have other := of_decide_eq_true (List.mem_filter.mp mem).2
        rw [handle, vbHandle_pool id (ok.table.mapped_lt live.2.1 taken).2] at other
        exact other rfl

theorem GrantsOk.destplFinish (ok : GrantsOk u) {slot : ℕ} (lock : u.sys.lock = .destpl slot)
    (own : PoolsOwn (u.sys.destplFinish slot)) :
    GrantsOk ⟨u.sys.destplFinish slot, u.outstanding⟩ := by
  have kept : ∀ i, i ≠ slot → (u.sys.destplFinish slot).pools i = u.sys.pools i :=
    fun i other => Function.update_of_ne other ..
  have cleared : (u.sys.destplFinish slot).pools slot = .zero := Function.update_self ..
  refine ⟨own, ⟨?_, nofun⟩, ?_⟩
  · intro i used
    by_cases here : i = slot
    · rw [here, cleared] at used
      exact absurd used nofun
    · rw [kept i here] at used ⊢
      exact ok.table.shape i used
  · intro g mem
    exact (ok.held g mem).of_kept (fun live => live.2.2 lock) kept rfl

/-- The MMZ side knows nothing of pools. -/
theorem GrantsOk.withMmz (ok : GrantsOk u) {mmz : MmzState} (own : PoolsOwn { u.sys with mmz }) :
    GrantsOk ⟨{ u.sys with mmz }, u.outstanding⟩ :=
  ok.samePools own rfl ok.table.created (fun _ mem => mem) fun _ _ _ _ _ live _ => live

theorem UsersStep.grantsOk (ok : GrantsOk u) {event : VbEvent} (step : UsersStep u event next) :
    GrantsOk next := by
  rcases step with ⟨spares, step⟩
  rcases Option.map_eq_some_iff.mp step with ⟨sys, done, rfl⟩
  have own : PoolsOwn sys := SparingStep.poolsOwn ok.own ⟨spares, done⟩
  cases event with
  | mmbAlloc zoneName size align kzallocOk =>
      cases done
      exact ok.withMmz own
  | mmbFree phys =>
      cases done
      exact ok.withMmz own
  | mmbGet phys =>
      cases done
      exact ok.withMmz own
  | mmbPut phys =>
      cases done
      exact ok.withMmz own
  | crtpl cfg kzallocOk =>
      rcases Option.ite_none_right_eq_some.mp done with ⟨free, same⟩
      cases same
      exact ok.crtpl free cfg kzallocOk own
  | crtplFinish bitmapOk =>
      simp only [vbStep] at done
      split at done
      next slot cfg mmb lock =>
        cases done
        exact ok.crtplFinish lock bitmapOk own
      next => cases done
  | destpl id =>
      rcases Option.ite_none_right_eq_some.mp done with ⟨free, same⟩
      cases same
      exact ok.destpl id own
  | destplFinish =>
      simp only [vbStep] at done
      split at done
      next slot lock =>
        cases done
        exact ok.destplFinish lock own
      next => cases done
  | getblk blk =>
      rcases Option.ite_none_right_eq_some.mp done with ⟨free, same⟩
      cases same
      exact ok.getblk free blk own
  | rlsblk handle =>
      rcases Option.ite_none_right_eq_some.mp done with ⟨free, same⟩
      cases same
      exact ok.rlsblk handle own

end Step

/-! ### Blocks -/

section Blocks

variable {s : VbSystem}

theorem PoolsOwn.extent (own : PoolsOwn s) {i : ℕ} (live : s.Live i) :
    ∃ b ∈ s.mmz.blocks, b.ptr = (s.pools i).mmb ∧ b.phys = (s.pools i).base ∧
      (s.pools i).base + (s.pools i).blkSize * (s.pools i).blkCnt ≤ b.phys + b.size ∧
      b.phys + b.size < 2 ^ 64 := by
  rcases own.backed i _ (.live live) with ⟨_, ⟨b, linked, rfl⟩, ptrEq, physEq, large⟩
  have below : b.phys + b.size < 2 ^ 64 := own.mmz.stop_lt (MmzState.mem_allocated linked)
  have base : b.phys = (s.pools i).base := physEq
  refine ⟨b, linked, ptrEq, base, ?_, below⟩
  rw [base]
  exact Nat.add_le_add_left large _

theorem VbSystem.blockStop_le (s : VbSystem) {i idx : ℕ} (inPool : idx < (s.pools i).blkCnt) :
    s.blockStart i idx + (s.pools i).blkSize ≤
      (s.pools i).base + (s.pools i).blkSize * (s.pools i).blkCnt := by
  have rows := Nat.mul_le_mul_right (s.pools i).blkSize (Nat.succ_le_of_lt inPool)
  rw [Nat.succ_mul, Nat.mul_comm (s.pools i).blkCnt] at rows
  rw [VbSystem.blockStart]
  omega

/-- Different blocks of live pools share no byte. -/
theorem PoolsOwn.blocksApart (own : PoolsOwn s) {i j idx jdx : ℕ} (liveI : s.Live i)
    (liveJ : s.Live j) (inI : idx < (s.pools i).blkCnt) (inJ : jdx < (s.pools j).blkCnt)
    (different : vbHandle i idx ≠ vbHandle j jdx) :
    Apart (s.blockStart i idx) (s.blockStart i idx + (s.pools i).blkSize)
      (s.blockStart j jdx) (s.blockStart j jdx + (s.pools j).blkSize) := by
  by_cases same : i = j
  · subst same
    have rows : ∀ {a b : ℕ}, a < b →
        s.blockStart i a + (s.pools i).blkSize ≤ s.blockStart i b := by
      intro a b before
      have le := Nat.mul_le_mul_right (s.pools i).blkSize (Nat.succ_le_of_lt before)
      rw [Nat.succ_mul] at le
      simp only [VbSystem.blockStart]
      omega
    rcases Nat.lt_or_gt_of_ne (fun row => different (congrArg _ row)) with before | after
    · exact .inl (rows before)
    · exact .inr (rows after)
  · have startI : (s.pools i).base ≤ s.blockStart i idx := Nat.le_add_right ..
    have startJ : (s.pools j).base ≤ s.blockStart j jdx := Nat.le_add_right ..
    have stopI := s.blockStop_le inI
    have stopJ := s.blockStop_le inJ
    rcases own.ownsMemory.poolsApart i j liveI liveJ same with before | after
    · exact .inl (by omega)
    · exact .inr (by omega)

theorem VbSystem.vbHl2pa_of_live (own : PoolsOwn s) (table : TableOk s) {i idx : ℕ}
    (live : s.Live i) (inPool : idx < (s.pools i).blkCnt) :
    s.vbHl2pa (vbHandle i idx) = .ok (s.blockStart i idx) := by
  have shape := table.shape i live.2.1
  have fits : idx < 2 ^ 16 := Nat.lt_of_lt_of_le inPool (Nat.le_succ_of_le shape.few)
  rcases own.extent live with ⟨b, _, _, base, large, below⟩
  have stop := s.blockStop_le inPool
  rw [VbSystem.blockStart] at stop
  rw [VbSystem.vbHl2pa, if_neg (Nat.not_lt.mpr (vbHandle_le live.1 fits)), vbHandle_pool i fits,
    VbSystem.poolById, if_pos ⟨live.1, live.2.1⟩]
  dsimp only
  rw [vbHandle_index i fits, if_neg (Nat.not_le.mpr inPool), Nat.mod_eq_of_lt (by omega),
    Nat.mod_eq_of_lt (by omega)]
  rfl

theorem VbSystem.vbHl2pa_inv (own : PoolsOwn s) (table : TableOk s) (free : s.lock = .free)
    {handle phys : ℕ} (done : s.vbHl2pa handle = .ok phys) :
    ∃ i idx, handle = vbHandle i idx ∧ s.Live i ∧ idx < (s.pools i).blkCnt ∧
      phys = s.blockStart i idx := by
  have whole := done
  rw [VbSystem.vbHl2pa] at done
  split at done
  next => cases done
  next =>
    split at done
    next => cases done
    next p found =>
      rcases VbSystem.poolById_spec found with ⟨inTable, used, rfl⟩
      have live := s.live_of_used free inTable used
      dsimp only at done
      split at done
      next => cases done
      next inPool =>
        have inside := Nat.lt_of_not_le inPool
        have translated := VbSystem.vbHl2pa_of_live own table live inside
        rw [vbHandle_parts, whole] at translated
        cases translated
        exact ⟨_, _, (vbHandle_parts handle).symm, live, inside, rfl⟩

theorem VbSystem.poolByPhys_of_live (own : PoolsOwn s) (free : s.lock = .free) {i phys : ℕ}
    (live : s.Live i) (above : (s.pools i).base ≤ phys)
    (below : phys < (s.pools i).base + (s.pools i).blkSize * (s.pools i).blkCnt) :
    s.poolByPhys phys = some (s.pools i) := by
  have covers : ∀ {j}, s.Live j →
      (((s.pools j).used && (s.pools j).base ≤ phys &&
        phys < ((s.pools j).base + (s.pools j).blkSize * (s.pools j).blkCnt % 2 ^ 64) % 2 ^ 64) =
          true ↔ (s.pools j).base ≤ phys ∧
            phys < (s.pools j).base + (s.pools j).blkSize * (s.pools j).blkCnt) := by
    intro j liveJ
    rcases own.extent liveJ with ⟨b, _, _, base, large, end'⟩
    rw [Nat.mod_eq_of_lt (by omega), Nat.mod_eq_of_lt (by omega)]
    simp [liveJ.2.1]
  cases found : s.poolByPhys phys with
  | none =>
      have none := List.find?_eq_none.mp found (s.pools i)
        (List.mem_map.mpr ⟨i, List.mem_range.mpr live.1, rfl⟩)
      exact absurd ((covers live).mpr ⟨above, below⟩) none
  | some p =>
      rcases List.mem_map.mp (List.mem_of_find?_eq_some found) with ⟨j, inTable, rfl⟩
      have has := List.find?_some found
      have used : (s.pools j).used = true := by
        simp only [Bool.and_eq_true] at has
        exact has.1.1
      have liveJ := s.live_of_used free (List.mem_range.mp inTable) used
      rcases (covers liveJ).mp has with ⟨aboveJ, belowJ⟩
      by_cases same : j = i
      · rw [same]
      · rcases own.ownsMemory.poolsApart j i liveJ live same with before | after
        · omega
        · omega

theorem VbSystem.vbPa2hl_of_live (own : PoolsOwn s) (table : TableOk s) (free : s.lock = .free)
    {i idx phys : ℕ} (live : s.Live i) (inPool : idx < (s.pools i).blkCnt)
    (above : s.blockStart i idx ≤ phys)
    (below : phys < s.blockStart i idx + (s.pools i).blkSize) :
    s.vbPa2hl phys = .ok (vbHandle i idx) := by
  have shape := table.shape i live.2.1
  have stop := s.blockStop_le inPool
  have start : (s.pools i).base ≤ s.blockStart i idx := Nat.le_add_right ..
  have row : (phys - (s.pools i).base) / (s.pools i).blkSize = idx := by
    simp only [VbSystem.blockStart] at above below
    apply Nat.div_eq_of_lt_le
    · omega
    · rw [Nat.succ_mul]
      omega
  have found := VbSystem.poolByPhys_of_live own free live (Nat.le_trans start above)
    (Nat.lt_of_lt_of_le below stop)
  have small : idx < 2 ^ 32 := by
    have few := shape.few
    omega
  unfold VbSystem.vbPa2hl
  split
  next notFound => exact absurd (notFound.symm.trans found) nofun
  next p same =>
    cases found.symm.trans same
    rw [shape.id, row, Nat.mod_eq_of_lt small]

end Blocks

/-! ### Every run -/

/-- The block of a grant. -/
theorem GrantsOk.block {u : VbUsers} (ok : GrantsOk u) {g : Grant} (mem : g ∈ u.outstanding) :
    ∃ i idx, g.handle = vbHandle i idx ∧ g.handle >>> 16 = i ∧ u.sys.Live i ∧
      idx < (u.sys.pools i).blkCnt ∧ (u.sys.pools i).Taken idx ∧
      g.blkSize ≤ (u.sys.pools i).blkSize ∧ g.handle ≤ vbHandleMax ∧
      u.sys.vbHl2pa g.handle = .ok (u.sys.blockStart i idx) := by
  rcases ok.held g mem with ⟨i, idx, handle, live, taken, large⟩
  rcases ok.table.mapped_lt live.2.1 taken with ⟨inPool, fits⟩
  refine ⟨i, idx, handle, ?_, live, inPool, taken, large, ?_, ?_⟩
  · rw [handle, vbHandle_pool i fits]
  · rw [handle]
    exact vbHandle_le live.1 fits
  · rw [handle]
    exact VbSystem.vbHl2pa_of_live ok.own ok.table live inPool

/-- A handle that is granted belongs to no outstanding grant. -/
theorem GrantsOk.getblk_fresh {u : VbUsers} (ok : GrantsOk u) (free : u.sys.lock = .free)
    {blk : VbBlk} {handle : ℕ} (granted : (u.sys.getblk blk).1 = .ok handle) {g : Grant}
    (mem : g ∈ u.outstanding) : g.handle ≠ handle := by
  rcases ok.block mem with ⟨i, idx, isHandle, _, live, inPool, taken, _⟩
  rcases VbSystem.getblk_cases ok.table free blk with
    ⟨errno, failed⟩ | ⟨slot, jdx, liveSlot, _, isFree, done⟩
  · rw [failed] at granted
    cases granted
  · rw [done] at granted
    cases granted
    rw [isHandle]
    intro same
    rcases vbHandle_inj (ok.table.mapped_lt live.2.1 taken).2
      (ok.table.mapped_lt liveSlot.2.1 isFree).2 same with ⟨rfl, rfl⟩
    exact absurd (taken.symm.trans isFree) nofun

/-- The handle of a block is the only one that stands for its address. -/
theorem VbSystem.vbHl2pa_iff (own : PoolsOwn s) (table : TableOk s) (free : s.lock = .free)
    {i idx : ℕ} (live : s.Live i) (inPool : idx < (s.pools i).blkCnt) (other : ℕ) :
    s.vbHl2pa other = .ok (s.blockStart i idx) ↔ other = vbHandle i idx := by
  constructor
  · intro translated
    rcases VbSystem.vbHl2pa_inv own table free translated with ⟨j, jdx, rfl, liveJ, inJ, start⟩
    by_contra different
    have apart := own.blocksApart liveJ live inJ inPool different
    have positive := (table.shape i live.2.1).positive
    have positiveJ := (table.shape j liveJ.2.1).positive
    rcases apart with before | after
    · omega
    · omega
  · rintro rfl
    exact VbSystem.vbHl2pa_of_live own table live inPool

/-- A request for any pool fails only if no pool that is large enough has a free block. -/
theorem VbSystem.getblk_anyPool (table : TableOk s) {blk : VbBlk} (any : blk.poolId = 2 ^ 32 - 1)
    (uid : blk.vbUid ≤ vbUidMax) {errno : Errno} (failed : (s.getblk blk).1 = .error errno)
    {i : ℕ} (live : s.Live i) (large : blk.blkSize ≤ (s.pools i).blkSize) (idx : ℕ) :
    (s.pools i).freeMap[idx]? ≠ some true := by
  intro isFree
  rw [VbSystem.getblk, if_neg (Nat.not_lt.mpr uid), VbSystem.getblkSlot, if_pos any] at failed
  cases found : s.anyPool blk with
  | none =>
      have unfit := List.find?_eq_none.mp found i (List.mem_range.mpr live.1)
      apply unfit
      have hasFree : (s.pools i).freeMap.any id = true :=
        List.any_eq_true.mpr ⟨true, List.mem_of_getElem? isFree, rfl⟩
      simp [live.2.1, large, hasFree]
  | some slot =>
      have fits := List.find?_some found
      simp only [Bool.and_eq_true, Bool.or_eq_true, decide_eq_true_eq] at fits
      rcases fits with ⟨⟨used, size⟩, hasFree⟩
      have inMap : (s.pools slot).freeMap.findIdx id < (s.pools slot).freeMap.length :=
        List.findIdx_lt_length_of_exists (List.any_eq_true.mp hasFree)
      rw [(table.shape slot used).mapped] at inMap
      simp only [found] at failed
      rw [if_neg (by omega), if_neg (Nat.not_le.mpr inMap)] at failed
      cases failed

theorem GrantsOk.handlesOk {u : VbUsers} (ok : GrantsOk u) : HandlesOk u where
  fresh free blk handle granted g mem := ok.getblk_fresh free granted mem
  inRange g mem := by
    rcases ok.block mem with ⟨_, _, _, _, _, _, _, _, inRange, _⟩
    exact inRange
  denotes g mem := by
    rcases ok.block mem with ⟨i, idx, _, slot, live, inPool, _, large, _, start⟩
    rcases ok.own.extent live with ⟨b, linked, ptr, base, stop, _⟩
    have last := u.sys.blockStop_le inPool
    have first : (u.sys.pools i).base ≤ u.sys.blockStart i idx := Nat.le_add_right ..
    refine ⟨_, _, ⟨start, rfl⟩, ?_, b, linked, ?_, ?_, ?_⟩
    · rwa [slot]
    · rwa [slot]
    · rwa [base]
    · rw [slot]
      exact Nat.le_trans last stop
  apart g mem k other different phys size phys' size' := by
    rintro ⟨start, rfl⟩ ⟨start', rfl⟩
    rcases ok.block mem with ⟨i, idx, isHandle, slot, live, inPool, _, _, _, block⟩
    rcases ok.block other with ⟨j, jdx, isHandle', slot', live', inPool', _, _, _, block'⟩
    cases start.symm.trans block
    cases start'.symm.trans block'
    rw [slot, slot']
    rw [isHandle, isHandle'] at different
    exact ok.own.blocksApart live live' inPool inPool' different
  translates free i live idx inPool phys above below :=
    ⟨_, VbSystem.vbPa2hl_of_live ok.own ok.table free live inPool above below,
      VbSystem.vbHl2pa_iff ok.own ok.table free live inPool⟩
  anyPool free blk any uid errno failed i live large idx inPool :=
    VbSystem.getblk_anyPool ok.table any uid failed live large idx

theorem vbHandles_ok {zones : List MmzZone} (created : ZonesCreated zones)
    {events : List VbEvent} {u : VbUsers} (run : Run UsersStep (.loaded zones) events u) :
    HandlesOk u := by
  have ok : GrantsOk u := by
    refine run.invariant (fun _ _ _ ok step => UsersStep.grantsOk ok step)
      ⟨.loaded created, ⟨?_, nofun⟩, ?_⟩
    · intro i used
      exact absurd used nofun
    · rintro g ⟨⟩
  exact ok.handlesOk

/-- A slot is used again, with blocks of another size. -/
theorem vbHandles_ok_reused :
    ∃ u, Run UsersStep (.loaded [anonymousZone])
        [.crtpl { blkSize := 0x1000, blkCnt := 1 } true, .crtplFinish true, .getblk ⟨0, 0, 0⟩,
          .destpl 0, .destplFinish, .crtpl { blkSize := 0x100, blkCnt := 4 } true,
          .crtplFinish true, .getblk ⟨2 ^ 32 - 1, 0x100, 0⟩, .getblk ⟨0, 0, 0⟩, .rlsblk 0] u ∧
      u.outstanding.map Grant.handle = [1] ∧
      (u.sys.vbPa2hl 0x29200104).toOption = some 1 ∧ HandlesOk u := by
  have checked : ([.crtpl { blkSize := 0x1000, blkCnt := 1 } true, .crtplFinish true,
      .getblk ⟨0, 0, 0⟩, .destpl 0, .destplFinish, .crtpl { blkSize := 0x100, blkCnt := 4 } true,
      .crtplFinish true, .getblk ⟨2 ^ 32 - 1, 0x100, 0⟩, .getblk ⟨0, 0, 0⟩, .rlsblk 0].foldlM
        (fun u event => if VbUsers.Spares u event then usersStep u event else none)
        (VbUsers.loaded [anonymousZone])).any (fun u =>
      decide (u.outstanding.map Grant.handle = [1] ∧
        (u.sys.vbPa2hl 0x29200104).toOption = some 1)) = true := by
    decide +kernel
  rcases (Option.any_eq_true _ _).mp checked with ⟨u, done, facts⟩
  rcases of_decide_eq_true facts with ⟨handles, translated⟩
  have run := Run.of_foldlM_guarded VbUsers.Spares usersStep done
  exact ⟨u, run, handles, translated, vbHandles_ok zonesCreated_anonymous run⟩

/-- `GETBLK` of any pool refuses an owner id past `VB_UID_MAX`, also when there is a block. -/
theorem vbHandles_not_granted :
    ¬ ∀ (zones : List MmzZone), ZonesCreated zones → ∀ (events : List VbEvent) (u : VbUsers),
      Run UsersStep (.loaded zones) events u → u.sys.lock = .free →
        ∀ blk : VbBlk, blk.poolId = 2 ^ 32 - 1 → ∀ errno, (u.sys.getblk blk).1 = .error errno →
          ∀ i, u.sys.Live i → blk.blkSize ≤ (u.sys.pools i).blkSize →
            ∀ idx < (u.sys.pools i).blkCnt, (u.sys.pools i).freeMap[idx]? ≠ some true := by
  intro onlyWhenNone
  have refused : ([.crtpl { blkSize := 0x1000, blkCnt := 1 } true, .crtplFinish true].foldlM
        (fun u event => if VbUsers.Spares u event then usersStep u event else none)
        (VbUsers.loaded [anonymousZone])).any (fun u =>
      decide (u.sys.lock = .free ∧ (u.sys.getblk ⟨2 ^ 32 - 1, 0, 0x18⟩).1.toOption = none ∧
        u.sys.Live 0 ∧ 0 < (u.sys.pools 0).blkCnt ∧
        (u.sys.pools 0).freeMap[0]? = some true)) = true := by
    decide +kernel
  rcases (Option.any_eq_true _ _).mp refused with ⟨u, done, facts⟩
  rcases of_decide_eq_true facts with ⟨free, failed, live, inPool, isFree⟩
  have run := Run.of_foldlM_guarded VbUsers.Spares usersStep done
  cases result : (u.sys.getblk ⟨2 ^ 32 - 1, 0, 0x18⟩).1 with
  | ok handle =>
      rw [result] at failed
      cases failed
  | error errno =>
      exact onlyWhenNone _ zonesCreated_anonymous _ u run free _ rfl errno result 0 live
        (Nat.zero_le _) 0 inPool isFree

end MlKernel.Mmz
