import MlKernel.Lib.Run
import MlKernel.Mmz.VbPool

/-!
# Pools and allocations in any order

The ioctls of `/dev/ar_vb` and `/dev/mmz_userdev` run in any order, and those of
the latter also in the middle of a `CRTPL` or a `DESTPL`.  The MMZ side frees a
block by any address inside it and knows nothing of pools, so a pool keeps its
memory only as long as `FREE` and `PUT` leave its block alone (`SparesPools`).
Under that condition every pool holds a linked block of its own (`PoolsOwn`), and
no descriptor is freed twice.
-/

namespace MlKernel.Mmz

inductive VbEvent
  | mmbAlloc (zoneName : String) (size align : ℕ) (kzallocOk : Bool)
  | mmbFree (phys : ℕ)
  | mmbGet (phys : ℕ)
  | mmbPut (phys : ℕ)
  | crtpl (cfg : VbPoolCfg) (kzallocOk : Bool)
  | crtplFinish (bitmapOk : Bool)
  | destpl (id : ℕ)
  | destplFinish
  | getblk (blk : VbBlk)
  | rlsblk (handle : ℕ)

/-- One event; `none` where `g_vb_lock` forbids it. -/
def vbStep (s : VbSystem) : VbEvent → Option VbSystem
  | .mmbAlloc zoneName size align kzallocOk =>
    some { s with mmz := (s.mmz.hilMmbAlloc zoneName size align kzallocOk).2 }
  | .mmbFree phys => some { s with mmz := (s.mmz.iocMmbFree phys).2 }
  | .mmbGet phys => some { s with mmz := (s.mmz.iocMmbGet phys).2 }
  | .mmbPut phys => some { s with mmz := (s.mmz.iocMmbPut phys).2 }
  | .crtpl cfg kzallocOk => if s.lock = .free then some (s.crtpl cfg kzallocOk).2 else none
  | .crtplFinish bitmapOk =>
    match s.lock with
    | .crtpl slot cfg mmb => some (s.crtplFinish slot cfg mmb bitmapOk).2
    | _ => none
  | .destpl id => if s.lock = .free then some (s.destpl id).2 else none
  | .destplFinish =>
    match s.lock with
    | .destpl slot => some (s.destplFinish slot)
    | _ => none
  | .getblk blk => if s.lock = .free then some (s.getblk blk).2 else none
  | .rlsblk handle => if s.lock = .free then some (s.rlsblk handle).2 else none

/-- Both modules loaded, with the zones just created. -/
def VbSystem.loaded (zones : List MmzZone) : VbSystem :=
  { mmz := { zones, nextPtr := 0, freed := [] }, pools := fun _ => .zero, lock := .free }

/-- A pool that was created and not destroyed. -/
def VbSystem.Live (s : VbSystem) (i : ℕ) : Prop :=
  i < maxPools ∧ (s.pools i).used = true ∧ s.lock ≠ .destpl i

def VbLock.Creates : VbLock → ℕ → Prop
  | .crtpl _ _ mmb, ptr => mmb.ptr = ptr
  | _, _ => False

/-- The descriptor of a live pool, or of a pool in creation. -/
def VbSystem.Owns (s : VbSystem) (ptr : ℕ) : Prop :=
  (∃ i < maxPools, s.Live i ∧ (s.pools i).mmb = ptr) ∨ s.lock.Creates ptr

/-- `FREE` and `PUT` do not come at an address of a pool whose block they would unlink. -/
def SparesPools (s : VbSystem) : VbEvent → Prop
  | .mmbFree phys => ∀ b ∈ s.mmz.freeUnlinks phys, ¬ s.Owns b.ptr
  | .mmbPut phys => ∀ b ∈ s.mmz.putUnlinks phys, ¬ s.Owns b.ptr
  | _ => True

instance (s : VbSystem) (i : ℕ) : Decidable (s.Live i) := inferInstanceAs (Decidable (_ ∧ _ ∧ _))

instance (lock : VbLock) (ptr : ℕ) : Decidable (lock.Creates ptr) :=
  match lock with
  | .free => .isFalse id
  | .crtpl _ _ mmb => inferInstanceAs (Decidable (mmb.ptr = ptr))
  | .destpl _ => .isFalse id

instance (s : VbSystem) (ptr : ℕ) : Decidable (s.Owns ptr) := inferInstanceAs (Decidable (_ ∨ _))

instance (s : VbSystem) (event : VbEvent) : Decidable (SparesPools s event) :=
  match event with
  | .mmbFree phys => inferInstanceAs (Decidable (∀ b ∈ s.mmz.freeUnlinks phys, ¬ s.Owns b.ptr))
  | .mmbPut phys => inferInstanceAs (Decidable (∀ b ∈ s.mmz.putUnlinks phys, ¬ s.Owns b.ptr))
  | .mmbAlloc .. | .mmbGet _ | .crtpl .. | .crtplFinish _ | .destpl _ | .destplFinish
  | .getblk _ | .rlsblk _ => .isTrue trivial

def SparingStep (s : VbSystem) (event : VbEvent) (next : VbSystem) : Prop :=
  SparesPools s event ∧ vbStep s event = some next

/-- What a slot holds of the MMZ memory. -/
structure Holding where
  ptr : ℕ
  phys : ℕ
  total : ℕ

def VbPool.holding (p : VbPool) : Holding :=
  { ptr := p.mmb, phys := p.base, total := p.blkSize * p.blkCnt }

/-- The slots with memory: the live pools and the one in creation. -/
inductive Holds (s : VbSystem) : ℕ → Holding → Prop
  | live {i : ℕ} (live : s.Live i) : Holds s i (s.pools i).holding
  | created {slot : ℕ} {cfg : VbPoolCfg} {mmb : Mmb} (lock : s.lock = .crtpl slot cfg mmb) :
      Holds s slot { ptr := mmb.ptr, phys := mmb.phys, total := cfg.total }

theorem Holds.owns {s : VbSystem} {i : ℕ} {h : Holding} (holds : Holds s i h) : s.Owns h.ptr := by
  cases holds with
  | live live => exact Or.inl ⟨i, live.1, live, rfl⟩
  | created lock =>
      right
      rw [lock]
      exact rfl

/-- Every holding is a linked block of its own. -/
structure PoolsOwn (s : VbSystem) : Prop where
  mmz : s.mmz.Laid
  backed : ∀ i h, Holds s i h →
    ∃ x ∈ s.mmz.allocated, x.ptr = h.ptr ∧ x.phys = h.phys ∧ h.total ≤ x.size
  injective : ∀ i j h k, Holds s i h → Holds s j k → h.ptr = k.ptr → i = j
  slot : ∀ slot cfg mmb, s.lock = .crtpl slot cfg mmb →
    slot < maxPools ∧ (s.pools slot).used = false

theorem PoolsOwn.loaded {zones : List MmzZone} (created : ZonesCreated zones) :
    PoolsOwn (.loaded zones) := by
  have noHolding : ∀ i h, ¬ Holds (.loaded zones) i h := by
    intro i h holds
    cases holds with
    | live live => exact absurd live.2.1 nofun
    | created lock => exact absurd lock nofun
  exact ⟨created.laid, fun i h holds => absurd holds (noHolding i h),
    fun i _ h _ holds => absurd holds (noHolding i h), fun _ _ _ lock => absurd lock nofun⟩

/-- Holdings may go, and the MMZ may change outside of those that stay. -/
theorem PoolsOwn.shrink {s next : VbSystem} (own : PoolsOwn s) (laid : next.mmz.Laid)
    (fewer : ∀ i h, Holds next i h → Holds s i h)
    (kept : ∀ i h x, Holds next i h → x ∈ s.mmz.allocated → x.ptr = h.ptr →
      x ∈ next.mmz.allocated)
    (slot : ∀ slot cfg mmb, next.lock = .crtpl slot cfg mmb →
      slot < maxPools ∧ (next.pools slot).used = false) : PoolsOwn next where
  mmz := laid
  backed i h holds := by
    rcases own.backed i h (fewer i h holds) with ⟨x, member, ptrEq, rest⟩
    exact ⟨x, kept i h x holds member ptrEq, ptrEq, rest⟩
  injective i j h k holds others := own.injective i j h k (fewer i h holds) (fewer j k others)
  slot := slot

theorem Holds.of_mmz {s : VbSystem} {mmz : MmzState} {i : ℕ} {h : Holding}
    (holds : Holds { s with mmz } i h) : Holds s i h := by
  cases holds with
  | live live => exact .live live
  | created lock => exact .created lock

/-- The MMZ side may do what leaves the pools their blocks. -/
theorem PoolsOwn.withMmz {s : VbSystem} (own : PoolsOwn s) {mmz : MmzState} (laid : mmz.Laid)
    (kept : ∀ x ∈ s.mmz.allocated, s.Owns x.ptr → x ∈ mmz.allocated) :
    PoolsOwn { s with mmz } := by
  refine own.shrink laid (fun i h holds => holds.of_mmz) ?_ own.slot
  intro i h x holds member ptrEq
  have owned := holds.of_mmz.owns
  rw [← ptrEq] at owned
  exact kept x member owned

theorem PoolsOwn.keeps {s : VbSystem} (own : PoolsOwn s) {mmz : MmzState}
    (keeps : s.mmz.Keeps mmz) : PoolsOwn { s with mmz } := by
  apply own.withMmz keeps.laid
  intro x member _
  rw [keeps.allocated_eq]
  exact member

theorem PoolsOwn.allocates {s : VbSystem} (own : PoolsOwn s) {size : ℕ} {nb : Mmb}
    {mmz : MmzState} (allocates : s.mmz.Allocates size nb mmz) : PoolsOwn { s with mmz } := by
  apply own.withMmz allocates.laid
  intro x member _
  rw [allocates.allocated_eq]
  exact Or.inr member

theorem PoolsOwn.frees {s : VbSystem} (own : PoolsOwn s) {ptr : ℕ} {mmz : MmzState}
    (spared : ¬ s.Owns ptr) (frees : s.mmz.Frees ptr mmz) : PoolsOwn { s with mmz } := by
  apply own.withMmz frees.laid
  intro x member owned
  rw [frees.allocated_eq]
  refine ⟨member, fun same => spared ?_⟩
  rw [← same]
  exact owned

theorem VbSystem.freeSlot_spec {s : VbSystem} {slot : ℕ} (found : s.freeSlot = some slot) :
    slot < maxPools ∧ (s.pools slot).used = false := by
  have member := List.mem_of_find?_eq_some found
  have unused := List.find?_some found
  exact ⟨List.mem_range.mp member, by simpa using unused⟩

theorem VbSystem.poolById_spec {s : VbSystem} {id : ℕ} {p : VbPool}
    (found : s.poolById id = some p) :
    id < maxPools ∧ (s.pools id).used = true ∧ s.pools id = p := by
  rw [VbSystem.poolById] at found
  split at found
  next present => exact ⟨present.1, present.2, Option.some.inj found⟩
  next => exact absurd found nofun

theorem Holds.live_of_free {s : VbSystem} (free : s.lock = .free) {i : ℕ} {h : Holding}
    (holds : Holds s i h) : s.Live i ∧ (s.pools i).holding = h := by
  cases holds with
  | live live => exact ⟨live, rfl⟩
  | created lock => exact absurd (lock.symm.trans free) nofun

/-- While a pool is created, its memory is held besides what was held before. -/
theorem Holds.of_crtpl {s : VbSystem} (free : s.lock = .free) {mmz : MmzState} {slot : ℕ}
    {cfg : VbPoolCfg} {nb : Mmb} {i : ℕ} {h : Holding}
    (holds : Holds { s with mmz, lock := .crtpl slot cfg nb } i h) :
    Holds { s with mmz } i h ∨
      i = slot ∧ h = { ptr := nb.ptr, phys := nb.phys, total := cfg.total } := by
  cases holds with
  | live live =>
      refine Or.inl (.live ⟨live.1, live.2.1, ?_⟩)
      change s.lock ≠ _
      rw [free]
      exact nofun
  | created lock =>
      cases lock
      exact Or.inr ⟨rfl, rfl⟩

/-- A block that is just allocated is not held. -/
theorem PoolsOwn.fresh {s : VbSystem} (own : PoolsOwn s) {size : ℕ} {nb : Mmb} {mmz : MmzState}
    (allocates : s.mmz.Allocates size nb mmz) {i : ℕ} {h : Holding}
    (holds : Holds { s with mmz } i h) : h.ptr ≠ nb.ptr := by
  intro same
  rcases own.backed i h holds.of_mmz with ⟨x, ⟨b, linked, rfl⟩, ptrEq, _⟩
  have below := ((own.mmz.accounted b.ptr).mp ⟨b, linked, rfl⟩).1
  change b.ptr = h.ptr at ptrEq
  rw [ptrEq, same, allocates.ptr_eq] at below
  exact Nat.lt_irrefl _ below

theorem PoolsOwn.crtpl {s : VbSystem} (own : PoolsOwn s) (free : s.lock = .free)
    (cfg : VbPoolCfg) (kzallocOk : Bool) : PoolsOwn (s.crtpl cfg kzallocOk).2 := by
  rw [VbSystem.crtpl]
  split
  next => exact own
  next =>
    split
    next => exact own
    next =>
      split
      next => exact own
      next slot found =>
        rcases own.mmz.hilMmbAlloc_cases "" cfg.total pageSize kzallocOk with
          ⟨nb, mmz, done, allocates⟩ | done
        · rw [done]
          have old := own.allocates allocates
          have new : nb.block ∈ mmz.allocated := by
            rw [allocates.allocated_eq]
            exact Or.inl rfl
          refine ⟨allocates.laid, ?_, ?_, ?_⟩
          · intro i h holds
            rcases holds.of_crtpl free with held | ⟨rfl, rfl⟩
            · exact old.backed i h held
            · exact ⟨nb.block, new, rfl, rfl, allocates.large⟩
          · intro i j h k holds others same
            rcases holds.of_crtpl free with held | ⟨rfl, rfl⟩
            · rcases others.of_crtpl free with heldToo | ⟨rfl, rfl⟩
              · exact old.injective i j h k held heldToo same
              · exact absurd same (own.fresh allocates held)
            · rcases others.of_crtpl free with heldToo | ⟨rfl, _⟩
              · exact absurd same.symm (own.fresh allocates heldToo)
              · rfl
          · intro other otherCfg mmb lock
            cases lock
            exact VbSystem.freeSlot_spec found
        · rw [done]
          exact own

theorem PoolsOwn.crtplFinish {s : VbSystem} (own : PoolsOwn s) {slot : ℕ} {cfg : VbPoolCfg}
    {mmb : Mmb} (lock : s.lock = .crtpl slot cfg mmb) (bitmapOk : Bool) :
    PoolsOwn (s.crtplFinish slot cfg mmb bitmapOk).2 := by
  rcases own.slot slot cfg mmb lock with ⟨inTable, unused⟩
  have stays : ∀ i, (s.pools i).used = true → i < maxPools → s.Live i := by
    refine fun i used below => ⟨below, used, ?_⟩
    rw [lock]
    exact nofun
  cases bitmapOk with
  | true =>
      refine own.shrink own.mmz ?_ (fun _ _ _ _ member _ => member) nofun
      intro i h holds
      rcases Holds.live_of_free rfl holds with ⟨live, rfl⟩
      by_cases same : i = slot
      · subst same
        simp only [VbSystem.crtplFinish, if_true, Function.update_self]
        exact .created lock
      · have pool : (s.crtplFinish slot cfg mmb true).2.pools i = s.pools i :=
          Function.update_of_ne same _ _
        have used := live.2.1
        rw [pool] at used ⊢
        exact .live (stays i used live.1)
  | false =>
      rcases own.backed slot _ (.created lock) with ⟨x, member, ptrEq, _⟩
      have frees := own.mmz.keeps.frees member
      change x.ptr = mmb.ptr at ptrEq
      rw [ptrEq] at frees
      have fewer : ∀ i h, Holds (s.crtplFinish slot cfg mmb false).2 i h →
          Holds s i h ∧ i ≠ slot := by
        intro i h holds
        rcases Holds.live_of_free rfl holds with ⟨live, rfl⟩
        refine ⟨.live (stays i live.2.1 live.1), ?_⟩
        rintro rfl
        exact absurd (live.2.1.symm.trans unused) nofun
      refine own.shrink frees.laid (fun i h holds => (fewer i h holds).1) ?_ nofun
      intro i h y holds yMem yPtr
      change y ∈ (s.mmz.hilMmbFree mmb.ptr).allocated
      rw [frees.allocated_eq]
      refine ⟨yMem, fun same => (fewer i h holds).2 ?_⟩
      exact own.injective i slot h _ (fewer i h holds).1 (.created lock) (yPtr.symm.trans same)

theorem PoolsOwn.destpl {s : VbSystem} (own : PoolsOwn s) (free : s.lock = .free) (id : ℕ) :
    PoolsOwn (s.destpl id).2 := by
  rw [VbSystem.destpl]
  split
  next => exact own
  next p found =>
    rcases VbSystem.poolById_spec found with ⟨inTable, used, rfl⟩
    have live : s.Live id := by
      refine ⟨inTable, used, ?_⟩
      rw [free]
      exact nofun
    rcases own.backed id _ (.live live) with ⟨x, member, ptrEq, _⟩
    have frees := own.mmz.keeps.frees member
    change x.ptr = (s.pools id).mmb at ptrEq
    rw [ptrEq] at frees
    have fewer : ∀ i h, Holds { s with
        mmz := s.mmz.hilMmbFree (s.pools id).mmb
        lock := VbLock.destpl id } i h → Holds s i h ∧ i ≠ id := by
      intro i h holds
      cases holds with
      | created lock => exact absurd lock nofun
      | live other =>
          refine ⟨.live ⟨other.1, other.2.1, ?_⟩, ?_⟩
          · rw [free]
            exact nofun
          · rintro rfl
            exact other.2.2 rfl
    refine own.shrink frees.laid (fun i h holds => (fewer i h holds).1) ?_ nofun
    intro i h y holds yMem yPtr
    change y ∈ (s.mmz.hilMmbFree (s.pools id).mmb).allocated
    rw [frees.allocated_eq]
    refine ⟨yMem, fun same => (fewer i h holds).2 ?_⟩
    exact own.injective i id h _ (fewer i h holds).1 (.live live) (yPtr.symm.trans same)

theorem PoolsOwn.destplFinish {s : VbSystem} (own : PoolsOwn s) {slot : ℕ}
    (lock : s.lock = .destpl slot) : PoolsOwn (s.destplFinish slot) := by
  refine own.shrink own.mmz ?_ (fun _ _ _ _ member _ => member) nofun
  intro i h holds
  rcases Holds.live_of_free rfl holds with ⟨live, rfl⟩
  have different : i ≠ slot := by
    rintro rfl
    have used := live.2.1
    simp only [VbSystem.destplFinish, Function.update_self] at used
    exact absurd used nofun
  have pool : (s.destplFinish slot).pools i = s.pools i := Function.update_of_ne different _ _
  have used := live.2.1
  rw [pool] at used ⊢
  refine .live ⟨live.1, used, ?_⟩
  rw [lock]
  rintro ⟨⟩
  exact different rfl

theorem PoolsOwn.setFreeMap {s : VbSystem} (own : PoolsOwn s) (free : s.lock = .free) (slot : ℕ)
    (freeMap : List Bool) : PoolsOwn (s.setFreeMap slot freeMap) := by
  have same : ∀ i, ((s.setFreeMap slot freeMap).pools i).used = (s.pools i).used ∧
      ((s.setFreeMap slot freeMap).pools i).holding = (s.pools i).holding := by
    intro i
    by_cases same : i = slot
    · subst same
      simp [VbSystem.setFreeMap, VbPool.holding]
    · simp [VbSystem.setFreeMap, Function.update_of_ne same]
  refine own.shrink own.mmz ?_ (fun _ _ _ _ member _ => member) ?_
  · intro i h holds
    have unlocked : (s.setFreeMap slot freeMap).lock = .free := free
    rcases Holds.live_of_free unlocked holds with ⟨live, rfl⟩
    rw [(same i).2]
    exact .live ⟨live.1, (same i).1.symm.trans live.2.1, live.2.2⟩
  · intro _ _ _ lock
    exact absurd (lock.symm.trans free) nofun

theorem PoolsOwn.getblk {s : VbSystem} (own : PoolsOwn s) (free : s.lock = .free) (blk : VbBlk) :
    PoolsOwn (s.getblk blk).2 := by
  rw [VbSystem.getblk]
  split
  next => exact own
  next =>
    split
    next => exact own
    next slot _ =>
      dsimp only
      split
      next => exact own
      next =>
        split
        next => exact own
        next => exact own.setFreeMap free slot _

theorem PoolsOwn.rlsblk {s : VbSystem} (own : PoolsOwn s) (free : s.lock = .free) (handle : ℕ) :
    PoolsOwn (s.rlsblk handle).2 := by
  rw [VbSystem.rlsblk]
  split
  next => exact own
  next =>
    split
    next => exact own
    next p _ =>
      dsimp only
      split
      next => exact own.setFreeMap free _ _
      next => exact own

theorem SparingStep.poolsOwn {s next : VbSystem} {event : VbEvent} (own : PoolsOwn s)
    (step : SparingStep s event next) : PoolsOwn next := by
  rcases step with ⟨spares, step⟩
  cases event with
  | mmbAlloc zoneName size align kzallocOk =>
      cases step
      rcases own.mmz.hilMmbAlloc_cases zoneName size align kzallocOk with
        ⟨nb, mmz, done, allocates⟩ | done
      · rw [done]
        exact own.allocates allocates
      · rw [done]
        exact own
  | mmbFree phys =>
      cases step
      rcases own.mmz.iocMmbFree_cases phys with ⟨b, unlinks, _, frees⟩ | keeps
      · exact own.frees (spares b unlinks) frees
      · exact own.keeps keeps
  | mmbGet phys =>
      cases step
      exact own.keeps (own.mmz.iocMmbGet_keeps phys)
  | mmbPut phys =>
      cases step
      rcases own.mmz.iocMmbPut_cases phys with ⟨b, unlinks, _, frees⟩ | keeps
      · exact own.frees (spares b unlinks) frees
      · exact own.keeps keeps
  | crtpl cfg kzallocOk =>
      rcases Option.ite_none_right_eq_some.mp step with ⟨free, done⟩
      cases done
      exact own.crtpl free cfg kzallocOk
  | crtplFinish bitmapOk =>
      simp only [vbStep] at step
      split at step
      next slot cfg mmb lock =>
        cases step
        exact own.crtplFinish lock bitmapOk
      next => exact absurd step nofun
  | destpl id =>
      rcases Option.ite_none_right_eq_some.mp step with ⟨free, done⟩
      cases done
      exact own.destpl free id
  | destplFinish =>
      simp only [vbStep] at step
      split at step
      next slot lock =>
        cases step
        exact own.destplFinish lock
      next => exact absurd step nofun
  | getblk blk =>
      rcases Option.ite_none_right_eq_some.mp step with ⟨free, done⟩
      cases done
      exact own.getblk free blk
  | rlsblk handle =>
      rcases Option.ite_none_right_eq_some.mp step with ⟨free, done⟩
      cases done
      exact own.rlsblk free handle

/-- What a pool is promised: its block is linked, its extent meets no other pool and no
other block, and no descriptor is freed twice. -/
structure OwnsMemory (s : VbSystem) : Prop where
  linked : ∀ i, s.Live i → ∃ b ∈ s.mmz.blocks, b.ptr = (s.pools i).mmb
  poolsApart : ∀ i j, s.Live i → s.Live j → i ≠ j →
    Apart (s.pools i).base ((s.pools i).base + (s.pools i).blkSize * (s.pools i).blkCnt)
      (s.pools j).base ((s.pools j).base + (s.pools j).blkSize * (s.pools j).blkCnt)
  blocksApart : ∀ i, s.Live i → ∀ b ∈ s.mmz.blocks, b.ptr ≠ (s.pools i).mmb →
    Apart (s.pools i).base ((s.pools i).base + (s.pools i).blkSize * (s.pools i).blkCnt)
      b.phys (b.phys + b.size)
  freedOnce : s.mmz.freed.Nodup
  accounted : ∀ ptr < s.mmz.nextPtr, ptr ∈ s.mmz.freed ↔ ¬ ∃ b ∈ s.mmz.blocks, b.ptr = ptr

theorem Apart.shrink {start₁ stop₁ start₂ stop₂ : ℕ} (apart : Apart start₁ stop₁ start₂ stop₂)
    {end₁ end₂ : ℕ} (le₁ : end₁ ≤ stop₁) (le₂ : end₂ ≤ stop₂) :
    Apart start₁ end₁ start₂ end₂ := by
  rcases apart with before | after
  · exact Or.inl (Nat.le_trans le₁ before)
  · exact Or.inr (Nat.le_trans le₂ after)

theorem PoolsOwn.ownsMemory {s : VbSystem} (own : PoolsOwn s) : OwnsMemory s := by
  have backed : ∀ i, s.Live i → ∃ x ∈ s.mmz.allocated, x.ptr = (s.pools i).mmb ∧
      x.phys = (s.pools i).base ∧
      (s.pools i).base + (s.pools i).blkSize * (s.pools i).blkCnt ≤ x.stop := by
    intro i live
    rcases own.backed i _ (.live live) with ⟨x, member, ptrEq, physEq, large⟩
    refine ⟨x, member, ptrEq, physEq, ?_⟩
    rw [Block.stop, physEq]
    exact Nat.add_le_add_left large _
  refine ⟨?_, ?_, ?_, own.mmz.freedOnce, ?_⟩
  · intro i live
    rcases backed i live with ⟨_, ⟨b, linked, rfl⟩, ptrEq, _⟩
    exact ⟨b, linked, ptrEq⟩
  · intro i j liveI liveJ different
    rcases backed i liveI with ⟨x, xMem, xPtr, xPhys, xLarge⟩
    rcases backed j liveJ with ⟨y, yMem, yPtr, yPhys, yLarge⟩
    have ptrNe : x.ptr ≠ y.ptr := fun same => different
      (own.injective i j _ _ (.live liveI) (.live liveJ) (xPtr.symm.trans (same.trans yPtr)))
    have apart := own.mmz.apart_of_ne xMem yMem ptrNe
    rw [xPhys, yPhys] at apart
    exact apart.shrink xLarge yLarge
  · intro i live b member different
    rcases backed i live with ⟨x, xMem, xPtr, xPhys, xLarge⟩
    have ptrNe : x.ptr ≠ b.block.ptr := fun same => different (same.symm.trans xPtr)
    have apart := own.mmz.apart_of_ne xMem (MmzState.mem_allocated member) ptrNe
    rw [xPhys] at apart
    exact apart.shrink xLarge (Nat.le_refl _)
  · intro ptr handedOut
    rw [own.mmz.accounted ptr]
    exact ⟨fun freed linked => linked.2 freed, fun unlinked =>
      not_not.mp fun notFreed => unlinked ⟨handedOut, notFreed⟩⟩

/-- While `FREE` and `PUT` spare the pools' blocks, pools own their memory. -/
theorem vbPools_own {zones : List MmzZone} (created : ZonesCreated zones)
    {events : List VbEvent} {s : VbSystem}
    (run : Run SparingStep (.loaded zones) events s) : OwnsMemory s := by
  have own : PoolsOwn s :=
    run.invariant (fun _ _ _ own step => SparingStep.poolsOwn own step) (PoolsOwn.loaded created)
  exact own.ownsMemory

/-- A pool next to an allocation that is freed again. -/
theorem vbPools_own_beside :
    ∃ s, Run SparingStep (.loaded [anonymousZone])
        [.mmbAlloc "" 0x1000 0x1000 true, .crtpl { blkSize := 0x1000, blkCnt := 4 } true,
          .crtplFinish true, .mmbFree 0x29200000] s ∧
      s.Live 0 ∧ s.mmz.blocks.length = 1 ∧ OwnsMemory s := by
  have checked : ([.mmbAlloc "" 0x1000 0x1000 true,
      .crtpl { blkSize := 0x1000, blkCnt := 4 } true, .crtplFinish true,
      .mmbFree 0x29200000].foldlM (fun s event =>
        if SparesPools s event then vbStep s event else none)
        (VbSystem.loaded [anonymousZone])).any (fun s =>
      decide (s.Live 0 ∧ s.mmz.blocks.length = 1)) = true := by
    decide +kernel
  rcases (Option.any_eq_true _ _).mp checked with ⟨s, done, facts⟩
  rcases of_decide_eq_true facts with ⟨live, one⟩
  have run := Run.of_foldlM_guarded SparesPools vbStep done
  exact ⟨s, run, live, one, vbPools_own zonesCreated_anonymous run⟩

/-- `FREE` at the address of a pool unlinks its block. -/
theorem vbPools_not_own :
    ¬ ∀ (zones : List MmzZone), ZonesCreated zones → ∀ (events : List VbEvent) (s : VbSystem),
      Run (fun s event next => vbStep s event = some next) (.loaded zones) events s →
        OwnsMemory s := by
  intro owns
  have freed : ([.crtpl { blkSize := 0x1000, blkCnt := 4 } true, .crtplFinish true,
      .mmbFree 0x29200000].foldlM vbStep (VbSystem.loaded [anonymousZone])).any (fun s =>
      decide (s.Live 0 ∧ s.mmz.blocks = [])) = true := by
    decide +kernel
  rcases (Option.any_eq_true _ _).mp freed with ⟨s, done, facts⟩
  rcases of_decide_eq_true facts with ⟨live, noBlocks⟩
  rcases (owns _ zonesCreated_anonymous _ s (Run.of_foldlM vbStep done)).linked 0 live with
    ⟨b, member, _⟩
  rw [noBlocks] at member
  exact absurd member List.not_mem_nil

end MlKernel.Mmz
