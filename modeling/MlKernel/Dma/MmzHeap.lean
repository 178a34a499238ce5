import MlKernel.Dma.CoherentPool

/-!
# The dma-heap over the coherent pool

A buffer of the heap is an allocation of the pool, and a client maps pieces of it at an offset of
its choice.  The codec allocates from the same pool.  Whatever is mapped stays inside the buffer,
and no page of a buffer comes back to the pool while it is mapped.
-/

namespace MlKernel.Dma

/-- `PHYS_PFN`. -/
def physPfn (x : UInt64) : UInt64 := x >>> 12

/-- `PAGE_ALIGN`. -/
def pageAlign (x : UInt64) : UInt64 := (x + 4095) &&& ~~~4095

/-- `struct mmz_buffer`. -/
structure MmzBuffer where
  vaddr : ℕ
  daddr : UInt64
  len : UInt64
  deriving DecidableEq

/-- The first frame and the number of frames that `mmz_mmap` remaps. -/
def mmzMmap (b : MmzBuffer) (pgoff size : UInt64) : Option (UInt64 × UInt64) :=
  if pgoff > physPfn b.len ∨ physPfn size > physPfn b.len - pgoff then none
  else some (physPfn b.daddr + pgoff, physPfn size)

/-- A mapping holds a reference to the buffer it maps. -/
structure MmzVma where
  buffer : MmzBuffer
  frame : ℕ
  frames : ℕ
  deriving DecidableEq

/-- Where the region is; its addresses have 64 bits. -/
structure MmzRegion where
  virtBase : ℕ
  deviceBase : ℕ
  size : ℕ
  size_int : size < 2 ^ 31
  fits : deviceBase + size * pageSize < 2 ^ 64

structure MmzHeap where
  pool : PoolSystem
  buffers : List MmzBuffer
  vmas : List MmzVma

inductive MmzEvent
  /-- `mmz_allocate`, with what `dma_buf_export` answers. -/
  | allocate (len : UInt64) (exported : Bool)
  | mmap (buffer : MmzBuffer) (pgoff size : UInt64)
  /-- A mapping is taken down, cut up or doubled: pieces of it stay. -/
  | remap (vma : MmzVma) (pieces : List MmzVma)
  /-- `mmz_release`. -/
  | release (buffer : MmzBuffer)
  /-- The codec allocates, or releases by an address. -/
  | codec (event : PoolEvent)

def MmzBuffer.page (b : MmzBuffer) (mem : DmaCoherentMem) : ℕ := mem.page b.vaddr

/-- The piece lies in the mapping. -/
def MmzVma.PieceOf (piece vma : MmzVma) : Prop :=
  piece.buffer = vma.buffer ∧ vma.frame ≤ piece.frame ∧
    piece.frame + piece.frames ≤ vma.frame + vma.frames

instance (piece vma : MmzVma) : Decidable (piece.PieceOf vma) :=
  inferInstanceAs (Decidable (_ ∧ _))

/-- The codec does not free what the heap has. -/
def MmzHeap.Foreign (s : MmzHeap) : PoolEvent → Prop
  | .alloc _ => True
  | .release vaddr => ∀ b ∈ s.buffers, b.page s.pool.mem ≠ s.pool.mem.page vaddr

instance (s : MmzHeap) : (event : PoolEvent) → Decidable (s.Foreign event)
  | .alloc _ => inferInstanceAs (Decidable True)
  | .release vaddr =>
      inferInstanceAs (Decidable (∀ b ∈ s.buffers, b.page s.pool.mem ≠ s.pool.mem.page vaddr))

section Step

variable (ops : Bitmap.BitmapOps) (region : MmzRegion)

def mmzAllocate (s : MmzHeap) (len : UInt64) (exported : Bool) : MmzHeap :=
  let len := pageAlign len
  match (dmaAllocFromCoherent ops s.pool.mem len).2 with
  | none => s
  | some pageno =>
      let taken := poolStep ops s.pool (.alloc len)
      let b : MmzBuffer :=
        { vaddr := s.pool.mem.virtBase + pageno * pageSize
          daddr := UInt64.ofNat (region.deviceBase + pageno * pageSize)
          len }
      if exported then { s with pool := taken, buffers := b :: s.buffers }
      else { s with pool := poolStep ops taken (.release b.vaddr) }

/-- A client maps a buffer it holds, and a buffer is released with its last reference. -/
def mmzStep (s : MmzHeap) : MmzEvent → Option MmzHeap
  | .allocate len exported => some (mmzAllocate ops region s len exported)
  | .mmap b pgoff size =>
      if b ∈ s.buffers then
        match mmzMmap b pgoff size with
        | none => some s
        | some (frame, frames) =>
            some { s with vmas := ⟨b, frame.toNat, frames.toNat⟩ :: s.vmas }
      else none
  | .remap vma pieces =>
      if vma ∈ s.vmas ∧ ∀ piece ∈ pieces, piece.PieceOf vma then
        some { s with vmas := pieces ++ s.vmas.erase vma }
      else none
  | .release b =>
      if b ∈ s.buffers ∧ ∀ vma ∈ s.vmas, vma.buffer ≠ b then
        some { s with
          pool := poolStep ops s.pool (.release b.vaddr), buffers := s.buffers.filter (· ≠ b) }
      else none
  | .codec event =>
      if s.Foreign event then some { s with pool := poolStep ops s.pool event } else none

def MmzHeap.created : MmzHeap :=
  { pool := .created region.virtBase region.size region.size_int, buffers := [], vmas := [] }

end Step

/-- The frame of a page of the pool. -/
def MmzRegion.frame (region : MmzRegion) (page : ℕ) : ℕ := region.deviceBase / pageSize + page

/-- Every mapped frame is a page of the allocation of its buffer, and of no other. -/
structure MmzHeap.Isolated (region : MmzRegion) (s : MmzHeap) : Prop where
  inside : ∀ vma ∈ s.vmas, ∃ a ∈ s.pool.live, a.start = vma.buffer.page s.pool.mem ∧
    ∀ frame, vma.frame ≤ frame → frame < vma.frame + vma.frames →
      ∃ page, frame = region.frame page ∧ a.Covers s.pool.mem page ∧
        ∀ other ∈ s.pool.live, other.Covers s.pool.mem page → other = a
  apart : ∀ vma ∈ s.vmas, ∀ vma' ∈ s.vmas, vma.buffer ≠ vma'.buffer →
    vma.frame + vma.frames ≤ vma'.frame ∨ vma'.frame + vma'.frames ≤ vma.frame

/-! ### What an mmap maps -/

theorem physPfn_toNat (x : UInt64) : (physPfn x).toNat = x.toNat / pageSize := by
  rw [physPfn, UInt64.toNat_shiftRight, Nat.shiftRight_eq_div_pow]
  rfl

/-- However the offset is chosen, what is mapped lies in the buffer. -/
theorem mmzMmap_within {b : MmzBuffer} {pgoff size frame frames : UInt64}
    (mapped : mmzMmap b pgoff size = some (frame, frames)) :
    b.daddr.toNat / pageSize ≤ frame.toNat ∧
      frame.toNat + frames.toNat ≤ b.daddr.toNat / pageSize + b.len.toNat / pageSize := by
  unfold mmzMmap at mapped
  split at mapped
  · cases mapped
  · next checks =>
      cases mapped
      rcases not_or.mp checks with ⟨past, long⟩
      have offset := UInt64.not_lt.mp past
      have offsetLe : pgoff.toNat ≤ b.len.toNat / pageSize := by
        rw [← physPfn_toNat]
        exact UInt64.le_iff_toNat_le.mp offset
      have lengthLe := UInt64.le_iff_toNat_le.mp (UInt64.not_lt.mp long)
      rw [UInt64.toNat_sub_of_le _ _ offset, physPfn_toNat b.len] at lengthLe
      have daddrLt := b.daddr.toNat_lt
      have lenLt := b.len.toNat_lt
      rw [UInt64.toNat_add, physPfn_toNat b.daddr]
      simp only [pageSize] at *
      omega

/-! ### The pool under the heap -/

section Pool

variable {ops : Bitmap.BitmapOps} {pool : PoolSystem}

/-- No call moves the pool or changes its size. -/
theorem poolStep_region (event : PoolEvent) :
    (poolStep ops pool event).mem.virtBase = pool.mem.virtBase ∧
      (poolStep ops pool event).mem.size = pool.mem.size := by
  cases event with
  | alloc size =>
      simp only [poolStep, dmaAllocFromCoherent]
      split
      · exact ⟨rfl, rfl⟩
      · split
        · exact ⟨rfl, rfl⟩
        · split <;> exact ⟨rfl, rfl⟩
  | release vaddr =>
      simp only [poolStep, dmaReleaseFromCoherent]
      split
      · split <;> exact ⟨rfl, rfl⟩
      · exact ⟨rfl, rfl⟩

theorem mem_live_alloc {a : Allocation} (live : a ∈ pool.live) (size : UInt64) :
    a ∈ (poolStep ops pool (.alloc size)).live :=
  List.mem_append_right _ live

theorem mem_live_release {a : Allocation} (live : a ∈ pool.live) {vaddr : ℕ}
    (elsewhere : a.start ≠ pool.mem.page vaddr) :
    a ∈ (poolStep ops pool (.release vaddr)).live := by
  simp only [poolStep]
  split
  · exact List.mem_filter.mpr ⟨live, decide_eq_true elsewhere⟩
  · exact live

end Pool

/-! ### The invariant -/

/-- The allocation is the buffer's. -/
structure MmzBuffer.Owns (region : MmzRegion) (b : MmzBuffer) (a : Allocation) : Prop where
  vaddr : b.vaddr = region.virtBase + a.start * pageSize
  daddr : b.daddr.toNat = region.deviceBase + a.start * pageSize
  len : b.len.toNat / pageSize ≤ a.pages

structure MmzVma.Within (vma : MmzVma) : Prop where
  first : vma.buffer.daddr.toNat / pageSize ≤ vma.frame
  last : vma.frame + vma.frames ≤
    vma.buffer.daddr.toNat / pageSize + vma.buffer.len.toNat / pageSize

/-- Every buffer has an allocation of its own, and every mapping a buffer. -/
structure MmzHeap.Sound (region : MmzRegion) (s : MmzHeap) : Prop where
  ok : s.pool.Ok
  virtBase : s.pool.mem.virtBase = region.virtBase
  size : s.pool.mem.size = region.size
  owned : ∀ b ∈ s.buffers, ∃ a ∈ s.pool.live, b.Owns region a
  distinct : ∀ b ∈ s.buffers, ∀ b' ∈ s.buffers, b.vaddr = b'.vaddr → b = b'
  held : ∀ vma ∈ s.vmas, vma.buffer ∈ s.buffers
  within : ∀ vma ∈ s.vmas, vma.Within

section Invariant

variable {ops : Bitmap.BitmapOps} {region : MmzRegion} {s : MmzHeap}

theorem MmzBuffer.Owns.page {b : MmzBuffer} {a : Allocation} (owns : b.Owns region a)
    {mem : DmaCoherentMem} (virtBase : mem.virtBase = region.virtBase) : b.page mem = a.start := by
  rw [MmzBuffer.page, DmaCoherentMem.page, virtBase, owns.vaddr, Nat.add_sub_cancel_left]
  exact Nat.mul_div_cancel _ (by decide)

theorem MmzBuffer.Owns.vaddr_eq_iff {b b' : MmzBuffer} {a a' : Allocation}
    (owns : b.Owns region a) (owns' : b'.Owns region a') :
    b.vaddr = b'.vaddr ↔ a.start = a'.start := by
  rw [owns.vaddr, owns'.vaddr]
  simp only [pageSize]
  omega

theorem MmzBuffer.Owns.frame {b : MmzBuffer} {a : Allocation} (owns : b.Owns region a) :
    b.daddr.toNat / pageSize = region.frame a.start := by
  rw [owns.daddr, MmzRegion.frame]
  exact Nat.add_mul_div_right _ _ (by decide)

/-- The pool moves on and keeps what the buffers that stay have. -/
theorem MmzHeap.Sound.withPool (sound : s.Sound region) {pool : PoolSystem} (ok : pool.Ok)
    (same : pool.mem.virtBase = s.pool.mem.virtBase ∧ pool.mem.size = s.pool.mem.size)
    {buffers : List MmzBuffer} (stay : ∀ b ∈ buffers, b ∈ s.buffers)
    (kept : ∀ b ∈ buffers, ∀ a ∈ s.pool.live, b.Owns region a → a ∈ pool.live)
    (held : ∀ vma ∈ s.vmas, vma.buffer ∈ buffers) :
    MmzHeap.Sound region { s with pool, buffers } where
  ok := ok
  virtBase := same.1.trans sound.virtBase
  size := same.2.trans sound.size
  owned b member := by
    rcases sound.owned b (stay b member) with ⟨a, live, owns⟩
    exact ⟨a, kept b member a live owns, owns⟩
  distinct b member b' member' := sound.distinct b (stay b member) b' (stay b' member')
  held := held
  within := sound.within

theorem MmzHeap.Sound.created (region : MmzRegion) : (MmzHeap.created region).Sound region where
  ok := PoolSystem.created_ok _ _ _
  virtBase := rfl
  size := rfl
  owned _ member := by cases member
  distinct _ member := by cases member
  held _ member := by cases member
  within _ member := by cases member

theorem MmzHeap.Sound.allocate (sound : s.Sound region) (documented : ops.Documented)
    (len : UInt64) (exported : Bool) : (mmzAllocate ops region s len exported).Sound region := by
  unfold mmzAllocate
  generalize pageAlign len = len
  dsimp only
  rcases dmaAllocFromCoherent_cases documented s.pool.mem len with ⟨failed, -⟩ |
    ⟨pageno, positive, ⟨room, clear⟩, taken⟩
  · rw [failed]
    exact sound
  rw [congrArg Prod.snd taken]
  dsimp only
  have ok := sound.ok.step documented (.alloc len)
  have region_alloc := @poolStep_region ops s.pool (.alloc len)
  -- its first page was free, so nobody else has it
  have fresh (a : Allocation) (live : a ∈ s.pool.live) : a.start ≠ pageno := by
    rintro rfl
    have isSet := (sound.ok.bit_iff a.start).mpr
      ⟨a, live, Nat.le_refl _, sound.ok.nonempty a live⟩
    rw [show s.pool.mem.bitmap a.start = false from clear 0 (by omega)] at isSet
    cases isSet
  cases exported with
  | true =>
      have small : pageno < region.size := by
        have := sound.size
        omega
      have address : region.deviceBase + pageno * pageSize < 2 ^ 64 := by
        refine Nat.lt_of_le_of_lt (Nat.add_le_add_left ?_ _) region.fits
        exact Nat.mul_le_mul_right pageSize (Nat.le_of_lt small)
      have owns : MmzBuffer.Owns region
          { vaddr := s.pool.mem.virtBase + pageno * pageSize
            daddr := UInt64.ofNat (region.deviceBase + pageno * pageSize)
            len } ⟨pageno, pagesOf len.toNat⟩ := by
        refine ⟨by rw [sound.virtBase], UInt64.toNat_ofNat_of_lt' address, ?_⟩
        have enough := le_pagesOf len.toNat
        simp only [pageSize] at enough ⊢
        omega
      have live : (⟨pageno, pagesOf len.toNat⟩ : Allocation) ∈
          (poolStep ops s.pool (.alloc len)).live := by
        simp [poolStep, taken]
      refine ⟨ok, region_alloc.1.trans sound.virtBase, region_alloc.2.trans sound.size, ?_, ?_, ?_,
        sound.within⟩
      · intro b member
        rcases List.mem_cons.mp member with rfl | before
        · exact ⟨_, live, owns⟩
        · rcases sound.owned b before with ⟨a, aLive, aOwns⟩
          exact ⟨a, mem_live_alloc aLive len, aOwns⟩
      · have other (b : MmzBuffer) (before : b ∈ s.buffers) :
            b.vaddr ≠ s.pool.mem.virtBase + pageno * pageSize := by
          rcases sound.owned b before with ⟨a, aLive, aOwns⟩
          intro sameAddress
          exact fresh a aLive ((aOwns.vaddr_eq_iff owns).mp sameAddress)
        intro b member b' member' sameAddress
        rcases List.mem_cons.mp member with rfl | before
        · rcases List.mem_cons.mp member' with rfl | before'
          · rfl
          · exact absurd sameAddress.symm (other b' before')
        · rcases List.mem_cons.mp member' with rfl | before'
          · exact absurd sameAddress (other b before)
          · exact sound.distinct b before b' before' sameAddress
      · intro vma member
        exact List.mem_cons_of_mem _ (sound.held vma member)
  | false =>
      have region_release := @poolStep_region ops (poolStep ops s.pool (.alloc len))
        (.release (s.pool.mem.virtBase + pageno * pageSize))
      refine sound.withPool (ok.step documented _)
        ⟨region_release.1.trans region_alloc.1, region_release.2.trans region_alloc.2⟩
        (fun _ member => member) ?_ sound.held
      intro b _ a live _
      refine mem_live_release (mem_live_alloc live len) ?_
      rw [DmaCoherentMem.page, region_alloc.1, Nat.add_sub_cancel_left,
        Nat.mul_div_cancel _ (by decide)]
      exact fresh a live

theorem MmzHeap.Sound.release (sound : s.Sound region) (documented : ops.Documented)
    {b : MmzBuffer} (member : b ∈ s.buffers) (unmapped : ∀ vma ∈ s.vmas, vma.buffer ≠ b) :
    MmzHeap.Sound region { s with
      pool := poolStep ops s.pool (.release b.vaddr), buffers := s.buffers.filter (· ≠ b) } := by
  rcases sound.owned b member with ⟨own, -, owns⟩
  refine sound.withPool (sound.ok.step documented _) (poolStep_region _)
    (fun _ member => (List.mem_filter.mp member).1) ?_ ?_
  · intro b' member' a live owns'
    rcases List.mem_filter.mp member' with ⟨before, different⟩
    refine mem_live_release live ?_
    change a.start ≠ b.page s.pool.mem
    rw [owns.page sound.virtBase]
    intro sameStart
    exact of_decide_eq_true different
      (sound.distinct b' before b member ((owns'.vaddr_eq_iff owns).mpr sameStart))
  · intro vma mapped
    exact List.mem_filter.mpr ⟨sound.held vma mapped, decide_eq_true (unmapped vma mapped)⟩

theorem MmzHeap.Sound.codec (sound : s.Sound region) (documented : ops.Documented)
    {event : PoolEvent} (foreign : s.Foreign event) :
    MmzHeap.Sound region { s with pool := poolStep ops s.pool event } := by
  refine sound.withPool (sound.ok.step documented event) (poolStep_region event)
    (fun _ member => member) ?_ sound.held
  intro b member a live owns
  cases event with
  | alloc size => exact mem_live_alloc live size
  | release vaddr =>
      refine mem_live_release live ?_
      rw [← owns.page sound.virtBase]
      exact foreign b member

theorem MmzHeap.Sound.step (sound : s.Sound region) (documented : ops.Documented)
    {event : MmzEvent} {after : MmzHeap} (done : mmzStep ops region s event = some after) :
    after.Sound region := by
  cases event with
  | allocate len exported =>
      cases done
      exact sound.allocate documented len exported
  | mmap b pgoff size =>
      rcases Option.ite_none_right_eq_some.mp done with ⟨member, done⟩
      split at done
      · cases done
        exact sound
      · next frame frames mapped =>
          cases done
          have within := mmzMmap_within mapped
          refine { sound with held := ?_, within := ?_ }
          · intro vma mapping
            rcases List.mem_cons.mp mapping with rfl | before
            · exact member
            · exact sound.held vma before
          · intro vma mapping
            rcases List.mem_cons.mp mapping with rfl | before
            · exact ⟨within.1, within.2⟩
            · exact sound.within vma before
  | remap vma pieces =>
      rcases Option.ite_none_right_eq_some.mp done with ⟨⟨mapping, pieceOf⟩, done⟩
      cases done
      have whole := sound.within vma mapping
      refine { sound with held := ?_, within := ?_ }
      · intro piece member
        rcases List.mem_append.mp member with cut | before
        · rw [(pieceOf piece cut).1]
          exact sound.held vma mapping
        · exact sound.held piece (List.mem_of_mem_erase before)
      · intro piece member
        rcases List.mem_append.mp member with cut | before
        · rcases pieceOf piece cut with ⟨same, first, last⟩
          refine ⟨?_, ?_⟩
          · rw [same]
            exact Nat.le_trans whole.first first
          · rw [same]
            exact Nat.le_trans last whole.last
        · exact sound.within piece (List.mem_of_mem_erase before)
  | release b =>
      rcases Option.ite_none_right_eq_some.mp done with ⟨⟨member, unmapped⟩, done⟩
      cases done
      exact sound.release documented member unmapped
  | codec event =>
      rcases Option.ite_none_right_eq_some.mp done with ⟨foreign, done⟩
      cases done
      exact sound.codec documented foreign

/-- The frames of a mapping are pages of one allocation. -/
theorem MmzHeap.Sound.exists_allocation (sound : s.Sound region) {vma : MmzVma}
    (mapping : vma ∈ s.vmas) : ∃ a ∈ s.pool.live, vma.buffer.Owns region a ∧
      region.frame a.start ≤ vma.frame ∧ vma.frame + vma.frames ≤ region.frame a.stop := by
  rcases sound.owned vma.buffer (sound.held vma mapping) with ⟨a, live, owns⟩
  have within := sound.within vma mapping
  have first := within.first
  have last := within.last
  have len := owns.len
  rw [owns.frame] at first last
  refine ⟨a, live, owns, first, ?_⟩
  simp only [MmzRegion.frame, Allocation.stop] at last ⊢
  omega

theorem MmzHeap.Sound.isolated (sound : s.Sound region) : s.Isolated region where
  inside vma mapping := by
    rcases sound.exists_allocation mapping with ⟨a, live, owns, first, last⟩
    refine ⟨a, live, (owns.page sound.virtBase).symm, ?_⟩
    intro frame from_first to_last
    have inA : a.start ≤ frame - region.deviceBase / pageSize ∧
        frame - region.deviceBase / pageSize < a.stop := by
      simp only [MmzRegion.frame] at first last
      omega
    refine ⟨frame - region.deviceBase / pageSize, ?_, (sound.ok.covers_iff live _).mpr inA, ?_⟩
    · simp only [MmzRegion.frame] at first ⊢
      omega
    · intro other otherLive covers
      exact sound.ok.eq_of_covers otherLive live
        ((sound.ok.covers_iff otherLive _).mp covers) inA
  apart vma mapping vma' mapping' different := by
    rcases sound.exists_allocation mapping with ⟨a, live, owns, first, last⟩
    rcases sound.exists_allocation mapping' with ⟨a', live', owns', first', last'⟩
    have otherStart : a.start ≠ a'.start := by
      intro same
      exact different (sound.distinct _ (sound.held vma mapping) _ (sound.held vma' mapping')
        ((owns.vaddr_eq_iff owns').mpr same))
    have symmetric : Std.Symm fun a b : Allocation => a.stop ≤ b.start ∨ b.stop ≤ a.start :=
      ⟨fun _ _ => Or.symm⟩
    have apart := List.Pairwise.forall sound.ok.apart live live'
      (fun same => otherStart (congrArg Allocation.start same))
    simp only [MmzRegion.frame] at first last first' last'
    omega

end Invariant

/-! ### The whole run -/

/-- Over every run of the heap's clients beside the codec: a mapped frame is a page of its buffer's
allocation and of no other, and mappings of different buffers share no frame. -/
theorem mmzHeap_isolated {ops : Bitmap.BitmapOps} (documented : ops.Documented)
    {region : MmzRegion} {events : List MmzEvent} {s : MmzHeap}
    (run : Run (fun s event after => mmzStep ops region s event = some after)
      (.created region) events s) : s.Isolated region := by
  have sound : s.Sound region := by
    refine run.invariant ?_ (.created region)
    intro s event after sound done
    exact sound.step documented done
  exact sound.isolated

def MmzRegion.small : MmzRegion where
  virtBase := 0x80000000
  deviceBase := 0x29200000
  size := 8
  size_int := by decide
  fits := by decide

/-- Two clients and the codec; the second mmap of the first buffer goes past its end. -/
def twoClients : List MmzEvent :=
  let first : MmzBuffer := ⟨0x80000000, 0x29200000, 0x2000⟩
  let second : MmzBuffer := ⟨0x80003000, 0x29203000, 0x1000⟩
  [.allocate 0x1800 true, .codec (.alloc 0x1000), .allocate 0x1000 true, .mmap first 1 0x1000,
    .mmap first 1 0x2000, .mmap second 0 0x1000, .codec (.release 0x80002000),
    .allocate 0x3000 false, .remap ⟨first, 0x29201, 1⟩ [], .release first]

theorem mmzHeap_isolated_twoClients :
    ∃ s, Run (fun s event after => mmzStep Bitmap.bitwise .small s event = some after)
      (.created .small) twoClients s ∧ s.vmas.length = 1 ∧ s.Isolated .small := by
  have checked : (twoClients.foldlM (mmzStep Bitmap.bitwise .small) (.created .small)).any
      (fun s => s.vmas.length = 1) = true := by
    decide +kernel
  rcases (Option.any_eq_true _ _).mp checked with ⟨s, done, mapped⟩
  have run := Run.of_foldlM (mmzStep Bitmap.bitwise .small) done
  exact ⟨s, run, of_decide_eq_true mapped,
    mmzHeap_isolated Bitmap.bitwise_documented run⟩

end MlKernel.Dma
