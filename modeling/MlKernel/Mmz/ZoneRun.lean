import MlKernel.Lib.Run
import MlKernel.Mmz.Zone

/-!
# Every history of a zone

A zone starts empty and then serves allocations and frees in any order.  The
history keeps what each descriptor was requested with.  `HistoryLaid` is the
invariant of the run, and `zoneAlloc_firstFit` reads off it what every request
gets at any point.
-/

namespace MlKernel.Mmz

/-- A zone and the size and alignment each descriptor was requested with. -/
structure ZoneHistory where
  zone : MmzZone
  nextPtr : ℕ
  requested : ℕ → ℕ × ℕ

inductive ZoneEvent
  | alloc (size align : ℕ) (kzallocOk : Bool)
  | free (ptr : ℕ)

/-- A zone as `hil_mmz_create` leaves it. -/
def ZoneHistory.created (name : String) (base size : ℕ) : ZoneHistory :=
  { zone := { name, base, size, mmbList := [] }, nextPtr := 0, requested := fun _ => (0, 0) }

/-- The descriptor that `kzalloc` returns, at an address not handed out before. -/
def ZoneHistory.kzalloc (h : ZoneHistory) (ok : Bool) : Option ℕ :=
  if ok then some h.nextPtr else none

def ZoneHistory.alloc (h : ZoneHistory) (size align : ℕ) (ok : Bool) : ZoneHistory :=
  match zoneAllocLocked h.zone (h.kzalloc ok) size align with
  | (none, zone) => { h with zone }
  | (some nb, zone) =>
    { zone
      nextPtr := h.nextPtr + 1
      requested := Function.update h.requested nb.ptr (size, align) }

/-- Blocks are freed through the pointer of a linked descriptor. -/
inductive ZoneStep : ZoneHistory → ZoneEvent → ZoneHistory → Prop
  | alloc (h : ZoneHistory) (size align : ℕ) (ok : Bool) :
      ZoneStep h (.alloc size align ok) (h.alloc size align ok)
  | free (h : ZoneHistory) (b : Mmb) (linked : b ∈ h.zone.mmbList) :
      ZoneStep h (.free b.ptr) { h with zone := unlinkBlock h.zone b.ptr }

/-- The zone keeps its range and is well laid, and every block serves its request. -/
structure HistoryLaid (base size : ℕ) (h : ZoneHistory) : Prop where
  base_eq : h.zone.base = base
  size_eq : h.zone.size = size
  zone : ZoneLaid h.zone
  fresh : ∀ b ∈ h.zone.mmbList, b.ptr < h.nextPtr
  aligned : ∀ b ∈ h.zone.mmbList, effectiveAlign (h.requested b.ptr).2 ∣ b.phys
  large : ∀ b ∈ h.zone.mmbList, (h.requested b.ptr).1 ≤ b.size

theorem HistoryLaid.created (name : String) {base size : ℕ} (inRange : base + 2 * size ≤ 2 ^ 64) :
    HistoryLaid base size (.created name base size) where
  base_eq := rfl
  size_eq := rfl
  zone :=
    { inRange
      laid := List.Pairwise.nil
      nonempty := fun _ member => absurd member List.not_mem_nil
      wholePages := fun _ member => absurd member List.not_mem_nil
      above := fun _ member => absurd member List.not_mem_nil
      below := fun _ member => absurd member List.not_mem_nil }
  fresh _ member := absurd member List.not_mem_nil
  aligned _ member := absurd member List.not_mem_nil
  large _ member := absurd member List.not_mem_nil

theorem HistoryLaid.alloc {base zoneSize : ℕ} {h : ZoneHistory} (ok : HistoryLaid base zoneSize h)
    (size align : ℕ) (kzallocOk : Bool) :
    HistoryLaid base zoneSize (h.alloc size align kzallocOk) := by
  rcases zoneAllocLocked_cases ok.zone (h.kzalloc kzallocOk) size align with
    ⟨ptr, room, allocated, done⟩ | ⟨_, done⟩
  · have ptrEq : ptr = h.nextPtr := by
      cases kzallocOk with
      | false => exact absurd allocated nofun
      | true => exact (Option.some.inj allocated).symm
    subst ptrEq
    rw [ZoneHistory.alloc, done]
    rcases lowestFit_isLeast ok.zone size align with ⟨⟨aligned, _, _⟩, _⟩
    have old : ∀ b ∈ h.zone.mmbList,
        Function.update h.requested h.nextPtr (size, align) b.ptr = h.requested b.ptr :=
      fun b member => Function.update_of_ne (Nat.ne_of_lt (ok.fresh b member)) _ _
    refine ⟨ok.base_eq, ok.size_eq, ok.zone.granted _ room, ?_, ?_, ?_⟩
    · intro b member
      rcases mem_insertBlock.mp member with rfl | member
      · exact Nat.lt_succ_self h.nextPtr
      · exact Nat.lt_succ_of_lt (ok.fresh b member)
    · intro b member
      rcases mem_insertBlock.mp member with rfl | member
      · simp only [newMmb, Function.update_self]
        exact aligned
      · change effectiveAlign (Function.update h.requested h.nextPtr (size, align) b.ptr).2 ∣ _
        rw [old b member]
        exact ok.aligned b member
    · intro b member
      rcases mem_insertBlock.mp member with rfl | member
      · simp only [newMmb, Function.update_self]
        exact le_pages size
      · change (Function.update h.requested h.nextPtr (size, align) b.ptr).1 ≤ _
        rw [old b member]
        exact ok.large b member
  · rw [ZoneHistory.alloc, done]
    exact ⟨ok.base_eq, ok.size_eq, ok.zone, ok.fresh, ok.aligned, ok.large⟩

theorem HistoryLaid.free {base zoneSize : ℕ} {h : ZoneHistory} (ok : HistoryLaid base zoneSize h)
    (ptr : ℕ) : HistoryLaid base zoneSize { h with zone := unlinkBlock h.zone ptr } where
  base_eq := ok.base_eq
  size_eq := ok.size_eq
  zone := ok.zone.unlink ptr
  fresh b member := ok.fresh b (List.mem_of_mem_filter member)
  aligned b member := ok.aligned b (List.mem_of_mem_filter member)
  large b member := ok.large b (List.mem_of_mem_filter member)

theorem ZoneStep.laid {base zoneSize : ℕ} {h next : ZoneHistory} {event : ZoneEvent}
    (ok : HistoryLaid base zoneSize h) (step : ZoneStep h event next) :
    HistoryLaid base zoneSize next := by
  cases step with
  | alloc size align kzallocOk => exact ok.alloc size align kzallocOk
  | free b linked => exact ok.free b.ptr

/-- The aligned addresses at which the page-rounded request fits into the zone. -/
def FreeFits (z : MmzZone) (size align : ℕ) : Set ℕ :=
  {address | max align pageSize ∣ address ∧ z.base ≤ address ∧
    address + pages size ≤ z.base + z.size ∧
    FirstFit.Clear Mmb.phys Mmb.stop z.mmbList (pages size) address}

theorem freeFits_nonempty_iff {z : MmzZone} (ok : ZoneLaid z) {size align : ℕ}
    (nonzero : size ≠ 0) (power : align.isPowerOfTwo) (alignLe : align ≤ z.size) :
    (FreeFits z size align).Nonempty ↔ HasRoom z size align := by
  rcases lowestFit_isLeast ok size align with ⟨⟨aligned, fromBase, clear⟩, lowest⟩
  constructor
  · rintro ⟨address, addressAligned, addressFrom, fits, addressClear⟩
    have := lowest ⟨addressAligned, addressFrom, addressClear⟩
    have wholePage : pageSize ≤ pages size :=
      Nat.le_of_dvd (Nat.lt_of_lt_of_le (by omega) (le_pages size)) (pageSize_dvd_pages size)
    refine ⟨nonzero, isPowerOfTwo_effectiveAlign power, ?_, by omega⟩
    exact Nat.max_le.mpr ⟨alignLe, by omega⟩
  · rintro ⟨_, _, _, fits⟩
    exact ⟨lowestFit z size align, aligned, fromBase, fits, clear⟩

theorem lowestFit_isLeast_freeFits {z : MmzZone} (ok : ZoneLaid z) {size align : ℕ}
    (room : HasRoom z size align) :
    IsLeast (FreeFits z size align) (lowestFit z size align) := by
  rcases lowestFit_isLeast ok size align with ⟨⟨aligned, fromBase, clear⟩, lowest⟩
  refine ⟨⟨aligned, fromBase, room.2.2.2, clear⟩, ?_⟩
  rintro address ⟨addressAligned, addressFrom, _, addressClear⟩
  exact lowest ⟨addressAligned, addressFrom, addressClear⟩

/-- A zone's list stays sorted, disjoint and inside the zone, and every request gets
the lowest fitting address, or nothing changes. -/
theorem zoneAlloc_firstFit (name : String) {base zoneSize : ℕ}
    (inRange : base + 2 * zoneSize ≤ 2 ^ 64) {events : List ZoneEvent} {h : ZoneHistory}
    (run : Run ZoneStep (.created name base zoneSize) events h) :
    h.zone.base = base ∧ h.zone.size = zoneSize ∧
    (h.zone.mmbList.Pairwise fun earlier later => earlier.phys < later.phys) ∧
    (h.zone.mmbList.Pairwise fun earlier later => earlier.phys + earlier.size ≤ later.phys) ∧
    (∀ b ∈ h.zone.mmbList,
      pageSize ∣ b.size ∧ base ≤ b.phys ∧ b.phys + b.size ≤ base + zoneSize ∧
      max (h.requested b.ptr).2 pageSize ∣ b.phys ∧ (h.requested b.ptr).1 ≤ b.size) ∧
    ∀ kzalloc size align, size ≠ 0 → align.isPowerOfTwo → align ≤ zoneSize →
      (((zoneAllocLocked h.zone kzalloc size align).1.isSome ↔
        kzalloc.isSome ∧ (FreeFits h.zone size align).Nonempty) ∧
      (∀ nb, (zoneAllocLocked h.zone kzalloc size align).1 = some nb →
        IsLeast (FreeFits h.zone size align) nb.phys ∧ nb.size = pages size ∧
        (zoneAllocLocked h.zone kzalloc size align).2.mmbList.Perm (nb :: h.zone.mmbList)) ∧
      ((zoneAllocLocked h.zone kzalloc size align).1 = none →
        (zoneAllocLocked h.zone kzalloc size align).2 = h.zone)) := by
  have ok : HistoryLaid base zoneSize h :=
    run.invariant (fun _ _ _ laid step => step.laid laid) (.created name inRange)
  refine ⟨ok.base_eq, ok.size_eq, ?_, ok.zone.laid, ?_, ?_⟩
  · apply ok.zone.laid.imp_of_mem
    intro earlier later earlierMem laterMem disjoint
    have := ok.zone.nonempty earlier earlierMem
    have : earlier.phys + earlier.size ≤ later.phys := disjoint
    omega
  · intro b member
    have above := ok.zone.above b member
    have below := ok.zone.below b member
    rw [ok.base_eq] at above below
    rw [ok.size_eq] at below
    exact ⟨ok.zone.wholePages b member, above, below, ok.aligned b member, ok.large b member⟩
  · intro kzalloc size align nonzero power alignLe
    rw [← ok.size_eq] at alignLe
    rw [freeFits_nonempty_iff ok.zone nonzero power alignLe]
    rcases zoneAllocLocked_cases ok.zone kzalloc size align with
      ⟨ptr, room, rfl, done⟩ | ⟨refused, done⟩
    · rw [done]
      refine ⟨⟨fun _ => ⟨rfl, room⟩, fun _ => rfl⟩, ?_, nofun⟩
      rintro nb served
      cases served
      exact ⟨lowestFit_isLeast_freeFits ok.zone room, rfl, List.perm_orderedInsert _ _ _⟩
    · rw [done]
      refine ⟨⟨nofun, ?_⟩, nofun, fun _ => rfl⟩
      rintro ⟨allocated, room⟩
      rw [refused room] at allocated
      exact absurd allocated nofun

/-- Two blocks and a free: the next request goes into the gap that fits it. -/
theorem zoneAlloc_firstFit_gap :
    let h := ((ZoneHistory.created "anonymous" 0x29200000 0x06e00000).alloc 5000 0x1000 true).alloc
      0x1000 0x10000 true
    IsLeast (FreeFits (unlinkBlock h.zone 0) 0x3000 0x8000) 0x29200000 := by
  intro h
  have run : Run ZoneStep (.created "anonymous" 0x29200000 0x06e00000)
      [.alloc 5000 0x1000 true, .alloc 0x1000 0x10000 true, .free 0]
      { h with zone := unlinkBlock h.zone 0 } :=
    .cons (.alloc _ 5000 0x1000 true) (.cons (.alloc _ 0x1000 0x10000 true)
      (.cons (.free h (newMmb 0 0x29200000 0x2000 0x1000) (by decide +kernel)) (.nil _)))
  have spec := (zoneAlloc_firstFit "anonymous" (by decide) run).2.2.2.2.2 (some 2) 0x3000 0x8000
    (by decide) ⟨15, rfl⟩ (by decide)
  exact (spec.2.1 (newMmb 2 0x29200000 0x3000 0x8000) (by decide +kernel)).1

/-- The walk finds room, and the descriptor's `kzalloc` fails. -/
theorem zoneAllocLocked_noMemory :
    ¬ ((zoneAllocLocked (ZoneHistory.created "anonymous" 0x29200000 0x06e00000).zone none
          0x1000 0x1000).1.isSome ↔
        (FreeFits (ZoneHistory.created "anonymous" 0x29200000 0x06e00000).zone
          0x1000 0x1000).Nonempty) := by
  intro succeedsIff
  have fits : (FreeFits (ZoneHistory.created "anonymous" 0x29200000 0x06e00000).zone
      0x1000 0x1000).Nonempty :=
    ⟨0x29200000, by decide, Nat.le_refl _, by decide,
      fun _ member => absurd member List.not_mem_nil⟩
  exact absurd (succeedsIff.mpr fits) (by decide +kernel)

end MlKernel.Mmz
