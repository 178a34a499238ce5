import MlKernel.Lib.FirstFit

/-!
# The MMZ zone allocator

A zone is a range of physical memory, and its blocks are descriptors in a list
sorted by address.  `zoneAllocLocked` walks the gaps and inserts the new
descriptor in order; `unlinkBlock` is what every way of freeing a block does to
the list.  Addresses and sizes are 64-bit words, kept as natural numbers.

The walk re-aligns one cursor after each block, so it is `FirstFit.firstFit` as
long as nothing overflows; `gapWalk_eq` says so for a well laid zone, and
`ZoneLaid` is kept by both operations.
-/

namespace MlKernel.Mmz

def pageSize : ℕ := 4096

structure Mmb where
  /-- The address of the descriptor. -/
  ptr : ℕ
  phys : ℕ
  size : ℕ
  align : ℕ
  refcount : ℤ
  userKref : ℤ
  mapKref : ℤ
  deriving DecidableEq, Repr

def Mmb.stop (b : Mmb) : ℕ := b.phys + b.size

structure MmzZone where
  name : String
  base : ℕ
  size : ℕ
  mmbList : List Mmb
  deriving DecidableEq, Repr

/-- `ALIGN` on 64-bit words. -/
def align64 (x a : ℕ) : ℕ := Align.upMask 64 x a

def isPowerOf2 (n : ℕ) : Bool := n ≠ 0 && n &&& (n - 1) = 0

/-- The gap walk of `zone_alloc_locked`: `none` when `cur + size` overflows. -/
def gapWalk (size align : ℕ) : ℕ → List Mmb → Option ℕ
  | cur, [] => some cur
  | cur, b :: rest =>
    if 2 ^ 64 ≤ cur + size then none
    else if cur + size ≤ b.phys then some cur
    else gapWalk size align (align64 ((b.phys + b.size) % 2 ^ 64) align) rest

/-- The descriptor that `zone_alloc_locked` fills in. -/
def newMmb (ptr cur size align : ℕ) : Mmb :=
  { ptr, phys := cur, size, align := align % 2 ^ 32, refcount := 1, userKref := 0, mapKref := 0 }

/-- `list_add_tail` before the first block with a higher address. -/
def insertBlock (blocks : List Mmb) (nb : Mmb) : List Mmb :=
  blocks.orderedInsert (fun earlier later => earlier.phys < later.phys) nb

/-- `zone_alloc_locked`, with the outcome of its `kzalloc`. -/
def zoneAllocLocked (z : MmzZone) (kzalloc : Option ℕ) (size align : ℕ) : Option Mmb × MmzZone :=
  let align := if align = 0 then pageSize else align
  let align := max align pageSize
  if size = 0 ∨ z.size < size then (none, z)
  else if ¬ isPowerOf2 align ∨ z.size < align then (none, z)
  else
    let size := align64 size pageSize
    if size = 0 ∨ z.size < size then (none, z)
    else
      match gapWalk size align (align64 z.base align) z.mmbList with
      | none => (none, z)
      | some cur =>
        if 2 ^ 64 ≤ cur + size ∨ (z.base + z.size) % 2 ^ 64 < cur + size then (none, z)
        else
          match kzalloc with
          | none => (none, z)
          | some ptr =>
            let nb := newMmb ptr cur size align
            (some nb, { z with mmbList := insertBlock z.mmbList nb })

/-- `list_del` of the block behind a pointer. -/
def unlinkBlock (z : MmzZone) (ptr : ℕ) : MmzZone :=
  { z with mmbList := z.mmbList.filter fun b => b.ptr ≠ ptr }

theorem isPowerOf2_iff {n : ℕ} : isPowerOf2 n = true ↔ n.isPowerOfTwo := by
  rw [← Nat.ne_zero_and_sub_one_eq_zero_iff_isPowerOfTwo]
  simp [isPowerOf2]

theorem isPowerOfTwo_pageSize : pageSize.isPowerOfTwo :=
  ⟨12, rfl⟩

/-- The alignment a request is served with. -/
def effectiveAlign (align : ℕ) : ℕ := max align pageSize

theorem isPowerOfTwo_effectiveAlign {align : ℕ} (power : align.isPowerOfTwo) :
    (effectiveAlign align).isPowerOfTwo := by
  rcases Nat.le_total align pageSize with le | le
  · rw [effectiveAlign, Nat.max_eq_right le]
    exact isPowerOfTwo_pageSize
  · rw [effectiveAlign, Nat.max_eq_left le]
    exact power

theorem effectiveAlign_pos (align : ℕ) : 0 < effectiveAlign align :=
  Nat.lt_of_lt_of_le (by decide) (Nat.le_max_right align pageSize)

def pages (size : ℕ) : ℕ := Align.up size pageSize

theorem pageSize_dvd_pages (size : ℕ) : pageSize ∣ pages size :=
  Align.dvd_up size pageSize

theorem le_pages (size : ℕ) : size ≤ pages size :=
  Align.le_up size (by decide)

/-- The list of a zone's blocks as `FirstFit` lays it out, inside the zone. -/
structure ZoneLaid (z : MmzZone) : Prop where
  inRange : z.base + 2 * z.size ≤ 2 ^ 64
  laid : FirstFit.LaidOut Mmb.phys Mmb.stop z.mmbList
  nonempty : ∀ b ∈ z.mmbList, 0 < b.size
  wholePages : ∀ b ∈ z.mmbList, pageSize ∣ b.size
  above : ∀ b ∈ z.mmbList, z.base ≤ b.phys
  below : ∀ b ∈ z.mmbList, b.stop ≤ z.base + z.size

/-- The walk is the gap walk of `FirstFit`; it gives up early only when the fit overflows. -/
theorem gapWalk_eq {blocks : List Mmb} (size : ℕ) {align floor : ℕ} (limit : ℕ)
    (power : align.isPowerOfTwo) (room : limit + align ≤ 2 ^ 64)
    (laid : FirstFit.LaidOut Mmb.phys Mmb.stop blocks)
    (above : ∀ b ∈ blocks, floor ≤ b.phys) (below : ∀ b ∈ blocks, b.stop ≤ limit) :
    gapWalk size align (Align.up floor align) blocks =
        some (FirstFit.firstFit Mmb.phys Mmb.stop size align floor blocks) ∨
      gapWalk size align (Align.up floor align) blocks = none ∧
        2 ^ 64 ≤ FirstFit.firstFit Mmb.phys Mmb.stop size align floor blocks + size := by
  have alignPositive : 0 < align := Nat.pos_of_isPowerOfTwo power
  induction blocks generalizing floor with
  | nil => exact Or.inl rfl
  | cons b rest ih =>
      rcases List.pairwise_cons.mp laid with ⟨before, laidRest⟩
      have stopLe := below b List.mem_cons_self
      have belowRest : ∀ other ∈ rest, other.stop ≤ limit := fun other member =>
        below other (List.mem_cons_of_mem _ member)
      have recursion := ih laidRest before belowRest
      have next : align64 ((b.phys + b.size) % 2 ^ 64) align = Align.up b.stop align := by
        change Align.upMask 64 (b.stop % 2 ^ 64) align = Align.up b.stop align
        rw [Nat.mod_eq_of_lt (by omega), Align.upMask_eq_up power (by omega)]
      rw [gapWalk, next, FirstFit.firstFit]
      split
      next overflow =>
        refine Or.inr ⟨rfl, ?_⟩
        split
        next fits => exact overflow
        next tight =>
          have walked := (FirstFit.firstFit_isLeast size alignPositive laidRest before
            fun other _ => Nat.le_add_right other.phys other.size).1
          have := Align.up_le_of_dvd alignPositive walked.1
            (Nat.le_trans (above b List.mem_cons_self)
              (Nat.le_trans (Nat.le_add_right b.phys b.size) walked.2.1))
          omega
      next inside =>
        split
        next fits => exact Or.inl rfl
        next tight => exact recursion

/-- Where the walk stops for a request. -/
def lowestFit (z : MmzZone) (size align : ℕ) : ℕ :=
  FirstFit.firstFit Mmb.phys Mmb.stop (pages size) (effectiveAlign align) z.base z.mmbList

def HasRoom (z : MmzZone) (size align : ℕ) : Prop :=
  size ≠ 0 ∧ (effectiveAlign align).isPowerOfTwo ∧ effectiveAlign align ≤ z.size ∧
    lowestFit z size align + pages size ≤ z.base + z.size

def granted (z : MmzZone) (ptr size align : ℕ) : MmzZone :=
  { z with
    mmbList := insertBlock z.mmbList
      (newMmb ptr (lowestFit z size align) (pages size) (effectiveAlign align)) }

theorem lowestFit_isLeast {z : MmzZone} (ok : ZoneLaid z) (size align : ℕ) :
    IsLeast (FirstFit.Candidates Mmb.phys Mmb.stop z.mmbList (pages size)
      (effectiveAlign align) z.base) (lowestFit z size align) :=
  FirstFit.firstFit_isLeast (pages size) (effectiveAlign_pos align) ok.laid ok.above
    fun b _ => Nat.le_add_right b.phys b.size

/-- What `zone_alloc_locked` does: it grants the request at `lowestFit`, or changes nothing. -/
theorem zoneAllocLocked_cases {z : MmzZone} (ok : ZoneLaid z) (kzalloc : Option ℕ)
    (size align : ℕ) :
    (∃ ptr, HasRoom z size align ∧ kzalloc = some ptr ∧
      zoneAllocLocked z kzalloc size align =
        (some (newMmb ptr (lowestFit z size align) (pages size) (effectiveAlign align)),
          granted z ptr size align)) ∨
    ((HasRoom z size align → kzalloc = none) ∧
      zoneAllocLocked z kzalloc size align = (none, z)) := by
  have inRange := ok.inRange
  have atLeast : size ≤ pages size := le_pages size
  have fromBase : z.base ≤ lowestFit z size align := (lowestFit_isLeast ok size align).1.2.1
  have effective : max (if align = 0 then pageSize else align) pageSize = effectiveAlign align := by
    rw [effectiveAlign]
    split
    next zero => simp [zero]
    next => rfl
  simp only [zoneAllocLocked, effective]
  split
  next refused =>
    refine Or.inr ⟨fun room => ?_, rfl⟩
    rcases room with ⟨nonzero, _, _, fits⟩
    omega
  next bounded =>
    split
    next refused =>
      refine Or.inr ⟨fun room => ?_, rfl⟩
      rcases room with ⟨_, power, alignLe, _⟩
      rw [isPowerOf2_iff] at refused
      rcases refused with notPower | tooBig
      · exact absurd power notPower
      · omega
    next accepted =>
      have power : (effectiveAlign align).isPowerOfTwo := by
        rw [← isPowerOf2_iff]
        exact not_not.mp fun notPower => accepted (Or.inl notPower)
      have alignLe : effectiveAlign align ≤ z.size := by omega
      have pageLe : pageSize ≤ effectiveAlign align := Nat.le_max_right align pageSize
      have rounded : align64 size pageSize = pages size :=
        Align.upMask_eq_up isPowerOfTwo_pageSize (by omega)
      have cursor : align64 z.base (effectiveAlign align) =
          Align.up z.base (effectiveAlign align) :=
        Align.upMask_eq_up power (by omega)
      rw [rounded, cursor]
      split
      next refused =>
        refine Or.inr ⟨fun room => ?_, rfl⟩
        rcases room with ⟨_, _, _, fits⟩
        omega
      next pagesLe =>
        have endInRange : (z.base + z.size) % 2 ^ 64 = z.base + z.size :=
          Nat.mod_eq_of_lt (by omega)
        rcases gapWalk_eq (pages size) (z.base + z.size) power (by omega) ok.laid ok.above
          ok.below with walked | ⟨walked, overflow⟩
        · change gapWalk (pages size) (effectiveAlign align) _ z.mmbList =
            some (lowestFit z size align) at walked
          simp only [walked, endInRange]
          split
          next outOfRoom =>
            refine Or.inr ⟨fun room => ?_, rfl⟩
            have := room.2.2.2
            omega
          next inside =>
            rcases kzalloc with _ | ptr
            · exact Or.inr ⟨fun _ => rfl, rfl⟩
            · exact Or.inl ⟨ptr, ⟨by omega, power, alignLe, by omega⟩, rfl, rfl⟩
        · rw [walked]
          refine Or.inr ⟨fun room => ?_, rfl⟩
          have := room.2.2.2
          change 2 ^ 64 ≤ lowestFit z size align + pages size at overflow
          omega

theorem mem_insertBlock {blocks : List Mmb} {nb b : Mmb} :
    b ∈ insertBlock blocks nb ↔ b = nb ∨ b ∈ blocks :=
  List.mem_orderedInsert _

theorem ZoneLaid.granted {z : MmzZone} (ok : ZoneLaid z) (ptr : ℕ) {size align : ℕ}
    (room : HasRoom z size align) : ZoneLaid (granted z ptr size align) := by
  rcases lowestFit_isLeast ok size align with ⟨⟨_, fromBase, clear⟩, _⟩
  rcases room with ⟨nonzero, _, _, fits⟩
  have positive : 0 < pages size := Nat.lt_of_lt_of_le (by omega) (le_pages size)
  have stop : (newMmb ptr (lowestFit z size align) (pages size) (effectiveAlign align)).stop =
      lowestFit z size align + pages size := rfl
  refine ⟨ok.inRange, ?_, ?_, ?_, ?_, ?_⟩
  · refine ok.laid.orderedInsert ?_ (fun b _ => Nat.le_add_right b.phys b.size) ?_
    · rw [stop]
      change lowestFit z size align < _
      omega
    · rw [stop]
      change FirstFit.Clear _ _ _ (lowestFit z size align + pages size - lowestFit z size align) _
      rw [Nat.add_sub_cancel_left]
      exact clear
  · intro b member
    rcases mem_insertBlock.mp member with rfl | member
    · exact positive
    · exact ok.nonempty b member
  · intro b member
    rcases mem_insertBlock.mp member with rfl | member
    · exact pageSize_dvd_pages size
    · exact ok.wholePages b member
  · intro b member
    rcases mem_insertBlock.mp member with rfl | member
    · exact fromBase
    · exact ok.above b member
  · intro b member
    rcases mem_insertBlock.mp member with rfl | member
    · exact fits
    · exact ok.below b member

theorem ZoneLaid.alloc {z : MmzZone} (ok : ZoneLaid z) (kzalloc : Option ℕ) (size align : ℕ) :
    ZoneLaid (zoneAllocLocked z kzalloc size align).2 := by
  rcases zoneAllocLocked_cases ok kzalloc size align with ⟨ptr, room, _, done⟩ | ⟨_, done⟩
  · rw [done]
    exact ok.granted ptr room
  · rw [done]
    exact ok

theorem ZoneLaid.sublist {z : MmzZone} (ok : ZoneLaid z) {kept : List Mmb}
    (sublist : kept.Sublist z.mmbList) : ZoneLaid { z with mmbList := kept } where
  inRange := ok.inRange
  laid := ok.laid.sublist sublist
  nonempty b member := ok.nonempty b (sublist.subset member)
  wholePages b member := ok.wholePages b (sublist.subset member)
  above b member := ok.above b (sublist.subset member)
  below b member := ok.below b (sublist.subset member)

theorem ZoneLaid.map {z : MmzZone} (ok : ZoneLaid z) {change : Mmb → Mmb}
    (keeps : ∀ b, (change b).phys = b.phys ∧ (change b).size = b.size) :
    ZoneLaid { z with mmbList := z.mmbList.map change } := by
  have stop : ∀ b, (change b).stop = b.stop := fun b => by
    rw [Mmb.stop, (keeps b).1, (keeps b).2, Mmb.stop]
  refine ⟨ok.inRange, ?_, ?_, ?_, ?_, ?_⟩
  · refine List.pairwise_map.mpr (ok.laid.imp ?_)
    intro earlier later before
    rw [stop, (keeps later).1]
    exact before
  all_goals
    intro b member
    rcases List.mem_map.mp member with ⟨old, oldMem, rfl⟩
  · rw [(keeps old).2]
    exact ok.nonempty old oldMem
  · rw [(keeps old).2]
    exact ok.wholePages old oldMem
  · rw [(keeps old).1]
    exact ok.above old oldMem
  · rw [stop]
    exact ok.below old oldMem

theorem ZoneLaid.unlink {z : MmzZone} (ok : ZoneLaid z) (ptr : ℕ) : ZoneLaid (unlinkBlock z ptr) :=
  ok.sublist List.filter_sublist

end MlKernel.Mmz
