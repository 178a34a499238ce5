import Mathlib.Data.List.Pairwise
import MlKernel.Lib.Align
import MlKernel.Lib.Bitmap
import MlKernel.Lib.Run

/-!
# The page-granular coherent pool

The pool of a reserved memory region has a bit for each page.  An allocation
takes the first area of as many clear bits as it has pages, and `nr_map` keeps
the count at its first page; a release reads the count there.  The live
allocations are a ghost list, written from what the calls returned.
-/

namespace MlKernel.Dma

def pageSize : ℕ := 4096

/-- `struct dma_coherent_mem`; its size in pages is an `int`. -/
structure DmaCoherentMem where
  virtBase : ℕ
  size : ℕ
  size_int : size < 2 ^ 31
  bitmap : ℕ → Bool
  nrMap : ℕ → ℕ

/-- `__dma_alloc_from_coherent`, with the page it hands out.  A negative size is a large
one in the comparison with the pool's. -/
def dmaAllocFromCoherent (ops : Bitmap.BitmapOps) (mem : DmaCoherentMem) (size : UInt64) :
    DmaCoherentMem × Option ℕ :=
  let nr := Align.upMask 64 size.toNat pageSize / pageSize
  if size.toNat > mem.size * pageSize then (mem, none)
  else if nr = 0 then (mem, none)
  else
    let pageno := ops.findNextZeroArea mem.bitmap mem.size 0 nr
    if pageno ≥ mem.size then (mem, none)
    else
      ({ mem with
          bitmap := ops.set mem.bitmap pageno nr
          nrMap := Function.update mem.nrMap pageno nr },
        some pageno)

def DmaCoherentMem.page (mem : DmaCoherentMem) (vaddr : ℕ) : ℕ := (vaddr - mem.virtBase) / pageSize

def DmaCoherentMem.Contains (mem : DmaCoherentMem) (vaddr : ℕ) : Prop :=
  mem.virtBase ≤ vaddr ∧ vaddr < mem.virtBase + mem.size * pageSize

instance (mem : DmaCoherentMem) (vaddr : ℕ) : Decidable (mem.Contains vaddr) :=
  inferInstanceAs (Decidable (_ ∧ _))

/-- `__dma_release_from_coherent`, with its return value. -/
def dmaReleaseFromCoherent (ops : Bitmap.BitmapOps) (mem : DmaCoherentMem) (vaddr : ℕ) :
    DmaCoherentMem × Bool :=
  if mem.Contains vaddr then
    let page := mem.page vaddr
    let nr := mem.nrMap page
    if nr = 0 then (mem, true)
    else
      ({ mem with
          bitmap := ops.clear mem.bitmap page nr
          nrMap := Function.update mem.nrMap page 0 },
        true)
  else (mem, false)

/-- An allocation that was handed out. -/
structure Allocation where
  start : ℕ
  pages : ℕ
  deriving DecidableEq

structure PoolSystem where
  mem : DmaCoherentMem
  live : List Allocation

inductive PoolEvent
  | alloc (size : UInt64)
  | release (vaddr : ℕ)

/-- The pages that a size needs. -/
def pagesOf (size : ℕ) : ℕ := Align.up size pageSize / pageSize

def poolStep (ops : Bitmap.BitmapOps) (s : PoolSystem) : PoolEvent → PoolSystem
  | .alloc size =>
    let (mem, pageno) := dmaAllocFromCoherent ops s.mem size
    { mem, live := (pageno.map fun start => ⟨start, pagesOf size.toNat⟩).toList ++ s.live }
  | .release vaddr =>
    let (mem, handled) := dmaReleaseFromCoherent ops s.mem vaddr
    { mem, live := if handled then s.live.filter (·.start ≠ s.mem.page vaddr) else s.live }

/-- The pool as `dma_init_coherent_memory` leaves it. -/
def PoolSystem.created (virtBase size : ℕ) (size_int : size < 2 ^ 31) : PoolSystem :=
  { mem := { virtBase, size, size_int, bitmap := fun _ => false, nrMap := fun _ => 0 }
    live := [] }

/-! ### What the pool promises -/

/-- The page lies in the allocation, by the count at its start. -/
def Allocation.Covers (a : Allocation) (mem : DmaCoherentMem) (page : ℕ) : Prop :=
  a.start ≤ page ∧ page < a.start + mem.nrMap a.start

structure PoolCorrect (ops : Bitmap.BitmapOps) (s : PoolSystem) : Prop where
  bit_iff : ∀ page, s.mem.bitmap page = true ↔ ∃! a, a ∈ s.live ∧ a.Covers s.mem page
  disjoint : s.live.Pairwise fun a b => ∀ page, a.Covers s.mem page → ¬ b.Covers s.mem page
  inside : ∀ a ∈ s.live, a.start + s.mem.nrMap a.start ≤ s.mem.size
  count : ∀ a ∈ s.live, s.mem.nrMap a.start = a.pages
  nrMap_iff : ∀ page, s.mem.nrMap page ≠ 0 ↔ ∃ a ∈ s.live, a.start = page
  alloc_iff : ∀ size : UInt64, 1 ≤ pagesOf size.toNat →
    ((dmaAllocFromCoherent ops s.mem size).2.isSome = true ↔
      ∃ start, Bitmap.ClearArea s.mem.bitmap s.mem.size (pagesOf size.toNat) start)
  alloc_failed : ∀ size, (dmaAllocFromCoherent ops s.mem size).2 = none →
    poolStep ops s (.alloc size) = s
  release_stale : ∀ vaddr, (∀ a ∈ s.live, a.start ≠ s.mem.page vaddr) →
    poolStep ops s (.release vaddr) = s

/-! ### The invariant -/

def Allocation.stop (a : Allocation) : ℕ := a.start + a.pages

/-- The bits are the pages of the live allocations, and only their first pages have a count. -/
structure PoolSystem.Ok (s : PoolSystem) : Prop where
  bit_iff : ∀ page, s.mem.bitmap page = true ↔ ∃ a ∈ s.live, a.start ≤ page ∧ page < a.stop
  apart : s.live.Pairwise fun a b => a.stop ≤ b.start ∨ b.stop ≤ a.start
  nonempty : ∀ a ∈ s.live, a.start < a.stop
  inside : ∀ a ∈ s.live, a.stop ≤ s.mem.size
  count : ∀ a ∈ s.live, s.mem.nrMap a.start = a.pages
  uncounted : ∀ page, (∀ a ∈ s.live, a.start ≠ page) → s.mem.nrMap page = 0

theorem PoolSystem.created_ok (virtBase size : ℕ) (size_int : size < 2 ^ 31) :
    (PoolSystem.created virtBase size size_int).Ok where
  bit_iff _ := by simp [PoolSystem.created]
  apart := .nil
  nonempty _ member := by simp [PoolSystem.created] at member
  inside _ member := by simp [PoolSystem.created] at member
  count _ member := by simp [PoolSystem.created] at member
  uncounted _ _ := rfl

section Pool

variable {ops : Bitmap.BitmapOps} {s : PoolSystem}

/-- On a size that does not exceed the pool nothing wraps. -/
theorem nr_eq (mem : DmaCoherentMem) {size : UInt64} (fits : size.toNat ≤ mem.size * pageSize) :
    Align.upMask 64 size.toNat pageSize / pageSize = pagesOf size.toNat := by
  have := mem.size_int
  have power : pageSize.isPowerOfTwo := ⟨12, rfl⟩
  rw [pagesOf, Align.upMask_eq_up power]
  simp only [pageSize] at fits ⊢
  omega

theorem le_pagesOf (size : ℕ) : size ≤ pagesOf size * pageSize := by
  have exactly : pagesOf size * pageSize = Align.up size pageSize :=
    Nat.div_mul_cancel (Align.dvd_up size pageSize)
  rw [exactly]
  exact Align.le_up size (by decide)

/-- An allocation fails and changes nothing, or takes an area of clear bits. -/
theorem dmaAllocFromCoherent_cases (documented : ops.Documented) (mem : DmaCoherentMem)
    (size : UInt64) :
    (dmaAllocFromCoherent ops mem size = (mem, none) ∧
      (1 ≤ pagesOf size.toNat →
        ∀ start, ¬ Bitmap.ClearArea mem.bitmap mem.size (pagesOf size.toNat) start)) ∨
    ∃ pageno, 1 ≤ pagesOf size.toNat ∧
      Bitmap.ClearArea mem.bitmap mem.size (pagesOf size.toNat) pageno ∧
      dmaAllocFromCoherent ops mem size =
        ({ mem with
            bitmap := ops.set mem.bitmap pageno (pagesOf size.toNat)
            nrMap := Function.update mem.nrMap pageno (pagesOf size.toNat) },
          some pageno) := by
  unfold dmaAllocFromCoherent
  by_cases fits : size.toNat ≤ mem.size * pageSize
  · rw [nr_eq mem fits]
    simp only [gt_iff_lt, Nat.not_lt.mpr fits, if_false]
    by_cases zero : pagesOf size.toNat = 0
    · left
      simp [zero]
    · simp only [zero, if_false]
      have positive : 0 < pagesOf size.toNat := Nat.pos_of_ne_zero zero
      by_cases found : ops.findNextZeroArea mem.bitmap mem.size 0 (pagesOf size.toNat) < mem.size
      · right
        have area := documented.area_of_lt mem.bitmap mem.size 0 _ positive found
        exact ⟨_, positive, area.2, by simp [Nat.not_le.mpr found]⟩
      · left
        refine ⟨by simp [Nat.not_lt.mp found], ?_⟩
        intro _ start area
        exact found (documented.lt_of_area mem.bitmap mem.size 0 _ start positive
          (Nat.zero_le start) area)
  · left
    refine ⟨by simp [Nat.not_le.mp fits], ?_⟩
    intro _ start area
    have room := area.1
    have enough := le_pagesOf size.toNat
    have within : pagesOf size.toNat * pageSize ≤ mem.size * pageSize :=
      Nat.mul_le_mul_right pageSize (by omega)
    omega

theorem PoolSystem.Ok.eq_of_covers (ok : s.Ok) {a b : Allocation} (aLive : a ∈ s.live)
    (bLive : b ∈ s.live) {page : ℕ} (inA : a.start ≤ page ∧ page < a.stop)
    (inB : b.start ≤ page ∧ page < b.stop) : a = b := by
  by_contra different
  have symmetric : Std.Symm fun a b : Allocation => a.stop ≤ b.start ∨ b.stop ≤ a.start :=
    ⟨fun _ _ => Or.symm⟩
  rcases List.Pairwise.forall ok.apart aLive bLive different with before | after
  · omega
  · omega

theorem PoolSystem.Ok.alloc (ok : s.Ok) (documented : ops.Documented) (size : UInt64) :
    (poolStep ops s (.alloc size)).Ok := by
  rcases dmaAllocFromCoherent_cases documented s.mem size with ⟨failed, -⟩ |
    ⟨pageno, positive, ⟨room, clear⟩, taken⟩
  · simpa [poolStep, failed] using ok
  · have outside (a : Allocation) (live : a ∈ s.live) :
        pageno + pagesOf size.toNat ≤ a.start ∨ a.stop ≤ pageno := by
      have nonempty := ok.nonempty a live
      by_contra meets
      have first : ∃ offset < pagesOf size.toNat,
          a.start ≤ pageno + offset ∧ pageno + offset < a.stop := by
        exact ⟨a.start - pageno, by omega, by omega, by omega⟩
      rcases first with ⟨offset, inside, covered⟩
      have isSet := (ok.bit_iff (pageno + offset)).mpr ⟨a, live, covered⟩
      simp [clear offset inside] at isSet
    have fresh (a : Allocation) (live : a ∈ s.live) : a.start ≠ pageno := by
      have := outside a live
      have := ok.nonempty a live
      omega
    simp only [poolStep, taken, Option.map_some, Option.toList_some, List.cons_append,
      List.nil_append]
    refine ⟨?_, ?_, ?_, ?_, ?_, ?_⟩
    · intro page
      simp only [documented.set_apply, Bool.or_eq_true, ok.bit_iff, List.mem_cons,
        exists_eq_or_imp, Allocation.stop, Bool.and_eq_true, decide_eq_true_eq]
      exact or_comm
    · rw [List.pairwise_cons]
      exact ⟨fun a live => outside a live, ok.apart⟩
    · intro a member
      rcases List.mem_cons.mp member with rfl | live
      · simp only [Allocation.stop]
        omega
      · exact ok.nonempty a live
    · intro a member
      rcases List.mem_cons.mp member with rfl | live
      · exact room
      · exact ok.inside a live
    · intro a member
      rcases List.mem_cons.mp member with rfl | live
      · exact Function.update_self ..
      · dsimp only
        rw [Function.update_of_ne (fresh a live)]
        exact ok.count a live
    · intro page uncounted
      dsimp only
      rw [Function.update_of_ne (Ne.symm (uncounted _ List.mem_cons_self))]
      exact ok.uncounted page fun a live => uncounted a (List.mem_cons_of_mem _ live)

theorem PoolSystem.Ok.release_stale (ok : s.Ok) {vaddr : ℕ}
    (stale : ∀ a ∈ s.live, a.start ≠ s.mem.page vaddr) : poolStep ops s (.release vaddr) = s := by
  have none : s.live.filter (·.start ≠ s.mem.page vaddr) = s.live := by
    rw [List.filter_eq_self]
    intro a live
    exact decide_eq_true (stale a live)
  by_cases contained : s.mem.Contains vaddr
  · simp only [poolStep, dmaReleaseFromCoherent, contained, ok.uncounted _ stale, if_true, none]
  · simp [poolStep, dmaReleaseFromCoherent, contained]

/-- Only one allocation starts at a page. -/
theorem PoolSystem.Ok.mem_others (ok : s.Ok) {a b : Allocation} (live : a ∈ s.live) :
    b ∈ s.live.filter (·.start ≠ a.start) ↔ b ∈ s.live ∧ b ≠ a := by
  have nonempty := ok.nonempty a live
  rw [List.mem_filter, decide_eq_true_eq]
  constructor
  · rintro ⟨member, different⟩
    exact ⟨member, fun same => different (congrArg Allocation.start same)⟩
  · rintro ⟨member, different⟩
    refine ⟨member, fun same => different ?_⟩
    have := ok.nonempty b member
    exact ok.eq_of_covers member live ⟨le_refl b.start, by omega⟩ ⟨by omega, by omega⟩

theorem PoolSystem.Ok.release (ok : s.Ok) (documented : ops.Documented) (vaddr : ℕ) :
    (poolStep ops s (.release vaddr)).Ok := by
  by_cases stale : ∀ a ∈ s.live, a.start ≠ s.mem.page vaddr
  · rw [ok.release_stale stale]
    exact ok
  · push Not at stale
    rcases stale with ⟨a, live, start⟩
    by_cases contained : s.mem.Contains vaddr
    · have nonempty := ok.nonempty a live
      have counted : s.mem.nrMap (s.mem.page vaddr) = a.pages := by
        rw [← start]
        exact ok.count a live
      have positive : a.pages ≠ 0 := by
        simp only [Allocation.stop] at nonempty
        omega
      have others {b : Allocation} : b ∈ s.live.filter (·.start ≠ s.mem.page vaddr) ↔
          b ∈ s.live ∧ b ≠ a := by
        rw [← start]
        exact ok.mem_others live
      simp only [poolStep, dmaReleaseFromCoherent, contained, if_true, counted, positive, if_false]
      refine ⟨?_, ok.apart.filter _, ?_, ?_, ?_, ?_⟩
      · intro page
        dsimp only
        have cleared : (s.mem.page vaddr ≤ page && page < s.mem.page vaddr + a.pages) =
            decide (a.start ≤ page ∧ page < a.stop) := by
          rw [Allocation.stop, start, Bool.decide_and]
        rw [documented.clear_apply, cleared, Bool.and_eq_true, ok.bit_iff]
        constructor
        · rintro ⟨⟨b, member, covered⟩, notCleared⟩
          refine ⟨b, others.mpr ⟨member, ?_⟩, covered⟩
          rintro rfl
          simp [covered] at notCleared
        · rintro ⟨b, member, covered⟩
          rcases others.mp member with ⟨bLive, different⟩
          refine ⟨⟨b, bLive, covered⟩, ?_⟩
          rw [Bool.not_eq_true', decide_eq_false_iff_not]
          exact fun inA => different (ok.eq_of_covers bLive live covered inA)
      · intro b member
        exact ok.nonempty b (others.mp member).1
      · intro b member
        exact ok.inside b (others.mp member).1
      · intro b member
        rcases List.mem_filter.mp member with ⟨bLive, elsewhere⟩
        dsimp only
        rw [Function.update_of_ne (of_decide_eq_true elsewhere)]
        exact ok.count b bLive
      · intro page uncounted
        dsimp only
        by_cases same : page = s.mem.page vaddr
        · rw [same, Function.update_self]
        · rw [Function.update_of_ne same]
          apply ok.uncounted
          intro b bLive sameStart
          refine uncounted b (List.mem_filter.mpr ⟨bLive, decide_eq_true ?_⟩) sameStart
          rwa [sameStart]
    · simpa [poolStep, dmaReleaseFromCoherent, contained] using ok

theorem PoolSystem.Ok.step (ok : s.Ok) (documented : ops.Documented) (event : PoolEvent) :
    (poolStep ops s event).Ok := by
  cases event with
  | alloc size => exact ok.alloc documented size
  | release vaddr => exact ok.release documented vaddr

theorem PoolSystem.Ok.covers_iff (ok : s.Ok) {a : Allocation} (live : a ∈ s.live) (page : ℕ) :
    a.Covers s.mem page ↔ a.start ≤ page ∧ page < a.stop := by
  rw [Allocation.Covers, ok.count a live, Allocation.stop]

theorem PoolSystem.Ok.correct (ok : s.Ok) (documented : ops.Documented) : PoolCorrect ops s where
  bit_iff page := by
    rw [ok.bit_iff]
    constructor
    · rintro ⟨a, live, covered⟩
      refine ⟨a, ⟨live, (ok.covers_iff live page).mpr covered⟩, ?_⟩
      rintro b ⟨bLive, alsoCovers⟩
      exact ok.eq_of_covers bLive live ((ok.covers_iff bLive page).mp alsoCovers) covered
    · rintro ⟨a, ⟨live, covers⟩, -⟩
      exact ⟨a, live, (ok.covers_iff live page).mp covers⟩
  disjoint := by
    refine ok.apart.imp_of_mem ?_
    intro a b aLive bLive apart page inA inB
    rw [ok.covers_iff aLive] at inA
    rw [ok.covers_iff bLive] at inB
    rcases apart with before | after
    · omega
    · omega
  inside a live := by
    rw [ok.count a live]
    exact ok.inside a live
  count := ok.count
  nrMap_iff page := by
    constructor
    · intro counted
      by_contra uncounted
      push Not at uncounted
      exact counted (ok.uncounted page uncounted)
    · rintro ⟨a, live, rfl⟩
      have nonempty := ok.nonempty a live
      rw [ok.count a live]
      simp only [Allocation.stop] at nonempty
      omega
  alloc_iff size positive := by
    rcases dmaAllocFromCoherent_cases documented s.mem size with ⟨failed, full⟩ |
      ⟨pageno, -, area, taken⟩
    · simp only [failed, Option.isSome_none, Bool.false_eq_true, false_iff, not_exists]
      exact full positive
    · simp only [taken, Option.isSome_some, true_iff]
      exact ⟨pageno, area⟩
  alloc_failed size failed := by
    rcases dmaAllocFromCoherent_cases documented s.mem size with ⟨unchanged, -⟩ |
      ⟨pageno, -, -, taken⟩
    · simp [poolStep, unchanged]
    · simp [taken] at failed
  release_stale _ := ok.release_stale

end Pool

/-! ### The whole run -/

theorem coherentPool_correct {ops : Bitmap.BitmapOps} (documented : ops.Documented)
    (virtBase size : ℕ) (size_int : size < 2 ^ 31) (events : List PoolEvent) :
    PoolCorrect ops (events.foldl (poolStep ops) (.created virtBase size size_int)) := by
  have ok : (events.foldl (poolStep ops) (.created virtBase size size_int)).Ok := by
    refine Run.foldl_invariant (poolStep ops) ?_
      (PoolSystem.created_ok virtBase size size_int) events
    intro s event ok
    cases event with
    | alloc size => exact ok.alloc documented size
    | release vaddr => exact ok.release documented vaddr
  exact ok.correct documented

/-- The first of two allocations is freed twice, and a third one takes its pages and more. -/
theorem coherentPool_correct_reused :
    let s := [.alloc 0x1001, .alloc 0x1000, .release 0x80000000, .release 0x80000000,
      .release 0x80001000, .alloc 0x3000, .alloc 0x10000].foldl
        (poolStep Bitmap.bitwise) (.created 0x80000000 8 (by decide))
    s.live = [⟨3, 3⟩, ⟨2, 1⟩] ∧ PoolCorrect Bitmap.bitwise s := by
  refine ⟨by decide +kernel, ?_⟩
  exact coherentPool_correct Bitmap.bitwise_documented 0x80000000 8 (by decide) _

end MlKernel.Dma
