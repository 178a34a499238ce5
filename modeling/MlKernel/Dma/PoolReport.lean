import Mathlib.Algebra.BigOperators.Group.List.Basic
import Mathlib.Data.List.Perm.Basic
import MlKernel.Dma.CoherentPool

/-!
# The report of the coherent pool

The debugfs file of a pool walks the bitmap from its first page: over a run of clear bits with the
next set bit, over an allocation with its count.  What it prints are the live allocations and how
long the longest run of free pages is, and that length decides which allocations succeed.
-/

namespace MlKernel.Dma

open Bitmap

/-- A set bit with no count is an orphan. -/
inductive PoolLine
  | alloc (a : Allocation)
  | orphanBit (page : ℕ)

/-- The local variables of the walk, and the lines it has printed. -/
structure PoolWalk where
  lines : List PoolLine
  used : ℕ
  bestRun : ℕ
  allocs : ℕ

/-- The loop of `dma_coherent_debugfs_show`. -/
def debugfsWalk (next : NextBit) (mem : DmaCoherentMem) (pos : ℕ) (walk : PoolWalk) : PoolWalk :=
  if inside : pos < mem.size then
    if clear : mem.bitmap pos = false then
      let stop := next.find mem.bitmap mem.size pos
      debugfsWalk next mem stop
        { walk with bestRun := if stop - pos > walk.bestRun then stop - pos else walk.bestRun }
    else if counted : mem.nrMap pos ≠ 0 then
      debugfsWalk next mem (pos + mem.nrMap pos)
        { walk with
            lines := walk.lines ++ [.alloc ⟨pos, mem.nrMap pos⟩]
            used := walk.used + mem.nrMap pos
            allocs := walk.allocs + 1 }
    else
      debugfsWalk next mem (pos + 1)
        { walk with lines := walk.lines ++ [.orphanBit pos], used := walk.used + 1 }
  else walk
termination_by mem.size - pos
decreasing_by
  · have := next.lt_find inside clear
    omega
  · omega
  · omega

/-- The totals below the lines. -/
structure PoolReport where
  pages : ℕ
  lines : List PoolLine
  allocs : ℕ
  used : ℕ
  free : ℕ
  largest : ℕ

def dmaCoherentDebugfsShow (next : NextBit) (mem : DmaCoherentMem) : PoolReport :=
  let walk := debugfsWalk next mem 0 { lines := [], used := 0, bestRun := 0, allocs := 0 }
  { pages := mem.size
    lines := walk.lines
    allocs := walk.allocs
    used := walk.used
    free := mem.size - walk.used
    largest := walk.bestRun }

/-- A report that tells what is live, and what can still be allocated. -/
structure PoolReport.Exact (ops : BitmapOps) (s : PoolSystem) (report : PoolReport) : Prop where
  lines : ∃ allocs : List Allocation, report.lines = allocs.map .alloc ∧ allocs.Perm s.live ∧
    allocs.Pairwise fun a b => a.stop ≤ b.start
  allocs : report.allocs = s.live.length
  used : report.used = (s.live.map Allocation.pages).sum
  free : report.used + report.free = report.pages
  alloc_iff : ∀ size : UInt64, 1 ≤ pagesOf size.toNat →
    ((dmaAllocFromCoherent ops s.mem size).2.isSome = true ↔
      pagesOf size.toNat ≤ report.largest)

/-! ### The walk -/

/-- Below `pos` the walk has seen everything. -/
structure Walked (s : PoolSystem) (pos : ℕ) (walk : PoolWalk) (seen : List Allocation) : Prop where
  lines : walk.lines = seen.map .alloc
  sorted : seen.Pairwise fun a b => a.stop ≤ b.start
  mem_iff : ∀ a, a ∈ seen ↔ a ∈ s.live ∧ a.start < pos
  whole : ∀ a ∈ s.live, a.start < pos → a.stop ≤ pos
  allocs : walk.allocs = seen.length
  used : walk.used = (seen.map Allocation.pages).sum
  used_le : walk.used ≤ pos
  longest : LongestClear s.mem.bitmap pos walk.bestRun
  closed : pos < s.mem.size → s.mem.bitmap pos = false →
    pos = 0 ∨ s.mem.bitmap (pos - 1) = true
  inside : pos ≤ s.mem.size

section Walk

variable {s : PoolSystem} {pos : ℕ} {walk : PoolWalk} {seen : List Allocation} {next : NextBit}

theorem Walked.start : Walked s 0 { lines := [], used := 0, bestRun := 0, allocs := 0 } [] where
  lines := rfl
  sorted := .nil
  mem_iff a := by simp
  whole a _ below := absurd below (Nat.not_lt_zero _)
  allocs := rfl
  used := rfl
  used_le := Nat.le_refl 0
  longest := .zero
  closed _ _ := .inl rfl
  inside := Nat.zero_le _

/-- Over a run of clear bits. -/
theorem Walked.over_clear (walked : Walked s pos walk seen) (ok : s.Ok) (inside : pos < s.mem.size)
    (clear : s.mem.bitmap pos = false) :
    let stop := next.find s.mem.bitmap s.mem.size pos
    Walked s stop
      { walk with bestRun := if stop - pos > walk.bestRun then stop - pos else walk.bestRun }
      seen := by
  intro stop
  have onward : pos < stop := next.lt_find inside clear
  have isClear : ∀ bit, pos ≤ bit → bit < stop → s.mem.bitmap bit = false :=
    fun bit => next.clear_of_lt s.mem.bitmap
  -- no allocation starts in the run
  have below (a : Allocation) (live : a ∈ s.live) (starts : a.start < stop) : a.start < pos := by
    by_contra above
    have isSet := (ok.bit_iff a.start).mpr ⟨a, live, Nat.le_refl _, ok.nonempty a live⟩
    rw [isClear a.start (Nat.le_of_not_lt above) starts] at isSet
    cases isSet
  refine ⟨walked.lines, walked.sorted, ?_, ?_, walked.allocs, walked.used, ?_, ?_, ?_, ?_⟩
  · intro a
    rw [walked.mem_iff]
    constructor
    · rintro ⟨live, starts⟩
      exact ⟨live, Nat.lt_trans starts onward⟩
    · rintro ⟨live, starts⟩
      exact ⟨live, below a live starts⟩
  · intro a live starts
    exact Nat.le_trans (walked.whole a live (below a live starts)) (Nat.le_of_lt onward)
  · exact Nat.le_trans walked.used_le (Nat.le_of_lt onward)
  · have longest := walked.longest.over_clear (Nat.le_of_lt onward) (walked.closed inside clear)
      isClear
    have larger : (if stop - pos > walk.bestRun then stop - pos else walk.bestRun) =
        max walk.bestRun (stop - pos) := by
      split
      · next longer => exact (Nat.max_eq_right (Nat.le_of_lt longer)).symm
      · next shorter => exact (Nat.max_eq_left (Nat.le_of_not_lt shorter)).symm
    dsimp only
    rw [larger]
    exact longest
  · intro insideStop clearStop
    have isSet := next.set_of_lt s.mem.bitmap insideStop
    rw [clearStop] at isSet
    cases isSet
  · exact next.find_le s.mem.bitmap (Nat.le_of_lt inside)

/-- A set bit where the walk arrives is the first page of an allocation. -/
theorem Walked.exists_start (walked : Walked s pos walk seen) (ok : s.Ok)
    (isSet : s.mem.bitmap pos = true) : ∃ a ∈ s.live, a.start = pos := by
  rcases (ok.bit_iff pos).mp isSet with ⟨a, live, starts, ends⟩
  refine ⟨a, live, ?_⟩
  by_contra different
  have whole := walked.whole a live (Nat.lt_of_le_of_ne starts different)
  omega

/-- Over an allocation. -/
theorem Walked.over_alloc (walked : Walked s pos walk seen) (ok : s.Ok) {a : Allocation}
    (live : a ∈ s.live) (starts : a.start = pos) :
    Walked s (pos + s.mem.nrMap pos)
      { walk with
          lines := walk.lines ++ [.alloc ⟨pos, s.mem.nrMap pos⟩]
          used := walk.used + s.mem.nrMap pos
          allocs := walk.allocs + 1 }
      (seen ++ [a]) := by
  subst starts
  rw [ok.count a live]
  have nonempty := ok.nonempty a live
  -- what starts in the allocation is the allocation
  have same (b : Allocation) (bLive : b ∈ s.live) (above : a.start ≤ b.start)
      (starts : b.start < a.stop) : b = a :=
    ok.eq_of_covers bLive live ⟨Nat.le_refl _, ok.nonempty b bLive⟩ ⟨above, starts⟩
  refine ⟨?_, ?_, ?_, ?_, ?_, ?_, ?_, ?_, ?_, ?_⟩
  · simp [walked.lines]
  · rw [List.pairwise_append]
    refine ⟨walked.sorted, List.pairwise_singleton _ _, ?_⟩
    intro b before c here
    cases List.mem_singleton.mp here
    rcases (walked.mem_iff b).mp before with ⟨bLive, starts⟩
    exact walked.whole b bLive starts
  · intro b
    rw [List.mem_append, List.mem_singleton, walked.mem_iff]
    constructor
    · rintro (⟨bLive, starts⟩ | rfl)
      · exact ⟨bLive, Nat.lt_of_lt_of_le starts (Nat.le_add_right _ _)⟩
      · exact ⟨live, nonempty⟩
    · rintro ⟨bLive, starts⟩
      by_cases before : b.start < a.start
      · exact .inl ⟨bLive, before⟩
      · exact .inr (same b bLive (Nat.le_of_not_lt before) starts)
  · intro b bLive starts
    by_cases before : b.start < a.start
    · exact Nat.le_trans (walked.whole b bLive before) (Nat.le_add_right _ _)
    · rw [same b bLive (Nat.le_of_not_lt before) starts]
      exact Nat.le_refl _
  · simp [walked.allocs]
  · simp [walked.used]
  · exact Nat.add_le_add_right walked.used_le _
  · refine walked.longest.over_set (Nat.le_add_right _ _) ?_
    intro bit above below
    exact (ok.bit_iff bit).mpr ⟨a, live, above, below⟩
  · intro _ _
    right
    exact (ok.bit_iff _).mpr ⟨a, live, by simp only [Allocation.stop] at *; omega,
      by simp only [Allocation.stop] at *; omega⟩
  · exact ok.inside a live

/-- Wherever the walk has arrived, it ends with everything seen. -/
theorem Walked.finish (ok : s.Ok) (next : NextBit) (pos : ℕ) (walk : PoolWalk) :
    ∀ seen, Walked s pos walk seen →
      ∃ all, Walked s s.mem.size (debugfsWalk next s.mem pos walk) all := by
  induction pos, walk using debugfsWalk.induct next s.mem with
  | case1 pos walk inside clear stop ih =>
      intro seen walked
      rw [debugfsWalk, dif_pos inside, dif_pos clear]
      exact ih seen (walked.over_clear ok inside clear)
  | case2 pos walk inside isSet counted ih =>
      intro seen walked
      rw [debugfsWalk, dif_pos inside, dif_neg isSet, dif_pos counted]
      rcases walked.exists_start ok (Bool.not_eq_false _ ▸ isSet) with ⟨a, live, starts⟩
      exact ih _ (walked.over_alloc ok live starts)
  | case3 pos walk inside isSet uncounted ih =>
      intro seen walked
      rcases walked.exists_start ok (Bool.not_eq_false _ ▸ isSet) with ⟨a, live, rfl⟩
      have nonempty := ok.nonempty a live
      rw [ok.count a live] at uncounted
      simp only [Allocation.stop] at nonempty
      omega
  | case4 pos walk outside =>
      intro seen walked
      rw [debugfsWalk, dif_neg outside]
      have arrived : pos = s.mem.size :=
        Nat.le_antisymm walked.inside (Nat.le_of_not_lt outside)
      exact ⟨seen, arrived ▸ walked⟩

/-- The allocations seen over the whole bitmap. -/
theorem Walked.perm (walked : Walked s s.mem.size walk seen) (ok : s.Ok) : seen.Perm s.live := by
  have seenNodup : seen.Nodup := by
    refine walked.sorted.imp_of_mem ?_
    rintro a b inSeen - apart rfl
    have nonempty := ok.nonempty a ((walked.mem_iff a).mp inSeen).1
    omega
  have liveNodup : s.live.Nodup := by
    refine ok.apart.imp_of_mem ?_
    rintro a b live - apart rfl
    have nonempty := ok.nonempty a live
    omega
  rw [List.perm_ext_iff_of_nodup seenNodup liveNodup]
  intro a
  rw [walked.mem_iff]
  refine ⟨And.left, fun live => ⟨live, ?_⟩⟩
  exact Nat.lt_of_lt_of_le (ok.nonempty a live) (ok.inside a live)

theorem PoolSystem.Ok.report (ok : s.Ok) {ops : BitmapOps} (documented : ops.Documented)
    (next : NextBit) : (dmaCoherentDebugfsShow next s.mem).Exact ops s := by
  rcases Walked.finish ok next 0 _ [] .start with ⟨all, walked⟩
  have perm := walked.perm ok
  refine ⟨⟨all, walked.lines, perm, walked.sorted⟩, ?_, ?_, ?_, ?_⟩
  · exact walked.allocs.trans perm.length_eq
  · exact walked.used.trans (perm.map Allocation.pages).sum_eq
  · exact Nat.add_sub_cancel' walked.used_le
  · intro size positive
    rw [(ok.correct documented).alloc_iff size positive]
    exact walked.longest.exists_area_iff (pagesOf size.toNat)

end Walk

/-! ### The whole run -/

/-- After any allocations and releases, the report names the live allocations in the order of
their pages and no orphan, its totals add up, and its longest run tells which allocations would
succeed. -/
theorem debugfsShow_exact {ops : BitmapOps} (documented : ops.Documented) (next : NextBit)
    (virtBase size : ℕ) (size_int : size < 2 ^ 31) (events : List PoolEvent) :
    let s := events.foldl (poolStep ops) (.created virtBase size size_int)
    (dmaCoherentDebugfsShow next s.mem).Exact ops s := by
  intro s
  have ok : s.Ok := by
    refine Run.foldl_invariant (poolStep ops) ?_
      (PoolSystem.created_ok virtBase size size_int) events
    intro s event ok
    exact ok.step documented event
  exact ok.report documented next

/-- Three allocations, of which the second is freed again. -/
theorem debugfsShow_exact_holes :
    let s := [.alloc 0x1000, .alloc 0x3000, .alloc 0x2000, .release 0x80001000].foldl
      (poolStep bitwise) (.created 0x80000000 8 (by decide))
    s.live = [⟨4, 2⟩, ⟨0, 1⟩] ∧ (dmaCoherentDebugfsShow nextBitwise s.mem).Exact bitwise s := by
  refine ⟨by decide +kernel, ?_⟩
  exact debugfsShow_exact bitwise_documented nextBitwise 0x80000000 8 (by decide) _

end MlKernel.Dma
