import Mathlib.Algebra.Ring.Int.Defs
import Mathlib.Algebra.Ring.Nat
import MlKernel.Clk.CpuClk
import MlKernel.Lib.DivRound
import MlKernel.Lib.KeepBest

/-!
# Choosing the CPU rate

`determine_rate` tries two dividers of each parent, the floor of the quotient and the next, and
keeps the candidate that lies closest to the request.  Distances are those of signed 64-bit words.
-/

namespace MlKernel.Clk

/-- `AR_CPU_RATE_PARENTS` -/
def arCpuRateParents : ℕ := 6

/-- The best rate so far, and the parent and its index that give it. -/
structure Best where
  rate : BitVec 64
  prate : BitVec 64
  idx : Option ℕ
  deriving DecidableEq

/-- `abs` of a `long` -/
def absLong (x : BitVec 64) : BitVec 64 := if x.toInt < 0 then -x else x

def distance (req rate : BitVec 64) : ℤ := (absLong (rate - req)).toInt

/-- The dividers of the inner loop; `div` is a `u32`. -/
def triedDividers (req prate : BitVec 64) : List ℕ :=
  let div := if req = 0 then arCpuMaxDiv else prate.toNat / req.toNat % 2 ^ 32
  let first := max div 1
  let last := min ((div + 1) % 2 ^ 32) arCpuMaxDiv
  List.range' first (last + 1 - first)

/-- The comparison of the inner loop. -/
def consider (req : BitVec 64) (best candidate : Best) : Best :=
  if distance req candidate.rate < distance req best.rate then candidate else best

/-- One pass of the outer loop.  `parents` gives the rates of the parents there are. -/
def considerParent (parents : ℕ → Option (BitVec 64)) (req : BitVec 64) (best : Best) (i : ℕ) :
    Best :=
  match parents i with
  | none => best
  | some prate =>
      if prate = 0 then best
      else
        (triedDividers req prate).foldl
          (fun best d => consider req best ⟨prate / BitVec.ofNat 64 d, prate, some i⟩) best

/-- `ar9311_cpu_determine_rate`; `none` is its error. -/
def ar9311CpuDetermineRate (parents : ℕ → Option (BitVec 64)) (req : BitVec 64) :
    Option (Best × ℕ) :=
  let best := (List.range arCpuRateParents).foldl (considerParent parents req) ⟨0, 0, none⟩
  best.idx.map fun idx => (best, idx)

/-! ### The scan -/

/-- What one parent offers. -/
def offers (parents : ℕ → Option (BitVec 64)) (req : BitVec 64) (i : ℕ) : List Best :=
  match parents i with
  | none => []
  | some prate =>
      if prate = 0 then []
      else (triedDividers req prate).map fun d => ⟨prate / BitVec.ofNat 64 d, prate, some i⟩

def candidates (parents : ℕ → Option (BitVec 64)) (req : BitVec 64) : List Best :=
  (List.range arCpuRateParents).flatMap (offers parents req)

section Scan

variable {parents : ℕ → Option (BitVec 64)} {req : BitVec 64}

theorem considerParent_eq (best : Best) (i : ℕ) :
    considerParent parents req best i = (offers parents req i).foldl (consider req) best := by
  simp only [considerParent, offers]
  cases parents i with
  | none => rfl
  | some prate =>
      by_cases zero : prate = 0
      · simp only [if_pos zero, List.foldl_nil]
      · simp only [if_neg zero, List.foldl_map]

/-- The two loops are one scan of the candidates. -/
theorem foldl_considerParent (best : Best) :
    (List.range arCpuRateParents).foldl (considerParent parents req) best =
      KeepBest.scan (fun best => distance req best.rate) best (candidates parents req) := by
  rw [KeepBest.scan, candidates, List.foldl_flatMap]
  congr
  funext best i
  exact considerParent_eq best i

theorem mem_triedDividers {prate : BitVec 64} {d : ℕ} (asked : req ≠ 0) :
    d ∈ triedDividers req prate ↔
      max (prate.toNat / req.toNat % 2 ^ 32) 1 ≤ d ∧ d ≤ 128 ∧
        d ≤ (prate.toNat / req.toNat % 2 ^ 32 + 1) % 2 ^ 32 := by
  simp only [triedDividers, if_neg asked, List.mem_range'_1, arCpuMaxDiv]
  omega

theorem tried_bounds {prate : BitVec 64} {d : ℕ} (tried : d ∈ triedDividers req prate) :
    1 ≤ d ∧ d ≤ 128 := by
  simp only [triedDividers, List.mem_range'_1, arCpuMaxDiv] at tried
  omega

/-- A parent that takes part, and its rate. -/
def Selectable (parents : ℕ → Option (BitVec 64)) (i : ℕ) (prate : BitVec 64) : Prop :=
  i < arCpuRateParents ∧ parents i = some prate ∧ prate ≠ 0

theorem mem_candidates {best : Best} :
    best ∈ candidates parents req ↔
      ∃ i prate, Selectable parents i prate ∧ ∃ d ∈ triedDividers req prate,
        best = ⟨prate / BitVec.ofNat 64 d, prate, some i⟩ := by
  simp only [candidates, List.mem_flatMap, List.mem_range, Selectable]
  constructor
  · rintro ⟨i, inside, mem⟩
    simp only [offers] at mem
    cases has : parents i with
    | none =>
        rw [has] at mem
        cases mem
    | some prate =>
        simp only [has] at mem
        by_cases zero : prate = 0
        · rw [if_pos zero] at mem
          cases mem
        · rw [if_neg zero] at mem
          rcases List.mem_map.mp mem with ⟨d, tried, rfl⟩
          exact ⟨i, prate, ⟨inside, has, zero⟩, d, tried, rfl⟩
  · rintro ⟨i, prate, ⟨inside, has, zero⟩, d, tried, rfl⟩
    refine ⟨i, inside, ?_⟩
    simp only [offers, has, if_neg zero]
    exact List.mem_map.mpr ⟨d, tried, rfl⟩

theorem determineRate_eq :
    ar9311CpuDetermineRate parents req =
      (KeepBest.scan (fun best => distance req best.rate) ⟨0, 0, none⟩
        (candidates parents req)).idx.map fun idx =>
          (KeepBest.scan (fun best => distance req best.rate) ⟨0, 0, none⟩
            (candidates parents req), idx) := by
  simp only [ar9311CpuDetermineRate, foldl_considerParent]

theorem idx_of_mem_candidates {best : Best} (mem : best ∈ candidates parents req) :
    ∃ idx, best.idx = some idx := by
  rcases mem_candidates.mp mem with ⟨i, prate, -, d, -, rfl⟩
  exact ⟨i, rfl⟩

/-- An answer is a candidate that no candidate beats, and that beats a rate of zero. -/
theorem determineRate_eq_some {best : Best} {idx : ℕ}
    (answered : ar9311CpuDetermineRate parents req = some (best, idx)) :
    best ∈ candidates parents req ∧ best.idx = some idx ∧
      distance req best.rate < distance req 0 ∧
      ∀ other ∈ candidates parents req, distance req best.rate ≤ distance req other.rate := by
  simp only [determineRate_eq, Option.map_eq_some_iff, Prod.mk.injEq] at answered
  rcases answered with ⟨found, has, rfl, rfl⟩
  rcases KeepBest.scan_eq_or_lt (fun best => distance req best.rate) ⟨0, 0, none⟩
    (candidates parents req) with same | ⟨mem, lt⟩
  · rw [same] at has
    cases has
  · refine ⟨mem, has, lt, ?_⟩
    intro other among
    exact KeepBest.scan_le (fun best : Best => distance req best.rate)
      (List.mem_cons_of_mem ⟨0, 0, none⟩ among)

/-- Whatever beats a rate of zero makes for an answer. -/
theorem exists_determineRate {other : Best} (mem : other ∈ candidates parents req)
    (beats : distance req other.rate < distance req 0) :
    ∃ best idx, ar9311CpuDetermineRate parents req = some (best, idx) := by
  rw [determineRate_eq]
  rcases KeepBest.scan_eq_or_lt (fun best => distance req best.rate) ⟨0, 0, none⟩
    (candidates parents req) with same | ⟨found, -⟩
  · have le := KeepBest.scan_le (fun best : Best => distance req best.rate)
      (List.mem_cons_of_mem ⟨0, 0, none⟩ mem)
    simp only [same] at le
    exact absurd beats (Int.not_lt.mpr le)
  · rcases idx_of_mem_candidates found with ⟨idx, has⟩
    exact ⟨_, idx, Option.map_eq_some_iff.mpr ⟨idx, has, rfl⟩⟩

end Scan

/-! ### Distances -/

/-- How far a rate lies from the request. -/
def gap (req rate : ℕ) : ℕ := (rate - req) + (req - rate)

/-- The distance of words is the gap as long as that is a `long`. -/
theorem distance_eq (req rate : BitVec 64) :
    distance req rate =
      if gap req.toNat rate.toNat < 2 ^ 63 then (gap req.toNat rate.toNat : ℤ)
      else if gap req.toNat rate.toNat = 2 ^ 63 then -2 ^ 63
      else 2 ^ 64 - (gap req.toNat rate.toNat : ℤ) := by
  have small := rate.isLt
  have smallReq := req.isLt
  simp only [distance, absLong]
  split
  all_goals
    simp only [BitVec.toInt_eq_toNat_cond, BitVec.toNat_neg, BitVec.toNat_sub, gap] at *
    omega

theorem distance_of_lt {req rate : BitVec 64} (small : gap req.toNat rate.toNat < 2 ^ 63) :
    distance req rate = (gap req.toNat rate.toNat : ℤ) := by
  rw [distance_eq, if_pos small]

theorem distance_of_eq {req rate : BitVec 64} (wraps : gap req.toNat rate.toNat = 2 ^ 63) :
    distance req rate = -2 ^ 63 := by
  rw [distance_eq, if_neg (by omega), if_pos wraps]

theorem distance_of_gt {req rate : BitVec 64} (large : 2 ^ 63 < gap req.toNat rate.toNat) :
    distance req rate = 2 ^ 64 - (gap req.toNat rate.toNat : ℤ) := by
  rw [distance_eq, if_neg (by omega), if_neg (by omega)]

theorem toNat_rate (prate : BitVec 64) {d : ℕ} (small : d ≤ 128) :
    (prate / BitVec.ofNat 64 d).toNat = prate.toNat / d := by
  rw [BitVec.toNat_udiv, BitVec.toNat_ofNat, Nat.mod_eq_of_lt (by omega)]

section Tried

variable {req prate : BitVec 64} {d : ℕ}

/-- A candidate of a parent that a divider can slow down to the request is below twice that; the
others are above. -/
theorem tried_rate (asked : req ≠ 0) (tried : d ∈ triedDividers req prate) :
    1 ≤ d ∧ d ≤ 128 ∧ (prate.toNat < 129 * req.toNat → prate.toNat / d < 2 * req.toNat) ∧
      (129 * req.toNat ≤ prate.toNat → 2 * req.toNat ≤ prate.toNat / d) := by
  rcases (mem_triedDividers asked).mp tried with ⟨first, le, last⟩
  have positive : 0 < req.toNat := by
    apply Nat.pos_of_ne_zero
    intro zero
    exact asked (BitVec.eq_of_toNat_eq zero)
  have d_pos : 0 < d := by omega
  refine ⟨d_pos, le, ?_, ?_⟩
  · intro slow
    have quotient : prate.toNat / req.toNat < 129 := (Nat.div_lt_iff_lt_mul positive).mpr slow
    rw [Nat.mod_eq_of_lt (by omega)] at first
    apply (Nat.div_lt_iff_lt_mul d_pos).mpr
    have next : prate.toNat < (prate.toNat / req.toNat + 1) * req.toNat :=
      (Nat.div_lt_iff_lt_mul positive).mp (Nat.lt_succ_self _)
    have twice : (prate.toNat / req.toNat + 1) * req.toNat ≤ 2 * d * req.toNat :=
      Nat.mul_le_mul_right _ (by omega)
    rw [Nat.mul_right_comm] at twice
    omega
  · intro fast
    have quotient : 129 ≤ prate.toNat / req.toNat := (Nat.le_div_iff_mul_le positive).mpr fast
    have wrapped : 2 ^ 32 ≤ prate.toNat / req.toNat := by
      by_contra fits
      rw [Nat.mod_eq_of_lt (by omega)] at first
      omega
    have large : 2 ^ 32 * req.toNat ≤ prate.toNat :=
      (Nat.le_div_iff_mul_le positive).mp wrapped
    apply (Nat.le_div_iff_mul_le d_pos).mpr
    calc 2 * req.toNat * d ≤ 2 * req.toNat * 128 := Nat.mul_le_mul_left _ le
      _ ≤ prate.toNat := by omega

/-- The two tried dividers bracket every other. -/
theorem exists_tried_le (asked : req ≠ 0) (slow : prate.toNat < 129 * req.toNat) (positive : 1 ≤ d)
    (le : d ≤ 128) :
    ∃ t ∈ triedDividers req prate,
      gap req.toNat (prate.toNat / t) ≤ gap req.toNat (prate.toNat / d) := by
  have req_pos : 0 < req.toNat := by omega
  have quotient : prate.toNat / req.toNat < 129 := (Nat.div_lt_iff_lt_mul req_pos).mpr slow
  have fits : prate.toNat / req.toNat % 2 ^ 32 = prate.toNat / req.toNat :=
    Nat.mod_eq_of_lt (by omega)
  rcases Nat.lt_or_ge (prate.toNat / req.toNat) d with above | below
  · refine ⟨prate.toNat / req.toNat + 1, ?_, ?_⟩
    · rw [mem_triedDividers asked, fits]
      omega
    · have under : prate.toNat / (prate.toNat / req.toNat + 1) < req.toNat := by
        apply (Nat.div_lt_iff_lt_mul (by omega)).mpr
        rw [Nat.mul_comm]
        exact (Nat.div_lt_iff_lt_mul req_pos).mp (Nat.lt_succ_self _)
      have further : prate.toNat / d ≤ prate.toNat / (prate.toNat / req.toNat + 1) :=
        Nat.div_le_div_left above (by omega)
      simp only [gap]
      omega
  · refine ⟨prate.toNat / req.toNat, ?_, ?_⟩
    · rw [mem_triedDividers asked, fits]
      omega
    · have over_req : req.toNat ≤ prate.toNat / (prate.toNat / req.toNat) := by
        apply (Nat.le_div_iff_mul_le (by omega)).mpr
        exact Nat.mul_div_le _ _
      have further : prate.toNat / (prate.toNat / req.toNat) ≤ prate.toNat / d :=
        Nat.div_le_div_left below positive
      simp only [gap]
      omega

end Tried

/-! ### The closest rate -/

section Closest

variable (parents : ℕ → Option (BitVec 64)) (req : BitVec 64)

/-- The rate comes from a parent that takes part and a divider of it. -/
def Achieved (best : Best) (idx : ℕ) : Prop :=
  Selectable parents idx best.prate ∧
    ∃ d, 1 ≤ d ∧ d ≤ arCpuMaxDiv ∧ best.rate.toNat = best.prate.toNat / d

/-- There is an answer, and no parent and divider give a rate closer to the request. -/
def PicksClosest : Prop :=
  ∃ best idx, ar9311CpuDetermineRate parents req = some (best, idx) ∧
    Achieved parents best idx ∧
    ∀ i prate, Selectable parents i prate → ∀ d, 1 ≤ d → d ≤ arCpuMaxDiv →
      gap req.toNat best.rate.toNat ≤ gap req.toNat (prate.toNat / d)

/-- Below `2 ^ 63`: some parent can be slowed down to the request, the parents that are too fast
for that come no closer at the largest divider, and none is off by exactly `2 ^ 63`. -/
structure Near : Prop where
  slow : ∃ i prate, Selectable parents i prate ∧ prate.toNat < 129 * req.toNat
  fast : ∀ i prate, Selectable parents i prate → 129 * req.toNat ≤ prate.toNat →
    ∃ j other d, Selectable parents j other ∧ other.toNat < 129 * req.toNat ∧ 1 ≤ d ∧ d ≤ 128 ∧
      gap req.toNat (other.toNat / d) ≤ gap req.toNat (prate.toNat / 128)
  noWrap : ∀ i prate, Selectable parents i prate → prate.toNat = req.toNat + 2 ^ 63 →
    2 ≤ prate.toNat / req.toNat % 2 ^ 32

/-- Above `2 ^ 63`, where the distance wraps: some parent lies closer than a rate of zero seems to
and none is off by exactly `2 ^ 63`, or one is and no other is closer. -/
def Far : Prop :=
  ((∃ i prate, Selectable parents i prate ∧ 2 * req.toNat < prate.toNat + 2 ^ 64) ∧
    ∀ i prate, Selectable parents i prate → prate.toNat + 2 ^ 63 ≠ req.toNat ∧
      ¬(req.toNat = 2 ^ 64 - 1 ∧ prate.toNat = 2 ^ 64 - 1)) ∨
  ((∃ i prate, Selectable parents i prate ∧ prate.toNat + 2 ^ 63 = req.toNat) ∧
    ∀ i prate, Selectable parents i prate → prate.toNat + 2 ^ 63 ≤ req.toNat)

end Closest

section Answer

variable {parents : ℕ → Option (BitVec 64)} {req : BitVec 64}

theorem exists_offer {best : Best} (mem : best ∈ candidates parents req) :
    ∃ i d, best.idx = some i ∧ Selectable parents i best.prate ∧
      d ∈ triedDividers req best.prate ∧ best.rate.toNat = best.prate.toNat / d := by
  rcases mem_candidates.mp mem with ⟨i, prate, selectable, d, tried, rfl⟩
  exact ⟨i, d, rfl, selectable, tried, toNat_rate prate (tried_bounds tried).2⟩

theorem achieved {best : Best} {idx : ℕ} (mem : best ∈ candidates parents req)
    (has : best.idx = some idx) : Achieved parents best idx := by
  rcases exists_offer mem with ⟨i, d, same, selectable, tried, rate⟩
  rw [has] at same
  cases same
  rcases tried_bounds tried with ⟨positive, le⟩
  exact ⟨selectable, d, positive, le, rate⟩

/-- A tried divider of a parent is weighed against the answer. -/
theorem distance_le_of_tried {best : Best} {i d : ℕ} {prate : BitVec 64}
    (minimal : ∀ other ∈ candidates parents req, distance req best.rate ≤ distance req other.rate)
    (selectable : Selectable parents i prate) (tried : d ∈ triedDividers req prate) :
    distance req best.rate ≤ distance req (prate / BitVec.ofNat 64 d) :=
  minimal ⟨prate / BitVec.ofNat 64 d, prate, some i⟩
    (mem_candidates.mpr ⟨i, prate, selectable, d, tried, rfl⟩)

theorem toNat_pos_of_selectable {i : ℕ} {prate : BitVec 64}
    (selectable : Selectable parents i prate) : 0 < prate.toNat := by
  apply Nat.pos_of_ne_zero
  intro zero
  exact selectable.2.2 (BitVec.eq_of_toNat_eq zero)

section NearRequest

theorem distance_zero_near (small : req.toNat < 2 ^ 63) : distance req 0 = req.toNat := by
  have all : gap req.toNat (0 : BitVec 64).toNat = req.toNat := by
    simp [gap]
  rw [distance_of_lt (by omega), all]

/-- A rate below twice the request is weighed by its gap. -/
theorem distance_near {rate : BitVec 64} (small : req.toNat < 2 ^ 63)
    (below : rate.toNat < 2 * req.toNat) :
    distance req rate = (gap req.toNat rate.toNat : ℤ) := by
  apply distance_of_lt
  simp only [gap]
  omega

/-- From twice the request on, only a gap of exactly `2 ^ 63` seems closer than a rate of zero. -/
theorem distance_beyond {rate : BitVec 64} (above : 2 * req.toNat ≤ rate.toNat)
    (beats : distance req rate < req.toNat) : rate.toNat = req.toNat + 2 ^ 63 := by
  have word := rate.isLt
  have apart : gap req.toNat rate.toNat = rate.toNat - req.toNat := by
    simp only [gap]
    omega
  rcases Nat.lt_trichotomy (gap req.toNat rate.toNat) (2 ^ 63) with small | wraps | large
  · rw [distance_of_lt small] at beats
    omega
  · omega
  · rw [distance_of_gt large] at beats
    omega

theorem exists_tried_beats {prate : BitVec 64} (asked : req ≠ 0) (small : req.toNat < 2 ^ 63)
    (positive : 0 < prate.toNat) (slow : prate.toNat < 129 * req.toNat) :
    ∃ t ∈ triedDividers req prate, distance req (prate / BitVec.ofNat 64 t) < req.toNat := by
  have req_pos : 0 < req.toNat := by omega
  have quotient : prate.toNat / req.toNat < 129 := (Nat.div_lt_iff_lt_mul req_pos).mpr slow
  have tried : max (prate.toNat / req.toNat) 1 ∈ triedDividers req prate := by
    have fits : prate.toNat / req.toNat % 2 ^ 32 = prate.toNat / req.toNat :=
      Nat.mod_eq_of_lt (by omega)
    rw [mem_triedDividers asked, fits]
    omega
  rcases tried_rate asked tried with ⟨-, le, below, -⟩
  have some_rate : 0 < prate.toNat / max (prate.toNat / req.toNat) 1 := by
    apply Nat.div_pos
    · apply Nat.max_le.mpr
      exact ⟨Nat.div_le_self _ _, positive⟩
    · omega
  refine ⟨_, tried, ?_⟩
  have rate := toNat_rate prate le
  rw [distance_near small (by rw [rate]; exact below slow), rate]
  have := below slow
  simp only [gap]
  omega

/-- A parent at `req + 2 ^ 63` would leave a rate of half that closer. -/
theorem gap_half_lt {word : ℕ} (positive : 0 < req.toNat) (small : req.toNat < 2 ^ 63)
    (above : req.toNat + 2 ^ 63 ≤ word) (fits : word < 2 ^ 64) :
    gap req.toNat (word / 2) < 2 ^ 63 := by
  simp only [gap]
  omega

/-- A parent at `req + 2 ^ 63`, where its first divider is tried, seems closer than anything. -/
theorem two_le_of_minimal {best : Best} {j : ℕ} {prate : BitVec 64} (asked : req ≠ 0)
    (small : req.toNat < 2 ^ 63) (below : best.rate.toNat < 2 * req.toNat)
    (minimal : ∀ other ∈ candidates parents req, distance req best.rate ≤ distance req other.rate)
    (selectable : Selectable parents j prate) (wraps : prate.toNat = req.toNat + 2 ^ 63) :
    2 ≤ prate.toNat / req.toNat % 2 ^ 32 := by
  by_contra tries
  have first : 1 ∈ triedDividers req prate := by
    rw [mem_triedDividers asked]
    omega
  have le := distance_le_of_tried minimal selectable first
  have same := toNat_rate prate (show 1 ≤ 128 by decide)
  rw [Nat.div_one] at same
  have far : gap req.toNat (prate / BitVec.ofNat 64 1).toNat = 2 ^ 63 := by
    simp only [same, gap]
    omega
  have seems := distance_of_eq far
  have weighed := distance_near small below
  omega

/-- A parent whose rate is `req + 2 ^ 63` after a tried divider runs at just that rate. -/
theorem lt_two_of_wraps {prate : BitVec 64} {d : ℕ} (asked : req ≠ 0)
    (tried : d ∈ triedDividers req prate)
    (wraps : prate.toNat / d = req.toNat + 2 ^ 63) :
    prate.toNat = req.toNat + 2 ^ 63 ∧ prate.toNat / req.toNat % 2 ^ 32 < 2 := by
  have word := prate.isLt
  rcases (mem_triedDividers asked).mp tried with ⟨first, -, -⟩
  have one : d = 1 := by
    by_contra more
    have half : prate.toNat / d ≤ prate.toNat / 2 := Nat.div_le_div_left (by omega) (by omega)
    omega
  subst one
  rw [Nat.div_one] at wraps
  exact ⟨wraps, by omega⟩

theorem near_of_picksClosest (asked : req ≠ 0) (small : req.toNat < 2 ^ 63)
    (positive : 0 < req.toNat) (picks : PicksClosest parents req) : Near parents req := by
  rcases picks with ⟨best, idx, answered, -, closest⟩
  rcases determineRate_eq_some answered with ⟨mem, has, beats, minimal⟩
  rw [distance_zero_near small] at beats
  rcases exists_offer mem with ⟨i, d, -, selectable, tried, rate⟩
  rcases tried_rate asked tried with ⟨d_pos, d_le, slowly, fastly⟩
  have slow : best.prate.toNat < 129 * req.toNat := by
    by_contra fast
    have beyond := fastly (Nat.le_of_not_lt fast)
    rw [← rate] at beyond
    have wraps := distance_beyond beyond beats
    have le : best.rate.toNat ≤ best.prate.toNat := rate ▸ Nat.div_le_self _ d
    have half := closest i best.prate selectable 2 (by omega) (by decide)
    have nearer := gap_half_lt positive small (by omega) best.prate.isLt
    have far : gap req.toNat best.rate.toNat = 2 ^ 63 := by
      simp only [gap]
      omega
    omega
  refine ⟨⟨i, best.prate, selectable, slow⟩, ?_, ?_⟩
  · intro j prate other _
    refine ⟨i, best.prate, d, selectable, slow, d_pos, d_le, ?_⟩
    rw [← rate]
    exact closest j prate other 128 (by omega) (by decide)
  · intro j prate other wraps
    exact two_le_of_minimal asked small (rate ▸ slowly slow) minimal other wraps

theorem picksClosest_of_near (asked : req ≠ 0) (small : req.toNat < 2 ^ 63)
    (near : Near parents req) : PicksClosest parents req := by
  rcases near.slow with ⟨j, other, selectable, slow⟩
  rcases exists_tried_beats asked small (toNat_pos_of_selectable selectable) slow with
    ⟨t, tried, beats⟩
  rw [← distance_zero_near small] at beats
  rcases exists_determineRate (mem_candidates.mpr ⟨j, other, selectable, t, tried, rfl⟩) beats
    with ⟨best, idx, answered⟩
  rcases determineRate_eq_some answered with ⟨mem, has, beats, minimal⟩
  rw [distance_zero_near small] at beats
  rcases exists_offer mem with ⟨i, d, -, chosen, tried, rate⟩
  rcases tried_rate asked tried with ⟨d_pos, d_le, slowly, fastly⟩
  have below : best.rate.toNat < 2 * req.toNat := by
    rw [rate]
    apply slowly
    by_contra fast
    have beyond := fastly (Nat.le_of_not_lt fast)
    rw [← rate] at beyond
    have wraps := distance_beyond beyond beats
    rcases lt_two_of_wraps asked tried (rate ▸ wraps) with ⟨same, few⟩
    have := near.noWrap i best.prate chosen same
    omega
  have weighed := distance_near small below
  have closest : ∀ k prate, Selectable parents k prate → prate.toNat < 129 * req.toNat →
      ∀ e, 1 ≤ e → e ≤ 128 →
        gap req.toNat best.rate.toNat ≤ gap req.toNat (prate.toNat / e) := by
    intro k prate takes slow e e_pos e_le
    rcases exists_tried_le asked slow e_pos e_le with ⟨u, tried, le⟩
    rcases tried_rate asked tried with ⟨-, u_le, under, -⟩
    have offered := distance_le_of_tried minimal takes tried
    have offer := toNat_rate prate u_le
    have heard := distance_near small (offer ▸ under slow)
    rw [weighed, heard, offer] at offered
    omega
  refine ⟨best, idx, answered, achieved mem has, ?_⟩
  intro k prate takes e e_pos e_le
  rcases Nat.lt_or_ge prate.toNat (129 * req.toNat) with slow | fast
  · exact closest k prate takes slow e e_pos e_le
  · rcases near.fast k prate takes fast with ⟨l, slower, f, does, slow, f_pos, f_le, le⟩
    have still := closest l slower does slow f f_pos f_le
    have last : prate.toNat / 128 ≤ prate.toNat / e := Nat.div_le_div_left e_le e_pos
    have above : req.toNat ≤ prate.toNat / 128 := by omega
    refine Nat.le_trans still (Nat.le_trans le ?_)
    simp only [gap]
    omega

end NearRequest

section FarRequest

/-- Above `2 ^ 63` a parent is tried undivided, and halved if it is no slower than the request. -/
theorem mem_triedDividers_far {prate : BitVec 64} {d : ℕ} (large : 2 ^ 63 < req.toNat) :
    d ∈ triedDividers req prate ↔ d = 1 ∨ d = 2 ∧ req.toNat ≤ prate.toNat := by
  have word := prate.isLt
  have asked : req ≠ 0 := by
    rintro rfl
    exact absurd large (by decide)
  rw [mem_triedDividers asked]
  rcases Nat.lt_or_ge prate.toNat req.toNat with slower | faster
  · rw [Nat.div_eq_of_lt slower]
    omega
  · have once : prate.toNat / req.toNat = 1 := Nat.div_eq_of_lt_le (by omega) (by omega)
    rw [once]
    omega

theorem distance_zero_far (large : 2 ^ 63 < req.toNat) :
    distance req 0 = 2 ^ 64 - (req.toNat : ℤ) := by
  have all : gap req.toNat (0 : BitVec 64).toNat = req.toNat := by
    simp [gap]
  rw [distance_of_gt (by omega), all]

/-- What beats a rate of zero lies closer than `2 ^ 63`, or just as far. -/
theorem gap_of_beats {rate : BitVec 64} (large : 2 ^ 63 < req.toNat)
    (beats : distance req rate < distance req 0) :
    gap req.toNat rate.toNat < 2 ^ 63 ∧ req.toNat + gap req.toNat rate.toNat < 2 ^ 64 ∨
      rate.toNat + 2 ^ 63 = req.toNat := by
  have word := rate.isLt
  rw [distance_zero_far large] at beats
  rcases Nat.lt_trichotomy (gap req.toNat rate.toNat) (2 ^ 63) with small | wraps | beyond
  · rw [distance_of_lt small] at beats
    omega
  · right
    simp only [gap] at wraps
    omega
  · rw [distance_of_gt beyond] at beats
    simp only [gap] at beyond beats
    omega

theorem distance_of_off {rate : BitVec 64} (off : rate.toNat + 2 ^ 63 = req.toNat) :
    distance req rate = -2 ^ 63 := by
  apply distance_of_eq
  simp only [gap]
  omega

theorem far_of_picksClosest (large : 2 ^ 63 < req.toNat) (picks : PicksClosest parents req) :
    Far parents req := by
  have asked : req ≠ 0 := by
    rintro rfl
    exact absurd large (by decide)
  rcases picks with ⟨best, idx, answered, -, closest⟩
  rcases determineRate_eq_some answered with ⟨mem, has, beats, minimal⟩
  rcases exists_offer mem with ⟨i, d, -, selectable, tried, rate⟩
  have le : best.rate.toNat ≤ best.prate.toNat := rate ▸ Nat.div_le_self _ d
  rcases gap_of_beats large beats with ⟨small, nearer⟩ | off
  · left
    refine ⟨⟨i, best.prate, selectable, by simp only [gap] at nearer; omega⟩, ?_⟩
    have weighed := distance_of_lt small
    intro j prate takes
    constructor
    · intro off
      have offered := distance_le_of_tried minimal takes
        ((mem_triedDividers_far large).mpr (.inl rfl))
      have offer := toNat_rate prate (show 1 ≤ 128 by decide)
      rw [Nat.div_one] at offer
      have heard := distance_of_off (offer ▸ off)
      omega
    · rintro ⟨top, same⟩
      have offered := distance_le_of_tried minimal takes
        ((mem_triedDividers_far large).mpr (.inr ⟨rfl, by omega⟩))
      have offer := toNat_rate prate (show 2 ≤ 128 by decide)
      have heard : distance req (prate / BitVec.ofNat 64 2) = -2 ^ 63 :=
        distance_of_off (by rw [offer]; omega)
      omega
  · right
    have far : gap req.toNat best.rate.toNat = 2 ^ 63 := by
      simp only [gap]
      omega
    have bounded : ∀ j prate, Selectable parents j prate → prate.toNat + 2 ^ 63 ≤ req.toNat := by
      intro j prate takes
      have word := prate.isLt
      have whole := closest j prate takes 1 (by omega) (by decide)
      rw [far, Nat.div_one] at whole
      simp only [gap] at whole
      omega
    have top := bounded i best.prate selectable
    exact ⟨⟨i, best.prate, selectable, by omega⟩, bounded⟩

/-- An undivided parent as a candidate. -/
theorem undivided_le {best : Best} {i : ℕ} {prate : BitVec 64} (large : 2 ^ 63 < req.toNat)
    (minimal : ∀ other ∈ candidates parents req, distance req best.rate ≤ distance req other.rate)
    (takes : Selectable parents i prate) : distance req best.rate ≤ distance req prate := by
  have offered := distance_le_of_tried minimal takes
    ((mem_triedDividers_far large).mpr (.inl rfl))
  have whole : prate / BitVec.ofNat 64 1 = prate := by
    apply BitVec.eq_of_toNat_eq
    rw [toNat_rate prate (by omega), Nat.div_one]
  rwa [whole] at offered

theorem exists_answer_far {i : ℕ} {prate : BitVec 64} (large : 2 ^ 63 < req.toNat)
    (takes : Selectable parents i prate) (beats : distance req prate < distance req 0) :
    ∃ best idx, ar9311CpuDetermineRate parents req = some (best, idx) := by
  have tried : 1 ∈ triedDividers req prate := (mem_triedDividers_far large).mpr (.inl rfl)
  have whole : prate / BitVec.ofNat 64 1 = prate := by
    apply BitVec.eq_of_toNat_eq
    rw [toNat_rate prate (by omega), Nat.div_one]
  rw [← whole] at beats
  exact exists_determineRate (mem_candidates.mpr ⟨i, prate, takes, 1, tried, rfl⟩) beats

/-- Where a parent is off by exactly `2 ^ 63` and none is closer, it is the answer. -/
theorem closest_of_off {best : Best} (large : 2 ^ 63 < req.toNat)
    (minimal : ∀ other ∈ candidates parents req, distance req best.rate ≤ distance req other.rate)
    (off : ∃ i prate, Selectable parents i prate ∧ prate.toNat + 2 ^ 63 = req.toNat)
    (bounded : ∀ i prate, Selectable parents i prate → prate.toNat + 2 ^ 63 ≤ req.toNat)
    {k e : ℕ} {prate : BitVec 64} (takes : Selectable parents k prate) :
    gap req.toNat best.rate.toNat ≤ gap req.toNat (prate.toNat / e) := by
  rcases off with ⟨i, top, takesTop, exact_off⟩
  have le := undivided_le large minimal takesTop
  rw [distance_of_off exact_off] at le
  have word := best.rate.isLt
  have far : gap req.toNat best.rate.toNat = 2 ^ 63 := by
    rcases Nat.lt_trichotomy (gap req.toNat best.rate.toNat) (2 ^ 63) with small | wraps | beyond
    · rw [distance_of_lt small] at le
      omega
    · exact wraps
    · rw [distance_of_gt beyond] at le
      simp only [gap] at le
      omega
  have below := bounded k prate takes
  have divided : prate.toNat / e ≤ prate.toNat := Nat.div_le_self _ e
  rw [far]
  simp only [gap]
  omega

/-- Where no distance wraps, the answer is the closest of what is not further than zero seems. -/
theorem closest_of_within {best : Best} (large : 2 ^ 63 < req.toNat)
    (minimal : ∀ other ∈ candidates parents req, distance req best.rate ≤ distance req other.rate)
    (small : gap req.toNat best.rate.toNat < 2 ^ 63)
    {k e : ℕ} {prate : BitVec 64} (takes : Selectable parents k prate) (positive : 1 ≤ e) :
    gap req.toNat best.rate.toNat ≤ gap req.toNat (prate.toNat / e) := by
  have word := prate.isLt
  have weighed := distance_of_lt small
  have whole := undivided_le large minimal takes
  have divided : prate.toNat / e ≤ prate.toNat := Nat.div_le_self _ e
  rcases Nat.lt_or_ge prate.toNat req.toNat with slower | faster
  · have further : gap req.toNat prate.toNat ≤ gap req.toNat (prate.toNat / e) := by
      simp only [gap]
      omega
    rcases Nat.lt_or_ge (gap req.toNat prate.toNat) (2 ^ 63) with near | beyond
    · rw [weighed, distance_of_lt near] at whole
      omega
    · omega
  · have near : gap req.toNat prate.toNat < 2 ^ 63 := by
      simp only [gap]
      omega
    rw [weighed, distance_of_lt near] at whole
    rcases Nat.eq_or_lt_of_le positive with one | more
    · subst one
      rw [Nat.div_one]
      omega
    · have half : prate.toNat / e ≤ prate.toNat / 2 := Nat.div_le_div_left more (by omega)
      have offered := distance_le_of_tried minimal takes
        ((mem_triedDividers_far large).mpr (.inr ⟨rfl, faster⟩))
      have offer := toNat_rate prate (show 2 ≤ 128 by decide)
      have further : gap req.toNat (prate.toNat / 2) ≤ gap req.toNat (prate.toNat / e) := by
        simp only [gap]
        omega
      rcases Nat.lt_or_ge (gap req.toNat (prate.toNat / 2)) (2 ^ 63) with halved | beyond
      · rw [weighed, distance_of_lt (by rw [offer]; exact halved), offer] at offered
        omega
      · omega

theorem picksClosest_of_far (large : 2 ^ 63 < req.toNat) (far : Far parents req) :
    PicksClosest parents req := by
  have asked : req ≠ 0 := by
    rintro rfl
    exact absurd large (by decide)
  rcases far with ⟨⟨i, prate, takes, closer⟩, unwrapped⟩ | ⟨off, bounded⟩
  · have word := prate.isLt
    have small : gap req.toNat prate.toNat < 2 ^ 63 := by
      simp only [gap]
      omega
    have beats : distance req prate < distance req 0 := by
      rw [distance_of_lt small, distance_zero_far large]
      simp only [gap]
      omega
    rcases exists_answer_far large takes beats with ⟨best, idx, answered⟩
    rcases determineRate_eq_some answered with ⟨mem, has, better, minimal⟩
    refine ⟨best, idx, answered, achieved mem has, ?_⟩
    intro k other selectable e e_pos e_le
    apply closest_of_within large minimal _ selectable e_pos
    rcases gap_of_beats large better with ⟨within, -⟩ | off
    · exact within
    · rcases exists_offer mem with ⟨j, d, -, chosen, tried, rate⟩
      have top := best.prate.isLt
      rcases unwrapped j best.prate chosen with ⟨apart, notTop⟩
      rcases (mem_triedDividers_far large).mp tried with rfl | ⟨rfl, faster⟩
      · rw [Nat.div_one] at rate
        omega
      · omega
  · rcases off with ⟨i, prate, takes, exact_off⟩
    have beats : distance req prate < distance req 0 := by
      rw [distance_of_off exact_off, distance_zero_far large]
      have := req.isLt
      omega
    rcases exists_answer_far large takes beats with ⟨best, idx, answered⟩
    rcases determineRate_eq_some answered with ⟨mem, has, better, minimal⟩
    refine ⟨best, idx, answered, achieved mem has, ?_⟩
    intro k other selectable e e_pos e_le
    exact closest_of_off large minimal ⟨i, prate, takes, exact_off⟩ bounded selectable

end FarRequest

/-- Nothing beats a rate of zero for a request of zero. -/
theorem not_picksClosest_zero : ¬PicksClosest parents 0 := by
  rintro ⟨best, idx, answered, -, -⟩
  rcases determineRate_eq_some answered with ⟨mem, -, beats, -⟩
  rcases mem_candidates.mp mem with ⟨i, prate, -, d, tried, rfl⟩
  have slowest : d = 128 := by
    simp only [triedDividers, if_pos, List.mem_range'_1, arCpuMaxDiv] at tried
    omega
  subst slowest
  have word := prate.isLt
  have offer := toNat_rate prate (Nat.le_refl 128)
  have zero : (0 : BitVec 64).toNat = 0 := rfl
  have far : gap (0 : BitVec 64).toNat (prate / BitVec.ofNat 64 128).toNat < 2 ^ 63 := by
    rw [offer, zero]
    simp only [gap]
    omega
  have start : distance 0 0 = 0 := by decide
  simp only at beats
  rw [distance_of_lt far, start] at beats
  omega

/-- Nothing beats a rate of zero whose distance has wrapped. -/
theorem not_picksClosest_wrapped (middle : req.toNat = 2 ^ 63) : ¬PicksClosest parents req := by
  rintro ⟨best, idx, answered, -, -⟩
  rcases determineRate_eq_some answered with ⟨-, -, beats, -⟩
  have word := best.rate.isLt
  have all : gap req.toNat (0 : BitVec 64).toNat = 2 ^ 63 := by
    simp [gap, middle]
  rw [distance_of_eq all] at beats
  rcases Nat.lt_trichotomy (gap req.toNat best.rate.toNat) (2 ^ 63) with small | wraps | beyond
  · rw [distance_of_lt small] at beats
    omega
  · rw [distance_of_eq wraps] at beats
    omega
  · rw [distance_of_gt beyond] at beats
    simp only [gap] at beats
    omega

/-- The answer is the closest rate exactly if the parents are placed around the request in one of
these ways. -/
theorem ar9311CpuDetermineRate_closest_iff (parents : ℕ → Option (BitVec 64)) (req : BitVec 64) :
    PicksClosest parents req ↔
      req.toNat < 2 ^ 63 ∧ Near parents req ∨ 2 ^ 63 < req.toNat ∧ Far parents req := by
  rcases Nat.lt_trichotomy req.toNat (2 ^ 63) with small | middle | large
  · by_cases asked : req = 0
    · subst asked
      constructor
      · intro picks
        exact absurd picks not_picksClosest_zero
      · rintro (⟨-, ⟨i, prate, -, slow⟩, -, -⟩ | ⟨large, -⟩)
        · exact absurd slow (Nat.not_lt_zero _)
        · exact absurd large (by decide)
    · have positive : 0 < req.toNat := by
        apply Nat.pos_of_ne_zero
        intro zero
        exact asked (BitVec.eq_of_toNat_eq zero)
      constructor
      · intro picks
        exact .inl ⟨small, near_of_picksClosest asked small positive picks⟩
      · rintro (⟨-, near⟩ | ⟨large, -⟩)
        · exact picksClosest_of_near asked small near
        · omega
  · constructor
    · intro picks
      exact absurd picks (not_picksClosest_wrapped middle)
    · rintro (⟨small, -⟩ | ⟨large, -⟩)
      · omega
      · omega
  · constructor
    · intro picks
      exact .inr ⟨large, far_of_picksClosest large picks⟩
    · rintro (⟨small, -⟩ | ⟨-, far⟩)
      · omega
      · exact picksClosest_of_far large far

end Answer

/-- A request of zero gets an error, with six oscillators to divide. -/
theorem not_ar9311CpuDetermineRate_closest :
    ¬∀ (parents : ℕ → Option (BitVec 64)) (req : BitVec 64),
      (∃ i prate, Selectable parents i prate) → PicksClosest parents req := by
  intro closest
  apply not_picksClosest_zero
  exact closest (fun _ => some 24000000) 0 ⟨0, 24000000, by decide, rfl, by decide⟩

/-! ### Setting the rate -/

/-- `DIV_ROUND_CLOSEST` on unsigned longs -/
def divRoundClosest (x divisor : ℕ) : ℕ := (x + divisor / 2) % 2 ^ 64 / divisor

/-- The divider that `ar9311_cpu_set_rate_and_parent` programs. -/
def setDivider (rate parentRate : ℕ) : ℕ :=
  min (max (divRoundClosest parentRate rate) 1) arCpuMaxDiv

/-- `ar9311_cpu_set_rate_and_parent`; `none` is its error. -/
def ar9311CpuSetRateAndParent (cpu : Ar9311CpuClk) (rate parentRate : BitVec 64) (index : ℕ) :
    Option Ar9311CpuClk :=
  if rate = 0 ∨ parentRate = 0 then none
  else
    some (ar9311CpuProgram cpu (BitVec.ofNat 32 index)
      (BitVec.ofNat 32 (setDivider rate.toNat parentRate.toNat - 1)))

theorem divRoundClosest_eq_closest {x divisor : ℕ} (room : x + divisor / 2 < 2 ^ 64) :
    divRoundClosest x divisor = DivRound.closest x divisor := by
  rw [divRoundClosest, Nat.mod_eq_of_lt room, DivRound.closest]

/-- Rounding the parent's rate over its own quotient finds the divider again, if the quotient is
large against the divider and the sum is a word. -/
theorem setDivider_quotient {parentRate d : ℕ} (positive : 1 ≤ d) (le : d ≤ 128)
    (fast : 33000 ≤ parentRate) (fits : parentRate + parentRate / 4 < 2 ^ 64) :
    setDivider (parentRate / d) parentRate = d := by
  have split := Nat.div_add_mod parentRate d
  have rest := Nat.mod_lt parentRate positive
  have least : 33000 / 128 ≤ parentRate / d :=
    Nat.le_trans (Nat.div_le_div_left le positive) (Nat.div_le_div_right fast)
  simp only [setDivider, arCpuMaxDiv]
  rcases Nat.eq_or_lt_of_le positive with one | more
  · -- an undivided parent may overflow the sum, and then the clamp finds the divider
    subst one
    rw [Nat.div_one] at least ⊢
    have quotient : divRoundClosest parentRate parentRate < 2 := by
      apply (Nat.div_lt_iff_lt_mul (by omega)).mpr
      have := Nat.mod_le (parentRate + parentRate / 2) (2 ^ 64)
      omega
    omega
  · have half : parentRate / d ≤ parentRate / 2 := Nat.div_le_div_left more (by omega)
    have closest : divRoundClosest parentRate (parentRate / d) = d := by
      rw [divRoundClosest_eq_closest (by omega)]
      apply DivRound.closest_eq
      · omega
      · omega
    rw [closest]
    omega

section RoundTrip

variable {parents : ℕ → Option (BitVec 64)} {req : BitVec 64}

/-- The rate chosen with a parent, set with it, is what the register reports. -/
theorem ar9311CpuSetRateAndParent_roundTrip {best : Best} {idx : ℕ}
    (answered : ar9311CpuDetermineRate parents req = some (best, idx))
    (fast : ∀ i prate, Selectable parents i prate → 33000 ≤ prate.toNat)
    (fits : ∀ i prate, Selectable parents i prate → prate.toNat + prate.toNat / 4 < 2 ^ 64)
    (cpu : Ar9311CpuClk) :
    ∃ after, ar9311CpuSetRateAndParent cpu best.rate best.prate idx = some after ∧
      ar9311CpuGetParent after.reg = BitVec.ofNat 32 idx ∧
      ar9311CpuRecalcRate after.reg best.prate.toNat = best.rate.toNat := by
  rcases determineRate_eq_some answered with ⟨mem, has, -, -⟩
  rcases achieved mem has with ⟨selectable, d, positive, le, rate⟩
  have parent := fast idx best.prate selectable
  have divider := setDivider_quotient positive le parent (fits idx best.prate selectable)
  have some_rate : best.rate ≠ 0 := by
    intro zero
    have least : 33000 / 128 ≤ best.prate.toNat / d :=
      Nat.le_trans (Nat.div_le_div_left le positive) (Nat.div_le_div_right parent)
    rw [← rate, zero] at least
    exact absurd least (by decide)
  have index : idx < 6 := selectable.1
  let call : CpuCall :=
    { mux := BitVec.ofNat 32 idx
      divM1 := BitVec.ofNat 32 (d - 1)
      mux_lt := by
        rw [BitVec.toNat_ofNat]
        omega
      divM1_lt := by
        rw [BitVec.toNat_ofNat]
        simp only [arCpuMaxDiv] at le
        omega }
  have glitchFree := call.glitchFree cpu.reg
  refine ⟨call.program cpu, ?_, glitchFree.parent, ?_⟩
  · simp only [ar9311CpuSetRateAndParent, rate, divider]
    exact if_neg (not_or.mpr ⟨some_rate, selectable.2.2⟩)
  · refine (glitchFree.rate best.prate.toNat).trans ?_
    have field : call.divM1.toNat + 1 = d := by
      simp only [call, BitVec.toNat_ofNat]
      simp only [arCpuMaxDiv] at le
      omega
    rw [field]
    exact rate.symm

/-- 12 MHz from the oscillator, out of bypass. -/
theorem ar9311CpuSetRateAndParent_roundTrip_oscillator :
    ∃ after, ar9311CpuSetRateAndParent ⟨0, 0⟩ 12000000 24000000 0 = some after ∧
      ar9311CpuGetParent after.reg = BitVec.ofNat 32 0 ∧
      ar9311CpuRecalcRate after.reg 24000000 = 12000000 := by
  have oscillators : ∀ i prate, Selectable (fun _ => some 24000000) i prate →
      prate = 24000000 := by
    rintro i prate ⟨-, same, -⟩
    exact (Option.some.inj same).symm
  have answered : ar9311CpuDetermineRate (fun _ => some 24000000) 12000000 =
      some (⟨12000000, 24000000, some 0⟩, 0) := by decide +kernel
  exact ar9311CpuSetRateAndParent_roundTrip answered
    (fun i prate selectable => by rw [oscillators i prate selectable]; decide)
    (fun i prate selectable => by rw [oscillators i prate selectable]; decide) ⟨0, 0⟩

end RoundTrip

/-- From 4/5 of `2 ^ 64` on, the rounding's sum overflows: half of the parent's rate is chosen, and
the whole is set. -/
theorem not_ar9311CpuSetRateAndParent_roundTrip :
    ¬∀ (parents : ℕ → Option (BitVec 64)) (req : BitVec 64) (best : Best) (idx : ℕ),
      ar9311CpuDetermineRate parents req = some (best, idx) →
      (∀ i prate, Selectable parents i prate → 33000 ≤ prate.toNat) → ∀ cpu : Ar9311CpuClk,
      ∃ after, ar9311CpuSetRateAndParent cpu best.rate best.prate idx = some after ∧
        ar9311CpuGetParent after.reg = BitVec.ofNat 32 idx ∧
        ar9311CpuRecalcRate after.reg best.prate.toNat = best.rate.toNat := by
  intro roundTrip
  have answered : ar9311CpuDetermineRate (fun _ => some 14757395258967641293)
      7378697629483820646 =
      some (⟨7378697629483820646, 14757395258967641293, some 0⟩, 0) := by decide +kernel
  have parent : ∀ i prate, Selectable (fun _ => some 14757395258967641293) i prate →
      33000 ≤ prate.toNat := by
    rintro i prate ⟨-, same, -⟩
    cases same
    decide
  rcases roundTrip _ _ _ _ answered parent ⟨0, 0⟩ with ⟨after, set, -, reports⟩
  have undivided : (ar9311CpuSetRateAndParent ⟨0, 0⟩ 7378697629483820646 14757395258967641293
      0).map (fun after => ar9311CpuRecalcRate after.reg 14757395258967641293) =
      some 14757395258967641293 := by decide +kernel
  simp only [set, Option.map_some, Option.some.injEq] at undivided
  exact absurd (reports.symm.trans undivided) (by decide)

end MlKernel.Clk
