import MlKernel.Isp.Quantise
import MlKernel.Isp.Words

/-!
# The lens-shading grid

The first region of the LSC page holds a grid of a hundred points, two to a record of sixteen bytes.
A point is a gain, the same gain again for the field that overlaps, and a second gain; what is left
of a record is zero.  The rest of the page belongs to the scene and is not written.
-/

namespace MlKernel.Isp

open Binary32

def arIspLscRegionA : ℕ := 0x340
def arIspLscGrid : ℕ := 0x64
def arIspLscBlobY : ℕ := 0x910c
def arIspLscBlobX : ℕ := 0x929c

def arIspGetLe16 (p : Bytes) (offset : ℕ) : UInt16 :=
  (p offset).toUInt16 ||| ((p (offset + 1)).toUInt16 <<< 8)

/-- Where the point is in the page. -/
def lscPoint (i : ℕ) : ℕ := i / 2 * 16 + i % 2 * 6

def lscX (blob : Bytes) (i : ℕ) : UInt32 := arIspGetLe32 blob (arIspLscBlobX + i * 4)
def lscY (blob : Bytes) (i : ℕ) : UInt32 := arIspGetLe32 blob (arIspLscBlobY + i * 4)

/-- One round of the loop over the grid. -/
def lscPut (blob : Bytes) (i : ℕ) (page : Bytes) : Bytes :=
  let x := arIspF32Scale (lscX blob i)
  let y := arIspF32Scale (lscY blob i)
  let page := arIspPutLe16 (lscPoint i) x page
  let page := arIspPutLe16 (lscPoint i + 2) x page
  arIspPutLe16 (lscPoint i + 4) y page

def lscClear (page : Bytes) : Bytes :=
  (List.range (arIspLscRegionA / 4)).foldl (fun page i => arIspPutLe32 (i * 4) 0 page) page

def arIspLscFromBlob (blob : Bytes) (page : Bytes) : Bytes :=
  (List.range arIspLscGrid).foldl (fun page i => lscPut blob i page) (lscClear page)

/-! ### What the grid holds -/

section Grid

variable {blob page : Bytes} {offset cell i : ℕ}

theorem arIspGetLe16_toNat (p : Bytes) (offset : ℕ) :
    (arIspGetLe16 p offset).toNat = (p offset).toNat + (p (offset + 1)).toNat * 2 ^ 8 := by
  have low : (p offset).toNat < 2 ^ 8 := (p offset).toNat_lt
  have high : (p (offset + 1)).toNat < 2 ^ 8 := (p (offset + 1)).toNat_lt
  rw [arIspGetLe16, UInt16.toNat_or, UInt16.toNat_shiftLeft, UInt8.toNat_toUInt16,
    UInt8.toNat_toUInt16]
  change (p offset).toNat ||| (p (offset + 1)).toNat <<< 8 % 2 ^ 16 = _
  rw [Nat.shiftLeft_eq, Nat.mod_eq_of_lt (by omega), Nat.or_comm, Nat.mul_comm _ (2 ^ 8),
    ← Nat.two_pow_add_eq_or_of_lt low, Nat.add_comm]

theorem arIspGetLe16_putLe16 (offset : ℕ) (v : UInt16) (memory : Bytes) :
    arIspGetLe16 (arIspPutLe16 offset v memory) offset = v := by
  have bytes := arIspPutLe16_bytes offset v memory
  apply UInt16.toNat_inj.mp
  rw [arIspGetLe16_toNat, bytes.1, bytes.2]
  omega

theorem arIspGetLe16_congr {p p' : Bytes} (low : p offset = p' offset)
    (high : p (offset + 1) = p' (offset + 1)) : arIspGetLe16 p offset = arIspGetLe16 p' offset := by
  rw [arIspGetLe16, arIspGetLe16, low, high]

/-- The three fields of a point. -/
theorem lscPut_fills (blob : Bytes) (i : ℕ) :
    Fills (lscPut blob i) (lscPoint i) (lscPoint i + 6) := by
  have first := putLe16_fills (lscPoint i) (arIspF32Scale (lscX blob i))
  have overlap := putLe16_fills (lscPoint i + 2) (arIspF32Scale (lscX blob i))
  have second := putLe16_fills (lscPoint i + 4) (arIspF32Scale (lscY blob i))
  exact (first.comp overlap (by omega) (by omega)).comp second (by omega) (by omega)

theorem lscPut_holds (blob : Bytes) (i : ℕ) (page : Bytes) :
    arIspGetLe16 (lscPut blob i page) (lscPoint i) = arIspF32Scale (lscX blob i) ∧
      arIspGetLe16 (lscPut blob i page) (lscPoint i + 2) = arIspF32Scale (lscX blob i) ∧
        arIspGetLe16 (lscPut blob i page) (lscPoint i + 4) = arIspF32Scale (lscY blob i) := by
  have overlap := putLe16_fills (lscPoint i + 2) (arIspF32Scale (lscX blob i))
  have second := putLe16_fills (lscPoint i + 4) (arIspF32Scale (lscY blob i))
  refine ⟨?_, ?_, arIspGetLe16_putLe16 _ _ _⟩
  · refine Eq.trans ?_ (arIspGetLe16_putLe16 (lscPoint i) (arIspF32Scale (lscX blob i)) page)
    have kept (cell : ℕ) (below : cell < lscPoint i + 2) : lscPut blob i page cell =
        arIspPutLe16 (lscPoint i) (arIspF32Scale (lscX blob i)) page cell :=
      (second.frame _ cell (.inl (by omega))).trans (overlap.frame _ cell (.inl below))
    exact arIspGetLe16_congr (kept _ (by omega)) (kept _ (by omega))
  · refine Eq.trans ?_ (arIspGetLe16_putLe16 (lscPoint i + 2) (arIspF32Scale (lscX blob i))
      (arIspPutLe16 (lscPoint i) (arIspF32Scale (lscX blob i)) page))
    exact arIspGetLe16_congr (second.frame _ _ (.inl (by omega)))
      (second.frame _ _ (.inl (by omega)))

theorem lscPoint_apart {j : ℕ} (less : i < j) : lscPoint i + 6 ≤ lscPoint j := by
  unfold lscPoint
  omega

/-- The region is zeroed first. -/
theorem lscClear_cell (page : Bytes) (cell : ℕ) :
    lscClear page cell = if cell < arIspLscRegionA then 0 else page cell := by
  have words := @Fills.fold_apart _ _ _ _ (arIspLscRegionA / 4)
    (fun i _ => putLe32_fills (i * 4) 0) (fun i j less _ => by omega) page cell
  have region : arIspLscRegionA = arIspLscRegionA / 4 * 4 := rfl
  split
  · next inside =>
      rw [lscClear, words.1 (cell / 4) (by omega) (by omega) (by omega)]
      have byte : cell - cell / 4 * 4 = 0 ∨ cell - cell / 4 * 4 = 1 ∨ cell - cell / 4 * 4 = 2 ∨
          cell - cell / 4 * 4 = 3 := by
        omega
      simp only [arIspPutLe32, Fills.put, if_pos (Nat.div_mul_le_self cell 4)]
      rcases byte with byte | byte | byte | byte <;> rw [byte] <;> rfl
  · next outside => exact words.2 fun i inside => by omega

/-- What a field of a point is for a gain: cut off to the unit, limited, and zero below zero. -/
structure HoldsGain (field : UInt16) (bits : UInt32) : Prop where
  exact : field.toNat =
    if IsNegative bits then 0 else min (2 ^ 16 - 1) ⌊value bits * 2 ^ arIspLscQ⌋₊
  within : 0 ≤ value bits → value bits < 2 ^ 5 →
    (field.toNat : ℚ) / 2 ^ arIspLscQ ≤ value bits ∧
      value bits - 1 / 2 ^ arIspLscQ < (field.toNat : ℚ) / 2 ^ arIspLscQ

theorem holdsGain_scale (bits : UInt32) : HoldsGain (arIspF32Scale bits) bits where
  exact := arIspF32Scale_toNat bits
  within nonneg small := by
    rw [arIspF32Scale_toNat]
    split
    · next negative =>
        have magnitude : |value bits| = significand bits * 2 ^ exponent bits := abs_value bits
        have opposite : value bits = -|value bits| := by
          rw [magnitude, value, signOf, if_pos negative]
          ring
        have zero : value bits = 0 := by
          have absNonneg := abs_nonneg (value bits)
          linarith
        simp [zero]
    · have field := truncated_within nonneg arIspLscQ (2 ^ 16 - 1)
      refine ⟨field.1, field.2 ?_⟩
      have units : (2 : ℚ) ^ arIspLscQ = 2 ^ 11 := rfl
      rw [units]
      push_cast
      linarith

/-- Whatever the page held: the block reads each point of the grid as the tuning file's two gains,
with the overlapping field in agreement, the rest of the region is zero, and the part of the page
that belongs to the scene is as it was. -/
theorem lscFromBlob_decodes (blob page : Bytes) :
    let grid := arIspLscFromBlob blob page
    (∀ i < arIspLscGrid, HoldsGain (arIspGetLe16 grid (lscPoint i)) (lscX blob i) ∧
        arIspGetLe16 grid (lscPoint i + 2) = arIspGetLe16 grid (lscPoint i) ∧
          HoldsGain (arIspGetLe16 grid (lscPoint i + 4)) (lscY blob i)) ∧
      (∀ cell < arIspLscRegionA,
        (∀ i < arIspLscGrid, cell < lscPoint i ∨ lscPoint i + 6 ≤ cell) → grid cell = 0) ∧
      ∀ cell, arIspLscRegionA ≤ cell → grid cell = page cell := by
  intro grid
  have points := @Fills.fold_apart _ _ lscPoint (fun i => lscPoint i + 6) arIspLscGrid
    (fun i _ => lscPut_fills blob i) (fun i j less _ => lscPoint_apart less) (lscClear page)
  have outside (cell : ℕ)
      (between : ∀ i < arIspLscGrid, cell < lscPoint i ∨ lscPoint i + 6 ≤ cell) :
      grid cell = lscClear page cell := (points cell).2 between
  refine ⟨?_, ?_, ?_⟩
  · intro i inside
    have own (cell : ℕ) (low : lscPoint i ≤ cell) (high : cell < lscPoint i + 6) :
        grid cell = lscPut blob i (lscClear page) cell := (points cell).1 i inside low high
    have field (k : ℕ) (few : k ≤ 4) : arIspGetLe16 grid (lscPoint i + k) =
        arIspGetLe16 (lscPut blob i (lscClear page)) (lscPoint i + k) :=
      arIspGetLe16_congr (own _ (by omega) (by omega)) (own _ (by omega) (by omega))
    rcases lscPut_holds blob i (lscClear page) with ⟨first, overlap, second⟩
    have x := (field 0 (by decide)).trans first
    have again := (field 2 (by decide)).trans overlap
    have y := (field 4 (by decide)).trans second
    rw [Nat.add_zero] at x
    rw [again, x, y]
    exact ⟨holdsGain_scale _, rfl, holdsGain_scale _⟩
  · intro cell inside between
    rw [outside cell between, lscClear_cell, if_pos inside]
  · intro cell beyond
    have behind : ∀ i < arIspLscGrid, cell < lscPoint i ∨ lscPoint i + 6 ≤ cell := by
      intro i inside
      have last : lscPoint i + 6 ≤ arIspLscRegionA := by
        simp only [lscPoint, arIspLscGrid, arIspLscRegionA] at inside ⊢
        omega
      exact .inr (last.trans beyond)
    rw [outside cell behind, lscClear_cell, if_neg (Nat.not_lt_of_le beyond)]

end Grid

end MlKernel.Isp
