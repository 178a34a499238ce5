import Mathlib.Algebra.Ring.Nat
import Mathlib.Tactic.Common

/-!
# The source stride of the encoder

A caller may ask for a luma stride that is wider than the picture.  Every plane is then scaled by
the same ratio, with products and sizes of 32 bits.  The layout stays consistent exactly when none
of them wraps.
-/

namespace MlKernel.Wave5

/-! ### The layout -/

@[ext] structure V4l2PlanePixFormat where
  sizeimage : UInt32
  bytesperline : UInt32

@[ext] structure V4l2PixFormatMplane where
  width : UInt32
  height : UInt32
  pixelformat : UInt32
  planeFmt : ℕ → V4l2PlanePixFormat
  numPlanes : ℕ

def widenPlane (base stride : UInt32) (plane : V4l2PlanePixFormat) : V4l2PlanePixFormat :=
  let bpl := plane.bytesperline
  if bpl = 0 then plane
  else
    let rows := plane.sizeimage / bpl
    let widened := bpl * stride / base
    { bytesperline := widened, sizeimage := widened * rows }

def wave5WidenSrcStride (pixMp : V4l2PixFormatMplane) (stride : UInt32) : V4l2PixFormatMplane :=
  let base := (pixMp.planeFmt 0).bytesperline
  if base = 0 ∨ stride ≤ base then pixMp
  else
    { pixMp with
      planeFmt := fun i =>
        if i < pixMp.numPlanes then widenPlane base stride (pixMp.planeFmt i)
        else pixMp.planeFmt i }

/-- `wave5UpdatePixFmt` derives the layout from the size and the format of the picture. -/
def wave5VpuEncTryFmtOut (wave5UpdatePixFmt : V4l2PixFormatMplane → V4l2PixFormatMplane)
    (f : V4l2PixFormatMplane) : V4l2PixFormatMplane :=
  let stride := (f.planeFmt 0).bytesperline
  wave5WidenSrcStride (wave5UpdatePixFmt f) stride

/-- A derived layout is derived again, whatever its planes were changed to. -/
def Rederives (wave5UpdatePixFmt : V4l2PixFormatMplane → V4l2PixFormatMplane) : Prop :=
  ∀ f planes,
    (∀ i, (wave5UpdatePixFmt f).numPlanes ≤ i → planes i = (wave5UpdatePixFmt f).planeFmt i) →
    wave5UpdatePixFmt { wave5UpdatePixFmt f with planeFmt := planes } = wave5UpdatePixFmt f

/-! ### What a widened layout has to satisfy -/

/-- Every plane holds a number of whole rows. -/
structure IsSized (pixMp : V4l2PixFormatMplane) (rows : ℕ → ℕ) : Prop where
  planes : 0 < pixMp.numPlanes
  size : ∀ i, i < pixMp.numPlanes →
    (pixMp.planeFmt i).sizeimage.toNat = (pixMp.planeFmt i).bytesperline.toNat * rows i

structure Widened (pixMp : V4l2PixFormatMplane) (rows : ℕ → ℕ) (stride : UInt32)
    (result : V4l2PixFormatMplane) : Prop where
  luma : (result.planeFmt 0).bytesperline = stride
  ratio : ∀ i, i < pixMp.numPlanes →
    (pixMp.planeFmt 0).bytesperline.toNat ∣
      (pixMp.planeFmt i).bytesperline.toNat * stride.toNat →
    (result.planeFmt i).bytesperline.toNat * (pixMp.planeFmt 0).bytesperline.toNat =
      (pixMp.planeFmt i).bytesperline.toNat * stride.toNat
  size : ∀ i, i < pixMp.numPlanes →
    (result.planeFmt i).sizeimage.toNat = (result.planeFmt i).bytesperline.toNat * rows i

def IsConsistent (pixMp : V4l2PixFormatMplane) (rows : ℕ → ℕ) (stride : UInt32)
    (result : V4l2PixFormatMplane) : Prop :=
  stride ≤ (pixMp.planeFmt 0).bytesperline ∧ result = pixMp ∨ Widened pixMp rows stride result

/-- Neither a product nor a size leaves the word. -/
structure WideningFits (pixMp : V4l2PixFormatMplane) (rows : ℕ → ℕ) (stride : UInt32) : Prop where
  luma : (pixMp.planeFmt 0).bytesperline.toNat * stride.toNat < 2 ^ 32
  ratio : ∀ i, i < pixMp.numPlanes →
    (pixMp.planeFmt 0).bytesperline.toNat ∣
      (pixMp.planeFmt i).bytesperline.toNat * stride.toNat →
    (pixMp.planeFmt i).bytesperline.toNat * stride.toNat < 2 ^ 32
  size : ∀ i, i < pixMp.numPlanes →
    (pixMp.planeFmt i).bytesperline.toNat * stride.toNat < 2 ^ 32 →
    (pixMp.planeFmt i).bytesperline.toNat * stride.toNat /
      (pixMp.planeFmt 0).bytesperline.toNat * rows i < 2 ^ 32
  /-- For planes that are wider than the luma's, and whose ratio does not divide the stride. -/
  wrapped : ∀ i, i < pixMp.numPlanes →
    2 ^ 32 ≤ (pixMp.planeFmt i).bytesperline.toNat * stride.toNat →
    (pixMp.planeFmt i).bytesperline.toNat * stride.toNat % 2 ^ 32 /
      (pixMp.planeFmt 0).bytesperline.toNat * rows i < 2 ^ 32

/-! ### One plane -/

/-- A product that wraps is not recovered from its quotient. -/
theorem wrapped_div_mul_eq_iff {product base word : ℕ} (positive : 0 < word)
    (dvd : base ∣ product) : product % word / base * base = product ↔ product < word := by
  constructor
  · intro recovered
    have down : product % word / base * base ≤ product % word := Nat.div_mul_le_self _ _
    have inside : product % word < word := Nat.mod_lt product positive
    omega
  · intro inside
    rw [Nat.mod_eq_of_lt inside, Nat.div_mul_cancel dvd]

theorem toNat_pos {v : UInt32} (positive : v ≠ 0) : 0 < v.toNat :=
  Nat.pos_iff_ne_zero.mpr fun zero => positive (UInt32.toNat_inj.mp zero)

section Plane

variable {base stride : UInt32} {plane : V4l2PlanePixFormat} {rows : ℕ}

theorem widenPlane_bytesperline (base stride : UInt32) (plane : V4l2PlanePixFormat) :
    (widenPlane base stride plane).bytesperline.toNat =
      plane.bytesperline.toNat * stride.toNat % 2 ^ 32 / base.toNat := by
  by_cases empty : plane.bytesperline = 0
  · rw [widenPlane, if_pos empty, empty]
    simp
  · simp only [widenPlane, if_neg empty, UInt32.toNat_div, UInt32.toNat_mul]

theorem widenPlane_sizeimage (base stride : UInt32)
    (sized : plane.sizeimage.toNat = plane.bytesperline.toNat * rows) :
    (widenPlane base stride plane).sizeimage.toNat =
      (widenPlane base stride plane).bytesperline.toNat * rows % 2 ^ 32 := by
  by_cases empty : plane.bytesperline = 0
  · rw [widenPlane, if_pos empty, sized, empty]
    simp
  · have count : (plane.sizeimage / plane.bytesperline).toNat = rows := by
      rw [UInt32.toNat_div, sized, Nat.mul_div_cancel_left rows (toNat_pos empty)]
    simp only [widenPlane, if_neg empty]
    rw [UInt32.toNat_mul, count]

theorem widenPlane_ratio_iff
    (dvd : base.toNat ∣ plane.bytesperline.toNat * stride.toNat) :
    (widenPlane base stride plane).bytesperline.toNat * base.toNat =
        plane.bytesperline.toNat * stride.toNat ↔
      plane.bytesperline.toNat * stride.toNat < 2 ^ 32 := by
  rw [widenPlane_bytesperline]
  exact wrapped_div_mul_eq_iff (by decide) dvd

theorem widenPlane_luma_iff (positive : base ≠ 0) (own : plane.bytesperline = base) :
    (widenPlane base stride plane).bytesperline = stride ↔
      base.toNat * stride.toNat < 2 ^ 32 := by
  have ratio := @widenPlane_ratio_iff base stride plane (by rw [own]; exact Nat.dvd_mul_right _ _)
  rw [own] at ratio
  rw [← ratio, ← UInt32.toNat_inj, Nat.mul_comm base.toNat]
  exact (Nat.mul_left_inj (Nat.ne_of_gt (toNat_pos positive))).symm

theorem widenPlane_size_iff
    (sized : plane.sizeimage.toNat = plane.bytesperline.toNat * rows) :
    (widenPlane base stride plane).sizeimage.toNat =
        (widenPlane base stride plane).bytesperline.toNat * rows ↔
      plane.bytesperline.toNat * stride.toNat % 2 ^ 32 / base.toNat * rows < 2 ^ 32 := by
  have wrapped := widenPlane_sizeimage base stride sized
  rw [wrapped, widenPlane_bytesperline]
  constructor
  · intro same
    rw [← same]
    exact Nat.mod_lt _ (by decide)
  · exact Nat.mod_eq_of_lt

end Plane

/-! ### The whole layout -/

section Layout

variable {pixMp : V4l2PixFormatMplane} {rows : ℕ → ℕ} {stride : UInt32}

theorem wave5WidenSrcStride_narrow (narrow : stride ≤ (pixMp.planeFmt 0).bytesperline) :
    wave5WidenSrcStride pixMp stride = pixMp :=
  if_pos (.inr narrow)

theorem wave5WidenSrcStride_empty (empty : (pixMp.planeFmt 0).bytesperline = 0) :
    wave5WidenSrcStride pixMp stride = pixMp :=
  if_pos (.inl empty)

theorem wave5WidenSrcStride_plane (positive : (pixMp.planeFmt 0).bytesperline ≠ 0)
    (wide : ¬stride ≤ (pixMp.planeFmt 0).bytesperline) {i : ℕ} (inside : i < pixMp.numPlanes) :
    (wave5WidenSrcStride pixMp stride).planeFmt i =
      widenPlane (pixMp.planeFmt 0).bytesperline stride (pixMp.planeFmt i) := by
  simp only [wave5WidenSrcStride, positive, wide, or_self, if_false, if_pos inside]

/-- Only planes of the format are changed, and nothing else. -/
theorem wave5WidenSrcStride_frame (pixMp : V4l2PixFormatMplane) (stride : UInt32) :
    ∃ planes, wave5WidenSrcStride pixMp stride = { pixMp with planeFmt := planes } ∧
      ∀ i, pixMp.numPlanes ≤ i → planes i = pixMp.planeFmt i := by
  by_cases kept : (pixMp.planeFmt 0).bytesperline = 0 ∨ stride ≤ (pixMp.planeFmt 0).bytesperline
  · exact ⟨pixMp.planeFmt, if_pos kept, fun _ _ => rfl⟩
  · refine ⟨_, if_neg kept, ?_⟩
    intro i outside
    exact if_neg (Nat.not_lt.mpr outside)

theorem wave5WidenSrcStride_widened_iff (sized : IsSized pixMp rows)
    (positive : (pixMp.planeFmt 0).bytesperline ≠ 0)
    (wide : ¬stride ≤ (pixMp.planeFmt 0).bytesperline) :
    Widened pixMp rows stride (wave5WidenSrcStride pixMp stride) ↔
      WideningFits pixMp rows stride := by
  have plane (i : ℕ) (inside : i < pixMp.numPlanes) :=
    wave5WidenSrcStride_plane positive wide inside
  have luma := @widenPlane_luma_iff _ stride (pixMp.planeFmt 0) positive rfl
  constructor
  · intro widened
    have sizes (i : ℕ) (inside : i < pixMp.numPlanes) :
        (pixMp.planeFmt i).bytesperline.toNat * stride.toNat % 2 ^ 32 /
          (pixMp.planeFmt 0).bytesperline.toNat * rows i < 2 ^ 32 := by
      apply (widenPlane_size_iff (sized.size i inside)).mp
      rw [← plane i inside]
      exact widened.size i inside
    refine ⟨?_, ?_, ?_, fun i inside _ => sizes i inside⟩
    · apply luma.mp
      rw [← plane 0 sized.planes]
      exact widened.luma
    · intro i inside dvd
      apply (widenPlane_ratio_iff dvd).mp
      rw [← plane i inside]
      exact widened.ratio i inside dvd
    · intro i inside small
      have size := sizes i inside
      rwa [Nat.mod_eq_of_lt small] at size
  · intro fits
    refine ⟨?_, ?_, ?_⟩
    · rw [plane 0 sized.planes]
      exact luma.mpr fits.luma
    · intro i inside dvd
      rw [plane i inside]
      exact (widenPlane_ratio_iff dvd).mpr (fits.ratio i inside dvd)
    · intro i inside
      rw [plane i inside]
      apply (widenPlane_size_iff (sized.size i inside)).mpr
      rcases Nat.lt_or_ge ((pixMp.planeFmt i).bytesperline.toNat * stride.toNat) (2 ^ 32) with
        small | large
      · rw [Nat.mod_eq_of_lt small]
        exact fits.size i inside small
      · exact fits.wrapped i inside large

theorem wave5WidenSrcStride_consistent_iff (sized : IsSized pixMp rows)
    (positive : (pixMp.planeFmt 0).bytesperline ≠ 0) :
    IsConsistent pixMp rows stride (wave5WidenSrcStride pixMp stride) ↔
      stride ≤ (pixMp.planeFmt 0).bytesperline ∨ WideningFits pixMp rows stride := by
  by_cases narrow : stride ≤ (pixMp.planeFmt 0).bytesperline
  · have unchanged := wave5WidenSrcStride_narrow narrow
    exact ⟨fun _ => .inl narrow, fun _ => .inl ⟨narrow, unchanged⟩⟩
  · have widened := wave5WidenSrcStride_widened_iff sized positive narrow
    constructor
    · rintro (⟨low, -⟩ | holds)
      · exact .inl low
      · exact .inr (widened.mp holds)
    · rintro (low | fits)
      · exact absurd low narrow
      · exact .inr (widened.mpr fits)

end Layout

/-! ### Setting a format -/

section Again

variable {wave5UpdatePixFmt : V4l2PixFormatMplane → V4l2PixFormatMplane}
  {f : V4l2PixFormatMplane} {rows : ℕ → ℕ}

/-- The format that a request results in has the same layout derived for it. -/
theorem wave5VpuEncTryFmtOut_again (again : Rederives wave5UpdatePixFmt)
    (f : V4l2PixFormatMplane) :
    wave5VpuEncTryFmtOut wave5UpdatePixFmt (wave5VpuEncTryFmtOut wave5UpdatePixFmt f) =
      wave5WidenSrcStride (wave5UpdatePixFmt f)
        ((wave5VpuEncTryFmtOut wave5UpdatePixFmt f).planeFmt 0).bytesperline := by
  rcases wave5WidenSrcStride_frame (wave5UpdatePixFmt f) (f.planeFmt 0).bytesperline with
    ⟨planes, result, outside⟩
  have derived : wave5UpdatePixFmt (wave5VpuEncTryFmtOut wave5UpdatePixFmt f) =
      wave5UpdatePixFmt f := by
    rw [wave5VpuEncTryFmtOut, result]
    exact again f planes outside
  rw [wave5VpuEncTryFmtOut, derived]

/-- A request that is met is kept when its result is requested. -/
theorem wave5VpuEncTryFmtOut_idempotent (again : Rederives wave5UpdatePixFmt)
    (met : IsConsistent (wave5UpdatePixFmt f) rows (f.planeFmt 0).bytesperline
      (wave5VpuEncTryFmtOut wave5UpdatePixFmt f)) :
    wave5VpuEncTryFmtOut wave5UpdatePixFmt (wave5VpuEncTryFmtOut wave5UpdatePixFmt f) =
      wave5VpuEncTryFmtOut wave5UpdatePixFmt f := by
  rw [wave5VpuEncTryFmtOut_again again]
  rcases met with ⟨-, unchanged⟩ | widened
  · rw [unchanged]
    exact wave5WidenSrcStride_narrow (UInt32.le_refl _)
  · rw [widened.luma]
    rfl

/-- A layout without a luma stride is kept.  Any other one is unchanged or consistently widened,
and the result kept by another request, exactly when the stride is narrow or no product wraps. -/
theorem wave5VpuEncTryFmtOut_consistent_iff (again : Rederives wave5UpdatePixFmt)
    (sized : IsSized (wave5UpdatePixFmt f) rows) :
    (((wave5UpdatePixFmt f).planeFmt 0).bytesperline = 0 →
      wave5VpuEncTryFmtOut wave5UpdatePixFmt f = wave5UpdatePixFmt f) ∧
    (((wave5UpdatePixFmt f).planeFmt 0).bytesperline ≠ 0 →
      (IsConsistent (wave5UpdatePixFmt f) rows (f.planeFmt 0).bytesperline
            (wave5VpuEncTryFmtOut wave5UpdatePixFmt f) ∧
          wave5VpuEncTryFmtOut wave5UpdatePixFmt (wave5VpuEncTryFmtOut wave5UpdatePixFmt f) =
            wave5VpuEncTryFmtOut wave5UpdatePixFmt f ↔
        (f.planeFmt 0).bytesperline ≤ ((wave5UpdatePixFmt f).planeFmt 0).bytesperline ∨
          WideningFits (wave5UpdatePixFmt f) rows (f.planeFmt 0).bytesperline)) := by
  constructor
  · exact wave5WidenSrcStride_empty
  · intro positive
    have consistent := @wave5WidenSrcStride_consistent_iff _ _ (f.planeFmt 0).bytesperline sized
      positive
    constructor
    · rintro ⟨met, -⟩
      exact consistent.mp met
    · intro fits
      have met := consistent.mpr fits
      exact ⟨met, wave5VpuEncTryFmtOut_idempotent again met⟩

end Again

/-! ### A picture of 1920 by 1088 -/

/-- The layout of an NV12 picture with an even height. -/
def nv12UpdatePixFmt (f : V4l2PixFormatMplane) : V4l2PixFormatMplane :=
  { f with
    planeFmt := fun i =>
      if i = 0 then { bytesperline := f.width, sizeimage := f.width * (f.height * 3 / 2) }
      else f.planeFmt i
    numPlanes := 1 }

theorem nv12UpdatePixFmt_rederives : Rederives nv12UpdatePixFmt := by
  intro f planes outside
  refine V4l2PixFormatMplane.ext rfl rfl rfl ?_ rfl
  funext i
  rcases Nat.eq_zero_or_pos i with zero | later
  · subst zero
    rfl
  · exact (if_neg (Nat.ne_of_gt later)).trans (outside i later)

/-- A request for a luma stride. -/
def fullHdRequest (stride : UInt32) : V4l2PixFormatMplane where
  width := 1920
  height := 1088
  pixelformat := 0x3231564e
  planeFmt _ := { bytesperline := stride, sizeimage := 0 }
  numPlanes := 1

theorem fullHdRequest_sized (stride : UInt32) :
    IsSized (nv12UpdatePixFmt (fullHdRequest stride)) fun _ => 1632 where
  planes := Nat.one_pos
  size i inside := by
    rw [Nat.lt_one_iff.mp inside]
    change (1920 * (1088 * 3 / 2) : UInt32).toNat = (1920 : UInt32).toNat * 1632
    decide

/-- The padded stride of the capture node. -/
theorem wave5VpuEncTryFmtOut_consistent_2048 :
    IsConsistent (nv12UpdatePixFmt (fullHdRequest 2048)) (fun _ => 1632) 2048
        (wave5VpuEncTryFmtOut nv12UpdatePixFmt (fullHdRequest 2048)) ∧
      wave5VpuEncTryFmtOut nv12UpdatePixFmt
          (wave5VpuEncTryFmtOut nv12UpdatePixFmt (fullHdRequest 2048)) =
        wave5VpuEncTryFmtOut nv12UpdatePixFmt (fullHdRequest 2048) := by
  have law := (wave5VpuEncTryFmtOut_consistent_iff nv12UpdatePixFmt_rederives
    (fullHdRequest_sized 2048)).2 (by decide)
  apply law.mpr
  right
  refine ⟨by decide, ?_, ?_, ?_⟩
  all_goals
    intro i inside
    rw [Nat.lt_one_iff.mp inside]
    decide

/-- 1920 * 2236963 is 2 ^ 32 + 1664, and 1664 / 1920 is a stride of zero. -/
theorem wave5VpuEncTryFmtOut_wraps :
    ¬IsConsistent (nv12UpdatePixFmt (fullHdRequest 2236963)) (fun _ => 1632) 2236963
        (wave5VpuEncTryFmtOut nv12UpdatePixFmt (fullHdRequest 2236963)) ∧
      (wave5VpuEncTryFmtOut nv12UpdatePixFmt (fullHdRequest 2236963)).planeFmt 0 =
        { bytesperline := 0, sizeimage := 0 } := by
  have plane : (wave5VpuEncTryFmtOut nv12UpdatePixFmt (fullHdRequest 2236963)).planeFmt 0 =
      { bytesperline := 0, sizeimage := 0 } := by rfl
  refine ⟨?_, plane⟩
  rintro (⟨narrow, -⟩ | widened)
  · exact absurd narrow (by decide)
  · have luma := widened.luma
    rw [plane] at luma
    exact absurd luma (by decide)

end MlKernel.Wave5
