import MlKernel.Dma.BufCache
import MlKernel.Lib.BitField

/-!
# The scaler's descriptor

An operation on dma-bufs is checked on its 32-bit fields, given the addresses of its mapped
buffers, and packed into the words of a descriptor, where most fields have less than 32 bits.
-/

namespace MlKernel.Scaler

open Dma

structure ArScalerOp where
  srcphy : BitVec 32
  srcw : BitVec 32
  srch : BitVec 32
  srcstride : BitVec 32
  cropX : BitVec 32
  cropY : BitVec 32
  cropw : BitVec 32
  croph : BitVec 32
  dstphy : BitVec 32
  dstw : BitVec 32
  dsth : BitVec 32
  dststride : BitVec 32
  channels : BitVec 32
  control : BitVec 32
  interp : BitVec 32
  ctrl3c : BitVec 32

structure ArScalerDmabufOp where
  srcFd : ℤ
  dstFd : ℤ
  srcOff : BitVec 32
  dstOff : BitVec 32
  op : ArScalerOp

def einval : ℕ := 22

def erange : ℕ := 34

/-- `ar_scaler_validate`: whether it returns 0. -/
def arScalerValidate (op : ArScalerOp) : Bool :=
  if op.srcphy = 0 ∨ op.srcw = 0 ∨ op.srch = 0 then false
  else if op.srcstride &&& (0xf : BitVec 32) ≠ 0 then false
  else if op.cropw = 0 ∨ op.croph = 0 then false
  else if op.dstphy = 0 ∨ op.dstw = 0 ∨ op.dsth = 0 then false
  else if op.dststride &&& (0xf : BitVec 32) ≠ 0 then false
  else if op.channels = 0 then false
  else true

/-- The checks of `ar_scaler_resolve_dmabuf_op` that need no mapping. -/
def geometryOk (dop : ArScalerDmabufOp) : Bool :=
  let op := dop.op
  if op.srcphy ≠ 0 ∨ op.dstphy ≠ 0 then false
  else if (dop.srcOff ||| dop.dstOff) &&& (0xf : BitVec 32) ≠ 0 then false
  else if op.srch = 0 ∨ op.srcstride = 0 ∨ op.dsth = 0 ∨ op.dststride = 0 ∨ op.channels = 0 then
    false
  else if op.srcstride.toNat < op.srcw.toNat * op.channels.toNat ∨
      op.dststride.toNat < op.dstw.toNat * op.channels.toNat then false
  else if op.srcw.toNat < op.cropX.toNat + op.cropw.toNat ∨
      op.srch.toNat < op.cropY.toNat + op.croph.toNat then false
  else true

/-- The end of `ar_scaler_resolve_dmabuf_op`, with both mappings in place. -/
def resolveInto {DmaBuf : Type} (dop : ArScalerDmabufOp) (src dst : MlBufmap DmaBuf) :
    Except ℕ ArScalerOp :=
  let op := dop.op
  if src.size < dop.srcOff.toNat + op.srch.toNat * op.srcstride.toNat then .error einval
  else if dst.size < dop.dstOff.toNat + op.dsth.toNat * op.dststride.toNat then .error einval
  else
    let srcPhys := (src.base + dop.srcOff.toNat) % 2 ^ 64
    let dstPhys := (dst.base + dop.dstOff.toNat) % 2 ^ 64
    if srcPhys / 2 ^ 32 ≠ 0 then .error erange
    else if dstPhys / 2 ^ 32 ≠ 0 then .error erange
    else .ok { op with srcphy := BitVec.ofNat 32 srcPhys, dstphy := BitVec.ofNat 32 dstPhys }

/-- An operation with its addresses, and the segments its buffers are mapped to. -/
structure Resolved (DmaBuf : Type) where
  op : ArScalerOp
  src : MlBufmap DmaBuf
  dst : MlBufmap DmaBuf

/-- `ar_scaler_resolve_dmabuf_op`; `none` is an access outside of the cache.  The source's slot is
read after the destination is mapped, which may have mapped it anew. -/
def arScalerResolveDmabufOp {DmaBuf : Type} [DecidableEq DmaBuf] (core : DmaBufCore DmaBuf)
    (cache : MlBufcache DmaBuf) (dop : ArScalerDmabufOp) :
    Option (Except ℕ (Resolved DmaBuf) × MlBufcache DmaBuf) :=
  if geometryOk dop = false then some (.error einval, cache)
  else
    match mlBufcacheMapFd core cache dop.srcFd .toDevice with
    | none => none
    | some (.error errno, cache) => some (.error errno, cache)
    | some (.ok src, cache) =>
      match mlBufcacheMapFd core cache dop.dstFd .fromDevice with
      | none => none
      | some (.error errno, cache) => some (.error errno, cache)
      | some (.ok dst, cache) =>
        match resolveInto dop (cache.ent src) (cache.ent dst) with
        | .error errno => some (.error errno, cache)
        | .ok op => some (.ok ⟨op, cache.ent src, cache.ent dst⟩, cache)

/-! ### Packing -/

def scQ16One : ℤ := 0x10000

def scDeltaWrap : BitVec 64 := 0x1fffff0000

/-- The word stored at a byte offset of the image. -/
def store (image : ℕ → BitVec 32) (offset : ℕ) (value : BitVec 32) : ℕ → BitVec 32 :=
  Function.update image (offset / 4) value

def load (image : ℕ → BitVec 32) (offset : ℕ) : BitVec 32 := image (offset / 4)

@[simp] def sdSrcphy : ℕ := 0x00
@[simp] def sdSrcstr : ℕ := 0x04
@[simp] def sdSrcdim : ℕ := 0x08
@[simp] def sdConf : ℕ := 0x0c
@[simp] def sdCropxy : ℕ := 0x10
@[simp] def sdCropdim : ℕ := 0x14
@[simp] def sdBurst : ℕ := 0x24
@[simp] def sdDstdim : ℕ := 0x28
@[simp] def sdHratio : ℕ := 0x2c
@[simp] def sdHdeltaHi : ℕ := 0x30
@[simp] def sdHdeltaLo : ℕ := 0x34
@[simp] def sdVratio : ℕ := 0x3c
@[simp] def sdVdeltaHi : ℕ := 0x40
@[simp] def sdVdeltaLo : ℕ := 0x44
@[simp] def sdDstphy : ℕ := 0x4c
@[simp] def sdDststr : ℕ := 0x50
@[simp] def sdLutphy : ℕ := 0x54

structure Coordinate where
  ratio : BitVec 32
  deltaHi : BitVec 32
  deltaLo : BitVec 32

/-- `coordinate_convert`, on signed words. -/
def coordinateConvert (src dst : BitVec 32) : Coordinate :=
  let ratio : ℤ := (src.toInt * 2 ^ 16).tdiv dst.toInt
  let delta : BitVec 64 :=
    if ratio - scQ16One < 0 then BitVec.ofInt 64 ratio + scDeltaWrap
    else BitVec.ofInt 64 (ratio - scQ16One)
  ⟨BitVec.ofInt 32 ratio, ((delta >>> 32) &&& (0x1f : BitVec 64)).setWidth 32, delta.setWidth 32⟩

/-- `burst` of `scaler_build_image`. -/
def burst (op : ArScalerOp) : BitVec 32 :=
  let vmetric := (op.croph * (100 : BitVec 32) / op.dsth) * op.channels
  if op.dstw ≤ op.cropw ∧ vmetric ≤ (0xc7f : BitVec 32) then (16 : BitVec 32) / op.channels
  else (8 : BitVec 32) / op.channels

/-- `conf` of `scaler_build_image`. -/
def conf (op : ArScalerOp) : BitVec 32 :=
  let conf : BitVec 32 := 0x1000c
  let conf := conf ||| (0x4 : BitVec 32)
  let conf := conf ||| (0x8 : BitVec 32)
  let conf := conf &&& ~~~(0x2 : BitVec 32)
  let conf := (conf &&& (0xffffff9f : BitVec 32)) ||| (op.control <<< 5)
  (conf &&& (0xffe0ffff : BitVec 32)) ||| (op.channels <<< 16)

/-- Two dimensions in one word. -/
def dimensions (low high : BitVec 32) : BitVec 32 :=
  (low &&& (0xe000ffff : BitVec 32)) ||| (high <<< 16)

/-- `scaler_build_image`, into a zeroed image. -/
def scalerBuildImage (op : ArScalerOp) (lutPhys : BitVec 32) : ℕ → BitVec 32 :=
  let image : ℕ → BitVec 32 := fun _ => 0
  let image := store image sdSrcphy op.srcphy
  let image := store image sdSrcstr
    ((op.srcstride &&& (0xffff : BitVec 32)) ||| (op.ctrl3c <<< 16))
  let image := store image sdSrcdim (dimensions op.srcw op.srch)
  let image := store image sdConf (conf op)
  let image := store image sdCropxy (dimensions op.cropX op.cropY)
  let image := store image sdCropdim (dimensions op.cropw op.croph)
  let image := store image sdBurst
    ((burst op &&& (0xff : BitVec 32)) ||| ((0x78 : BitVec 32) <<< 8) ||| (0x10000 : BitVec 32))
  let image := store image sdDstdim (dimensions op.dstw op.dsth)
  let h := coordinateConvert op.cropw op.dstw
  let image := store image sdHdeltaHi h.deltaHi
  let image := store image sdHdeltaLo h.deltaLo
  let image := store image sdHratio h.ratio
  let v := coordinateConvert op.croph op.dsth
  let image := store image sdVdeltaHi v.deltaHi
  let image := store image sdVdeltaLo v.deltaLo
  let image := store image sdVratio v.ratio
  let image := store image sdDstphy op.dstphy
  let image := store image sdDststr op.dststride
  store image sdLutphy lutPhys

/-! ### Unpacking -/

/-- What a descriptor says by its documented fields. -/
structure Descriptor where
  srcphy : ℕ
  srcstride : ℕ
  srcw : ℕ
  srch : ℕ
  control : ℕ
  channels : ℕ
  cropX : ℕ
  cropY : ℕ
  cropw : ℕ
  croph : ℕ
  dstw : ℕ
  dsth : ℕ
  dstphy : ℕ
  dststride : ℕ
  deriving DecidableEq

/-- The field of `width` bits from bit `lo` on of a word of the image. -/
def field (image : ℕ → BitVec 32) (offset lo width : ℕ) : ℕ :=
  ((load image offset).extractLsb' lo width).toNat

def decode (image : ℕ → BitVec 32) : Descriptor where
  srcphy := field image sdSrcphy 0 32
  srcstride := field image sdSrcstr 0 16
  srcw := field image sdSrcdim 0 13
  srch := field image sdSrcdim 16 13
  control := field image sdConf 5 2
  channels := field image sdConf 16 5
  cropX := field image sdCropxy 0 13
  cropY := field image sdCropxy 16 13
  cropw := field image sdCropdim 0 13
  croph := field image sdCropdim 16 13
  dstw := field image sdDstdim 0 13
  dsth := field image sdDstdim 16 13
  dstphy := field image sdDstphy 0 32
  dststride := field image sdDststr 0 32

/-- The operation's own fields. -/
def ArScalerOp.descriptor (op : ArScalerOp) : Descriptor where
  srcphy := op.srcphy.toNat
  srcstride := op.srcstride.toNat
  srcw := op.srcw.toNat
  srch := op.srch.toNat
  control := op.control.toNat
  channels := op.channels.toNat
  cropX := op.cropX.toNat
  cropY := op.cropY.toNat
  cropw := op.cropw.toNat
  croph := op.croph.toNat
  dstw := op.dstw.toNat
  dsth := op.dsth.toNat
  dstphy := op.dstphy.toNat
  dststride := op.dststride.toNat

theorem load_store_self (image : ℕ → BitVec 32) (offset : ℕ) (value : BitVec 32) :
    load (store image offset value) offset = value :=
  Function.update_self _ _ _

theorem load_store_of_ne {image : ℕ → BitVec 32} {offset other : ℕ} {value : BitVec 32}
    (apart : other / 4 ≠ offset / 4) : load (store image offset value) other = load image other :=
  Function.update_of_ne apart _ _

section Fields

theorem dimensions_low (low high : BitVec 32) :
    ((dimensions low high).extractLsb' 0 13).toNat = low.toNat % 2 ^ 13 := by
  have kept : (low &&& (0xe000ffff : BitVec 32)).extractLsb' 0 13 = low.extractLsb' 0 13 :=
    BitField.extract_and_mask (by decide)
  have above : (high <<< 16).extractLsb' 0 13 = 0 := BitField.extract_shiftLeft_below (by decide)
  rw [dimensions, BitVec.extractLsb'_or, kept, above]
  simp

theorem dimensions_high (low high : BitVec 32) :
    ((dimensions low high).extractLsb' 16 13).toNat = high.toNat % 2 ^ 13 := by
  have cleared : (low &&& (0xe000ffff : BitVec 32)).extractLsb' 16 13 = 0 :=
    BitField.extract_and_zero (by decide)
  have put : (high <<< 16).extractLsb' 16 13 = high.extractLsb' 0 13 :=
    BitField.extract_shiftLeft (by decide) (by decide)
  rw [dimensions, BitVec.extractLsb'_or, cleared, put]
  simp

theorem srcstr_low (stride ctrl : BitVec 32) :
    (((stride &&& (0xffff : BitVec 32)) ||| (ctrl <<< 16)).extractLsb' 0 16).toNat =
      stride.toNat % 2 ^ 16 := by
  have kept : (stride &&& (0xffff : BitVec 32)).extractLsb' 0 16 = stride.extractLsb' 0 16 :=
    BitField.extract_and_mask (by decide)
  have above : (ctrl <<< 16).extractLsb' 0 16 = 0 := BitField.extract_shiftLeft_below (by decide)
  rw [BitVec.extractLsb'_or, kept, above]
  simp

/-- The channels are put last, over what the control field has left in theirs. -/
theorem conf_channels (op : ArScalerOp) :
    ((conf op).extractLsb' 16 5).toNat = op.channels.toNat % 2 ^ 5 := by
  have put : (op.channels <<< 16).extractLsb' 16 5 = op.channels.extractLsb' 0 5 :=
    BitField.extract_shiftLeft (by decide) (by decide)
  simp only [conf]
  rw [BitVec.extractLsb'_or, BitField.extract_and_zero (by decide), put]
  simp

theorem conf_control (op : ArScalerOp) :
    ((conf op).extractLsb' 5 2).toNat = op.control.toNat % 2 ^ 2 := by
  have above : (op.channels <<< 16).extractLsb' 5 2 = 0 :=
    BitField.extract_shiftLeft_below (by decide)
  have put : (op.control <<< 5).extractLsb' 5 2 = op.control.extractLsb' 0 2 :=
    BitField.extract_shiftLeft (by decide) (by decide)
  simp only [conf]
  rw [BitVec.extractLsb'_or, BitField.extract_and_mask (by decide), above, BitVec.extractLsb'_or,
    BitField.extract_and_zero (by decide), put]
  simp

end Fields

section Words

variable (op : ArScalerOp) (lutPhys : BitVec 32)

/-- What the engine finds of an operation: its fields cut to the descriptor's widths. -/
def ArScalerOp.truncated : Descriptor where
  srcphy := op.srcphy.toNat
  srcstride := op.srcstride.toNat % 2 ^ 16
  srcw := op.srcw.toNat % 2 ^ 13
  srch := op.srch.toNat % 2 ^ 13
  control := op.control.toNat % 2 ^ 2
  channels := op.channels.toNat % 2 ^ 5
  cropX := op.cropX.toNat % 2 ^ 13
  cropY := op.cropY.toNat % 2 ^ 13
  cropw := op.cropw.toNat % 2 ^ 13
  croph := op.croph.toNat % 2 ^ 13
  dstw := op.dstw.toNat % 2 ^ 13
  dsth := op.dsth.toNat % 2 ^ 13
  dstphy := op.dstphy.toNat
  dststride := op.dststride.toNat

theorem decode_scalerBuildImage : decode (scalerBuildImage op lutPhys) = op.truncated := by
  have word (value : BitVec 32) : (value.extractLsb' 0 32).toNat = value.toNat := by
    rw [BitField.extract_zero_toNat, Nat.mod_eq_of_lt value.isLt]
  simp (disch := decide) only [decode, field, scalerBuildImage, load_store_of_ne, load_store_self,
    dimensions_low, dimensions_high, srcstr_low, conf_channels, conf_control, word,
    ArScalerOp.truncated]

/-- Every field fits the bits the descriptor has for it. -/
structure ArScalerOp.FieldsFit (op : ArScalerOp) : Prop where
  srcw : op.srcw.toNat < 2 ^ 13
  srch : op.srch.toNat < 2 ^ 13
  srcstride : op.srcstride.toNat < 2 ^ 16
  dstw : op.dstw.toNat < 2 ^ 13
  dsth : op.dsth.toNat < 2 ^ 13
  channels : op.channels.toNat < 2 ^ 5
  control : op.control.toNat < 2 ^ 2

end Words

/-! ### Ratios -/

/-- The delta's two words hold it in 37 bits. -/
def Coordinate.delta (coordinate : Coordinate) : ℕ :=
  coordinate.deltaHi.toNat * 2 ^ 32 + coordinate.deltaLo.toNat

theorem delta_words (delta : BitVec 64) :
    (((delta >>> 32) &&& (0x1f : BitVec 64)).setWidth 32).toNat * 2 ^ 32 +
        (delta.setWidth 32).toNat = delta.toNat % 2 ^ 37 := by
  have mask : (0x1f : BitVec 64).toNat = 2 ^ 5 - 1 := rfl
  rw [BitVec.toNat_setWidth, BitVec.toNat_setWidth, BitVec.toNat_and, mask,
    Nat.and_two_pow_sub_one_eq_mod, BitVec.toNat_ushiftRight, Nat.shiftRight_eq_div_pow]
  omega

theorem coordinateConvert_spec {src dst : BitVec 32} (srcFits : src.toNat < 2 ^ 13)
    (dstFits : dst.toNat < 2 ^ 13) :
    (coordinateConvert src dst).ratio.toNat = src.toNat * 2 ^ 16 / dst.toNat ∧
      ((coordinateConvert src dst).delta : ℤ) =
        ((src.toNat * 2 ^ 16 / dst.toNat : ℕ) - 0x10000) % 2 ^ 37 := by
  have small : src.toNat * 2 ^ 16 / dst.toNat < 2 ^ 29 :=
    Nat.lt_of_le_of_lt (Nat.div_le_self _ _) (by omega)
  have quotient : (src.toInt * 2 ^ 16).tdiv dst.toInt =
      ((src.toNat * 2 ^ 16 / dst.toNat : ℕ) : ℤ) := by
    rw [BitVec.toInt_eq_toNat_of_lt (by omega), BitVec.toInt_eq_toNat_of_lt (by omega),
      Int.ofNat_tdiv, Int.natCast_mul]
    rfl
  generalize src.toNat * 2 ^ 16 / dst.toNat = ratio at small quotient
  simp only [coordinateConvert, Coordinate.delta, quotient, delta_words, scQ16One]
  constructor
  · rw [BitVec.toNat_ofInt]
    omega
  · split
    · rw [BitVec.toNat_add, BitVec.toNat_ofInt, scDeltaWrap]
      simp only [BitVec.toNat_ofNat, BitVec.ofNat_eq_ofNat]
      omega
    · rw [BitVec.toNat_ofInt]
      omega

/-! ### What an accepted operation makes the engine touch -/

variable {DmaBuf : Type}

/-- A byte of the segment, on the 64-bit bus. -/
def Covers (segment : MlBufmap DmaBuf) (addr : ℕ) : Prop :=
  ∃ i < segment.size, (segment.base + i) % 2 ^ 64 = addr % 2 ^ 64

/-- A byte of the source image that a descriptor declares, or of a pixel that the ratios step on
to inside the crop window. -/
def Reads (image : ℕ → BitVec 32) (addr : ℕ) : Prop :=
  let d := decode image
  (∃ row < d.srch, ∃ byte < d.srcw * d.channels,
      addr = d.srcphy + (row * d.srcstride + byte)) ∨
    ∃ y < d.dsth, ∃ x < d.dstw, ∃ byte < d.channels,
      addr = d.srcphy + ((d.cropY + y * (load image sdVratio).toNat / 2 ^ 16) * d.srcstride +
        ((d.cropX + x * (load image sdHratio).toNat / 2 ^ 16) * d.channels + byte))

def Writes (image : ℕ → BitVec 32) (addr : ℕ) : Prop :=
  let d := decode image
  ∃ row < d.dsth, ∃ byte < d.dstw * d.channels, addr = d.dstphy + (row * d.dststride + byte)

/-- A ratio word and its delta, the two's complement of what it lies above one. -/
structure RatioOf (crop dst : BitVec 32) (image : ℕ → BitVec 32) (ratio deltaHi deltaLo : ℕ) :
    Prop where
  floor : (load image ratio).toNat = crop.toNat * 2 ^ 16 / dst.toNat
  delta : (((load image deltaHi).toNat * 2 ^ 32 + (load image deltaLo).toNat : ℕ) : ℤ) =
    ((crop.toNat * 2 ^ 16 / dst.toNat : ℕ) - 0x10000) % 2 ^ 37

/-- The image says what the operation says, and leads the engine to its buffers only. -/
structure Faithful (resolved : Resolved DmaBuf) (image : ℕ → BitVec 32) : Prop where
  fields : decode image = resolved.op.descriptor
  horizontal : RatioOf resolved.op.cropw resolved.op.dstw image sdHratio sdHdeltaHi sdHdeltaLo
  vertical : RatioOf resolved.op.croph resolved.op.dsth image sdVratio sdVdeltaHi sdVdeltaLo
  reads : ∀ addr, Reads image addr → Covers resolved.src addr
  writes : ∀ addr, Writes image addr → Covers resolved.dst addr

/-- What is known of an operation that was resolved. -/
structure Accepted (resolved : Resolved DmaBuf) (srcOff dstOff : ℕ) : Prop where
  srcRow : resolved.op.srcw.toNat * resolved.op.channels.toNat ≤ resolved.op.srcstride.toNat
  dstRow : resolved.op.dstw.toNat * resolved.op.channels.toNat ≤ resolved.op.dststride.toNat
  cropRight : resolved.op.cropX.toNat + resolved.op.cropw.toNat ≤ resolved.op.srcw.toNat
  cropBottom : resolved.op.cropY.toNat + resolved.op.croph.toNat ≤ resolved.op.srch.toNat
  srcSize : srcOff + resolved.op.srch.toNat * resolved.op.srcstride.toNat ≤ resolved.src.size
  dstSize : dstOff + resolved.op.dsth.toNat * resolved.op.dststride.toNat ≤ resolved.dst.size
  srcphy : resolved.op.srcphy.toNat = (resolved.src.base + srcOff) % 2 ^ 64
  dstphy : resolved.op.dstphy.toNat = (resolved.dst.base + dstOff) % 2 ^ 64

theorem geometryOk_bounds {dop : ArScalerDmabufOp} (ok : geometryOk dop = true) :
    dop.op.srcw.toNat * dop.op.channels.toNat ≤ dop.op.srcstride.toNat ∧
      dop.op.dstw.toNat * dop.op.channels.toNat ≤ dop.op.dststride.toNat ∧
      dop.op.cropX.toNat + dop.op.cropw.toNat ≤ dop.op.srcw.toNat ∧
      dop.op.cropY.toNat + dop.op.croph.toNat ≤ dop.op.srch.toNat := by
  simp only [geometryOk] at ok
  repeat' split at ok
  all_goals first | omega | cases ok

theorem resolveInto_ok {dop : ArScalerDmabufOp} {src dst : MlBufmap DmaBuf} {op : ArScalerOp}
    (done : resolveInto dop src dst = .ok op) :
    dop.srcOff.toNat + dop.op.srch.toNat * dop.op.srcstride.toNat ≤ src.size ∧
      dop.dstOff.toNat + dop.op.dsth.toNat * dop.op.dststride.toNat ≤ dst.size ∧
      (src.base + dop.srcOff.toNat) % 2 ^ 64 < 2 ^ 32 ∧
      (dst.base + dop.dstOff.toNat) % 2 ^ 64 < 2 ^ 32 ∧
      op = { dop.op with
        srcphy := BitVec.ofNat 32 ((src.base + dop.srcOff.toNat) % 2 ^ 64)
        dstphy := BitVec.ofNat 32 ((dst.base + dop.dstOff.toNat) % 2 ^ 64) } := by
  simp only [resolveInto] at done
  repeat' split at done
  all_goals cases done
  refine ⟨by omega, by omega, by omega, by omega, rfl⟩

theorem resolve_accepted [DecidableEq DmaBuf] {core : DmaBufCore DmaBuf}
    {cache after : MlBufcache DmaBuf} {dop : ArScalerDmabufOp} {resolved : Resolved DmaBuf}
    (done : arScalerResolveDmabufOp core cache dop = some (.ok resolved, after)) :
    Accepted resolved dop.srcOff.toNat dop.dstOff.toNat := by
  simp only [arScalerResolveDmabufOp] at done
  repeat' split at done
  all_goals cases done
  next rejected _ _ _ _ _ _ _ _ _ into =>
    rcases geometryOk_bounds (Bool.eq_true_of_not_eq_false rejected) with
      ⟨srcRow, dstRow, cropRight, cropBottom⟩
    rcases resolveInto_ok into with ⟨srcSize, dstSize, srcLow, dstLow, rfl⟩
    refine ⟨srcRow, dstRow, cropRight, cropBottom, srcSize, dstSize, ?_, ?_⟩
    · exact (BitVec.toNat_ofNat _ _).trans (Nat.mod_eq_of_lt srcLow)
    · exact (BitVec.toNat_ofNat _ _).trans (Nat.mod_eq_of_lt dstLow)

theorem covers_add {segment : MlBufmap DmaBuf} {phy off count : ℕ}
    (start : phy = (segment.base + off) % 2 ^ 64) (inside : off + count < segment.size) :
    Covers segment (phy + count) := by
  refine ⟨off + count, inside, ?_⟩
  rw [start, Nat.mod_add_mod, Nat.add_assoc]

/-- A byte of a row lies in the image. -/
theorem row_lt {row rows stride byte width : ℕ} (inside : row < rows) (small : byte < width)
    (fits : width ≤ stride) : row * stride + byte < rows * stride :=
  calc row * stride + byte < row * stride + stride :=
        Nat.add_lt_add_left (Nat.lt_of_lt_of_le small fits) _
    _ = (row + 1) * stride := (Nat.succ_mul row stride).symm
    _ ≤ rows * stride := Nat.mul_le_mul_right stride inside

/-- Stepping by the floored ratio stays inside the crop. -/
theorem step_lt {crop dst position : ℕ} (inside : position < dst) (some_crop : 0 < crop) :
    position * (crop * 2 ^ 16 / dst) / 2 ^ 16 < crop := by
  apply Nat.div_lt_of_lt_mul
  rcases Nat.eq_zero_or_pos (crop * 2 ^ 16 / dst) with flat | steps
  · rw [flat, Nat.mul_zero]
    omega
  · calc position * (crop * 2 ^ 16 / dst) < dst * (crop * 2 ^ 16 / dst) :=
          Nat.mul_lt_mul_of_pos_right inside steps
      _ ≤ crop * 2 ^ 16 := Nat.mul_div_le _ _
      _ = 2 ^ 16 * crop := Nat.mul_comm _ _

theorem decode_eq_descriptor_iff {op : ArScalerOp} (lutPhys : BitVec 32)
    (cropRight : op.cropX.toNat + op.cropw.toNat ≤ op.srcw.toNat)
    (cropBottom : op.cropY.toNat + op.croph.toNat ≤ op.srch.toNat) :
    decode (scalerBuildImage op lutPhys) = op.descriptor ↔ op.FieldsFit := by
  rw [decode_scalerBuildImage]
  constructor
  · intro same
    simp only [ArScalerOp.truncated, ArScalerOp.descriptor, Descriptor.mk.injEq] at same
    constructor
    all_goals omega
  · rintro ⟨srcw, srch, srcstride, dstw, dsth, channels, control⟩
    simp only [ArScalerOp.truncated, ArScalerOp.descriptor, Descriptor.mk.injEq, true_and,
      and_true]
    omega

section Image

variable {resolved : Resolved DmaBuf} {srcOff dstOff : ℕ} (lutPhys : BitVec 32)

theorem ratioOf_horizontal (op : ArScalerOp) (cropw : op.cropw.toNat < 2 ^ 13)
    (dstw : op.dstw.toNat < 2 ^ 13) :
    RatioOf op.cropw op.dstw (scalerBuildImage op lutPhys) sdHratio sdHdeltaHi sdHdeltaLo := by
  rcases coordinateConvert_spec cropw dstw with ⟨floor, delta⟩
  constructor
  all_goals simp (disch := decide) only [scalerBuildImage, load_store_of_ne, load_store_self]
  · exact floor
  · exact delta

theorem ratioOf_vertical (op : ArScalerOp) (croph : op.croph.toNat < 2 ^ 13)
    (dsth : op.dsth.toNat < 2 ^ 13) :
    RatioOf op.croph op.dsth (scalerBuildImage op lutPhys) sdVratio sdVdeltaHi sdVdeltaLo := by
  rcases coordinateConvert_spec croph dsth with ⟨floor, delta⟩
  constructor
  all_goals simp (disch := decide) only [scalerBuildImage, load_store_of_ne, load_store_self]
  · exact floor
  · exact delta

variable {lutPhys}

theorem reads_covered (accepted : Accepted resolved srcOff dstOff)
    (cropw : 0 < resolved.op.cropw.toNat) (croph : 0 < resolved.op.croph.toNat)
    {image : ℕ → BitVec 32} (same : decode image = resolved.op.descriptor)
    (horizontal : (load image sdHratio).toNat =
      resolved.op.cropw.toNat * 2 ^ 16 / resolved.op.dstw.toNat)
    (vertical : (load image sdVratio).toNat =
      resolved.op.croph.toNat * 2 ^ 16 / resolved.op.dsth.toNat)
    {addr : ℕ} (reads : Reads image addr) : Covers resolved.src addr := by
  have size := accepted.srcSize
  have rows := accepted.srcRow
  simp only [Reads, same, horizontal, vertical, ArScalerOp.descriptor] at reads
  rcases reads with ⟨row, rowIn, byte, byteIn, rfl⟩ | ⟨y, yIn, x, xIn, byte, byteIn, rfl⟩
  · apply covers_add accepted.srcphy
    have := row_lt rowIn byteIn rows
    omega
  · apply covers_add accepted.srcphy
    have bottom := accepted.cropBottom
    have right := accepted.cropRight
    have rowStep := step_lt yIn croph
    have columnStep := step_lt xIn cropw
    have column := row_lt (Nat.lt_of_lt_of_le (Nat.add_lt_add_left columnStep _) right) byteIn
      (Nat.le_refl _)
    have := row_lt (Nat.lt_of_lt_of_le (Nat.add_lt_add_left rowStep _) bottom) column rows
    omega

theorem writes_covered (accepted : Accepted resolved srcOff dstOff) {image : ℕ → BitVec 32}
    (same : decode image = resolved.op.descriptor) {addr : ℕ} (writes : Writes image addr) :
    Covers resolved.dst addr := by
  have size := accepted.dstSize
  simp only [Writes, same, ArScalerOp.descriptor] at writes
  rcases writes with ⟨row, rowIn, byte, byteIn, rfl⟩
  apply covers_add accepted.dstphy
  have := row_lt rowIn byteIn accepted.dstRow
  omega

end Image

theorem validate_crop {op : ArScalerOp} (valid : arScalerValidate op = true) :
    0 < op.cropw.toNat ∧ 0 < op.croph.toNat := by
  simp only [arScalerValidate] at valid
  repeat' split at valid
  all_goals try cases valid
  next crop _ _ _ =>
    rw [not_or] at crop
    constructor
    · exact Nat.pos_of_ne_zero fun zero => crop.1 (BitVec.eq_of_toNat_eq zero)
    · exact Nat.pos_of_ne_zero fun zero => crop.2 (BitVec.eq_of_toNat_eq zero)

/-- The image of an operation that both checks let pass is faithful exactly if the operation's
fields fit the descriptor's. -/
theorem scalerBuildImage_faithful_iff [DecidableEq DmaBuf] {core : DmaBufCore DmaBuf}
    {cache after : MlBufcache DmaBuf} {dop : ArScalerDmabufOp} {resolved : Resolved DmaBuf}
    (done : arScalerResolveDmabufOp core cache dop = some (.ok resolved, after))
    (valid : arScalerValidate resolved.op = true) (lutPhys : BitVec 32) :
    Faithful resolved (scalerBuildImage resolved.op lutPhys) ↔ resolved.op.FieldsFit := by
  have accepted := resolve_accepted done
  have decodes := decode_eq_descriptor_iff lutPhys accepted.cropRight accepted.cropBottom
  constructor
  · intro faithful
    exact decodes.mp faithful.fields
  · intro fits
    have right := accepted.cropRight
    have bottom := accepted.cropBottom
    have srcw := fits.srcw
    have srch := fits.srch
    have same := decodes.mpr fits
    have horizontal := ratioOf_horizontal lutPhys resolved.op (by omega) fits.dstw
    have vertical := ratioOf_vertical lutPhys resolved.op (by omega) fits.dsth
    rcases validate_crop valid with ⟨cropw, croph⟩
    refine ⟨same, horizontal, vertical, ?_, ?_⟩
    · intro addr
      exact reads_covered accepted cropw croph same horizontal.floor vertical.floor
    · intro addr
      exact writes_covered accepted same

/-- A dma-buf core whose buffers are a megabyte at two gigabytes. -/
def oneSegment : DmaBufCore ℤ where
  dmaBufGet fd := .ok fd
  dmaBufAttach _ := .ok ()
  dmaBufMapAttachment _ _ := .ok ⟨1, 0x80000000, 0x100000⟩

/-- Halving the upper left of a one-channel image of a given width. -/
def halving (width : BitVec 32) : ArScalerDmabufOp where
  srcFd := 3
  dstFd := 4
  srcOff := 0
  dstOff := 0
  op :=
    { srcphy := 0, srcw := width, srch := 2, srcstride := width, cropX := 0, cropY := 0,
      cropw := 32, croph := 2, dstphy := 0, dstw := 16, dsth := 1, dststride := 16,
      channels := 1, control := 0, interp := 0, ctrl3c := 0 }

/-- What it is resolved to. -/
def halved (width : BitVec 32) : Resolved ℤ where
  op := { (halving width).op with srcphy := 0x80000000, dstphy := 0x80000000 }
  src := ⟨some 3, .toDevice, 0x80000000, 0x100000⟩
  dst := ⟨some 4, .fromDevice, 0x80000000, 0x100000⟩

theorem scalerBuildImage_faithful_halved :
    Faithful (halved 64) (scalerBuildImage (halved 64).op 0) ↔ (halved 64).op.FieldsFit :=
  @scalerBuildImage_faithful_iff ℤ _ oneSegment (.zero ℤ) _ (halving 64) (halved 64) rfl
    (by decide) 0

/-- A source of 8192 bytes a row is accepted, and packed with a width of zero. -/
theorem not_scalerBuildImage_faithful :
    ¬∀ (core : DmaBufCore ℤ) (cache after : MlBufcache ℤ) (dop : ArScalerDmabufOp)
      (resolved : Resolved ℤ) (lutPhys : BitVec 32),
      arScalerResolveDmabufOp core cache dop = some (.ok resolved, after) →
        arScalerValidate resolved.op = true →
        Faithful resolved (scalerBuildImage resolved.op lutPhys) := by
  intro faithful
  have wide := faithful oneSegment (.zero ℤ) _ (halving 8192) (halved 8192) 0 rfl (by decide)
  have width := congrArg Descriptor.srcw wide.fields
  rw [decode_scalerBuildImage] at width
  exact absurd width (by decide)

end MlKernel.Scaler
