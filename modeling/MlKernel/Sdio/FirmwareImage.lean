import MlKernel.Lib.Align
import MlKernel.Lib.Emission
import MlKernel.Sdio.RomLoader

/-!
# The firmware image

`sdio_request_fw` streams the segments of an image to the ROM loader: the 64-byte header, then the
SPL, troot and signature segments that the header announces, each from the next block boundary of
the file, then the configuration blob, and an empty frame that starts the chip.
-/

namespace MlKernel.Sdio

def splRomHeaderAddr : ℕ := 0x2f0040

def splHeaderSize : ℕ := 64

def cccrReadyBit : ℕ := 1

def einval : ℤ := -22

def enodev : ℤ := -19

/-- The fields of `_spl_header` that place a segment. -/
structure SplHeader where
  sigLoadAddr : ℕ
  sigLen : ℕ
  splLoadAddr : ℕ
  splLen : ℕ
  trootLoadAddr : ℕ
  trootLen : ℕ

/-- A little-endian `__u32` of the header. -/
def headerWord (file : List UInt8) (offset : ℕ) : ℕ :=
  LittleEndian.value ((file.drop offset).take 4)

def SplHeader.read (file : List UInt8) : SplHeader where
  sigLoadAddr := headerWord file 24
  sigLen := headerWord file 28
  splLoadAddr := headerWord file 32
  splLen := headerWord file 36
  trootLoadAddr := headerWord file 40
  trootLen := headerWord file 44

/-- What a payload pointer points at: a byte of the image, the configuration blob, or nothing. -/
inductive Payload where
  | base (off : ℕ)
  | cfg
  | null
  deriving DecidableEq

/-- A segment `sdio_rom_send` is called with. -/
structure Segment where
  addr : ℕ
  data : Payload
  len : ℕ
  deriving DecidableEq

/-- What an upload has done: the frames it has written, and the segments it has handed over. -/
structure Upload where
  sent : ℕ
  segments : List Segment

/-- How the chip answers: the read of CCCR register 3 with its error, and each write to the FIFO
by its number. -/
structure RomLoader where
  cccr : UInt8
  err : ℤ
  sdioMemcpyToio : ℕ → ℤ

abbrev Uploader := ExceptT ℤ (StateM Upload)

variable (loader : RomLoader)

/-- `sdio_rom_send`, with `sdioRomSendFrom` for its loop. -/
def romSend (segment : Segment) : Uploader PUnit := fun upload =>
  let sent := sdioRomSendFrom loader.sdioMemcpyToio segment.len 0 upload.sent
  let after : Upload := ⟨upload.sent + sent.2.length, upload.segments ++ [segment]⟩
  if sent.1 ≠ 0 then (.error sent.1, after) else (.ok ⟨⟩, after)

/-- `artosyn_upload_segment` -/
def uploadSegment (segment : Segment) : Uploader PUnit :=
  if segment.len = 0 then pure ⟨⟩ else romSend loader segment

/-- `off` after a segment. -/
def nextOff (off len : ℕ) : ℕ := (off + Align.upMask 32 len arsdioBlock) % 2 ^ 32

/-- The configuration blob's part of `sdio_request_fw`; the length argument is a `u32`. -/
def uploadCfg (addr : ℕ) (cfg : Option (List UInt8)) : Uploader PUnit :=
  match cfg with
  | none => pure ⟨⟩
  | some data =>
      if data.length = 0 then pure ⟨⟩
      else uploadSegment loader ⟨addr, .cfg, data.length % 2 ^ 32⟩

/-- `sdio_request_fw` past its gates. -/
def streamFw (file : List UInt8) (cfg : Option (List UInt8)) : Uploader PUnit := do
  let hdr := SplHeader.read file
  romSend loader ⟨splRomHeaderAddr, .base 0, splHeaderSize⟩
  let off := arsdioBlock
  uploadSegment loader ⟨hdr.splLoadAddr, .base off, hdr.splLen⟩
  let off := nextOff off hdr.splLen
  uploadSegment loader ⟨hdr.trootLoadAddr, .base off, hdr.trootLen⟩
  let off := nextOff off hdr.trootLen
  uploadSegment loader ⟨hdr.sigLoadAddr, .base off, hdr.sigLen⟩
  uploadCfg loader hdr.trootLoadAddr cfg
  romSend loader ⟨0, .null, 0⟩

/-- `sdio_request_fw`: what it returns, and the upload.  `none` stands for a missing file. -/
def sdioRequestFw (fw cfg : Option (List UInt8)) : ℤ × Upload :=
  match fw with
  | none => (einval, ⟨0, []⟩)
  | some file =>
      if file.length < splHeaderSize then (einval, ⟨0, []⟩)
      else if loader.err ≠ 0 ∨ loader.cccr.toNat.testBit cccrReadyBit = false then
        (enodev, ⟨0, []⟩)
      else
        match (streamFw loader file cfg).run.run ⟨0, []⟩ with
        | (.ok _, upload) => (0, upload)
        | (.error ret, upload) => (ret, upload)

/-- A chip that is ready and takes every frame. -/
def RomLoader.accepting : RomLoader := ⟨2, 0, fun _ => 0⟩

variable {loader}

open Emission

theorem romSend_emits (segment : Segment) :
    Emits Upload.segments (romSend loader segment) [segment] := by
  intro upload
  refine ⟨[segment], [], rfl, ?_, fun _ _ => rfl⟩
  change (romSend loader segment upload).2.segments = _
  simp only [romSend]
  split
  · rfl
  · rfl

/-- Only a failed write fails a segment. -/
theorem sdioRomSendFrom_succeeds {sdioMemcpyToio : ℕ → ℤ}
    (accepts : ∀ number, sdioMemcpyToio number = 0) (len off sent : ℕ) :
    (sdioRomSendFrom sdioMemcpyToio len off sent).1 = 0 := by
  fun_induction sdioRomSendFrom sdioMemcpyToio len off sent with
  | case1 off sent frame ret failed => exact absurd (accepts sent) failed
  | case2 off sent frame ret succeeded more rest ih => exact ih
  | case3 off sent frame ret succeeded last => rfl

theorem romSend_returns (accepts : ∀ number, loader.sdioMemcpyToio number = 0)
    (segment : Segment) : Returns (romSend loader segment) := by
  intro upload
  change (romSend loader segment upload).1 = _
  have succeeds := sdioRomSendFrom_succeeds accepts segment.len 0 upload.sent
  simp [romSend, succeeds]

def SplHeader.spl (hdr : SplHeader) : Segment :=
  ⟨hdr.splLoadAddr, .base arsdioBlock, hdr.splLen⟩

def SplHeader.troot (hdr : SplHeader) : Segment :=
  ⟨hdr.trootLoadAddr, .base (nextOff arsdioBlock hdr.splLen), hdr.trootLen⟩

def SplHeader.sig (hdr : SplHeader) : Segment :=
  ⟨hdr.sigLoadAddr, .base (nextOff (nextOff arsdioBlock hdr.splLen) hdr.trootLen), hdr.sigLen⟩

/-- What `artosyn_upload_segment` sends of a segment. -/
def Segment.uploaded (segment : Segment) : List Segment :=
  if segment.len = 0 then [] else [segment]

theorem uploadSegment_emits (segment : Segment) :
    Emits Upload.segments (uploadSegment loader segment) segment.uploaded := by
  simp only [uploadSegment, Segment.uploaded]
  split
  · exact Emits.skip
  · exact romSend_emits segment

theorem uploadSegment_returns (accepts : ∀ number, loader.sdioMemcpyToio number = 0)
    (segment : Segment) : Returns (uploadSegment loader segment) := by
  simp only [uploadSegment]
  split
  · exact Returns.skip
  · exact romSend_returns accepts segment

/-- The configuration blob goes out as a segment of its own. -/
theorem uploadCfg_eq (addr : ℕ) (cfg : Option (List UInt8)) :
    uploadCfg loader addr cfg =
      uploadSegment loader ⟨addr, .cfg, (cfg.getD []).length % 2 ^ 32⟩ := by
  cases cfg with
  | none => rfl
  | some data =>
      simp only [uploadCfg]
      split
      · next empty => simp [uploadSegment, empty]
      · rfl

/-- The segments of an upload that no write fails. -/
def streamed (file : List UInt8) (cfg : Option (List UInt8)) : List Segment :=
  let hdr := SplHeader.read file
  [⟨splRomHeaderAddr, .base 0, splHeaderSize⟩] ++ (hdr.spl.uploaded ++ (hdr.troot.uploaded ++
    (hdr.sig.uploaded ++
      (Segment.uploaded ⟨hdr.trootLoadAddr, .cfg, (cfg.getD []).length % 2 ^ 32⟩ ++
        [⟨0, .null, 0⟩]))))

theorem streamFw_emits (file : List UInt8) (cfg : Option (List UInt8)) :
    Emits Upload.segments (streamFw loader file cfg) (streamed file cfg) := by
  simp only [streamFw, uploadCfg_eq]
  exact (romSend_emits _).bind <| (uploadSegment_emits _).bind <| (uploadSegment_emits _).bind <|
    (uploadSegment_emits _).bind <| (uploadSegment_emits _).bind <| romSend_emits _

theorem streamFw_returns (accepts : ∀ number, loader.sdioMemcpyToio number = 0)
    (file : List UInt8) (cfg : Option (List UInt8)) : Returns (streamFw loader file cfg) := by
  simp only [streamFw, uploadCfg_eq]
  exact (romSend_returns accepts _).bind <| (uploadSegment_returns accepts _).bind <|
    (uploadSegment_returns accepts _).bind <| (uploadSegment_returns accepts _).bind <|
    (uploadSegment_returns accepts _).bind <| romSend_returns accepts _

/-- Every byte of the segment that comes from the image is a byte of the file. -/
def Segment.Inside (file : List UInt8) (segment : Segment) : Prop :=
  ∀ off, segment.data = .base off → ∀ i < segment.len, off + i < file.length

theorem Segment.inside_uploaded_iff {file : List UInt8} {addr off len : ℕ} :
    (∀ sent ∈ Segment.uploaded ⟨addr, .base off, len⟩, sent.Inside file) ↔
      (len ≠ 0 → off + len ≤ file.length) := by
  by_cases empty : len = 0
  · simp [uploaded, empty]
  · simp only [uploaded, if_neg empty, List.mem_singleton, forall_eq]
    constructor
    · intro inside _
      have last := inside off rfl (len - 1) (Nat.sub_one_lt empty)
      omega
    · intro fits start from_base i lt
      have := fits empty
      cases from_base
      exact Nat.lt_of_lt_of_le (Nat.add_lt_add_left lt off) this

/-- Laid end to end from the second block on, each from a block boundary, the segments that the
header announces end where the file does or before.  File offsets are words. -/
structure SegmentsFit (file : List UInt8) : Prop where
  spl : (SplHeader.read file).splLen ≠ 0 →
    arsdioBlock + (SplHeader.read file).splLen ≤ file.length
  troot : (SplHeader.read file).trootLen ≠ 0 →
    (arsdioBlock + Align.up (SplHeader.read file).splLen arsdioBlock) % 2 ^ 32 +
      (SplHeader.read file).trootLen ≤ file.length
  sig : (SplHeader.read file).sigLen ≠ 0 →
    (arsdioBlock + Align.up (SplHeader.read file).splLen arsdioBlock +
      Align.up (SplHeader.read file).trootLen arsdioBlock) % 2 ^ 32 +
        (SplHeader.read file).sigLen ≤ file.length

theorem headerWord_lt (file : List UInt8) (offset : ℕ) : headerWord file offset < 2 ^ 32 := by
  have size : ((file.drop offset).take 4).length ≤ 4 := List.length_take_le 4 _
  calc headerWord file offset < 256 ^ ((file.drop offset).take 4).length :=
        LittleEndian.value_lt _
    _ ≤ 256 ^ 4 := Nat.pow_le_pow_right (by omega) size
    _ = 2 ^ 32 := by rfl

theorem nextOff_eq {len : ℕ} (off : ℕ) (word : len < 2 ^ 32) :
    nextOff off len = (off + Align.up len arsdioBlock) % 2 ^ 32 := by
  have power : arsdioBlock = 2 ^ 9 := rfl
  rw [nextOff, power, Align.upMask_eq_up_mod (by omega) word, Nat.add_mod_mod]

/-- The segments of the image stay inside it exactly if their lengths let them. -/
theorem forall_mem_streamed_iff {file : List UInt8} (large : splHeaderSize ≤ file.length)
    (cfg : Option (List UInt8)) :
    (∀ segment ∈ streamed file cfg, segment.Inside file) ↔ SegmentsFit file := by
  have header : Segment.Inside file ⟨splRomHeaderAddr, .base 0, splHeaderSize⟩ := by
    intro off from_base i lt
    cases from_base
    rw [Nat.zero_add]
    exact Nat.lt_of_lt_of_le lt large
  have blob : ∀ segment ∈ Segment.uploaded
      ⟨(SplHeader.read file).trootLoadAddr, .cfg, (cfg.getD []).length % 2 ^ 32⟩,
      segment.Inside file := by
    intro segment mem off from_base
    simp only [Segment.uploaded] at mem
    split at mem
    · cases mem
    · rw [List.mem_singleton] at mem
      subst mem
      cases from_base
  have start : Segment.Inside file ⟨0, .null, 0⟩ := by
    intro off from_base
    cases from_base
  have troot : nextOff arsdioBlock (SplHeader.read file).splLen = _ :=
    nextOff_eq arsdioBlock (headerWord_lt file 36)
  have sig : ∀ off, nextOff off (SplHeader.read file).trootLen = _ :=
    fun off => nextOff_eq off (headerWord_lt file 44)
  simp only [streamed, List.mem_append, or_imp, forall_and, List.mem_singleton, forall_eq, header,
    start, true_and, and_true, SplHeader.spl, SplHeader.troot, SplHeader.sig, troot, sig,
    Nat.mod_add_mod, Segment.inside_uploaded_iff]
  constructor
  · rintro ⟨splFits, trootFits, sigFits, -⟩
    exact ⟨splFits, trootFits, sigFits⟩
  · intro fits
    exact ⟨fits.spl, fits.troot, fits.sig, blob⟩

/-- Past the gates, an upload hands over what the stream does. -/
theorem sdioRequestFw_segments (loader : RomLoader) {file : List UInt8}
    (large : splHeaderSize ≤ file.length) (cfg : Option (List UInt8)) :
    (sdioRequestFw loader (some file) cfg).2.segments = [] ∨
      (sdioRequestFw loader (some file) cfg).2.segments =
        ((streamFw loader file cfg).run.run ⟨0, []⟩).2.segments := by
  simp only [sdioRequestFw, if_neg (Nat.not_lt.mpr large)]
  split
  · exact .inl rfl
  · right
    split
    · next run => rw [run]
    · next run => rw [run]

theorem sdioRequestFw_accepting {file : List UInt8} (large : splHeaderSize ≤ file.length)
    (cfg : Option (List UInt8)) :
    (sdioRequestFw .accepting (some file) cfg).2.segments = streamed file cfg := by
  have sent := (streamFw_emits file cfg).log_of_returns
    (streamFw_returns (fun _ => rfl : ∀ number, RomLoader.accepting.sdioMemcpyToio number = 0)
      file cfg) ⟨0, []⟩
  have ready : ¬(RomLoader.accepting.err ≠ 0 ∨
      RomLoader.accepting.cccr.toNat.testBit cccrReadyBit = false) := by decide
  simp only [sdioRequestFw, if_neg (Nat.not_lt.mpr large), if_neg ready]
  rw [List.nil_append] at sent
  rw [← sent]
  split
  · next run => rw [run]
  · next run => rw [run]

/-- What an upload hands over from the image stays inside it, whatever the chip answers, exactly
if the image is as long as its header says. -/
theorem sdioRequestFw_inside_iff {file : List UInt8} (large : splHeaderSize ≤ file.length) :
    (∀ loader cfg, ∀ segment ∈ (sdioRequestFw loader (some file) cfg).2.segments,
      segment.Inside file) ↔ SegmentsFit file := by
  constructor
  · intro inside
    apply (forall_mem_streamed_iff large Option.none).mp
    rw [← sdioRequestFw_accepting large]
    exact inside .accepting Option.none
  · intro fits loader cfg segment mem
    rcases sdioRequestFw_segments loader large cfg with rejected | handed
    · rw [rejected] at mem
      cases mem
    · rw [handed] at mem
      refine (streamFw_emits file cfg).forall_mem ?_ ?_ segment mem
      · exact (forall_mem_streamed_iff large cfg).mpr fits
      · intro earlier none_yet
        cases none_yet

/-- An image of nothing but a header with no segments. -/
theorem sdioRequestFw_inside_header :
    (∀ loader cfg, ∀ segment ∈
        (sdioRequestFw loader (some (List.replicate 64 0)) cfg).2.segments,
      segment.Inside (List.replicate 64 0)) ↔ SegmentsFit (List.replicate 64 0) :=
  sdioRequestFw_inside_iff (by decide)

/-- A bare header that announces an SPL of one byte: the byte lies behind the file. -/
theorem not_sdioRequestFw_inside :
    ¬∀ file : List UInt8, splHeaderSize ≤ file.length → ∀ loader cfg,
      ∀ segment ∈ (sdioRequestFw loader (some file) cfg).2.segments, segment.Inside file := by
  intro inside
  have large : splHeaderSize ≤
      (List.replicate 36 (0 : UInt8) ++ 1 :: List.replicate 27 0).length := by decide
  have spl := inside _ large .accepting Option.none ⟨0, .base 512, 1⟩ (by
    rw [sdioRequestFw_accepting large]
    decide)
  have behind := spl 512 rfl 0 (by decide)
  exact absurd behind (by decide)

end MlKernel.Sdio
