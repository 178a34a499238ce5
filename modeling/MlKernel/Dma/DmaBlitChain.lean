import Mathlib.Algebra.Order.Floor.Div
import MlKernel.Dma.DmaBlit
import MlKernel.Lib.Tiling

/-!
# The list of blocks

The width of a transfer is the largest one that its addresses and its length allow.  A block of
full size takes a multiple of that width away, so the widths along a copy only grow and the number
of blocks counted with the first one is enough.
-/

namespace MlKernel.Dma

section Engine

variable {Lli : Type} {chan : AxiChan} {descGet : ℕ → Option Lli}

/-! ### Widths -/

theorem le_xferWidth {src dst len k : ℕ} :
    k ≤ axiChanGetXferWidth chan src dst len ↔
      2 ^ k ∣ src ∧ 2 ^ k ∣ dst ∧ 2 ^ k ∣ len ∧ k ≤ chan.mDataWidth := by
  have some : ¬2 ^ 64 ∣ src ||| dst ||| len ||| 2 ^ chan.mDataWidth := by
    intro divides
    have width := (LowBit.two_pow_dvd_or.mp divides).2
    rw [Nat.pow_dvd_pow_iff_le_right (by decide)] at width
    exact absurd chan.fitsLong (Nat.not_lt_of_le width)
  rw [axiChanGetXferWidth, ← LowBit.two_pow_dvd_iff some, LowBit.two_pow_dvd_or,
    LowBit.two_pow_dvd_or, LowBit.two_pow_dvd_or, Nat.pow_dvd_pow_iff_le_right (by decide),
    and_assoc, and_assoc]

/-- What the checks of a request let through. -/
structure WordAligned (entry : MemcpyEntry) : Prop where
  src : 4 ∣ entry.src
  dst : 4 ∣ entry.dst
  len : 4 ∣ entry.len

theorem WordAligned.two_le_width {entry : MemcpyEntry} (aligned : WordAligned entry) :
    2 ≤ axiChanGetXferWidth chan entry.src entry.dst entry.len :=
  le_xferWidth.mpr ⟨aligned.src, aligned.dst, aligned.len, chan.wordAtLeast⟩

/-- The bytes of a full block. -/
def fullSize (chan : AxiChan) (entry : MemcpyEntry) : ℕ :=
  chan.blockSize * 2 ^ axiChanGetXferWidth chan entry.src entry.dst entry.len

/-- The copy without its first full block. -/
def advance (chan : AxiChan) (entry : MemcpyEntry) : MemcpyEntry where
  dst := entry.dst + fullSize chan entry
  src := entry.src + fullSize chan entry
  len := entry.len - fullSize chan entry

theorem four_dvd_fullSize (chan : AxiChan) {entry : MemcpyEntry} (aligned : WordAligned entry) :
    4 ∣ fullSize chan entry := by
  apply Nat.dvd_mul_left_of_dvd
  exact Nat.pow_dvd_pow 2 aligned.two_le_width

theorem WordAligned.advance {entry : MemcpyEntry} (aligned : WordAligned entry) :
    WordAligned (advance chan entry) :=
  have full := four_dvd_fullSize chan aligned
  ⟨Nat.dvd_add aligned.src full, Nat.dvd_add aligned.dst full, Nat.dvd_sub aligned.len full⟩

/-- A block that the engine can take: what it moves is `blockTs` items of its width. -/
structure BlockOk (chan : AxiChan) (desc : HwDesc Lli) : Prop where
  sar : 4 ∣ desc.sar
  dar : 4 ∣ desc.dar
  len : 4 ∣ desc.len
  items : desc.len = desc.blockTs * 2 ^ desc.width
  some : 0 < desc.blockTs
  atMost : desc.blockTs ≤ chan.blockSize

def HwDesc.srcSpan (desc : HwDesc Lli) : ℕ × ℕ := (desc.sar, desc.len)

def HwDesc.dstSpan (desc : HwDesc Lli) : ℕ × ℕ := (desc.dar, desc.len)

/-- The blocks are the copy, cut in the same places at both ends. -/
structure EntryTiled (chan : AxiChan) (entry : MemcpyEntry) (part : List (HwDesc Lli)) : Prop where
  src : Tiles entry.src (part.map HwDesc.srcSpan) (entry.src + entry.len)
  dst : Tiles entry.dst (part.map HwDesc.dstSpan) (entry.dst + entry.len)
  block : ∀ desc ∈ part, BlockOk chan desc

/-- The blocks are the first ones that `axi_desc_get` gave. -/
def Taken (descGet : ℕ → Option Lli) (descs : List (HwDesc Lli)) : Prop :=
  (axiDescPut descs).map some = (List.range descs.length).map descGet

theorem Taken.append {descs : List (HwDesc Lli)} (taken : Taken descGet descs) (desc : HwDesc Lli)
    (given : descGet descs.length = some desc.lli) : Taken descGet (descs ++ [desc]) := by
  simp only [Taken, axiDescPut] at taken ⊢
  rw [List.length_append, List.length_singleton, List.range_succ, List.map_append, List.map_append,
    List.map_append, taken]
  simp [given]

/-- A fill takes the blocks of what it is to fill in, or stops at an allocation that fails. -/
inductive FillSpec (descGet : ℕ → Option Lli) (descs : List (HwDesc Lli))
    (Filled : List (HwDesc Lli) → Prop) : FillResult Lli → Prop
  | ok (part : List (HwDesc Lli)) (taken : Taken descGet (descs ++ part)) (filled : Filled part) :
      FillSpec descGet descs Filled (.ok (descs ++ part))
  | enomem (part : List (HwDesc Lli)) (taken : Taken descGet (descs ++ part))
      (refused : descGet (descs ++ part).length = none) :
      FillSpec descGet descs Filled (.enomem (descs ++ part))

theorem FillSpec.nothing {descs : List (HwDesc Lli)} {Filled : List (HwDesc Lli) → Prop}
    (taken : Taken descGet descs) (filled : Filled []) :
    FillSpec descGet descs Filled (.ok descs) := by
  have done : FillSpec descGet descs Filled (.ok (descs ++ [])) :=
    .ok [] (by simpa using taken) filled
  rwa [List.append_nil] at done

theorem FillSpec.stopped {descs : List (HwDesc Lli)} {Filled : List (HwDesc Lli) → Prop}
    (taken : Taken descGet descs) (refused : descGet descs.length = none) :
    FillSpec descGet descs Filled (.enomem descs) := by
  have done : FillSpec descGet descs Filled (.enomem (descs ++ [])) :=
    .enomem [] (by simpa using taken) (by simpa using refused)
  rwa [List.append_nil] at done

/-- What was filled in after a first part. -/
theorem FillSpec.cons {descs first : List (HwDesc Lli)} {Filled Later : List (HwDesc Lli) → Prop}
    {result : FillResult Lli} (spec : FillSpec descGet (descs ++ first) Later result)
    (more : ∀ part, Later part → Filled (first ++ part)) :
    FillSpec descGet descs Filled result := by
  cases spec with
  | ok part taken filled =>
      rw [List.append_assoc] at taken ⊢
      exact .ok _ taken (more part filled)
  | enomem part taken refused =>
      rw [List.append_assoc] at taken refused ⊢
      exact .enomem _ taken refused

theorem EntryTiled.nil {entry : MemcpyEntry} (empty : entry.len = 0) :
    EntryTiled chan entry ([] : List (HwDesc Lli)) where
  src := by simp [empty]
  dst := by simp [empty]
  block := by simp

theorem EntryTiled.cons {entry : MemcpyEntry} {desc : HwDesc Lli} {part : List (HwDesc Lli)}
    {len : ℕ} (sar : desc.sar = entry.src) (dar : desc.dar = entry.dst)
    (split : desc.len + len = entry.len) (ok : BlockOk chan desc)
    (tiled : EntryTiled chan ⟨entry.dst + desc.len, entry.src + desc.len, len⟩ part) :
    EntryTiled chan entry (desc :: part) := by
  refine ⟨⟨sar, ?_⟩, ⟨dar, ?_⟩, ?_⟩
  · rw [← split, ← Nat.add_assoc]
    exact tiled.src
  · rw [← split, ← Nat.add_assoc]
    exact tiled.dst
  · intro other mem
    rcases List.mem_cons.mp mem with rfl | mem
    · exact ok
    · exact tiled.block other mem

/-- The parts of the list, one for each entry. -/
def EntriesTiled (chan : AxiChan) (entries : List MemcpyEntry) (descs : List (HwDesc Lli)) : Prop :=
  ∃ parts : List (List (HwDesc Lli)), descs = parts.flatten ∧
    List.Forall₂ (EntryTiled chan) entries parts

theorem EntriesTiled.cons {entry : MemcpyEntry} {entries : List MemcpyEntry}
    {part descs : List (HwDesc Lli)} (first : EntryTiled chan entry part)
    (tiled : EntriesTiled chan entries descs) :
    EntriesTiled chan (entry :: entries) (part ++ descs) := by
  rcases tiled with ⟨parts, rfl, each⟩
  exact ⟨part :: parts, rfl, .cons first each⟩

end Engine

end MlKernel.Dma
