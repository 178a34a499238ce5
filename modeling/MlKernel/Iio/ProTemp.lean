import MlKernel.Lib.Blend
import MlKernel.Lib.Trimmed

/-!
# The temperature sensor

The code of the temperature runs free, and its nine bits are read from two registers one after the
other: a sample may mix two codes.  A reading is the mean of a burst of samples without its lowest
and its highest eighth, so it lies where all but those samples do.
-/

namespace MlKernel.Iio

def arProtempMaxSamples : UInt32 := 64
def arProtempConvMult : ℤ := 5320
def arProtempConvOffset : ℤ := 1373400
def arProtempConvDiv : ℤ := 10000

/-- `samp_count` as the probe settles it; `none` is a device tree without it. -/
def sampCount (property : Option UInt32) : UInt32 :=
  let count := match property with
    | none => 1
    | some count => if count = 0 then 1 else count
  if count > arProtempMaxSamples then arProtempMaxSamples else count

/-- The sum of some codes in 32 bits. -/
def codeSum (codes : List ℕ) : ℕ := codes.foldl (fun sum code => (sum + code) % 2 ^ 32) 0

/-- The codes are words of 16 bits, and so is what it answers. -/
def arProtempReduce (buf : List ℕ) : ℕ :=
  let n := buf.length
  if n ≤ 3 then codeSum buf / n % 2 ^ 16
  else
    let drop := n >>> 3
    let kept := Trimmed.middle drop (buf.mergeSort fun a b => a ≤ b)
    codeSum kept / (n - drop - drop) % 2 ^ 16

/-- What one turn of the loop stores, from the words of `DATA_LO` and `DATA_HI`. -/
def sampleCode (words : UInt32 × UInt32) : ℕ :=
  let codeLo : UInt32 := words.1 &&& (0xff : UInt32)
  let codeHi : UInt32 := (words.2 &&& (0x1 : UInt32)) <<< (8 : UInt32)
  (codeLo ||| codeHi).toNat % 2 ^ 16

/-- The burst, with the words that the registers hold at each turn. -/
def burst (n : UInt32) (words : ℕ → UInt32 × UInt32) : List ℕ :=
  (List.range n.toNat).map fun i => sampleCode (words i)

def arProtempSample (n : UInt32) (words : ℕ → UInt32 × UInt32) : ℕ :=
  arProtempReduce (burst n words)

def arProtempToCelsius (raw : ℕ) : ℤ :=
  (raw * arProtempConvMult - arProtempConvOffset).tdiv arProtempConvDiv

inductive IioChanInfo
  | raw
  | scale
  | other

/-- `ar_protemp_read_raw`; `none` is `-EINVAL`. -/
def arProtempReadRaw (n : UInt32) (words : ℕ → UInt32 × UInt32) : IioChanInfo → Option ℤ
  | .raw => some (arProtempSample n words : ℤ)
  | .scale => some (arProtempToCelsius (arProtempSample n words))
  | .other => none

/-! ### The burst and its mean -/

theorem sampCount_range (property : Option UInt32) :
    1 ≤ (sampCount property).toNat ∧ (sampCount property).toNat ≤ 64 := by
  have positive : ∀ count : UInt32, count ≠ 0 → 1 ≤ count.toNat := by
    intro count nonzero
    have : count.toNat ≠ 0 := fun zero => nonzero (UInt32.toNat_inj.mp zero)
    omega
  have clamped : ∀ count : UInt32, count ≠ 0 →
      1 ≤ (if count > arProtempMaxSamples then arProtempMaxSamples else count).toNat ∧
        (if count > arProtempMaxSamples then arProtempMaxSamples else count).toNat ≤ 64 := by
    intro count nonzero
    split
    · decide
    · next small =>
        exact ⟨positive count nonzero, UInt32.le_iff_toNat_le.mp (UInt32.not_lt.mp small)⟩
  unfold sampCount
  cases property with
  | none => exact clamped 1 (by decide)
  | some count =>
      dsimp only
      split
      · exact clamped 1 (by decide)
      · next nonzero => exact clamped count nonzero

theorem codeSum_eq {codes : List ℕ} (short : codes.length ≤ 64)
    (words : ∀ code ∈ codes, code < 2 ^ 16) : codeSum codes = codes.sum := by
  have folded : ∀ (codes : List ℕ) (sum : ℕ), (∀ code ∈ codes, code < 2 ^ 16) →
      sum + codes.length * 2 ^ 16 < 2 ^ 32 →
        codes.foldl (fun sum code => (sum + code) % 2 ^ 32) sum = sum + codes.sum := by
    intro codes
    induction codes with
    | nil => simp
    | cons code rest ih =>
        intro sum words room
        have codeLt := words code List.mem_cons_self
        rw [List.length_cons] at room
        rw [List.foldl_cons, Nat.mod_eq_of_lt (by omega),
          ih _ (fun code member => words code (List.mem_cons_of_mem _ member)) (by omega),
          List.sum_cons, Nat.add_assoc]
  rw [codeSum, folded codes 0 words (by omega), Nat.zero_add]

/-- The mean of a burst, in the widths of the source. -/
theorem mean_bounds {codes : List ℕ} {low high : ℕ} (nonempty : 0 < codes.length)
    (short : codes.length ≤ 64) (words : ∀ code ∈ codes, code < 2 ^ 16)
    (bounds : ∀ code ∈ codes, low ≤ code ∧ code ≤ high) :
    low ≤ codeSum codes / codes.length % 2 ^ 16 ∧
      codeSum codes / codes.length % 2 ^ 16 ≤ high := by
  have small := Trimmed.mean_between nonempty fun code member =>
    And.intro (Nat.zero_le code) (Nat.le_sub_one_of_lt (words code member))
  rw [codeSum_eq short words, Nat.mod_eq_of_lt (by omega)]
  exact Trimmed.mean_between nonempty bounds

theorem sorted_mergeSort (buf : List ℕ) :
    (buf.mergeSort fun a b => a ≤ b).Pairwise (· ≤ ·) := by
  have sorted := @List.pairwise_mergeSort ℕ (fun a b => a ≤ b)
    (fun a b c first second => decide_eq_true
      (le_trans (of_decide_eq_true first) (of_decide_eq_true second)))
    (fun a b => by simpa using le_total a b) buf
  exact sorted.imp of_decide_eq_true

/-- A few samples too low and a few too high do not move the reading out of the bounds. -/
theorem arProtempReduce_bounds {buf : List ℕ} {low high : ℕ} (nonempty : 0 < buf.length)
    (short : buf.length ≤ 64) (words : ∀ code ∈ buf, code < 2 ^ 16)
    (fewBelow : buf.countP (· < low) ≤ buf.length >>> 3)
    (fewAbove : buf.countP (high < ·) ≤ buf.length >>> 3) :
    low ≤ arProtempReduce buf ∧ arProtempReduce buf ≤ high := by
  rw [Nat.shiftRight_eq_div_pow] at fewBelow fewAbove
  unfold arProtempReduce
  dsimp only
  split
  · next few =>
      rw [Nat.div_eq_of_lt (by omega), Nat.le_zero, List.countP_eq_zero] at fewBelow fewAbove
      refine mean_bounds nonempty short words ?_
      intro code member
      exact ⟨not_lt.mp (by simpa using fewBelow code member),
        not_lt.mp (by simpa using fewAbove code member)⟩
  · next many =>
      rw [Nat.shiftRight_eq_div_pow]
      have perm := buf.mergeSort_perm fun a b => decide (a ≤ b)
      have length := perm.length_eq
      have room : buf.length / 2 ^ 3 + buf.length / 2 ^ 3 ≤
          (buf.mergeSort fun a b => a ≤ b).length := by
        omega
      have kept := Trimmed.length_middle room
      rw [length] at kept
      rw [← kept]
      refine mean_bounds (by omega) (by omega) ?_ ?_
      · intro code member
        exact words code (perm.subset (List.mem_of_mem_drop (List.mem_of_mem_take member)))
      · intro code member
        refine Trimmed.middle_bounds (sorted_mergeSort buf) room ?_ ?_ member
        · rwa [perm.countP_eq]
        · rwa [perm.countP_eq]

theorem arProtempToCelsius_mono {raw raw' : ℕ} (order : raw ≤ raw') :
    arProtempToCelsius raw ≤ arProtempToCelsius raw' := by
  refine Blend.tdiv_mono (by decide) ?_
  simp only [arProtempConvMult]
  omega

/-- Every step of the conversion is an `int` of 32 bits, as in the source. -/
structure ConversionFits (raw : ℕ) : Prop where
  word : raw < 2 ^ 16
  product : (raw : ℤ) * arProtempConvMult < 2 ^ 31
  above : -2 ^ 31 ≤ (raw : ℤ) * arProtempConvMult - arProtempConvOffset
  below : (raw : ℤ) * arProtempConvMult - arProtempConvOffset < 2 ^ 31

theorem conversionFits {raw : ℕ} (word : raw < 2 ^ 16) : ConversionFits raw := by
  refine ⟨word, ?_, ?_, ?_⟩ <;> simp only [arProtempConvMult, arProtempConvOffset] <;> omega

theorem arProtempReduce_lt (buf : List ℕ) : arProtempReduce buf < 2 ^ 16 := by
  unfold arProtempReduce
  dsimp only
  split <;> exact Nat.mod_lt _ (by decide)

/-- Whatever the device tree asks for: as long as at most an eighth of the burst lies below a code
and at most an eighth above another, the reading lies between the two, and the temperature between
theirs.  The conversion does not overflow. -/
theorem readRaw_between (property : Option UInt32) (words : ℕ → UInt32 × UInt32)
    {low high : ℕ}
    (fewBelow : (burst (sampCount property) words).countP (· < low) ≤
      (sampCount property).toNat >>> 3)
    (fewAbove : (burst (sampCount property) words).countP (high < ·) ≤
      (sampCount property).toNat >>> 3) :
    (∃ raw : ℕ, arProtempReadRaw (sampCount property) words .raw = some (raw : ℤ) ∧
      low ≤ raw ∧ raw ≤ high ∧ ConversionFits raw) ∧
    ∃ celsius, arProtempReadRaw (sampCount property) words .scale = some celsius ∧
      arProtempToCelsius low ≤ celsius ∧ celsius ≤ arProtempToCelsius high := by
  have count := sampCount_range property
  have length : (burst (sampCount property) words).length = (sampCount property).toNat := by
    rw [burst, List.length_map, List.length_range]
  have codes : ∀ code ∈ burst (sampCount property) words, code < 2 ^ 16 := by
    intro code member
    rcases List.mem_map.mp member with ⟨i, -, rfl⟩
    exact Nat.mod_lt _ (by decide)
  rw [← length] at count fewBelow fewAbove
  have bounds := arProtempReduce_bounds count.1 count.2 codes fewBelow fewAbove
  have fits := conversionFits (arProtempReduce_lt (burst (sampCount property) words))
  refine ⟨⟨_, rfl, bounds.1, bounds.2, fits⟩, _, rfl, ?_, ?_⟩
  · exact arProtempToCelsius_mono bounds.1
  · exact arProtempToCelsius_mono bounds.2

/-- Of eight samples one is read as zero. -/
theorem readRaw_between_zero :
    let words : ℕ → UInt32 × UInt32 :=
      fun i => if i = 3 then (0x00, 0) else (0x80 + UInt32.ofNat i, 1)
    ∃ celsius, arProtempReadRaw (sampCount (some 8)) words .scale = some celsius ∧
      arProtempToCelsius 0x180 ≤ celsius ∧ celsius ≤ arProtempToCelsius 0x187 := by
  intro words
  exact (readRaw_between (some 8) words (by decide) (by decide)).2

end MlKernel.Iio
