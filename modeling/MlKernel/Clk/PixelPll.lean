import Mathlib.Algebra.Ring.Int.Defs
import Mathlib.Algebra.Ring.Nat
import Mathlib.Data.List.Chain
import Mathlib.Tactic.Common

/-!
# The pixel PLL

The feedback word is a period: the rate is a product over it.  `set_rate` clamps the rate to a band
around the one the PLL booted with and moves the word to its target in steps of about a
two-thousandth, writing every step.
-/

namespace MlKernel.Clk

def arPllKnum : ℕ := 2314489657

def arPllBandPermille : ℕ := 50

def arPllSlewShift : ℕ := 11

def einval : ℤ := -22

structure Ar9311PixelPll where
  /-- `AR_PLL_FBWORD` -/
  fbword : ℕ
  bootRate : ℕ
  bootRate_lt : bootRate < 2 ^ 64

/-- `(u64)parent_rate * AR_PLL_KNUM` -/
def pllProduct (parentRate : ℕ) : ℕ := parentRate * arPllKnum % 2 ^ 64

def ar9311PixelPllRecalcRate (pll : Ar9311PixelPll) (parentRate : ℕ) : ℕ :=
  if pll.fbword = 0 then 0 else pllProduct parentRate / pll.fbword

/-- The ends of the band. -/
def Ar9311PixelPll.lo (pll : Ar9311PixelPll) : ℕ :=
  pll.bootRate / 1000 * (1000 - arPllBandPermille) % 2 ^ 64

def Ar9311PixelPll.hi (pll : Ar9311PixelPll) : ℕ :=
  pll.bootRate / 1000 * (1000 + arPllBandPermille) % 2 ^ 64

def ar9311PixelPllClamp (pll : Ar9311PixelPll) (rate : ℕ) : ℕ :=
  if pll.hi ≤ rate then pll.hi else if rate ≤ pll.lo then pll.lo else rate

/-- The word that `set_rate` ramps to, a division cut to 32 bits.  A division by zero gives 0. -/
def targetWord (pll : Ar9311PixelPll) (rate parentRate : ℕ) : ℕ :=
  pllProduct parentRate / ar9311PixelPllClamp pll rate % 2 ^ 32

/-- The body of the ramp up to its write. -/
def slewStep (word cur : ℕ) : ℕ :=
  let maxStep := max (cur >>> arPllSlewShift) 1
  if cur < word then min word ((cur + maxStep) % 2 ^ 32)
  else max word ((cur + (2 ^ 32 - maxStep)) % 2 ^ 32)

/-- The words that the ramp writes, if it ends within so many steps. -/
def slew (word : ℕ) : ℕ → ℕ → Option (List ℕ)
  | 0, cur => if cur = word then some [] else none
  | fuel + 1, cur =>
      if cur = word then some []
      else
        let next := slewStep word cur
        (slew word fuel next).map (next :: ·)

/-- What a call returns, the words it has written and the PLL it leaves. -/
structure SetRate where
  ret : ℤ
  writes : List ℕ
  pll : Ar9311PixelPll

/-- `ar9311_pixel_pll_set_rate`, where its loop ends within so many steps. -/
def ar9311PixelPllSetRate (fuel : ℕ) (pll : Ar9311PixelPll) (rate parentRate : ℕ) :
    Option SetRate :=
  if parentRate = 0 then some ⟨einval, [], pll⟩
  else
    (slew (targetWord pll rate parentRate) fuel pll.fbword).map fun writes =>
      ⟨0, writes, { pll with fbword := writes.getLast?.getD pll.fbword }⟩

/-! ### The ramp -/

/-- How far one step may go. -/
def SlewLimited (cur next : ℕ) : Prop :=
  next ≤ cur + max (cur >>> arPllSlewShift) 1 ∧ cur ≤ next + max (cur >>> arPllSlewShift) 1

/-- A ramp to a word: it goes one way, in small steps, and does not pass the word. -/
structure Ramp (word cur : ℕ) (writes : List ℕ) : Prop where
  up : cur ≤ word → List.IsChain (· < ·) (cur :: writes) ∧ ∀ next ∈ writes, next ≤ word
  down : word ≤ cur → List.IsChain (· > ·) (cur :: writes) ∧ ∀ next ∈ writes, word ≤ next
  limited : List.IsChain SlewLimited (cur :: writes)
  arrives : (cur :: writes).getLast (List.cons_ne_nil _ _) = word

/-- Words to which the ramp cannot overflow on its way up. -/
def Reachable (word : ℕ) : Prop := word + (word >>> arPllSlewShift) < 2 ^ 32

section Step

variable {word cur : ℕ}

theorem slewStep_up (room : Reachable word) (below : cur < word) :
    cur < slewStep word cur ∧ slewStep word cur ≤ word ∧ SlewLimited cur (slewStep word cur) := by
  simp only [Reachable, arPllSlewShift, Nat.shiftRight_eq_div_pow] at room
  have fits : cur + max (cur / 2 ^ 11) 1 < 2 ^ 32 := by omega
  simp only [slewStep, SlewLimited, arPllSlewShift, Nat.shiftRight_eq_div_pow, if_pos below,
    Nat.mod_eq_of_lt fits]
  omega

theorem slewStep_down (fits : cur < 2 ^ 32) (above : word < cur) :
    word ≤ slewStep word cur ∧ slewStep word cur < cur ∧ SlewLimited cur (slewStep word cur) := by
  have borrow : (cur + (2 ^ 32 - max (cur / 2 ^ 11) 1)) % 2 ^ 32 = cur - max (cur / 2 ^ 11) 1 := by
    have split : cur + (2 ^ 32 - max (cur / 2 ^ 11) 1) =
        cur - max (cur / 2 ^ 11) 1 + 2 ^ 32 := by omega
    rw [split, Nat.add_mod_right, Nat.mod_eq_of_lt (by omega)]
  simp only [slewStep, SlewLimited, arPllSlewShift, Nat.shiftRight_eq_div_pow,
    if_neg (Nat.lt_asymm above), borrow]
  omega

theorem slew_of_eq (fuel : ℕ) : slew word fuel word = some [] := by
  cases fuel with
  | zero => simp [slew]
  | succ fuel => simp [slew]

theorem slew_of_ne (fuel : ℕ) (apart : cur ≠ word) :
    slew word (fuel + 1) cur =
      (slew word fuel (slewStep word cur)).map (slewStep word cur :: ·) :=
  if_neg apart

theorem Ramp.here (word : ℕ) : Ramp word word [] where
  up _ := ⟨List.isChain_singleton word, by simp⟩
  down _ := ⟨List.isChain_singleton word, by simp⟩
  limited := List.isChain_singleton word
  arrives := rfl

theorem Ramp.up_cons {next : ℕ} {writes : List ℕ} (rest : Ramp word next writes)
    (rises : cur < next) (within : next ≤ word) (limited : SlewLimited cur next) :
    Ramp word cur (next :: writes) where
  up _ := by
    rcases rest.up within with ⟨chain, bounded⟩
    refine ⟨List.isChain_cons_cons.mpr ⟨rises, chain⟩, ?_⟩
    simpa using ⟨within, bounded⟩
  down above := absurd (Nat.lt_of_lt_of_le rises within) (Nat.not_lt.mpr above)
  limited := List.isChain_cons_cons.mpr ⟨limited, rest.limited⟩
  arrives := by simpa using rest.arrives

theorem Ramp.down_cons {next : ℕ} {writes : List ℕ} (rest : Ramp word next writes)
    (falls : next < cur) (within : word ≤ next) (limited : SlewLimited cur next) :
    Ramp word cur (next :: writes) where
  up below := absurd (Nat.lt_of_le_of_lt within falls) (Nat.not_lt.mpr below)
  down _ := by
    rcases rest.down within with ⟨chain, bounded⟩
    refine ⟨List.isChain_cons_cons.mpr ⟨falls, chain⟩, ?_⟩
    simpa using ⟨within, bounded⟩
  limited := List.isChain_cons_cons.mpr ⟨limited, rest.limited⟩
  arrives := by simpa using rest.arrives

end Step

/-- The ramp ends.  The distance to the target falls with every step. -/
theorem exists_slew {word : ℕ} (room : Reachable word) (cur : ℕ) (fits : cur < 2 ^ 32) :
    ∃ fuel writes, slew word fuel cur = some writes ∧ Ramp word cur writes := by
  induction distance : word - cur + (cur - word) using Nat.strong_induction_on generalizing cur with
  | h distance ih =>
      have wordFits : word < 2 ^ 32 := Nat.lt_of_le_of_lt (Nat.le_add_right _ _) room
      rcases Nat.lt_trichotomy cur word with below | rfl | above
      · rcases slewStep_up room below with ⟨rises, within, limited⟩
        rcases ih _ (by omega) (slewStep word cur) (by omega) rfl with
          ⟨fuel, writes, ends, ramp⟩
        refine ⟨fuel + 1, slewStep word cur :: writes, ?_, ramp.up_cons rises within limited⟩
        rw [slew_of_ne fuel (Nat.ne_of_lt below), ends]
        rfl
      · exact ⟨0, [], slew_of_eq 0, Ramp.here cur⟩
      · rcases slewStep_down fits above with ⟨within, falls, limited⟩
        rcases ih _ (by omega) (slewStep word cur) (by omega) rfl with
          ⟨fuel, writes, ends, ramp⟩
        refine ⟨fuel + 1, slewStep word cur :: writes, ?_, ramp.down_cons falls within limited⟩
        rw [slew_of_ne fuel (Nat.ne_of_gt above), ends]
        rfl

/-! ### Rates and words -/

/-- Dividing by a quotient that is no smaller than the divisor gives the divisor back. -/
theorem div_div_eq {product rate : ℕ} (positive : 0 < rate) (le : rate ≤ product / rate) :
    product / (product / rate) = rate := by
  have split := Nat.div_add_mod product rate
  have rest := Nat.mod_lt product positive
  apply Nat.div_eq_of_lt_le
  · omega
  · rw [Nat.succ_mul]
    omega

/-- What a quotient is the quotient of by its own quotient. -/
theorem div_div_div_eq {product word : ℕ} (positive : 0 < product / word) :
    product / (product / (product / word)) = product / word := by
  have word_pos : 0 < word := Nat.pos_of_ne_zero fun zero => by simp [zero] at positive
  have le : word ≤ product / (product / word) := by
    apply (Nat.le_div_iff_mul_le positive).mpr
    exact Nat.mul_div_le product word
  apply Nat.le_antisymm
  · exact Nat.div_le_div_left le word_pos
  · apply (Nat.le_div_iff_mul_le (Nat.lt_of_lt_of_le word_pos le)).mpr
    exact Nat.mul_div_le product _

/-- By a rate of at least 950 a word is found again within a thousandth. -/
theorem div_div_lt {product word : ℕ} (large : 950 ≤ product / word) :
    word ≤ product / (product / word) ∧ 950 * (product / (product / word)) < 951 * word := by
  have positive : 0 < product / word := by omega
  have le : word ≤ product / (product / word) := by
    apply (Nat.le_div_iff_mul_le positive).mpr
    exact Nat.mul_div_le product word
  refine ⟨le, ?_⟩
  have word_pos : 0 < word := Nat.pos_of_ne_zero fun zero => by simp [zero] at large
  rcases Nat.exists_eq_add_of_le le with ⟨excess, eq⟩
  have upper : product < (product / word + 1) * word :=
    (Nat.div_lt_iff_lt_mul word_pos).mp (Nat.lt_succ_self _)
  have lower : (word + excess) * (product / word) ≤ product := by
    rw [← eq]
    exact Nat.div_mul_le_self product _
  rw [Nat.add_mul, Nat.mul_comm word] at lower
  rw [Nat.add_mul, Nat.one_mul] at upper
  have scaled : excess * 950 ≤ excess * (product / word) := Nat.mul_le_mul_left excess large
  omega

/-- Cutting a quotient to 32 bits keeps its divisor unless it takes something away. -/
theorem div_cut_eq_iff {product rate : ℕ} (positive : 0 < product / rate % 2 ^ 32)
    (small : product / rate % 2 ^ 32 < 2 ^ 31) :
    (rate ≤ product / rate % 2 ^ 32 → product / (product / rate % 2 ^ 32) = rate) ↔
      product / rate < 2 ^ 32 ∨ product / rate % 2 ^ 32 < rate := by
  have rate_pos : 0 < rate := Nat.pos_of_ne_zero fun zero => by simp [zero] at positive
  constructor
  · intro back
    by_contra cut
    rw [not_or, Nat.not_lt, Nat.not_lt] at cut
    rcases cut with ⟨large, le⟩
    have below : product < (rate + 1) * (product / rate % 2 ^ 32) :=
      (Nat.div_lt_iff_lt_mul positive).mp (by have := back le; omega)
    have cast : product / rate % 2 ^ 32 + 2 ^ 32 ≤ product / rate := by omega
    have spread : (product / rate % 2 ^ 32 + 2 ^ 32) * rate ≤ product :=
      Nat.le_trans (Nat.mul_le_mul_right rate cast) (Nat.div_mul_le_self product rate)
    rw [Nat.add_mul, Nat.mul_comm _ rate] at spread
    rw [Nat.add_mul, Nat.one_mul] at below
    omega
  · rintro (whole | under) le
    · rw [Nat.mod_eq_of_lt whole] at le ⊢
      exact div_div_eq rate_pos le
    · omega

/-- A rate in the band is not clamped. -/
def InBand (pll : Ar9311PixelPll) (rate : ℕ) : Prop := pll.lo ≤ rate ∧ rate ≤ pll.hi

section Clamp

variable {pll : Ar9311PixelPll} {rate : ℕ}

theorem clamp_of_inBand (band : InBand pll rate) : ar9311PixelPllClamp pll rate = rate := by
  rcases band with ⟨low, high⟩
  simp only [ar9311PixelPllClamp]
  repeat' split
  all_goals omega

/-- A PLL that booted below a kilohertz has a band of nothing but zero. -/
theorem lo_of_clamp_pos (positive : 0 < ar9311PixelPllClamp pll rate) : 950 ≤ pll.lo := by
  simp only [ar9311PixelPllClamp, Ar9311PixelPll.lo, Ar9311PixelPll.hi, arPllBandPermille]
    at positive ⊢
  by_cases booted : pll.bootRate / 1000 = 0
  · simp only [booted] at positive
    repeat' split at positive
    all_goals omega
  · have word := pll.bootRate_lt
    rw [Nat.mod_eq_of_lt (by omega)]
    omega

end Clamp

/-! ### What a call does -/

/-- The PLL with a word in its register. -/
def Ar9311PixelPll.holding (pll : Ar9311PixelPll) (word : ℕ) : Ar9311PixelPll :=
  { pll with fbword := word }

/-- The loop ends, having ramped the register to a word. -/
def RampsTo (pll : Ar9311PixelPll) (rate parentRate word : ℕ) : Prop :=
  ∃ fuel result, ar9311PixelPllSetRate fuel pll rate parentRate = some result ∧ result.ret = 0 ∧
    Ramp word pll.fbword result.writes ∧ result.pll = pll.holding word

/-- What a change of the rate promises. -/
structure Steers (pll : Ar9311PixelPll) (rate parentRate : ℕ) : Prop where
  ramps : RampsTo pll rate parentRate (targetWord pll rate parentRate)
  reports : ar9311PixelPllClamp pll rate ≤ targetWord pll rate parentRate →
    ar9311PixelPllRecalcRate (pll.holding (targetWord pll rate parentRate)) parentRate =
      ar9311PixelPllClamp pll rate
  settled : ∀ word < 2 ^ 31,
    InBand pll (ar9311PixelPllRecalcRate (pll.holding word) parentRate) →
    ∃ next, RampsTo (pll.holding word)
        (ar9311PixelPllRecalcRate (pll.holding word) parentRate) parentRate next ∧
      ar9311PixelPllRecalcRate (pll.holding next) parentRate =
        ar9311PixelPllRecalcRate (pll.holding word) parentRate

theorem rampsTo_target {pll : Ar9311PixelPll} {rate parentRate : ℕ} (clocked : parentRate ≠ 0)
    (fits : pll.fbword < 2 ^ 32) (room : Reachable (targetWord pll rate parentRate)) :
    RampsTo pll rate parentRate (targetWord pll rate parentRate) := by
  rcases exists_slew room pll.fbword fits with ⟨fuel, writes, ends, ramp⟩
  refine ⟨fuel, ⟨0, writes, pll.holding (targetWord pll rate parentRate)⟩, ?_, rfl, ramp, rfl⟩
  have arrives : writes.getLast?.getD pll.fbword = targetWord pll rate parentRate := by
    rw [← ramp.arrives, List.getLast_eq_getLastD, List.getLastD_eq_getLast?]
  simp only [ar9311PixelPllSetRate, if_neg clocked, ends, Option.map_some, arrives]
  rfl

theorem recalcRate_holding {pll : Ar9311PixelPll} {word : ℕ} (running : 0 < word)
    (parentRate : ℕ) :
    ar9311PixelPllRecalcRate (pll.holding word) parentRate = pllProduct parentRate / word :=
  if_neg (Nat.ne_of_gt running)

/-- Asking for what is reported settles on a word that reports it as well. -/
theorem settled {pll : Ar9311PixelPll} {parentRate : ℕ} (clocked : parentRate ≠ 0)
    (band : 950 ≤ pll.lo) {word : ℕ} (small : word < 2 ^ 31)
    (inBand : InBand pll (ar9311PixelPllRecalcRate (pll.holding word) parentRate)) :
    ∃ next, RampsTo (pll.holding word)
        (ar9311PixelPllRecalcRate (pll.holding word) parentRate) parentRate next ∧
      ar9311PixelPllRecalcRate (pll.holding next) parentRate =
        ar9311PixelPllRecalcRate (pll.holding word) parentRate := by
  have large : 950 ≤ ar9311PixelPllRecalcRate (pll.holding word) parentRate :=
    Nat.le_trans band inBand.1
  have running : 0 < word := by
    apply Nat.pos_of_ne_zero
    rintro rfl
    simp [ar9311PixelPllRecalcRate, Ar9311PixelPll.holding] at large
  rw [recalcRate_holding running] at inBand large ⊢
  rcases div_div_lt large with ⟨atLeast, atMost⟩
  have target : targetWord (pll.holding word) (pllProduct parentRate / word) parentRate =
      pllProduct parentRate / (pllProduct parentRate / word) := by
    have same : ar9311PixelPllClamp (pll.holding word) (pllProduct parentRate / word) =
        pllProduct parentRate / word := clamp_of_inBand inBand
    rw [targetWord, same, Nat.mod_eq_of_lt (by omega)]
  have room : Reachable
      (targetWord (pll.holding word) (pllProduct parentRate / word) parentRate) := by
    simp only [target, Reachable, arPllSlewShift, Nat.shiftRight_eq_div_pow]
    omega
  refine ⟨_, rampsTo_target clocked (Nat.lt_trans small (by decide)) room, ?_⟩
  rw [target, recalcRate_holding (by omega)]
  exact div_div_div_eq (by omega)

/-- A change of the rate from a word below `2 ^ 31` to another keeps its promises exactly if the
division for the word fits 32 bits, or what the cast leaves of it is below the rate. -/
theorem ar9311PixelPllSetRate_steers_iff {pll : Ar9311PixelPll} {rate parentRate : ℕ}
    (cur : pll.fbword < 2 ^ 31) (clocked : parentRate ≠ 0)
    (positive : 0 < targetWord pll rate parentRate)
    (small : targetWord pll rate parentRate < 2 ^ 31) :
    Steers pll rate parentRate ↔
      pllProduct parentRate / ar9311PixelPllClamp pll rate < 2 ^ 32 ∨
        pllProduct parentRate / ar9311PixelPllClamp pll rate % 2 ^ 32 <
          ar9311PixelPllClamp pll rate := by
  have clamped : 0 < ar9311PixelPllClamp pll rate := by
    apply Nat.pos_of_ne_zero
    intro zero
    simp [targetWord, zero] at positive
  have cut := div_cut_eq_iff positive small
  constructor
  · intro steers
    apply cut.mp
    intro le
    exact (recalcRate_holding positive parentRate).symm.trans (steers.reports le)
  · intro fits
    have room : Reachable (targetWord pll rate parentRate) := by
      simp only [Reachable, arPllSlewShift, Nat.shiftRight_eq_div_pow]
      omega
    refine ⟨rampsTo_target clocked (Nat.lt_trans cur (by decide)) room, ?_, ?_⟩
    · intro le
      rw [recalcRate_holding positive]
      exact cut.mpr fits le
    · intro word below inBand
      exact settled clocked (lo_of_clamp_pos clamped) below inBand

/-- The stock word, from a 24 MHz oscillator. -/
def stockPll : Ar9311PixelPll := ⟨0x0592eab1, 594002011, by decide⟩

theorem ar9311PixelPllSetRate_steers_stock :
    Steers stockPll 600000000 24000000 ↔
      pllProduct 24000000 / ar9311PixelPllClamp stockPll 600000000 < 2 ^ 32 ∨
        pllProduct 24000000 / ar9311PixelPllClamp stockPll 600000000 % 2 ^ 32 <
          ar9311PixelPllClamp stockPll 600000000 :=
  ar9311PixelPllSetRate_steers_iff (by decide) (by decide) (by decide) (by decide)

/-- Booted with the largest word, the PLL runs at 12.9 MHz, and a word for 12.3 MHz has 33 bits. -/
theorem not_ar9311PixelPllSetRate_steers :
    ¬∀ (pll : Ar9311PixelPll) (rate parentRate : ℕ), pll.fbword < 2 ^ 31 → parentRate ≠ 0 →
      0 < targetWord pll rate parentRate → targetWord pll rate parentRate < 2 ^ 31 →
      Steers pll rate parentRate := by
  intro steers
  have slow := steers ⟨1, 12933218, by decide⟩ 12300000 24000000 (by decide) (by decide) (by decide)
    (by decide)
  exact absurd (slow.reports (by decide)) (by decide)

end MlKernel.Clk
