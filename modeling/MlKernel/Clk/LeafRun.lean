import MlKernel.Clk.Leaf
import MlKernel.Lib.Refinement

/-!
# The leaves as independent clocks

Leaves share registers: most registers carry one in each half, and the pixel clock shares one with
a leaf.  Through the operations that the probe registers, each leaf behaves like a cell of its own,
and what the camera leaves were given at probe stays.
-/

namespace MlKernel.Clk

open BitField FieldBank

/-- What a leaf is set to. -/
@[ext]
structure LeafState where
  parent : BitVec 32
  divider : Option (BitVec 32)
  enabled : Bool

def leafState (half : Ar9311LeafHalf) (v : BitVec 32) : LeafState where
  parent := ar9311LeafGetParent half v
  divider := leafDivField half v
  enabled := ar9311LeafIsEnabled half v

/-! ### Halves -/

/-- A leaf of one half, whose fields start at a base. -/
def halfState (base : ℕ) (v : BitVec 32) : LeafState where
  parent := (v.extractLsb' (base + 8) 3).setWidth 32
  divider := some ((v.extractLsb' base 7).setWidth 32)
  enabled := v.getLsbD (base + 12)

section Halves

variable {v v' : BitVec 32} {base : ℕ}

theorem decide_and_bit {n : ℕ} (inside : n < 32) :
    decide (v &&& BIT n ≠ 0) = v.getLsbD n := by
  cases held : v.getLsbD n
  · simpa using (and_bit_eq_zero inside).mpr held
  · have set : ¬v &&& BIT n = 0 := (and_bit_eq_zero inside).not.mpr (by simp [held])
    simpa using set

theorem leafState_lo : leafState .lo v = halfState 0 v := by
  ext1
  · exact shift_and v 8 3
  · apply congrArg some
    exact shift_and v 0 7
  · exact decide_and_bit (by decide)

theorem leafState_hi : leafState .hi v = halfState 16 v := by
  ext1
  · exact shift_and v 24 3
  · apply congrArg some
    exact shift_and v 16 7
  · exact decide_and_bit (by decide)

theorem halfState_parent_congr
    (same : ∀ i < 3, v.getLsbD (base + 8 + i) = v'.getLsbD (base + 8 + i)) :
    (halfState base v).parent = (halfState base v').parent := by
  simp only [halfState, extract_congr same]

theorem halfState_divider_congr
    (same : ∀ i < 7, v.getLsbD (base + i) = v'.getLsbD (base + i)) :
    (halfState base v).divider = (halfState base v').divider := by
  simp only [halfState, extract_congr same]

theorem halfState_congr (same : ∀ i, base ≤ i → i < base + 16 → v.getLsbD i = v'.getLsbD i) :
    halfState base v = halfState base v' := by
  ext1
  · apply halfState_parent_congr
    intro i inside
    exact same _ (by omega) (by omega)
  · apply halfState_divider_congr
    intro i inside
    exact same _ (by omega) (by omega)
  · exact same _ (by omega) (by omega)

/-! ### The three writes -/

theorem getLsbD_gate {n : ℕ} (inside : n < 32) (on : Bool) (i : ℕ) :
    (if on then v ||| BIT n else v &&& ~~~BIT n).getLsbD i =
      if n = i then on else v.getLsbD i := by
  cases on
  · simp only [Bool.false_eq_true, if_false, getLsbD_and_not_bit]
    by_cases same : n = i
    · simp [same]
    · simp [same]
  · simp only [if_true]
    by_cases same : n = i
    · subst same
      simp [getLsbD_or_bit v inside]
    · simp [BitVec.getLsbD_or, BIT, getLsbD_bit, same]

theorem halfState_gate (fits : base + 12 < 32) (on : Bool) :
    halfState base (if on then v ||| BIT (base + 12) else v &&& ~~~BIT (base + 12)) =
      { halfState base v with enabled := on } := by
  have bits := getLsbD_gate (v := v) fits on
  ext1
  · apply halfState_parent_congr
    intro i inside
    rw [bits, if_neg (by omega)]
  · apply halfState_divider_congr
    intro i inside
    rw [bits, if_neg (by omega)]
  · exact (bits _).trans (if_pos rfl)

/-- A field of a word replaced by a value of its width. -/
def setField (v field : BitVec 32) (lo width : ℕ) : BitVec 32 :=
  (v &&& ~~~(BitVec.ofNat 32 (2 ^ width - 1) <<< lo)) ||| (field <<< lo)

/-- `index & mask` of a byte. -/
def lowBits (index : BitVec 8) (width : ℕ) : BitVec 32 :=
  index.setWidth 32 &&& BitVec.ofNat 32 (2 ^ width - 1)

theorem lowBits_lt (index : BitVec 8) {width : ℕ} (narrow : width ≤ 8) :
    (lowBits index width).toNat < 2 ^ width := by
  have bound : 2 ^ width ≤ 2 ^ 8 := Nat.pow_le_pow_right (by decide) narrow
  have positive := Nat.two_pow_pos width
  rw [lowBits, BitVec.toNat_and, BitVec.toNat_ofNat, Nat.mod_eq_of_lt (by omega)]
  exact Nat.lt_of_le_of_lt Nat.and_le_right (by omega)

section SetField

variable {field : BitVec 32} {lo width : ℕ} (fits : lo + width ≤ 32)
  (small : field.toNat < 2 ^ width)

include fits small

theorem getLsbD_setField_outside {i : ℕ} (outside : i < lo ∨ lo + width ≤ i) :
    (setField v field lo width).getLsbD i = v.getLsbD i :=
  (getLsbD_setField fits small i).trans (if_neg (by omega))

theorem extract_setField :
    ((setField v field lo width).extractLsb' lo width).setWidth 32 = field := by
  apply BitVec.eq_of_getLsbD_eq
  intro i inside
  rw [BitVec.getLsbD_setWidth, BitVec.getLsbD_extractLsb', setField, getLsbD_setField fits small]
  by_cases own : i < width
  · simp [own, inside]
  · simp [own, getLsbD_of_lt small (Nat.le_of_not_lt own)]

end SetField

theorem halfState_setParent (fits : base + 16 ≤ 32) (index : BitVec 8) :
    halfState base (setField v (lowBits index 3) (base + 8) 3) =
      { halfState base v with parent := lowBits index 3 } := by
  have small := lowBits_lt index (show 3 ≤ 8 by decide)
  ext1
  · exact extract_setField (by omega) small
  · apply halfState_divider_congr
    intro i inside
    exact getLsbD_setField_outside (by omega) small (by omega)
  · exact getLsbD_setField_outside (by omega) small (by omega)

theorem halfState_setDivider (fits : base + 16 ≤ 32) (div : BitVec 8) :
    halfState base (setField v (lowBits div 7) base 7) =
      { halfState base v with divider := some (lowBits div 7) } := by
  have small := lowBits_lt div (show 7 ≤ 8 by decide)
  ext1
  · apply halfState_parent_congr
    intro i inside
    exact getLsbD_setField_outside (by omega) small (by omega)
  · exact congrArg some (extract_setField (by omega) small)
  · exact getLsbD_setField_outside (by omega) small (by omega)

/-- A pair written in one go is the parent and then the divider. -/
theorem pair_eq_setField (sel div : BitVec 8) :
    ((v &&& ~~~(7#32 <<< (base + 8))) &&& ~~~(127#32 <<< base)) |||
        (lowBits sel 3 <<< (base + 8)) ||| (lowBits div 7 <<< base) =
      setField (setField v (lowBits sel 3) (base + 8) 3) (lowBits div 7) base 7 := by
  have apart : (lowBits sel 3 <<< (base + 8)) &&& ~~~(127#32 <<< base) =
      lowBits sel 3 <<< (base + 8) := by
    apply BitVec.eq_of_getLsbD_eq
    intro i inside
    have ones := getLsbD_ones (w := 32) 7 (i - base)
    simp only [Nat.reducePow, Nat.reduceSub] at ones
    simp only [BitVec.getLsbD_and, BitVec.getLsbD_not, BitVec.getLsbD_shiftLeft, ones]
    by_cases below : i < base + 8
    · simp [below]
    · simp [show ¬i - base < 7 by omega, inside]
  unfold setField
  rw [BitVec.and_or_distrib_right]
  simp only [Nat.reducePow, Nat.reduceSub]
  rw [apart]

end Halves

/-! ### The bits of a leaf -/

def Ar9311LeafDesc.bits (d : Ar9311LeafDesc) : BitRange CguReg :=
  match d.half with
  | .lo | .bit15 => ⟨d.reg, 0, 16⟩
  | .hi | .bit31 => ⟨d.reg, 16, 16⟩
  | .dual => ⟨d.reg, 0, 32⟩

def Ar9311LeafDesc.state (d : Ar9311LeafDesc) (regs : CguRegs) : LeafState :=
  leafState d.half (regs d.reg)

theorem Ar9311LeafDesc.bits_reg (d : Ar9311LeafDesc) : d.bits.reg = d.reg := by
  unfold bits
  split <;> rfl

theorem Ar9311LeafDesc.state_congr {d : Ar9311LeafDesc} {regs regs' : CguRegs}
    (same : ∀ i, d.bits.Owns d.reg i → (regs d.reg).getLsbD i = (regs' d.reg).getLsbD i) :
    d.state regs = d.state regs' := by
  unfold state
  cases half : d.half with
  | lo =>
      rw [leafState_lo, leafState_lo]
      apply halfState_congr
      intro i low high
      exact same i (by simp [bits, half, BitRange.Owns]; omega)
  | hi =>
      rw [leafState_hi, leafState_hi]
      apply halfState_congr
      intro i low high
      exact same i (by simp [bits, half, BitRange.Owns]; omega)
  | dual =>
      have whole : regs d.reg = regs' d.reg := by
        apply BitVec.eq_of_getLsbD_eq
        intro i inside
        exact same i (by simpa [bits, half, BitRange.Owns] using inside)
      rw [whole]
  | bit15 =>
      have bit := same 15 (by simp [bits, half, BitRange.Owns])
      simp only [leafState, ar9311LeafGetParent, leafDivField, ar9311LeafDivShift,
        ar9311LeafIsEnabled, decide_and_bit (show 15 < 32 by decide), bit, Option.map_none]
  | bit31 =>
      have bit := same 31 (by simp [bits, half, BitRange.Owns])
      simp only [leafState, ar9311LeafGetParent, leafDivField, ar9311LeafDivShift,
        ar9311LeafIsEnabled, decide_and_bit (show 31 < 32 by decide), bit, Option.map_none]

/-- A write that keeps to the bits of one leaf does not show on a leaf apart from it. -/
theorem Ar9311LeafDesc.state_frame {d e : Ar9311LeafDesc} (apart : d.bits.Apart e.bits)
    {regs regs' : CguRegs}
    (frame : ∀ reg i, ¬d.bits.Owns reg i → (regs' reg).getLsbD i = (regs reg).getLsbD i) :
    e.state regs' = e.state regs := by
  apply state_congr
  intro i owned
  apply frame
  intro ownedToo
  exact apart _ _ ownedToo owned

/-! ### A leaf of one half -/

/-- Where the fields of the leaf start. -/
inductive Ar9311LeafDesc.Half (d : Ar9311LeafDesc) : ℕ → Prop
  | lo (half : d.half = .lo) : d.Half 0
  | hi (half : d.half = .hi) : d.Half 16

section OneHalf

variable {d : Ar9311LeafDesc} {base : ℕ} {regs : CguRegs}

theorem Ar9311LeafDesc.Half.fits (half : d.Half base) : base + 16 ≤ 32 := by
  cases half <;> decide

theorem Ar9311LeafDesc.Half.state (half : d.Half base) (regs : CguRegs) :
    d.state regs = halfState base (regs d.reg) := by
  cases half with
  | lo half => rw [Ar9311LeafDesc.state, half, leafState_lo]
  | hi half => rw [Ar9311LeafDesc.state, half, leafState_hi]

theorem Ar9311LeafDesc.Half.owns (half : d.Half base) {i : ℕ} :
    d.bits.Owns d.reg i ↔ base ≤ i ∧ i < base + 16 := by
  cases half with
  | lo half => simp [bits, half, BitRange.Owns]
  | hi half => simp [bits, half, BitRange.Owns]

theorem Ar9311LeafDesc.Half.setGate (half : d.Half base) (on : Bool) (v : BitVec 32) :
    ar9311LeafSetGate d.half on v =
      some (if on then v ||| BIT (base + 12) else v &&& ~~~BIT (base + 12)) := by
  cases half with
  | lo half => simp only [half, ar9311LeafSetGate, ar9311LeafGateBit, Option.map_some]
  | hi half => simp only [half, ar9311LeafSetGate, ar9311LeafGateBit, Option.map_some]

theorem Ar9311LeafDesc.Half.setParent (half : d.Half base) (index : BitVec 8) (v : BitVec 32) :
    ar9311LeafSetParent d.half index v = some (setField v (lowBits index 3) (base + 8) 3) := by
  cases half with
  | lo half => rw [half]; rfl
  | hi half => rw [half]; rfl

theorem Ar9311LeafDesc.Half.put (half : d.Half base) (c : Ar9311CameraDefault) (v : BitVec 32) :
    c.put d.half v =
      some (setField (setField v (lowBits c.sel 3) (base + 8) 3) (lowBits c.div 7) base 7) := by
  rw [← pair_eq_setField]
  cases half with
  | lo half => rw [half]; rfl
  | hi half => rw [half]; rfl

/-- What a write does to its own leaf, and that it keeps to the leaf's bits. -/
structure Ar9311LeafDesc.Sets (d : Ar9311LeafDesc) (put : BitVec 32 → Option (BitVec 32))
    (change : LeafState → LeafState) : Prop where
  answers : ∀ regs, (d.modify put regs).1 = 0
  own : ∀ regs, d.state (d.modify put regs).2 = change (d.state regs)
  frame : ∀ regs reg i, ¬d.bits.Owns reg i →
    ((d.modify put regs).2 reg).getLsbD i = (regs reg).getLsbD i

theorem Ar9311LeafDesc.Half.sets (half : d.Half base) {put : BitVec 32 → Option (BitVec 32)}
    {word : BitVec 32 → BitVec 32} {change : LeafState → LeafState}
    (written : ∀ v, put v = some (word v))
    (own : ∀ v, halfState base (word v) = change (halfState base v))
    (keeps : ∀ v i, ¬(base ≤ i ∧ i < base + 16) → (word v).getLsbD i = v.getLsbD i) :
    d.Sets put change where
  answers regs := by simp [modify, written]
  own regs := by
    rw [half.state, half.state, ← own]
    simp [modify, written]
  frame regs reg i outside := by
    have update : (d.modify put regs).2 = Function.update regs d.reg (word (regs d.reg)) := by
      simp [modify, written]
    rw [update]
    by_cases here : reg = d.reg
    · subst here
      rw [Function.update_self]
      exact keeps _ _ (half.owns.not.mp outside)
    · rw [Function.update_of_ne here]

theorem Ar9311LeafDesc.Half.sets_gate (half : d.Half base) (on : Bool) :
    d.Sets (ar9311LeafSetGate d.half on) fun state => { state with enabled := on } := by
  have fits := half.fits
  apply half.sets (half.setGate on)
  · intro v
    exact halfState_gate (by omega) on
  · intro v i outside
    exact (getLsbD_gate (by omega) on i).trans (if_neg (by omega))

theorem Ar9311LeafDesc.Half.sets_parent (half : d.Half base) (index : BitVec 8) :
    d.Sets (ar9311LeafSetParent d.half index) fun state =>
      { state with parent := lowBits index 3 } := by
  have fits := half.fits
  apply half.sets (half.setParent index)
  · intro v
    exact halfState_setParent fits index
  · intro v i outside
    exact getLsbD_setField_outside (by omega) (lowBits_lt index (by decide)) (by omega)

theorem Ar9311LeafDesc.Half.sets_pair (half : d.Half base) (c : Ar9311CameraDefault) :
    d.Sets (c.put d.half) fun state =>
      { state with parent := lowBits c.sel 3, divider := some (lowBits c.div 7) } := by
  have fits := half.fits
  apply half.sets (half.put c)
  · intro v
    rw [halfState_setDivider fits, halfState_setParent fits]
  · intro v i outside
    have first : (setField v (lowBits c.sel 3) (base + 8) 3).getLsbD i = v.getLsbD i :=
      getLsbD_setField_outside (by omega) (lowBits_lt c.sel (by decide)) (by omega)
    rw [← first]
    exact getLsbD_setField_outside (by omega) (lowBits_lt c.div (by decide)) (by omega)

end OneHalf

/-! ### The table -/

abbrev LeafId := Fin ar9311Leaves.length

def leaf (id : LeafId) : Ar9311LeafDesc := ar9311Leaves.get id

/-- A check that two runs of bits have none in common. -/
def clear (field other : BitRange CguReg) : Bool :=
  field.reg ≠ other.reg || field.lo + field.width ≤ other.lo || other.lo + other.width ≤ field.lo

theorem apart_of_clear {field other : BitRange CguReg} (checked : clear field other = true) :
    field.Apart other := by
  rintro reg i ⟨rfl, low, high⟩ ⟨same, low', high'⟩
  simp only [clear, Bool.or_eq_true, decide_eq_true_eq] at checked
  rcases checked with (different | below) | above
  · exact different same.symm
  · omega
  · omega

theorem leaf_apart {id other : LeafId} (different : id ≠ other) :
    (leaf id).bits.Apart (leaf other).bits := by
  have checked : ∀ id other : LeafId, id ≠ other →
      clear (leaf id).bits (leaf other).bits = true := by decide +kernel
  exact apart_of_clear (checked id other different)

/-- Only leaves of one half have a gate to operate or a parent to set. -/
theorem leaf_half {id : LeafId} (writable : (leaf id).ops ≠ .leafOps) :
    ∃ base, (leaf id).Half base := by
  have checked : ∀ id : LeafId, (leaf id).ops ≠ .leafOps →
      (leaf id).half = .lo ∨ (leaf id).half = .hi := by decide +kernel
  rcases checked id writable with lo | hi
  · exact ⟨0, .lo lo⟩
  · exact ⟨16, .hi hi⟩

/-! ### The clock generator as a whole -/

/-- The register of `cgu_dvp_sub_1_2x_pix_clk`. -/
def arPixCrgReg : CguReg := ⟨1, 0x4c⟩

def cpuReg : CguReg := ⟨0, 0x08⟩

def cpuMirror : CguReg := ⟨0, 0x408⟩

def arPllFbword : CguReg := ⟨2, 0x410⟩

/-- What the clock framework calls. -/
inductive CguCall
  | enable (id : LeafId)
  | disable (id : LeafId)
  | setParent (id : LeafId) (index : BitVec 8)
  /-- the gate of the pixel clock, which the framework's own gate operates -/
  | pixelGate (on : Bool)
  | cpuProgram (call : CpuCall)
  /-- one step of the ramp of the pixel PLL -/
  | pllWord (word : BitVec 32)

/-- A call of an operation that is not in the leaf's table is not made. -/
def CguCall.step (pixelGate : Bool → BitVec 32 → BitVec 32) (regs : CguRegs) :
    CguCall → ℤ × CguRegs
  | enable id => if (leaf id).ops.gates then ar9311LeafEnable (leaf id) regs else (0, regs)
  | disable id => if (leaf id).ops.gates then (0, ar9311LeafDisable (leaf id) regs) else (0, regs)
  | setParent id index =>
      if (leaf id).ops.setsParent then
        (leaf id).modify (ar9311LeafSetParent (leaf id).half index) regs
      else (0, regs)
  | .pixelGate on => (0, Function.update regs arPixCrgReg (pixelGate on (regs arPixCrgReg)))
  | cpuProgram call =>
      let cpu := call.program ⟨regs cpuReg, regs cpuMirror⟩
      (0, Function.update (Function.update regs cpuReg cpu.reg) cpuMirror cpu.mirror)
  | pllWord word => (0, Function.update regs arPllFbword word)

/-- The settings as cells of their own. -/
@[ext]
structure CguView where
  leaf : LeafId → LeafState
  pixelParent : BitVec 3
  cpu : Ar9311CpuClk
  pllWord : BitVec 32

def cguView (regs : CguRegs) : CguView where
  leaf id := (leaf id).state regs
  pixelParent := (regs arPixCrgReg).extractLsb' 8 3
  cpu := ⟨regs cpuReg, regs cpuMirror⟩
  pllWord := regs arPllFbword

def CguView.setLeaf (view : CguView) (id : LeafId) (change : LeafState → LeafState) : CguView :=
  { view with leaf := Function.update view.leaf id (change (view.leaf id)) }

/-- Every call sets its own cell and does not fail. -/
def CguCall.cellStep (view : CguView) : CguCall → ℤ × CguView
  | enable id =>
      (0, if (leaf id).ops.gates then view.setLeaf id fun state => { state with enabled := true }
        else view)
  | disable id =>
      (0, if (leaf id).ops.gates then view.setLeaf id fun state => { state with enabled := false }
        else view)
  | setParent id index =>
      (0, if (leaf id).ops.setsParent then
          view.setLeaf id fun state => { state with parent := lowBits index 3 }
        else view)
  | .pixelGate _ => (0, view)
  | cpuProgram call => (0, { view with cpu := call.program view.cpu })
  | pllWord word => (0, { view with pllWord := word })

/-! ### Refinement -/

/-- The registers of no leaf. -/
theorem leaf_reg_ne (id : LeafId) :
    (leaf id).reg ≠ cpuReg ∧ (leaf id).reg ≠ cpuMirror ∧ (leaf id).reg ≠ arPllFbword := by
  have checked : ∀ id : LeafId,
      (leaf id).reg ≠ cpuReg ∧ (leaf id).reg ≠ cpuMirror ∧ (leaf id).reg ≠ arPllFbword := by
    decide +kernel
  exact checked id

/-- The pixel clock has the low half of its register. -/
def pixelBits : BitRange CguReg := ⟨arPixCrgReg, 0, 16⟩

theorem pixel_apart (id : LeafId) : (leaf id).bits.Apart pixelBits := by
  have checked : ∀ id : LeafId, clear (leaf id).bits pixelBits = true := by decide +kernel
  exact apart_of_clear (checked id)

section Refinement

variable {regs regs' : CguRegs} {id : LeafId}

theorem state_update_other {reg : CguReg} (other : (leaf id).reg ≠ reg) (v : BitVec 32) :
    (leaf id).state (Function.update regs reg v) = (leaf id).state regs := by
  simp [Ar9311LeafDesc.state, Function.update_of_ne other]

/-- A word none of whose bits is a leaf's. -/
theorem word_of_frame {reg : CguReg} (other : (leaf id).reg ≠ reg)
    (frame : ∀ reg i, ¬(leaf id).bits.Owns reg i → (regs' reg).getLsbD i = (regs reg).getLsbD i) :
    regs' reg = regs reg := by
  apply BitVec.eq_of_getLsbD_eq
  intro i _
  apply frame
  rintro ⟨same, -⟩
  exact other ((leaf id).bits_reg.symm.trans same)

theorem cguView_modify {put : BitVec 32 → Option (BitVec 32)} {change : LeafState → LeafState}
    (sets : (leaf id).Sets put change) (regs : CguRegs) :
    cguView ((leaf id).modify put regs).2 = (cguView regs).setLeaf id change := by
  have frame := sets.frame regs
  rcases leaf_reg_ne id with ⟨notCpu, notMirror, notPll⟩
  ext1
  · funext other
    by_cases same : other = id
    · subst same
      simpa [cguView, CguView.setLeaf] using sets.own regs
    · have apart := leaf_apart (Ne.symm same)
      simpa [cguView, CguView.setLeaf, same] using Ar9311LeafDesc.state_frame apart frame
  · apply extract_congr
    intro i inside
    apply frame
    intro owned
    exact pixel_apart id _ _ owned ⟨rfl, Nat.zero_le _, by simp [pixelBits]; omega⟩
  · exact congrArg₂ Ar9311CpuClk.mk (word_of_frame notCpu frame) (word_of_frame notMirror frame)
  · exact word_of_frame notPll frame

/-- The framework's gate of the pixel clock writes its gate bit. -/
def WritesGateBit (pixelGate : Bool → BitVec 32 → BitVec 32) : Prop :=
  ∀ on v i, i ≠ 12 → (pixelGate on v).getLsbD i = v.getLsbD i

theorem cguView_pixelGate {pixelGate : Bool → BitVec 32 → BitVec 32}
    (gate : WritesGateBit pixelGate) (on : Bool) (regs : CguRegs) :
    cguView (Function.update regs arPixCrgReg (pixelGate on (regs arPixCrgReg))) =
      cguView regs := by
  ext1
  · funext id
    apply Ar9311LeafDesc.state_congr
    intro i owned
    by_cases shared : (leaf id).reg = arPixCrgReg
    · have high : ¬i < 16 := by
        intro low
        exact pixel_apart id _ _ owned ⟨shared.symm, Nat.zero_le _, by simpa [pixelBits] using low⟩
      rw [shared, Function.update_self]
      exact gate on _ i (by omega)
    · rw [Function.update_of_ne shared]
  · apply extract_congr
    intro i inside
    rw [Function.update_self]
    exact gate on _ _ (by omega)
  · rfl
  · rfl

theorem cguView_cpuProgram (call : CpuCall) (regs : CguRegs) :
    cguView (Function.update (Function.update regs cpuReg
        (call.program ⟨regs cpuReg, regs cpuMirror⟩).reg) cpuMirror
        (call.program ⟨regs cpuReg, regs cpuMirror⟩).mirror) =
      { cguView regs with cpu := call.program (cguView regs).cpu } := by
  ext1
  · funext id
    rcases leaf_reg_ne id with ⟨notCpu, notMirror, -⟩
    exact (state_update_other notMirror _).trans (state_update_other notCpu _)
  · rfl
  · rfl
  · rfl

theorem cguView_pllWord (word : BitVec 32) (regs : CguRegs) :
    cguView (Function.update regs arPllFbword word) =
      { cguView regs with pllWord := word } := by
  ext1
  · funext id
    exact state_update_other (leaf_reg_ne id).2.2 _
  · rfl
  · rfl
  · rfl

theorem gates_half (gates : (leaf id).ops.gates = true) : ∃ base, (leaf id).Half base := by
  apply leaf_half
  intro plain
  simp [plain, Ar9311LeafOps.gates] at gates

theorem setsParent_half (sets : (leaf id).ops.setsParent = true) :
    ∃ base, (leaf id).Half base := by
  apply leaf_half
  intro plain
  simp [plain, Ar9311LeafOps.setsParent] at sets

/-- One call: it answers 0, and sets what its cell is set to. -/
theorem CguCall.step_view {pixelGate : Bool → BitVec 32 → BitVec 32}
    (gate : WritesGateBit pixelGate) (regs : CguRegs) (call : CguCall) :
    (call.step pixelGate regs).1 = (call.cellStep (cguView regs)).1 ∧
      cguView (call.step pixelGate regs).2 = (call.cellStep (cguView regs)).2 := by
  cases call with
  | enable id =>
      by_cases gates : (leaf id).ops.gates = true
      · rcases gates_half gates with ⟨base, half⟩
        have sets := half.sets_gate true
        simp only [step, cellStep, gates, if_true, ar9311LeafEnable]
        exact ⟨sets.answers regs, cguView_modify sets regs⟩
      · simp [step, cellStep, gates]
  | disable id =>
      by_cases gates : (leaf id).ops.gates = true
      · rcases gates_half gates with ⟨base, half⟩
        have sets := half.sets_gate false
        simp only [step, cellStep, gates, if_true, ar9311LeafDisable]
        exact ⟨trivial, cguView_modify sets regs⟩
      · simp [step, cellStep, gates]
  | setParent id index =>
      by_cases has : (leaf id).ops.setsParent = true
      · rcases setsParent_half has with ⟨base, half⟩
        have sets := half.sets_parent index
        simp only [step, cellStep, has, if_true]
        exact ⟨sets.answers regs, cguView_modify sets regs⟩
      · simp [step, cellStep, has]
  | pixelGate on => exact ⟨rfl, cguView_pixelGate gate on regs⟩
  | cpuProgram call => exact ⟨rfl, cguView_cpuProgram call regs⟩
  | pllWord word => exact ⟨rfl, cguView_pllWord word regs⟩

/-- The registers refine the cells: over every run of calls the answers are those of independent
cells, and so is what every leaf reads as. -/
theorem cgu_refines_cells {pixelGate : Bool → BitVec 32 → BitVec 32}
    (gate : WritesGateBit pixelGate) (regs : CguRegs) (calls : List CguCall) :
    (Refinement.run (fun regs (call : CguCall) => call.step pixelGate regs) regs calls).1 =
        (Refinement.run (fun view (call : CguCall) => call.cellStep view) (cguView regs)
          calls).1 ∧
      cguView (Refinement.run (fun regs (call : CguCall) => call.step pixelGate regs) regs
          calls).2 =
        (Refinement.run (fun view (call : CguCall) => call.cellStep view) (cguView regs)
          calls).2 := by
  apply Refinement.run_of_view
  · intro regs call
    exact (call.step_view gate regs).1
  · intro regs call
    exact (call.step_view gate regs).2

/-- A gate that sets or clears its bit. -/
def clkGate (on : Bool) (v : BitVec 32) : BitVec 32 := if on then v ||| BIT 12 else v &&& ~~~BIT 12

theorem clkGate_writes : WritesGateBit clkGate := by
  intro on v i other
  exact (getLsbD_gate (by decide) on i).trans (if_neg (Ne.symm other))

theorem cgu_refines_cells_codec :
    let calls : List CguCall := [.setParent ⟨8, by decide⟩ 1, .pixelGate true,
      .enable ⟨8, by decide⟩, .disable ⟨9, by decide⟩]
    let step := fun regs (call : CguCall) => call.step clkGate regs
    let cells := fun view (call : CguCall) => call.cellStep view
    (Refinement.run step (fun _ => 0) calls).1 =
        (Refinement.run cells (cguView fun _ => 0) calls).1 ∧
      cguView (Refinement.run step (fun _ => 0) calls).2 =
        (Refinement.run cells (cguView fun _ => 0) calls).2 :=
  cgu_refines_cells clkGate_writes _ _

end Refinement

/-! ### The camera leaves after probe -/

/-- The rate of a clock that has no registers here. -/
def cguSource (oscRate : ℕ) (name : ClkName) : Option ℕ :=
  if name = .cguOscinClk then some oscRate else ar9311CguSources.lookup name

/-- The rate that the clock framework computes for a leaf, where its parent is a source. -/
def leafRate (source : ClkName → Option ℕ) (d : Ar9311LeafDesc) (regs : CguRegs) : Option ℕ :=
  let v := regs d.reg
  d.parents[(ar9311LeafGetParent d.half v).toNat]?.bind fun parent =>
    (source parent).map fun parentRate =>
      if d.ops.recalcs then ar9311LeafRecalcRate d.half v parentRate else parentRate

/-- The rates that the camera is validated at. -/
def cameraRates (oscRate : ℕ) : List (ClkName × ℕ) :=
  [(.cguIspClk, 333333333), (.cguIspHdrClk, 333333333), (.cguVifAxiClk, 333333333),
   (.cguMipiCsi0Clk, 200000000), (.cguMipiPcsClk, 125000000), (.cguSensorMclk0, oscRate)]

/-- The camera defaults with their leaves. -/
def cameraIds : List (LeafId × Ar9311CameraDefault) :=
  List.zip [⟨2, by decide⟩, ⟨3, by decide⟩, ⟨4, by decide⟩, ⟨10, by decide⟩, ⟨12, by decide⟩,
    ⟨32, by decide⟩] ar9311CameraDefaults

def CguView.setCamera (view : CguView) (entry : LeafId × Ar9311CameraDefault) : CguView :=
  view.setLeaf entry.1 fun state =>
    { state with parent := lowBits entry.2.sel 3, divider := some (lowBits entry.2.div 7) }

section Camera

variable {regs : CguRegs}

theorem cguView_applyCameraDefault {entry : LeafId × Ar9311CameraDefault}
    (member : entry ∈ cameraIds) (regs : CguRegs) :
    cguView (applyCameraDefault regs entry.2) = (cguView regs).setCamera entry := by
  have found : ar9311Leaves.find? (fun d => d.name = entry.2.name) = some (leaf entry.1) := by
    have checked : ∀ entry ∈ cameraIds,
        ar9311Leaves.find? (fun d => d.name = entry.2.name) = some (leaf entry.1) := by
      decide +kernel
    exact checked entry member
  have writable : (leaf entry.1).ops ≠ .leafOps := by
    have checked : ∀ entry ∈ cameraIds, (leaf entry.1).ops ≠ .leafOps := by decide +kernel
    exact checked entry member
  rcases leaf_half writable with ⟨base, half⟩
  rw [applyCameraDefault, found]
  exact cguView_modify (half.sets_pair entry.2) regs

theorem cguView_applyCameraDefaults (regs : CguRegs) :
    cguView (ar9311ApplyCameraDefaults true regs) =
      cameraIds.foldl CguView.setCamera (cguView regs) := by
  have each : ∀ entries : List (LeafId × Ar9311CameraDefault), (∀ entry ∈ entries,
      entry ∈ cameraIds) → ∀ regs, cguView ((entries.map Prod.snd).foldl applyCameraDefault regs) =
        entries.foldl CguView.setCamera (cguView regs) := by
    intro entries members
    induction entries with
    | nil => exact fun _ => rfl
    | cons entry entries ih =>
        intro regs
        rw [List.map_cons, List.foldl_cons, List.foldl_cons,
          ← cguView_applyCameraDefault (members entry List.mem_cons_self)]
        exact ih (fun other member => members other (List.mem_cons_of_mem _ member)) _
  exact each cameraIds (fun _ member => member) regs

/-- What the defaults set: the camera leaves, in all but their gates. -/
theorem setCamera_foldl (view : CguView) (entries : List (LeafId × Ar9311CameraDefault))
    (distinct : (entries.map Prod.fst).Nodup) :
    (∀ entry ∈ entries, (entries.foldl CguView.setCamera view).leaf entry.1 =
      { view.leaf entry.1 with
        parent := lowBits entry.2.sel 3, divider := some (lowBits entry.2.div 7) }) ∧
    ∀ id ∉ entries.map Prod.fst,
      (entries.foldl CguView.setCamera view).leaf id = view.leaf id := by
  induction entries generalizing view with
  | nil => simp
  | cons first entries ih =>
      rw [List.map_cons, List.nodup_cons] at distinct
      rcases distinct with ⟨fresh, distinctRest⟩
      rcases ih (view.setCamera first) distinctRest with ⟨own, others⟩
      have here : (view.setCamera first).leaf first.1 = { view.leaf first.1 with
          parent := lowBits first.2.sel 3, divider := some (lowBits first.2.div 7) } :=
        Function.update_self ..
      have there : ∀ id, id ≠ first.1 → (view.setCamera first).leaf id = view.leaf id :=
        fun id apart => Function.update_of_ne apart _ _
      rw [List.foldl_cons]
      constructor
      · intro entry member
        rcases List.mem_cons.mp member with rfl | later
        · exact (others _ fresh).trans here
        · have apart : entry.1 ≠ first.1 := by
            intro same
            exact fresh (same ▸ List.mem_map_of_mem later)
          rw [own entry later, there _ apart]
      · intro id absent
        rw [List.map_cons, List.mem_cons, not_or] at absent
        rw [others id absent.2, there id absent.1]

/-- No call moves the parent or the divider of a leaf without `set_parent`. -/
theorem CguCall.cellStep_keeps {id : LeafId} (fixed : (leaf id).ops.setsParent = false)
    (view : CguView) (call : CguCall) :
    ((call.cellStep view).2.leaf id).parent = (view.leaf id).parent ∧
      ((call.cellStep view).2.leaf id).divider = (view.leaf id).divider := by
  have keeps : ∀ other change, (∀ state : LeafState, (change state).parent = state.parent ∧
      (change state).divider = state.divider) →
      ((view.setLeaf other change).leaf id).parent = (view.leaf id).parent ∧
        ((view.setLeaf other change).leaf id).divider = (view.leaf id).divider := by
    intro other change kept
    by_cases same : id = other
    · subst same
      simpa [CguView.setLeaf] using kept (view.leaf id)
    · simp [CguView.setLeaf, same]
  cases call with
  | enable other =>
      simp only [cellStep]
      split
      · exact keeps other _ fun state => ⟨rfl, rfl⟩
      · exact ⟨rfl, rfl⟩
  | disable other =>
      simp only [cellStep]
      split
      · exact keeps other _ fun state => ⟨rfl, rfl⟩
      · exact ⟨rfl, rfl⟩
  | setParent other index =>
      simp only [cellStep]
      split
      · next sets =>
          have apart : id ≠ other := by
            rintro rfl
            simp [fixed] at sets
          simp [CguView.setLeaf, apart]
      · exact ⟨rfl, rfl⟩
  | pixelGate on => exact ⟨rfl, rfl⟩
  | cpuProgram call => exact ⟨rfl, rfl⟩
  | pllWord word => exact ⟨rfl, rfl⟩

/-- The rate of a leaf is a function of what the leaf reads as. -/
theorem leafRate_of_state {source : ClkName → Option ℕ} {d : Ar9311LeafDesc} {regs : CguRegs}
    {parent divider : BitVec 32} (recalcs : d.ops.recalcs = true)
    (sameParent : (d.state regs).parent = parent)
    (sameDivider : (d.state regs).divider = some divider) :
    leafRate source d regs = d.parents[parent.toNat]?.bind fun name =>
      (source name).map fun rate => (rate + ((divider + 1).toNat - 1)) / (divider + 1).toNat := by
  have readParent : ar9311LeafGetParent d.half (regs d.reg) = parent := sameParent
  have readDivider : leafDivField d.half (regs d.reg) = some divider := sameDivider
  simp only [leafRate, readParent, recalcs, if_true, ar9311LeafRecalcRate, readDivider]

section Throughout

variable {pixelGate : Bool → BitVec 32 → BitVec 32} (gate : WritesGateBit pixelGate)

/-- The registers after the probe and the calls. -/
def afterCalls (pixelGate : Bool → BitVec 32 → BitVec 32) (boot : CguRegs)
    (calls : List CguCall) : CguRegs :=
  (Refinement.run (fun regs (call : CguCall) => call.step pixelGate regs)
    (ar9311ApplyCameraDefaults true boot) calls).2

include gate

theorem camera_pair_throughout (boot : CguRegs) (calls : List CguCall)
    {entry : LeafId × Ar9311CameraDefault} (member : entry ∈ cameraIds) :
    ((leaf entry.1).state (afterCalls pixelGate boot calls)).parent = lowBits entry.2.sel 3 ∧
      ((leaf entry.1).state (afterCalls pixelGate boot calls)).divider =
        some (lowBits entry.2.div 7) := by
  have fixed : ∀ entry ∈ cameraIds, (leaf entry.1).ops.setsParent = false := by decide +kernel
  have view := (cgu_refines_cells gate (ar9311ApplyCameraDefaults true boot) calls).2
  have readLeaf := congrArg (fun view : CguView => view.leaf entry.1) view
  have atProbe := (setCamera_foldl (cguView boot) cameraIds (by decide +kernel)).1 entry member
  have kept : ∀ calls : List CguCall, ∀ view : CguView,
      ((Refinement.run (fun view (call : CguCall) => call.cellStep view) view calls).2.leaf
          entry.1).parent = (view.leaf entry.1).parent ∧
        ((Refinement.run (fun view (call : CguCall) => call.cellStep view) view calls).2.leaf
          entry.1).divider = (view.leaf entry.1).divider := by
    intro calls
    induction calls with
    | nil => exact fun _ => ⟨rfl, rfl⟩
    | cons call calls ih =>
        intro view
        rcases call.cellStep_keeps (fixed entry member) view with ⟨parent, divider⟩
        rcases ih (call.cellStep view).2 with ⟨laterParent, laterDivider⟩
        exact ⟨laterParent.trans parent, laterDivider.trans divider⟩
  rcases kept calls (cguView (ar9311ApplyCameraDefaults true boot)) with ⟨parent, divider⟩
  rw [cguView_applyCameraDefaults, atProbe] at parent divider
  rw [cguView_applyCameraDefaults] at readLeaf
  exact ⟨(congrArg LeafState.parent readLeaf).trans parent,
    (congrArg LeafState.divider readLeaf).trans divider⟩

theorem camera_rate_throughout (boot : CguRegs) (calls : List CguCall) (oscRate : ℕ)
    {name : ClkName} {rate : ℕ} (validated : (name, rate) ∈ cameraRates oscRate) :
    ∃ entry ∈ cameraIds, entry.2.name = name ∧
      leafRate (cguSource oscRate) (leaf entry.1) (afterCalls pixelGate boot calls) =
        some rate := by
  have rates : ∀ entry ∈ cameraIds, (leaf entry.1).ops.recalcs = true := by decide +kernel
  have rateOf : ∀ entry ∈ cameraIds,
      leafRate (cguSource oscRate) (leaf entry.1) (afterCalls pixelGate boot calls) =
        (leaf entry.1).parents[(lowBits entry.2.sel 3).toNat]?.bind fun name =>
          (cguSource oscRate name).map fun rate =>
            (rate + ((lowBits entry.2.div 7 + 1).toNat - 1)) /
              (lowBits entry.2.div 7 + 1).toNat := by
    intro entry member
    rcases camera_pair_throughout gate boot calls member with ⟨parent, divider⟩
    exact leafRate_of_state (rates entry member) parent divider
  have each (k : ℕ) (inside : k < cameraIds.length) := rateOf _ (List.getElem_mem inside)
  simp only [cameraRates, List.mem_cons, Prod.mk.injEq, List.not_mem_nil, or_false] at validated
  rcases validated with ⟨rfl, rfl⟩ | ⟨rfl, rfl⟩ | ⟨rfl, rfl⟩ | ⟨rfl, rfl⟩ | ⟨rfl, rfl⟩ | ⟨rfl, rfl⟩
  · exact ⟨_, List.getElem_mem _, rfl, (each 0 (by decide)).trans rfl⟩
  · exact ⟨_, List.getElem_mem _, rfl, (each 1 (by decide)).trans rfl⟩
  · exact ⟨_, List.getElem_mem _, rfl, (each 2 (by decide)).trans rfl⟩
  · exact ⟨_, List.getElem_mem _, rfl, (each 3 (by decide)).trans rfl⟩
  · exact ⟨_, List.getElem_mem _, rfl, (each 4 (by decide)).trans rfl⟩
  · refine ⟨_, List.getElem_mem _, rfl, (each 5 (by decide)).trans ?_⟩
    exact congrArg some (Nat.div_one _)

omit gate in
/-- The defaults move no gate, and nothing of the leaves that are not the camera's. -/
theorem camera_defaults_frame (boot : CguRegs) (id : LeafId) :
    ((leaf id).state (ar9311ApplyCameraDefaults true boot)).enabled =
        ((leaf id).state boot).enabled ∧
      (id ∉ cameraIds.map Prod.fst →
        (leaf id).state (ar9311ApplyCameraDefaults true boot) = (leaf id).state boot) := by
  have view := congrArg (fun view : CguView => view.leaf id) (cguView_applyCameraDefaults boot)
  rcases setCamera_foldl (cguView boot) cameraIds (by decide +kernel) with ⟨own, others⟩
  have outside : id ∉ cameraIds.map Prod.fst →
      (leaf id).state (ar9311ApplyCameraDefaults true boot) = (leaf id).state boot :=
    fun absent => view.trans (others id absent)
  refine ⟨?_, outside⟩
  by_cases member : id ∈ cameraIds.map Prod.fst
  · rcases List.mem_map.mp member with ⟨entry, memberEntry, rfl⟩
    have read := congrArg LeafState.enabled (view.trans (own entry memberEntry))
    exact read
  · exact congrArg LeafState.enabled (outside member)

omit gate in
/-- A leaf that the device trees name is where they name it. -/
theorem leaf_pinned {id : LeafId} {name : ClkName} (pinned : (id.val, name) ∈ ar9311PinnedLeaves) :
    (leaf id).name = name := by
  have passes : ar9311CheckProviderIndices ar9311Leaves = 0 := by decide +kernel
  rcases checkProviderIndices_eq_zero.mp passes _ pinned with ⟨d, found, named⟩
  have same : leaf id = d := Option.some.inj ((List.getElem?_eq_getElem id.isLt).symm.trans found)
  rw [same, named]

/-- From the probe on a board with a camera, whatever the registers booted with and whatever is
called: the camera leaves, at the indices that device trees use, keep the mux and the divider of
their defaults and run at the rates the camera is validated at.  The defaults themselves move no
gate, and no other leaf. -/
theorem camera_rates_throughout (boot : CguRegs) (calls : List CguCall) (oscRate : ℕ) :
    (∀ name rate, (name, rate) ∈ cameraRates oscRate →
      ∃ id, ∃ default ∈ ar9311CameraDefaults, default.name = name ∧
        (id.val, name) ∈ ar9311PinnedLeaves ∧ (leaf id).name = name ∧
        ((leaf id).state (afterCalls pixelGate boot calls)).parent = lowBits default.sel 3 ∧
        ((leaf id).state (afterCalls pixelGate boot calls)).divider =
          some (lowBits default.div 7) ∧
        leafRate (cguSource oscRate) (leaf id) (afterCalls pixelGate boot calls) = some rate) ∧
    ∀ id, ((leaf id).state (ar9311ApplyCameraDefaults true boot)).enabled =
        ((leaf id).state boot).enabled ∧
      (id ∉ cameraIds.map Prod.fst →
        (leaf id).state (ar9311ApplyCameraDefaults true boot) = (leaf id).state boot) := by
  refine ⟨?_, camera_defaults_frame boot⟩
  intro name rate validated
  rcases camera_rate_throughout gate boot calls oscRate validated with
    ⟨⟨id, default⟩, member, rfl, atRate⟩
  have pinned : ∀ entry ∈ cameraIds, (entry.1.val, entry.2.name) ∈ ar9311PinnedLeaves := by
    decide +kernel
  rcases camera_pair_throughout gate boot calls member with ⟨parent, divider⟩
  have atIndex := pinned _ member
  exact ⟨id, default, (List.of_mem_zip member).2, rfl, atIndex, leaf_pinned atIndex, parent,
    divider, atRate⟩

end Throughout

theorem camera_rates_throughout_pcs :
    ∃ id, ∃ default ∈ ar9311CameraDefaults, default.name = .cguMipiPcsClk ∧
      (id.val, .cguMipiPcsClk) ∈ ar9311PinnedLeaves ∧ (leaf id).name = .cguMipiPcsClk ∧
      ((leaf id).state (afterCalls clkGate (fun _ => 0xffffffff)
        [.enable ⟨12, by decide⟩, .setParent ⟨12, by decide⟩ 5])).parent = lowBits default.sel 3 ∧
      ((leaf id).state (afterCalls clkGate (fun _ => 0xffffffff)
        [.enable ⟨12, by decide⟩, .setParent ⟨12, by decide⟩ 5])).divider =
          some (lowBits default.div 7) ∧
      leafRate (cguSource 24000000) (leaf id)
        (afterCalls clkGate (fun _ => 0xffffffff)
          [.enable ⟨12, by decide⟩, .setParent ⟨12, by decide⟩ 5]) = some 125000000 :=
  (camera_rates_throughout clkGate_writes _ _ 24000000).1 _ _ (by decide)

end Camera

/-! ### Exact rate requests -/

section Exact

variable {source : ClkName → Option ℕ} {id : LeafId}

/-- A rate request of a leaf with an exact mux is refused exactly when no parent has the rate, and
the parent it answers with, once set, gives the leaf that rate and leaves every other cell alone. -/
theorem determineRateExact_setParent (exact : (leaf id).ops = .leafGateMuxExactOps)
    (regs : CguRegs) (rate : ℕ) :
    (ar9311LeafDetermineRateExact ((leaf id).parents.map source) rate = none ↔
      ∀ parent ∈ (leaf id).parents, source parent ≠ some rate) ∧
    ∀ index,
      ar9311LeafDetermineRateExact ((leaf id).parents.map source) rate = some index →
        leafRate source (leaf id)
            ((CguCall.setParent id (BitVec.ofNat 8 index)).step clkGate regs).2 = some rate ∧
          ∀ other, other ≠ id → (leaf other).state
            ((CguCall.setParent id (BitVec.ofNat 8 index)).step clkGate regs).2 =
              (leaf other).state regs := by
  have eight : ∀ id, (leaf id).parents.length = 8 := by decide +kernel
  constructor
  · simp [ar9311LeafDetermineRateExact]
  · intro index found
    rcases List.findIdx?_eq_some_iff_getElem.mp found with ⟨inside, here, -⟩
    rw [List.length_map, eight] at inside
    have sets : (leaf id).ops.setsParent = true := by rw [exact]; rfl
    have plain : (leaf id).ops.recalcs = false := by rw [exact]; rfl
    have view := ((CguCall.setParent id (BitVec.ofNat 8 index)).step_view clkGate_writes regs).2
    simp only [CguCall.cellStep, sets, if_true] at view
    have cell (other : LeafId) := congrArg (fun view : CguView => view.leaf other) view
    constructor
    · have parent := congrArg LeafState.parent (cell id)
      simp only [cguView, CguView.setLeaf, Function.update_self] at parent
      have selected : (lowBits (BitVec.ofNat 8 index) 3).toNat = index := by
        have each : ∀ index < 8, (lowBits (BitVec.ofNat 8 index) 3).toNat = index := by decide
        exact each index inside
      have read := congrArg BitVec.toNat parent
      rw [selected] at read
      simp only [leafRate, plain]
      rw [show (ar9311LeafGetParent (leaf id).half _).toNat = index from read]
      simpa [eight, inside] using here
    · intro other apart
      have unchanged := cell other
      simpa only [cguView, CguView.setLeaf, Function.update_of_ne apart] using unchanged

theorem determineRateExact_codec :
    let codec := leaf ⟨8, by decide⟩
    let set := CguCall.setParent ⟨8, by decide⟩ (BitVec.ofNat 8 1)
    let after := (set.step clkGate fun _ => 0x01020304).2
    codec.name = .cguVencClk ∧
      ar9311LeafDetermineRateExact (codec.parents.map (cguSource 24000000)) 450000000 = none ∧
      leafRate (cguSource 24000000) codec after = some 500000000 := by
  refine ⟨rfl, ?_, ?_⟩
  · apply (determineRateExact_setParent rfl (fun _ => 0) 450000000).1.mpr
    decide +kernel
  · exact ((determineRateExact_setParent rfl _ 500000000).2 1 (by decide +kernel)).1

end Exact

end MlKernel.Clk
