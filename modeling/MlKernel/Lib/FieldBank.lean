import Mathlib.Order.Lattice
import Mathlib.Data.List.Chain
import Mathlib.Tactic.Common

/-!
# Banks of bit fields

A bank holds a word for each register, and a word is its bits.  A writer that overwrites a field
sets its bits and leaves every other bit of the bank alone.  A loop of such writers over fields that
have no bit in common leaves each field with its own value, and running it again changes nothing.
-/

universe u v w

namespace FieldBank

/-- A run of bits of one register. -/
structure BitRange (Index : Type u) where
  reg : Index
  lo : ℕ
  width : ℕ

section Fields

variable {Index : Type u}

def BitRange.Owns (field : BitRange Index) (reg : Index) (i : ℕ) : Prop :=
  field.reg = reg ∧ field.lo ≤ i ∧ i < field.lo + field.width

instance [DecidableEq Index] (field : BitRange Index) (reg : Index) (i : ℕ) :
    Decidable (field.Owns reg i) :=
  inferInstanceAs (Decidable (_ ∧ _))

/-- No bit is in both fields. -/
def BitRange.Apart (field other : BitRange Index) : Prop :=
  ∀ reg i, field.Owns reg i → ¬other.Owns reg i

variable [LinearOrder Index]

/-- In order of registers, and of bits within one. -/
def BitRange.Before (field other : BitRange Index) : Prop :=
  field.reg < other.reg ∨ field.reg = other.reg ∧ field.lo + field.width ≤ other.lo

instance (field other : BitRange Index) : Decidable (field.Before other) :=
  inferInstanceAs (Decidable (_ ∨ _))

theorem BitRange.Before.trans {field other last : BitRange Index} (first : field.Before other)
    (second : other.Before last) : field.Before last := by
  rcases first with less | ⟨same, below⟩
  · rcases second with less' | ⟨same', _⟩
    · exact .inl (lt_trans less less')
    · exact .inl (same' ▸ less)
  · rcases second with less' | ⟨same', below'⟩
    · exact .inl (same ▸ less')
    · exact .inr ⟨same.trans same', by omega⟩

theorem BitRange.Before.apart {field other : BitRange Index} (order : field.Before other) :
    field.Apart other := by
  rintro reg i ⟨rfl, low, high⟩ ⟨same, low', high'⟩
  rcases order with less | ⟨_, below⟩
  · exact absurd same less.ne'
  · omega

/-- Fields that are listed in order have no bit in common. -/
theorem pairwise_apart {fields : List (BitRange Index)} (chain : fields.IsChain BitRange.Before) :
    fields.Pairwise BitRange.Apart := by
  have trans : IsTrans (BitRange Index) BitRange.Before := ⟨fun _ _ _ => BitRange.Before.trans⟩
  exact (List.isChain_iff_pairwise.mp chain).imp BitRange.Before.apart

end Fields

/-! ### Writers -/

section Writers

variable {Index : Type u} {Word : Type v} {bit : Word → ℕ → Bool}

/-- The writer sets the bits of the field, and no other bit. -/
structure Overwrites (bit : Word → ℕ → Bool) (put : (Index → Word) → Index → Word)
    (field : BitRange Index) (value : ℕ → Bool) : Prop where
  own : ∀ bank i, i < field.width → bit (put bank field.reg) (field.lo + i) = value i
  frame : ∀ bank reg i, ¬field.Owns reg i → bit (put bank reg) i = bit (bank reg) i

variable {Item : Type w} {put : Item → (Index → Word) → Index → Word}
  {field : Item → BitRange Index} {value : Item → ℕ → Bool} {items : List Item}

def putAll (put : Item → (Index → Word) → Index → Word) (items : List Item) (bank : Index → Word) :
    Index → Word :=
  items.foldl (fun bank item => put item bank) bank

theorem putAll_frame {reg : Index} {i : ℕ}
    (each : ∀ item ∈ items, Overwrites bit (put item) (field item) (value item))
    (outside : ∀ item ∈ items, ¬(field item).Owns reg i) (bank : Index → Word) :
    bit (putAll put items bank reg) i = bit (bank reg) i := by
  induction items generalizing bank with
  | nil => rfl
  | cons item items ih =>
      have later := ih (fun other mem => each other (List.mem_cons_of_mem _ mem))
        (fun other mem => outside other (List.mem_cons_of_mem _ mem)) (put item bank)
      have here := (each item List.mem_cons_self).frame bank reg i (outside item List.mem_cons_self)
      exact later.trans here

theorem putAll_own {item : Item} {i : ℕ}
    (each : ∀ item ∈ items, Overwrites bit (put item) (field item) (value item))
    (apart : items.Pairwise fun item other => (field item).Apart (field other))
    (mem : item ∈ items) (inside : i < (field item).width) (bank : Index → Word) :
    bit (putAll put items bank (field item).reg) ((field item).lo + i) = value item i := by
  induction items generalizing bank with
  | nil => cases mem
  | cons first items ih =>
      rcases List.pairwise_cons.mp apart with ⟨fresh, apartRest⟩
      have eachRest (other : Item) (memOther : other ∈ items) :=
        each other (List.mem_cons_of_mem _ memOther)
      rcases List.mem_cons.mp mem with rfl | memRest
      · have owned : (field item).Owns (field item).reg ((field item).lo + i) :=
          ⟨rfl, Nat.le_add_right _ _, Nat.add_lt_add_left inside _⟩
        have later := putAll_frame eachRest
          (fun other memOther => fresh other memOther _ _ owned) (put item bank)
        exact later.trans ((each item List.mem_cons_self).own bank i inside)
      · exact ih eachRest apartRest memRest (put first bank)

/-- Writing the same values once more changes nothing. -/
theorem putAll_idempotent (ext : ∀ a b, (∀ i, bit a i = bit b i) → a = b)
    (each : ∀ item ∈ items, Overwrites bit (put item) (field item) (value item))
    (apart : items.Pairwise fun item other => (field item).Apart (field other))
    (bank : Index → Word) : putAll put items (putAll put items bank) = putAll put items bank := by
  funext reg
  apply ext
  intro i
  by_cases owned : ∃ item ∈ items, (field item).Owns reg i
  · rcases owned with ⟨item, mem, rfl, low, high⟩
    rcases Nat.exists_eq_add_of_le low with ⟨j, rfl⟩
    have inside : j < (field item).width := Nat.lt_of_add_lt_add_left high
    rw [putAll_own each apart mem inside, putAll_own each apart mem inside]
  · apply putAll_frame each
    intro item mem owns
    exact owned ⟨item, mem, owns⟩

end Writers

end FieldBank
