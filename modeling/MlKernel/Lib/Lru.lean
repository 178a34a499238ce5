import Mathlib.Data.Fintype.Card
import Mathlib.Order.Interval.Finset.Nat

/-!
# Least recently used slots

Slots carry the time of their last use.  A search from a bound downwards finds
the slot with the smallest stamp, and when all stamps are different, as many slots
as there are have been used since.
-/

universe u

namespace Lru

variable {Slot : Type u}

/-- One turn of the search. -/
def older (stamp : Slot → ℕ) (found : Option Slot × ℕ) (slot : Slot) : Option Slot × ℕ :=
  if stamp slot < found.2 then (some slot, stamp slot) else found

/-- The first slot with the smallest stamp below a bound. -/
def oldest (stamp : Slot → ℕ) (bound : ℕ) (slots : List Slot) : Option Slot :=
  (slots.foldl (older stamp) (none, bound)).1

/-- The search ends with nothing found, or with a slot and its stamp, and no slot is older. -/
theorem foldl_older (stamp : Slot → ℕ) (slots : List Slot) (start : Option Slot × ℕ) :
    (slots.foldl (older stamp) start).2 ≤ start.2 ∧
      (∀ slot ∈ slots, (slots.foldl (older stamp) start).2 ≤ stamp slot) ∧
      (slots.foldl (older stamp) start = start ∨
        ∃ slot ∈ slots, slots.foldl (older stamp) start = (some slot, stamp slot)) := by
  induction slots generalizing start with
  | nil => exact ⟨Nat.le_refl _, nofun, .inl rfl⟩
  | cons slot slots ih =>
      rw [List.foldl_cons]
      rcases ih (older stamp start slot) with ⟨below, least, found⟩
      by_cases isOlder : stamp slot < start.2
      · have taken : older stamp start slot = (some slot, stamp slot) := if_pos isOlder
        rw [taken] at below least found ⊢
        refine ⟨Nat.le_trans below (Nat.le_of_lt isOlder), ?_, .inr ?_⟩
        · intro other mem
          rcases List.mem_cons.mp mem with rfl | later
          · exact below
          · exact least other later
        · rcases found with same | ⟨other, mem, same⟩
          · exact ⟨slot, List.mem_cons_self, same⟩
          · exact ⟨other, List.mem_cons_of_mem _ mem, same⟩
      · have passed : older stamp start slot = start := if_neg isOlder
        rw [passed] at below least found ⊢
        refine ⟨below, ?_, ?_⟩
        · intro other mem
          rcases List.mem_cons.mp mem with rfl | later
          · exact Nat.le_trans below (Nat.le_of_not_lt isOlder)
          · exact least other later
        · rcases found with same | ⟨other, mem, same⟩
          · exact .inl same
          · exact .inr ⟨other, List.mem_cons_of_mem _ mem, same⟩

theorem le_of_oldest {stamp : Slot → ℕ} {bound : ℕ} {slots : List Slot} {slot : Slot}
    (found : oldest stamp bound slots = some slot) : ∀ other ∈ slots, stamp slot ≤ stamp other := by
  rcases foldl_older stamp slots (none, bound) with ⟨_, least, same | ⟨least', _, same⟩⟩
  · rw [oldest, same] at found
    cases found
  · rw [oldest, same] at found
    cases found
    rwa [same] at least

theorem exists_oldest {stamp : Slot → ℕ} {bound : ℕ} {slots : List Slot} {slot : Slot}
    (mem : slot ∈ slots) (below : stamp slot < bound) :
    ∃ found, oldest stamp bound slots = some found := by
  rcases foldl_older stamp slots (none, bound) with ⟨_, least, same | ⟨found, _, same⟩⟩
  · have atLeast := least slot mem
    rw [same] at atLeast
    exact absurd below (Nat.not_lt.mpr atLeast)
  · exact ⟨found, by rw [oldest, same]⟩

/-- When the slots were used at different times, there is a use for each since the oldest. -/
theorem add_card_le [Fintype Slot] {stamp : Slot → ℕ} (distinct : Function.Injective stamp)
    {tick : ℕ} (past : ∀ slot, stamp slot ≤ tick) {slot : Slot}
    (least : ∀ other, stamp slot ≤ stamp other) : stamp slot + Fintype.card Slot ≤ tick + 1 := by
  have inside : ∀ other ∈ Finset.univ, stamp other ∈ Finset.Icc (stamp slot) tick :=
    fun other _ => Finset.mem_Icc.mpr ⟨least other, past other⟩
  have few := Finset.card_le_card_of_injOn stamp inside distinct.injOn
  rw [Finset.card_univ, Nat.card_Icc] at few
  have notAfter := past slot
  omega

end Lru
