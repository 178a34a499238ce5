import Mathlib.Data.List.Sort
import Mathlib.Order.Bounds.Basic
import MlKernel.Lib.Align

/-!
# First fit over a sorted list of blocks

Blocks of any type occupy `[start, stop)`.  They are laid out when each ends
before the next one starts.  The gap walk keeps one cursor, aligned again after
every block; over a laid out list it finds the lowest aligned address whose
extent meets no block, and inserting that extent in order keeps the list laid
out.
-/

universe u

namespace FirstFit

variable {Block : Type u} (start stop : Block → ℕ)

/-- Every block ends before the later ones start. -/
def LaidOut (blocks : List Block) : Prop :=
  blocks.Pairwise fun earlier later => stop earlier ≤ start later

/-- The extent of `size` bytes at `address` meets no block. -/
def Clear (blocks : List Block) (size address : ℕ) : Prop :=
  ∀ block ∈ blocks, address + size ≤ start block ∨ stop block ≤ address

/-- The aligned addresses from `floor` on with room for `size` bytes. -/
def Candidates (blocks : List Block) (size align floor : ℕ) : Set ℕ :=
  {address | align ∣ address ∧ floor ≤ address ∧ Clear start stop blocks size address}

/-- The gap walk: the cursor moves past a block when the extent does not fit before it. -/
def firstFit (size align : ℕ) : ℕ → List Block → ℕ
  | floor, [] => Align.up floor align
  | floor, block :: rest =>
    if Align.up floor align + size ≤ start block then Align.up floor align
    else firstFit size align (stop block) rest

variable {start stop}

theorem LaidOut.sublist {blocks kept : List Block} (laid : LaidOut start stop blocks)
    (sublist : kept.Sublist blocks) : LaidOut start stop kept :=
  List.Pairwise.sublist sublist laid

theorem LaidOut.disjoint {blocks : List Block} (laid : LaidOut start stop blocks)
    {first second : Block} (firstMem : first ∈ blocks) (secondMem : second ∈ blocks)
    (different : first ≠ second) :
    stop first ≤ start second ∨ stop second ≤ start first := by
  induction blocks with
  | nil => exact absurd firstMem List.not_mem_nil
  | cons head rest ih =>
      rcases List.pairwise_cons.mp laid with ⟨before, laidRest⟩
      rcases List.mem_cons.mp firstMem with rfl | firstRest
      · rcases List.mem_cons.mp secondMem with rfl | secondRest
        · exact absurd rfl different
        · exact Or.inl (before second secondRest)
      · rcases List.mem_cons.mp secondMem with rfl | secondRest
        · exact Or.inr (before first firstRest)
        · exact ih laidRest firstRest secondRest

/-- The walk stops at a candidate, and no candidate is lower. -/
theorem firstFit_isLeast {blocks : List Block} (size : ℕ) {align floor : ℕ}
    (alignPositive : 0 < align) (laid : LaidOut start stop blocks)
    (above : ∀ block ∈ blocks, floor ≤ start block)
    (ordered : ∀ block ∈ blocks, start block ≤ stop block) :
    IsLeast (Candidates start stop blocks size align floor)
      (firstFit start stop size align floor blocks) := by
  induction blocks generalizing floor with
  | nil =>
      refine ⟨⟨Align.dvd_up floor align, Align.le_up floor alignPositive, ?_⟩, ?_⟩
      · exact fun block member => absurd member List.not_mem_nil
      · rintro address ⟨aligned, fromFloor, _⟩
        exact Align.up_le_of_dvd alignPositive aligned fromFloor
  | cons block rest ih =>
      rcases List.pairwise_cons.mp laid with ⟨before, laidRest⟩
      have blockOrdered := ordered block List.mem_cons_self
      have blockAbove := above block List.mem_cons_self
      simp only [firstFit]
      split
      next fits =>
        refine ⟨⟨Align.dvd_up floor align, Align.le_up floor alignPositive, ?_⟩, ?_⟩
        · intro other member
          rcases List.mem_cons.mp member with rfl | member
          · exact Or.inl fits
          · have := before other member
            exact Or.inl (by omega)
        · rintro address ⟨aligned, fromFloor, _⟩
          exact Align.up_le_of_dvd alignPositive aligned fromFloor
      next tight =>
        rcases ih laidRest before fun other member => ordered other (List.mem_cons_of_mem _ member)
          with ⟨⟨aligned, fromStop, clear⟩, lowest⟩
        refine ⟨⟨aligned, by omega, ?_⟩, ?_⟩
        · intro other member
          rcases List.mem_cons.mp member with rfl | member
          · exact Or.inr fromStop
          · exact clear other member
        · rintro address ⟨addressAligned, fromFloor, addressClear⟩
          have rounded := Align.up_le_of_dvd alignPositive addressAligned fromFloor
          refine lowest ⟨addressAligned, ?_, fun other member =>
            addressClear other (List.mem_cons_of_mem _ member)⟩
          rcases addressClear block List.mem_cons_self with ends | starts
          · omega
          · exact starts

/-- A block that meets no other goes into its place. -/
theorem LaidOut.orderedInsert {blocks : List Block} {new : Block}
    (laid : LaidOut start stop blocks) (newNonempty : start new < stop new)
    (ordered : ∀ block ∈ blocks, start block ≤ stop block)
    (clear : Clear start stop blocks (stop new - start new) (start new)) :
    LaidOut start stop
      (blocks.orderedInsert (fun earlier later => start earlier < start later) new) := by
  induction blocks with
  | nil => exact List.pairwise_singleton _ _
  | cons block rest ih =>
      rcases List.pairwise_cons.mp laid with ⟨before, laidRest⟩
      have blockOrdered := ordered block List.mem_cons_self
      rw [List.orderedInsert_cons]
      split
      next lower =>
        refine List.pairwise_cons.mpr ⟨?_, laid⟩
        intro other member
        have ends : stop new ≤ start block := by
          rcases clear block List.mem_cons_self with ends | starts <;> omega
        rcases List.mem_cons.mp member with rfl | member
        · exact ends
        · have := before other member
          omega
      next higher =>
        refine List.pairwise_cons.mpr ⟨?_, ?_⟩
        · intro other member
          rcases List.mem_orderedInsert _ |>.mp member with rfl | member
          · rcases clear block List.mem_cons_self with ends | starts <;> omega
          · exact before other member
        · exact ih laidRest (fun other member => ordered other (List.mem_cons_of_mem _ member))
            fun other member => clear other (List.mem_cons_of_mem _ member)

end FirstFit
