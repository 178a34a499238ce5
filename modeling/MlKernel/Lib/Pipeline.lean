import Mathlib.Data.List.ReduceOption

/-!
# A pipeline of slots

Slots are held youngest first.  What enters shifts the others by one, and what was
in the last slot of the pipeline leaves.  Nothing is lost and nothing overtakes.
-/

universe u

namespace Pipeline

variable {α : Type u}

/-- The slots from `last` down to the first each take what the slot before them holds. -/
def shift : ℕ → List (Option α) → List (Option α)
  | 0, slots => slots
  | last + 1, slots => shift last (slots.set (last + 1) (slots.getD last none))

def enter (depth : ℕ) (slots : List (Option α)) (entering : α) : List (Option α) :=
  (shift (depth - 1) slots).set 0 (some entering)

def leaving (depth : ℕ) (slots : List (Option α)) : Option α :=
  slots.getD (depth - 1) none

/-- What the slots hold, the oldest first. -/
def contents (slots : List (Option α)) : List α :=
  slots.reverse.reduceOption

/-- Nothing is held in the slots that a pipeline of this depth does not use. -/
def Within (depth : ℕ) (slots : List (Option α)) : Prop :=
  ∀ slot ∈ slots.drop depth, slot = none

theorem contents_append (young old : List (Option α)) :
    contents (young ++ old) = contents old ++ contents young := by
  rw [contents, List.reverse_append, List.reduceOption_append]
  rfl

theorem contents_cons (slot : Option α) (old : List (Option α)) :
    contents (slot :: old) = contents old ++ slot.toList := by
  rw [contents, List.reverse_cons, List.reduceOption_append]
  cases slot <;> rfl

theorem contents_eq_nil {slots : List (Option α)} (empty : ∀ slot ∈ slots, slot = none) :
    contents slots = [] := by
  induction slots with
  | nil => rfl
  | cons slot old ih =>
      rw [contents_cons, empty slot List.mem_cons_self,
        ih fun other mem => empty other (List.mem_cons_of_mem slot mem)]
      rfl

theorem mem_contents {slots : List (Option α)} {held : α} :
    held ∈ contents slots ↔ some held ∈ slots := by
  rw [contents, List.reduceOption_mem_iff, List.mem_reverse]

theorem contents_perm (slots : List (Option α)) : (contents slots).Perm slots.reduceOption :=
  (List.reverse_perm slots).filterMap id

theorem contents_replicate_none (count : ℕ) :
    contents (List.replicate count (none : Option α)) = [] :=
  contents_eq_nil fun _ mem => List.eq_of_mem_replicate mem

theorem getElem?_shift (last : ℕ) (slots : List (Option α)) (used : last < slots.length)
    (i : ℕ) :
    (shift last slots)[i]? = if 0 < i ∧ i ≤ last then slots[i - 1]? else slots[i]? := by
  induction last generalizing slots with
  | zero =>
      rw [if_neg (by omega)]
      rfl
  | succ last ih =>
      have moved : some (slots.getD last none) = slots[last]? := by
        rw [List.getD_eq_getElem?_getD, List.getElem?_eq_getElem (by omega)]
        rfl
      rw [shift, ih _ (by rw [List.length_set]; omega)]
      split
      · rw [List.getElem?_set_ne (by omega), if_pos (by omega)]
      · by_cases target : i = last + 1
        · subst target
          rw [List.getElem?_set_self used, if_pos (by omega), moved]
          rfl
        · rw [List.getElem?_set_ne (by omega), if_neg (by omega)]

theorem length_shift (last : ℕ) (slots : List (Option α)) :
    (shift last slots).length = slots.length := by
  induction last generalizing slots with
  | zero => rfl
  | succ last ih => rw [shift, ih, List.length_set]

/-- The slots that the pipeline uses move up by one, and the others stay. -/
theorem enter_eq {depth : ℕ} (positive : 0 < depth) (slots : List (Option α))
    (used : depth ≤ slots.length) (entering : α) :
    enter depth slots entering = some entering :: (slots.take (depth - 1) ++ slots.drop depth) := by
  apply List.ext_getElem?
  intro i
  rw [enter]
  cases i with
  | zero =>
      rw [List.getElem?_set_self (by rw [length_shift]; omega)]
      rfl
  | succ i =>
      rw [List.getElem?_set_ne (by omega), getElem?_shift _ _ (by omega), List.getElem?_cons_succ]
      by_cases within : i < depth - 1
      · rw [if_pos (by omega), List.getElem?_append_left (by rw [List.length_take]; omega),
          List.getElem?_take_of_lt within]
        rfl
      · rw [if_neg (by omega), List.getElem?_append_right (by rw [List.length_take]; omega),
          List.getElem?_drop, List.length_take]
        congr 1
        omega

theorem length_enter (depth : ℕ) (slots : List (Option α)) (entering : α) :
    (enter depth slots entering).length = slots.length := by
  rw [enter, List.length_set, length_shift]

section Enter

variable {depth : ℕ} (positive : 0 < depth) {slots : List (Option α)}
  (used : depth ≤ slots.length) (within : Within depth slots) (entering : α)

include positive used

theorem head_enter : (enter depth slots entering).head? = some (some entering) := by
  rw [enter_eq positive slots used, List.head?_cons]

include within

theorem within_enter : Within depth (enter depth slots entering) := by
  intro slot mem
  rw [enter_eq positive slots used] at mem
  have split : (some entering :: slots.take (depth - 1)).length = depth := by
    rw [List.length_cons, List.length_take]
    omega
  rw [← List.cons_append, List.drop_left' split] at mem
  exact within slot mem

/-- What leaves was the oldest, and what enters becomes the youngest. -/
theorem contents_enter :
    (leaving depth slots).toList ++ contents (enter depth slots entering) =
      contents slots ++ [entering] := by
  have last : depth - 1 < slots.length := by omega
  have unused : contents (slots.drop depth) = [] := contents_eq_nil within
  have parts : slots = slots.take (depth - 1) ++ leaving depth slots :: slots.drop depth := by
    conv_lhs => rw [← List.take_append_drop (depth - 1) slots]
    rw [List.drop_eq_getElem_cons last, Nat.sub_add_cancel positive, leaving,
      List.getD_eq_getElem?_getD, List.getElem?_eq_getElem last]
    rfl
  have before : contents slots =
      (leaving depth slots).toList ++ contents (slots.take (depth - 1)) := by
    conv_lhs => rw [parts]
    rw [contents_append, contents_cons, unused, List.nil_append]
  rw [enter_eq positive slots used, before, contents_cons, contents_append, unused]
  simp

end Enter

/-- A stamp of each held value tells the slot it is in. -/
def Aged (stamp : α → ℕ) (now : ℕ) (slots : List (Option α)) : Prop :=
  ∀ i held, slots[i]? = some (some held) → stamp held + i = now

theorem Aged.of_empty {slots : List (Option α)} (empty : contents slots = []) (stamp : α → ℕ)
    (now : ℕ) : Aged stamp now slots := by
  intro i held isHeld
  have mem : held ∈ contents slots := mem_contents.mpr (List.mem_of_getElem? isHeld)
  rw [empty] at mem
  exact absurd mem List.not_mem_nil

theorem Aged.single {stamp : α → ℕ} {now : ℕ} {held : α} (stamped : stamp held = now)
    (count : ℕ) : Aged stamp now (some held :: List.replicate count none) := by
  intro i other isHeld
  cases i with
  | zero =>
      cases isHeld
      exact stamped
  | succ i =>
      have empty := List.eq_of_mem_replicate (List.mem_of_getElem? isHeld)
      cases empty

theorem Aged.leaving {stamp : α → ℕ} {now depth : ℕ} {slots : List (Option α)}
    (aged : Aged stamp now slots) {left : α} (leaves : leaving depth slots = some left) :
    stamp left + (depth - 1) = now := by
  apply aged
  rw [Pipeline.leaving, List.getD_eq_getElem?_getD] at leaves
  cases at_ : slots[depth - 1]? with
  | none =>
      rw [at_] at leaves
      cases leaves
  | some slot =>
      rw [at_] at leaves
      rw [← leaves]
      rfl

theorem Aged.enter {stamp stamp' : α → ℕ} {now depth : ℕ} {slots : List (Option α)} {entering : α}
    (aged : Aged stamp now slots) (positive : 0 < depth) (used : depth ≤ slots.length)
    (within : Within depth slots) (entered : stamp' entering = now + 1)
    (kept : ∀ held ∈ contents slots, stamp' held = stamp held) :
    Aged stamp' (now + 1) (enter depth slots entering) := by
  intro i held isHeld
  have inside : i < depth := by
    by_contra beyond
    have mem : some held ∈ (Pipeline.enter depth slots entering).drop depth := by
      apply List.mem_of_getElem? (i := i - depth)
      rw [List.getElem?_drop, Nat.add_sub_cancel' (Nat.le_of_not_lt beyond), isHeld]
    exact Option.some_ne_none held (within_enter positive used within entering _ mem)
  rw [enter_eq positive slots used] at isHeld
  cases i with
  | zero =>
      cases isHeld
      exact entered
  | succ i =>
      rw [List.getElem?_cons_succ, List.getElem?_append_left (by rw [List.length_take]; omega),
        List.getElem?_take_of_lt (by omega)] at isHeld
      have same := kept held (mem_contents.mpr (List.mem_of_getElem? isHeld))
      have age := aged i held isHeld
      omega

end Pipeline
