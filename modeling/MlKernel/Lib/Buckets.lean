import Mathlib.Algebra.BigOperators.Group.Finset.Basic
import Mathlib.Algebra.Order.Group.Multiset
import Mathlib.Data.Fintype.Basic
import Mathlib.Tactic.Common

/-!
# Keyed items in buckets

Items lie in buckets, one list for each index, and each has a key.  As long as no two items have
the same key the buckets represent a map from keys to items, whatever bucket an item lies in and
wherever in it: what the map holds under a key is the one item with that key.
-/

universe u v w

namespace Buckets

variable {Index : Type u} {Item : Type v} {Key : Type w}

section Contents

variable [Fintype Index]

/-- The items of all buckets. -/
def contents (buckets : Index → List Item) : Multiset Item :=
  ∑ i, (buckets i : Multiset Item)

variable {buckets : Index → List Item}

theorem mem_contents {item : Item} : item ∈ contents buckets ↔ ∃ i, item ∈ buckets i := by
  simp [contents, Multiset.mem_sum]

section Update

variable [DecidableEq Index]

theorem contents_update (buckets : Index → List Item) (i : Index) (items : List Item) :
    contents (Function.update buckets i items) + (buckets i : Multiset Item) =
      contents buckets + (items : Multiset Item) := by
  have others : ∑ j ∈ Finset.univ.erase i, (Function.update buckets i items j : Multiset Item) =
      ∑ j ∈ Finset.univ.erase i, (buckets j : Multiset Item) := by
    apply Finset.sum_congr rfl
    intro j member
    rw [Function.update_of_ne (Finset.ne_of_mem_erase member)]
  unfold contents
  rw [← Finset.add_sum_erase _ _ (Finset.mem_univ i), ← Finset.add_sum_erase _
    (fun j => (buckets j : Multiset Item)) (Finset.mem_univ i), others, Function.update_self]
  ac_rfl

theorem contents_append (i : Index) (item : Item) :
    contents (Function.update buckets i (buckets i ++ [item])) = item ::ₘ contents buckets := by
  have update := contents_update buckets i (buckets i ++ [item])
  rw [← Multiset.coe_add, ← add_assoc, add_right_comm] at update
  have cancelled := add_right_cancel update
  rw [cancelled, Multiset.coe_singleton, add_comm, Multiset.singleton_add]

/-- An item taken out of its bucket. -/
theorem contents_eraseIdx {i : Index} {k : ℕ} {item : Item} (here : (buckets i)[k]? = some item) :
    item ::ₘ contents (Function.update buckets i ((buckets i).eraseIdx k)) =
      contents buckets := by
  rcases List.getElem?_eq_some_iff.mp here with ⟨inside, rfl⟩
  have split : (buckets i : Multiset Item) =
      (buckets i)[k] ::ₘ ((buckets i).eraseIdx k : Multiset Item) := by
    rw [Multiset.cons_coe, Multiset.coe_eq_coe]
    exact (List.getElem_cons_eraseIdx_perm inside).symm
  have update := contents_update buckets i ((buckets i).eraseIdx k)
  rw [split, ← Multiset.singleton_add, ← add_assoc, add_right_cancel_iff, add_comm,
    Multiset.singleton_add] at update
  exact update

/-- An item replaced in its place. -/
theorem contents_set {i : Index} {k : ℕ} {item : Item} (here : (buckets i)[k]? = some item)
    (new : Item) :
    contents (Function.update buckets i ((buckets i).set k new)) =
      new ::ₘ contents (Function.update buckets i ((buckets i).eraseIdx k)) := by
  rcases List.getElem?_eq_some_iff.mp here with ⟨inside, -⟩
  have placed : ((buckets i).set k new)[k]? = some new := by simp [inside]
  have inBucket :
      (Function.update buckets i ((buckets i).set k new) i)[k]? = some new := by
    simpa using placed
  have taken := contents_eraseIdx inBucket
  rw [← taken, Function.update_idem, Function.update_self, List.eraseIdx_set_eq]

end Update

theorem contents_filter (keep : Item → Bool) :
    contents (fun i => (buckets i).filter keep) =
      (contents buckets).filter fun item => keep item = true := by
  let filter : Multiset Item →+ Multiset Item :=
    ⟨⟨Multiset.filter fun item => keep item = true, Multiset.filter_zero _⟩,
      Multiset.filter_add _⟩
  have summed := map_sum filter (fun i => (buckets i : Multiset Item)) Finset.univ
  refine Eq.trans ?_ summed.symm
  apply Finset.sum_congr rfl
  intro i _
  have kept := Multiset.filter_coe (fun item => keep item = true) (buckets i)
  simp only [Bool.decide_eq_true] at kept
  exact kept.symm

theorem countP_contents (property : Item → Prop) [DecidablePred property] :
    (contents buckets).countP property = ∑ i, (buckets i).countP fun item => property item := by
  have summed := map_sum (Multiset.countPAddMonoidHom property)
    (fun i => (buckets i : Multiset Item)) Finset.univ
  refine summed.trans (Finset.sum_congr rfl ?_)
  intro i _
  exact Multiset.coe_countP property (buckets i)

end Contents

/-! ### The map -/

section Map

variable {key : Item → Key} {items : Multiset Item} {map : Key → Option Item}

/-- No two items have the same key, and the map holds each under its key, and nothing else. -/
structure Represents (key : Item → Key) (items : Multiset Item) (map : Key → Option Item) : Prop
    where
  distinct : (items.map key).Nodup
  mem_iff : ∀ k item, map k = some item ↔ item ∈ items ∧ key item = k

namespace Represents

theorem empty : Represents key 0 fun _ => none where
  distinct := by simp
  mem_iff := by simp

theorem eq_none_iff (represents : Represents key items map) {k : Key} :
    map k = none ↔ ∀ item ∈ items, key item ≠ k := by
  rw [Option.eq_none_iff_forall_ne_some]
  constructor
  · intro absent item member same
    exact absent item ((represents.mem_iff k item).mpr ⟨member, same⟩)
  · intro absent item held
    rcases (represents.mem_iff k item).mp held with ⟨member, same⟩
    exact absent item member same

section Change

variable [DecidableEq Key]

theorem insert (represents : Represents key items map) {item : Item}
    (fresh : map (key item) = none) :
    Represents key (item ::ₘ items) (Function.update map (key item) (some item)) where
  distinct := by
    rw [Multiset.map_cons, Multiset.nodup_cons]
    refine ⟨?_, represents.distinct⟩
    intro member
    rcases Multiset.mem_map.mp member with ⟨other, memberOther, same⟩
    exact represents.eq_none_iff.mp fresh other memberOther same
  mem_iff k other := by
    by_cases here : k = key item
    · subst here
      rw [Function.update_self, Option.some_inj, Multiset.mem_cons]
      constructor
      · rintro rfl
        exact ⟨.inl rfl, rfl⟩
      · rintro ⟨rfl | member, same⟩
        · rfl
        · exact absurd same (represents.eq_none_iff.mp fresh other member)
    · rw [Function.update_of_ne here, represents.mem_iff, Multiset.mem_cons]
      constructor
      · rintro ⟨member, same⟩
        exact ⟨.inr member, same⟩
      · rintro ⟨rfl | member, same⟩
        · exact absurd same.symm here
        · exact ⟨member, same⟩

theorem remove {item : Item} (represents : Represents key (item ::ₘ items) map) :
    Represents key items (Function.update map (key item) none) where
  distinct := by
    have all := represents.distinct
    rw [Multiset.map_cons, Multiset.nodup_cons] at all
    exact all.2
  mem_iff k other := by
    have all := represents.distinct
    rw [Multiset.map_cons, Multiset.nodup_cons] at all
    by_cases here : k = key item
    · subst here
      rw [Function.update_self]
      constructor
      · intro absurdity
        cases absurdity
      · rintro ⟨member, same⟩
        exact absurd (same ▸ Multiset.mem_map_of_mem key member) all.1
    · rw [Function.update_of_ne here, represents.mem_iff, Multiset.mem_cons]
      constructor
      · rintro ⟨rfl | member, same⟩
        · exact absurd same.symm here
        · exact ⟨member, same⟩
      · rintro ⟨member, same⟩
        exact ⟨.inr member, same⟩

/-- An item replaced by another with the same key. -/
theorem replace {item new : Item} (represents : Represents key (item ::ₘ items) map)
    (same : key new = key item) :
    Represents key (new ::ₘ items) (Function.update map (key new) (some new)) := by
  have removed := represents.remove
  rw [← same] at removed
  have absent : Function.update map (key new) none (key new) = none := Function.update_self ..
  have inserted := removed.insert absent
  rwa [Function.update_idem] at inserted

end Change

theorem filter (represents : Represents key items map) (keep : Item → Bool) :
    Represents key (items.filter fun item => keep item = true)
      fun k => (map k).filter keep where
  distinct := by
    apply Multiset.nodup_of_le _ represents.distinct
    exact Multiset.map_le_map (Multiset.filter_le _ items)
  mem_iff k item := by
    rw [Option.filter_eq_some_iff, represents.mem_iff, Multiset.mem_filter]
    tauto

end Represents

end Map

end Buckets
