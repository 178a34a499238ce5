import MlKernel.Mmz.UserMap

/-!
# No block is freed under a mapping

The `user_kref` of a block counts the registrations in it, and protects it from
`FREE` and `PUT`.  A mapping is protected as long as its registration is there,
but the registry does not know which registration belongs to which mapping:
`KeepsMaps` says what the processes must not do, and `MapsCounted` is the
invariant that holds while they do not.
-/

namespace MlKernel.Mmz

/-- The vma maps a byte of the block. -/
def Vma.Maps (v : Vma) (b : Mmb) : Prop :=
  v.start < v.stop ∧ v.phys < b.phys + b.size ∧ b.phys < v.phys + (v.stop - v.start)

/-- The call finds the registration of its own mapping, which is mapped nowhere any more,
or no registration at all. -/
def UserSystem.Balanced (s : UserSystem) (drop : Drop) : Prop :=
  (match drop with
    | .close v => { mapId := v.mapId, addr := v.start } ∈ s.opened ∧
        ∀ w ∈ s.vmas, w.mapId ≠ v.mapId
    | .userUnmap _ => False) ∨
  ∀ m ∈ s.userMaps, m.uvaddr ≠ drop.uvaddr

/-- What the registry relies on.  An `mmap` stays inside one allocated block and gets its
registration before that block is freed, equal addresses are equal blocks, and a drop is
balanced. -/
def KeepsMaps (s : UserSystem) : UserEvent → Prop
  | .mmap _ _ len pgoff => ∀ phys ∈ mmapPhys s pgoff (pages len),
      ∃ b ∈ s.mmz.blocks, b.phys ≤ phys ∧ phys + pages len ≤ b.phys + b.size
  | .mapAdd i kzallocOk => ∀ v ∈ s.arriving[i]?,
      kzallocOk = true ∧ (∀ b ∈ s.mmz.getbyPhys2 v.phys, b.userKref + 1 < 2 ^ 31) ∧
        ∀ m ∈ s.userMaps, m.uvaddr = v.start →
          s.mmz.getbyPhys2 m.phys = s.mmz.getbyPhys2 v.phys
  | .mmbFree phys => ∀ b ∈ s.mmz.freeUnlinks phys, ∀ v ∈ s.arriving, ¬ v.Maps b
  | .mmbPut phys => ∀ b ∈ s.mmz.putUnlinks phys, ∀ v ∈ s.arriving, ¬ v.Maps b
  | .mapDel i => ∀ drop ∈ s.dropping[i]?, s.Balanced drop
  | _ => True

instance (v : Vma) (b : Mmb) : Decidable (v.Maps b) := inferInstanceAs (Decidable (_ ∧ _ ∧ _))

instance (s : UserSystem) (drop : Drop) : Decidable (s.Balanced drop) :=
  match drop with
  | .close _ => inferInstanceAs (Decidable ((_ ∧ _) ∨ _))
  | .userUnmap _ => inferInstanceAs (Decidable (False ∨ _))

instance (s : UserSystem) (event : UserEvent) : Decidable (KeepsMaps s event) :=
  match event with
  | .mmap _ _ len pgoff => inferInstanceAs (Decidable (∀ phys ∈ mmapPhys s pgoff (pages len),
      ∃ b ∈ s.mmz.blocks, b.phys ≤ phys ∧ phys + pages len ≤ b.phys + b.size))
  | .mapAdd i _ => inferInstanceAs (Decidable (∀ v ∈ s.arriving[i]?, _ ∧ _ ∧
      ∀ m ∈ s.userMaps, m.uvaddr = v.start → s.mmz.getbyPhys2 m.phys = s.mmz.getbyPhys2 v.phys))
  | .mmbFree phys => inferInstanceAs (Decidable (∀ b ∈ s.mmz.freeUnlinks phys,
      ∀ v ∈ s.arriving, ¬ v.Maps b))
  | .mmbPut phys => inferInstanceAs (Decidable (∀ b ∈ s.mmz.putUnlinks phys,
      ∀ v ∈ s.arriving, ¬ v.Maps b))
  | .mapDel i => inferInstanceAs (Decidable (∀ drop ∈ s.dropping[i]?, s.Balanced drop))
  | .mmbAlloc .. | .mmbGet _ | .munmap .. | .fork .. | .exit _ | .userUnmap .. => .isTrue trivial

def KeepingStep (s : UserSystem) (event : UserEvent) (next : UserSystem) : Prop :=
  KeepsMaps s event ∧ userStep s event = some next

def Block.Covers (x : Block) (phys : ℕ) : Prop := x.phys ≤ phys ∧ phys < x.stop

instance (x : Block) (phys : ℕ) : Decidable (x.Covers phys) :=
  inferInstanceAs (Decidable (_ ∧ _))

def Vma.Within (v : Vma) (x : Block) : Prop :=
  v.start < v.stop ∧ x.phys ≤ v.phys ∧ v.phys + (v.stop - v.start) ≤ x.stop

theorem Vma.Within.covers {v : Vma} {x : Block} (within : v.Within x) : x.Covers v.phys := by
  rcases within with ⟨nonempty, above, below⟩
  exact ⟨above, by omega⟩

def registeredIn (userMaps : List UserMap) (x : Block) : ℕ :=
  userMaps.countP fun m => x.Covers m.phys

/-- The `user_kref` of the block is the number of registrations in it. -/
structure Block.Counts (x : Block) (userMaps : List UserMap) : Prop where
  kref : x.userKref = registeredIn userMaps x
  short : registeredIn userMaps x < 2 ^ 31

/-- Every mapping is registered in its block, and the blocks count their registrations. -/
structure MapsCounted (s : UserSystem) : Prop where
  mmz : s.mmz.Laid
  opened : ∀ addr, s.userMaps.countP (fun m => m.uvaddr = addr) =
    s.opened.countP fun o => o.addr = addr
  inBlock : ∀ m ∈ s.userMaps, ∃ x ∈ s.mmz.allocated, x.Covers m.phys
  kref : ∀ x ∈ s.mmz.allocated, x.Counts s.userMaps
  mapped : ∀ v ∈ s.vmas, ∃ x ∈ s.mmz.allocated, v.Within x ∧
    ∃ o ∈ s.opened, o.mapId = v.mapId ∧ ∀ m ∈ s.userMaps, m.uvaddr = o.addr → x.Covers m.phys
  arriving : ∀ v ∈ s.arriving, ∃ x ∈ s.mmz.allocated, v.Within x

theorem MmzState.Laid.eq_of_covers {mmz : MmzState} (ok : mmz.Laid) {x y : Block} {phys : ℕ}
    (xMem : x ∈ mmz.allocated) (yMem : y ∈ mmz.allocated) (inX : x.Covers phys)
    (inY : y.Covers phys) : x = y := by
  refine ok.eq_of_ptr xMem yMem (not_not.mp fun different => ?_)
  rcases inX with ⟨xAbove, xBelow⟩
  rcases inY with ⟨yAbove, yBelow⟩
  rcases ok.apart_of_ne xMem yMem different with before | after
  · omega
  · omega

theorem MapsCounted.exists_registered {s : UserSystem} (ok : MapsCounted s) {o : Opened}
    (member : o ∈ s.opened) : ∃ m ∈ s.userMaps, m.uvaddr = o.addr := by
  have positive : 0 < s.opened.countP fun other => other.addr = o.addr :=
    List.countP_pos_iff.mpr ⟨o, member, decide_eq_true rfl⟩
  rw [← ok.opened o.addr] at positive
  rcases List.countP_pos_iff.mp positive with ⟨m, registered, same⟩
  exact ⟨m, registered, of_decide_eq_true same⟩

theorem MapsCounted.userKref_pos {s : UserSystem} (ok : MapsCounted s) {x : Block}
    (member : x ∈ s.mmz.allocated) {m : UserMap} (registered : m ∈ s.userMaps)
    (inside : x.Covers m.phys) : 0 < x.userKref := by
  have positive : 0 < registeredIn s.userMaps x :=
    List.countP_pos_iff.mpr ⟨m, registered, decide_eq_true inside⟩
  rw [(ok.kref x member).kref]
  exact Int.natCast_pos.mpr positive

/-- The MMZ may change where nothing is registered or arriving. -/
theorem MapsCounted.withMmz {s : UserSystem} (ok : MapsCounted s) {mmz : MmzState}
    (laid : mmz.Laid)
    (kept : ∀ x ∈ s.mmz.allocated,
      (∃ m ∈ s.userMaps, x.Covers m.phys) ∨ (∃ v ∈ s.arriving, v.Within x) → x ∈ mmz.allocated)
    (kref : ∀ x ∈ mmz.allocated, x.Counts s.userMaps) :
    MapsCounted { s with mmz } := by
  refine ⟨laid, ok.opened, ?_, kref, ?_, ?_⟩
  · intro m registered
    rcases ok.inBlock m registered with ⟨x, member, inside⟩
    exact ⟨x, kept x member (Or.inl ⟨m, registered, inside⟩), inside⟩
  · intro v live
    rcases ok.mapped v live with ⟨x, member, within, o, openedMem, sameId, inside⟩
    rcases ok.exists_registered openedMem with ⟨m, registered, sameAddr⟩
    exact ⟨x, kept x member (Or.inl ⟨m, registered, inside m registered sameAddr⟩), within, o,
      openedMem, sameId, inside⟩
  · intro v coming
    rcases ok.arriving v coming with ⟨x, member, within⟩
    exact ⟨x, kept x member (Or.inr ⟨v, coming, within⟩), within⟩

theorem MapsCounted.keeps {s : UserSystem} (ok : MapsCounted s) {mmz : MmzState}
    (keeps : s.mmz.Keeps mmz) : MapsCounted { s with mmz } := by
  refine ok.withMmz keeps.laid ?_ ?_
  · intro x member _
    rw [keeps.allocated_eq]
    exact member
  · intro x member
    rw [keeps.allocated_eq] at member
    exact ok.kref x member

theorem MapsCounted.allocates {s : UserSystem} (ok : MapsCounted s) {size : ℕ} {nb : Mmb}
    {mmz : MmzState} (allocates : s.mmz.Allocates size nb mmz) : MapsCounted { s with mmz } := by
  have old : ∀ x ∈ s.mmz.allocated, x ∈ mmz.allocated := by
    intro x member
    rw [allocates.allocated_eq]
    exact Or.inr member
  refine ok.withMmz allocates.laid (fun x member _ => old x member) ?_
  intro x member
  rw [allocates.allocated_eq] at member
  rcases member with rfl | member
  · have new : nb.block ∈ mmz.allocated := by
      rw [allocates.allocated_eq]
      exact Or.inl rfl
    have none : registeredIn s.userMaps nb.block = 0 := by
      apply List.countP_eq_zero.mpr
      intro m registered covers
      rcases ok.inBlock m registered with ⟨x, ⟨b, linked, rfl⟩, inside⟩
      have same := allocates.laid.eq_of_covers (old _ (MmzState.mem_allocated linked)) new inside
        (of_decide_eq_true covers)
      have below := ((ok.mmz.accounted b.ptr).mp ⟨b, linked, rfl⟩).1
      have ptrEq : b.ptr = nb.ptr := congrArg Block.ptr same
      rw [ptrEq, allocates.ptr_eq] at below
      exact Nat.lt_irrefl _ below
    refine ⟨?_, ?_⟩
    · rw [none]
      exact allocates.unmapped
    · rw [none]
      decide
  · exact ok.kref x member

/-- A block without registrations may go, unless an `mmap` of it is on its way. -/
theorem MapsCounted.frees {s : UserSystem} (ok : MapsCounted s) {b : Mmb} {mmz : MmzState}
    (linked : b ∈ s.mmz.blocks) (unmapped : b.userKref ≤ 0)
    (notArriving : ∀ v ∈ s.arriving, ¬ v.Maps b) (frees : s.mmz.Frees b.ptr mmz) :
    MapsCounted { s with mmz } := by
  refine ok.withMmz frees.laid ?_ ?_
  · intro x member needed
    rw [frees.allocated_eq]
    refine ⟨member, fun same => ?_⟩
    have blockEq : x = b.block := ok.mmz.eq_of_ptr member (MmzState.mem_allocated linked) same
    subst blockEq
    rcases needed with ⟨m, registered, inside⟩ | ⟨v, coming, nonempty, above, below⟩
    · have positive : 0 < b.userKref := ok.userKref_pos member registered inside
      omega
    · refine notArriving v coming ⟨nonempty, ?_, ?_⟩
      · change v.phys + (v.stop - v.start) ≤ b.phys + b.size at below
        omega
      · change b.phys ≤ v.phys at above
        omega
  · intro x member
    rw [frees.allocated_eq] at member
    exact ok.kref x member.1

def Block.addUserKref (x : Block) (ptr : ℕ) (delta : ℤ) : Block :=
  if x.ptr = ptr then { x with userKref := wrapInt (x.userKref + delta) } else x

theorem Block.addUserKref_extent (x : Block) (ptr : ℕ) (delta : ℤ) :
    (x.addUserKref ptr delta).ptr = x.ptr ∧ (x.addUserKref ptr delta).phys = x.phys ∧
      (x.addUserKref ptr delta).size = x.size := by
  rw [addUserKref]
  split
  next => exact ⟨rfl, rfl, rfl⟩
  next => exact ⟨rfl, rfl, rfl⟩

theorem Block.addUserKref_covers {x : Block} {ptr : ℕ} {delta : ℤ} {phys : ℕ} :
    (x.addUserKref ptr delta).Covers phys ↔ x.Covers phys := by
  rcases x.addUserKref_extent ptr delta with ⟨_, physEq, sizeEq⟩
  rw [Covers, stop, physEq, sizeEq]
  exact Iff.rfl

theorem Vma.Within.addUserKref {v : Vma} {x : Block} (within : v.Within x) (ptr : ℕ) (delta : ℤ) :
    v.Within (x.addUserKref ptr delta) := by
  rcases x.addUserKref_extent ptr delta with ⟨_, physEq, sizeEq⟩
  rw [Within, Block.stop, physEq, sizeEq]
  exact within

theorem MmzState.allocated_addUserKref (mmz : MmzState) (ptr : ℕ) (delta : ℤ) :
    (mmz.addUserKref ptr delta).allocated =
      (fun x => x.addUserKref ptr delta) '' mmz.allocated := by
  have block : ∀ b : Mmb,
      (if b.ptr = ptr then { b with userKref := wrapInt (b.userKref + delta) } else b).block =
        b.block.addUserKref ptr delta := by
    intro b
    rw [Block.addUserKref]
    change _ = if b.ptr = ptr then _ else _
    split
    next => rfl
    next => rfl
  ext x
  constructor
  · rintro ⟨b, member, rfl⟩
    rcases mem_blocks_modify.mp member with ⟨old, oldMem, rfl⟩
    exact ⟨old.block, mem_allocated oldMem, (block old).symm⟩
  · rintro ⟨_, ⟨old, oldMem, rfl⟩, rfl⟩
    exact ⟨_, mem_blocks_modify.mpr ⟨old, oldMem, rfl⟩, block old⟩

theorem MmzState.Laid.addUserKref {mmz : MmzState} (ok : mmz.Laid) (ptr : ℕ) (delta : ℤ) :
    (mmz.addUserKref ptr delta).Laid :=
  ok.modify ptr fun _ => ⟨rfl, rfl, rfl⟩

theorem wrapInt_of_lt {n : ℤ} (nonneg : 0 ≤ n) (lt : n < 2 ^ 31) : wrapInt n = n :=
  Int.bmod_eq_of_le_mul_two (by omega) (by omega)

/-- The user count of one block follows its registrations, the others stay. -/
theorem kref_addUserKref {mmz : MmzState} (ok : mmz.Laid) {x₀ x : Block}
    (x₀Mem : x₀ ∈ mmz.allocated) (member : x ∈ mmz.allocated) {phys : ℕ} (inside : x₀.Covers phys)
    {delta : ℤ} {before after : ℕ} (kref : x.userKref = before) (short : after < 2 ^ 31)
    (count : (after : ℤ) = if x.Covers phys then before + delta else (before : ℤ)) :
    (x.addUserKref x₀.ptr delta).userKref = after := by
  rw [Block.addUserKref]
  split
  next same =>
    have blockEq := ok.eq_of_ptr member x₀Mem same
    subst blockEq
    rw [if_pos inside] at count
    change wrapInt (x.userKref + delta) = after
    rw [kref, ← count]
    exact wrapInt_of_lt (Int.natCast_nonneg after) (by omega)
  next different =>
    have outside : ¬ x.Covers phys := fun covers =>
      different (congrArg Block.ptr (ok.eq_of_covers member x₀Mem covers inside))
    rw [if_neg outside] at count
    omega

theorem registeredIn_addUserKref (userMaps : List UserMap) (x : Block) (ptr : ℕ) (delta : ℤ) :
    registeredIn userMaps (x.addUserKref ptr delta) = registeredIn userMaps x := by
  simp only [registeredIn, Block.addUserKref_covers]

theorem registeredIn_cons (m : UserMap) (userMaps : List UserMap) (x : Block) :
    registeredIn (m :: userMaps) x =
      registeredIn userMaps x + if x.Covers m.phys then 1 else 0 := by
  rw [registeredIn, List.countP_cons]
  simp only [registeredIn, decide_eq_true_eq]

/-- A registration more. -/
theorem Block.Counts.add {mmz : MmzState} {x₀ x : Block} {userMaps : List UserMap} {m : UserMap}
    (counts : x.Counts userMaps) (ok : mmz.Laid) (x₀Mem : x₀ ∈ mmz.allocated)
    (member : x ∈ mmz.allocated) (inside : x₀.Covers m.phys) (room : x₀.userKref + 1 < 2 ^ 31) :
    (x.addUserKref x₀.ptr 1).Counts (m :: userMaps) := by
  have count := registeredIn_cons m userMaps x
  have short : registeredIn (m :: userMaps) x < 2 ^ 31 := by
    rw [count]
    split
    next covers =>
      have same := ok.eq_of_covers member x₀Mem covers inside
      subst same
      rw [counts.kref] at room
      omega
    next => exact counts.short
  rw [← registeredIn_addUserKref _ x x₀.ptr 1] at short count
  refine ⟨kref_addUserKref ok x₀Mem member inside counts.kref short ?_, short⟩
  rw [count]
  split <;> simp

/-- A registration less. -/
theorem Block.Counts.erase {mmz : MmzState} {x₀ x : Block} {userMaps : List UserMap} {m : UserMap}
    (counts : x.Counts userMaps) (ok : mmz.Laid) (x₀Mem : x₀ ∈ mmz.allocated)
    (member : x ∈ mmz.allocated) (registered : m ∈ userMaps) (inside : x₀.Covers m.phys) :
    (x.addUserKref x₀.ptr (-1)).Counts (userMaps.erase m) := by
  have count : registeredIn userMaps x =
      registeredIn (userMaps.erase m) x + if x.Covers m.phys then 1 else 0 := by
    rw [← registeredIn_cons]
    exact (List.perm_cons_erase registered).countP_eq _
  have short : registeredIn (userMaps.erase m) x < 2 ^ 31 :=
    Nat.lt_of_le_of_lt (by rw [count]; exact Nat.le_add_right _ _) counts.short
  rw [← registeredIn_addUserKref _ x x₀.ptr (-1)] at short
  refine ⟨kref_addUserKref ok x₀Mem member inside counts.kref short ?_, short⟩
  rw [registeredIn_addUserKref, count]
  split <;> omega

theorem MapsCounted.mapAdd {s : UserSystem} (ok : MapsCounted s) {i : ℕ} {v : Vma}
    (coming : s.arriving[i]? = some v)
    (room : ∀ b ∈ s.mmz.getbyPhys2 v.phys, b.userKref + 1 < 2 ^ 31)
    (sameBlock : ∀ m ∈ s.userMaps, m.uvaddr = v.start →
      s.mmz.getbyPhys2 m.phys = s.mmz.getbyPhys2 v.phys) :
    MapsCounted
      { (arMmzUserMapAdd s v.start v.phys (v.stop - v.start) true).2 with
        vmas := v :: s.vmas
        arriving := s.arriving.eraseIdx i
        opened := { mapId := v.mapId, addr := v.start } :: s.opened } := by
  rcases ok.arriving v (List.mem_of_getElem? coming) with ⟨x₀, x₀Mem, within⟩
  have inside : x₀.Covers v.phys := within.covers
  rcases ok.mmz.getby_of_holds x₀Mem inside.1 inside.2 with ⟨b, found, rfl⟩
  have mmzEq : (arMmzUserMapAdd s v.start v.phys (v.stop - v.start) true).2.mmz =
      s.mmz.addUserKref b.ptr 1 := by
    simp only [arMmzUserMapAdd, found, if_true]
  have image := s.mmz.allocated_addUserKref b.ptr 1
  -- the registrations at the address of the mapping are in its block
  have inBlock : ∀ m ∈ s.userMaps, m.uvaddr = v.start → b.block.Covers m.phys := by
    intro m registered same
    have foundToo : s.mmz.getbyPhys2 m.phys = some b := (sameBlock m registered same).trans found
    exact (MmzState.getbyPhys2_spec foundToo).2
  refine ⟨?_, ?_, ?_, ?_, ?_, ?_⟩
  · rw [mmzEq]
    exact ok.mmz.addUserKref b.ptr 1
  · intro addr
    change List.countP _ (_ :: s.userMaps) = List.countP _ (_ :: s.opened)
    rw [List.countP_cons, List.countP_cons, ok.opened addr]
  · rw [mmzEq, image]
    intro m registered
    rcases List.mem_cons.mp registered with rfl | registered
    · exact ⟨_, ⟨b.block, x₀Mem, rfl⟩, Block.addUserKref_covers.mpr inside⟩
    · rcases ok.inBlock m registered with ⟨x, member, covers⟩
      exact ⟨_, ⟨x, member, rfl⟩, Block.addUserKref_covers.mpr covers⟩
  · rw [mmzEq, image]
    rintro _ ⟨x, member, rfl⟩
    exact (ok.kref x member).add ok.mmz x₀Mem member (m := ⟨v.start, v.phys, v.stop - v.start⟩)
      inside (room b found)
  · rw [mmzEq, image]
    intro w live
    rcases List.mem_cons.mp live with rfl | live
    · refine ⟨_, ⟨b.block, x₀Mem, rfl⟩, within.addUserKref b.ptr 1, _, List.mem_cons_self, rfl, ?_⟩
      intro m registered same
      rcases List.mem_cons.mp registered with rfl | registered
      · exact Block.addUserKref_covers.mpr inside
      · exact Block.addUserKref_covers.mpr (inBlock m registered same)
    · rcases ok.mapped w live with ⟨x, member, wWithin, o, openedMem, sameId, covers⟩
      refine ⟨_, ⟨x, member, rfl⟩, wWithin.addUserKref b.ptr 1, o,
        List.mem_cons_of_mem _ openedMem, sameId, ?_⟩
      intro m registered same
      apply Block.addUserKref_covers.mpr
      rcases List.mem_cons.mp registered with rfl | registered
      · -- a registration at the same address is already there, in both blocks
        rcases ok.exists_registered openedMem with ⟨old, oldMem, oldAddr⟩
        have here := inBlock old oldMem (oldAddr.trans same.symm)
        have blockEq := ok.mmz.eq_of_covers member x₀Mem (covers old oldMem oldAddr) here
        rw [blockEq]
        exact inside
      · exact covers m registered same
  · rw [mmzEq, image]
    intro w wMem
    rcases ok.arriving w (List.mem_of_mem_eraseIdx wMem) with ⟨x, member, wWithin⟩
    exact ⟨_, ⟨x, member, rfl⟩, wWithin.addUserKref b.ptr 1⟩

theorem MapsCounted.drop {s : UserSystem} (ok : MapsCounted s) {m : UserMap} {o : Opened}
    (registered : m ∈ s.userMaps) (openedMem : o ∈ s.opened) (same : m.uvaddr = o.addr)
    (unmapped : ∀ w ∈ s.vmas, w.mapId ≠ o.mapId) {dropping : List Drop} {mmz : MmzState}
    (mmzEq : ∃ x₀ ∈ s.mmz.allocated, x₀.Covers m.phys ∧ mmz = s.mmz.addUserKref x₀.ptr (-1)) :
    MapsCounted
      { s with mmz, dropping, userMaps := s.userMaps.erase m, opened := s.opened.erase o } := by
  rcases mmzEq with ⟨x₀, x₀Mem, inside, rfl⟩
  have image := s.mmz.allocated_addUserKref x₀.ptr (-1)
  have mapsPerm : s.userMaps.Perm (m :: s.userMaps.erase m) := List.perm_cons_erase registered
  have openedPerm : s.opened.Perm (o :: s.opened.erase o) := List.perm_cons_erase openedMem
  refine ⟨ok.mmz.addUserKref x₀.ptr (-1), ?_, ?_, ?_, ?_, ?_⟩
  · intro addr
    have before := ok.opened addr
    rw [mapsPerm.countP_eq, openedPerm.countP_eq, List.countP_cons, List.countP_cons,
      same] at before
    exact Nat.add_right_cancel before
  · rw [image]
    intro other otherMem
    rcases ok.inBlock other (List.mem_of_mem_erase otherMem) with ⟨x, member, covers⟩
    exact ⟨_, ⟨x, member, rfl⟩, Block.addUserKref_covers.mpr covers⟩
  · rw [image]
    rintro _ ⟨x, member, rfl⟩
    exact (ok.kref x member).erase ok.mmz x₀Mem member registered inside
  · rw [image]
    intro w live
    rcases ok.mapped w live with ⟨x, member, within, other, otherMem, sameId, covers⟩
    have different : other ≠ o := by
      rintro rfl
      exact unmapped w live sameId.symm
    refine ⟨_, ⟨x, member, rfl⟩, within.addUserKref x₀.ptr (-1), other,
      (List.mem_erase_of_ne different).mpr otherMem, sameId, ?_⟩
    intro entry entryMem addr
    exact Block.addUserKref_covers.mpr (covers entry (List.mem_of_mem_erase entryMem) addr)
  · rw [image]
    intro w coming
    rcases ok.arriving w coming with ⟨x, member, within⟩
    exact ⟨_, ⟨x, member, rfl⟩, within.addUserKref x₀.ptr (-1)⟩

theorem MapsCounted.dropNothing {s : UserSystem} (ok : MapsCounted s) {drop : Drop}
    (nothing : ∀ m ∈ s.userMaps, m.uvaddr ≠ drop.uvaddr) (dropping : List Drop) :
    MapsCounted
      { arMmzUserMapDel s drop.uvaddr with
        dropping
        opened := openedAfter s.opened drop } := by
  have notFound : (s.userMaps.find? fun m => m.uvaddr = drop.uvaddr) = none :=
    List.find?_eq_none.mpr fun m registered => by simpa using nothing m registered
  have unchanged : arMmzUserMapDel s drop.uvaddr = s := by
    rw [arMmzUserMapDel, notFound]
  have openedEq : openedAfter s.opened drop = s.opened := by
    cases drop with
    | userUnmap addr => rfl
    | close v =>
        apply List.erase_of_not_mem
        intro openedMem
        rcases ok.exists_registered openedMem with ⟨m, registered, same⟩
        exact nothing m registered same
  rw [unchanged, openedEq]
  exact ⟨ok.mmz, ok.opened, ok.inBlock, ok.kref, ok.mapped, ok.arriving⟩

theorem MapsCounted.mapDel {s : UserSystem} (ok : MapsCounted s) {drop : Drop}
    (balanced : s.Balanced drop) (dropping : List Drop) :
    MapsCounted
      { arMmzUserMapDel s drop.uvaddr with
        dropping
        opened := openedAfter s.opened drop } := by
  rcases balanced with ofMapping | nothing
  · rcases drop with v | addr
    case userUnmap => exact absurd ofMapping not_false
    rcases ofMapping with ⟨openedMem, unmapped⟩
    rcases ok.exists_registered openedMem with ⟨m', registered', same'⟩
    have some : (s.userMaps.find? fun m => m.uvaddr = v.start).isSome :=
      List.find?_isSome.mpr ⟨m', registered', decide_eq_true same'⟩
    rcases Option.isSome_iff_exists.mp some with ⟨m, found⟩
    have registered : m ∈ s.userMaps := List.mem_of_find?_eq_some found
    have same : m.uvaddr = v.start := by simpa using List.find?_some found
    rcases ok.inBlock m registered with ⟨x₀, x₀Mem, inside⟩
    rcases ok.mmz.getby_of_holds x₀Mem inside.1 inside.2 with ⟨b, foundBlock, rfl⟩
    have positive : 0 < b.userKref := ok.userKref_pos x₀Mem registered inside
    have done : arMmzUserMapDel s v.start =
        { s with mmz := s.mmz.addUserKref b.ptr (-1), userMaps := s.userMaps.erase m } := by
      rw [arMmzUserMapDel, found]
      simp only [foundBlock, if_pos positive]
    change MapsCounted { arMmzUserMapDel s v.start with
      dropping
      opened := s.opened.erase { mapId := v.mapId, addr := v.start } }
    rw [done]
    exact ok.drop registered openedMem same unmapped ⟨b.block, x₀Mem, inside, rfl⟩
  · exact ok.dropNothing nothing dropping

theorem Vma.Within.cut {v : Vma} {x : Block} (within : v.Within x) {lower upper : ℕ}
    (nonempty : lower < upper) (above : v.start ≤ lower) (below : upper ≤ v.stop) :
    (v.cut lower upper).Within x := by
  rcases within with ⟨_, begins, ends⟩
  refine ⟨nonempty, Nat.le_trans begins (Nat.le_add_right _ _), ?_⟩
  change v.phys + (lower - v.start) + (upper - lower) ≤ x.stop
  omega

theorem Vma.within_of_outside {v w : Vma} {lower upper : ℕ} (member : w ∈ v.outside lower upper) :
    w.mapId = v.mapId ∧ ∀ x, v.Within x → w.Within x := by
  rcases List.mem_filter.mp member with ⟨member, nonempty⟩
  have nonempty := of_decide_eq_true nonempty
  rcases List.mem_cons.mp member with rfl | member
  · exact ⟨rfl, fun x within => within.cut nonempty (Nat.le_refl _) (Nat.min_le_left _ _)⟩
  · rcases List.mem_singleton.mp member with rfl
    exact ⟨rfl, fun x within => within.cut nonempty (Nat.le_max_left _ _) (Nat.le_refl _)⟩

/-- The vmas may change to parts and copies of themselves. -/
theorem MapsCounted.withVmas {s : UserSystem} (ok : MapsCounted s) (vmas : List Vma)
    (dropping : List Drop)
    (parts : ∀ w ∈ vmas, ∃ v ∈ s.vmas, w.mapId = v.mapId ∧ ∀ x, v.Within x → w.Within x) :
    MapsCounted { s with vmas, dropping } := by
  refine ⟨ok.mmz, ok.opened, ok.inBlock, ok.kref, ?_, ok.arriving⟩
  intro w live
  rcases parts w live with ⟨v, vMem, sameId, within⟩
  rcases ok.mapped v vMem with ⟨x, member, vWithin, o, openedMem, idEq, covers⟩
  exact ⟨x, member, within x vWithin, o, openedMem, idEq.trans sameId.symm, covers⟩

theorem MapsCounted.munmap {s : UserSystem} (ok : MapsCounted s) (pid lower upper : ℕ) :
    MapsCounted (s.munmap pid lower upper) := by
  apply ok.withVmas _ _
  intro w member
  rcases List.mem_flatMap.mp member with ⟨v, vMem, piece⟩
  refine ⟨v, vMem, ?_⟩
  split at piece
  next => exact Vma.within_of_outside piece
  next =>
    cases List.mem_singleton.mp piece
    exact ⟨rfl, fun _ within => within⟩

theorem MapsCounted.fork {s : UserSystem} (ok : MapsCounted s) (parent child : ℕ) :
    MapsCounted (s.fork parent child) := by
  apply ok.withVmas _ s.dropping
  intro w member
  rcases List.mem_append.mp member with vMem | copied
  · exact ⟨w, vMem, rfl, fun _ within => within⟩
  · rcases List.mem_map.mp copied with ⟨v, vMem, rfl⟩
    exact ⟨v, List.mem_of_mem_filter vMem, rfl, fun _ within => within⟩

theorem MapsCounted.exit {s : UserSystem} (ok : MapsCounted s) (pid : ℕ) :
    MapsCounted (s.exit pid) :=
  ok.withVmas _ _ fun w member =>
    ⟨w, List.mem_of_mem_filter member, rfl, fun _ within => within⟩

theorem MapsCounted.willDrop {s : UserSystem} (ok : MapsCounted s) (drop : Drop) :
    MapsCounted (s.willDrop drop) :=
  ⟨ok.mmz, ok.opened, ok.inBlock, ok.kref, ok.mapped, ok.arriving⟩

theorem MapsCounted.mmap {s : UserSystem} (ok : MapsCounted s) (pid addr : ℕ) {len pgoff : ℕ}
    (nonempty : len ≠ 0)
    (inside : ∀ phys, mmapPhys s pgoff (pages len) = some phys →
      ∃ b ∈ s.mmz.blocks, b.phys ≤ phys ∧ phys + pages len ≤ b.phys + b.size) :
    MapsCounted (arMmzMmapWc s pid addr len pgoff).2 := by
  rw [arMmzMmapWc]
  split
  next => exact ok
  next phys checked =>
    refine ⟨ok.mmz, ok.opened, ok.inBlock, ok.kref, ok.mapped, ?_⟩
    intro w coming
    rcases List.mem_cons.mp coming with rfl | coming
    · rcases inside phys checked with ⟨b, linked, above, below⟩
      have positive : 0 < pages len := Nat.lt_of_lt_of_le (by omega) (le_pages len)
      refine ⟨b.block, MmzState.mem_allocated linked, ?_, above, ?_⟩
      · change addr < addr + pages len
        omega
      · change phys + (addr + pages len - addr) ≤ b.phys + b.size
        omega
    · exact ok.arriving w coming

theorem KeepingStep.mapsCounted {s next : UserSystem} {event : UserEvent} (ok : MapsCounted s)
    (step : KeepingStep s event next) : MapsCounted next := by
  rcases step with ⟨keepsMaps, step⟩
  cases event with
  | mmbAlloc zoneName size align kzallocOk =>
      cases step
      rcases ok.mmz.hilMmbAlloc_cases zoneName size align kzallocOk with
        ⟨nb, mmz, done, allocates⟩ | done
      · rw [done]
        exact ok.allocates allocates
      · rw [done]
        exact ok
  | mmbFree phys =>
      cases step
      rcases ok.mmz.iocMmbFree_cases phys with ⟨b, unlinks, linked, frees⟩ | keeps
      · exact ok.frees linked (MmzState.freeUnlinks_unmapped unlinks) (keepsMaps b unlinks) frees
      · exact ok.keeps keeps
  | mmbGet phys =>
      cases step
      exact ok.keeps (ok.mmz.iocMmbGet_keeps phys)
  | mmbPut phys =>
      cases step
      rcases ok.mmz.iocMmbPut_cases phys with ⟨b, unlinks, linked, frees⟩ | keeps
      · exact ok.frees linked (MmzState.putUnlinks_unmapped unlinks) (keepsMaps b unlinks) frees
      · exact ok.keeps keeps
  | mmap pid addr len pgoff =>
      rcases Option.ite_none_right_eq_some.mp step with ⟨allowed, done⟩
      cases done
      exact ok.mmap pid addr allowed.2.1 keepsMaps
  | mapAdd i kzallocOk =>
      simp only [userStep] at step
      split at step
      next => exact absurd step nofun
      next v coming =>
        cases step
        rcases keepsMaps v coming with ⟨rfl, room, sameBlock⟩
        exact ok.mapAdd coming room sameBlock
  | munmap pid addr len =>
      rcases Option.ite_none_right_eq_some.mp step with ⟨_, done⟩
      cases done
      exact ok.munmap pid addr _
  | fork parent child =>
      rcases Option.ite_none_right_eq_some.mp step with ⟨_, done⟩
      cases done
      exact ok.fork parent child
  | exit pid =>
      rcases Option.ite_none_left_eq_some.mp step with ⟨_, done⟩
      cases done
      exact ok.exit pid
  | userUnmap pid addr len unmapOk =>
      simp only [userStep] at step
      split at step
      next =>
        cases step
        exact ok
      next =>
        split at step
        next =>
          cases step
          exact ok.willDrop _
        next =>
          rcases Option.ite_none_right_eq_some.mp step with ⟨_, done⟩
          cases done
          exact (ok.munmap pid addr _).willDrop _
  | mapDel i =>
      simp only [userStep] at step
      split at step
      next => exact absurd step nofun
      next drop outstanding =>
        cases step
        exact ok.mapDel (keepsMaps drop outstanding) _

theorem MapsCounted.loaded {zones : List MmzZone} (created : ZonesCreated zones) :
    MapsCounted (.loaded zones) := by
  have nothing : ∀ x, x ∉ MmzState.allocated { zones, nextPtr := 0, freed := [] } := by
    rintro x ⟨b, linked, _⟩
    exact Nat.not_lt_zero _ ((created.laid.accounted b.ptr).mp ⟨b, linked, rfl⟩).1
  exact ⟨created.laid, fun _ => rfl, fun m member => absurd member List.not_mem_nil,
    fun x member => absurd member (nothing x), fun v member => absurd member List.not_mem_nil,
    fun v member => absurd member List.not_mem_nil⟩

def MmzState.Unlinks (before after : MmzState) (b : Mmb) : Prop :=
  b ∈ before.blocks ∧ ∀ c ∈ after.blocks, c.ptr ≠ b.ptr

/-- What a mapping is promised: its block counts it, and a `FREE` or `PUT` under the
condition unlinks no block under it. -/
structure MapsProtected (s : UserSystem) : Prop where
  counted : ∀ v ∈ s.vmas, ∀ b ∈ s.mmz.blocks, v.Maps b → 0 < b.userKref
  notFreed : ∀ phys, KeepsMaps s (.mmbFree phys) → ∀ b, s.mmz.Unlinks (s.mmz.iocMmbFree phys).2 b →
    ∀ v ∈ s.vmas ++ s.arriving, ¬ v.Maps b
  notPut : ∀ phys, KeepsMaps s (.mmbPut phys) → ∀ b, s.mmz.Unlinks (s.mmz.iocMmbPut phys).2 b →
    ∀ v ∈ s.vmas ++ s.arriving, ¬ v.Maps b

theorem MmzState.Keeps.not_unlinks {mmz after : MmzState} (keeps : mmz.Keeps after) {b : Mmb} :
    ¬ mmz.Unlinks after b := by
  rintro ⟨linked, gone⟩
  have still := mem_allocated linked
  rw [← keeps.allocated_eq] at still
  rcases still with ⟨c, member, same⟩
  exact gone c member (congrArg Block.ptr same)

theorem MmzState.Frees.eq_of_unlinks {mmz after : MmzState} (ok : mmz.Laid) {b c : Mmb}
    (frees : mmz.Frees b.ptr after) (linked : b ∈ mmz.blocks) (unlinks : mmz.Unlinks after c) :
    c = b := by
  rcases unlinks with ⟨member, gone⟩
  refine ok.distinct c member b linked (not_not.mp fun different => ?_)
  have still : c.block ∈ after.allocated := by
    rw [frees.allocated_eq]
    exact ⟨mem_allocated member, different⟩
  rcases still with ⟨d, dMem, same⟩
  exact gone d dMem (congrArg Block.ptr same)

theorem MapsCounted.userKref_pos_of_maps {s : UserSystem} (ok : MapsCounted s) {v : Vma}
    (live : v ∈ s.vmas) {b : Mmb} (linked : b ∈ s.mmz.blocks) (maps : v.Maps b) :
    0 < b.userKref := by
  rcases ok.mapped v live with ⟨x, member, within, o, openedMem, _, covers⟩
  have blockEq : x = b.block := by
    refine ok.mmz.eq_of_ptr member (MmzState.mem_allocated linked)
      (not_not.mp fun different => ?_)
    rcases within with ⟨_, begins, ends⟩
    rcases maps with ⟨nonempty, below, above⟩
    rcases ok.mmz.apart_of_ne member (MmzState.mem_allocated linked) different with before | after
    · change x.stop ≤ b.phys at before
      omega
    · change b.phys + b.size ≤ x.phys at after
      omega
  subst blockEq
  rcases ok.exists_registered openedMem with ⟨m, registered, same⟩
  exact ok.userKref_pos member registered (covers m registered same)

/-- A block without user count is not mapped, unless an `mmap` of it is on its way. -/
theorem MapsCounted.not_maps {s : UserSystem} (ok : MapsCounted s) {b : Mmb}
    (linked : b ∈ s.mmz.blocks) (unmapped : b.userKref ≤ 0)
    (notArriving : ∀ v ∈ s.arriving, ¬ v.Maps b) : ∀ v ∈ s.vmas ++ s.arriving, ¬ v.Maps b := by
  intro v member maps
  rcases List.mem_append.mp member with live | coming
  · have := ok.userKref_pos_of_maps live linked maps
    omega
  · exact notArriving v coming maps

theorem MapsCounted.mapsProtected {s : UserSystem} (ok : MapsCounted s) : MapsProtected s := by
  refine ⟨fun v live b linked maps => ok.userKref_pos_of_maps live linked maps, ?_, ?_⟩
  · intro phys keepsMaps c unlinked
    rcases ok.mmz.iocMmbFree_cases phys with ⟨b, unlinks, linked, frees⟩ | keeps
    · rw [frees.eq_of_unlinks ok.mmz linked unlinked]
      exact ok.not_maps linked (MmzState.freeUnlinks_unmapped unlinks) (keepsMaps b unlinks)
    · exact absurd unlinked keeps.not_unlinks
  · intro phys keepsMaps c unlinked
    rcases ok.mmz.iocMmbPut_cases phys with ⟨b, unlinks, linked, frees⟩ | keeps
    · rw [frees.eq_of_unlinks ok.mmz linked unlinked]
      exact ok.not_maps linked (MmzState.putUnlinks_unmapped unlinks) (keepsMaps b unlinks)
    · exact absurd unlinked keeps.not_unlinks

/-- No block is freed under a mapping, in every run in which the registry can tell the
mappings apart. -/
theorem userMaps_protect {zones : List MmzZone} (created : ZonesCreated zones)
    {events : List UserEvent} {s : UserSystem}
    (run : Run KeepingStep (.loaded zones) events s) : MapsProtected s := by
  have ok : MapsCounted s :=
    run.invariant (fun _ _ _ ok step => KeepingStep.mapsCounted ok step) (.loaded created)
  exact ok.mapsProtected

/-- A page is unmapped from the middle of a mapping, and `FREE` is still refused. -/
theorem userMaps_protect_partial :
    ∃ s, Run KeepingStep (.loaded [anonymousZone])
        [.mmbAlloc "" 0x3000 0x1000 true, .mmap 1 0x10000 0x3000 0x29200, .mapAdd 0 true,
          .munmap 1 0x11000 0x1000, .mapDel 0, .mmbFree 0x29200000] s ∧
      s.vmas.length = 2 ∧ s.mmz.blocks.length = 1 ∧ MapsProtected s := by
  have checked : ([.mmbAlloc "" 0x3000 0x1000 true, .mmap 1 0x10000 0x3000 0x29200,
      .mapAdd 0 true, .munmap 1 0x11000 0x1000, .mapDel 0, .mmbFree 0x29200000].foldlM
        (fun s event => if KeepsMaps s event then userStep s event else none)
        (UserSystem.loaded [anonymousZone])).any (fun s =>
      decide (s.vmas.length = 2 ∧ s.mmz.blocks.length = 1)) = true := by
    decide +kernel
  rcases (Option.any_eq_true _ _).mp checked with ⟨s, done, facts⟩
  rcases of_decide_eq_true facts with ⟨pieces, one⟩
  have run := Run.of_foldlM_guarded KeepsMaps userStep done
  exact ⟨s, run, pieces, one, userMaps_protect zonesCreated_anonymous run⟩

/-- A child keeps its parent's mapping; when the parent exits, the registration goes. -/
theorem userMaps_not_protect :
    ¬ ∀ (zones : List MmzZone), ZonesCreated zones → ∀ (events : List UserEvent) (s : UserSystem),
      Run (fun s event next => userStep s event = some next) (.loaded zones) events s →
        MapsProtected s := by
  intro protect
  have forked : ([.mmbAlloc "" 0x1000 0x1000 true, .mmap 1 0x10000 0x1000 0x29200, .mapAdd 0 true,
      .fork 1 2, .exit 1, .mapDel 0].foldlM userStep (UserSystem.loaded [anonymousZone])).any
      (fun s => s.vmas.any fun v => s.mmz.blocks.any fun b =>
        decide (v.Maps b ∧ b.userKref = 0)) = true := by
    decide +kernel
  rcases (Option.any_eq_true _ _).mp forked with ⟨s, done, facts⟩
  rcases List.any_eq_true.mp facts with ⟨v, live, facts⟩
  rcases List.any_eq_true.mp facts with ⟨b, linked, facts⟩
  rcases of_decide_eq_true facts with ⟨maps, uncounted⟩
  have counted := (protect _ zonesCreated_anonymous _ s (Run.of_foldlM userStep done)).counted
    v live b linked maps
  omega

end MlKernel.Mmz
