import Mathlib.Algebra.Ring.Int.Defs
import Mathlib.Data.List.Pairwise
import Mathlib.Data.Set.Insert
import MlKernel.Mmz.Zone

/-!
# The MMZ device

All zones together, under `ar_mmz_lock`: allocation by zone name, lookup by
physical address, and the ioctls that free a block, which find it by any address
inside it.

`MmzState.allocated` is the abstract view: the set of allocated extents, each
under its descriptor and with its user count.  Every operation is one set
operation on it, as long as the zones lie apart and no descriptor is freed twice
(`MmzState.Laid`).
-/

namespace MlKernel.Mmz

inductive Errno
  | einval
  | ebusy
  | enomem
  | enospc
  deriving DecidableEq, Repr

/-- Everything that `ar_mmz_lock` guards, and the descriptors passed to `kfree`. -/
structure MmzState where
  zones : List MmzZone
  nextPtr : ℕ
  freed : List ℕ
  deriving DecidableEq

/-- The blocks in the order of the lookups. -/
def MmzState.blocks (s : MmzState) : List Mmb := s.zones.flatMap MmzZone.mmbList

/-- `zone_find_by_name`: the position in `g_zone_list`. -/
def zoneFindByName (zones : List MmzZone) (name : String) : Option ℕ :=
  if name = "" then
    match zones.findIdx? fun z => z.name = "anonymous" with
    | some i => some i
    | none => if zones = [] then none else some 0
  else zones.findIdx? fun z => z.name = name

def MmzState.hilMmbAlloc (s : MmzState) (zoneName : String) (size align : ℕ) (kzallocOk : Bool) :
    Option Mmb × MmzState :=
  match zoneFindByName s.zones zoneName with
  | none => (none, s)
  | some i =>
    match s.zones[i]? with
    | none => (none, s)
    | some z =>
      match zoneAllocLocked z (if kzallocOk then some s.nextPtr else none) size align with
      | (none, z) => (none, { s with zones := s.zones.set i z })
      | (some nb, z) => (some nb, { s with zones := s.zones.set i z, nextPtr := s.nextPtr + 1 })

/-- `hil_mmb_free`: the descriptor leaves its list and is freed. -/
def MmzState.hilMmbFree (s : MmzState) (ptr : ℕ) : MmzState :=
  { s with zones := s.zones.map fun z => unlinkBlock z ptr, freed := ptr :: s.freed }

def MmzState.modify (s : MmzState) (ptr : ℕ) (change : Mmb → Mmb) : MmzState :=
  { s with
    zones := s.zones.map fun z =>
      { z with mmbList := z.mmbList.map fun b => if b.ptr = ptr then change b else b } }

/-- The test of `__getby_phys_2`. -/
def Mmb.holds (b : Mmb) (phys : ℕ) : Bool :=
  b.phys ≤ phys && phys < (b.phys + b.size) % 2 ^ 64

def MmzState.getbyPhys2 (s : MmzState) (phys : ℕ) : Option Mmb :=
  s.blocks.find? fun b => b.holds phys

/-- An `int` or an `atomic_t` after an addition. -/
def wrapInt (n : ℤ) : ℤ := n.bmod (2 ^ 32)

/-- `handle_m`, `IOC_MMB_FREE`. -/
def MmzState.iocMmbFree (s : MmzState) (phys : ℕ) : Except Errno Unit × MmzState :=
  match s.getbyPhys2 phys with
  | none => (.error .einval, s)
  | some b =>
    if 0 < b.userKref ∨ 0 < b.mapKref then (.error .ebusy, s)
    else (.ok (), s.hilMmbFree b.ptr)

/-- `handle_r`, get. -/
def MmzState.iocMmbGet (s : MmzState) (phys : ℕ) : Except Errno Unit × MmzState :=
  match s.getbyPhys2 phys with
  | none => (.error .einval, s)
  | some b =>
    (.ok (), s.modify b.ptr fun b => { b with refcount := wrapInt (b.refcount + 1) })

/-- `handle_r`, put. -/
def MmzState.iocMmbPut (s : MmzState) (phys : ℕ) : Except Errno Unit × MmzState :=
  match s.getbyPhys2 phys with
  | none => (.error .einval, s)
  | some b =>
    let refcount := wrapInt (b.refcount - 1)
    let s := s.modify b.ptr fun b => { b with refcount }
    if refcount ≤ 0 ∧ b.userKref = 0 ∧ b.mapKref = 0 then (.ok (), s.hilMmbFree b.ptr)
    else (.ok (), s)

/-- An allocated extent. -/
structure Block where
  ptr : ℕ
  phys : ℕ
  size : ℕ
  userKref : ℤ

def Block.stop (b : Block) : ℕ := b.phys + b.size

def Mmb.block (b : Mmb) : Block :=
  { ptr := b.ptr, phys := b.phys, size := b.size, userKref := b.userKref }

/-- The abstract state: what is allocated. -/
def MmzState.allocated (s : MmzState) : Set Block := {x | ∃ b ∈ s.blocks, b.block = x}

def Apart (start₁ stop₁ start₂ stop₂ : ℕ) : Prop := stop₁ ≤ start₂ ∨ stop₂ ≤ start₁

def ZonesApart (a b : MmzZone) : Prop := Apart a.base (a.base + a.size) b.base (b.base + b.size)

instance : Std.Symm ZonesApart := ⟨fun _ _ apart => Or.symm apart⟩

/-- The zones are laid out, apart from one another, and every descriptor handed out is
either linked or was freed once. -/
structure MmzState.Laid (s : MmzState) : Prop where
  zones : ∀ z ∈ s.zones, ZoneLaid z
  apart : s.zones.Pairwise ZonesApart
  distinct : ∀ b ∈ s.blocks, ∀ c ∈ s.blocks, b.ptr = c.ptr → b = c
  freedOnce : s.freed.Nodup
  freedLt : ∀ ptr ∈ s.freed, ptr < s.nextPtr
  accounted : ∀ ptr, (∃ b ∈ s.blocks, b.ptr = ptr) ↔ ptr < s.nextPtr ∧ ptr ∉ s.freed

theorem MmzState.mem_blocks {s : MmzState} {b : Mmb} :
    b ∈ s.blocks ↔ ∃ z ∈ s.zones, b ∈ z.mmbList :=
  List.mem_flatMap

theorem MmzState.mem_blocks_hilMmbFree {s : MmzState} {ptr : ℕ} {b : Mmb} :
    b ∈ (s.hilMmbFree ptr).blocks ↔ b ∈ s.blocks ∧ b.ptr ≠ ptr := by
  simp only [mem_blocks, hilMmbFree, List.mem_map]
  constructor
  · rintro ⟨_, ⟨z, zone, rfl⟩, member⟩
    rcases List.mem_filter.mp member with ⟨member, different⟩
    exact ⟨⟨z, zone, member⟩, of_decide_eq_true different⟩
  · rintro ⟨⟨z, zone, member⟩, different⟩
    exact ⟨_, ⟨z, zone, rfl⟩, List.mem_filter.mpr ⟨member, decide_eq_true different⟩⟩

theorem MmzState.mem_blocks_modify {s : MmzState} {ptr : ℕ} {change : Mmb → Mmb} {b : Mmb} :
    b ∈ (s.modify ptr change).blocks ↔
      ∃ old ∈ s.blocks, (if old.ptr = ptr then change old else old) = b := by
  simp only [mem_blocks, modify, List.mem_map]
  constructor
  · rintro ⟨_, ⟨z, zone, rfl⟩, member⟩
    rcases List.mem_map.mp member with ⟨old, oldMem, rfl⟩
    exact ⟨old, ⟨z, zone, oldMem⟩, rfl⟩
  · rintro ⟨old, ⟨z, zone, oldMem⟩, rfl⟩
    exact ⟨_, ⟨z, zone, rfl⟩, List.mem_map.mpr ⟨old, oldMem, rfl⟩⟩

namespace MmzState

theorem mem_allocated {s : MmzState} {b : Mmb} (member : b ∈ s.blocks) : b.block ∈ s.allocated :=
  ⟨b, member, rfl⟩

theorem Laid.eq_of_ptr {s : MmzState} (ok : s.Laid) {x y : Block}
    (xMem : x ∈ s.allocated) (yMem : y ∈ s.allocated)
    (same : x.ptr = y.ptr) : x = y := by
  rcases xMem with ⟨b, bMem, rfl⟩
  rcases yMem with ⟨c, cMem, rfl⟩
  rw [ok.distinct b bMem c cMem same]

theorem Laid.apart_of_ne {s : MmzState} (ok : s.Laid) {x y : Block} (xMem : x ∈ s.allocated)
    (yMem : y ∈ s.allocated) (different : x.ptr ≠ y.ptr) : Apart x.phys x.stop y.phys y.stop := by
  rcases xMem with ⟨b, bMem, rfl⟩
  rcases yMem with ⟨c, cMem, rfl⟩
  rcases mem_blocks.mp bMem with ⟨z, zone, bMem⟩
  rcases mem_blocks.mp cMem with ⟨w, other, cMem⟩
  by_cases same : z = w
  · subst same
    exact (ok.zones z zone).laid.disjoint bMem cMem fun eq => different (congrArg Mmb.ptr eq)
  · have zonesApart : ZonesApart z w := ok.apart.forall zone other same
    have bAbove := (ok.zones z zone).above b bMem
    have bBelow := (ok.zones z zone).below b bMem
    have cAbove := (ok.zones w other).above c cMem
    have cBelow := (ok.zones w other).below c cMem
    rcases zonesApart with before | after
    · exact Or.inl (Nat.le_trans bBelow (Nat.le_trans before cAbove))
    · exact Or.inr (Nat.le_trans cBelow (Nat.le_trans after bAbove))

theorem Laid.stop_lt {s : MmzState} (ok : s.Laid) {x : Block} (member : x ∈ s.allocated) :
    x.stop < 2 ^ 64 := by
  rcases member with ⟨b, bMem, rfl⟩
  rcases mem_blocks.mp bMem with ⟨z, zone, bMem⟩
  have laid := ok.zones z zone
  have inRange := laid.inRange
  have positive := laid.nonempty b bMem
  have above := laid.above b bMem
  have below : b.phys + b.size ≤ z.base + z.size := laid.below b bMem
  change b.phys + b.size < 2 ^ 64
  omega

theorem getbyPhys2_spec {s : MmzState} {phys : ℕ} {b : Mmb} (found : s.getbyPhys2 phys = some b) :
    b ∈ s.blocks ∧ b.phys ≤ phys ∧ phys < b.stop := by
  have member := List.mem_of_find?_eq_some found
  have holds := List.find?_some found
  simp only [Mmb.holds, Bool.and_eq_true, decide_eq_true_eq] at holds
  exact ⟨member, holds.1, Nat.lt_of_lt_of_le holds.2 (Nat.mod_le _ _)⟩

theorem Laid.getby_of_holds {s : MmzState} (ok : s.Laid) {x : Block} {phys : ℕ}
    (member : x ∈ s.allocated) (above : x.phys ≤ phys) (below : phys < x.stop) :
    ∃ b, s.getbyPhys2 phys = some b ∧ b.block = x := by
  rcases member with ⟨c, cMem, rfl⟩
  have inRange : c.phys + c.size < 2 ^ 64 := ok.stop_lt (mem_allocated cMem)
  have holds : c.holds phys = true := by
    rw [Mmb.holds, Nat.mod_eq_of_lt inRange]
    exact Bool.and_eq_true_iff.mpr ⟨decide_eq_true above, decide_eq_true below⟩
  have found : (s.getbyPhys2 phys).isSome := List.find?_isSome.mpr ⟨c, cMem, holds⟩
  rcases Option.isSome_iff_exists.mp found with ⟨b, found⟩
  refine ⟨b, found, ?_⟩
  rcases getbyPhys2_spec found with ⟨bMem, bAbove, bBelow⟩
  by_cases same : b.ptr = c.ptr
  · rw [ok.distinct b bMem c cMem same]
  · have bStop : phys < b.block.stop := bBelow
    have bStart : b.block.phys ≤ phys := bAbove
    rcases ok.apart_of_ne (mem_allocated bMem) (mem_allocated cMem) same with before | after
    · omega
    · omega

theorem allocated_hilMmbFree (s : MmzState) (ptr : ℕ) :
    (s.hilMmbFree ptr).allocated = {x ∈ s.allocated | x.ptr ≠ ptr} := by
  ext x
  constructor
  · rintro ⟨b, member, rfl⟩
    rcases mem_blocks_hilMmbFree.mp member with ⟨member, different⟩
    exact ⟨mem_allocated member, different⟩
  · rintro ⟨⟨b, member, rfl⟩, different⟩
    exact mem_allocated (mem_blocks_hilMmbFree.mpr ⟨member, different⟩)

theorem allocated_modify {s : MmzState} {ptr : ℕ} {change : Mmb → Mmb}
    (keeps : ∀ b, (change b).block = b.block) : (s.modify ptr change).allocated = s.allocated := by
  ext x
  constructor
  · rintro ⟨b, member, rfl⟩
    rcases mem_blocks_modify.mp member with ⟨old, oldMem, rfl⟩
    refine ⟨old, oldMem, ?_⟩
    split
    next => exact (keeps old).symm
    next => rfl
  · rintro ⟨old, oldMem, rfl⟩
    refine ⟨_, mem_blocks_modify.mpr ⟨old, oldMem, rfl⟩, ?_⟩
    split
    next => exact keeps old
    next => rfl

theorem Laid.hilMmbFree {s : MmzState} (ok : s.Laid) {b : Mmb} (linked : b ∈ s.blocks) :
    (s.hilMmbFree b.ptr).Laid where
  zones := by
    rintro _ member
    rcases List.mem_map.mp member with ⟨z, zone, rfl⟩
    exact (ok.zones z zone).unlink b.ptr
  apart := by
    apply List.pairwise_map.mpr
    exact ok.apart
  distinct := by
    intro c cMem d dMem same
    exact ok.distinct c (mem_blocks_hilMmbFree.mp cMem).1 d (mem_blocks_hilMmbFree.mp dMem).1 same
  freedOnce := by
    have : b.ptr ∉ s.freed := ((ok.accounted b.ptr).mp ⟨b, linked, rfl⟩).2
    exact List.nodup_cons.mpr ⟨this, ok.freedOnce⟩
  freedLt := by
    intro ptr member
    rcases List.mem_cons.mp member with rfl | member
    · exact ((ok.accounted b.ptr).mp ⟨b, linked, rfl⟩).1
    · exact ok.freedLt ptr member
  accounted := by
    intro ptr
    constructor
    · rintro ⟨c, cMem, rfl⟩
      rcases mem_blocks_hilMmbFree.mp cMem with ⟨cMem, different⟩
      rcases (ok.accounted c.ptr).mp ⟨c, cMem, rfl⟩ with ⟨handedOut, notFreed⟩
      refine ⟨handedOut, ?_⟩
      change c.ptr ∉ b.ptr :: s.freed
      simp [different, notFreed]
    · rintro ⟨handedOut, notFreed⟩
      change ptr ∉ b.ptr :: s.freed at notFreed
      rw [List.mem_cons, not_or] at notFreed
      rcases (ok.accounted ptr).mpr ⟨handedOut, notFreed.2⟩ with ⟨c, cMem, rfl⟩
      exact ⟨c, mem_blocks_hilMmbFree.mpr ⟨cMem, notFreed.1⟩, rfl⟩

theorem Laid.modify {s : MmzState} (ok : s.Laid) (ptr : ℕ) {change : Mmb → Mmb}
    (keeps : ∀ b, (change b).ptr = b.ptr ∧ (change b).phys = b.phys ∧ (change b).size = b.size) :
    (s.modify ptr change).Laid := by
  have keepsIf : ∀ b, (if b.ptr = ptr then change b else b).ptr = b.ptr ∧
      (if b.ptr = ptr then change b else b).phys = b.phys ∧
      (if b.ptr = ptr then change b else b).size = b.size := by
    intro b
    split
    next => exact keeps b
    next => exact ⟨rfl, rfl, rfl⟩
  refine ⟨?_, List.pairwise_map.mpr ok.apart, ?_, ok.freedOnce, ok.freedLt, ?_⟩
  · rintro _ member
    rcases List.mem_map.mp member with ⟨z, zone, rfl⟩
    exact (ok.zones z zone).map fun b => (keepsIf b).2
  · intro c cMem d dMem same
    rcases mem_blocks_modify.mp cMem with ⟨oldC, oldCMem, rfl⟩
    rcases mem_blocks_modify.mp dMem with ⟨oldD, oldDMem, rfl⟩
    rw [(keepsIf oldC).1, (keepsIf oldD).1] at same
    rw [ok.distinct oldC oldCMem oldD oldDMem same]
  · intro other
    change _ ↔ other < s.nextPtr ∧ other ∉ s.freed
    rw [← ok.accounted other]
    constructor
    · rintro ⟨c, cMem, rfl⟩
      rcases mem_blocks_modify.mp cMem with ⟨old, oldMem, rfl⟩
      exact ⟨old, oldMem, (keepsIf old).1.symm⟩
    · rintro ⟨old, oldMem, rfl⟩
      exact ⟨_, mem_blocks_modify.mpr ⟨old, oldMem, rfl⟩, (keepsIf old).1⟩

/-- What a successful allocation of `size` bytes does. -/
structure Allocates (s : MmzState) (size : ℕ) (nb : Mmb) (after : MmzState) : Prop where
  laid : after.Laid
  allocated_eq : after.allocated = insert nb.block s.allocated
  ptr_eq : nb.ptr = s.nextPtr
  large : size ≤ nb.size
  unmapped : nb.userKref = 0

theorem exists_zone {zones : List MmzZone} {i : ℕ} {z : MmzZone} (found : zones[i]? = some z) :
    ∃ before after, zones = before ++ z :: after ∧
      ∀ new, zones.set i new = before ++ new :: after := by
  rcases List.getElem?_eq_some_iff.mp found with ⟨inside, rfl⟩
  refine ⟨zones.take i, zones.drop (i + 1), ?_, fun new => ?_⟩
  · rw [List.getElem_cons_drop, List.take_append_drop]
  · rw [List.set_eq_take_append_cons_drop, if_pos inside]

section Granted

variable {s : MmzState} {before after : List MmzZone} {z : MmzZone}

theorem mem_blocks_granted (zones : s.zones = before ++ z :: after) (size align : ℕ) (b : Mmb) :
    b ∈ MmzState.blocks { s with
        zones := before ++ Mmz.granted z s.nextPtr size align :: after
        nextPtr := s.nextPtr + 1 } ↔
      b = newMmb s.nextPtr (lowestFit z size align) (pages size) (effectiveAlign align) ∨
        b ∈ s.blocks := by
  simp only [MmzState.blocks, zones, List.flatMap_append, List.flatMap_cons, List.mem_append,
    Mmz.granted, mem_insertBlock]
  tauto

/-- The zone in which the new block lands, among the others. -/
theorem Laid.granted (ok : s.Laid) (zones : s.zones = before ++ z :: after) {size align : ℕ}
    (room : HasRoom z size align) :
    s.Allocates size
      (newMmb s.nextPtr (lowestFit z size align) (pages size) (effectiveAlign align))
      { s with
        zones := before ++ Mmz.granted z s.nextPtr size align :: after
        nextPtr := s.nextPtr + 1 } := by
  have zoneMem : z ∈ s.zones := by
    rw [zones]
    exact List.mem_append_right before List.mem_cons_self
  have memIff := mem_blocks_granted zones size align
  have linkedLt : ∀ b ∈ s.blocks, b.ptr < s.nextPtr := fun b member =>
    ((ok.accounted b.ptr).mp ⟨b, member, rfl⟩).1
  refine ⟨⟨?_, ?_, ?_, ok.freedOnce, fun ptr freed => Nat.lt_succ_of_lt (ok.freedLt ptr freed), ?_⟩,
    ?_, rfl, le_pages size, rfl⟩
  · intro w member
    have old : w ∈ before ++ z :: after ∨ w = Mmz.granted z s.nextPtr size align := by
      simp only [List.mem_append, List.mem_cons] at member ⊢
      tauto
    rcases old with old | rfl
    · rw [← zones] at old
      exact ok.zones w old
    · exact (ok.zones z zoneMem).granted s.nextPtr room
  · have apart := ok.apart
    rw [zones, List.pairwise_append, List.pairwise_cons] at apart
    rw [List.pairwise_append, List.pairwise_cons]
    refine ⟨apart.1, apart.2.1, fun w wMem v vMem => ?_⟩
    rcases List.mem_cons.mp vMem with rfl | vMem
    · exact apart.2.2 w wMem z List.mem_cons_self
    · exact apart.2.2 w wMem v (List.mem_cons_of_mem z vMem)
  · intro b bMem c cMem same
    rcases (memIff b).mp bMem with rfl | bMem
    · rcases (memIff c).mp cMem with rfl | cMem
      · rfl
      · exact absurd same.symm (Nat.ne_of_lt (linkedLt c cMem))
    · rcases (memIff c).mp cMem with rfl | cMem
      · exact absurd same (Nat.ne_of_lt (linkedLt b bMem))
      · exact ok.distinct b bMem c cMem same
  · intro ptr
    constructor
    · rintro ⟨b, bMem, rfl⟩
      rcases (memIff b).mp bMem with rfl | bMem
      · exact ⟨Nat.lt_succ_self s.nextPtr, fun freed =>
          absurd (ok.freedLt s.nextPtr freed) (Nat.lt_irrefl s.nextPtr)⟩
      · rcases (ok.accounted b.ptr).mp ⟨b, bMem, rfl⟩ with ⟨handedOut, notFreed⟩
        exact ⟨Nat.lt_succ_of_lt handedOut, notFreed⟩
    · rintro ⟨handedOut, notFreed⟩
      rcases Nat.lt_succ_iff_lt_or_eq.mp handedOut with older | rfl
      · rcases (ok.accounted ptr).mpr ⟨older, notFreed⟩ with ⟨b, bMem, rfl⟩
        exact ⟨b, (memIff b).mpr (Or.inr bMem), rfl⟩
      · exact ⟨_, (memIff _).mpr (Or.inl rfl), rfl⟩
  · ext x
    constructor
    · rintro ⟨b, bMem, rfl⟩
      rcases (memIff b).mp bMem with rfl | bMem
      · exact Or.inl rfl
      · exact Or.inr (mem_allocated bMem)
    · rintro (rfl | ⟨b, bMem, rfl⟩)
      · exact mem_allocated ((memIff _).mpr (Or.inl rfl))
      · exact mem_allocated ((memIff b).mpr (Or.inr bMem))

end Granted

theorem Laid.hilMmbAlloc_cases {s : MmzState} (ok : s.Laid) (zoneName : String)
    (size align : ℕ) (kzallocOk : Bool) :
    (∃ nb after, s.hilMmbAlloc zoneName size align kzallocOk = (some nb, after) ∧
      s.Allocates size nb after) ∨
    s.hilMmbAlloc zoneName size align kzallocOk = (none, s) := by
  rw [MmzState.hilMmbAlloc]
  split
  next => exact Or.inr rfl
  next i _ =>
    split
    next => exact Or.inr rfl
    next z found =>
      rcases exists_zone found with ⟨before, after, zones, set⟩
      have member : z ∈ s.zones := List.mem_of_getElem? found
      rcases zoneAllocLocked_cases (ok.zones z member)
        (if kzallocOk then some s.nextPtr else none) size align with
        ⟨ptr, room, allocated, done⟩ | ⟨_, done⟩
      · have ptrEq : ptr = s.nextPtr := by
          cases kzallocOk with
          | false => exact absurd allocated nofun
          | true => exact (Option.some.inj allocated).symm
        subst ptrEq
        rw [done]
        refine Or.inl ⟨_, _, rfl, ?_⟩
        rw [set]
        exact ok.granted zones room
      · rw [done]
        right
        simp only [set, ← zones]

/-- The block that `IOC_MMB_FREE` would unlink. -/
def freeUnlinks (s : MmzState) (phys : ℕ) : Option Mmb :=
  (s.getbyPhys2 phys).filter fun b => ¬ (0 < b.userKref ∨ 0 < b.mapKref)

/-- The block that `IOC_MMB_PUT` would unlink. -/
def putUnlinks (s : MmzState) (phys : ℕ) : Option Mmb :=
  (s.getbyPhys2 phys).filter fun b =>
    wrapInt (b.refcount - 1) ≤ 0 ∧ b.userKref = 0 ∧ b.mapKref = 0

structure Frees (s : MmzState) (ptr : ℕ) (after : MmzState) : Prop where
  laid : after.Laid
  allocated_eq : after.allocated = {x ∈ s.allocated | x.ptr ≠ ptr}

structure Keeps (s : MmzState) (after : MmzState) : Prop where
  laid : after.Laid
  allocated_eq : after.allocated = s.allocated

theorem Laid.keeps {s : MmzState} (ok : s.Laid) : s.Keeps s :=
  ⟨ok, rfl⟩

theorem Keeps.frees {s middle : MmzState} (keeps : s.Keeps middle) {x : Block}
    (member : x ∈ s.allocated) : s.Frees x.ptr (middle.hilMmbFree x.ptr) := by
  have linked := member
  rw [← keeps.allocated_eq] at linked
  rcases linked with ⟨b, linked, rfl⟩
  refine ⟨keeps.laid.hilMmbFree linked, ?_⟩
  rw [allocated_hilMmbFree, keeps.allocated_eq]

theorem Laid.iocMmbFree_cases {s : MmzState} (ok : s.Laid) (phys : ℕ) :
    (∃ b, s.freeUnlinks phys = some b ∧ b ∈ s.blocks ∧ s.Frees b.ptr (s.iocMmbFree phys).2) ∨
      s.Keeps (s.iocMmbFree phys).2 := by
  rw [MmzState.iocMmbFree, freeUnlinks]
  split
  next => exact Or.inr ok.keeps
  next b found =>
    have linked := (getbyPhys2_spec found).1
    split
    next => exact Or.inr ok.keeps
    next idle =>
      refine Or.inl ⟨b, ?_, linked, ok.keeps.frees (mem_allocated linked)⟩
      rw [found, Option.filter_some, if_pos (decide_eq_true idle)]

theorem Laid.iocMmbGet_keeps {s : MmzState} (ok : s.Laid) (phys : ℕ) :
    s.Keeps (s.iocMmbGet phys).2 := by
  rw [MmzState.iocMmbGet]
  split
  next => exact ok.keeps
  next b _ => exact ⟨ok.modify b.ptr fun _ => ⟨rfl, rfl, rfl⟩, allocated_modify fun _ => rfl⟩

theorem Laid.iocMmbPut_cases {s : MmzState} (ok : s.Laid) (phys : ℕ) :
    (∃ b, s.putUnlinks phys = some b ∧ b ∈ s.blocks ∧ s.Frees b.ptr (s.iocMmbPut phys).2) ∨
      s.Keeps (s.iocMmbPut phys).2 := by
  rw [MmzState.iocMmbPut, putUnlinks]
  split
  next => exact Or.inr ok.keeps
  next b found =>
    have linked := (getbyPhys2_spec found).1
    -- the decrement leaves every extent where it is
    have decremented : s.Keeps (s.modify b.ptr fun c =>
        { c with refcount := wrapInt (b.refcount - 1) }) :=
      ⟨ok.modify b.ptr fun _ => ⟨rfl, rfl, rfl⟩, allocated_modify fun _ => rfl⟩
    dsimp only
    split
    next last =>
      refine Or.inl ⟨b, ?_, linked, decremented.frees (mem_allocated linked)⟩
      rw [found, Option.filter_some, if_pos (decide_eq_true last)]
    next => exact Or.inr decremented

theorem freeUnlinks_unmapped {s : MmzState} {phys : ℕ} {b : Mmb}
    (unlinks : s.freeUnlinks phys = some b) : b.userKref ≤ 0 := by
  have idle := of_decide_eq_true (Option.filter_eq_some_iff.mp unlinks).2
  omega

theorem putUnlinks_unmapped {s : MmzState} {phys : ℕ} {b : Mmb}
    (unlinks : s.putUnlinks phys = some b) : b.userKref ≤ 0 := by
  have last := of_decide_eq_true (Option.filter_eq_some_iff.mp unlinks).2
  omega

end MmzState

/-- The zones that the module parameters or the device tree describe. -/
structure ZonesCreated (zones : List MmzZone) : Prop where
  empty : ∀ z ∈ zones, z.mmbList = []
  inRange : ∀ z ∈ zones, z.base + 2 * z.size ≤ 2 ^ 64
  apart : zones.Pairwise ZonesApart

theorem ZonesCreated.laid {zones : List MmzZone} (created : ZonesCreated zones) :
    MmzState.Laid { zones, nextPtr := 0, freed := [] } := by
  have noBlock : ∀ b, b ∉ MmzState.blocks { zones, nextPtr := 0, freed := [] } := by
    intro b member
    rcases MmzState.mem_blocks.mp member with ⟨z, zone, member⟩
    rw [created.empty z zone] at member
    exact absurd member List.not_mem_nil
  refine ⟨?_, created.apart, ?_, List.nodup_nil, ?_, ?_⟩
  · intro z zone
    have empty := created.empty z zone
    refine ⟨created.inRange z zone, ?_, ?_, ?_, ?_, ?_⟩
    · rw [empty]
      exact List.Pairwise.nil
    all_goals
      intro b member
      rw [empty] at member
      exact absurd member List.not_mem_nil
  · exact fun b member => absurd member (noBlock b)
  · exact fun ptr member => absurd member List.not_mem_nil
  · intro ptr
    constructor
    · rintro ⟨b, member, _⟩
      exact absurd member (noBlock b)
    · rintro ⟨below, _⟩
      exact absurd below (Nat.not_lt_zero ptr)

/-- The anonymous zone that the driver falls back to. -/
def anonymousZone : MmzZone :=
  { name := "anonymous", base := 0x29200000, size := 0x06e00000, mmbList := [] }

theorem zonesCreated_anonymous : ZonesCreated [anonymousZone] where
  empty z member := by
    cases List.mem_singleton.mp member
    rfl
  inRange z member := by
    cases List.mem_singleton.mp member
    decide
  apart := List.pairwise_singleton _ _

end MlKernel.Mmz
