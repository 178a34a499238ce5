import Mathlib.Algebra.Ring.Int.Defs
import Mathlib.Logic.Function.Basic
import MlKernel.Lib.Lru
import MlKernel.Lib.Run

/-!
# The dma-buf mapping cache

A client keeps the dma-bufs it has mapped in the slots of a cache, found again by
the identity of the `struct dma_buf`.  A full cache gives up the slot that was
used longest ago.  What the calls take from the dma-buf core is counted for each
dma-buf: references, attachments and mappings.
-/

namespace MlKernel.Dma

inductive DmaDataDirection
  | bidirectional
  | toDevice
  | fromDevice
  | none
  deriving DecidableEq

structure SgTable where
  nents : ℕ
  dmaAddress : ℕ
  dmaLen : ℕ

/-- What the dma-buf core answers in one call of `ml_bufcache_map_fd`; errors are error
numbers. -/
structure DmaBufCore (DmaBuf : Type) where
  dmaBufGet : ℤ → Except ℕ DmaBuf
  dmaBufAttach : DmaBuf → Except ℕ Unit
  dmaBufMapAttachment : DmaBuf → DmaDataDirection → Except ℕ SgTable

structure MlBufmap (DmaBuf : Type) where
  dmabuf : Option DmaBuf
  dir : DmaDataDirection
  base : ℕ
  size : ℕ

def mlBufcacheEntries : ℕ := 40

abbrev BufSlot : Type := Fin mlBufcacheEntries

/-- What has been taken from the dma-buf core and not given back. -/
structure Held (DmaBuf : Type) where
  refs : DmaBuf → ℤ
  attachments : DmaBuf → ℤ
  mappings : DmaBuf → ℤ

structure MlBufcache (DmaBuf : Type) where
  ent : BufSlot → MlBufmap DmaBuf
  stamp : BufSlot → ℕ
  tick : ℕ
  held : Held DmaBuf

/-- A cache as the allocation of the client zeroes it. -/
def MlBufcache.zero (DmaBuf : Type) : MlBufcache DmaBuf where
  ent _ := { dmabuf := none, dir := .bidirectional, base := 0, size := 0 }
  stamp _ := 0
  tick := 0
  held := { refs := fun _ => 0, attachments := fun _ => 0, mappings := fun _ => 0 }

section Model

variable {DmaBuf : Type} [DecidableEq DmaBuf]

def shift (count : DmaBuf → ℤ) (db : DmaBuf) (delta : ℤ) : DmaBuf → ℤ :=
  Function.update count db (count db + delta)

namespace Held

def get (held : Held DmaBuf) (db : DmaBuf) : Held DmaBuf :=
  { held with refs := shift held.refs db 1 }

def put (held : Held DmaBuf) (db : DmaBuf) : Held DmaBuf :=
  { held with refs := shift held.refs db (-1) }

def attach (held : Held DmaBuf) (db : DmaBuf) : Held DmaBuf :=
  { held with attachments := shift held.attachments db 1 }

def detach (held : Held DmaBuf) (db : DmaBuf) : Held DmaBuf :=
  { held with attachments := shift held.attachments db (-1) }

def map (held : Held DmaBuf) (db : DmaBuf) : Held DmaBuf :=
  { held with mappings := shift held.mappings db 1 }

def unmap (held : Held DmaBuf) (db : DmaBuf) : Held DmaBuf :=
  { held with mappings := shift held.mappings db (-1) }

end Held

def eopnotsupp : ℕ := 95

/-- `ml_bufmap_map` into a slot. -/
def mlBufmapMap (core : DmaBufCore DmaBuf) (cl : MlBufcache DmaBuf) (db : DmaBuf)
    (dir : DmaDataDirection) (slot : BufSlot) : Except ℕ Unit × MlBufcache DmaBuf :=
  match core.dmaBufAttach db with
  | .error errno => (.error errno, cl)
  | .ok () =>
    let attached := cl.held.attach db
    match core.dmaBufMapAttachment db dir with
    | .error errno => (.error errno, { cl with held := attached.detach db })
    | .ok sgt =>
      let mapped := attached.map db
      if sgt.nents ≠ 1 then
        (.error eopnotsupp, { cl with held := (mapped.unmap db).detach db })
      else
        let bm : MlBufmap DmaBuf :=
          { dmabuf := some db, dir, base := sgt.dmaAddress, size := sgt.dmaLen }
        (.ok (), { cl with ent := Function.update cl.ent slot bm, held := mapped })

/-- `ml_bufmap_unmap` of a slot; its callers come with an occupied one. -/
def mlBufmapUnmap (cl : MlBufcache DmaBuf) (slot : BufSlot) : MlBufcache DmaBuf :=
  match (cl.ent slot).dmabuf with
  | none => cl
  | some db =>
    { cl with
      ent := Function.update cl.ent slot { cl.ent slot with dmabuf := none }
      held := ((cl.held.unmap db).detach db).put db }

/-- `cl->stamp[slot] = ++cl->tick`. -/
def MlBufcache.touch (cl : MlBufcache DmaBuf) (slot : BufSlot) : MlBufcache DmaBuf :=
  let tick := (cl.tick + 1) % 2 ^ 64
  { cl with stamp := Function.update cl.stamp slot tick, tick }

/-- The end of `ml_bufcache_map_fd`: the dma-buf is mapped into the chosen slot. -/
def MlBufcache.mapInto (core : DmaBufCore DmaBuf) (cl : MlBufcache DmaBuf) (db : DmaBuf)
    (dir : DmaDataDirection) (slot : BufSlot) : Except ℕ BufSlot × MlBufcache DmaBuf :=
  match mlBufmapMap core cl db dir slot with
  | (.error errno, cl) => (.error errno, { cl with held := cl.held.put db })
  | (.ok (), cl) => (.ok slot, cl.touch slot)

def MlBufcache.slotOf (cl : MlBufcache DmaBuf) (dmabuf : Option DmaBuf) : Option BufSlot :=
  (List.finRange mlBufcacheEntries).find? fun i => (cl.ent i).dmabuf = dmabuf

/-- `ml_bufcache_map_fd`, with the slot it returns; `none` is an access outside of `ent[]`. -/
def mlBufcacheMapFd (core : DmaBufCore DmaBuf) (cl : MlBufcache DmaBuf) (fd : ℤ)
    (dir : DmaDataDirection) : Option (Except ℕ BufSlot × MlBufcache DmaBuf) :=
  match core.dmaBufGet fd with
  | .error errno => some (.error errno, cl)
  | .ok db =>
    let cl := { cl with held := cl.held.get db }
    match cl.slotOf (some db) with
    | some i =>
      if (cl.ent i).dir ≠ dir ∧ (cl.ent i).dir ≠ .bidirectional then
        some ((mlBufmapUnmap cl i).mapInto core db .bidirectional i)
      else some (.ok i, { cl with held := cl.held.put db }.touch i)
    | none =>
      match cl.slotOf none with
      | some i => some (cl.mapInto core db dir i)
      | none =>
        match Lru.oldest cl.stamp (2 ^ 64 - 1) (List.finRange mlBufcacheEntries) with
        | none => none
        | some i => some ((mlBufmapUnmap cl i).mapInto core db dir i)

/-- `ml_bufcache_release`. -/
def mlBufcacheRelease (cl : MlBufcache DmaBuf) : MlBufcache DmaBuf :=
  (List.finRange mlBufcacheEntries).foldl
    (fun cl i => if (cl.ent i).dmabuf.isSome then mlBufmapUnmap cl i else cl) cl

/-- A client, how many calls it has made, and what its last calls returned if none of them
failed: slots and the dma-bufs they were returned for, newest first. -/
structure BufClient (DmaBuf : Type) where
  cache : MlBufcache DmaBuf
  calls : ℕ
  batch : List (BufSlot × DmaBuf)

inductive BufCall (DmaBuf : Type)
  | mapFd (core : DmaBufCore DmaBuf) (fd : ℤ) (dir : DmaDataDirection)
  | release

def bufStep (c : BufClient DmaBuf) : BufCall DmaBuf → Option (BufClient DmaBuf)
  | .mapFd core fd dir =>
    (mlBufcacheMapFd core c.cache fd dir).map fun (result, cache) =>
      { cache
        calls := c.calls + 1
        batch :=
          match result, core.dmaBufGet fd with
          | .ok slot, .ok db => (slot, db) :: c.batch
          | _, _ => [] }
  | .release => some { c with cache := mlBufcacheRelease c.cache, batch := [] }

def BufClient.opened (DmaBuf : Type) : BufClient DmaBuf :=
  { cache := .zero DmaBuf, calls := 0, batch := [] }

end Model

/-! ### What a call takes and gives back -/

section Counts

variable {DmaBuf : Type} [DecidableEq DmaBuf]

theorem shift_apply (count : DmaBuf → ℤ) (db other : DmaBuf) (delta : ℤ) :
    shift count db delta other = if other = db then count other + delta else count other := by
  by_cases same : other = db
  · subst same
    rw [shift, Function.update_self, if_pos rfl]
  · rw [shift, Function.update_of_ne same, if_neg same]

theorem shift_cancel (count : DmaBuf → ℤ) (db : DmaBuf) {delta back : ℤ} (zero : delta + back = 0) :
    shift (shift count db delta) db back = count := by
  funext other
  simp only [shift_apply]
  split <;> omega

theorem shift_comm (count : DmaBuf → ℤ) (db other : DmaBuf) (delta back : ℤ) :
    shift (shift count db delta) other back = shift (shift count other back) db delta := by
  funext third
  simp only [shift_apply]
  split <;> split <;> omega

namespace Held

/-- A reference, an attachment and a mapping more, as an occupied slot has them. -/
def take (held : Held DmaBuf) (db : DmaBuf) : Held DmaBuf := ((held.get db).attach db).map db

def giveBack (held : Held DmaBuf) (db : DmaBuf) : Held DmaBuf := ((held.unmap db).detach db).put db

@[simp]
theorem get_put (held : Held DmaBuf) (db : DmaBuf) : (held.get db).put db = held := by
  simp [get, put, shift_cancel held.refs db (show (1 : ℤ) + -1 = 0 from rfl)]

@[simp]
theorem attach_detach (held : Held DmaBuf) (db : DmaBuf) : (held.attach db).detach db = held := by
  simp [attach, detach, shift_cancel held.attachments db (show (1 : ℤ) + -1 = 0 from rfl)]

@[simp]
theorem map_unmap (held : Held DmaBuf) (db : DmaBuf) : (held.map db).unmap db = held := by
  simp [map, unmap, shift_cancel held.mappings db (show (1 : ℤ) + -1 = 0 from rfl)]

theorem giveBack_get (held : Held DmaBuf) (db other : DmaBuf) :
    (held.get db).giveBack other = (held.giveBack other).get db := by
  simp [giveBack, get, unmap, detach, put, shift_comm held.refs db other 1 (-1)]

end Held

/-- A free slot filled with a mapping of the dma-buf. -/
def MlBufcache.fill (cl : MlBufcache DmaBuf) (slot : BufSlot) (bm : MlBufmap DmaBuf)
    (db : DmaBuf) : MlBufcache DmaBuf :=
  { cl with ent := Function.update cl.ent slot bm, held := cl.held.take db }

/-- With the reference of `dma_buf_get` in hand, the dma-buf gets the slot, or everything is
given back. -/
theorem mapInto_cases (core : DmaBufCore DmaBuf) (cl : MlBufcache DmaBuf) (db : DmaBuf)
    (dir : DmaDataDirection) (slot : BufSlot) :
    (∃ errno, { cl with held := cl.held.get db }.mapInto core db dir slot = (.error errno, cl)) ∨
      ∃ bm : MlBufmap DmaBuf, bm.dmabuf = some db ∧
        { cl with held := cl.held.get db }.mapInto core db dir slot =
          (.ok slot, (cl.fill slot bm db).touch slot) := by
  rw [MlBufcache.mapInto, mlBufmapMap]
  cases attached : core.dmaBufAttach db with
  | error errno => exact .inl ⟨errno, by simp⟩
  | ok _ =>
      cases mapped : core.dmaBufMapAttachment db dir with
      | error errno => exact .inl ⟨errno, by simp⟩
      | ok sgt =>
          by_cases contiguous : sgt.nents ≠ 1
          · exact .inl ⟨eopnotsupp, by simp [contiguous]⟩
          · refine .inr ⟨_, ?_, by simp only [if_neg contiguous]; rfl⟩
            rfl

theorem unmap_get (cl : MlBufcache DmaBuf) (db : DmaBuf) (slot : BufSlot) :
    mlBufmapUnmap { cl with held := cl.held.get db } slot =
      { mlBufmapUnmap cl slot with held := (mlBufmapUnmap cl slot).held.get db } := by
  cases occupied : (cl.ent slot).dmabuf with
  | none => simp [mlBufmapUnmap, occupied]
  | some other =>
      have commuted := cl.held.giveBack_get db other
      simp only [Held.giveBack] at commuted
      simp [mlBufmapUnmap, occupied, commuted]

/-- How a slot comes to be free for a dma-buf that no slot has. -/
inductive Freed (cl : MlBufcache DmaBuf) (slot : BufSlot) (db : DmaBuf) :
    MlBufcache DmaBuf → Prop where
  | empty (isFree : (cl.ent slot).dmabuf = none) (absent : ∀ i, (cl.ent i).dmabuf ≠ some db) :
      Freed cl slot db cl
  | remapped (here : (cl.ent slot).dmabuf = some db) : Freed cl slot db (mlBufmapUnmap cl slot)
  | evicted (absent : ∀ i, (cl.ent i).dmabuf ≠ some db)
      (full : ∀ i, (cl.ent i).dmabuf ≠ none) (oldest : ∀ i, cl.stamp slot ≤ cl.stamp i) :
      Freed cl slot db (mlBufmapUnmap cl slot)

/-- What a call that returns has done to the cache. -/
inductive Mapped (core : DmaBufCore DmaBuf) (cl : MlBufcache DmaBuf) (fd : ℤ) :
    Except ℕ BufSlot → MlBufcache DmaBuf → Prop where
  | notGot {errno : ℕ} (failed : core.dmaBufGet fd = .error errno) :
      Mapped core cl fd (.error errno) cl
  | hit {db : DmaBuf} {slot : BufSlot} (got : core.dmaBufGet fd = .ok db)
      (here : (cl.ent slot).dmabuf = some db) : Mapped core cl fd (.ok slot) (cl.touch slot)
  | notMapped {db : DmaBuf} {slot : BufSlot} {errno : ℕ} {freed : MlBufcache DmaBuf}
      (freeing : Freed cl slot db freed) : Mapped core cl fd (.error errno) freed
  | filled {db : DmaBuf} {slot : BufSlot} {bm : MlBufmap DmaBuf} {freed : MlBufcache DmaBuf}
      (got : core.dmaBufGet fd = .ok db) (freeing : Freed cl slot db freed)
      (isOf : bm.dmabuf = some db) :
      Mapped core cl fd (.ok slot) ((freed.fill slot bm db).touch slot)

theorem slotOf_eq_some {cl : MlBufcache DmaBuf} {dmabuf : Option DmaBuf} {slot : BufSlot}
    (found : cl.slotOf dmabuf = some slot) : (cl.ent slot).dmabuf = dmabuf := by
  have equal := List.find?_some found
  simpa using equal

theorem slotOf_eq_none {cl : MlBufcache DmaBuf} {dmabuf : Option DmaBuf}
    (missing : cl.slotOf dmabuf = none) (slot : BufSlot) : (cl.ent slot).dmabuf ≠ dmabuf := by
  have unequal := List.find?_eq_none.mp missing slot (List.mem_finRange slot)
  simpa using unequal

theorem mapInto_mapped {core : DmaBufCore DmaBuf} {cl : MlBufcache DmaBuf} {fd : ℤ}
    {dir : DmaDataDirection} {db : DmaBuf} (got : core.dmaBufGet fd = .ok db) {slot : BufSlot}
    {freed : MlBufcache DmaBuf} (freeing : Freed cl slot db freed) {result : Except ℕ BufSlot}
    {next : MlBufcache DmaBuf}
    (done : { freed with held := freed.held.get db }.mapInto core db dir slot = (result, next)) :
    Mapped core cl fd result next := by
  rcases mapInto_cases core freed db dir slot with ⟨errno, failed⟩ | ⟨bm, isOf, filled⟩
  · cases failed.symm.trans done
    exact .notMapped freeing
  · cases filled.symm.trans done
    exact .filled got freeing isOf

theorem mapFd_mapped {core : DmaBufCore DmaBuf} {cl : MlBufcache DmaBuf} {fd : ℤ}
    {dir : DmaDataDirection} {result : Except ℕ BufSlot} {next : MlBufcache DmaBuf}
    (done : mlBufcacheMapFd core cl fd dir = some (result, next)) :
    Mapped core cl fd result next := by
  rw [mlBufcacheMapFd] at done
  cases got : core.dmaBufGet fd with
  | error errno =>
      rw [got] at done
      cases done
      exact .notGot got
  | ok db =>
      simp only [got, unmap_get, Held.get_put] at done
      split at done
      next slot found =>
        have here : (cl.ent slot).dmabuf = some db := slotOf_eq_some found
        split at done
        next => exact mapInto_mapped got (.remapped here) (Option.some.inj done)
        next =>
          cases done
          exact .hit got here
      next missing =>
        have absent : ∀ i, (cl.ent i).dmabuf ≠ some db := slotOf_eq_none missing
        split at done
        next slot found =>
          have freeing : Freed cl slot db cl := .empty (slotOf_eq_some found) absent
          exact mapInto_mapped got freeing (Option.some.inj done)
        next noneFree =>
          split at done
          next => cases done
          next slot oldest =>
            have least : ∀ i, cl.stamp slot ≤ cl.stamp i :=
              fun i => Lru.le_of_oldest oldest i (List.mem_finRange i)
            have freeing : Freed cl slot db (mlBufmapUnmap cl slot) :=
              .evicted absent (slotOf_eq_none noneFree) least
            exact mapInto_mapped got freeing (Option.some.inj done)

/-! ### One slot for a dma-buf, and a reference for a slot -/

def Held.Counts (held : Held DmaBuf) (db : DmaBuf) (count : ℤ) : Prop :=
  held.refs db = count ∧ held.attachments db = count ∧ held.mappings db = count

theorem Held.Counts.take {held : Held DmaBuf} {other : DmaBuf} {count : ℤ}
    (counts : held.Counts other count) (db : DmaBuf) :
    (held.take db).Counts other (if other = db then count + 1 else count) := by
  rcases counts with ⟨refs, attachments, mappings⟩
  simp only [Held.Counts, Held.take, Held.get, Held.attach, Held.map, shift_apply, refs,
    attachments, mappings, and_self]

theorem Held.Counts.giveBack {held : Held DmaBuf} {other : DmaBuf} {count : ℤ}
    (counts : held.Counts other count) (db : DmaBuf) :
    (held.giveBack db).Counts other (if other = db then count + -1 else count) := by
  rcases counts with ⟨refs, attachments, mappings⟩
  simp only [Held.Counts, Held.giveBack, Held.put, Held.detach, Held.unmap, shift_apply, refs,
    attachments, mappings, and_self]

structure Owned (cl : MlBufcache DmaBuf) : Prop where
  oneSlot : ∀ i j db, (cl.ent i).dmabuf = some db → (cl.ent j).dmabuf = some db → i = j
  one : ∀ i db, (cl.ent i).dmabuf = some db → cl.held.Counts db 1
  zero : ∀ db, (∀ i, (cl.ent i).dmabuf ≠ some db) → cl.held.Counts db 0

theorem ent_fill (cl : MlBufcache DmaBuf) (slot i : BufSlot) (bm : MlBufmap DmaBuf)
    (db : DmaBuf) : (cl.fill slot bm db).ent i = if i = slot then bm else cl.ent i :=
  Function.update_apply ..

theorem unmap_of_occupied {cl : MlBufcache DmaBuf} {slot : BufSlot} {db : DmaBuf}
    (occupied : (cl.ent slot).dmabuf = some db) :
    (mlBufmapUnmap cl slot).held = cl.held.giveBack db ∧
      ∀ i, ((mlBufmapUnmap cl slot).ent i).dmabuf =
        if i = slot then none else (cl.ent i).dmabuf := by
  have unmapped : mlBufmapUnmap cl slot = { cl with
      ent := Function.update cl.ent slot { cl.ent slot with dmabuf := none }
      held := cl.held.giveBack db } := by
    simp only [mlBufmapUnmap, occupied, Held.giveBack]
  rw [unmapped]
  refine ⟨rfl, ?_⟩
  intro i
  by_cases here : i = slot
  · subst here
    simp
  · simp [here]

/-- What a slot has after the unmapping of another one, it had before. -/
theorem has_of_unmap {cl : MlBufcache DmaBuf} {slot i : BufSlot} {db other : DmaBuf}
    (occupied : (cl.ent slot).dmabuf = some db)
    (has : ((mlBufmapUnmap cl slot).ent i).dmabuf = some other) :
    i ≠ slot ∧ (cl.ent i).dmabuf = some other := by
  rw [(unmap_of_occupied occupied).2] at has
  split at has
  next => cases has
  next elsewhere => exact ⟨elsewhere, has⟩

theorem unmap_stamp (cl : MlBufcache DmaBuf) (slot : BufSlot) :
    (mlBufmapUnmap cl slot).stamp = cl.stamp ∧ (mlBufmapUnmap cl slot).tick = cl.tick := by
  rw [mlBufmapUnmap]
  split
  next => exact ⟨rfl, rfl⟩
  next => exact ⟨rfl, rfl⟩

theorem Owned.unmap {cl : MlBufcache DmaBuf} (owned : Owned cl) {slot : BufSlot} {db : DmaBuf}
    (occupied : (cl.ent slot).dmabuf = some db) : Owned (mlBufmapUnmap cl slot) := by
  rcases unmap_of_occupied occupied with ⟨held, ent⟩
  refine ⟨?_, ?_, ?_⟩
  · intro i j other hasI hasJ
    exact owned.oneSlot i j other (has_of_unmap occupied hasI).2 (has_of_unmap occupied hasJ).2
  · intro i other has
    rcases has_of_unmap occupied has with ⟨elsewhere, had⟩
    have different : other ≠ db := by
      rintro rfl
      exact elsewhere (owned.oneSlot i slot other had occupied)
    have counts := (owned.one i other had).giveBack db
    rwa [if_neg different, ← held] at counts
  · intro other absent
    by_cases same : other = db
    · have counts := (owned.one slot db occupied).giveBack db
      rw [if_pos rfl, ← held] at counts
      rw [same]
      exact counts
    · have wasAbsent : ∀ i, (cl.ent i).dmabuf ≠ some other := by
        intro i had
        apply absent i
        rw [ent, if_neg, had]
        rintro rfl
        exact same (Option.some.inj (had.symm.trans occupied))
      have counts := (owned.zero other wasAbsent).giveBack db
      rwa [if_neg same, ← held] at counts

theorem Owned.fill {cl : MlBufcache DmaBuf} (owned : Owned cl) {slot : BufSlot} {db : DmaBuf}
    (isFree : (cl.ent slot).dmabuf = none) (absent : ∀ i, (cl.ent i).dmabuf ≠ some db)
    {bm : MlBufmap DmaBuf} (isOf : bm.dmabuf = some db) : Owned (cl.fill slot bm db) := by
  have has_iff : ∀ {i other}, ((cl.fill slot bm db).ent i).dmabuf = some other ↔
      i = slot ∧ other = db ∨ (cl.ent i).dmabuf = some other := by
    intro i other
    rw [ent_fill]
    split
    next here => simp [here, isOf, isFree, eq_comm]
    next elsewhere => simp [elsewhere]
  refine ⟨?_, ?_, ?_⟩
  · intro i j other hasI hasJ
    rcases has_iff.mp hasI with ⟨rfl, same⟩ | hadI
    · rcases has_iff.mp hasJ with ⟨rfl, _⟩ | hadJ
      · rfl
      · rw [same] at hadJ
        exact absurd hadJ (absent j)
    · rcases has_iff.mp hasJ with ⟨rfl, same⟩ | hadJ
      · rw [same] at hadI
        exact absurd hadI (absent i)
      · exact owned.oneSlot i j other hadI hadJ
  · intro i other has
    rcases has_iff.mp has with ⟨_, rfl⟩ | had
    · have counts := (owned.zero other absent).take other
      rwa [if_pos rfl] at counts
    · have different : other ≠ db := by
        rintro rfl
        exact absent i had
      have counts := (owned.one i other had).take db
      rwa [if_neg different] at counts
  · intro other missing
    have different : other ≠ db := fun same => missing slot (has_iff.mpr (.inl ⟨rfl, same⟩))
    have counts := (owned.zero other fun i had => missing i (has_iff.mpr (.inr had))).take db
    rwa [if_neg different] at counts

omit [DecidableEq DmaBuf] in
theorem Owned.touch {cl : MlBufcache DmaBuf} (owned : Owned cl) (slot : BufSlot) :
    Owned (cl.touch slot) :=
  ⟨owned.oneSlot, owned.one, owned.zero⟩

theorem Freed.owned {cl freed : MlBufcache DmaBuf} {slot : BufSlot} {db : DmaBuf}
    (freeing : Freed cl slot db freed) (owned : Owned cl) :
    Owned freed ∧ (freed.ent slot).dmabuf = none ∧ ∀ i, (freed.ent i).dmabuf ≠ some db := by
  cases freeing with
  | empty isFree absent => exact ⟨owned, isFree, absent⟩
  | remapped here =>
      refine ⟨owned.unmap here, by rw [(unmap_of_occupied here).2, if_pos rfl], ?_⟩
      intro i has
      rcases has_of_unmap here has with ⟨elsewhere, had⟩
      exact elsewhere (owned.oneSlot i slot db had here)
  | evicted absent full oldest =>
      rcases Option.ne_none_iff_exists'.mp (full slot) with ⟨other, occupied⟩
      refine ⟨owned.unmap occupied, by rw [(unmap_of_occupied occupied).2, if_pos rfl], ?_⟩
      intro i has
      exact absent i (has_of_unmap occupied has).2

theorem Mapped.owned {core : DmaBufCore DmaBuf} {cl next : MlBufcache DmaBuf} {fd : ℤ}
    {result : Except ℕ BufSlot} (mapped : Mapped core cl fd result next) (owned : Owned cl) :
    Owned next := by
  cases mapped with
  | notGot failed => exact owned
  | hit got here => exact owned.touch _
  | notMapped freeing => exact (freeing.owned owned).1
  | filled got freeing isOf =>
      rcases freeing.owned owned with ⟨freed, isFree, absent⟩
      exact (freed.fill isFree absent isOf).touch _

theorem Owned.release {cl : MlBufcache DmaBuf} (owned : Owned cl) :
    Owned (mlBufcacheRelease cl) := by
  refine Run.foldl_invariant _ ?_ owned _
  intro cl slot owned
  split
  next occupied =>
    rcases Option.isSome_iff_exists.mp occupied with ⟨db, here⟩
    exact owned.unmap here
  next => exact owned

/-! ### The last uses of the slots -/

/-- The stamps tell the occupied slots apart, and the last calls have the highest ones. -/
structure Stamped (c : BufClient DmaBuf) : Prop where
  inTime : c.cache.tick ≤ c.calls
  past : ∀ i, c.cache.stamp i ≤ c.cache.tick
  distinct : ∀ i j, (c.cache.ent i).dmabuf ≠ none → (c.cache.ent j).dmabuf ≠ none →
    c.cache.stamp i = c.cache.stamp j → i = j
  recent : ∀ k slot db, c.batch[k]? = some (slot, db) → k < mlBufcacheEntries →
    (c.cache.ent slot).dmabuf = some db ∧ c.cache.tick ≤ c.cache.stamp slot + k

omit [DecidableEq DmaBuf] in
theorem touch_stamp {cl : MlBufcache DmaBuf} (small : cl.tick + 1 < 2 ^ 64) (slot : BufSlot) :
    (cl.touch slot).tick = cl.tick + 1 ∧
      ∀ i, (cl.touch slot).stamp i = if i = slot then cl.tick + 1 else cl.stamp i := by
  have noWrap : (cl.tick + 1) % 2 ^ 64 = cl.tick + 1 := Nat.mod_eq_of_lt small
  refine ⟨noWrap, ?_⟩
  intro i
  rw [MlBufcache.touch]
  dsimp only
  rw [Function.update_apply, noWrap]

omit [DecidableEq DmaBuf] in
/-- A call returns a slot, and the slots of the last calls are as they were. -/
theorem Stamped.returned {c : BufClient DmaBuf} (stamped : Stamped c)
    (small : c.cache.tick + 1 < 2 ^ 64) {cl : MlBufcache DmaBuf} {slot : BufSlot} {db : DmaBuf}
    (stamp : cl.stamp = c.cache.stamp) (tick : cl.tick = c.cache.tick)
    (here : (cl.ent slot).dmabuf = some db)
    (others : ∀ i, i ≠ slot → (cl.ent i).dmabuf ≠ none → (c.cache.ent i).dmabuf ≠ none)
    (kept : ∀ k slot db, c.batch[k]? = some (slot, db) → k + 1 < mlBufcacheEntries →
      (cl.ent slot).dmabuf = some db) :
    Stamped { cache := cl.touch slot, calls := c.calls + 1, batch := (slot, db) :: c.batch } := by
  rw [← tick] at small
  rcases touch_stamp small slot with ⟨newTick, newStamp⟩
  have before : ∀ i, cl.stamp i ≤ cl.tick := by
    intro i
    rw [stamp, tick]
    exact stamped.past i
  refine ⟨?_, ?_, ?_, ?_⟩
  · dsimp only
    rw [newTick, tick]
    exact Nat.succ_le_succ stamped.inTime
  · intro i
    dsimp only
    rw [newTick, newStamp]
    split
    · exact Nat.le_refl _
    · exact Nat.le_succ_of_le (before i)
  · intro i j usedI usedJ same
    dsimp only at same
    rw [newStamp, newStamp] at same
    have beforeI := before i
    have beforeJ := before j
    split at same
    next isI =>
      split at same
      next isJ => rw [isI, isJ]
      next => omega
    next notI =>
      split at same
      next => omega
      next notJ =>
        rw [stamp] at same
        exact stamped.distinct i j (others i notI usedI) (others j notJ usedJ) same
  · intro k other db' entry inBatch
    dsimp only at entry ⊢
    rw [newTick, newStamp]
    cases k with
    | zero =>
        cases entry
        exact ⟨here, by simp⟩
    | succ k =>
        rw [List.getElem?_cons_succ] at entry
        rcases stamped.recent k other db' entry (Nat.lt_of_succ_lt inBatch) with ⟨_, recent⟩
        refine ⟨kept k other db' entry inBatch, ?_⟩
        rw [← tick, ← stamp] at recent
        split <;> omega

omit [DecidableEq DmaBuf] in
/-- Slots are emptied, and nothing is promised about the last calls. -/
theorem Stamped.emptied {c : BufClient DmaBuf} (stamped : Stamped c) {cl : MlBufcache DmaBuf}
    (stamp : cl.stamp = c.cache.stamp) (tick : cl.tick = c.cache.tick)
    (fewer : ∀ i, (cl.ent i).dmabuf ≠ none → (c.cache.ent i).dmabuf ≠ none) {calls : ℕ}
    (later : c.calls ≤ calls) : Stamped { cache := cl, calls, batch := [] } := by
  refine ⟨?_, ?_, ?_, nofun⟩
  · dsimp only
    rw [tick]
    exact Nat.le_trans stamped.inTime later
  · dsimp only
    rw [tick, stamp]
    exact stamped.past
  · intro i j usedI usedJ same
    dsimp only at same
    rw [stamp] at same
    exact stamped.distinct i j (fewer i usedI) (fewer j usedJ) same

/-- An emptied slot has its stamp still, and the other slots are untouched. -/
theorem unmap_other (cl : MlBufcache DmaBuf) {slot i : BufSlot} (other : i ≠ slot) :
    (mlBufmapUnmap cl slot).ent i = cl.ent i := by
  rw [mlBufmapUnmap]
  split
  next => rfl
  next => exact Function.update_of_ne other ..

theorem unmap_fewer (cl : MlBufcache DmaBuf) (slot i : BufSlot)
    (used : ((mlBufmapUnmap cl slot).ent i).dmabuf ≠ none) : (cl.ent i).dmabuf ≠ none := by
  intro unused
  by_cases here : i = slot
  · rw [here] at unused used
    apply used
    rw [mlBufmapUnmap, unused]
    exact unused
  · rw [unmap_other cl here] at used
    exact used unused

theorem Freed.untouched {cl freed : MlBufcache DmaBuf} {slot : BufSlot} {db : DmaBuf}
    (freeing : Freed cl slot db freed) :
    freed.stamp = cl.stamp ∧ freed.tick = cl.tick ∧
      (∀ i, i ≠ slot → freed.ent i = cl.ent i) ∧
      ∀ i, (freed.ent i).dmabuf ≠ none → (cl.ent i).dmabuf ≠ none := by
  cases freeing with
  | empty isFree absent => exact ⟨rfl, rfl, fun _ _ => rfl, fun _ used => used⟩
  | remapped here =>
      exact ⟨(unmap_stamp cl slot).1, (unmap_stamp cl slot).2, fun _ => unmap_other cl,
        unmap_fewer cl slot⟩
  | evicted absent full oldest =>
      exact ⟨(unmap_stamp cl slot).1, (unmap_stamp cl slot).2, fun _ => unmap_other cl,
        unmap_fewer cl slot⟩

/-- The slot that gets a new mapping is none of the last calls', unless for the same dma-buf. -/
theorem Freed.spares {c : BufClient DmaBuf} (stamped : Stamped c) {freed : MlBufcache DmaBuf}
    {slot : BufSlot} {db : DmaBuf} (freeing : Freed c.cache slot db freed) {k : ℕ}
    {db' : DmaBuf} (entry : c.batch[k]? = some (slot, db')) (inBatch : k + 1 < mlBufcacheEntries) :
    db' = db := by
  rcases stamped.recent k slot db' entry (Nat.lt_of_succ_lt inBatch) with ⟨has, recent⟩
  cases freeing with
  | empty isFree absent => exact absurd (isFree.symm.trans has) nofun
  | remapped here => exact Option.some.inj (has.symm.trans here)
  | evicted absent full oldest =>
      -- all slots are in use, so as many calls as there are slots have come since
      have distinct : Function.Injective c.cache.stamp :=
        fun i j => stamped.distinct i j (full i) (full j)
      have uses := Lru.add_card_le distinct stamped.past oldest
      rw [Fintype.card_fin] at uses
      omega

theorem Stamped.filled {c : BufClient DmaBuf} (stamped : Stamped c)
    (small : c.cache.tick + 1 < 2 ^ 64) {freed : MlBufcache DmaBuf} {slot : BufSlot} {db : DmaBuf}
    (freeing : Freed c.cache slot db freed) {bm : MlBufmap DmaBuf} (isOf : bm.dmabuf = some db) :
    Stamped { cache := (freed.fill slot bm db).touch slot
              calls := c.calls + 1
              batch := (slot, db) :: c.batch } := by
  rcases freeing.untouched with ⟨stamp, tick, others, fewer⟩
  refine stamped.returned small stamp tick ?_ ?_ ?_
  · rw [ent_fill, if_pos rfl, isOf]
  · intro i notHere used
    rw [ent_fill, if_neg notHere] at used
    exact fewer i used
  · intro k other db' entry inBatch
    rw [ent_fill]
    split
    next here =>
      rw [here] at entry
      rw [isOf, freeing.spares stamped entry inBatch]
    next elsewhere =>
      rw [others other elsewhere]
      exact (stamped.recent k other db' entry (Nat.lt_of_succ_lt inBatch)).1

structure ClientOk (c : BufClient DmaBuf) : Prop where
  owned : Owned c.cache
  stamped : c.calls < 2 ^ 64 - 1 → Stamped c

theorem release_untouched (cl : MlBufcache DmaBuf) :
    (mlBufcacheRelease cl).stamp = cl.stamp ∧ (mlBufcacheRelease cl).tick = cl.tick ∧
      ∀ i, ((mlBufcacheRelease cl).ent i).dmabuf ≠ none → (cl.ent i).dmabuf ≠ none := by
  let same (next : MlBufcache DmaBuf) : Prop := next.stamp = cl.stamp ∧ next.tick = cl.tick ∧
    ∀ i, (next.ent i).dmabuf ≠ none → (cl.ent i).dmabuf ≠ none
  have start : same cl := ⟨rfl, rfl, fun _ used => used⟩
  have kept : ∀ next slot, same next →
      same (if (next.ent slot).dmabuf.isSome then mlBufmapUnmap next slot else next) := by
    rintro next slot ⟨stamp, tick, fewer⟩
    split
    next =>
      rcases unmap_stamp next slot with ⟨stampKept, tickKept⟩
      exact ⟨stampKept.trans stamp, tickKept.trans tick,
        fun i used => fewer i (unmap_fewer next slot i used)⟩
    next => exact ⟨stamp, tick, fewer⟩
  rw [mlBufcacheRelease]
  exact Run.foldl_invariant _ kept start _

theorem ClientOk.release {c next : BufClient DmaBuf} (ok : ClientOk c)
    (done : bufStep c .release = some next) : ClientOk next := by
  have owned := ok.owned.release
  have untouched := release_untouched c.cache
  simp only [bufStep, Option.some.injEq] at done
  generalize mlBufcacheRelease c.cache = cl at done owned untouched
  subst done
  rcases untouched with ⟨stamp, tick, fewer⟩
  exact ⟨owned, fun few => (ok.stamped few).emptied stamp tick fewer (Nat.le_refl _)⟩

theorem ClientOk.mapFd {c next : BufClient DmaBuf} (ok : ClientOk c) {core : DmaBufCore DmaBuf}
    {fd : ℤ} {dir : DmaDataDirection} (done : bufStep c (.mapFd core fd dir) = some next) :
    ClientOk next := by
  rcases Option.map_eq_some_iff.mp done with ⟨⟨result, cache⟩, called, rfl⟩
  have mapped := mapFd_mapped called
  refine ⟨mapped.owned ok.owned, ?_⟩
  intro few
  have stamped := ok.stamped (Nat.lt_of_succ_lt few)
  have small : c.cache.tick + 1 < 2 ^ 64 := by
    have inTime := stamped.inTime
    dsimp only at few
    omega
  cases mapped with
  | notGot failed => exact stamped.emptied rfl rfl (fun _ used => used) (Nat.le_succ _)
  | notMapped freeing =>
      rcases freeing.untouched with ⟨stamp, tick, _, fewer⟩
      exact stamped.emptied stamp tick fewer (Nat.le_succ _)
  | hit got here =>
      simp only [got]
      refine stamped.returned small rfl rfl here (fun _ _ used => used) ?_
      intro k slot db entry inBatch
      exact (stamped.recent k slot db entry (Nat.lt_of_succ_lt inBatch)).1
  | filled got freeing isOf =>
      simp only [got]
      exact stamped.filled small freeing isOf

theorem ClientOk.step {c next : BufClient DmaBuf} (ok : ClientOk c) {call : BufCall DmaBuf}
    (done : bufStep c call = some next) : ClientOk next := by
  cases call with
  | mapFd core fd dir => exact ok.mapFd done
  | release => exact ok.release done

/-- A call finds a slot as long as some stamp is below `U64_MAX`. -/
theorem Stamped.inBounds {c : BufClient DmaBuf} (stamped : Stamped c) (few : c.calls < 2 ^ 64 - 1)
    (call : BufCall DmaBuf) : ∃ next, bufStep c call = some next := by
  cases call with
  | release => exact ⟨_, rfl⟩
  | mapFd core fd dir =>
      have first : BufSlot := ⟨0, by decide⟩
      have below : c.cache.stamp first < 2 ^ 64 - 1 :=
        Nat.lt_of_le_of_lt (Nat.le_trans (stamped.past first) stamped.inTime) few
      rcases Lru.exists_oldest (List.mem_finRange first) below with ⟨slot, oldest⟩
      have returns : ∃ answer, mlBufcacheMapFd core c.cache fd dir = some answer := by
        rw [mlBufcacheMapFd]
        split
        next => exact ⟨_, rfl⟩
        next db got =>
          dsimp only
          split
          next => split <;> exact ⟨_, rfl⟩
          next =>
            split
            next => exact ⟨_, rfl⟩
            next =>
              rw [oldest]
              exact ⟨_, rfl⟩
      rcases returns with ⟨answer, called⟩
      exact ⟨_, Option.map_eq_some_iff.mpr ⟨answer, called, rfl⟩⟩

/-! ### Every run -/

/-- What the users of the cache rely on. -/
structure CacheCorrect (c : BufClient DmaBuf) : Prop where
  oneSlot : ∀ i j db, (c.cache.ent i).dmabuf = some db → (c.cache.ent j).dmabuf = some db → i = j
  refs : ∀ db, c.cache.held.refs db =
    (List.finRange mlBufcacheEntries).countP fun i => (c.cache.ent i).dmabuf = some db
  batchMapped : c.calls < 2 ^ 64 - 1 → ∀ entry ∈ c.batch.take mlBufcacheEntries,
    (c.cache.ent entry.1).dmabuf = some entry.2
  inBounds : c.calls < 2 ^ 64 - 1 → ∀ call, ∃ next, bufStep c call = some next

theorem Owned.countP {cl : MlBufcache DmaBuf} (owned : Owned cl) (db : DmaBuf) :
    cl.held.refs db =
      (List.finRange mlBufcacheEntries).countP fun i => (cl.ent i).dmabuf = some db := by
  by_cases occupied : ∃ i, (cl.ent i).dmabuf = some db
  · rcases occupied with ⟨slot, here⟩
    have only : ∀ i ∈ List.finRange mlBufcacheEntries,
        decide ((cl.ent i).dmabuf = some db) = true ↔ (i == slot) = true := by
      intro i _
      rw [decide_eq_true_eq, beq_iff_eq]
      constructor
      · intro has
        exact owned.oneSlot i slot db has here
      · rintro rfl
        exact here
    rw [(owned.one slot db here).1, List.countP_congr only]
    have once := List.count_eq_one_of_mem (List.nodup_finRange mlBufcacheEntries)
      (List.mem_finRange slot)
    rw [List.count] at once
    rw [once]
    rfl
  · have absent : ∀ i, (cl.ent i).dmabuf ≠ some db := fun i has => occupied ⟨i, has⟩
    rw [(owned.zero db absent).1, List.countP_eq_zero.mpr]
    · rfl
    · intro i _
      simpa using absent i

theorem ClientOk.correct {c : BufClient DmaBuf} (ok : ClientOk c) : CacheCorrect c := by
  refine ⟨ok.owned.oneSlot, ok.owned.countP, ?_, fun few => (ok.stamped few).inBounds few⟩
  intro few entry mem
  rcases List.mem_take_iff_getElem.mp mem with ⟨k, inBatch, same⟩
  have at' : c.batch[k]? = some (entry.1, entry.2) := by
    rw [List.getElem?_eq_getElem (by omega), same]
  exact ((ok.stamped few).recent k entry.1 entry.2 at' (by omega)).1

omit [DecidableEq DmaBuf] in
theorem ClientOk.opened : ClientOk (BufClient.opened DmaBuf) := by
  refine ⟨⟨nofun, nofun, fun _ _ => ⟨rfl, rfl, rfl⟩⟩, ?_⟩
  intro _
  refine ⟨Nat.le_refl _, fun _ => Nat.le_refl _, ?_, nofun⟩
  intro i j used
  exact absurd rfl used

theorem bufcache_correct {calls : List (BufCall DmaBuf)} {c : BufClient DmaBuf}
    (run : Run (fun c call next => bufStep c call = some next) (.opened DmaBuf) calls c) :
    CacheCorrect c := by
  have ok : ClientOk c :=
    run.invariant (fun _ _ _ ok done => ClientOk.step ok done) .opened
  exact ok.correct

end Counts

/-- A core in which fd and dma-buf are the same number, and the numbers past 100 are too
scattered to be mapped. -/
def plainCore : DmaBufCore ℕ where
  dmaBufGet fd := if fd < 0 then .error 9 else .ok fd.toNat
  dmaBufAttach _ := .ok ()
  dmaBufMapAttachment db _ :=
    .ok { nents := if db ≤ 100 then 1 else 2, dmaAddress := 4096 * db, dmaLen := 4096 }

/-- A bad fd, a scattered buffer, a full cache, and a call that evicts a slot of it. -/
theorem bufcache_correct_evicting :
    ∃ c, Run (fun c call next => bufStep c call = some next) (.opened ℕ)
        (.mapFd plainCore (-1) .toDevice :: .mapFd plainCore 101 .toDevice ::
          (List.range 41).map fun fd => .mapFd plainCore fd .toDevice) c ∧
      (c.cache.ent ⟨0, by decide⟩).dmabuf = some 40 ∧ CacheCorrect c := by
  have checked : ((.mapFd plainCore (-1) .toDevice :: .mapFd plainCore 101 .toDevice ::
      (List.range 41).map fun fd => .mapFd plainCore fd .toDevice).foldlM bufStep
        (BufClient.opened ℕ)).any (fun c =>
      decide ((c.cache.ent ⟨0, by decide⟩).dmabuf = some 40)) = true := by
    decide +kernel
  rcases (Option.any_eq_true _ _).mp checked with ⟨c, done, fact⟩
  have run := Run.of_foldlM bufStep done
  exact ⟨c, run, of_decide_eq_true fact, bufcache_correct run⟩

end MlKernel.Dma
