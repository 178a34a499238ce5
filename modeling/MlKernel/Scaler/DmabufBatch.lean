import MlKernel.Scaler.Submit

/-!
# Batches on dma-bufs

The operations of a batch are resolved one after the other, each through the cache of the client,
and then run at once.  The cache gives up slots when it is full, so that what an earlier operation
was resolved to has to outlast the resolving of the later ones.
-/

namespace MlKernel.Scaler

open Dma

section Model

variable {DmaBuf : Type} [DecidableEq DmaBuf]

/-- The loop of `ar_scaler_start_batch_dmabuf`, with what the dma-buf core answers for each
operation. -/
def resolveOps (cache : MlBufcache DmaBuf) :
    List (DmaBufCore DmaBuf × ArScalerDmabufOp) →
      Option (Except ℕ (List (Resolved DmaBuf)) × MlBufcache DmaBuf)
  | [] => some (.ok [], cache)
  | (core, dop) :: rest =>
    match arScalerResolveDmabufOp core cache dop with
    | none => none
    | some (.error errno, cache) => some (.error errno, cache)
    | some (.ok resolved, cache) =>
      match resolveOps cache rest with
      | none => none
      | some (.error errno, cache) => some (.error errno, cache)
      | some (.ok more, cache) => some (.ok (resolved :: more), cache)

end Model

/-! ### Addresses -/

section Placing

variable {DmaBuf : Type} {place : DmaBuf → ℕ × ℕ}

/-- Without an IOMMU, a dma-buf that is contiguous has one bus address, whichever way it is
mapped. -/
def Places (place : DmaBuf → ℕ × ℕ) (core : DmaBufCore DmaBuf) : Prop :=
  ∀ db dir sgt, core.dmaBufMapAttachment db dir = .ok sgt → sgt.nents = 1 →
    place db = (sgt.dmaAddress, sgt.dmaLen)

/-- Occupied slots have the addresses of their dma-bufs. -/
def Placed (place : DmaBuf → ℕ × ℕ) (cache : MlBufcache DmaBuf) : Prop :=
  ∀ slot db, (cache.ent slot).dmabuf = some db →
    place db = ((cache.ent slot).base, (cache.ent slot).size)

variable [DecidableEq DmaBuf] {core : DmaBufCore DmaBuf} {cache next : MlBufcache DmaBuf}

theorem Placed.unmap (placed : Placed place cache) (slot : BufSlot) :
    Placed place (mlBufmapUnmap cache slot) := by
  intro i db has
  by_cases here : i = slot
  · subst here
    cases occupied : (cache.ent i).dmabuf with
    | none =>
        simp only [mlBufmapUnmap, occupied] at has ⊢
        exact placed i db (occupied.trans has)
    | some other => exact absurd rfl (has_of_unmap occupied has).1
  · rw [unmap_other cache here] at has ⊢
    exact placed i db has

theorem Placed.mapInto (placed : Placed place cache) (places : Places place core) {db : DmaBuf}
    {dir : DmaDataDirection} {slot : BufSlot} {result : Except ℕ BufSlot}
    (done : cache.mapInto core db dir slot = (result, next)) : Placed place next := by
  rw [MlBufcache.mapInto, mlBufmapMap] at done
  cases attached : core.dmaBufAttach db with
  | error errno =>
      simp only [attached] at done
      cases done
      exact placed
  | ok _ =>
      cases mapped : core.dmaBufMapAttachment db dir with
      | error errno =>
          simp only [attached, mapped] at done
          cases done
          exact placed
      | ok sgt =>
          by_cases contiguous : sgt.nents = 1
          · simp only [attached, mapped, contiguous, ne_eq, not_true_eq_false, if_false] at done
            cases done
            intro i other has
            by_cases here : i = slot
            · subst here
              simp only [MlBufcache.touch, Function.update_self, Option.some.injEq] at has ⊢
              subst has
              exact places db dir sgt mapped contiguous
            · simp only [MlBufcache.touch, Function.update_of_ne here] at has ⊢
              exact placed i other has
          · simp only [attached, mapped, ne_eq, contiguous, not_false_eq_true, if_true] at done
            cases done
            exact placed

theorem Placed.mapFd (placed : Placed place cache) (places : Places place core) {fd : ℤ}
    {dir : DmaDataDirection} {result : Except ℕ BufSlot}
    (done : mlBufcacheMapFd core cache fd dir = some (result, next)) : Placed place next := by
  rw [mlBufcacheMapFd] at done
  cases got : core.dmaBufGet fd with
  | error errno =>
      rw [got] at done
      cases done
      exact placed
  | ok db =>
      have start : Placed place { cache with held := cache.held.get db } := placed
      simp only [got] at done
      split at done
      next slot found =>
        split at done
        next => exact (start.unmap slot).mapInto places (Option.some.inj done)
        next =>
          cases done
          exact placed
      next missing =>
        split at done
        next slot found => exact start.mapInto places (Option.some.inj done)
        next =>
          split at done
          next => cases done
          next slot oldest => exact (start.unmap slot).mapInto places (Option.some.inj done)

theorem Placed.release (placed : Placed place cache) : Placed place (mlBufcacheRelease cache) := by
  rw [mlBufcacheRelease]
  refine Run.foldl_invariant _ ?_ placed _
  intro cache slot placed
  split
  · exact placed.unmap slot
  · exact placed

/-- What every call of a client has of the dma-buf core. -/
def CallPlaces (place : DmaBuf → ℕ × ℕ) : BufCall DmaBuf → Prop
  | .mapFd core _ _ => Places place core
  | .release => True

theorem Placed.step {c after : BufClient DmaBuf} (placed : Placed place c.cache)
    {call : BufCall DmaBuf} (places : CallPlaces place call)
    (done : bufStep c call = some after) : Placed place after.cache := by
  cases call with
  | mapFd core fd dir =>
      rcases Option.map_eq_some_iff.mp done with ⟨⟨result, cache⟩, called, rfl⟩
      exact placed.mapFd places called
  | release =>
      have released := placed.release
      simp only [bufStep, Option.some.injEq] at done
      generalize mlBufcacheRelease c.cache = cache at done released
      subst done
      exact released

end Placing

/-! ### Resolving through a client -/

section Resolving

variable {DmaBuf : Type} [DecidableEq DmaBuf] {place : DmaBuf → ℕ × ℕ}

/-- A client whose cache is in order. -/
structure Sound (place : DmaBuf → ℕ × ℕ) (c : BufClient DmaBuf) : Prop where
  ok : ClientOk c
  placed : Placed place c.cache

theorem Sound.step {c after : BufClient DmaBuf} (sound : Sound place c) {call : BufCall DmaBuf}
    (places : CallPlaces place call) (done : bufStep c call = some after) : Sound place after :=
  ⟨sound.ok.step done, sound.placed.step places done⟩

omit [DecidableEq DmaBuf] in
theorem Sound.opened : Sound place (BufClient.opened DmaBuf) :=
  ⟨.opened, fun _ _ has => absurd has nofun⟩

/-- A call that returns a slot, as a step of the client. -/
theorem mapFd_step {core : DmaBufCore DmaBuf} {c : BufClient DmaBuf} {fd : ℤ}
    {dir : DmaDataDirection} {slot : BufSlot} {cache : MlBufcache DmaBuf}
    (done : mlBufcacheMapFd core c.cache fd dir = some (.ok slot, cache)) :
    ∃ db, bufStep c (.mapFd core fd dir) =
      some { cache, calls := c.calls + 1, batch := (slot, db) :: c.batch } := by
  have mapped := mapFd_mapped done
  have got : ∃ db, core.dmaBufGet fd = .ok db := by
    cases mapped with
    | hit got _ => exact ⟨_, got⟩
    | filled got _ _ => exact ⟨_, got⟩
  rcases got with ⟨db, got⟩
  refine ⟨db, ?_⟩
  rw [bufStep, done, Option.map_some, got]

/-- The buffers an operation was resolved to, at their places. -/
structure PlacedAt (place : DmaBuf → ℕ × ℕ) (resolved : Resolved DmaBuf) (src dst : DmaBuf) :
    Prop where
  src : place src = (resolved.src.base, resolved.src.size)
  dst : place dst = (resolved.dst.base, resolved.dst.size)

/-- What an operation that is resolved went through. -/
theorem resolve_inv {core : DmaBufCore DmaBuf} {cache after : MlBufcache DmaBuf}
    {dop : ArScalerDmabufOp} {resolved : Resolved DmaBuf}
    (done : arScalerResolveDmabufOp core cache dop = some (.ok resolved, after)) :
    ∃ srcSlot dstSlot middle,
      mlBufcacheMapFd core cache dop.srcFd .toDevice = some (.ok srcSlot, middle) ∧
        mlBufcacheMapFd core middle dop.dstFd .fromDevice = some (.ok dstSlot, after) ∧
          resolved.src = after.ent srcSlot ∧ resolved.dst = after.ent dstSlot := by
  rw [arScalerResolveDmabufOp] at done
  split at done
  next => cases done
  next =>
    split at done
    next => cases done
    next => cases done
    next srcSlot middle mappedSrc =>
      split at done
      next => cases done
      next => cases done
      next dstSlot last mappedDst =>
        split at done
        next => cases done
        next op into =>
          cases done
          exact ⟨srcSlot, dstSlot, middle, mappedSrc, mappedDst, rfl, rfl⟩

/-- An operation that is resolved has made two calls, and both its buffers are at the head of the
client's last. -/
theorem Sound.resolve {c : BufClient DmaBuf} (sound : Sound place c) {core : DmaBufCore DmaBuf}
    (places : Places place core) (few : c.calls + 2 < 2 ^ 64 - 1) {dop : ArScalerDmabufOp}
    {resolved : Resolved DmaBuf} {cache : MlBufcache DmaBuf}
    (done : arScalerResolveDmabufOp core c.cache dop = some (.ok resolved, cache)) :
    ∃ srcSlot dstSlot src dst,
      Sound place
          { cache, calls := c.calls + 2, batch := (dstSlot, dst) :: (srcSlot, src) :: c.batch } ∧
        PlacedAt place resolved src dst := by
  rcases resolve_inv done with ⟨srcSlot, dstSlot, middle, mappedSrc, mappedDst, isSrc, isDst⟩
  have placesSrc : CallPlaces place (.mapFd core dop.srcFd .toDevice) := places
  have placesDst : CallPlaces place (.mapFd core dop.dstFd .fromDevice) := places
  rcases mapFd_step mappedSrc with ⟨src, first⟩
  have between := sound.step placesSrc first
  rcases @mapFd_step _ _ core { cache := middle, calls := c.calls + 1, batch := _ } _ _ _ _
    mappedDst with ⟨dst, second⟩
  have resolvedSound := between.step placesDst second
  have recent := (resolvedSound.ok.stamped few).recent
  have dstHere := (recent 0 dstSlot dst rfl (by decide)).1
  have srcHere := (recent 1 srcSlot src rfl (by decide)).1
  refine ⟨srcSlot, dstSlot, src, dst, resolvedSound, ?_, ?_⟩
  · rw [isSrc]
    exact resolvedSound.placed srcSlot src srcHere
  · rw [isDst]
    exact resolvedSound.placed dstSlot dst dstHere

/-- What is known of an operation of a batch once all are resolved. -/
structure Settled (place : DmaBuf → ℕ × ℕ) (batch : List (BufSlot × DmaBuf))
    (resolved : Resolved DmaBuf) : Prop where
  accepted : ∃ srcOff dstOff, Accepted resolved srcOff dstOff
  placed : ∃ srcSlot dstSlot src dst, PlacedAt place resolved src dst ∧
    (srcSlot, src) ∈ batch ∧ (dstSlot, dst) ∈ batch

/-- The calls of a batch are the client's last, two for each operation. -/
theorem Sound.resolveOps {c : BufClient DmaBuf} (sound : Sound place c)
    {ops : List (DmaBufCore DmaBuf × ArScalerDmabufOp)} (places : ∀ op ∈ ops, Places place op.1)
    (few : c.calls + 2 * ops.length < 2 ^ 64 - 1) {resolved : List (Resolved DmaBuf)}
    {cache : MlBufcache DmaBuf}
    (done : resolveOps c.cache ops = some (.ok resolved, cache)) :
    ∃ batch, Sound place { cache, calls := c.calls + 2 * ops.length, batch := batch ++ c.batch } ∧
      batch.length = 2 * ops.length ∧ resolved.length = ops.length ∧
        ∀ r ∈ resolved, Settled place batch r := by
  induction ops generalizing c resolved with
  | nil =>
      cases done
      exact ⟨[], sound, rfl, rfl, nofun⟩
  | cons op ops ih =>
      rcases op with ⟨core, dop⟩
      rw [List.length_cons] at few
      rw [Scaler.resolveOps] at done
      split at done
      next => cases done
      next => cases done
      next r middle first =>
        split at done
        next => cases done
        next => cases done
        next more last rest =>
          cases done
          rcases sound.resolve (places _ List.mem_cons_self) (by omega) first with
            ⟨srcSlot, dstSlot, src, dst, between, placed⟩
          have placesRest : ∀ op ∈ ops, Places place op.1 := fun op member =>
            places op (List.mem_cons_of_mem _ member)
          rcases ih between placesRest (by dsimp only; omega) rest with
            ⟨batch, whole, length, resolvedLength, settled⟩
          refine ⟨batch ++ [(dstSlot, dst), (srcSlot, src)], ?_, ?_, ?_, ?_⟩
          · simpa [Nat.mul_add, Nat.add_assoc, Nat.add_comm, Nat.add_left_comm] using whole
          · simp [length, Nat.mul_add]
          · simp [resolvedLength]
          · intro r' member
            rcases List.mem_cons.mp member with rfl | later
            · exact ⟨⟨_, _, resolve_accepted first⟩, srcSlot, dstSlot, src, dst, placed,
                by simp, by simp⟩
            · rcases (settled r' later).placed with
                ⟨srcSlot, dstSlot, src, dst, placed, inSrc, inDst⟩
              exact ⟨(settled r' later).accepted, srcSlot, dstSlot, src, dst, placed,
                List.mem_append_left _ inSrc, List.mem_append_left _ inDst⟩

end Resolving

/-! ### What the engine may touch -/

section Touching

variable {DmaBuf : Type} [DecidableEq DmaBuf] {place : DmaBuf → ℕ × ℕ}

/-- A byte of a dma-buf that the client has mapped. -/
def Maps (cache : MlBufcache DmaBuf) (addr : ℕ) : Prop :=
  ∃ slot db, (cache.ent slot).dmabuf = some db ∧ cache.held.mappings db = 1 ∧
    Covers (cache.ent slot) addr

theorem Sound.maps {c : BufClient DmaBuf} (sound : Sound place c) (few : c.calls < 2 ^ 64 - 1)
    {slot : BufSlot} {db : DmaBuf} (recent : (slot, db) ∈ c.batch.take mlBufcacheEntries)
    {segment : MlBufmap DmaBuf} (placed : place db = (segment.base, segment.size)) {addr : ℕ}
    (covers : Covers segment addr) : Maps c.cache addr := by
  have here := sound.ok.correct.batchMapped few (slot, db) recent
  have same := (sound.placed slot db here).symm.trans placed
  rw [Prod.mk.injEq] at same
  refine ⟨slot, db, here, (sound.ok.owned.one slot db here).2.2, ?_⟩
  rw [Covers, same.1, same.2]
  exact covers

/-- What a batch makes the engine run: nothing, or its operations, all of them valid. -/
theorem ScalerServes.ran {s : ScalerState} {service : ScalerService}
    (serves : ScalerServes s service) (bufs : ScalerBufs) (ops : ℕ → ArScalerOp)
    (count : BitVec 32) (env : SubmitEnv) :
    (arScalerRunBatch bufs s ops count env).1.ran = [] ∨
      (∀ i < count.toNat, arScalerValidate (ops i) = true) ∧
        (arScalerRunBatch bufs s ops count env).1.ran =
          (List.range count.toNat).map fun i =>
            descriptorWords (scalerBuildImage (ops i) bufs.lutPhys) := by
  rw [(serves.batch ops count env).1, ScalerService.call]
  dsimp only
  split
  next accepted =>
    rw [ScalerService.accept]
    split
    · exact .inl rfl
    · split
      · exact .inl rfl
      · split
        · exact .inl rfl
        · exact .inr ⟨accepted.2.2, rfl⟩
  next => exact .inl rfl

end Touching

end MlKernel.Scaler
