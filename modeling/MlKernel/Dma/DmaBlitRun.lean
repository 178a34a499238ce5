import MlKernel.Dma.DmaBlitChain

/-!
# Requests of a client

The mappings that the checks of a request have looked up are the last ones the cache gave out, and
a cache of forty does not give up any of the last nine.  So what the checks saw still holds when
the batch is handed to the engine.
-/

namespace MlKernel.Dma

section Cache

variable {DmaBuf : Type} [DecidableEq DmaBuf]

/-- What the dma-buf core documents: errors are negative numbers, and the addresses it maps are
those of whole pages. -/
structure DmaBufCore.Documented (core : DmaBufCore DmaBuf) : Prop where
  getError : ∀ fd errno, core.dmaBufGet fd = .error errno → 0 < errno
  attachError : ∀ db errno, core.dmaBufAttach db = .error errno → 0 < errno
  mapError : ∀ db dir errno, core.dmaBufMapAttachment db dir = .error errno → 0 < errno
  pageAligned : ∀ db dir sgt, core.dmaBufMapAttachment db dir = .ok sgt → 4096 ∣ sgt.dmaAddress

/-- The directions that the module asks for. -/
def BlitDir (dir : DmaDataDirection) : Prop := dir = .toDevice ∨ dir = .bidirectional

/-- The mappings of a client of this module. -/
structure BlitCache (cl : MlBufcache DmaBuf) : Prop where
  dir : ∀ i, (cl.ent i).dmabuf ≠ none → BlitDir (cl.ent i).dir
  pageAligned : ∀ i, (cl.ent i).dmabuf ≠ none → 4096 ∣ (cl.ent i).base

theorem BlitCache.unmap {cl : MlBufcache DmaBuf} (cache : BlitCache cl) (slot : BufSlot) :
    BlitCache (mlBufmapUnmap cl slot) := by
  have same : ∀ i, ((mlBufmapUnmap cl slot).ent i).dmabuf ≠ none →
      (mlBufmapUnmap cl slot).ent i = cl.ent i := by
    intro i used
    by_cases here : i = slot
    · subst here
      exfalso
      apply used
      rw [mlBufmapUnmap]
      split
      · assumption
      · simp
    · exact unmap_other cl here
  refine ⟨?_, ?_⟩
  · intro i used
    have untouched := same i used
    rw [untouched] at used ⊢
    exact cache.dir i used
  · intro i used
    have untouched := same i used
    rw [untouched] at used ⊢
    exact cache.pageAligned i used

theorem BlitCache.mapInto {core : DmaBufCore DmaBuf} (documented : core.Documented)
    {cl next : MlBufcache DmaBuf} (cache : BlitCache cl) {db : DmaBuf} {dir : DmaDataDirection}
    (blit : BlitDir dir) {slot : BufSlot} {result : Except ℕ BufSlot}
    (done : cl.mapInto core db dir slot = (result, next)) :
    BlitCache next ∧ ∀ errno, result = .error errno → 0 < errno := by
  have kept : ∀ held : Held DmaBuf, BlitCache { cl with held } :=
    fun _ => ⟨cache.dir, cache.pageAligned⟩
  rw [MlBufcache.mapInto, mlBufmapMap] at done
  cases attached : core.dmaBufAttach db with
  | error errno =>
      simp only [attached] at done
      cases done
      refine ⟨kept _, ?_⟩
      rintro _ ⟨⟩
      exact documented.attachError db errno attached
  | ok _ =>
      cases mapped : core.dmaBufMapAttachment db dir with
      | error errno =>
          simp only [attached, mapped] at done
          cases done
          refine ⟨kept _, ?_⟩
          rintro _ ⟨⟩
          exact documented.mapError db dir errno mapped
      | ok sgt =>
          simp only [attached, mapped] at done
          by_cases contiguous : sgt.nents ≠ 1
          · rw [if_pos contiguous] at done
            cases done
            refine ⟨kept _, ?_⟩
            rintro _ ⟨⟩
            decide
          · rw [if_neg contiguous] at done
            cases done
            refine ⟨⟨?_, ?_⟩, ?_⟩
            · intro i used
              simp only [MlBufcache.touch, Function.update_apply] at used ⊢
              split
              · exact blit
              · next other =>
                  rw [if_neg other] at used
                  exact cache.dir i used
            · intro i used
              simp only [MlBufcache.touch, Function.update_apply] at used ⊢
              split
              · exact documented.pageAligned db dir sgt mapped
              · next other =>
                  rw [if_neg other] at used
                  exact cache.pageAligned i used
            · intro errno failed
              cases failed

theorem BlitCache.mapFd {core : DmaBufCore DmaBuf} (documented : core.Documented)
    {cl next : MlBufcache DmaBuf} (cache : BlitCache cl) {fd : ℤ} {dir : DmaDataDirection}
    (blit : BlitDir dir) {result : Except ℕ BufSlot}
    (done : mlBufcacheMapFd core cl fd dir = some (result, next)) :
    BlitCache next ∧ ∀ errno, result = .error errno → 0 < errno := by
  have kept : ∀ held : Held DmaBuf, BlitCache { cl with held } :=
    fun _ => ⟨cache.dir, cache.pageAligned⟩
  rw [mlBufcacheMapFd] at done
  cases got : core.dmaBufGet fd with
  | error errno =>
      rw [got] at done
      cases done
      refine ⟨cache, ?_⟩
      rintro _ ⟨⟩
      exact documented.getError fd errno got
  | ok db =>
      simp only [got] at done
      split at done
      · split at done
        · exact ((kept _).unmap _).mapInto documented (.inr rfl) (Option.some.inj done)
        · cases done
          refine ⟨⟨cache.dir, cache.pageAligned⟩, ?_⟩
          intro errno failed
          cases failed
      · split at done
        · exact (kept _).mapInto documented blit (Option.some.inj done)
        · split at done
          · cases done
          · exact ((kept _).unmap _).mapInto documented blit (Option.some.inj done)

theorem BlitCache.release {cl : MlBufcache DmaBuf} (cache : BlitCache cl) :
    BlitCache (mlBufcacheRelease cl) := by
  refine Run.foldl_invariant _ ?_ cache _
  intro cl slot cache
  split
  · exact cache.unmap slot
  · exact cache

/-- A source that is mapped is found where it is. -/
theorem mapFd_hit {core : DmaBufCore DmaBuf} {cl : MlBufcache DmaBuf} (cache : BlitCache cl)
    (owned : Owned cl) {fd : ℤ} {db : DmaBuf} (got : core.dmaBufGet fd = .ok db) {slot : BufSlot}
    (here : (cl.ent slot).dmabuf = some db) :
    mlBufcacheMapFd core cl fd .toDevice = some (.ok slot, cl.touch slot) := by
  have found : cl.slotOf (some db) = some slot := by
    cases search : cl.slotOf (some db) with
    | none => exact absurd here (slotOf_eq_none search slot)
    | some other => rw [owned.oneSlot other slot db (slotOf_eq_some search) here]
  have found' : ({ cl with held := cl.held.get db } : MlBufcache DmaBuf).slotOf (some db) =
      some slot := found
  have serves : ¬((cl.ent slot).dir ≠ .toDevice ∧ (cl.ent slot).dir ≠ .bidirectional) := by
    have dir := cache.dir slot (by simp [here])
    rcases dir with same | same
    · simp [same]
    · simp [same]
  rw [mlBufcacheMapFd]
  simp only [got, found', if_neg serves, Held.get_put]

/-- A client in the middle of a request. -/
structure BlitClient (c : BufClient DmaBuf) : Prop where
  ok : ClientOk c
  cache : BlitCache c.cache

/-- The client after a call that returned a slot. -/
def BufClient.returned (c : BufClient DmaBuf) (next : MlBufcache DmaBuf) (slot : BufSlot)
    (db : DmaBuf) : BufClient DmaBuf :=
  { cache := next, calls := c.calls + 1, batch := (slot, db) :: c.batch }

/-- A call returns an error or the slot where its dma-buf is mapped, and when it asks for a source
the slots of the last calls keep their mappings. -/
theorem BlitClient.mapFd {c : BufClient DmaBuf} (client : BlitClient c)
    (few : c.calls + 1 < 2 ^ 64 - 1) {core : DmaBufCore DmaBuf} (documented : core.Documented)
    (fd : ℤ) {dir : DmaDataDirection} (blit : BlitDir dir) :
    (∃ errno next, mlBufcacheMapFd core c.cache fd dir = some (.error errno, next) ∧ 0 < errno) ∨
      ∃ slot db next, mlBufcacheMapFd core c.cache fd dir = some (.ok slot, next) ∧
        core.dmaBufGet fd = .ok db ∧ BlitClient (c.returned next slot db) ∧
        (dir = .toDevice → ∀ (k : ℕ) (last : BufSlot) (db' : DmaBuf),
          c.batch[k]? = some (last, db') → k + 1 < mlBufcacheEntries →
            next.ent last = c.cache.ent last) := by
  have stamped := client.ok.stamped (Nat.lt_of_succ_lt few)
  rcases stamped.inBounds (Nat.lt_of_succ_lt few) (.mapFd core fd dir) with ⟨after, done⟩
  have ok := client.ok.step done
  rcases Option.map_eq_some_iff.mp done with ⟨⟨result, next⟩, called, rfl⟩
  rcases client.cache.mapFd documented blit called with ⟨cache, positive⟩
  have mapped := mapFd_mapped called
  cases mapped with
  | notGot failed => exact .inl ⟨_, _, called, positive _ rfl⟩
  | notMapped freeing => exact .inl ⟨_, _, called, positive _ rfl⟩
  | hit got here =>
      simp only [got] at ok
      exact .inr ⟨_, _, _, called, got, ⟨ok, cache⟩, fun _ _ _ _ _ _ => rfl⟩
  | @filled db slot bm freed got freeing isOf =>
      simp only [got] at ok
      refine .inr ⟨_, _, _, called, got, ⟨ok, cache⟩, ?_⟩
      rintro rfl k last db' entry inBatch
      by_cases other : last = slot
      · subst other
        have same := freeing.spares stamped entry inBatch
        have here := (stamped.recent k last db' entry (Nat.lt_of_succ_lt inBatch)).1
        rw [same] at here
        have hit := mapFd_hit client.cache client.ok.owned got here
        rw [hit] at called
        rw [← (Prod.mk.inj (Option.some.inj called)).2]
        rfl
      · have untouched := freeing.untouched.2.2.1 last other
        rw [← untouched]
        exact (ent_fill freed slot last bm db).trans (if_neg other)

/-! ### The checks -/

/-- An entry that passed the checks, with its source and the destination still mapped. -/
structure CopyEntry (source target : MlBufmap DmaBuf) (copy : MlDmablitCopy)
    (entry : MemcpyEntry) : Prop where
  src : entry.src = source.base + copy.srcOff.toNat
  dst : entry.dst = target.base + copy.dstOff.toNat
  len : entry.len = copy.len.toNat
  srcInside : copy.srcOff.toNat + copy.len.toNat ≤ source.size
  dstInside : copy.dstOff.toNat + copy.len.toNat ≤ target.size
  aligned : WordAligned entry

/-- The copy with its number, and its source as the cache has it. -/
def CopyMapped (core : ℕ → DmaBufCore DmaBuf) (cl : MlBufcache DmaBuf)
    (Copied : MlBufmap DmaBuf → MlDmablitCopy → MemcpyEntry → Prop) (copy : MlDmablitCopy × ℕ)
    (entry : MemcpyEntry) : Prop :=
  ∃ s db, (core copy.2).dmaBufGet copy.1.srcFd = .ok db ∧ (cl.ent s).dmabuf = some db ∧
    Copied (cl.ent s) copy.1 entry

omit [DecidableEq DmaBuf] in
theorem CopyMapped.fits {core : ℕ → DmaBufCore DmaBuf} {cl : MlBufcache DmaBuf}
    {target : MlBufmap DmaBuf} {copies : List (MlDmablitCopy × ℕ)} {entries : List MemcpyEntry}
    (checked : List.Forall₂ (CopyMapped core cl fun source => CopyEntry source target) copies
      entries) : ∀ entry ∈ entries, WordAligned entry ∧ entry.len < 2 ^ 32 := by
  induction checked with
  | nil => exact fun _ mem => absurd mem List.not_mem_nil
  | cons mapped _ ih =>
      rcases mapped with ⟨_, _, _, _, entry⟩
      intro other mem
      rcases List.mem_cons.mp mem with rfl | mem
      · rw [entry.len]
        exact ⟨entry.aligned, UInt32.toNat_lt _⟩
      · exact ih other mem

variable {Lli : Type}

/-- The blocks of one copy tile it at both ends and stay in both mapped segments. -/
structure CopyTiled (chan : AxiChan) (source target : MlBufmap DmaBuf) (copy : MlDmablitCopy)
    (part : List (HwDesc Lli)) : Prop where
  src : Tiles (source.base + copy.srcOff.toNat) (part.map HwDesc.srcSpan)
    (source.base + copy.srcOff.toNat + copy.len.toNat)
  dst : Tiles (target.base + copy.dstOff.toNat) (part.map HwDesc.dstSpan)
    (target.base + copy.dstOff.toNat + copy.len.toNat)
  block : ∀ desc ∈ part, BlockOk chan desc
  srcInside : ∀ desc ∈ part, source.base ≤ desc.sar ∧
    desc.sar + desc.len ≤ source.base + source.size
  dstInside : ∀ desc ∈ part, target.base ≤ desc.dar ∧
    desc.dar + desc.len ≤ target.base + target.size

omit [DecidableEq DmaBuf] in
theorem CopyEntry.tiled {chan : AxiChan} {source target : MlBufmap DmaBuf} {copy : MlDmablitCopy}
    {entry : MemcpyEntry} {part : List (HwDesc Lli)} (checked : CopyEntry source target copy entry)
    (tiled : EntryTiled chan entry part) : CopyTiled chan source target copy part := by
  rcases tiled with ⟨src, dst, block⟩
  rw [checked.src, checked.len] at src
  rw [checked.dst, checked.len] at dst
  have srcInside := checked.srcInside
  have dstInside := checked.dstInside
  refine ⟨src, dst, block, ?_, ?_⟩
  · intro desc mem
    have inside := src.inside (List.mem_map_of_mem mem)
    simp only [HwDesc.srcSpan] at inside
    omega
  · intro desc mem
    have inside := dst.inside (List.mem_map_of_mem mem)
    simp only [HwDesc.dstSpan] at inside
    omega

/-- The calls that the module makes for its other requests and when it closes. -/
def BlitCall : BufCall DmaBuf → Prop
  | .mapFd core _ dir => core.Documented ∧ BlitDir dir
  | .release => True

omit [DecidableEq DmaBuf] in
theorem BlitClient.opened : BlitClient (BufClient.opened DmaBuf) :=
  ⟨ClientOk.opened, ⟨fun _ used => absurd rfl used, fun _ used => absurd rfl used⟩⟩

theorem BlitClient.step {c next : BufClient DmaBuf} (client : BlitClient c) {call : BufCall DmaBuf}
    (blit : BlitCall call) (done : bufStep c call = some next) : BlitClient next := by
  refine ⟨client.ok.step done, ?_⟩
  cases call with
  | mapFd core fd dir =>
      rcases Option.map_eq_some_iff.mp done with ⟨⟨result, cache⟩, called, rfl⟩
      exact (client.cache.mapFd blit.1 blit.2 called).1
  | release =>
      have released := client.cache.release
      simp only [bufStep, Option.some.injEq] at done
      generalize mlBufcacheRelease c.cache = cl at done released
      subst done
      exact released

end Cache

end MlKernel.Dma
