import MlKernel.Mmz.UserMap

/-!
# From a user address to a physical one

`usr_virt_to_phys` takes the first registration that has the address, whichever
process made it, and a registration goes when a removed piece of a mapping starts
where the registration starts.  `KeepsLookup` says what the processes must not do:
give one address two meanings, or remove the end of a mapping without its start.

The calls are whole here: an `mmap` registers, and a `munmap` or an exit makes all
its calls of `ar_mmz_user_map_del`, before the next call begins.
-/

namespace MlKernel.Mmz

def usrVirtToPhys (s : UserSystem) (uvaddr : ℕ) : ℕ :=
  match s.userMaps.find? fun m => m.uvaddr ≤ uvaddr && uvaddr < m.uvaddr + m.size with
  | none => 0
  | some m => m.phys + (uvaddr - m.uvaddr)

inductive MapCall
  | mmap (pid addr len pgoff : ℕ) (kzallocOk : Bool)
  | munmap (pid addr len : ℕ)
  | fork (parent child : ℕ)
  | exit (pid : ℕ)

/-- The calls of `ar_mmz_user_map_del` that are still to come, in their order. -/
def UserSystem.finishDrops (s : UserSystem) : Option UserSystem :=
  s.dropping.foldlM (fun s _ => userStep s (.mapDel 0)) s

def mapStep (s : UserSystem) : MapCall → Option UserSystem
  | .mmap pid addr len pgoff kzallocOk =>
    (userStep s (.mmap pid addr len pgoff)).bind fun mapped =>
      if mapped.arriving = [] then some mapped else userStep mapped (.mapAdd 0 kzallocOk)
  | .munmap pid addr len => (userStep s (.munmap pid addr len)).bind UserSystem.finishDrops
  | .fork parent child => userStep s (.fork parent child)
  | .exit pid => (userStep s (.exit pid)).bind UserSystem.finishDrops

/-! ### What a process may rely on -/

def Vma.Has (v : Vma) (u : ℕ) : Prop := v.start ≤ u ∧ u < v.stop

def Vma.physAt (v : Vma) (u : ℕ) : ℕ := v.phys + (u - v.start)

def UserMap.Has (m : UserMap) (u : ℕ) : Prop := m.uvaddr ≤ u ∧ u < m.uvaddr + m.size

def UserMap.physAt (m : UserMap) (u : ℕ) : ℕ := m.phys + (u - m.uvaddr)

/-- The lookup finds nothing, or what the process has mapped itself. -/
def UserSystem.OwnLookup (s : UserSystem) (pid u : ℕ) : Prop :=
  usrVirtToPhys s u = 0 ∨
    ∃ v ∈ s.vmas, v.pid = pid ∧ v.Has u ∧ usrVirtToPhys s u = v.physAt u

/-- The pieces that a `munmap` in one process removes. -/
def UserSystem.removed (s : UserSystem) (pid lower upper : ℕ) : List Vma :=
  s.vmas.flatMap fun v => if v.pid = pid then v.inside lower upper else []

/-- A registration of an address that no other process has mapped starts where a removed
piece starts, and it is the first one there. -/
def UserSystem.Unregisters (s : UserSystem) (pid : ℕ) (pieces : List Vma) : Prop :=
  ∀ w ∈ pieces, ∀ u, w.Has u → (∀ v ∈ s.vmas, v.Has u → v.pid = pid) →
    ∀ m ∈ s.userMaps, m.Has u → m.uvaddr ∈ pieces.map Vma.start ∧
      m ∉ (s.userMaps.filter fun n => n.uvaddr = m.uvaddr).tail

def KeepsLookup (s : UserSystem) : MapCall → Prop
  | .mmap _ addr len pgoff kzallocOk => ∀ phys ∈ mmapPhys s pgoff (pages len),
      ∀ u, addr ≤ u → u < addr + pages len →
        if kzallocOk then ∀ v ∈ s.vmas, v.Has u → v.physAt u = phys + (u - addr)
        else ∀ m ∈ s.userMaps, m.Has u → m.physAt u = phys + (u - addr)
  | .munmap pid addr len => s.Unregisters pid (s.removed pid addr (addr + pages len))
  | .fork _ _ => True
  | .exit pid => s.Unregisters pid (s.vmas.filter fun v => v.pid = pid)

/-- A registered address is mapped, and wherever it is mapped it means the same. -/
structure LookupOk (s : UserSystem) : Prop where
  arrived : s.arriving = []
  dropped : s.dropping = []
  mapped : ∀ m ∈ s.userMaps, ∀ u, m.Has u → ∃ v ∈ s.vmas, v.Has u
  agrees : ∀ m ∈ s.userMaps, ∀ u, m.Has u → ∀ v ∈ s.vmas, v.Has u → v.physAt u = m.physAt u

theorem usrVirtToPhys_cases (s : UserSystem) (u : ℕ) :
    usrVirtToPhys s u = 0 ∨ ∃ m ∈ s.userMaps, m.Has u ∧ usrVirtToPhys s u = m.physAt u := by
  cases found : s.userMaps.find? fun m => m.uvaddr ≤ u && u < m.uvaddr + m.size with
  | none => exact .inl (by rw [usrVirtToPhys, found])
  | some m =>
      have has := List.find?_some found
      simp only [Bool.and_eq_true, decide_eq_true_eq] at has
      exact .inr ⟨m, List.mem_of_find?_eq_some found, has, by rw [usrVirtToPhys, found]; rfl⟩

/-- A process that has the address mapped when anybody has gets its own physical address. -/
theorem LookupOk.ownLookup {s : UserSystem} (ok : LookupOk s) {pid u : ℕ}
    (asked : (∃ m ∈ s.userMaps, m.Has u) → (∃ v ∈ s.vmas, v.Has u) →
      ∃ v ∈ s.vmas, v.pid = pid ∧ v.Has u) : s.OwnLookup pid u := by
  rcases usrVirtToPhys_cases s u with nothing | ⟨m, registered, has, result⟩
  · exact .inl nothing
  · rcases asked ⟨m, registered, has⟩ (ok.mapped m registered u has) with ⟨v, live, own, covers⟩
    exact .inr ⟨v, live, own, covers, by rw [result, ok.agrees m registered u has v live covers]⟩

/-! ### Dropping registrations -/

/-- The registry after calls of `ar_mmz_user_map_del` for the addresses. -/
def dropMaps (addrs : List ℕ) (userMaps : List UserMap) : List UserMap :=
  addrs.foldl (fun userMaps addr => userMaps.eraseP fun m => m.uvaddr = addr) userMaps

theorem dropMaps_sublist (addrs : List ℕ) (userMaps : List UserMap) :
    (dropMaps addrs userMaps).Sublist userMaps := by
  induction addrs generalizing userMaps with
  | nil => exact .refl _
  | cons addr addrs ih => exact (ih _).trans List.eraseP_sublist

/-- A drop takes the first registration with its address, and none with another. -/
theorem filter_eraseP (userMaps : List UserMap) (addr dropped : ℕ) :
    (userMaps.eraseP fun m => m.uvaddr = dropped).filter (fun m => m.uvaddr = addr) =
      if dropped = addr then (userMaps.filter fun m => m.uvaddr = addr).tail
      else userMaps.filter fun m => m.uvaddr = addr := by
  induction userMaps with
  | nil => simp
  | cons m userMaps ih =>
      by_cases here : m.uvaddr = dropped
      · rw [List.eraseP_cons_of_pos (by simpa using here)]
        by_cases same : dropped = addr
        · simp [same, here]
        · simp [same, here]
      · rw [List.eraseP_cons_of_neg (by simpa using here)]
        by_cases same : dropped = addr
        · subst same
          simpa [here] using ih
        · simp only [if_neg same] at ih ⊢
          rw [List.filter_cons, List.filter_cons, ih]

/-- The first registration with an address does not survive the drop of the address. -/
theorem not_mem_dropMaps {addrs : List ℕ} {m : UserMap} (dropped : m.uvaddr ∈ addrs)
    {userMaps : List UserMap}
    (first : m ∉ (userMaps.filter fun n => n.uvaddr = m.uvaddr).tail) :
    m ∉ dropMaps addrs userMaps := by
  induction addrs generalizing userMaps with
  | nil => cases dropped
  | cons addr addrs ih =>
      by_cases here : addr = m.uvaddr
      · intro survived
        have kept := (dropMaps_sublist addrs _).subset survived
        have filtered : m ∈ (userMaps.eraseP fun n => n.uvaddr = addr).filter
            fun n => n.uvaddr = m.uvaddr := List.mem_filter.mpr ⟨kept, by simp⟩
        rw [filter_eraseP, if_pos here] at filtered
        exact first filtered
      · apply ih
        · rcases List.mem_cons.mp dropped with same | later
          · exact absurd same.symm here
          · exact later
        · rwa [filter_eraseP, if_neg here]

theorem erase_found {p : UserMap → Bool} {userMaps : List UserMap} {m : UserMap}
    (found : userMaps.find? p = some m) : userMaps.erase m = userMaps.eraseP p := by
  induction userMaps with
  | nil => rfl
  | cons n userMaps ih =>
      by_cases here : p n
      · rw [List.find?_cons_of_pos here] at found
        cases found
        rw [List.erase_cons_head, List.eraseP_cons_of_pos here]
      · rw [List.find?_cons_of_neg here] at found
        have other : n ≠ m := by
          rintro rfl
          exact here (List.find?_some found)
        rw [List.erase_cons_tail (by simpa using other), List.eraseP_cons_of_neg here, ih found]

theorem arMmzUserMapDel_lists (s : UserSystem) (uvaddr : ℕ) :
    (arMmzUserMapDel s uvaddr).userMaps = dropMaps [uvaddr] s.userMaps ∧
      (arMmzUserMapDel s uvaddr).vmas = s.vmas ∧
      (arMmzUserMapDel s uvaddr).arriving = s.arriving := by
  rw [arMmzUserMapDel]
  cases found : s.userMaps.find? fun m => m.uvaddr = uvaddr with
  | none =>
      refine ⟨?_, rfl, rfl⟩
      rw [dropMaps, List.foldl_cons, List.foldl_nil, List.eraseP_of_forall_not]
      exact List.find?_eq_none.mp found
  | some m => exact ⟨erase_found found, rfl, rfl⟩

/-- A call that removes mappings drops the registrations at the starts of the pieces. -/
theorem finishDrops_lists {s next : UserSystem} (done : s.finishDrops = some next) :
    next.userMaps = dropMaps (s.dropping.map Drop.uvaddr) s.userMaps ∧ next.vmas = s.vmas ∧
      next.arriving = s.arriving ∧ next.dropping = [] := by
  rw [UserSystem.finishDrops] at done
  generalize outstanding : s.dropping = drops at done ⊢
  induction drops generalizing s with
  | nil =>
      cases done
      exact ⟨rfl, rfl, rfl, outstanding⟩
  | cons drop drops ih =>
      have first : userStep s (.mapDel 0) = some
          { arMmzUserMapDel s drop.uvaddr with
            dropping := drops
            opened := openedAfter s.opened drop } := by
        simp [userStep, outstanding]
      rw [List.foldlM_cons, first] at done
      rcases arMmzUserMapDel_lists s drop.uvaddr with ⟨userMaps, vmas, arriving⟩
      rcases ih rfl done with ⟨rest, restVmas, restArriving, none⟩
      exact ⟨by rw [rest, userMaps]; rfl, restVmas.trans vmas, restArriving.trans arriving, none⟩

/-! ### One call -/

section Step

variable {s next : UserSystem}

/-- Mappings are cut back to `kept`, and the registrations at the starts of the pieces that
are cut off are dropped. -/
structure Removes (s : UserSystem) (pid : ℕ) (pieces : List Vma) (next : UserSystem) : Prop where
  userMaps : next.userMaps = dropMaps (pieces.map Vma.start) s.userMaps
  arrived : next.arriving = []
  dropped : next.dropping = []
  left : ∀ v ∈ s.vmas, ∀ u, v.Has u →
    (∃ w ∈ next.vmas, w.Has u) ∨ v.pid = pid ∧ ∃ w ∈ pieces, w.Has u
  others : ∀ v ∈ s.vmas, v.pid ≠ pid → v ∈ next.vmas
  part : ∀ w ∈ next.vmas, ∀ u, w.Has u → ∃ v ∈ s.vmas, v.Has u ∧ w.physAt u = v.physAt u

theorem LookupOk.removes (ok : LookupOk s) {pid : ℕ} {pieces : List Vma}
    (cut : Removes s pid pieces next) (unregisters : s.Unregisters pid pieces) :
    LookupOk next := by
  have subset : ∀ m ∈ next.userMaps, m ∈ s.userMaps := by
    rw [cut.userMaps]
    exact fun m mem => (dropMaps_sublist _ _).subset mem
  refine ⟨cut.arrived, cut.dropped, ?_, ?_⟩
  · intro m kept u has
    by_contra unmapped
    rcases ok.mapped m (subset m kept) u has with ⟨v, live, covers⟩
    have onlyOwn : ∀ w ∈ s.vmas, w.Has u → w.pid = pid := by
      intro w mem wHas
      by_contra other
      exact unmapped ⟨w, cut.others w mem other, wHas⟩
    rcases cut.left v live u covers with still | ⟨_, w, piece, inPiece⟩
    · exact unmapped still
    · rcases unregisters w piece u inPiece onlyOwn m (subset m kept) has with ⟨starts, first⟩
      rw [cut.userMaps] at kept
      exact not_mem_dropMaps starts first kept
  · intro m kept u has w live covers
    rcases cut.part w live u covers with ⟨v, mem, vHas, same⟩
    rw [same, ok.agrees m (subset m kept) u has v mem vHas]

theorem Vma.has_outside_or_inside {v : Vma} {u : ℕ} (has : v.Has u) (lower upper : ℕ) :
    (∃ w ∈ v.outside lower upper, w.Has u) ∨ ∃ w ∈ v.inside lower upper, w.Has u := by
  rcases has with ⟨above, below⟩
  by_cases before : u < lower
  · refine .inl ⟨v.cut v.start (min v.stop lower), ?_, ?_⟩
    · simp [Vma.outside, Vma.cut]
      omega
    · simp only [Vma.Has, Vma.cut]
      omega
  · by_cases after : upper ≤ u
    · refine .inl ⟨v.cut (max v.start upper) v.stop, ?_, ?_⟩
      · simp [Vma.outside, Vma.cut]
        omega
      · simp only [Vma.Has, Vma.cut]
        omega
    · refine .inr ⟨v.cut (max v.start lower) (min v.stop upper), ?_, ?_⟩
      · simp [Vma.inside, Vma.cut]
        omega
      · simp only [Vma.Has, Vma.cut]
        omega

/-- What is left of a mapping maps as before. -/
theorem Vma.has_of_outside {v w : Vma} {lower upper : ℕ} (piece : w ∈ v.outside lower upper)
    {u : ℕ} (has : w.Has u) : v.Has u ∧ w.physAt u = v.physAt u := by
  simp only [Vma.outside, List.mem_filter, List.mem_cons, List.not_mem_nil, or_false] at piece
  rcases piece with ⟨rfl | rfl, _⟩
  · simp only [Vma.Has, Vma.physAt, Vma.cut] at has ⊢
    omega
  · simp only [Vma.Has, Vma.physAt, Vma.cut] at has ⊢
    omega

theorem LookupOk.munmap (ok : LookupOk s) {pid addr len : ℕ}
    (done : mapStep s (.munmap pid addr len) = some next) :
    Removes s pid (s.removed pid addr (addr + pages len)) next := by
  rcases Option.bind_eq_some_iff.mp done with ⟨unmapped, first, rest⟩
  rcases Option.ite_none_right_eq_some.mp first with ⟨_, same⟩
  cases same
  rcases finishDrops_lists rest with ⟨userMaps, vmas, arriving, none⟩
  have live : next.vmas = s.vmas.flatMap fun v =>
      if v.pid = pid then v.outside addr (addr + pages len) else [v] := vmas
  refine ⟨?_, arriving.trans ok.arrived, none, ?_, ?_, ?_⟩
  · simpa [UserSystem.munmap, UserSystem.removed, ok.dropped, Function.comp_def, Drop.uvaddr]
      using userMaps
  · intro v mem u has
    simp only [live, UserSystem.removed, List.mem_flatMap]
    by_cases own : v.pid = pid
    · rcases Vma.has_outside_or_inside has addr (addr + pages len) with
        ⟨w, outside, wHas⟩ | ⟨w, inside, wHas⟩
      · exact .inl ⟨w, ⟨v, mem, by rwa [if_pos own]⟩, wHas⟩
      · exact .inr ⟨own, w, ⟨v, mem, by rwa [if_pos own]⟩, wHas⟩
    · exact .inl ⟨v, ⟨v, mem, by simp [own]⟩, has⟩
  · intro v mem other
    rw [live]
    exact List.mem_flatMap.mpr ⟨v, mem, by simp [other]⟩
  · intro w mem u has
    rw [live] at mem
    rcases List.mem_flatMap.mp mem with ⟨v, vMem, piece⟩
    split at piece
    · rcases Vma.has_of_outside piece has with ⟨vHas, same⟩
      exact ⟨v, vMem, vHas, same⟩
    · cases List.mem_singleton.mp piece
      exact ⟨w, vMem, has, rfl⟩

theorem LookupOk.exit (ok : LookupOk s) {pid : ℕ} (done : mapStep s (.exit pid) = some next) :
    Removes s pid (s.vmas.filter fun v => v.pid = pid) next := by
  rcases Option.bind_eq_some_iff.mp done with ⟨left, first, rest⟩
  rcases Option.ite_none_left_eq_some.mp first with ⟨_, same⟩
  cases same
  rcases finishDrops_lists rest with ⟨userMaps, vmas, arriving, none⟩
  have live : next.vmas = s.vmas.filter fun v => v.pid ≠ pid := vmas
  refine ⟨?_, arriving.trans ok.arrived, none, ?_, ?_, ?_⟩
  · simpa [UserSystem.exit, ok.dropped, Function.comp_def, Drop.uvaddr] using userMaps
  · intro v mem u has
    by_cases own : v.pid = pid
    · exact .inr ⟨own, v, List.mem_filter.mpr ⟨mem, by simpa using own⟩, has⟩
    · exact .inl ⟨v, by rw [live]; exact List.mem_filter.mpr ⟨mem, by simpa using own⟩, has⟩
  · intro v mem other
    rw [live]
    exact List.mem_filter.mpr ⟨mem, by simpa using other⟩
  · intro w mem u has
    rw [live] at mem
    exact ⟨w, (List.mem_filter.mp mem).1, has, rfl⟩

theorem LookupOk.fork (ok : LookupOk s) {parent child : ℕ}
    (done : mapStep s (.fork parent child) = some next) : LookupOk next := by
  rcases Option.ite_none_right_eq_some.mp done with ⟨_, same⟩
  cases same
  refine ⟨ok.arrived, ok.dropped, ?_, ?_⟩
  · intro m registered u has
    rcases ok.mapped m registered u has with ⟨v, live, covers⟩
    exact ⟨v, List.mem_append_left _ live, covers⟩
  · intro m registered u has w live covers
    rcases List.mem_append.mp live with old | copied
    · exact ok.agrees m registered u has w old covers
    · rcases List.mem_map.mp copied with ⟨v, ofParent, rfl⟩
      exact ok.agrees m registered u has v (List.mem_filter.mp ofParent).1 covers

theorem LookupOk.mmap (ok : LookupOk s) {pid addr len pgoff : ℕ} {kzallocOk : Bool}
    (keeps : KeepsLookup s (.mmap pid addr len pgoff kzallocOk))
    (done : mapStep s (.mmap pid addr len pgoff kzallocOk) = some next) : LookupOk next := by
  rcases Option.bind_eq_some_iff.mp done with ⟨mapped, first, rest⟩
  rcases Option.ite_none_right_eq_some.mp first with ⟨_, same⟩
  cases same
  cases valid : mmapPhys s pgoff (pages len) with
  | none =>
      simp only [arMmzMmapWc, valid, ok.arrived, if_pos] at rest
      cases rest
      exact ok
  | some phys =>
      have alike := keeps phys valid
      simp only [arMmzMmapWc, valid, ok.arrived, userStep] at rest
      cases kzallocOk with
      | false =>
          cases rest
          refine ⟨rfl, ok.dropped, ?_, ?_⟩
          · intro m registered u has
            rcases ok.mapped m registered u has with ⟨v, live, covers⟩
            exact ⟨v, List.mem_cons_of_mem _ live, covers⟩
          · intro m registered u has v live covers
            rcases List.mem_cons.mp live with rfl | old
            · exact (alike u covers.1 covers.2 m registered has).symm
            · exact ok.agrees m registered u has v old covers
      | true =>
          cases rest
          have size : addr + pages len - addr = pages len := Nat.add_sub_cancel_left ..
          refine ⟨rfl, ok.dropped, ?_, ?_⟩
          · intro m registered u has
            rcases List.mem_cons.mp registered with rfl | old
            · refine ⟨_, List.mem_cons_self, has.1, ?_⟩
              simpa only [size] using has.2
            · rcases ok.mapped m old u has with ⟨v, live, covers⟩
              exact ⟨v, List.mem_cons_of_mem _ live, covers⟩
          · intro m registered u has v live covers
            rcases List.mem_cons.mp registered with rfl | oldMap
            · have below : u < addr + pages len := by simpa only [size] using has.2
              rcases List.mem_cons.mp live with rfl | old
              · rfl
              · exact alike u has.1 below v old covers
            · rcases List.mem_cons.mp live with rfl | old
              -- what the registration means is mapped somewhere else, and means the same there
              · rcases ok.mapped m oldMap u has with ⟨w, other, wHas⟩
                rw [← ok.agrees m oldMap u has w other wHas]
                exact (alike u covers.1 covers.2 w other wHas).symm
              · exact ok.agrees m oldMap u has v old covers

theorem LookupOk.step (ok : LookupOk s) {call : MapCall} (keeps : KeepsLookup s call)
    (done : mapStep s call = some next) : LookupOk next := by
  cases call with
  | mmap pid addr len pgoff kzallocOk => exact ok.mmap keeps done
  | munmap pid addr len => exact ok.removes (ok.munmap done) keeps
  | fork parent child => exact ok.fork done
  | exit pid => exact ok.removes (ok.exit done) keeps

end Step

/-! ### Every run -/

def LookupStep (s : UserSystem) (call : MapCall) (next : UserSystem) : Prop :=
  KeepsLookup s call ∧ mapStep s call = some next

theorem usrVirtToPhys_own {zones : List MmzZone} {calls : List MapCall} {s : UserSystem}
    (run : Run LookupStep (.loaded zones) calls s) {pid u : ℕ}
    (asked : (∃ m ∈ s.userMaps, m.Has u) → (∃ v ∈ s.vmas, v.Has u) →
      ∃ v ∈ s.vmas, v.pid = pid ∧ v.Has u) : s.OwnLookup pid u := by
  have ok : LookupOk s := by
    refine run.invariant ?_ ⟨rfl, rfl, ?_, ?_⟩
    · rintro s call next ok ⟨keeps, done⟩
      exact ok.step keeps done
    · rintro m ⟨⟩
    · rintro m ⟨⟩
  exact ok.ownLookup asked

/-- The last page of a mapping is unmapped while a child still has it. -/
theorem usrVirtToPhys_own_forked :
    ∃ s, Run LookupStep (.loaded [anonymousZone])
        [.mmap 1 0x10000 0x3000 0x29200 true, .fork 1 2, .munmap 1 0x12000 0x1000] s ∧
      usrVirtToPhys s 0x11004 = 0x29201004 ∧ s.OwnLookup 1 0x11004 := by
  let v : Vma := ⟨1, 0x10000, 0x13000, 0x29200000, 0, 0x10000⟩
  let mapped : UserSystem :=
    { UserSystem.loaded [anonymousZone] with
      userMaps := [⟨0x10000, 0x29200000, 0x3000⟩]
      vmas := [v]
      opened := [⟨0, 0x10000⟩]
      nextMap := 1 }
  let forked : UserSystem := { mapped with vmas := [v, { v with pid := 2 }] }
  let cut : UserSystem := { mapped with vmas := [{ v with stop := 0x12000 }, { v with pid := 2 }] }
  have mmap : LookupStep (.loaded [anonymousZone])
      (.mmap 1 0x10000 0x3000 0x29200 true) mapped := by
    constructor
    · rintro phys valid u above below v ⟨⟩
    · have valid : mmapPhys (.loaded [anonymousZone]) 0x29200 (pages 0x3000) = some 0x29200000 := by
        decide +kernel
      rw [mapStep, userStep, if_pos (by decide +kernel), arMmzMmapWc, valid]
      rfl
  have fork : LookupStep mapped (.fork 1 2) forked := ⟨trivial, rfl⟩
  have munmap : LookupStep forked (.munmap 1 0x12000 0x1000) cut := by
    let last : Vma := { v with start := 0x12000, phys := 0x29202000 }
    have split : forked.munmap 1 0x12000 (0x12000 + pages 0x1000) =
        { cut with dropping := [.close last] } := by
      rw [UserSystem.munmap, UserSystem.mk.injEq]
      refine ⟨rfl, rfl, ?_, rfl, ?_, rfl, rfl⟩
      · decide +kernel
      · decide +kernel
    constructor
    · intro w piece u has alone
      have pieces : forked.removed 1 0x12000 (0x12000 + pages 0x1000) = [last] := by
        decide +kernel
      rw [pieces, List.mem_singleton] at piece
      subst piece
      have covered : Vma.Has { v with pid := 2 } u :=
        ⟨Nat.le_trans (by decide +kernel) has.1, has.2⟩
      exact absurd (alone _ (List.mem_cons_of_mem _ List.mem_cons_self) covered) (by decide)
    · rw [mapStep, userStep, if_pos (by decide +kernel), split]
      rfl
  have run := Run.cons mmap (.cons fork (.cons munmap (.nil cut)))
  refine ⟨cut, run, rfl, usrVirtToPhys_own run ?_⟩
  intro _ _
  exact ⟨_, List.mem_cons_self, rfl, by decide, by decide⟩

/-- The last page of a mapping is unmapped, and stays registered. -/
theorem usrVirtToPhys_not_own :
    ¬ ∀ (zones : List MmzZone) (calls : List MapCall) (s : UserSystem),
      Run (fun s call next => mapStep s call = some next) (.loaded zones) calls s →
        ∀ pid u, s.OwnLookup pid u := by
  intro always
  have unmapped : ([.mmap 1 0x10000 0x2000 0x29200 true, .munmap 1 0x11000 0x1000].foldlM mapStep
      (UserSystem.loaded [anonymousZone])).any (fun s =>
        decide (usrVirtToPhys s 0x11000 = 0x29201000 ∧ ∀ v ∈ s.vmas, v.stop ≤ 0x11000)) = true := by
    decide +kernel
  rcases (Option.any_eq_true _ _).mp unmapped with ⟨s, done, facts⟩
  rcases of_decide_eq_true facts with ⟨stale, cut⟩
  rcases always _ _ s (Run.of_foldlM mapStep done) 1 0x11000 with nothing | ⟨v, live, _, has, _⟩
  · rw [stale] at nothing
    cases nothing
  · exact absurd has.2 (Nat.not_lt.mpr (cut v live))

end MlKernel.Mmz
