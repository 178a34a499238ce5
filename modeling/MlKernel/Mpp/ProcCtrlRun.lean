import Mathlib.Data.Fintype.Defs
import MlKernel.Mpp.ProcCtrl

/-!
# What the daemon threads get

As long as nothing comes between the two sections of a request, each write goes to one request at
most and arrives whole.
-/

namespace MlKernel.Mpp

/-- The message of a write as a request with a limit gets it. -/
def ProcWrite.msgArg (w : ProcWrite) (cap : ℕ) : MsgArg :=
  let len := min (min w.bytes.length (payloadLen - 1)) cap
  { data := pad (w.bytes.take len), len, type := 1, handle := w.handle }

/-- The message was pending, and is one of the writes. -/
def Delivered.Whole (writes : List ProcWrite) (message : Delivered) : Prop :=
  message.pending = true ∧ ∃ id w, message.write = some id ∧ writes[id]? = some w ∧
    message.out = w.msgArg message.cap

/-- Each write is returned at most once and whole, and no entry is used after it was freed. -/
structure ProcOk {Thread : Type} (s : ProcCtrl Thread) : Prop where
  once : (s.delivered.map Delivered.write).Nodup
  whole : ∀ message ∈ s.delivered, message.Whole s.writes
  fresh : s.staleUse = false

section Steps

variable {Thread : Type} {s : ProcCtrl Thread}

/-- Nothing comes between the sections of a request: the message that a scan found is still
pending when it is copied, nobody else has an entry that is freed, and a write that faults hits no
message that waits. -/
def Undisturbed (s : ProcCtrl Thread) : ProcEvent Thread → Prop
  | .umapWrite d _ (some _) => (s.dev d).msgPending = false
  | .msgCopy t _ => ∀ d ∈ (s.call t).entry, (s.dev d).msgPending = true
  | .closeFree t => ∀ d ∈ (s.call t).entry, ∀ other, other ≠ t → d ∉ (s.call other).entry
  | _ => True

instance [DecidableEq Thread] [Fintype Thread] (s : ProcCtrl Thread) (event : ProcEvent Thread) :
    Decidable (Undisturbed s event) :=
  match event with
  | .umapWrite d _ (some _) => inferInstanceAs (Decidable ((s.dev d).msgPending = false))
  | .msgCopy t _ => inferInstanceAs (Decidable
      (∀ d ∈ (s.call t).entry, (s.dev d).msgPending = true))
  | .closeFree t => inferInstanceAs (Decidable
      (∀ d ∈ (s.call t).entry, ∀ other, other ≠ t → d ∉ (s.call other).entry))
  | .umapWrite _ _ none => isTrue trivial
  | .create _ => isTrue trivial
  | .msgScan _ _ => isTrue trivial
  | .writeFind _ _ => isTrue trivial
  | .writeCopy _ _ _ => isTrue trivial
  | .closeRemove _ _ => isTrue trivial

/-- What an entry has pending. -/
structure Waiting (s : ProcCtrl Thread) (d id : ℕ) (w : ProcWrite) : Prop where
  last : (s.dev d).lastWrite = some id
  written : s.writes[id]? = some w
  dev : w.dev = d
  handle : w.handle = (s.dev d).handle
  msg : (s.dev d).msg = pad (w.bytes.take (payloadLen - 1))
  msgLen : (s.dev d).msgLen = min w.bytes.length (payloadLen - 1)
  undelivered : some id ∉ s.delivered.map Delivered.write

structure ProcInv (s : ProcCtrl Thread) : Prop where
  ok : ProcOk s
  freed : ∀ d, s.freed d = true → d < s.created
  listed : ∀ d ∈ s.devs, s.freed d = false ∧ d < s.created
  held : ∀ t d, d ∈ (s.call t).entry → s.freed d = false ∧ d < s.created
  closing : ∀ t d, s.call t = .closeFound d → d ∉ s.devs
  waiting : ∀ d, (s.dev d).msgPending = true → ∃ id w, Waiting s d id w
  delivered : ∀ id, some id ∈ s.delivered.map Delivered.write → id < s.writes.length

theorem ProcInv.initial : ProcInv (ProcCtrl.initial : ProcCtrl Thread) := by
  refine ⟨⟨?_, ?_, ?_⟩, ?_, ?_, ?_, ?_, ?_, ?_⟩
  all_goals simp [ProcCtrl.initial, PcCall.entry]

theorem take_pad {bytes : List UInt8} {len : ℕ} (short : len ≤ bytes.length) :
    (pad bytes).take len = bytes.take len :=
  List.take_append_of_le_length short

theorem Waiting.msgOut {d id : ℕ} {w : ProcWrite} (waiting : Waiting s d id w) (cap : ℕ) :
    ProcCtrl.msgOut (s.dev d) cap = w.msgArg cap := by
  have short : min (min w.bytes.length (payloadLen - 1)) cap ≤
      (w.bytes.take (payloadLen - 1)).length := by
    rw [List.length_take]
    omega
  simp only [ProcCtrl.msgOut, ProcWrite.msgArg, waiting.msg, waiting.msgLen, waiting.handle,
    take_pad short, List.take_take]
  congr 2
  congr 1
  omega

/-- Two states of an entry have the same message. -/
def ProcDev.SameMessage (dev dev' : ProcDev) : Prop :=
  { dev with showBuf := dev'.showBuf, showLen := dev'.showLen } = dev'

/-- Another step leaves what an entry has pending. -/
theorem Waiting.congr {after : ProcCtrl Thread} {d id : ℕ} {w : ProcWrite}
    (waiting : Waiting s d id w) (same : (after.dev d).SameMessage (s.dev d))
    (written : after.writes[id]? = some w)
    (undelivered : some id ∉ after.delivered.map Delivered.write) : Waiting after d id w where
  last := (congrArg ProcDev.lastWrite same).trans waiting.last
  written := written
  dev := waiting.dev
  handle := waiting.handle.trans (congrArg ProcDev.handle same).symm
  msg := (congrArg ProcDev.msg same).trans waiting.msg
  msgLen := (congrArg ProcDev.msgLen same).trans waiting.msgLen
  undelivered := undelivered

theorem ProcInv.create (inv : ProcInv s) (pde : Bool) : ProcInv (s.pcCreate pde) := by
  have new : s.freed s.created = false := by
    cases freed : s.freed s.created with
    | false => rfl
    | true => exact absurd (inv.freed _ freed) (Nat.lt_irrefl _)
  refine ⟨⟨inv.ok.once, inv.ok.whole, inv.ok.fresh⟩, ?_, ?_, ?_, ?_, ?_, inv.delivered⟩
  · intro d freed
    exact Nat.lt_succ_of_lt (inv.freed d freed)
  · intro d mem
    rcases List.mem_append.mp mem with old | added
    · rcases inv.listed d old with ⟨live, below⟩
      exact ⟨live, Nat.lt_succ_of_lt below⟩
    · rw [List.mem_singleton] at added
      rw [added]
      exact ⟨new, Nat.lt_succ_self _⟩
  · intro t d holds
    rcases inv.held t d holds with ⟨live, below⟩
    exact ⟨live, Nat.lt_succ_of_lt below⟩
  · intro t d closing mem
    rcases List.mem_append.mp mem with old | added
    · exact inv.closing t d closing old
    · rw [List.mem_singleton] at added
      have holds : d ∈ (s.call t).entry := by
        rw [show s.call t = .closeFound d from closing]
        rfl
      have below := (inv.held t d holds).2
      omega
  · intro d pending
    by_cases same : d = s.created
    · rw [same] at pending
      simp [ProcCtrl.pcCreate] at pending
    · have untouched : (s.pcCreate pde).dev d = s.dev d := Function.update_of_ne same ..
      rw [untouched] at pending
      rcases inv.waiting d pending with ⟨id, w, waiting⟩
      exact ⟨id, w, waiting.congr (by rw [untouched]; rfl) waiting.written waiting.undelivered⟩

theorem Delivered.Whole.append {writes : List ProcWrite} {message : Delivered}
    (whole : message.Whole writes) (w : ProcWrite) : message.Whole (writes ++ [w]) := by
  rcases whole with ⟨pending, id, w', from', written, out⟩
  refine ⟨pending, id, w', from', ?_, out⟩
  rw [List.getElem?_append_left (List.getElem?_eq_some_iff.mp written).1]
  exact written

/-- An entry changes, but not to have something else pending. -/
theorem ProcInv.setDev (inv : ProcInv s) {d : ℕ} {dev : ProcDev}
    (same : dev.msgPending = true → dev.SameMessage (s.dev d)) : ProcInv (s.setDev d dev) := by
  refine ⟨⟨inv.ok.once, inv.ok.whole, inv.ok.fresh⟩, inv.freed, inv.listed, inv.held, inv.closing,
    ?_, inv.delivered⟩
  intro other pending
  have change : (s.setDev d dev).dev other = if other = d then dev else s.dev other :=
    Function.update_apply ..
  rw [change] at pending
  split at pending
  · next here =>
      subst here
      have kept := same pending
      rcases inv.waiting other ((congrArg ProcDev.msgPending kept).symm.trans pending) with
        ⟨id, w, waiting⟩
      refine ⟨id, w, waiting.congr ?_ waiting.written waiting.undelivered⟩
      rw [change, if_pos rfl]
      exact kept
  · next elsewhere =>
      rcases inv.waiting other pending with ⟨id, w, waiting⟩
      refine ⟨id, w, waiting.congr ?_ waiting.written waiting.undelivered⟩
      rw [change, if_neg elsewhere]
      rfl

theorem ProcInv.umapWrite (inv : ProcInv s) {d : ℕ} {bytes : List UInt8} {fault : Option ℕ}
    (undisturbed : Undisturbed s (.umapWrite d bytes fault)) :
    ProcInv (s.umapWrite d bytes fault) := by
  cases fault with
  | some copied =>
      have calm : (s.dev d).msgPending = false := undisturbed
      exact inv.setDev fun pending => absurd pending (by simp [calm])
  | none =>
      have new : some s.writes.length ∉ s.delivered.map Delivered.write := fun mem =>
        absurd (inv.delivered _ mem) (Nat.lt_irrefl _)
      refine ⟨⟨inv.ok.once, ?_, inv.ok.fresh⟩, inv.freed, inv.listed, inv.held, inv.closing, ?_, ?_⟩
      · intro message mem
        exact (inv.ok.whole message mem).append _
      · intro other pending
        by_cases same : other = d
        · subst same
          refine ⟨s.writes.length, _, ?_, List.getElem?_concat_length, ?_, ?_, ?_, ?_, new⟩
          all_goals simp [ProcCtrl.umapWrite, ProcCtrl.setDev, copyFromUser]
          rw [Nat.min_comm, ← List.take_eq_take_min]
        · have untouched : (s.umapWrite d bytes none).dev other = s.dev other :=
            Function.update_of_ne same ..
          rw [untouched] at pending
          rcases inv.waiting other pending with ⟨id, w, waiting⟩
          have written := waiting.written
          refine ⟨id, w, waiting.congr (by rw [untouched]; rfl) ?_ waiting.undelivered⟩
          exact (List.getElem?_append_left (List.getElem?_eq_some_iff.mp written).1).trans written
      · intro id mem
        have below := inv.delivered id mem
        simp only [ProcCtrl.umapWrite, List.length_append, List.length_singleton]
        exact Nat.lt_succ_of_lt below

theorem ProcInv.use (inv : ProcInv s) {d : ℕ} (live : s.freed d = false) : ProcInv (s.use d) := by
  have fresh : (s.use d).staleUse = false := by simp [ProcCtrl.use, live, inv.ok.fresh]
  refine ⟨⟨inv.ok.once, inv.ok.whole, fresh⟩, inv.freed, inv.listed, inv.held, inv.closing, ?_,
    inv.delivered⟩
  intro d pending
  rcases inv.waiting d pending with ⟨id, w, waiting⟩
  exact ⟨id, w, waiting.congr rfl waiting.written waiting.undelivered⟩

theorem ProcInv.writeCopy (inv : ProcInv s) {d : ℕ} (live : s.freed d = false)
    (bytes : List UInt8) (fault : Option ℕ) : ProcInv (s.writeCopy d bytes fault) := by
  cases fault with
  | some copied => exact (inv.use live).setDev fun _ => rfl
  | none => exact (inv.use live).setDev fun _ => rfl

theorem ProcInv.msgCopy (inv : ProcInv s) {d : ℕ} (live : s.freed d = false)
    (pending : (s.dev d).msgPending = true) (cap : ℕ) (fault : Bool) :
    ProcInv (s.msgCopy d cap fault) := by
  have taken : ProcInv ((s.use d).setDev d { s.dev d with msgPending := false }) :=
    (inv.use live).setDev fun pending => absurd pending (by simp)
  cases fault with
  | true => exact taken
  | false =>
      rcases inv.waiting d pending with ⟨id, w, waiting⟩
      have whole : (ProcCtrl.message (s.dev d) cap).Whole s.writes :=
        ⟨pending, id, w, waiting.last, waiting.written, waiting.msgOut cap⟩
      have writes : (s.msgCopy d cap false).delivered.map Delivered.write =
          s.delivered.map Delivered.write ++ [some id] := by
        simp [ProcCtrl.msgCopy, ProcCtrl.message, ProcCtrl.setDev, ProcCtrl.use, waiting.last]
      refine ⟨⟨?_, ?_, taken.ok.fresh⟩, taken.freed, taken.listed, taken.held, taken.closing,
        ?_, ?_⟩
      · rw [writes]
        refine List.nodup_append.mpr ⟨inv.ok.once, by simp, ?_⟩
        intro other mem new mem' same
        rw [List.mem_singleton.mp mem'] at same
        exact waiting.undelivered (same ▸ mem)
      · intro message mem
        rcases List.mem_append.mp mem with old | new
        · exact inv.ok.whole message old
        · rw [List.mem_singleton] at new
          rw [new]
          exact whole
      · intro other pending'
        rcases taken.waiting other pending' with ⟨id', w', waiting'⟩
        refine ⟨id', w', waiting'.congr rfl waiting'.written ?_⟩
        rw [writes, List.mem_append, List.mem_singleton]
        rintro (old | new)
        · exact waiting'.undelivered old
        · -- it is the write to another entry
          cases new
          have same : w' = w := Option.some.inj (waiting'.written.symm.trans waiting.written)
          have here : other = d := by rw [← waiting'.dev, same, waiting.dev]
          subst here
          simp [ProcCtrl.msgCopy, ProcCtrl.setDev] at pending'
      · intro id' mem
        rw [writes, List.mem_append, List.mem_singleton] at mem
        rcases mem with old | new
        · exact inv.delivered id' old
        · cases new
          exact (List.getElem?_eq_some_iff.mp waiting.written).1

variable [DecidableEq Thread]

theorem ProcInv.setCall (inv : ProcInv s) (t : Thread) {call : PcCall}
    (holds : ∀ d, d ∈ call.entry → s.freed d = false ∧ d < s.created)
    (closing : ∀ d, call = .closeFound d → d ∉ s.devs) : ProcInv (s.setCall t call) := by
  refine ⟨⟨inv.ok.once, inv.ok.whole, inv.ok.fresh⟩, inv.freed, inv.listed, ?_, ?_, ?_,
    inv.delivered⟩
  · intro other d held
    simp only [ProcCtrl.setCall, Function.update_apply] at held
    split at held
    · exact holds d held
    · exact inv.held other d held
  · intro other d closes
    simp only [ProcCtrl.setCall, Function.update_apply] at closes
    split at closes
    · exact closing d closes
    · exact inv.closing other d closes
  · intro d pending
    rcases inv.waiting d pending with ⟨id, w, waiting⟩
    exact ⟨id, w, waiting.congr rfl waiting.written waiting.undelivered⟩

theorem ProcInv.idle (inv : ProcInv s) (t : Thread) : ProcInv (s.setCall t .idle) :=
  inv.setCall t (fun _ => nofun) (fun _ => nofun)

theorem ProcInv.closeRemove (inv : ProcInv s) (t : Thread) {d : ℕ} (mem : d ∈ s.devs) :
    ProcInv ({ s with devs := s.devs.filter (· ≠ d) }.setCall t (.closeFound d)) := by
  have removed : ProcInv { s with devs := s.devs.filter (· ≠ d) } := by
    refine ⟨⟨inv.ok.once, inv.ok.whole, inv.ok.fresh⟩, inv.freed, ?_, inv.held, ?_, ?_,
      inv.delivered⟩
    · intro other mem
      exact inv.listed other ((List.mem_filter.mp mem).1)
    · intro t other closing mem
      exact inv.closing t other closing ((List.mem_filter.mp mem).1)
    · intro other pending
      rcases inv.waiting other pending with ⟨id, w, waiting⟩
      exact ⟨id, w, waiting.congr rfl waiting.written waiting.undelivered⟩
  apply removed.setCall
  · rintro _ ⟨⟩
    exact inv.listed d mem
  · rintro _ ⟨⟩
    simp

theorem ProcInv.closeFree (inv : ProcInv s) {t : Thread} {d : ℕ}
    (closing : s.call t = .closeFound d)
    (alone : ∀ other, other ≠ t → d ∉ (s.call other).entry) :
    ProcInv ({ s with freed := Function.update s.freed d true }.setCall t .idle) := by
  have holds : d ∈ (s.call t).entry := by
    rw [closing]
    rfl
  have others : ∀ other, other ≠ d → Function.update s.freed d true other = s.freed other :=
    fun other different => Function.update_of_ne different ..
  refine ⟨⟨inv.ok.once, inv.ok.whole, inv.ok.fresh⟩, ?_, ?_, ?_, ?_, ?_, inv.delivered⟩
  · intro other freed
    simp only [ProcCtrl.setCall, Function.update_apply] at freed
    split at freed
    · next same =>
        rw [same]
        exact (inv.held t d holds).2
    · exact inv.freed other freed
  · intro other mem
    have different : other ≠ d := fun same => inv.closing t d closing (same ▸ mem)
    refine ⟨(others other different).trans (inv.listed other mem).1, (inv.listed other mem).2⟩
  · intro thread other held
    simp only [ProcCtrl.setCall, Function.update_apply] at held
    split at held
    · cases held
    · next different =>
        have elsewhere : other ≠ d := fun same => alone thread different (same ▸ held)
        exact ⟨(others other elsewhere).trans (inv.held thread other held).1,
          (inv.held thread other held).2⟩
  · intro thread other closes
    simp only [ProcCtrl.setCall, Function.update_apply] at closes
    split at closes
    · cases closes
    · exact inv.closing thread other closes
  · intro other pending
    rcases inv.waiting other pending with ⟨id, w, waiting⟩
    exact ⟨id, w, waiting.congr rfl waiting.written waiting.undelivered⟩

theorem ProcInv.step {next : ProcCtrl Thread} {event : ProcEvent Thread} (inv : ProcInv s)
    (undisturbed : Undisturbed s event) (step : procStep s event = some next) : ProcInv next := by
  cases event with
  | create pde =>
      cases step
      exact inv.create pde
  | umapWrite d bytes fault =>
      rcases Option.ite_none_right_eq_some.mp step with ⟨-, done⟩
      cases done
      exact inv.umapWrite undisturbed
  | msgScan t cap =>
      rcases Option.ite_none_right_eq_some.mp step with ⟨-, done⟩
      split at done
      · next found scan =>
          cases done
          apply inv.setCall
          · rintro _ ⟨⟩
            exact inv.listed found (List.mem_of_find?_eq_some scan)
          · exact fun _ => nofun
      · cases done
        exact inv
  | msgCopy t fault =>
      cases running : s.call t with
      | msgFound d cap =>
          simp only [procStep, running] at step
          cases step
          have holds : d ∈ (s.call t).entry := by
            rw [running]
            rfl
          exact (inv.msgCopy (inv.held t d holds).1 (undisturbed d holds) cap fault).idle t
      | _ => simp [procStep, running] at step
  | writeFind t handle =>
      rcases Option.ite_none_right_eq_some.mp step with ⟨-, done⟩
      split at done
      · next d found =>
          cases done
          apply inv.setCall
          · rintro _ ⟨⟩
            exact inv.listed d (List.mem_of_find?_eq_some found)
          · exact fun _ => nofun
      · cases done
        exact inv
  | writeCopy t bytes fault =>
      cases running : s.call t with
      | writeFound d =>
          simp only [procStep, running] at step
          cases step
          have holds : d ∈ (s.call t).entry := by
            rw [running]
            rfl
          exact (inv.writeCopy (inv.held t d holds).1 bytes fault).idle t
      | _ => simp [procStep, running] at step
  | closeRemove t handle =>
      rcases Option.ite_none_right_eq_some.mp step with ⟨-, done⟩
      split at done
      · next d found =>
          cases done
          exact inv.closeRemove t (List.mem_of_find?_eq_some found)
      · cases done
        exact inv
  | closeFree t =>
      cases running : s.call t with
      | closeFound d =>
          simp only [procStep, running] at step
          cases step
          have holds : d ∈ (s.call t).entry := by
            rw [running]
            rfl
          exact inv.closeFree running (undisturbed d holds)
      | _ => simp [procStep, running] at step

/-- While no request is disturbed, every write is returned at most once and whole. -/
theorem procRun_ok {events : List (ProcEvent Thread)} {s : ProcCtrl Thread}
    (run : Run (fun s event next => Undisturbed s event ∧ procStep s event = some next) .initial
      events s) : ProcOk s := by
  have inv : ProcInv s := by
    refine run.invariant ?_ ProcInv.initial
    intro s event next inv step
    exact inv.step step.1 step.2
  exact inv.ok

end Steps

/-- A thread fetches a message while another one sets the text of the entry, and the entry is
closed after a second message. -/
theorem procRun_ok_two : ∃ events s,
    Run (fun s event next => Undisturbed s event ∧ procStep s event = some next)
      (.initial : ProcCtrl Bool) events s ∧
    ProcOk s ∧ s.freed 0 = true ∧
    s.delivered.map Delivered.out =
      [ProcWrite.msgArg ⟨0, 1, [104, 105]⟩ 256, ProcWrite.msgArg ⟨0, 1, [111, 107]⟩ 1] := by
  have done : (([.create true, .umapWrite 0 [104, 105] none, .msgScan true 300, .writeFind false 1,
      .msgCopy true false, .umapWrite 0 [1] (some 0), .writeCopy false [7] none,
      .umapWrite 0 [111, 107] none, .msgScan false 1, .msgCopy false false, .closeRemove true 1,
      .closeFree true] : List (ProcEvent Bool)).foldlM
      (fun s event => if Undisturbed s event then procStep s event else none)
      .initial).any (fun s => decide (s.freed 0 = true ∧ s.delivered.map Delivered.out =
        [ProcWrite.msgArg ⟨0, 1, [104, 105]⟩ 256, ProcWrite.msgArg ⟨0, 1, [111, 107]⟩ 1])) =
      true := by
    decide +kernel
  rcases (Option.any_eq_true _ _).mp done with ⟨s, reached, facts⟩
  have run := Run.of_foldlM_guarded Undisturbed procStep reached
  exact ⟨_, s, run, procRun_ok run, of_decide_eq_true facts⟩

/-- Two threads find the same message before either of them takes it. -/
theorem procRun_not_ok : ¬∀ (events : List (ProcEvent Bool)) (s : ProcCtrl Bool),
    Run (fun s event next => procStep s event = some next) .initial events s → ProcOk s := by
  intro ok
  have done : (([.create true, .umapWrite 0 [104] none, .msgScan true 256, .msgScan false 256,
      .msgCopy true false, .msgCopy false false] : List (ProcEvent Bool)).foldlM procStep
        .initial).any (fun s => decide (s.delivered.map Delivered.write = [some 0, some 0])) =
      true := by
    decide +kernel
  rcases (Option.any_eq_true _ _).mp done with ⟨s, reached, facts⟩
  have once := (ok _ s (Run.of_foldlM _ reached)).once
  rw [of_decide_eq_true facts] at once
  exact absurd once (by decide)

end MlKernel.Mpp
