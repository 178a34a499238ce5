import MlKernel.Lib.Run
import MlKernel.Sensor.Nt99235

/-!
# The group hold

The sensor takes its staged bytes over at a frame boundary with the hold released.  A commit
whose staging fails half way releases the hold over what it staged so far.
-/

namespace MlKernel.Sensor

/-- The sensor, the commit in progress and what the frames run with. -/
structure HoldSystem where
  sensor : Nt99235Sensor
  latched : Exposure
  op : Option Commit
  /-- The pairs of the commits that returned zero, newest first, above the pair at the start. -/
  succeeded : List Exposure
  /-- A byte has been staged since the hold was last released. -/
  touched : Bool

inductive HoldEvent
  | commit (mode : Nt99235Mode) (lines gain : UInt32)
  | write (ok : Bool)
  | frame

def HoldSystem.initial (pair : Exposure) : HoldSystem where
  sensor := { hold := 0, staged := pair }
  latched := pair
  op := none
  succeeded := [pair]
  touched := false

/-- A write of the commit, which reaches the sensor or fails. -/
def HoldSystem.written (s : HoldSystem) (c : Commit) (ok : Bool) : HoldSystem :=
  let sensor := if ok then s.sensor.write c.write.1 c.write.2 else s.sensor
  match c.after ok with
  | .going c' =>
      { s with
        sensor
        op := some c'
        touched := s.touched || (ok && decide (c.point ≠ .hold)) }
  | .returned done =>
      { s with
        sensor
        op := none
        succeeded := if done then c.bytes :: s.succeeded else s.succeeded
        touched := s.touched && !(ok && decide (c.point = .release)) }

def holdStep (s : HoldSystem) : HoldEvent → Option HoldSystem
  | .commit mode lines gain =>
      if s.op.isNone then some { s with op := some (.start (commitBytes mode lines gain)) }
      else none
  | .write ok => s.op.map fun c => s.written c ok
  | .frame =>
      some { s with latched := if s.sensor.hold = 0 then s.sensor.staged else s.latched }

/-- The frames run with the pair of one commit that succeeded, and a frame boundary takes over
only the pair of the last one. -/
structure PairInForce (s : HoldSystem) : Prop where
  one : s.latched ∈ s.succeeded
  last : ∀ next, holdStep s .frame = some next →
    next.latched = s.latched ∨ s.succeeded.head? = some next.latched

/-- The hold is released by a commit that staged all four bytes, or with no byte staged since it
was last released. -/
def ReleasedWhole (s : HoldSystem) : HoldEvent → Prop
  | .write true => ∀ c ∈ s.op, c.point = .release → c.failed = false ∨ s.touched = false
  | _ => True

instance (s : HoldSystem) (event : HoldEvent) : Decidable (ReleasedWhole s event) :=
  match event with
  | .write true => inferInstanceAs (Decidable (∀ c ∈ s.op, _))
  | .write false | .commit .. | .frame => .isTrue trivial

/-! ### The invariant -/

/-- What a commit has staged so far. -/
def Commit.Staged (c : Commit) (staged : Exposure) : Prop :=
  match c.point with
  | .hold | .exposureHi => c.failed = false
  | .exposureLo => c.failed = false ∧ staged.hi = c.bytes.hi
  | .again0 => c.failed = false ∧ staged.hi = c.bytes.hi ∧ staged.lo = c.bytes.lo
  | .again1 => c.failed = false ∧ staged.hi = c.bytes.hi ∧ staged.lo = c.bytes.lo ∧
      staged.again0 = c.bytes.again0
  | .release => c.failed = false → staged = c.bytes

structure HoldOk (s : HoldSystem) : Prop where
  latched : s.latched ∈ s.succeeded
  free : s.sensor.hold = 0 → s.succeeded.head? = some s.sensor.staged
  untouched : s.touched = false → s.succeeded.head? = some s.sensor.staged
  held : ∀ c, s.op = some c → c.point ≠ .hold → s.sensor.hold ≠ 0
  staged : ∀ c, s.op = some c → c.Staged s.sensor.staged

theorem HoldSystem.initial_ok (pair : Exposure) : HoldOk (.initial pair) where
  latched := List.mem_singleton_self pair
  free _ := rfl
  untouched _ := rfl
  held := nofun
  staged := nofun

section Step

variable {s : HoldSystem} {c : Commit}

/-- A staging write that fails leaves the bytes, one that goes through marks them touched. -/
theorem HoldOk.stage (ok : HoldOk s) (mem : s.op = some c) (started : c.point ≠ .hold)
    {staged : Exposure} {touched : Bool} {next : Commit}
    (kept : touched = false → s.touched = false ∧ staged = s.sensor.staged)
    (after : next.Staged staged) :
    HoldOk { s with sensor := { s.sensor with staged }, op := some next, touched } where
  latched := ok.latched
  free released := absurd released (ok.held c mem started)
  untouched clean := by
    rcases kept clean with ⟨before, same⟩
    rw [same]
    exact ok.untouched before
  held _ _ _ := ok.held c mem started
  staged c' here := by
    cases here
    exact after

theorem HoldOk.written (ok : HoldOk s) (mem : s.op = some c) {sent : Bool}
    (whole : ReleasedWhole s (.write sent)) : HoldOk (s.written c sent) := by
  have staged := ok.staged c mem
  rcases c with ⟨bytes, point, failed⟩
  cases point with
  | hold =>
      cases sent with
      | false =>
          refine ⟨ok.latched, ok.free, ?_, nofun, nofun⟩
          intro clean
          exact ok.untouched ((Bool.and_true _).symm.trans clean)
      | true =>
          refine ⟨ok.latched, nofun, ?_, ?_, ?_⟩
          · intro clean
            exact ok.untouched (Bool.or_eq_false_iff.mp clean).1
          · rintro _ ⟨⟩ _
            exact (by decide : (1 : UInt8) ≠ 0)
          · rintro _ ⟨⟩
            exact staged
  | exposureHi =>
      cases sent with
      | false => exact ok.stage mem nofun (by simp) nofun
      | true => exact ok.stage mem nofun (by simp) ⟨rfl, rfl⟩
  | exposureLo =>
      cases sent with
      | false => exact ok.stage mem nofun (by simp) nofun
      | true => exact ok.stage mem nofun (by simp) ⟨rfl, staged.2, rfl⟩
  | again0 =>
      cases sent with
      | false => exact ok.stage mem nofun (by simp) nofun
      | true => exact ok.stage mem nofun (by simp) ⟨rfl, staged.2.1, staged.2.2, rfl⟩
  | again1 =>
      cases sent with
      | false => exact ok.stage mem nofun (by simp) nofun
      | true =>
          rcases staged with ⟨_, hi, lo, again0⟩
          refine ok.stage mem nofun (by simp) fun _ => ?_
          rw [Exposure.mk.injEq]
          exact ⟨hi, lo, again0, rfl⟩
  | release =>
      cases sent with
      | false =>
          cases failed with
          | false =>
              refine ⟨ok.latched, ok.free, ?_, nofun, nofun⟩
              intro clean
              exact ok.untouched ((Bool.and_true _).symm.trans clean)
          | true =>
              refine ⟨ok.latched, ok.free, ?_, nofun, nofun⟩
              intro clean
              exact ok.untouched ((Bool.and_true _).symm.trans clean)
      | true =>
          cases failed with
          | false =>
              have last : (bytes :: s.succeeded).head? = some s.sensor.staged :=
                congrArg some (staged rfl).symm
              exact ⟨List.mem_cons_of_mem _ ok.latched, fun _ => last, fun _ => last, nofun, nofun⟩
          | true =>
              have clean := (whole _ mem rfl).resolve_left nofun
              have last := ok.untouched clean
              exact ⟨ok.latched, fun _ => last, fun _ => last, nofun, nofun⟩

theorem HoldOk.commit (ok : HoldOk s) (bytes : Exposure) :
    HoldOk { s with op := some (.start bytes) } where
  latched := ok.latched
  free := ok.free
  untouched := ok.untouched
  held := by
    rintro _ ⟨⟩ started
    exact absurd rfl started
  staged := by
    rintro _ ⟨⟩
    exact rfl

/-- At a frame boundary the sensor takes the pair of the last commit, or is held. -/
theorem HoldOk.frame (ok : HoldOk s) {next : HoldSystem}
    (step : holdStep s .frame = some next) :
    (next.latched = s.latched ∨ s.succeeded.head? = some next.latched) ∧ HoldOk next := by
  cases step
  by_cases released : s.sensor.hold = 0
  · have taken := ok.free released
    rw [if_pos released]
    refine ⟨.inr taken, ?_, ok.free, ok.untouched, ok.held, ok.staged⟩
    exact List.mem_of_head? taken
  · rw [if_neg released]
    exact ⟨.inl rfl, ok.latched, ok.free, ok.untouched, ok.held, ok.staged⟩

theorem HoldOk.step {event : HoldEvent} {next : HoldSystem} (ok : HoldOk s)
    (whole : ReleasedWhole s event) (step : holdStep s event = some next) : HoldOk next := by
  cases event with
  | commit mode lines gain =>
      rcases Option.ite_none_right_eq_some.mp step with ⟨_, started⟩
      cases started
      exact ok.commit _
  | write sent =>
      rcases Option.map_eq_some_iff.mp step with ⟨c, mem, written⟩
      rw [← written]
      exact ok.written mem whole
  | frame => exact (ok.frame step).2

end Step

theorem HoldOk.pairInForce {s : HoldSystem} (ok : HoldOk s) : PairInForce s where
  one := ok.latched
  last _ step := (ok.frame step).1

/-! ### Runs -/

/-- While no release covers a part of a commit, the frames run with whole pairs. -/
theorem holdRun_pairInForce (pair : Exposure) {events : List HoldEvent} {s : HoldSystem}
    (run : Run (fun state event next => ReleasedWhole state event ∧
      holdStep state event = some next) (.initial pair) events s) : PairInForce s := by
  have ok : HoldOk s := by
    refine run.invariant ?_ (HoldSystem.initial_ok pair)
    intro state event next holds step
    exact holds.step step.1 step.2
  exact ok.pairInForce

theorem mode1080p60_lines : 2 < (0x0465 : UInt16).toNat := by decide

def mode1080p60 : Nt99235Mode := ⟨0x0465, mode1080p60_lines⟩

/-- A commit whose release fails too stays held, and the next one goes through. -/
theorem holdRun_pairInForce_held : ∃ s events,
    Run (fun state event next => ReleasedWhole state event ∧
      holdStep state event = some next) (.initial ⟨0, 1, 0, 0⟩) events s ∧
    PairInForce s ∧ s.latched = commitBytes mode1080p60 300 16 := by
  have done : (([.commit mode1080p60 600 32, .write true, .write true, .write false, .write false,
      .frame, .commit mode1080p60 300 16, .write true, .write true, .write true, .write true,
      .write true, .write true, .frame] : List HoldEvent).foldlM
      (fun state event => if ReleasedWhole state event then holdStep state event else none)
      (.initial ⟨0, 1, 0, 0⟩)).any
        (fun s => decide (s.latched = commitBytes mode1080p60 300 16)) = true := by
    decide +kernel
  rcases (Option.any_eq_true _ _).mp done with ⟨s, reached, latched⟩
  have run := Run.of_foldlM_guarded ReleasedWhole holdStep reached
  exact ⟨s, _, run, holdRun_pairInForce _ run, of_decide_eq_true latched⟩

/-- A commit fails between the two exposure bytes and releases the hold: the frame takes a
pair that no commit set, the high byte of one exposure over the low byte of another. -/
theorem holdRun_torn : ¬ ∀ (pair : Exposure) (events : List HoldEvent) (s : HoldSystem),
    Run (fun state event next => holdStep state event = some next) (.initial pair) events s →
      PairInForce s := by
  intro whole
  have done : (([.commit mode1080p60 0x1ff 16, .write true, .write true, .write true,
      .write true, .write true, .write true, .commit mode1080p60 0x200 32, .write true,
      .write true, .write false, .write true, .frame] : List HoldEvent).foldlM holdStep
      (.initial ⟨0, 1, 0, 0⟩)).any
        (fun s => decide (s.latched = ⟨0x02, 0xff, 16, 16⟩ ∧
          s.succeeded = [⟨0x01, 0xff, 16, 16⟩, ⟨0, 1, 0, 0⟩])) = true := by decide +kernel
  rcases (Option.any_eq_true _ _).mp done with ⟨s, reached, torn⟩
  rcases of_decide_eq_true torn with ⟨latched, succeeded⟩
  have one := (whole _ _ s (Run.of_foldlM _ reached)).one
  rw [latched, succeeded] at one
  exact absurd one (by decide)

end MlKernel.Sensor
