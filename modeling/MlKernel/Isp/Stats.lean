import MlKernel.Lib.Run
import Mathlib.Algebra.Ring.Nat

/-!
# The statistics halves

The statistics engines write one half of each buffer while the other can be read.  A frame
interrupt flips the halves and counts, a publish re-arms half 0 and does not count, and the raw
export reads the halves between two reads of the count.
-/

namespace MlKernel.Isp

/-- `AR_ISP_RRO_SIZE`. -/
def arIspRroSize : ℕ := 36 * 0x200

/-- `AR_ISP_HIST_SIZE`. -/
def arIspHistSize : ℕ := 0x1000

inductive Half
  | zero
  | one
  deriving DecidableEq, Repr

def Half.other : Half → Half
  | zero => one
  | one => zero

/-- A map from halves, changed at one of them. -/
def Half.set (marks : Half → Bool) (half : Half) (mark : Bool) : Half → Bool :=
  fun other => if other = half then mark else marks other

/-! ### The reader -/

/-- The next access of a raw export: the count, then for each buffer whether a half can be read
and which, then the bytes, then the count again. -/
inductive RawPoint
  | idle
  | rroValid (seq : UInt32)
  | rroDone (seq : UInt32)
  | histValid (seq : UInt32) (rro : Half)
  | histDone (seq : UInt32) (rro : Half)
  | bytes (seq : UInt32) (rro hist : Half) (next : ℕ)
  | again
  | returned (first last : UInt32)
  deriving DecidableEq

/-- An export with, since its first read of the count, the halves the engines were directed to,
the flips, and for each byte its half and whether the engines had finished that half. -/
structure RawExport where
  point : RawPoint
  reads : List (Half × Bool)
  directed : Half → Bool
  flips : ℕ

def RawExport.reading (raw : RawExport) : Bool :=
  match raw.point with
  | .idle | .again | .returned .. => false
  | _ => true

/-! ### The driver -/

/-- The halves, whether the buffers are owned, and the export in progress. -/
structure IspStats where
  rro : Bool
  hist : Bool
  statsCur : Half
  statsDone : Half
  statsValid : Bool
  statsFlips : UInt32
  /-- The half the address registers direct the engines to. -/
  armed : Half
  /-- The halves written to the end of a frame and not armed since. -/
  finished : Half → Bool
  raw : RawExport

def arIspStatsArm (s : IspStats) (half : Half) : IspStats :=
  { s with
    armed := half
    finished := Half.set s.finished half false
    raw :=
      if s.raw.reading then { s.raw with directed := Half.set s.raw.directed half true }
      else s.raw }

/-- The statistics event of `ar_isp_irq`: the frame on the armed half has ended. -/
def arIspIrq (s : IspStats) : IspStats :=
  let s := { s with finished := Half.set s.finished s.armed true }
  let next := s.statsCur.other
  let s := arIspStatsArm s next
  { s with
    statsDone := s.statsCur
    statsCur := next
    statsValid := true
    statsFlips := s.statsFlips + 1
    raw := if s.raw.reading then { s.raw with flips := s.raw.flips + 1 } else s.raw }

/-- The locked section of `ar_isp_stats_publish`. -/
def arIspStatsPublish (s : IspStats) : IspStats :=
  let s := { s with statsCur := .zero, statsDone := .zero, statsValid := false }
  arIspStatsArm s s.statsCur

/-- The next access of `ar_isp_stats_raw_show`, or of a new call after one that returned. -/
def arIspStatsRawShow (s : IspStats) : RawExport :=
  match s.raw.point with
  | .idle | .again | .returned .. =>
      { point := .rroValid s.statsFlips, reads := [], directed := fun _ => false, flips := 0 }
  | .rroValid seq =>
      { s.raw with point := if s.rro && s.statsValid then .rroDone seq else .again }
  | .rroDone seq => { s.raw with point := .histValid seq s.statsDone }
  | .histValid seq rro =>
      { s.raw with point := if s.hist && s.statsValid then .histDone seq rro else .again }
  | .histDone seq rro => { s.raw with point := .bytes seq rro s.statsDone 0 }
  | .bytes seq rro hist next =>
      if next < arIspRroSize + arIspHistSize then
        let half := if next < arIspRroSize then rro else hist
        { s.raw with
          point := .bytes seq rro hist (next + 1)
          reads := (half, s.finished half) :: s.raw.reads }
      else { s.raw with point := .returned seq s.statsFlips }

inductive StatsEvent
  | flip
  | publish
  | read

def statsStep (s : IspStats) : StatsEvent → Option IspStats
  | .flip => some (arIspIrq s)
  | .publish => some (arIspStatsPublish s)
  | .read => some { s with raw := arIspStatsRawShow s }

/-- The state after a publish, with no export in progress. -/
def IspStats.published (rro hist : Bool) (flips : UInt32) : IspStats where
  rro
  hist
  statsCur := .zero
  statsDone := .zero
  statsValid := false
  statsFlips := flips
  armed := .zero
  finished _ := false
  raw := { point := .idle, reads := [], directed := fun _ => false, flips := 0 }

/-- An export with equal counts has all its bytes from one half, finished before and not armed
since the first read of the count. -/
def Coherent (s : IspStats) : Prop :=
  ∀ seq, s.raw.point = .returned seq seq →
    ∃ half, s.raw.reads = List.replicate (arIspRroSize + arIspHistSize) (half, true) ∧
      s.raw.directed half = false

/-- Whether the bytes an export reads from here on are not in half 0, which a publish arms, or
are not read at all because a check is still to come. -/
def RawPoint.spared : RawPoint → Bool
  | histDone .. => false
  | bytes _ rro hist _ => decide (rro = .one ∧ hist = .one)
  | _ => true

/-- A publish finds an export spared by it, or spoiled by a flip already; and no export lasts for
2 ^ 32 flips. -/
def ExportKept (s : IspStats) : StatsEvent → Prop
  | .flip => s.raw.reading = true → s.raw.flips + 1 < 2 ^ 32
  | .publish => s.raw.flips = 0 → s.raw.point.spared = true
  | .read => True

instance (s : IspStats) (event : StatsEvent) : Decidable (ExportKept s event) :=
  match event with
  | .flip | .publish => inferInstanceAs (Decidable (_ → _))
  | .read => .isTrue trivial

/-! ### The invariant -/

/-- The count the export began with, while it is in progress. -/
def RawPoint.seq : RawPoint → Option UInt32
  | rroValid seq | rroDone seq | histValid seq _ | histDone seq _ | bytes seq _ _ _ => some seq
  | idle | again | returned .. => none

/-- What an export that no flip has spoiled has chosen and read so far. -/
def Chosen (s : IspStats) : Prop :=
  match s.raw.point with
  | .rroValid _ | .rroDone _ => s.raw.reads = []
  | .histValid _ rro => (s.statsValid = true → rro = s.statsDone) ∧ s.raw.reads = []
  | .histDone _ rro => s.statsValid = true ∧ rro = s.statsDone ∧ s.raw.reads = []
  | .bytes _ rro hist next =>
      rro = hist ∧ s.finished rro = true ∧ s.raw.directed rro = false ∧
        next ≤ arIspRroSize + arIspHistSize ∧ s.raw.reads = List.replicate next (rro, true)
  | _ => True

structure StatsOk (s : IspStats) : Prop where
  armed : s.armed = s.statsCur
  done : s.statsValid = true → s.statsDone = s.statsCur.other ∧ s.finished s.statsDone = true
  counted : ∀ seq, s.raw.point.seq = some seq →
    s.raw.flips < 2 ^ 32 ∧ s.statsFlips = seq + .ofNat s.raw.flips
  /-- A publish since the first read leaves the halves invalid until the next flip. -/
  undirected : s.raw.reading = true → s.raw.flips = 0 → s.statsValid = true →
    ∀ half, s.raw.directed half = false
  chosen : s.raw.flips = 0 → Chosen s
  coherent : Coherent s

theorem IspStats.published_ok (rro hist : Bool) (flips : UInt32) :
    StatsOk (.published rro hist flips) where
  armed := rfl
  done := nofun
  counted := nofun
  undirected := nofun
  chosen _ := trivial
  coherent := nofun

section Step

variable {s : IspStats}

theorem Half.other_ne (half : Half) : half.other ≠ half := by
  cases half <;> decide

theorem Half.other_other (half : Half) : half.other.other = half := by
  cases half <;> rfl

theorem Half.set_same (marks : Half → Bool) (half : Half) (mark : Bool) :
    Half.set marks half mark half = mark :=
  if_pos rfl

theorem Half.set_of_ne {marks : Half → Bool} {half other : Half} {mark : Bool}
    (ne : other ≠ half) : Half.set marks half mark other = marks other :=
  if_neg ne

theorem reading_iff_seq (raw : RawExport) :
    raw.reading = true ↔ ∃ seq, raw.point.seq = some seq := by
  rcases raw with ⟨point, reads, directed, flips⟩
  cases point <;> simp [RawExport.reading, RawPoint.seq]

/-- What an arm leaves of an export. -/
theorem arIspStatsArm_raw (s : IspStats) (half : Half) :
    (arIspStatsArm s half).raw.point = s.raw.point ∧
      (arIspStatsArm s half).raw.reads = s.raw.reads ∧
      (arIspStatsArm s half).raw.flips = s.raw.flips := by
  unfold arIspStatsArm
  cases s.raw.reading <;> exact ⟨rfl, rfl, rfl⟩

theorem arIspStatsArm_finished {half other : Half} (ne : other ≠ half) :
    (arIspStatsArm s half).finished other = s.finished other :=
  Half.set_of_ne ne

theorem arIspStatsArm_directed {half other : Half} (ne : other ≠ half) :
    (arIspStatsArm s half).raw.directed other = s.raw.directed other := by
  unfold arIspStatsArm
  cases s.raw.reading
  · rfl
  · exact Half.set_of_ne ne

theorem arIspIrq_raw_idle (idle : s.raw.reading = false) : (arIspIrq s).raw = s.raw := by
  simp [arIspIrq, arIspStatsArm, idle]

theorem arIspIrq_raw_reading (reading : s.raw.reading = true) :
    (arIspIrq s).raw.point = s.raw.point ∧ (arIspIrq s).raw.flips = s.raw.flips + 1 := by
  have still : RawExport.reading
      { s.raw with directed := Half.set s.raw.directed s.statsCur.other true } = true := reading
  simp [arIspIrq, arIspStatsArm, reading, still]

theorem StatsOk.flip_idle (ok : StatsOk s) (idle : s.raw.reading = false) :
    (arIspIrq s).raw.point.seq = none ∧ Chosen (arIspIrq s) ∧ Coherent (arIspIrq s) := by
  have same := arIspIrq_raw_idle idle
  have coherent := ok.coherent
  rcases s with
    ⟨rro, hist, cur, done, valid, flips, armed, finished, ⟨point, reads, directed, seen⟩⟩
  unfold Coherent Chosen
  rw [same]
  cases point <;> first | exact ⟨rfl, trivial, coherent⟩ | cases idle

theorem StatsOk.flip (ok : StatsOk s) (kept : ExportKept s .flip) : StatsOk (arIspIrq s) := by
  have done : (arIspIrq s).statsValid = true → (arIspIrq s).statsDone =
      (arIspIrq s).statsCur.other ∧ (arIspIrq s).finished (arIspIrq s).statsDone = true := by
    intro _
    refine ⟨s.statsCur.other_other.symm, ?_⟩
    refine (Half.set_of_ne s.statsCur.other_ne.symm).trans ?_
    rw [ok.armed]
    exact Half.set_same ..
  cases reading : s.raw.reading with
  | false =>
      rcases ok.flip_idle reading with ⟨seq, chosen, coherent⟩
      have idle : (arIspIrq s).raw.reading ≠ true := by
        rw [arIspIrq_raw_idle reading, reading]
        exact Bool.false_ne_true
      refine ⟨rfl, done, ?_, fun still => absurd still idle, fun _ => chosen, coherent⟩
      intro first here
      rw [seq] at here
      cases here
  | true =>
      rcases arIspIrq_raw_reading reading with ⟨point, flips⟩
      have later : (arIspIrq s).raw.flips ≠ 0 := by
        rw [flips]
        exact Nat.succ_ne_zero _
      refine ⟨rfl, done, ?_, fun _ clean => absurd clean later, fun clean => absurd clean later, ?_⟩
      · intro seq here
        rw [point] at here
        rw [flips]
        refine ⟨kept reading, ?_⟩
        have counted := (ok.counted seq here).2
        change s.statsFlips + 1 = _
        rw [counted, UInt32.add_assoc]
        exact congrArg (seq + ·) (UInt32.ofNat_add s.raw.flips 1).symm
      · intro seq returned
        rw [point] at returned
        rw [RawExport.reading, returned] at reading
        cases reading

/-- A publish spoils no byte of half 1. -/
theorem StatsOk.publish_chosen (ok : StatsOk s) (kept : ExportKept s .publish)
    (clean : s.raw.flips = 0) : Chosen (arIspStatsPublish s) := by
  have allowed := kept clean
  have chosen := ok.chosen clean
  rcases arIspStatsArm_raw
      { s with statsCur := .zero, statsDone := .zero, statsValid := false } .zero
    with ⟨point, reads, _⟩
  unfold Chosen at chosen ⊢
  unfold arIspStatsPublish
  rw [point, reads]
  cases here : s.raw.point with
  | rroValid seq =>
      rw [here] at chosen
      exact chosen
  | rroDone seq =>
      rw [here] at chosen
      exact chosen
  | histValid seq rro =>
      rw [here] at chosen
      exact ⟨nofun, chosen.2⟩
  | histDone seq rro =>
      rw [here] at allowed
      cases allowed
  | bytes seq rro hist next =>
      rw [here] at allowed chosen
      rcases of_decide_eq_true allowed with ⟨rfl, rfl⟩
      rcases chosen with ⟨_, finished, directed, bound, all⟩
      have apart : Half.one ≠ Half.zero := by decide
      refine ⟨rfl, ?_, ?_, bound, all⟩
      · exact (arIspStatsArm_finished apart).trans finished
      · exact (arIspStatsArm_directed apart).trans directed
  | _ => trivial

theorem StatsOk.publish (ok : StatsOk s) (kept : ExportKept s .publish) :
    StatsOk (arIspStatsPublish s) := by
  rcases arIspStatsArm_raw
      { s with statsCur := .zero, statsDone := .zero, statsValid := false } .zero
    with ⟨point, reads, flips⟩
  have counted : ∀ seq, (arIspStatsPublish s).raw.point.seq = some seq →
      (arIspStatsPublish s).raw.flips < 2 ^ 32 ∧
        (arIspStatsPublish s).statsFlips = seq + .ofNat (arIspStatsPublish s).raw.flips := by
    unfold arIspStatsPublish
    rw [point, flips]
    exact ok.counted
  refine ⟨rfl, nofun, counted, fun _ _ => nofun, ?_, ?_⟩
  · intro clean
    exact ok.publish_chosen kept (flips.symm.trans clean)
  · intro seq returned
    have before : s.raw.point = .returned seq seq := point.symm.trans returned
    have idle : s.raw.reading = false := by
      rw [RawExport.reading, before]
    have same : (arIspStatsPublish s).raw = s.raw := by
      simp [arIspStatsPublish, arIspStatsArm, idle]
    rw [same]
    exact ok.coherent seq before

/-- The next access of an export in progress. -/
theorem StatsOk.advance (ok : StatsOk s) {seq : UInt32} {point : RawPoint}
    (before : s.raw.point.seq = some seq) (after : point.seq = some seq)
    (reads : List (Half × Bool))
    (chosen : s.raw.flips = 0 → Chosen { s with raw := { s.raw with point, reads } }) :
    StatsOk { s with raw := { s.raw with point, reads } } where
  armed := ok.armed
  done := ok.done
  counted seq' here := by
    cases after.symm.trans here
    exact ok.counted seq before
  undirected _ := ok.undirected ((reading_iff_seq _).mpr ⟨seq, before⟩)
  chosen := chosen
  coherent seq' returned := by
    change point = _ at returned
    rw [returned] at after
    cases after

/-- An export that fails, with `-EAGAIN`. -/
theorem StatsOk.fail (ok : StatsOk s) :
    StatsOk { s with raw := { s.raw with point := .again } } where
  armed := ok.armed
  done := ok.done
  counted := nofun
  undirected := nofun
  chosen _ := trivial
  coherent := nofun

theorem StatsOk.start (ok : StatsOk s) :
    StatsOk { s with
      raw := { point := .rroValid s.statsFlips, reads := [], directed := fun _ => false,
               flips := 0 } } where
  armed := ok.armed
  done := ok.done
  counted := by
    rintro _ ⟨⟩
    refine ⟨Nat.two_pow_pos 32, ?_⟩
    exact (UInt32.add_zero s.statsFlips).symm
  undirected _ _ _ _ := rfl
  chosen _ := rfl
  coherent := nofun

/-- The last access: equal counts are counts with no flip between. -/
theorem StatsOk.finish (ok : StatsOk s) {seq : UInt32} {rro hist : Half} {next : ℕ}
    (here : s.raw.point = .bytes seq rro hist next)
    (all : ¬ next < arIspRroSize + arIspHistSize) :
    StatsOk { s with raw := { s.raw with point := .returned seq s.statsFlips } } where
  armed := ok.armed
  done := ok.done
  counted := nofun
  undirected := nofun
  chosen _ := trivial
  coherent seq' returned := by
    have counted := ok.counted seq (by rw [here]; rfl)
    have clean : s.raw.flips = 0 := by
      rcases RawPoint.returned.inj returned with ⟨rfl, last⟩
      have zero := UInt32.left_eq_add.mp (last.symm.trans counted.2)
      have wrapped := congrArg UInt32.toNat zero
      rw [UInt32.toNat_ofNat'] at wrapped
      exact (Nat.mod_eq_of_lt counted.1).symm.trans wrapped
    have chosen := ok.chosen clean
    unfold Chosen at chosen
    rw [here] at chosen
    rcases chosen with ⟨_, _, directed, bound, reads⟩
    have whole : next = arIspRroSize + arIspHistSize := Nat.le_antisymm bound (Nat.le_of_not_lt all)
    rw [whole] at reads
    exact ⟨rro, reads, directed⟩

theorem StatsOk.byte (ok : StatsOk s) {seq : UInt32} {rro hist : Half} {next : ℕ}
    (here : s.raw.point = .bytes seq rro hist next)
    (more : next < arIspRroSize + arIspHistSize) (half : Half) (either : half = rro ∨ half = hist) :
    StatsOk { s with
      raw := { s.raw with
        point := .bytes seq rro hist (next + 1)
        reads := (half, s.finished half) :: s.raw.reads } } := by
  refine ok.advance (by rw [here]; rfl) rfl _ fun clean => ?_
  have chosen := ok.chosen clean
  unfold Chosen at chosen
  rw [here] at chosen
  rcases chosen with ⟨rfl, finished, directed, _, reads⟩
  have same : half = rro := either.elim id id
  subst same
  refine ⟨rfl, finished, directed, more, ?_⟩
  change (half, s.finished half) :: s.raw.reads = _
  rw [finished, reads]
  rfl

theorem StatsOk.read (ok : StatsOk s) : StatsOk { s with raw := arIspStatsRawShow s } := by
  unfold arIspStatsRawShow
  cases here : s.raw.point with
  | idle => exact ok.start
  | again => exact ok.start
  | returned first last => exact ok.start
  | rroValid seq =>
      simp only
      split
      · refine ok.advance (by rw [here]; rfl) rfl s.raw.reads fun clean => ?_
        have chosen := ok.chosen clean
        unfold Chosen at chosen
        rw [here] at chosen
        exact chosen
      · exact ok.fail
  | rroDone seq =>
      refine ok.advance (by rw [here]; rfl) rfl s.raw.reads fun clean => ?_
      have chosen := ok.chosen clean
      unfold Chosen at chosen
      rw [here] at chosen
      exact ⟨fun _ => rfl, chosen⟩
  | histValid seq rro =>
      simp only
      split
      · next valid =>
          have valid := (Bool.and_eq_true_iff.mp valid).2
          refine ok.advance (by rw [here]; rfl) rfl s.raw.reads fun clean => ?_
          have chosen := ok.chosen clean
          unfold Chosen at chosen
          rw [here] at chosen
          exact ⟨valid, chosen.1 valid, chosen.2⟩
      · exact ok.fail
  | histDone seq rro =>
      refine ok.advance (by rw [here]; rfl) rfl s.raw.reads fun clean => ?_
      have chosen := ok.chosen clean
      unfold Chosen at chosen
      rw [here] at chosen
      rcases chosen with ⟨valid, rfl, unread⟩
      have directed := ok.undirected (by rw [RawExport.reading, here]) clean valid
      exact ⟨rfl, (ok.done valid).2, directed _, Nat.zero_le _, unread⟩
  | bytes seq rro hist next =>
      simp only
      split
      · next more =>
          apply ok.byte here more
          split
          · exact .inl rfl
          · exact .inr rfl
      · next all => exact ok.finish here all

theorem StatsOk.step (ok : StatsOk s) {event : StatsEvent} {next : IspStats}
    (kept : ExportKept s event) (step : statsStep s event = some next) : StatsOk next := by
  cases event with
  | flip =>
      cases step
      exact ok.flip kept
  | publish =>
      cases step
      exact ok.publish kept
  | read =>
      cases step
      exact ok.read

end Step

/-! ### Runs -/

/-- While no publish spoils an export in progress, every accepted export is coherent. -/
theorem statsRun_coherent (rro hist : Bool) (flips : UInt32) {events : List StatsEvent}
    {s : IspStats}
    (run : Run (fun s event next => ExportKept s event ∧ statsStep s event = some next)
      (.published rro hist flips) events s) : Coherent s := by
  have ok : StatsOk s := by
    refine run.invariant ?_ (IspStats.published_ok rro hist flips)
    intro state event next holds step
    exact holds.step step.1 step.2
  exact ok.coherent

/-- Reads with nothing between them export bytes of the chosen half. -/
theorem readBytes_run {s : IspStats} {seq : UInt32} {half : Half} {next : ℕ} (count : ℕ)
    (here : s.raw.point = .bytes seq half half next)
    (more : next + count ≤ arIspRroSize + arIspHistSize) :
    Run (fun s event next => ExportKept s event ∧ statsStep s event = some next) s
      (List.replicate count .read)
      { s with
        raw := { s.raw with
          point := .bytes seq half half (next + count)
          reads := List.replicate count (half, s.finished half) ++ s.raw.reads } } := by
  induction count generalizing s next with
  | zero =>
      have same : s = { s with raw := { s.raw with point := .bytes seq half half next } } := by
        rw [← here]
      nth_rewrite 1 [same]
      exact .nil _
  | succ count ih =>
      have bound : next < arIspRroSize + arIspHistSize := by omega
      have first : statsStep s .read = some { s with
          raw := { s.raw with
            point := .bytes seq half half (next + 1)
            reads := (half, s.finished half) :: s.raw.reads } } := by
        unfold statsStep arIspStatsRawShow
        rw [here]
        simp only [if_pos bound, ite_self]
      refine .cons ⟨trivial, first⟩ ?_
      have place : next + (count + 1) = next + 1 + count := by omega
      rw [List.replicate_succ', List.append_assoc, place]
      exact ih rfl (by omega)

/-- All the bytes and the last read of the count. -/
theorem readAll_run {s : IspStats} {seq : UInt32} {half : Half}
    (here : s.raw.point = .bytes seq half half 0) (unread : s.raw.reads = []) :
    Run (fun s event next => ExportKept s event ∧ statsStep s event = some next) s
      (List.replicate (arIspRroSize + arIspHistSize) .read ++ [.read])
      { s with
        raw := { s.raw with
          point := .returned seq s.statsFlips
          reads := List.replicate (arIspRroSize + arIspHistSize) (half, s.finished half) } } := by
  have size := Nat.zero_add (arIspRroSize + arIspHistSize)
  have bytes := readBytes_run _ here (Nat.le_of_eq size)
  rw [size, unread, List.append_nil] at bytes
  refine bytes.append (.cons ⟨trivial, ?_⟩ (.nil _))
  unfold statsStep arIspStatsRawShow
  simp only [if_neg (Nat.lt_irrefl _)]

/-- A whole export between two frames. -/
theorem statsRun_coherent_still : ∃ events s,
    Run (fun s event next => ExportKept s event ∧ statsStep s event = some next)
      (.published true true 0) events s ∧
    s.raw.point = .returned 2 2 ∧ Coherent s := by
  have done : (([.flip, .flip, .read, .read, .read, .read, .read] : List StatsEvent).foldlM
      (fun s event => if ExportKept s event then statsStep s event else none)
      (.published true true 0)).any
        (fun s => decide (s.raw.point = .bytes 2 .one .one 0 ∧ s.statsFlips = 2 ∧
          s.raw.reads = [])) = true := by
    decide +kernel
  rcases (Option.any_eq_true _ _).mp done with ⟨s, reached, chosen⟩
  rcases of_decide_eq_true chosen with ⟨point, flips, unread⟩
  have run := (Run.of_foldlM_guarded ExportKept statsStep reached).append
    (readAll_run point unread)
  refine ⟨_, _, run, ?_, statsRun_coherent _ _ _ run⟩
  exact congrArg (RawPoint.returned 2) flips

/-- A publish after the checks arms half 0 while the export reads it, and counts nothing. -/
theorem statsRun_incoherent : ¬ ∀ (rro hist : Bool) (flips : UInt32) (events : List StatsEvent)
    (s : IspStats),
    Run (fun s event next => statsStep s event = some next) (.published rro hist flips) events s →
      Coherent s := by
  intro coherent
  have done : (([.flip, .read, .read, .read, .read, .read, .publish] :
      List StatsEvent).foldlM statsStep (.published true true 0)).any
        (fun s => decide (s.raw.point = .bytes 1 .zero .zero 0 ∧ s.statsFlips = 1 ∧
          s.raw.directed .zero = true ∧ s.raw.reads = [])) = true := by
    decide +kernel
  rcases (Option.any_eq_true _ _).mp done with ⟨s, reached, chosen⟩
  rcases of_decide_eq_true chosen with ⟨point, flips, directed, unread⟩
  have run := (Run.of_foldlM statsStep reached).append
    ((readAll_run point unread).imp fun _ _ _ step => step.2)
  rcases coherent _ _ _ _ _ run 1 (congrArg (RawPoint.returned 1) flips) with
    ⟨half, reads, undirected⟩
  rcases (List.replicate_inj.mp reads).2.resolve_left (by decide) with same
  rw [← (Prod.mk.inj same).1] at undirected
  exact Bool.false_ne_true (undirected.symm.trans directed)

end MlKernel.Isp
