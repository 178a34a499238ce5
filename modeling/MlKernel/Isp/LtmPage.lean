import MlKernel.Isp.Stats

/-!
# The LTM coefficient page

The page has two halves.  A publish copies into the half the descriptor does not name and then
points the descriptor at it; the hardware latches the descriptor when a fetch starts and reads
that half until the fetch ends.  Nothing paces the publishes, and a refill writes both halves.
-/

namespace MlKernel.Isp

def arIspLtmPageSize : ℕ := 0x4000
def arIspLtmTiles : ℕ := 64
def arIspLtmSamples : ℕ := 128

/-- What a call that writes the page does after its last byte. -/
inductive LtmCallKind
  | publish (next : Half)
  | refill
  deriving DecidableEq

/-- A call in progress, with the halves of the bytes it has yet to write. -/
structure LtmCall where
  kind : LtmCallKind
  writes : List Half

/-- The page, and the fetch that is running. -/
structure LtmPage where
  ltmPageHalf : Half
  /-- The half that `AR_ISP_LTM_PAGE_ADDR` names, if it names the owned page. -/
  descriptor : Option Half
  call : Option LtmCall
  fetching : Option Half
  /-- The publishes that have completed since the fetch latched. -/
  published : ℕ
  /-- A byte of the half being fetched has been written. -/
  clobbered : Bool

/-- `ar_isp_ltm_page_publish` up to the copy. -/
def arIspLtmPagePublish (s : LtmPage) : LtmCall where
  kind := .publish s.ltmPageHalf.other
  writes := List.replicate arIspLtmPageSize s.ltmPageHalf.other

/-- The bytes of `ar_isp_fill_ltm`: both halves zeroed, the curves of the first, the copy of it
into the second. -/
def arIspFillLtm : LtmCall where
  kind := .refill
  writes := List.replicate arIspLtmPageSize .zero ++ List.replicate arIspLtmPageSize .one ++
    List.replicate (arIspLtmTiles * arIspLtmSamples * 2) .zero ++
    List.replicate arIspLtmPageSize .one

/-- The end of a publish, and `ar_isp_stats_publish` after a refill. -/
def LtmPage.finish (s : LtmPage) : LtmCallKind → LtmPage
  | .publish next =>
      { s with
        descriptor := some next
        ltmPageHalf := next
        call := none
        published := s.published + 1 }
  | .refill => { s with descriptor := some s.ltmPageHalf, call := none }

inductive LtmEvent
  | publish
  | refill
  | statsPublish
  | write
  | finish
  | latch
  | fetchEnd

def ltmStep (s : LtmPage) : LtmEvent → Option LtmPage
  | .publish => if s.call.isNone then some { s with call := some (arIspLtmPagePublish s) } else none
  | .refill => if s.call.isNone then some { s with call := some arIspFillLtm } else none
  | .statsPublish =>
      if s.call.isNone then some { s with descriptor := some s.ltmPageHalf } else none
  | .write =>
      match s.call with
      | some ⟨kind, half :: rest⟩ =>
          some { s with
            call := some ⟨kind, rest⟩
            clobbered := s.clobbered || decide (s.fetching = some half) }
      | _ => none
  | .finish =>
      match s.call with
      | some ⟨kind, []⟩ => some (s.finish kind)
      | _ => none
  | .latch =>
      if s.fetching.isNone then some { s with fetching := s.descriptor, published := 0 } else none
  | .fetchEnd => if s.fetching.isSome then some { s with fetching := none } else none

def LtmPage.initial : LtmPage where
  ltmPageHalf := .zero
  descriptor := none
  call := none
  fetching := none
  published := 0
  clobbered := false

/-- No byte of a half has been written while it was fetched, and the half recorded is the one
last written to the descriptor. -/
structure PageSafe (s : LtmPage) : Prop where
  unclobbered : s.clobbered = false
  named : ∀ half, s.descriptor = some half → s.ltmPageHalf = half

/-- A publish writes while no other has completed since the running fetch latched, a refill while
no fetch is running. -/
def PagePaced (s : LtmPage) : LtmEvent → Prop
  | .write => ∀ call ∈ s.call,
      match call.kind with
      | .publish _ => s.fetching.isSome = true → s.published = 0
      | .refill => s.fetching.isSome = false
  | _ => True

/-! ### The invariant -/

structure PageOk (s : LtmPage) : Prop where
  unclobbered : s.clobbered = false
  named : ∀ half, s.descriptor = some half → s.ltmPageHalf = half
  /-- The first publish after the latch is into the other half. -/
  latched : ∀ half, s.fetching = some half → s.published = 0 → s.ltmPageHalf = half
  copying : ∀ next writes, s.call = some ⟨.publish next, writes⟩ →
    next = s.ltmPageHalf.other ∧ ∀ half ∈ writes, half = next

theorem LtmPage.initial_ok : PageOk .initial where
  unclobbered := rfl
  named := nofun
  latched := nofun
  copying := nofun

section Step

variable {s next : LtmPage}

theorem PageOk.publish (ok : PageOk s) :
    PageOk { s with call := some (arIspLtmPagePublish s) } where
  unclobbered := ok.unclobbered
  named := ok.named
  latched := ok.latched
  copying := by
    rintro _ _ ⟨⟩
    refine ⟨rfl, ?_⟩
    intro half mem
    exact List.eq_of_mem_replicate mem

theorem PageOk.write (ok : PageOk s) (paced : PagePaced s .write)
    (step : ltmStep s .write = some next) : PageOk next := by
  rcases here : s.call with _ | ⟨kind, _ | ⟨half, rest⟩⟩
  · simp [ltmStep, here] at step
  · simp [ltmStep, here] at step
  · have written : next = { s with
        call := some ⟨kind, rest⟩
        clobbered := s.clobbered || decide (s.fetching = some half) } := by
      simpa [ltmStep, here] using step.symm
    have allowed := paced _ here
    have elsewhere : s.fetching ≠ some half := by
      intro fetched
      cases kind with
      | refill =>
          rw [fetched] at allowed
          cases allowed
      | publish other =>
          rcases ok.copying other _ here with ⟨rfl, into⟩
          have latched := ok.latched half fetched (allowed (by rw [fetched]; rfl))
          have same := into half List.mem_cons_self
          rw [latched] at same
          exact half.other_ne same.symm
    subst written
    refine ⟨?_, ok.named, ok.latched, ?_⟩
    · simp [ok.unclobbered, elsewhere]
    · rintro other writes ⟨⟩
      rcases ok.copying _ _ here with ⟨names, into⟩
      exact ⟨names, fun half mem => into half (List.mem_cons_of_mem _ mem)⟩

theorem PageOk.finish (ok : PageOk s) (step : ltmStep s .finish = some next) : PageOk next := by
  rcases here : s.call with _ | ⟨kind, _ | ⟨half, rest⟩⟩
  · simp [ltmStep, here] at step
  · have finished : next = s.finish kind := by
      simpa [ltmStep, here] using step.symm
    subst finished
    cases kind with
    | publish other =>
        refine ⟨ok.unclobbered, ?_, fun _ _ => nofun, nofun⟩
        rintro half ⟨⟩
        rfl
    | refill =>
        refine ⟨ok.unclobbered, ?_, ok.latched, nofun⟩
        rintro half ⟨⟩
        rfl
  · simp [ltmStep, here] at step

theorem PageOk.step (ok : PageOk s) {event : LtmEvent} (paced : PagePaced s event)
    (step : ltmStep s event = some next) : PageOk next := by
  cases event with
  | publish =>
      rcases Option.ite_none_right_eq_some.mp step with ⟨_, started⟩
      cases started
      exact ok.publish
  | refill =>
      rcases Option.ite_none_right_eq_some.mp step with ⟨_, started⟩
      cases started
      exact ⟨ok.unclobbered, ok.named, ok.latched, nofun⟩
  | statsPublish =>
      rcases Option.ite_none_right_eq_some.mp step with ⟨_, named⟩
      cases named
      refine ⟨ok.unclobbered, ?_, ok.latched, ok.copying⟩
      rintro half ⟨⟩
      rfl
  | write => exact ok.write paced step
  | finish => exact ok.finish step
  | latch =>
      rcases Option.ite_none_right_eq_some.mp step with ⟨_, latched⟩
      cases latched
      exact ⟨ok.unclobbered, ok.named, fun half here _ => ok.named half here, ok.copying⟩
  | fetchEnd =>
      rcases Option.ite_none_right_eq_some.mp step with ⟨_, ended⟩
      cases ended
      exact ⟨ok.unclobbered, ok.named, nofun, ok.copying⟩

end Step

/-! ### Runs -/

/-- While publishes and refills are paced, the half being fetched is never written. -/
theorem ltmRun_pageSafe {events : List LtmEvent} {s : LtmPage}
    (run : Run (fun s event next => PagePaced s event ∧ ltmStep s event = some next)
      .initial events s) : PageSafe s := by
  have ok : PageOk s := by
    refine run.invariant ?_ LtmPage.initial_ok
    intro state event next holds step
    exact holds.step step.1 step.2
  exact ⟨ok.unclobbered, ok.named⟩

/-- The copy of a paced publish. -/
theorem copyPage_run {s : LtmPage} {next : Half} (count : ℕ)
    (here : s.call = some ⟨.publish next, List.replicate count next⟩)
    (elsewhere : s.fetching ≠ some next) (paced : s.published = 0) :
    Run (fun s event next => PagePaced s event ∧ ltmStep s event = some next) s
      (List.replicate count .write) { s with call := some ⟨.publish next, []⟩ } := by
  induction count generalizing s with
  | zero =>
      have same : s = { s with call := some ⟨.publish next, []⟩ } := by
        rw [← List.replicate_zero, ← here]
      nth_rewrite 1 [same]
      exact .nil _
  | succ count ih =>
      have allowed : PagePaced s .write := by
        intro call mem
        cases here.symm.trans mem
        exact fun _ => paced
      have written : ltmStep s .write =
          some { s with call := some ⟨.publish next, List.replicate count next⟩ } := by
        simp [ltmStep, here, List.replicate_succ, elsewhere]
      refine .cons ⟨allowed, written⟩ ?_
      exact ih (s := { s with call := some ⟨.publish next, List.replicate count next⟩ }) rfl
        elsewhere paced

/-- A whole publish, the first since the running fetch latched. -/
theorem publishPage_run {s : LtmPage} (idle : s.call = none) (fetched : s.fetching = s.ltmPageHalf)
    (paced : s.published = 0) :
    Run (fun s event next => PagePaced s event ∧ ltmStep s event = some next) s
      ([.publish] ++ (List.replicate arIspLtmPageSize .write ++ [.finish]))
      (s.finish (.publish s.ltmPageHalf.other)) := by
  have started : ltmStep s .publish = some { s with call := some (arIspLtmPagePublish s) } := by
    simp [ltmStep, idle]
  have elsewhere : s.fetching ≠ some s.ltmPageHalf.other := by
    rw [fetched]
    intro same
    exact s.ltmPageHalf.other_ne (Option.some.inj same).symm
  refine Run.append (.cons ⟨trivial, started⟩ (.nil _)) ?_
  refine Run.append (copyPage_run (s := { s with call := some (arIspLtmPagePublish s) })
    arIspLtmPageSize rfl elsewhere paced) ?_
  exact .cons ⟨trivial, rfl⟩ (.nil _)

/-- The first publish, while half 0 is fetched. -/
theorem firstPublish_run :
    Run (fun s event next => PagePaced s event ∧ ltmStep s event = some next) .initial
      ([.statsPublish, .latch] ++
        ([.publish] ++ (List.replicate arIspLtmPageSize .write ++ [.finish])))
      (LtmPage.finish
        { LtmPage.initial with descriptor := some .zero, fetching := some .zero }
        (.publish .one)) := by
  have start : Run (fun s event next => PagePaced s event ∧ ltmStep s event = some next) .initial
      [.statsPublish, .latch]
      { LtmPage.initial with descriptor := some .zero, fetching := some .zero } :=
    .cons ⟨trivial, rfl⟩ (.cons ⟨trivial, rfl⟩ (.nil _))
  exact start.append (publishPage_run
    (s := { LtmPage.initial with descriptor := some .zero, fetching := some .zero }) rfl rfl rfl)

/-- A publish while half 0 is fetched, and the end of the fetch. -/
theorem ltmRun_pageSafe_once : ∃ events s,
    Run (fun s event next => PagePaced s event ∧ ltmStep s event = some next) .initial events s ∧
    PageSafe s ∧ s.ltmPageHalf = .one :=
  ⟨_, _, firstPublish_run, ltmRun_pageSafe firstPublish_run, rfl⟩

/-- A second publish while half 0 is still fetched writes it. -/
theorem ltmRun_clobbered : ¬ ∀ (events : List LtmEvent) (s : LtmPage),
    Run (fun s event next => ltmStep s event = some next) .initial events s → PageSafe s := by
  intro safe
  have first := firstPublish_run.imp fun _ _ _ step => step.2
  have second := first.append (.cons rfl (.cons rfl (.nil _)) : Run _ _ [.publish, .write] _)
  exact Bool.noConfusion (safe _ _ second).unclobbered

end MlKernel.Isp
