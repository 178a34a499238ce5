import MlKernel.Lib.Run

/-!
# Overlapping calls that republish

A call is a list of passes over a shared state.  Calls overlap in any order of their passes, and
interrupts come between any two of them.  An item of the state holds or not, and a pass may publish
an item, which then holds, or spare it.  As long as every call that disturbs an item publishes it
again and spares it from then on, the item holds once no call is left that is still to publish it.
-/

universe u v w x

/-- A state with passes and interrupts over it, and what they do to its items. -/
structure Republish (State : Type u) (Pass : Type v) (Signal : Type w) (Item : Type x) where
  exec : Pass → State → State
  interrupt : Signal → State → State
  Holds : Item → State → Prop
  publishes : Pass → Item → Bool
  spares : Pass → Item → Bool
  holds_published : ∀ {pass item} state, publishes pass item = true → Holds item (exec pass state)
  holds_spared : ∀ {pass item state}, spares pass item = true → Holds item state →
    Holds item (exec pass state)
  holds_interrupted : ∀ {item state} signal, Holds item state → Holds item (interrupt signal state)

namespace Republish

variable {State : Type u} {Pass : Type v} {Signal : Type w} {Item : Type x}

/-- A call starts, a call in progress does its next pass, or an interrupt comes. -/
inductive Event (Pass : Type v) (Signal : Type w)
  | call (program : List Pass)
  | pass (caller : Nat)
  | interrupt (signal : Signal)

/-- The state, with what is left of the calls that have started. -/
def step (system : Republish State Pass Signal Item) (s : State × List (List Pass)) :
    Event Pass Signal → Option (State × List (List Pass))
  | .call program => some (s.1, s.2 ++ [program])
  | .pass caller =>
      match s.2[caller]? with
      | some (pass :: rest) => some (system.exec pass s.1, s.2.set caller rest)
      | _ => none
  | .interrupt signal => some (system.interrupt signal s.1, s.2)

def sparesAll (system : Republish State Pass Signal Item) (program : List Pass) (item : Item) :
    Bool :=
  program.all fun pass => system.spares pass item

/-- The item is published, and spared from then on. -/
def restores (system : Republish State Pass Signal Item) : List Pass → Item → Bool
  | [], _ => false
  | pass :: rest, item =>
      system.restores rest item || (system.publishes pass item && system.sparesAll rest item)

/-- The call brings the item back, or leaves it alone. -/
def Minds (system : Republish State Pass Signal Item) (program : List Pass) (item : Item) : Prop :=
  system.restores program item = true ∨ system.sparesAll program item = true

/-- Every call in progress minds the item, which holds unless one of them is to restore it. -/
structure Sound (system : Republish State Pass Signal Item) (item : Item)
    (s : State × List (List Pass)) : Prop where
  minds : ∀ program ∈ s.2, system.Minds program item
  holds : system.Holds item s.1 ∨ ∃ program ∈ s.2, system.restores program item = true

variable {system : Republish State Pass Signal Item} {program later : List Pass} {item : Item}

@[simp]
theorem sparesAll_nil : system.sparesAll [] item = true := rfl

@[simp]
theorem sparesAll_cons {pass : Pass} : system.sparesAll (pass :: program) item =
    (system.spares pass item && system.sparesAll program item) := rfl

@[simp]
theorem restores_nil : system.restores [] item = false := rfl

@[simp]
theorem restores_cons {pass : Pass} : system.restores (pass :: program) item =
    (system.restores program item || system.publishes pass item &&
      system.sparesAll program item) := rfl

theorem sparesAll_append : system.sparesAll (program ++ later) item =
    (system.sparesAll program item && system.sparesAll later item) :=
  List.all_append

theorem restores_append (last : system.restores later item = true) :
    system.restores (program ++ later) item = true := by
  induction program with
  | nil => exact last
  | cons pass program ih => simp [ih]

theorem restores_append_spares (first : system.restores program item = true)
    (spared : system.sparesAll later item = true) :
    system.restores (program ++ later) item = true := by
  induction program with
  | nil => cases first
  | cons pass program ih =>
      simp only [restores, Bool.or_eq_true, Bool.and_eq_true, List.cons_append] at first ⊢
      rcases first with inRest | ⟨publishes, rest⟩
      · exact .inl (ih inRest)
      · refine .inr ⟨publishes, ?_⟩
        simp [sparesAll_append, rest, spared]

theorem restores_append_minds (first : system.restores program item = true)
    (second : system.Minds later item) : system.restores (program ++ later) item = true := by
  rcases second with restored | spared
  · exact restores_append restored
  · exact restores_append_spares first spared

theorem Minds.append (first : system.Minds program item) (second : system.Minds later item) :
    system.Minds (program ++ later) item := by
  rcases first with restored | sparedFirst
  · exact .inl (restores_append_minds restored second)
  · refine second.imp restores_append ?_
    intro spared
    simp [sparesAll_append, sparedFirst, spared]

/-- A piece of a call that restores some items and spares the others. -/
structure Publishes (system : Republish State Pass Signal Item) (program : List Pass)
    (items : Item → Prop) : Prop where
  restores : ∀ item, items item → system.restores program item = true
  spares : ∀ item, ¬items item → system.sparesAll program item = true

theorem Publishes.minds {items : Item → Prop} (publishes : system.Publishes program items)
    (item : Item) : system.Minds program item := by
  by_cases inside : items item
  · exact .inl (publishes.restores item inside)
  · exact .inr (publishes.spares item inside)

theorem Publishes.congr {items items' : Item → Prop} (publishes : system.Publishes program items)
    (same : ∀ item, items' item ↔ items item) : system.Publishes program items' where
  restores item inside := publishes.restores item ((same item).mp inside)
  spares item outside := publishes.spares item fun inside => outside ((same item).mpr inside)

theorem Publishes.append {items items' : Item → Prop} (first : system.Publishes program items)
    (second : system.Publishes later items') :
    system.Publishes (program ++ later) fun item => items item ∨ items' item where
  restores item inside := by
    by_cases inLater : items' item
    · exact restores_append (second.restores item inLater)
    · exact restores_append_spares (first.restores item (inside.resolve_right inLater))
        (second.spares item inLater)
  spares item outside := by
    have inFirst := first.spares item fun inside => outside (.inl inside)
    have inLater := second.spares item fun inside => outside (.inr inside)
    simp [sparesAll_append, inFirst, inLater]

/-- A piece that disturbs only what a later piece restores. -/
theorem Publishes.after {items : Item → Prop} (second : system.Publishes later items)
    (first : ∀ item, ¬items item → system.sparesAll program item = true) :
    system.Publishes (program ++ later) items where
  restores item inside := restores_append (second.restores item inside)
  spares item outside := by simp [sparesAll_append, first item outside, second.spares item outside]

theorem Publishes.before {items : Item → Prop} (first : system.Publishes program items)
    (second : ∀ item, system.sparesAll later item = true) :
    system.Publishes (program ++ later) items where
  restores item inside := restores_append_spares (first.restores item inside) (second item)
  spares item outside := by simp [sparesAll_append, first.spares item outside, second item]

/-- The rest of a call after its next pass. -/
theorem Minds.tail {pass : Pass} {rest : List Pass} (minds : system.Minds (pass :: rest) item) :
    system.Minds rest item := by
  rcases minds with restored | spared
  · simp only [restores, Bool.or_eq_true, Bool.and_eq_true] at restored
    exact restored.imp_right And.right
  · simp only [sparesAll, List.all_cons, Bool.and_eq_true] at spared
    exact .inr spared.2

/-- So it is after any of its passes. -/
theorem Minds.of_append (minds : system.Minds (program ++ later) item) :
    system.Minds later item := by
  induction program with
  | nil => exact minds
  | cons pass program ih => exact ih minds.tail

/-- After the next pass of a call that minds the item: it holds, or the rest restores it, or it is
as before. -/
theorem exec_holds {pass : Pass} {rest : List Pass} (state : State)
    (minds : system.Minds (pass :: rest) item) :
    system.Holds item (system.exec pass state) ∨ system.restores rest item = true ∨
      system.restores (pass :: rest) item = false ∧ system.spares pass item = true := by
  by_cases inRest : system.restores rest item = true
  · exact .inr (.inl inRest)
  rcases minds with restored | spared
  · simp only [restores, Bool.or_eq_true, Bool.and_eq_true] at restored
    rcases restored with later | ⟨published, -⟩
    · exact absurd later inRest
    · exact .inl (system.holds_published state published)
  · simp only [sparesAll, List.all_cons, Bool.and_eq_true] at spared
    by_cases published : system.publishes pass item = true
    · exact .inl (system.holds_published state published)
    · exact .inr (.inr ⟨by simp [restores, inRest, published], spared.1⟩)

theorem Sound.pass {s after : State × List (List Pass)} {caller : Nat} (sound : system.Sound item s)
    (done : system.step s (.pass caller) = some after) : system.Sound item after := by
  simp only [Republish.step] at done
  split at done
  · next pass rest here =>
      cases done
      have member : pass :: rest ∈ s.2 := List.mem_of_getElem? here
      have inside : caller < s.2.length := (List.getElem?_eq_some_iff.mp here).1
      have restLater : rest ∈ s.2.set caller rest := List.mem_set inside rest
      constructor
      · intro program memberLater
        rcases List.mem_or_eq_of_mem_set memberLater with before | rfl
        · exact sound.minds program before
        · exact (sound.minds _ member).tail
      · rcases exec_holds s.1 (sound.minds _ member) with
          holds | restored | ⟨notHere, spared⟩
        · exact .inl holds
        · exact .inr ⟨rest, restLater, restored⟩
        · rcases sound.holds with holds | ⟨program, memberProgram, restored⟩
          · exact .inl (system.holds_spared spared holds)
          · refine .inr ⟨program, ?_, restored⟩
            rcases List.getElem?_of_mem memberProgram with ⟨other, there⟩
            have apart : caller ≠ other := by
              rintro rfl
              cases Option.some.inj (here.symm.trans there)
              rw [notHere] at restored
              cases restored
            apply List.mem_of_getElem?
            rw [List.getElem?_set_ne apart]
            exact there
  · cases done

theorem Sound.step {s after : State × List (List Pass)} {event : Event Pass Signal}
    (sound : system.Sound item s)
    (minds : ∀ program, event = .call program → system.Minds program item)
    (done : system.step s event = some after) : system.Sound item after := by
  cases event with
  | call program =>
      cases done
      constructor
      · intro other member
        rcases List.mem_append.mp member with before | last
        · exact sound.minds other before
        · cases List.mem_singleton.mp last
          exact minds program rfl
      · refine sound.holds.imp_right ?_
        rintro ⟨other, member, restored⟩
        exact ⟨other, List.mem_append_left _ member, restored⟩
  | pass caller => exact sound.pass done
  | interrupt signal =>
      cases done
      exact ⟨sound.minds, sound.holds.imp_left (system.holds_interrupted signal)⟩

/-- Once a call that restores the item is in progress, the item holds whenever no call in progress
is still to restore it, over all runs of calls that mind it. -/
theorem holds_of_run {start s : State × List (List Pass)} {events : List (Event Pass Signal)}
    (run : Run (fun s event after => system.step s event = some after) start events s)
    (inProgress : ∀ program ∈ start.2, system.Minds program item)
    (restored : ∃ program ∈ start.2, system.restores program item = true)
    (minds : ∀ later, .call later ∈ events → system.Minds later item)
    (settled : ∀ rest ∈ s.2, system.restores rest item = false) : system.Holds item s.1 := by
  have initially : system.Sound item start := ⟨inProgress, .inr restored⟩
  have sound : system.Sound item s :=
    run.invariant_of_events
      (fun _ _ _ sound member done =>
        sound.step (fun later same => minds later (same ▸ member)) done)
      (fun _ member => member) initially
  rcases sound.holds with holds | ⟨rest, member, toRestore⟩
  · exact holds
  · rw [settled rest member] at toRestore
    cases toRestore

end Republish
