import Mathlib.Tactic.Common

/-!
# Write logs of a block with shadow registers

Some registers of a block load only when they are written while a lock is set in its control
register.  A log has the newest write first.
-/

universe u v

/-- The control register of a block, its lock, and its shadow registers. -/
structure ShadowPort (Addr : Type u) (Val : Type v) where
  ctrl : Addr
  locked : Val → Bool
  shadow : Addr → Bool
  ctrl_not_shadow : shadow ctrl = false

namespace ShadowPort

variable {Addr : Type u} {Val : Type v} [DecidableEq Addr] (port : ShadowPort Addr Val)
  (reset : Val)

/-- The control register as last written. -/
def lastCtrl : List (Addr × Val) → Val
  | [] => reset
  | (address, value) :: older => if address = port.ctrl then value else lastCtrl older

/-- Every write to a shadow register found the lock set. -/
def Held : List (Addr × Val) → Prop
  | [] => True
  | (address, _) :: older =>
      (port.shadow address = true → port.locked (port.lastCtrl reset older) = true) ∧ Held older

/-- A write to neither the control register nor a shadow register. -/
def Quiet (address : Addr) : Prop := address ≠ port.ctrl ∧ port.shadow address = false

instance (address : Addr) : Decidable (port.Quiet address) :=
  inferInstanceAs (Decidable (_ ∧ _))

variable {port reset} {log older : List (Addr × Val)} {address : Addr} {value : Val}

theorem lastCtrl_ctrl : port.lastCtrl reset ((port.ctrl, value) :: log) = value :=
  if_pos rfl

theorem lastCtrl_of_ne (other : address ≠ port.ctrl) :
    port.lastCtrl reset ((address, value) :: log) = port.lastCtrl reset log :=
  if_neg other

theorem held_ctrl : port.Held reset ((port.ctrl, value) :: log) ↔ port.Held reset log := by
  have plain := port.ctrl_not_shadow
  simp [Held, plain]

theorem held_of_not_shadow (plain : port.shadow address = false) :
    port.Held reset ((address, value) :: log) ↔ port.Held reset log := by
  simp [Held, plain]

/-- A write under the lock, to any register but the control register. -/
theorem Held.write (held : port.Held reset log)
    (locked : port.locked (port.lastCtrl reset log) = true) :
    port.Held reset ((address, value) :: log) :=
  ⟨fun _ => locked, held⟩

/-- What is written under the lock, before the control register is written again. -/
theorem Held.bracket (held : port.Held reset log) {lock unlock : Val}
    (locked : port.locked lock = true) {writes : List (Addr × Val)}
    (inside : ∀ write ∈ writes, write.1 ≠ port.ctrl) :
    port.Held reset ((port.ctrl, unlock) :: (writes ++ (port.ctrl, lock) :: log)) := by
  suffices under : port.Held reset (writes ++ (port.ctrl, lock) :: log) ∧
      port.lastCtrl reset (writes ++ (port.ctrl, lock) :: log) = lock from
    held_ctrl.mpr under.1
  induction writes with
  | nil => exact ⟨held_ctrl.mpr held, lastCtrl_ctrl⟩
  | cons write writes ih =>
      have tail := ih fun other mem => inside other (List.mem_cons_of_mem write mem)
      have last :
          port.locked (port.lastCtrl reset (writes ++ (port.ctrl, lock) :: log)) = true := by
        rw [tail.2]
        exact locked
      refine ⟨tail.1.write last, ?_⟩
      exact (lastCtrl_of_ne (inside write List.mem_cons_self)).trans tail.2

/-- A write to a shadow register has one before it that set the lock. -/
theorem Held.locked_before {newer : List (Addr × Val)}
    (held : port.Held reset (newer ++ (address, value) :: older))
    (shadow : port.shadow address = true) : port.locked (port.lastCtrl reset older) = true := by
  induction newer with
  | nil => exact held.1 shadow
  | cons write newer ih => exact ih held.2

/-- Once the lock is clear again, a write to a shadow register has one after it that cleared
the lock. -/
theorem Held.cleared_after {newer : List (Addr × Val)}
    (held : port.Held reset (newer ++ (address, value) :: older))
    (shadow : port.shadow address = true)
    (released : port.locked (port.lastCtrl reset (newer ++ (address, value) :: older)) = false) :
    ∃ word, (port.ctrl, word) ∈ newer ∧ port.locked word = false := by
  induction newer with
  | nil =>
      have other : address ≠ port.ctrl := by
        rintro rfl
        simp [port.ctrl_not_shadow] at shadow
      rw [List.nil_append, lastCtrl_of_ne other, held.1 shadow] at released
      cases released
  | cons write newer ih =>
      rcases write with ⟨written, word⟩
      by_cases ctrl : written = port.ctrl
      · subst ctrl
        rw [List.cons_append, lastCtrl_ctrl] at released
        exact ⟨word, List.mem_cons_self, released⟩
      · rw [List.cons_append, lastCtrl_of_ne ctrl] at released
        rcases ih held.2 released with ⟨cleared, mem, clear⟩
        exact ⟨cleared, List.mem_cons_of_mem _ mem, clear⟩

end ShadowPort
