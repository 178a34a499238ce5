import Mathlib.Logic.Function.Basic

/-!
# Ports that are strobed

Behind a port of a data bus, a select, a strobe and a clear lies a bank of registers.  With the
select high, the falling strobe takes the data as an address; with the select low, the rising strobe
stores the data there.  The clear puts the bank back to its defaults.
-/

universe u

namespace StrobedPort

structure Pins (Word : Type u) where
  clear : Bool
  strobe : Bool
  select : Bool
  data : Word

/-- What lies behind the pins. -/
structure Latch (Word : Type u) where
  address : Word
  bank : Word → Word

structure Port (Word : Type u) where
  pins : Pins Word
  latch : Latch Word

variable {Word : Type u} [DecidableEq Word]

/-- What a change of the pins does. -/
def Latch.drive (latch cleared : Latch Word) (before after : Pins Word) : Latch Word :=
  if after.clear then cleared
  else if before.strobe = false ∧ after.strobe = true ∧ after.select = false then
    { latch with bank := Function.update latch.bank latch.address after.data }
  else if before.strobe = true ∧ after.strobe = false ∧ after.select = true then
    { latch with address := after.data }
  else latch

namespace Port

def drive (cleared : Latch Word) (port : Port Word) (pins : Pins Word) : Port Word :=
  ⟨pins, port.latch.drive cleared port.pins pins⟩

def setData (cleared : Latch Word) (port : Port Word) (select : Bool) (data : Word) : Port Word :=
  port.drive cleared { port.pins with select, data }

def setSelect (cleared : Latch Word) (port : Port Word) (select : Bool) : Port Word :=
  port.drive cleared { port.pins with select }

def setStrobe (cleared : Latch Word) (port : Port Word) (strobe : Bool) : Port Word :=
  port.drive cleared { port.pins with strobe }

def setClear (cleared : Latch Word) (port : Port Word) (clear : Bool) : Port Word :=
  port.drive cleared { port.pins with clear }

/-- The strobe and the clear are low. -/
def Idle (port : Port Word) : Prop := port.pins.clear = false ∧ port.pins.strobe = false

/-- An address is clocked in. -/
def addressCycle (cleared : Latch Word) (port : Port Word) (address : Word) : Port Word :=
  let port := port.setData cleared false address
  let port := port.setSelect cleared true
  let port := port.setStrobe cleared true
  port.setStrobe cleared false

/-- A word is stored at an address. -/
def writeCycle (cleared : Latch Word) (port : Port Word) (address word : Word) : Port Word :=
  let port := port.addressCycle cleared address
  let port := port.setSelect cleared false
  let port := port.setData cleared false word
  let port := port.setStrobe cleared true
  port.setStrobe cleared false

section Cycles

variable {cleared : Latch Word} {port : Port Word}

theorem drive_same (idle : port.Idle) : port.drive cleared port.pins = port := by
  rcases port with ⟨⟨clear, strobe, select, data⟩, latch⟩
  rcases idle with ⟨isClear, isLow⟩
  dsimp only at isClear isLow
  subst isClear isLow
  simp [drive, Latch.drive]

theorem addressCycle_eq (idle : port.Idle) (address : Word) :
    port.addressCycle cleared address =
      ⟨⟨false, false, true, address⟩, { port.latch with address }⟩ := by
  rcases port with ⟨⟨clear, strobe, select, data⟩, latch⟩
  rcases idle with ⟨isClear, isLow⟩
  dsimp only at isClear isLow
  subst isClear isLow
  simp [addressCycle, setData, setSelect, setStrobe, drive, Latch.drive]

theorem writeCycle_eq (idle : port.Idle) (address word : Word) :
    port.writeCycle cleared address word =
      ⟨⟨false, false, false, word⟩, ⟨address, Function.update port.latch.bank address word⟩⟩ := by
  rw [writeCycle, addressCycle_eq idle]
  simp [setData, setSelect, setStrobe, drive, Latch.drive]

/-- Stores one after the other. -/
theorem foldl_writeCycle (idle : port.Idle) (writes : List (Word × Word)) :
    (writes.foldl (fun port write => port.writeCycle cleared write.1 write.2) port).Idle ∧
      (writes.foldl (fun port write => port.writeCycle cleared write.1 write.2) port).latch.bank =
        writes.foldl (fun bank write => Function.update bank write.1 write.2) port.latch.bank := by
  induction writes generalizing port with
  | nil => exact ⟨idle, rfl⟩
  | cons write writes ih =>
      have written := @writeCycle_eq _ _ cleared _ idle write.1 write.2
      have idleAfter : (port.writeCycle cleared write.1 write.2).Idle := by
        rw [written]
        exact ⟨rfl, rfl⟩
      rcases ih idleAfter with ⟨finallyIdle, bank⟩
      refine ⟨finallyIdle, ?_⟩
      rw [List.foldl_cons, bank, written]
      rfl

end Cycles

end Port

end StrobedPort
