import BoardNet.Nic.Chip
import BoardNet.Pin

/-!
The bus that the controller shares with the configuration memory and the expansion port. Each has a
chip select, active low. An arbiter drives the three lines so that no two are low together, and a
controller behind it is selected for the length of each call and released after it.
-/

namespace BoardNet.Bus

inductive Device where
  | nic
  | flash
  | expansion
  deriving DecidableEq, Repr

namespace Device

/-- Every device, in the order in which their lines are driven. -/
def all : List Device := [.nic, .flash, .expansion]

end Device

/-- The chip selects and which device is selected. The controller is always present, the other two
need not be. -/
structure Arbiter where
  nic : Pin
  flash : Option Pin
  expansion : Option Pin
  selected : Option Device := none
  deriving DecidableEq, Repr

structure Write where
  device : Device
  high : Bool
  deriving DecidableEq, Repr

namespace Arbiter

/-- The chip select of a device, if the device is present. -/
def line (arbiter : Arbiter) : Device → Option Pin
  | .nic => some arbiter.nic
  | .flash => arbiter.flash
  | .expansion => arbiter.expansion

/-- Drives one line; the line of an absent device goes nowhere. -/
def drive (arbiter : Arbiter) (write : Write) : Arbiter :=
  match write.device with
  | .nic => { arbiter with nic := arbiter.nic.drive write.high }
  | .flash => { arbiter with flash := arbiter.flash.map (·.drive write.high) }
  | .expansion => { arbiter with expansion := arbiter.expansion.map (·.drive write.high) }

/-- The writes that select a device, or none: every other line goes high before that device's goes
low. -/
def selection (device : Option Device) : List Write :=
  (Device.all.filter fun other => some other ≠ device).map (⟨·, true⟩) ++
    device.toList.map (⟨·, false⟩)

def select (arbiter : Arbiter) (device : Option Device) : Arbiter :=
  { (selection device).foldl drive arbiter with selected := device }

def release (arbiter : Arbiter) : Arbiter := arbiter.select none

/-- An arbiter takes over lines by releasing them. -/
def take (nic : Pin) (flash expansion : Option Pin) : Arbiter where
  nic := nic.raise
  flash := flash.map Pin.raise
  expansion := expansion.map Pin.raise

/-- Does something with `device` selected and releases the bus afterwards. What is done sees the
lines as they are meanwhile. -/
def transaction {α : Type} (arbiter : Arbiter) (device : Option Device) (act : Arbiter → α) :
    α × Arbiter :=
  let selected := arbiter.select device
  (act selected, selected.release)

end Arbiter

/-- A controller behind an arbiter: each call is a transaction, save the one that needs none. -/
def arbitrated {σ : Type} (chip : Chip σ) : Chip (Arbiter × σ) where
  answer := fun call (arbiter, state) =>
    match call with
    | .socketCount =>
      let (answer, after) := chip.answer .socketCount state
      (answer, arbiter, after)
    | call =>
      let ((answer, after), released) :=
        arbiter.transaction (some .nic) fun _ => chip.answer call state
      (answer, released, after)

end BoardNet.Bus
