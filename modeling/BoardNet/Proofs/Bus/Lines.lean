import BoardNet.Bus

namespace BoardNet

namespace Bus

namespace Arbiter

/-- The chip select of a device is low. The line of an absent device is not. -/
def IsLow (arbiter : Arbiter) (device : Device) : Prop :=
  ∃ pin, arbiter.line device = some pin ∧ pin.high = false

def Exclusive (arbiter : Arbiter) : Prop :=
  ∀ device other, arbiter.IsLow device → arbiter.IsLow other → device = other

variable {arbiter : Arbiter} {device other : Device} {high : Bool} {writes later : List Write}

/-- At no moment in some writes are two chip selects low. -/
def Guarded (arbiter : Arbiter) (writes : List Write) : Prop :=
  ∀ done rest, writes = done ++ rest → (done.foldl drive arbiter).Exclusive

theorem Guarded.append (first : arbiter.Guarded writes)
    (second : (writes.foldl drive arbiter).Guarded later) : arbiter.Guarded (writes ++ later) := by
  intro done rest split
  rcases List.append_eq_append_iff.mp split with ⟨further, rfl, rfl⟩ | ⟨further, rfl, -⟩
  · rw [List.foldl_append]
    exact second further rest rfl
  · exact first done further rfl

end Arbiter

inductive Use where
  | select (device : Option Device)
  | release
  | transaction (device : Option Device)
  deriving DecidableEq, Repr

/-- The writes to the lines in it, in order. -/
def Use.writes : Use → List Write
  | .select device => Arbiter.selection device
  | .release => Arbiter.selection none
  | .transaction device => Arbiter.selection device ++ Arbiter.selection none

namespace Arbiter

def use (arbiter : Arbiter) : Use → Arbiter
  | .select device => arbiter.select device
  | .release => arbiter.release
  | .transaction device => (arbiter.transaction device fun _ => ()).2

variable {arbiter : Arbiter}

end Arbiter

end Bus

end BoardNet
