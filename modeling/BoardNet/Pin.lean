namespace BoardNet

/-- An output line: its level, and how many times it went from high to low. -/
structure Pin where
  high : Bool := false
  falls : UInt32 := 0
  deriving DecidableEq, Repr, Inhabited

namespace Pin

def raise (pin : Pin) : Pin := { pin with high := true }

/-- Drives the line low; this is a fall only if it was high. -/
def lower (pin : Pin) : Pin :=
  { high := false, falls := if pin.high then pin.falls + 1 else pin.falls }

def drive (pin : Pin) (high : Bool) : Pin := if high then pin.raise else pin.lower

end Pin

end BoardNet
