/-!
The transmit ring of a client: a circular buffer of bytes between a read and a write position. One
cell is always free, so that a full ring and an empty one differ. Frames are queued whole or not at
all, so whatever is taken from the front leaves no torn frame behind.
-/

namespace BoardNet.WebSocket

abbrev ringSize : Nat := 4096

/-- A circular buffer. The queued bytes begin at `head` and end before `tail`, going round. -/
structure Ring where
  cells : Vector UInt8 ringSize
  head : Fin ringSize
  tail : Fin ringSize
  deriving DecidableEq

namespace Ring

def empty : Ring := ⟨Vector.replicate ringSize 0, 0, 0⟩

def length (ring : Ring) : Nat := (ring.tail - ring.head).val

/-- How many bytes can be queued besides. -/
def free (ring : Ring) : Nat := ringSize - 1 - ring.length

def isEmpty (ring : Ring) : Bool := ring.length = 0

/-- The byte at a distance from the front. -/
def get (ring : Ring) (distance : Nat) : UInt8 :=
  ring.cells.get (ring.head + Fin.ofNat ringSize distance)

/-- The first queued bytes, at most `count` of them, which stay queued. -/
def peek (ring : Ring) (count : Nat) : List UInt8 :=
  (List.range (min count ring.length)).map ring.get

/-- All queued bytes, front first. -/
def toList (ring : Ring) : List UInt8 := ring.peek ring.length

/-- Writes one byte behind the others. -/
def put (ring : Ring) (byte : UInt8) : Ring :=
  { ring with cells := ring.cells.set ring.tail byte, tail := ring.tail + 1 }

/-- Queues the parts one after the other, or nothing if there is no space for all of them. Answers
whether they were queued. -/
def pushAll (ring : Ring) (parts : List (List UInt8)) : Bool × Ring :=
  let data := parts.flatten
  if data.length > ring.free then (false, ring) else (true, data.foldl put ring)

/-- Drops bytes from the front, as many as there are. -/
def consume (ring : Ring) (count : Nat) : Ring :=
  { ring with head := ring.head + Fin.ofNat ringSize (min count ring.length) }

def clear (ring : Ring) : Ring := { ring with head := ring.tail }

theorem length_lt (ring : Ring) : ring.length < ringSize := (ring.tail - ring.head).isLt

/-- Queued and free cells are all but the one that is always free. -/
theorem length_add_free (ring : Ring) : ring.length + ring.free = ringSize - 1 := by
  have := ring.length_lt
  unfold free
  omega

theorem length_toList (ring : Ring) : ring.toList.length = ring.length := by
  simp [toList, peek]

end Ring

end BoardNet.WebSocket
