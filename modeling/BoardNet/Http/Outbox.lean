import BoardNet.Nic.Scan

namespace BoardNet.Http

/-- Largest single write to the controller. -/
def maxChunk : Nat := 2048

/-- Most bytes that wait in the buffer. -/
def outboxSize : Nat := 4096

/-- The bytes in one write: at least one, and no more than the controller takes at once. -/
def clampChunk (chunk : Nat) : Nat := min (max chunk 1) maxChunk

/-- The bytes of one response that wait to be sent. -/
structure Outbox where
  buffer : List UInt8 := []
  tail : List UInt8 := []
  /-- Bytes that the controller took. -/
  sent : Nat := 0
  /-- Bytes were lost because there was no space for them. -/
  overflowed : Bool := false
  deriving DecidableEq, Repr

namespace Outbox

/-- The waiting bytes in the order in which they leave. -/
def toList (out : Outbox) : List UInt8 := out.buffer ++ out.tail

def pending (out : Outbox) : Nat := out.buffer.length + out.tail.length

def isEmpty (out : Outbox) : Bool := out.pending = 0

/-- How many of some bytes the buffer can take. None once a tail follows it. -/
def space (out : Outbox) : Nat :=
  if out.tail = [] then outboxSize - out.buffer.length else 0

/-- Copies into the buffer what it can take. -/
def stage (out : Outbox) (data : List UInt8) : Outbox :=
  { out with buffer := out.buffer ++ data.take out.space }

/-- What the next write is taken from: the buffer, and the tail only once that is empty. -/
def front (out : Outbox) : List UInt8 := if out.buffer = [] then out.tail else out.buffer

/-- Drops bytes from the front. -/
def advance (out : Outbox) (count : Nat) : Outbox :=
  if out.buffer = [] then { out with tail := out.tail.drop count }
  else { out with buffer := out.buffer.drop count }

theorem length_toList (out : Outbox) : out.toList.length = out.pending := by
  simp [toList, pending]

theorem pending_stage (out : Outbox) (data : List UInt8) :
    (out.stage data).pending = out.pending + min data.length out.space := by
  simp only [stage, pending, List.length_append, List.length_take]
  omega

theorem length_front_le (out : Outbox) : out.front.length ≤ out.pending := by
  unfold front pending
  split <;> omega

/-- What leaves the front is no longer pending. -/
theorem pending_advance (out : Outbox) {count : Nat} (within : count ≤ out.front.length) :
    (out.advance count).pending + count = out.pending := by
  unfold front at within
  unfold advance pending
  split at within
  · next empty =>
    simp only [empty, if_true, List.length_nil, List.length_drop]
    omega
  · next some =>
    simp only [some, if_false, List.length_drop]
    omega

/-- The result of moving bytes to the controller: what waits still, and how many moved. -/
structure Pumped (before : Outbox) where
  out : Outbox
  moved : Nat
  balance : out.pending + moved = before.pending

/-- Moves bytes from the front in writes of up to `chunk`, until the controller stops taking
them. -/
def drain (out : Outbox) (socket : SocketId) (chunk : Nat) : Poll (Pumped out) := do
  let free ← Nic.txFree socket
  let piece := (out.front.take chunk).take free
  if empty : piece = [] then return ⟨out, 0, rfl⟩
  else
    let taken ← Nic.send socket piece
    have bound : taken.val ≤ out.front.length := by
      have most := taken.isLt
      have shorter : piece.length ≤ out.front.length := by
        simp only [piece, List.length_take]
        omega
      omega
    have balance := out.pending_advance bound
    if short : taken.val < piece.length then return ⟨out.advance taken, taken, balance⟩
    else
      have some : 0 < piece.length := List.length_pos_iff.mpr empty
      let rest ← (out.advance taken).drain socket chunk
      return ⟨rest.out, taken + rest.moved, by have := rest.balance; omega⟩
termination_by out.pending
decreasing_by omega

/-- Moves waiting bytes to the controller and counts those it took. -/
def pump (out : Outbox) (socket : SocketId) (chunk : Nat) : Poll (Pumped out) := do
  let drained ← out.drain socket (clampChunk chunk)
  return ⟨{ drained.out with sent := drained.out.sent + drained.moved }, drained.moved,
    drained.balance⟩

end Outbox

end BoardNet.Http
