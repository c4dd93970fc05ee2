/-!
Time in the poll loop: a free-running counter of milliseconds that every step is given. It returns
to zero after 2^32 milliseconds, so times are only ever compared through the span between them.
-/

namespace BoardNet

/-- A reading of the free-running millisecond counter, or a span between two readings. -/
abbrev Millis := UInt32

/-- Milliseconds from `since` to `now`; the subtraction wraps, so a wrapped counter does not
matter. -/
def elapsed (now since : Millis) : Millis := now - since

/-- A restartable record of the moment something began. -/
structure Stopwatch where
  started : Millis := 0
  deriving DecidableEq, Repr, Inhabited

namespace Stopwatch

def elapsed (watch : Stopwatch) (now : Millis) : Millis := BoardNet.elapsed now watch.started

/-- More than `limit` milliseconds have passed since the last restart. -/
def expired (watch : Stopwatch) (now limit : Millis) : Bool := decide (limit < watch.elapsed now)

end Stopwatch

end BoardNet
