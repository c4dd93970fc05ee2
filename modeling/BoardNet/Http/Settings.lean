import BoardNet.Clock

namespace BoardNet.Http

structure Settings where
  port : UInt16 := 80
  /-- Time for the head of a request, from the acceptance of its connection. -/
  requestTimeout : Millis := 500
  /-- Time for the body of a request, from the end of its head. -/
  bodyTimeout : Millis := 100
  closeTimeout : Millis := 50
  /-- A response of which the peer takes nothing for this long is abandoned. -/
  sendTimeout : Millis := 2000
  /-- Most bytes in one write to the controller. -/
  responseChunk : Nat := 2048
  monitorInterval : Millis := 5000
  /-- A half-closed socket may stay so this long, a silent connection twice as long. -/
  staleSocket : Millis := 10000
  deriving DecidableEq, Repr

structure Stats where
  succeeded : UInt32 := 0
  failed : UInt32 := 0
  /-- Listeners that had to be opened anew. -/
  restarts : UInt32 := 0
  /-- Sockets closed because they were stuck. -/
  reclaimed : UInt32 := 0
  deriving DecidableEq, Repr

end BoardNet.Http
