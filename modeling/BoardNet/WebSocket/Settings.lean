import BoardNet.Clock

namespace BoardNet.WebSocket

structure Settings where
  port : UInt16 := 81
  pingInterval : Millis := 10000
  /-- A client that sends nothing for this long is given up. -/
  idleTimeout : Millis := 30000
  handshakeTimeout : Millis := 5000
  /-- A client that takes nothing for this long is given up. -/
  stallTimeout : Millis := 2000
  /-- Most bytes in one write to the controller. -/
  chunk : Nat := 1024
  /-- Most writes for one client in an update. -/
  chunksPerPoll : UInt8 := 4
  deriving DecidableEq, Repr

structure Stats where
  accepted : UInt32 := 0
  rejected : UInt32 := 0
  handshakeFailures : UInt32 := 0
  forceClosed : UInt32 := 0
  messages : UInt32 := 0
  deriving DecidableEq, Repr

end BoardNet.WebSocket
