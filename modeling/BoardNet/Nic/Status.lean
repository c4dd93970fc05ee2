namespace BoardNet

/-- The cable, as the controller sees it. -/
inductive LinkStatus where
  | unknown
  | on
  | off
  deriving DecidableEq, Repr

/-- Sockets of the largest controller supported. -/
def maxSockets : Nat := 8

abbrev SocketId := Fin maxSockets

inductive SocketStatus where
  | closed
  | init
  | listen
  | synSent
  | synRecv
  | established
  | finWait
  | closing
  | timeWait
  | closeWait
  | lastAck
  | udp
  | macRaw
  | unknown (raw : UInt8)
  deriving DecidableEq, Repr

namespace SocketStatus

def ofRegister : UInt8 → SocketStatus
  | 0x00 => .closed
  | 0x13 => .init
  | 0x14 => .listen
  | 0x15 => .synSent
  | 0x16 => .synRecv
  | 0x17 => .established
  | 0x18 => .finWait
  | 0x1A => .closing
  | 0x1B => .timeWait
  | 0x1C => .closeWait
  | 0x1D => .lastAck
  | 0x22 => .udp
  | 0x42 => .macRaw
  | raw => .unknown raw

def register : SocketStatus → UInt8
  | .closed => 0x00
  | .init => 0x13
  | .listen => 0x14
  | .synSent => 0x15
  | .synRecv => 0x16
  | .established => 0x17
  | .finWait => 0x18
  | .closing => 0x1A
  | .timeWait => 0x1B
  | .closeWait => 0x1C
  | .lastAck => 0x1D
  | .udp => 0x22
  | .macRaw => 0x42
  | .unknown raw => raw

def name : SocketStatus → String
  | .closed => "CLOSED"
  | .init => "INIT"
  | .listen => "LISTEN"
  | .synSent => "SYNSENT"
  | .synRecv => "SYNRECV"
  | .established => "ESTABLISHED"
  | .finWait => "FIN_WAIT"
  | .closing => "CLOSING"
  | .timeWait => "TIME_WAIT"
  | .closeWait => "CLOSE_WAIT"
  | .lastAck => "LAST_ACK"
  | .udp => "UDP"
  | .macRaw => "MACRAW"
  | .unknown _ => "UNKNOWN"

/-- A half-closed status, in which a socket can be stuck after its cable was pulled. -/
def isTransitional : SocketStatus → Bool
  | .finWait | .closing | .timeWait | .closeWait | .lastAck => true
  | _ => false

/-- A peer is attached and data can still flow at least one way. -/
def isConnected : SocketStatus → Bool
  | .established | .closeWait => true
  | _ => false

end SocketStatus

end BoardNet
