import BoardNet.Nic.Chip

namespace BoardNet.Sim

def receiveCapacity : Nat := 2048

/-- Most bytes that a simulated socket remembers having sent. -/
def sentCapacity : Nat := 8192

/-- Free space in a transmit buffer of which everything was acknowledged. -/
def transmitCapacity : Nat := 2048

structure Socket where
  status : SocketStatus := .closed
  port : UInt16 := 0
  remote : Ipv4 := .unspecified
  /-- Free space in the transmit buffer. -/
  txFree : Nat := transmitCapacity
  closes : UInt32 := 0
  disconnects : UInt32 := 0
  /-- Bytes that have arrived and were not read. -/
  unread : List UInt8 := []
  /-- Bytes that were read but still take up space before the unread ones. -/
  consumed : Nat := 0
  /-- Bytes that the firmware sent. -/
  sent : List UInt8 := []
  deriving DecidableEq, Repr, Inhabited

namespace Socket

def clearReceived (socket : Socket) : Socket := { socket with unread := [], consumed := 0 }

/-- Ends whatever the socket was used for. -/
def shut (socket : Socket) : Socket :=
  { socket.clearReceived with status := .closed, port := 0 }

/-- Adds bytes to the receive buffer, or none if they do not all fit. Space before the unread bytes
is given back only when all of them were read. -/
def arrive (socket : Socket) (data : List UInt8) : Socket :=
  let room := if socket.unread = [] then socket.clearReceived else socket
  if room.consumed + room.unread.length + data.length ≤ receiveCapacity then
    { room with unread := room.unread ++ data }
  else room

/-- Nothing was ever done with the socket. -/
def isPristine (socket : Socket) : Bool :=
  socket = { ({} : Socket) with consumed := socket.consumed }

end Socket

structure Controller where
  link : LinkStatus := .on
  probeOk : Bool := true
  /-- Polls before a soft reset is finished; the largest value never finishes. -/
  resetDelay : UInt32 := 1
  softResets : UInt32 := 0
  /-- The lease that is handed out, if any. -/
  dhcp : Option Lease := some ⟨⟨10, 0, 0, 42⟩, ⟨255, 255, 255, 0⟩, ⟨10, 0, 0, 1⟩, ⟨10, 0, 0, 1⟩⟩
  dhcpAttempts : UInt32 := 0
  /-- What looking after the lease finds, once. -/
  upkeep : LeaseUpkeep := .nothing
  staticAccepted : Bool := true
  /-- A disconnected socket closes at once instead of waiting for its peer. -/
  gracefulClose : Bool := true
  listenFails : Bool := false
  /-- Sent bytes take up space in the transmit buffer until they are acknowledged. -/
  holdTx : Bool := false
  resetPending : UInt32 := 0
  ip : Ipv4 := .unspecified
  sockets : Vector Socket maxSockets := Vector.replicate maxSockets {}
  deriving DecidableEq, Repr

namespace Controller

def socket (nic : Controller) (id : SocketId) : Socket := nic.sockets.get id

def modify (nic : Controller) (id : SocketId) (change : Socket → Socket) : Controller :=
  { nic with sockets := nic.sockets.set id.val (change (nic.socket id)) id.isLt }

def firstSocket? (nic : Controller) (test : Socket → Bool) : Option SocketId :=
  (List.finRange maxSockets).find? fun id => test (nic.socket id)

/-- A peer connects to the listener on a port and sends some bytes. -/
def connect (nic : Controller) (port : UInt16) (remote : Ipv4) (data : List UInt8) :
    Option SocketId × Controller :=
  match nic.firstSocket? fun socket => socket.status = .listen && socket.port = port with
  | none => (none, nic)
  | some id =>
    let opened (socket : Socket) : Socket :=
      { socket.clearReceived with status := .established, remote, sent := [] }
    (some id, nic.modify id fun socket => (opened socket).arrive data)

def arrive (nic : Controller) (id : SocketId) (data : List UInt8) : Controller :=
  nic.modify id (·.arrive data)

def takeSent (nic : Controller) (id : SocketId) : List UInt8 × Controller :=
  ((nic.socket id).sent, nic.modify id ({ · with sent := [] }))

/-- The peer acknowledges everything. -/
def acknowledge (nic : Controller) (id : SocketId) : Controller :=
  nic.modify id ({ · with txFree := transmitCapacity })

/-- The controller changes what a socket is used for. -/
def setStatus (nic : Controller) (id : SocketId) (status : SocketStatus) (port : UInt16) :
    Controller :=
  nic.modify id ({ · with status, port })

/-- Starts a soft reset, which ends every connection. -/
def beginSoftReset (nic : Controller) : Controller :=
  { nic with
    softResets := nic.softResets + 1
    resetPending := nic.resetDelay
    ip := .unspecified
    sockets := nic.sockets.map Socket.shut }

def pollSoftReset (nic : Controller) : ResetProgress × Controller :=
  if nic.resetPending = 0 then (.finished, nic)
  else if nic.resetPending = 0xFFFFFFFF then (.pending, nic)
  else (.pending, { nic with resetPending := nic.resetPending - 1 })

def requestLease (nic : Controller) : Except NicError Lease × Controller :=
  let nic := { nic with dhcpAttempts := nic.dhcpAttempts + 1 }
  match nic.dhcp with
  | some lease => (.ok lease, { nic with ip := lease.ip })
  | none => (.error .dhcp, nic)

def maintainLease (nic : Controller) : LeaseUpkeep × Controller :=
  let ip := match nic.upkeep with
    | .renewed lease | .rebound lease => lease.ip
    | _ => nic.ip
  (nic.upkeep, { nic with upkeep := .nothing, ip })

/-- Opens the first closed socket as a listener. -/
def listen (nic : Controller) (port : UInt16) : Except NicError SocketId × Controller :=
  if nic.listenFails then (.error .noFreeSocket, nic)
  else match nic.firstSocket? (·.status = .closed) with
    | none => (.error .noFreeSocket, nic)
    | some id => (.ok id, nic.modify id ({ · with status := .listen, port, sent := [] }))

def recv (nic : Controller) (id : SocketId) (limit : Nat) :
    { data : List UInt8 // data.length ≤ limit } × Controller :=
  let unread := (nic.socket id).unread
  (⟨unread.take limit, List.length_take_le _ _⟩,
    nic.modify id fun socket =>
      { socket with
        unread := unread.drop limit
        consumed := socket.consumed + min limit unread.length })

/-- How many of some bytes a socket can take. -/
def sendable (nic : Controller) (id : SocketId) (data : List UInt8) : Nat :=
  let socket := nic.socket id
  if socket.status.isConnected then
    min (min data.length socket.txFree) (sentCapacity - socket.sent.length)
  else 0

def send (nic : Controller) (id : SocketId) (data : List UInt8) :
    Fin (data.length + 1) × Controller :=
  let count := nic.sendable id data
  (⟨count, by simp only [count, sendable]; split <;> omega⟩,
    nic.modify id fun socket =>
      { socket with
        sent := socket.sent ++ data.take count
        txFree := if nic.holdTx then socket.txFree - count else socket.txFree })

/-- Starts a graceful close. -/
def disconnect (nic : Controller) (id : SocketId) : Controller :=
  nic.modify id fun socket =>
    let counted := { socket with disconnects := socket.disconnects + 1 }
    if nic.gracefulClose then counted.shut else { counted with status := .finWait }

/-- Closes at once. -/
def close (nic : Controller) (id : SocketId) : Controller :=
  nic.modify id fun socket => { socket with closes := socket.closes + 1 }.shut

def answer : (call : Nic.Call) → Controller → call.Answer × Controller
  | .probe, nic => (if nic.probeOk then .ok () else .error .bus, nic)
  | .linkStatus, nic => (nic.link, nic)
  | .beginSoftReset, nic => ((), nic.beginSoftReset)
  | .pollSoftReset, nic => nic.pollSoftReset
  | .dhcpLease _ _, nic => nic.requestLease
  | .maintainLease, nic => nic.maintainLease
  | .configureStatic _ addressing, nic =>
    ((), { nic with ip := if nic.staticAccepted then addressing.ip else .unspecified })
  | .localIp, nic => (nic.ip, nic)
  | .socketCount, nic => (maxSockets, nic)
  | .socketStatus id, nic => ((nic.socket id).status, nic)
  | .socketPort id, nic => ((nic.socket id).port, nic)
  | .remoteIp id, nic => ((nic.socket id).remote, nic)
  | .rxAvailable id, nic => ((nic.socket id).unread.length, nic)
  | .txFree id, nic => ((nic.socket id).txFree, nic)
  | .recv id limit, nic => nic.recv id limit
  | .send id data, nic => nic.send id data
  | .listen port, nic => nic.listen port
  | .disconnect id, nic => ((), nic.disconnect id)
  | .close id, nic => ((), nic.close id)

def chip : Chip Controller := ⟨answer⟩

end Controller

end BoardNet.Sim
