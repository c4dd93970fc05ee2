import BoardNet.Poll

namespace BoardNet.Nic

def probe : Poll (Except NicError Unit) := Poll.nic .probe

def linkStatus : Poll LinkStatus := Poll.nic .linkStatus

def beginSoftReset : Poll Unit := Poll.nic .beginSoftReset

def pollSoftReset : Poll ResetProgress := Poll.nic .pollSoftReset

def dhcpLease (mac : Mac) (timeout : Millis) : Poll (Except NicError Lease) :=
  Poll.nic (.dhcpLease mac timeout)

def maintainLease : Poll LeaseUpkeep := Poll.nic .maintainLease

def configureStatic (mac : Mac) (addressing : Addressing) : Poll Unit :=
  Poll.nic (.configureStatic mac addressing)

def localIp : Poll Ipv4 := Poll.nic .localIp

def socketCount : Poll Nat := Poll.nic .socketCount

def socketStatus (socket : SocketId) : Poll SocketStatus := Poll.nic (.socketStatus socket)

def socketPort (socket : SocketId) : Poll UInt16 := Poll.nic (.socketPort socket)

def remoteIp (socket : SocketId) : Poll Ipv4 := Poll.nic (.remoteIp socket)

def rxAvailable (socket : SocketId) : Poll Nat := Poll.nic (.rxAvailable socket)

def txFree (socket : SocketId) : Poll Nat := Poll.nic (.txFree socket)

def recv (socket : SocketId) (limit : Nat) : Poll { data : List UInt8 // data.length ≤ limit } :=
  Poll.nic (.recv socket limit)

def send (socket : SocketId) (data : List UInt8) : Poll (Fin (data.length + 1)) :=
  Poll.nic (.send socket data)

def listen (port : UInt16) : Poll (Except NicError SocketId) := Poll.nic (.listen port)

def disconnect (socket : SocketId) : Poll Unit := Poll.nic (.disconnect socket)

def close (socket : SocketId) : Poll Unit := Poll.nic (.close socket)

/-- The sockets of a controller that reports `count` of them, in order. -/
def sockets (count : Nat) : List SocketId := (List.finRange maxSockets).take count

/-- The first of some sockets that passes a test, which may itself make calls. -/
def firstPassing (test : SocketId → Poll Bool) : List SocketId → Poll (Option SocketId)
  | [] => return none
  | socket :: rest => do
    if ← test socket then return some socket else firstPassing test rest

/-- The first socket on `port` that has a peer attached and passes `pick`. The status is asked
before the port, and `pick` only of a socket that has both. -/
def findConnected (port : UInt16) (pick : SocketId → Poll Bool) : Poll (Option SocketId) := do
  let count ← socketCount
  firstPassing (fun socket => do
      let status ← socketStatus socket
      if status.isConnected then
        let bound ← socketPort socket
        if bound = port then pick socket else return false
      else return false)
    (sockets count)

def isListening (port : UInt16) : Poll Bool := do
  let count ← socketCount
  let found ← firstPassing (fun socket => do
      let status ← socketStatus socket
      if status = .listen then
        let bound ← socketPort socket
        return bound = port
      else return false)
    (sockets count)
  return found.isSome

end BoardNet.Nic
