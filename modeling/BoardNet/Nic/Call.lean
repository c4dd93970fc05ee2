import BoardNet.Addressing
import BoardNet.Clock
import BoardNet.Nic.Status

/-!
The calls that software makes on the network controller, each with the type of its answer. Every
call is one short bus transaction, save that asking for a lease may take up to its timeout. An
answer's type holds what any controller promises: a read fills no more than the space offered, and
a write takes no more than the bytes offered.
-/

namespace BoardNet

inductive NicError where
  | bus
  | timeout
  | noFreeSocket
  | dhcp
  deriving DecidableEq, Repr

def NicError.message : NicError → String
  | .bus => "NIC not responding on bus"
  | .timeout => "NIC operation timed out"
  | .noFreeSocket => "no free hardware socket"
  | .dhcp => "DHCP lease failed"

inductive ResetProgress where
  | finished
  | pending
  | failed (error : NicError)
  deriving DecidableEq, Repr

inductive LeaseUpkeep where
  | nothing
  | renewFailed
  | renewed (lease : Lease)
  | rebindFailed
  | rebound (lease : Lease)
  deriving DecidableEq, Repr

namespace Nic

inductive Call where
  /-- Read the version register. -/
  | probe
  | linkStatus
  /-- Set the reset bit, which the controller clears when it is done. -/
  | beginSoftReset
  | pollSoftReset
  /-- Obtain an address, within `timeout`. -/
  | dhcpLease (mac : Mac) (timeout : Millis)
  | maintainLease
  | configureStatic (mac : Mac) (addressing : Addressing)
  | localIp
  /-- The number of hardware sockets, which takes no transaction. -/
  | socketCount
  | socketStatus (socket : SocketId)
  | socketPort (socket : SocketId)
  | remoteIp (socket : SocketId)
  /-- Bytes waiting in the socket's receive buffer. -/
  | rxAvailable (socket : SocketId)
  /-- Free space in the socket's transmit buffer. -/
  | txFree (socket : SocketId)
  /-- Take up to `limit` received bytes. -/
  | recv (socket : SocketId) (limit : Nat)
  /-- Copy bytes into the transmit buffer and send them. -/
  | send (socket : SocketId) (data : List UInt8)
  /-- Open a closed socket as a listener. -/
  | listen (port : UInt16)
  /-- Start a graceful close. -/
  | disconnect (socket : SocketId)
  /-- Close at once. -/
  | close (socket : SocketId)
  deriving DecidableEq, Repr

@[reducible] def Call.Answer : Call → Type
  | .probe => Except NicError Unit
  | .linkStatus => LinkStatus
  | .beginSoftReset => Unit
  | .pollSoftReset => ResetProgress
  | .dhcpLease _ _ => Except NicError Lease
  | .maintainLease => LeaseUpkeep
  | .configureStatic _ _ => Unit
  | .localIp => Ipv4
  | .socketCount => Nat
  | .socketStatus _ => SocketStatus
  | .socketPort _ => UInt16
  | .remoteIp _ => Ipv4
  | .rxAvailable _ => Nat
  | .txFree _ => Nat
  | .recv _ limit => { data : List UInt8 // data.length ≤ limit }
  | .send _ data => Fin (data.length + 1)
  | .listen _ => Except NicError SocketId
  | .disconnect _ => Unit
  | .close _ => Unit

end Nic

end BoardNet
