import BoardNet.Sim.Controller

namespace BoardNet.Sim

/-- The faults, all absent at first. -/
structure Faults where
  /-- The number of sockets reported. -/
  socketCount : Option Nat := none
  /-- How polling a soft reset fails. -/
  resetError : Option NicError := none
  /-- How obtaining a lease fails, after it has been tried. -/
  dhcpError : Option NicError := none
  /-- Most bytes taken by one write. -/
  sendCap : Option Nat := none
  /-- Most bytes given by one read. -/
  recvCap : Option Nat := none
  deriving DecidableEq, Repr

/-- A simulated controller with its faults. -/
structure Rig where
  nic : Controller := {}
  faults : Faults := {}
  deriving DecidableEq, Repr

namespace Rig

/-- At most as many bytes as a fault lets pass. -/
def cap (limit : Option Nat) (count : Nat) : Nat := min (limit.getD count) count

theorem cap_le (limit : Option Nat) (count : Nat) : cap limit count ≤ count := Nat.min_le_right _ _

def recv (rig : Rig) (id : SocketId) (limit : Nat) :
    { data : List UInt8 // data.length ≤ limit } × Rig :=
  let (data, nic) := rig.nic.recv id (cap rig.faults.recvCap limit)
  (⟨data.val, Nat.le_trans data.property (cap_le _ _)⟩, { rig with nic })

def send (rig : Rig) (id : SocketId) (data : List UInt8) : Fin (data.length + 1) × Rig :=
  let offered := data.take (cap rig.faults.sendCap data.length)
  let (taken, nic) := rig.nic.send id offered
  (⟨taken.val, by
      have := taken.isLt
      have : offered.length ≤ data.length := List.length_take_le' _ _
      omega⟩,
    { rig with nic })

/-- Answers a call as the controller does, but for the faults. -/
def answer (call : Nic.Call) (rig : Rig) : call.Answer × Rig :=
  match call with
  | .socketCount => (rig.faults.socketCount.getD maxSockets, rig)
  | .pollSoftReset =>
    match rig.faults.resetError with
    | some error => (.failed error, rig)
    | none =>
      let (progress, nic) := rig.nic.pollSoftReset
      (progress, { rig with nic })
  | .dhcpLease _ _ =>
    let (outcome, nic) := rig.nic.requestLease
    match rig.faults.dhcpError with
    | some error => (.error error, { rig with nic })
    | none => (outcome, { rig with nic })
  | .recv id limit => rig.recv id limit
  | .send id data => rig.send id data
  | call =>
    let (answer, nic) := rig.nic.answer call
    (answer, { rig with nic })

def chip : Chip Rig := ⟨answer⟩

end Rig

end BoardNet.Sim
