import BoardNet.Address
import BoardNet.Log

namespace BoardNet

/-- An address taken on lease, with the network it belongs to. -/
structure Lease where
  ip : Ipv4 := .unspecified
  subnet : Ipv4 := .unspecified
  gateway : Ipv4 := .unspecified
  dns : Ipv4 := .unspecified
  deriving DecidableEq, Repr

/-- Addressing that survives a reboot. With `dhcp` the address is leased and the rest records the
last lease; without, it is configured as it stands. -/
structure Addressing where
  dhcp : Bool := true
  ip : Ipv4 := ⟨192, 168, 1, 100⟩
  subnet : Ipv4 := ⟨255, 255, 255, 0⟩
  gateway : Ipv4 := ⟨192, 168, 1, 1⟩
  dns : Ipv4 := ⟨8, 8, 8, 8⟩
  deriving DecidableEq, Repr

namespace Addressing

def factory : Addressing := {}

def ofLease (lease : Lease) : Addressing :=
  ⟨true, lease.ip, lease.subnet, lease.gateway, lease.dns⟩

/-- Why stored bytes are no addressing record. -/
inductive RecordError where
  | badLength
  | badMagic
  deriving DecidableEq, Repr

def RecordError.message : RecordError → String
  | .badLength => "config record has wrong length"
  | .badMagic => "config record magic mismatch"

/-- First byte of every record; erased memory does not have it. -/
def recordMagic : UInt8 := 0xA5

def recordLength : Nat := 18

def toRecord (addressing : Addressing) : List UInt8 :=
  recordMagic :: (if addressing.dhcp then 1 else 0) ::
    (addressing.ip.octets ++ addressing.subnet.octets ++ addressing.gateway.octets ++
      addressing.dns.octets)

/-- Reads a record. Its length is checked before its first byte, and any flag but zero is set. -/
def ofRecord : List UInt8 → Except RecordError Addressing
  | [magic, flag, i₁, i₂, i₃, i₄, s₁, s₂, s₃, s₄, g₁, g₂, g₃, g₄, d₁, d₂, d₃, d₄] =>
    if magic = recordMagic then
      .ok ⟨flag != 0, ⟨i₁, i₂, i₃, i₄⟩, ⟨s₁, s₂, s₃, s₄⟩, ⟨g₁, g₂, g₃, g₄⟩, ⟨d₁, d₂, d₃, d₄⟩⟩
    else .error .badMagic
  | _ => .error .badLength

/-- The stored addressing, or the factory's if what is stored is no record. -/
def load (stored : List UInt8) : Logged Addressing :=
  match ofRecord stored with
  | .ok addressing => pure addressing
  | .error error => do
    .note .warn ("network config: " ++ error.message ++ ", using defaults")
    return factory

end Addressing

end BoardNet
