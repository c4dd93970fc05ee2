namespace BoardNet.WebSocket

inductive Opcode where
  | continuation
  | text
  | binary
  | close
  | ping
  | pong
  deriving DecidableEq, Repr

namespace Opcode

def bits : Opcode → UInt8
  | .continuation => 0x0
  | .text => 0x1
  | .binary => 0x2
  | .close => 0x8
  | .ping => 0x9
  | .pong => 0xA

/-- The opcode that four bits stand for. -/
def ofBits? : UInt8 → Option Opcode
  | 0x0 => some .continuation
  | 0x1 => some .text
  | 0x2 => some .binary
  | 0x8 => some .close
  | 0x9 => some .ping
  | 0xA => some .pong
  | _ => none

def name : Opcode → String
  | .continuation => "Continuation"
  | .text => "Text"
  | .binary => "Binary"
  | .close => "Close"
  | .ping => "Ping"
  | .pong => "Pong"

def all : List Opcode := [.continuation, .text, .binary, .close, .ping, .pong]

end Opcode

/-- Why a frame is refused. Each ends the connection that it came on. -/
inductive FrameError where
  /-- The length is in the form of 64 bits. -/
  | longLength
  | unmasked
  | tooLarge (needed capacity : Nat)
  /-- A payload to be sent does not fit a length of 16 bits. -/
  | payloadTooLong
  deriving DecidableEq, Repr

def FrameError.message : FrameError → String
  | .longLength => "64-bit frame length not supported"
  | .unmasked => "client frame without mask"
  | .tooLarge needed capacity => s!"frame of {needed} bytes exceeds buffer of {capacity}"
  | .payloadTooLong => "payload longer than 65535 bytes"

/-- The key that a client masks a payload with. -/
structure Mask where
  a : UInt8
  b : UInt8
  c : UInt8
  d : UInt8
  deriving DecidableEq, Repr

/-- The key from its second byte on. -/
def Mask.turn (mask : Mask) : Mask := ⟨mask.b, mask.c, mask.d, mask.a⟩

/-- Combines the payload with the key, which repeats every four bytes. -/
def unmask (mask : Mask) : List UInt8 → List UInt8
  | [] => []
  | byte :: rest => (byte ^^^ mask.a) :: unmask mask.turn rest

/-- Masking twice changes nothing. -/
theorem unmask_unmask (mask : Mask) (payload : List UInt8) :
    unmask mask (unmask mask payload) = payload := by
  induction payload generalizing mask with
  | nil => rfl
  | cons byte rest next =>
    simp only [unmask, next, UInt8.xor_assoc, UInt8.xor_self, UInt8.xor_zero]

theorem length_unmask (mask : Mask) (payload : List UInt8) :
    (unmask mask payload).length = payload.length := by
  induction payload generalizing mask with
  | nil => rfl
  | cons byte rest next => simp [unmask, next]

/-- The header of a client's frame that has wholly arrived. The opcode is as it came: what to make
of an unknown one is left open. -/
structure FrameHeader where
  fin : Bool
  opcode : UInt8
  mask : Mask
  headerLength : Nat
  payloadLength : Nat
  deriving DecidableEq, Repr

namespace FrameHeader

def frameLength (header : FrameHeader) : Nat := header.headerLength + header.payloadLength

/-- Reads mask and payload of a frame once its lengths are known. The frame must fit the receive
buffer, and is incomplete until all of it has arrived. -/
def complete (first : UInt8) (headerLength payloadLength capacity : Nat) (rest : List UInt8) :
    Except FrameError (Option FrameHeader) :=
  let needed := headerLength + payloadLength
  if needed > capacity then .error (.tooLarge needed capacity)
  else match rest with
    | a :: b :: c :: d :: payload =>
      if payload.length < payloadLength then .ok none
      else .ok (some {
        fin := first &&& 0x80 != 0
        opcode := first &&& 0x0F
        mask := ⟨a, b, c, d⟩
        headerLength
        payloadLength })
    | _ => .ok none

/-- Reads the frame at the front of a receive buffer of `capacity` bytes, if all of it is there. -/
def parse (buffer : List UInt8) (capacity : Nat) : Except FrameError (Option FrameHeader) :=
  match buffer with
  | first :: second :: rest =>
    let short := second &&& 0x7F
    if short = 127 then .error .longLength
    else if second &&& 0x80 = 0 then .error .unmasked
    else if short = 126 then
      match rest with
      | high :: low :: rest =>
        complete first 8 (high.toNat * 256 + low.toNat) capacity rest
      | _ => .ok none
    else complete first 6 short.toNat capacity rest
  | _ => .ok none

/-- The payload of the frame at the front of `buffer`, unmasked. -/
def payload (header : FrameHeader) (buffer : List UInt8) : List UInt8 :=
  unmask header.mask ((buffer.drop header.headerLength).take header.payloadLength)

private theorem complete_eq_some {first : UInt8} {headerLength payloadLength capacity : Nat}
    {rest : List UInt8} {header : FrameHeader}
    (read : complete first headerLength payloadLength capacity rest = .ok (some header)) :
    header.frameLength = headerLength + payloadLength ∧ 4 + payloadLength ≤ rest.length := by
  unfold complete at read
  dsimp only at read
  split at read
  · simp at read
  · split at read
    · next a b c d payload =>
      split at read
      · simp at read
      · simp only [Except.ok.injEq, Option.some.injEq] at read
        subst read
        exact ⟨rfl, by simp only [List.length_cons]; omega⟩
    · simp at read

/-- A frame that was read has a header with a mask, and lies in the buffer. -/
theorem frameLength_bounds {buffer : List UInt8} {capacity : Nat} {header : FrameHeader}
    (read : parse buffer capacity = .ok (some header)) :
    6 ≤ header.frameLength ∧ header.frameLength ≤ buffer.length := by
  unfold parse at read
  split at read
  · next first second rest =>
    dsimp only at read
    split at read
    · simp at read
    split at read
    · simp at read
    split at read
    · split at read
      · have ⟨length, arrived⟩ := complete_eq_some read
        simp only [List.length_cons]
        omega
      · simp at read
    · have ⟨length, arrived⟩ := complete_eq_some read
      simp only [List.length_cons]
      omega
  · simp at read

end FrameHeader

def maxServerHeader : Nat := 4

/-- The header of a frame from the server: final, unmasked, its length in the shorter form that can
hold it. -/
def serverHeader (opcode : Opcode) (length : Nat) : Except FrameError (List UInt8) :=
  let first := 0x80 ||| opcode.bits
  if length < 126 then .ok [first, length.toUInt8]
  else if length ≤ 65535 then .ok [first, 126, (length / 256).toUInt8, (length % 256).toUInt8]
  else .error .payloadTooLong

end BoardNet.WebSocket
