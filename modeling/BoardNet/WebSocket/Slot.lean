import BoardNet.Nic.Scan
import BoardNet.WebSocket.Client
import BoardNet.WebSocket.Settings
import BoardNet.WebSocket.Upgrade

/-!
What the server does for one client in an update: let go of a peer that left, read the upgrade
request, read and act on frames, keep the connection alive, and move queued bytes to the
controller. Each part acts only in the phases that it is for, so the parts follow one another
without asking how the last one ended.
-/

namespace BoardNet.WebSocket

/-- Bytes in the receive buffer; a frame that is larger is refused. -/
def receiveCapacity : Nat := 256

def maxTransmitChunk : Nat := 1024

/-- A client with what the server keeps for its connection. -/
structure Slot where
  client : Client
  /-- When the connection was accepted. -/
  since : Millis := 0
  /-- When the last frame came. -/
  lastActive : Millis := 0
  lastPing : Millis := 0
  /-- Since when the peer has taken nothing. -/
  stalledSince : Option Millis := none
  upgrade : LineReader := {}
  /-- Received bytes that are not yet a frame. -/
  received : List UInt8 := []
  deriving DecidableEq

/-- Takes what has arrived on a socket, as far as there is space. -/
def arrivals (socket : SocketId) (space : Nat) : Poll (List UInt8) := do
  let waiting ← Nic.rxAvailable socket
  let available := min waiting space
  if available > 0 then return (← Nic.recv socket available).val
  else return []

namespace Slot

/-- The slot without its connection and all that belonged to it. -/
def reset (slot : Slot) : Slot :=
  { slot with client := slot.client.reset, stalledSince := none, upgrade := {}, received := [] }

def attach (slot : Slot) (socket : SocketId) (remote : Ipv4) (now : Millis) : Slot :=
  let empty := slot.reset
  { empty with
    client := { empty.client with phase := .upgrading socket, remote }
    since := now
    lastActive := now
    lastPing := now }

end Slot

/-- One client's turn in an update: its slot, the server's counters, and the application's state. -/
structure Turn (C : Type) where
  slot : Slot
  stats : Stats
  context : C

namespace Turn

variable {C : Type}

def withClient (turn : Turn C) (client : Client) : Turn C :=
  { turn with slot := { turn.slot with client } }

def release (turn : Turn C) : Turn C := { turn with slot := turn.slot.reset }

def countHandshakeFailure (turn : Turn C) : Turn C :=
  { turn with
    stats := { turn.stats with handshakeFailures := turn.stats.handshakeFailures + 1 } }

def forceClose (turn : Turn C) : Poll (Turn C) := do
  if let some socket := turn.slot.client.phase.socket then Nic.close socket
  return { turn.release with
    stats := { turn.stats with forceClosed := turn.stats.forceClosed + 1 } }

/-- Queues a frame of the server's own. -/
def queue (turn : Turn C) (opcode : Opcode) (payload : List UInt8) : Logged (Turn C) := do
  let (_, client) ← turn.slot.client.queueFrame opcode payload
  return turn.withClient client

/-- The peer left. A peer that only stopped sending is there until all that it sent is read, and
while it still has to be sent something. -/
def peerGone (turn : Turn C) (socket : SocketId) (status : SocketStatus) : Poll Bool := do
  if !status.isConnected then return true
  else if status = .closeWait ∧ turn.slot.client.phase ≠ .closing socket then
    return (← Nic.rxAvailable socket) = 0
  else return false

/-- Lets go of a peer that left. -/
def checkPeer (turn : Turn C) (socket : SocketId) : Poll (Turn C) := do
  let status ← Nic.socketStatus socket
  if ← turn.peerGone socket status then
    Poll.log .info s!"ws: client {turn.slot.client.id.val} gone ({status.name})"
    if status ≠ .closed then Nic.close socket
    return turn.release
  else return turn

/-- Answers a complete upgrade request. The bytes behind it are frames already. -/
def accept (turn : Turn C) (socket : SocketId) (rest : List UInt8) (now : Millis) :
    Poll (Turn C) := do
  let client := turn.slot.client
  match turn.slot.upgrade.key with
  | none =>
    Poll.log .warn s!"ws: client {client.id.val} upgrade without Sec-WebSocket-Key"
    Nic.disconnect socket
    return turn.countHandshakeFailure.release
  | some key =>
    let reply := Text.bytes (upgradeReply (acceptKey key))
    let taken ← Nic.send socket reply
    if taken.val < reply.length then
      Poll.log .warn s!"ws: client {client.id.val} could not take the upgrade response"
      turn.countHandshakeFailure.forceClose
    else
      Poll.log .info s!"ws: client {client.id.val} connected from {client.remote}"
      return { turn with slot := { turn.slot with
        client := { client with phase := .connected socket }
        received := turn.slot.received ++ rest
        lastActive := now
        lastPing := now } }

/-- Waits for the rest of an upgrade request, but not for ever. -/
def awaitRequest (turn : Turn C) (settings : Settings) (now : Millis) : Poll (Turn C) := do
  if elapsed now turn.slot.since > settings.handshakeTimeout then
    Poll.log .warn s!"ws: client {turn.slot.client.id.val} handshake timed out"
    turn.countHandshakeFailure.forceClose
  else return turn

/-- Reads the upgrade request of a client that is in that phase. -/
def upgrade (turn : Turn C) (settings : Settings) (now : Millis) : Poll (Turn C) := do
  match turn.slot.client.phase with
  | .upgrading socket =>
    let data ← arrivals socket receiveCapacity
    let (upgrade, rest) ← turn.slot.upgrade.feedAll data
    let turn := { turn with slot := { turn.slot with upgrade } }
    match rest with
    | some rest => turn.accept socket rest now
    | none => turn.awaitRequest settings now
  | _ => return turn

/-- Hands a text message to the application, and then looks whether it asks for a change of
subscriptions. -/
def message (turn : Turn C) (handler : MessageHandler C) (text : String) : Logged (Turn C) := do
  let stats := { turn.stats with messages := turn.stats.messages + 1 }
  let (client, context) ← handler turn.slot.client text turn.context
  let (_, subscriptions) ← client.subscriptions.apply text
  return { slot := { turn.slot with client := { client with subscriptions } }, stats, context }

/-- Acts on the payload of a frame. Answers whether to go on with the next frame, and nothing if
the frame is against the protocol. -/
def act (turn : Turn C) (handler : MessageHandler C) (socket : SocketId) (header : FrameHeader)
    (payload : List UInt8) : Logged (Option Bool × Turn C) := do
  let id := turn.slot.client.id.val
  if !header.fin then
    .note .warn s!"ws: client {id} sent a fragmented message"
    return (none, turn)
  else match Opcode.ofBits? header.opcode with
    | some .text =>
      match Text.ofBytes? payload with
      | some text => return (some true, ← turn.message handler text)
      | none =>
        .note .warn s!"ws: client {id} sent invalid UTF-8"
        return (none, turn)
    | some .binary =>
      .note .debug s!"ws: client {id} binary message ignored ({payload.length} bytes)"
      return (some true, turn)
    | some .ping => return (some true, ← turn.queue .pong payload)
    | some .pong => return (some true, turn)
    | some .close =>
      let queued ← turn.queue .close (payload.take 2)
      return (some false, queued.withClient { queued.slot.client with phase := .closing socket })
    | some .continuation | none =>
      .note .warn s!"ws: client {id} sent opcode {Text.hexNibble header.opcode}"
      return (none, turn)

/-- Acts on the complete frames among received bytes, in order. Answers whether all were in order;
bytes behind them stay in the receive buffer. -/
def readFrames (turn : Turn C) (handler : MessageHandler C) (socket : SocketId) (now : Millis)
    (received : List UInt8) : Logged (Bool × Turn C) := do
  match _read : FrameHeader.parse received receiveCapacity with
  | .error error =>
    .note .warn s!"ws: client {turn.slot.client.id.val} sent a bad frame: {error.message}"
    return (false, { turn with slot := { turn.slot with received } })
  | .ok none => return (true, { turn with slot := { turn.slot with received } })
  | .ok (some header) =>
    let rest := received.drop header.frameLength
    let turn := { turn with slot := { turn.slot with received := rest, lastActive := now } }
    let (more, turn) ← turn.act handler socket header (header.payload received)
    match more with
    | none => return (false, turn)
    | some false => return (true, turn)
    | some true => turn.readFrames handler socket now rest
termination_by received.length
decreasing_by
  have bounds := FrameHeader.frameLength_bounds _read
  simp only [List.length_drop]
  omega

/-- Sends a ping when one is due. Answers whether the peer is still to be waited for. -/
def keepAlive (turn : Turn C) (settings : Settings) (now : Millis) : Logged (Bool × Turn C) := do
  let silent := elapsed now turn.slot.lastActive
  if silent > settings.idleTimeout then
    .note .warn s!"ws: client {turn.slot.client.id.val} silent for {silent.toNat} ms"
    return (false, turn)
  else if elapsed now turn.slot.lastPing > settings.pingInterval then
    let pinged ← turn.queue .ping []
    return (true, { pinged with slot := { pinged.slot with lastPing := now } })
  else return (true, turn)

/-- Takes what has arrived into the receive buffer, as far as there is space. -/
def receive (turn : Turn C) (socket : SocketId) : Poll (List UInt8) := do
  let data ← arrivals socket (receiveCapacity - turn.slot.received.length)
  return turn.slot.received ++ data

/-- Cuts off a client that sent something against the protocol, and keeps the connection of another
alive. -/
def upkeep (turn : Turn C) (settings : Settings) (now : Millis) (lawful : Bool) :
    Poll (Turn C) := do
  if !lawful then turn.forceClose
  else if turn.slot.client.isConnected then
    let (alive, turn) ← turn.keepAlive settings now
    if alive then return turn else turn.forceClose
  else return turn

/-- Reads and acts on the frames of a connected client, and keeps its connection alive. -/
def converse (turn : Turn C) (settings : Settings) (handler : MessageHandler C) (now : Millis) :
    Poll (Turn C) := do
  match turn.slot.client.phase with
  | .connected socket =>
    let received ← turn.receive socket
    let (lawful, turn) ← turn.readFrames handler socket now received
    turn.upkeep settings now lawful
  | _ => return turn

def withStall (turn : Turn C) (stalledSince : Option Millis) : Turn C :=
  { turn with slot := { turn.slot with stalledSince } }

/-- Moves queued bytes to the controller in at most `chunks` writes. Answers whether the peer is
still to be waited for: it is not once it has had no space for too long. -/
def transmit (turn : Turn C) (settings : Settings) (socket : SocketId) (now : Millis) :
    (chunks : Nat) → Poll (Bool × Turn C)
  | 0 => return (true, turn)
  | chunks + 1 => do
    let free ← Nic.txFree socket
    if free = 0 then
      let since := turn.slot.stalledSince.getD now
      let stalled := turn.withStall (some since)
      if elapsed now since > settings.stallTimeout then
        let queued := turn.slot.client.tx.length
        Poll.log .warn
          s!"ws: client {turn.slot.client.id.val} stalled with {queued} bytes queued"
        return (false, stalled)
      else return (true, stalled)
    else
      let turn := turn.withStall none
      let tx := turn.slot.client.tx
      let data := tx.peek (min (min settings.chunk maxTransmitChunk) free)
      if data = [] then return (true, turn)
      else
        let taken ← Nic.send socket data
        let turn := turn.withClient { turn.slot.client with tx := tx.consume taken }
        if taken.val < data.length then return (true, turn)
        else turn.transmit settings socket now chunks

/-- Moves what is queued for a client with a peer, and gives the peer up if it takes nothing. -/
def drain (turn : Turn C) (settings : Settings) (now : Millis) : Poll (Turn C) := do
  match turn.slot.client.phase with
  | .connected socket | .closing socket =>
    if turn.slot.client.tx.isEmpty then return turn.withStall none
    else
      let (alive, turn) ← turn.transmit settings socket now settings.chunksPerPoll.toNat
      if alive then return turn else turn.forceClose
  | _ => return turn

/-- Closes the connection of a client that is closing and has nothing queued. -/
def finish (turn : Turn C) : Poll (Turn C) := do
  match turn.slot.client.phase with
  | .closing socket =>
    if turn.slot.client.tx.isEmpty then
      Poll.log .info s!"ws: client {turn.slot.client.id.val} closed"
      Nic.disconnect socket
      return turn.release
    else return turn
  | _ => return turn

def service (turn : Turn C) (settings : Settings) (handler : MessageHandler C) (now : Millis) :
    Poll (Turn C) := do
  match turn.slot.client.phase.socket with
  | none => return turn
  | some socket =>
    let present ← turn.checkPeer socket
    let upgraded ← present.upgrade settings now
    let conversed ← upgraded.converse settings handler now
    let drained ← conversed.drain settings now
    drained.finish

end Turn

end BoardNet.WebSocket
