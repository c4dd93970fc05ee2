import BoardNet.Link.Status
import BoardNet.WebSocket.Slot

namespace BoardNet.WebSocket

structure Server where
  settings : Settings := {}
  slots : Vector Slot maxClients := Vector.ofFn fun id => { client := { id } }
  stats : Stats := {}
  deriving DecidableEq

namespace Server

variable {C : Type}

def client (server : Server) (id : Fin maxClients) : Client := (server.slots.get id).client

def setSlot (server : Server) (id : Fin maxClients) (slot : Slot) : Server :=
  { server with slots := server.slots.set id slot }

def setClient (server : Server) (id : Fin maxClients) (client : Client) : Server :=
  server.setSlot id { server.slots.get id with client }

def connectedCount (server : Server) : Nat :=
  (List.finRange maxClients).countP fun id => (server.client id).isConnected

/-- Queues a frame to those of some clients that are connected and chosen, and counts the clients
it was queued to. -/
def broadcastTo (opcode : Opcode) (payload : List UInt8) (chosen : Client → Bool) :
    List (Fin maxClients) → Server → Logged (Nat × Server)
  | [], server => return (0, server)
  | id :: ids, server => do
    let client := server.client id
    if client.isConnected && chosen client then
      let (queued, client) ← client.queueFrame opcode payload
      let (count, server) ← broadcastTo opcode payload chosen ids (server.setClient id client)
      return (if queued then count + 1 else count, server)
    else broadcastTo opcode payload chosen ids server

/-- Queues a frame to every connected client that is chosen, and counts the clients it was queued
to. -/
def broadcastFrame (server : Server) (opcode : Opcode) (payload : List UInt8)
    (chosen : Client → Bool) : Logged (Nat × Server) :=
  broadcastTo opcode payload chosen (List.finRange maxClients) server

def broadcast (server : Server) (text : String) (chosen : Client → Bool) :
    Logged (Nat × Server) :=
  server.broadcastFrame .text (Text.bytes text) chosen

def broadcastBinary (server : Server) (data : List UInt8) (chosen : Client → Bool) :
    Logged (Nat × Server) :=
  server.broadcastFrame .binary data chosen

/-- Queues an event to the clients that subscribed to it. -/
def emit (server : Server) (topic text : String) (properties : List Property := []) :
    Logged (Nat × Server) :=
  server.broadcast text fun client => client.wants topic properties

/-- Queues an event of bytes to the clients that subscribed to it. -/
def emitBinary (server : Server) (topic : String) (data : List UInt8) : Logged (Nat × Server) :=
  server.broadcastBinary data fun client => client.wants topic []

def sendTo (server : Server) (id : Nat) (text : String) : Logged (Bool × Server) := do
  if known : id < maxClients then
    let (queued, client) ← (server.client ⟨id, known⟩).sendText text
    return (queued, server.setClient ⟨id, known⟩ client)
  else return (false, server)

/-- Some client holds this socket. -/
def holds (server : Server) (socket : SocketId) : Bool :=
  (List.finRange maxClients).any fun id => (server.client id).phase.socket = some socket

/-- The first client without a connection. -/
def vacant? (server : Server) : Option (Fin maxClients) :=
  (List.finRange maxClients).find? fun id => (server.client id).phase = .disconnected

/-- Takes over a new connection, or refuses it if there are clients enough. -/
def welcome (server : Server) (socket : SocketId) (now : Millis) : Poll Server := do
  let remote ← Nic.remoteIp socket
  match server.vacant? with
  | some id =>
    Poll.log .info s!"ws: client {id.val} connecting from {remote} on socket {socket.val}"
    let attached := server.setSlot id ((server.slots.get id).attach socket remote now)
    return { attached with stats := { server.stats with accepted := server.stats.accepted + 1 } }
  | none =>
    Poll.log .warn s!"ws: all {maxClients} slots busy, refusing {remote}"
    Nic.close socket
    return { server with stats := { server.stats with rejected := server.stats.rejected + 1 } }

/-- Admits at most `most` connections that no client holds. Answers whether there were any. -/
def admitAll (server : Server) (now : Millis) : (most : Nat) → Poll (Bool × Server)
  | 0 => return (false, server)
  | most + 1 => do
    match ← Nic.findConnected server.settings.port fun socket => return !server.holds socket with
    | none => return (false, server)
    | some socket =>
      let admitted ← server.welcome socket now
      let (_, server) ← admitted.admitAll now most
      return (true, server)

/-- Opens a listener if there is none. -/
def relisten (server : Server) : Poll Server := do
  let port := server.settings.port
  if ← Nic.isListening port then return server
  else match ← Nic.listen port with
    | .ok _ => return server
    | .error error =>
      Poll.log .warn s!"ws: relisten on {port.toNat}: {error.message}"
      return server

/-- Admits new connections. Their sockets were listeners, so one is opened for the next. -/
def accept (server : Server) (now : Millis) : Poll Server := do
  let (any, server) ← server.admitAll now maxSockets
  if any then server.relisten else return server

/-- Gives some clients their turns. -/
def serviceAll (handler : MessageHandler C) (now : Millis) :
    List (Fin maxClients) → Server → C → Poll (Server × C)
  | [], server, context => return (server, context)
  | id :: ids, server, context => do
    let turn : Turn C := ⟨server.slots.get id, server.stats, context⟩
    let ended ← turn.service server.settings handler now
    let serviced := { server.setSlot id ended.slot with stats := ended.stats }
    serviceAll handler now ids serviced ended.context

/-- Drops those of some clients that have a connection. -/
def dropAll (reason : String) : List (Fin maxClients) → Server → Poll Server
  | [], server => return server
  | id :: ids, server => do
    if (server.client id).phase = .disconnected then dropAll reason ids server
    else
      Poll.log .warn s!"ws: client {id.val} dropped, {reason}"
      let turn : Turn Unit := ⟨server.slots.get id, server.stats, ()⟩
      let ended ← turn.forceClose
      dropAll reason ids { server.setSlot id ended.slot with stats := ended.stats }

/-- One step of the server. The cable is looked at here as well as by the supervisor, so that
clients go with it at once. -/
def update (server : Server) (handler : MessageHandler C) (network : Link.Status) (context : C)
    (now : Millis) : Poll (Server × C) := do
  let link ← Nic.linkStatus
  if link ≠ .on then
    return (← dropAll "link lost" (List.finRange maxClients) server, context)
  else if !network.ready then
    return (← dropAll "network not ready" (List.finRange maxClients) server, context)
  else
    let server ← server.accept now
    serviceAll handler now (List.finRange maxClients) server context

end Server

end BoardNet.WebSocket
