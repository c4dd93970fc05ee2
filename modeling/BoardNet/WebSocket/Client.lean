import BoardNet.Address
import BoardNet.Nic.Status
import BoardNet.Text.Bytes
import BoardNet.WebSocket.Frame
import BoardNet.WebSocket.Ring
import BoardNet.WebSocket.Topic

namespace BoardNet.WebSocket

def maxClients : Nat := 4

/-- What a client's connection is doing, and on which socket. State and socket are one value, since
they change together: both are set where a slot takes over a connection and given up where it is
cleared, and between these the socket stays. -/
inductive Phase where
  | disconnected
  /-- The upgrade request is being read. -/
  | upgrading (socket : SocketId)
  | connected (socket : SocketId)
  /-- A closing frame is queued; the socket goes once everything queued has gone. -/
  | closing (socket : SocketId)
  deriving DecidableEq, Repr

namespace Phase

def name : Phase → String
  | .disconnected => "Disconnected"
  | .upgrading _ => "HandshakeReceive"
  | .connected _ => "Connected"
  | .closing _ => "Closing"

def socket : Phase → Option SocketId
  | .disconnected => none
  | .upgrading socket | .connected socket | .closing socket => some socket

end Phase

structure Client where
  id : Fin maxClients
  phase : Phase := .disconnected
  remote : Ipv4 := .unspecified
  /-- Bytes queued for the controller. -/
  tx : Ring := .empty
  subscriptions : Subscriptions := {}
  /-- Frames that were not queued because there was no space. -/
  dropped : UInt32 := 0
  deriving DecidableEq

namespace Client

def isConnected (client : Client) : Bool :=
  match client.phase with
  | .connected _ => true
  | _ => false

/-- Frames of this kind can be queued now. Closing frames can be as long as there is a peer to hear
them. -/
def isOpenFor (client : Client) (opcode : Opcode) : Bool :=
  match client.phase with
  | .connected _ => true
  | .closing _ => opcode = .close
  | _ => false

/-- Events of this topic with these properties are to go to this client. -/
def wants (client : Client) (topic : String) (properties : List Property) : Bool :=
  client.isConnected && client.subscriptions.wants topic properties

def subscribe (client : Client) (topic : String) : Bool × Client :=
  match Subscription.ofTopic? topic with
  | none => (false, client)
  | some subscription =>
    let (added, subscriptions) := client.subscriptions.add subscription
    (added, { client with subscriptions })

def unsubscribe (client : Client) (topic : String) : Bool × Client :=
  let (count, subscriptions) := client.subscriptions.remove topic
  (count > 0, { client with subscriptions })

def enqueue (client : Client) (opcode : Opcode) (payload : List UInt8) : Bool × Ring :=
  match serverHeader opcode payload.length with
  | .ok header => client.tx.pushAll [header, payload]
  | .error _ => (false, client.tx)

/-- Queues a whole frame, or drops it if there is no space. Answers whether it was queued. -/
def queueFrame (client : Client) (opcode : Opcode) (payload : List UInt8) :
    Logged (Bool × Client) := do
  if client.isOpenFor opcode then
    match client.enqueue opcode payload with
    | (true, tx) => return (true, { client with tx })
    | (false, _) =>
      .note .debug (s!"ws: client {client.id.val} dropped {opcode.name} frame of " ++
        s!"{payload.length} bytes ({client.tx.free} free)")
      return (false, { client with dropped := client.dropped + 1 })
  else return (false, client)

def sendText (client : Client) (text : String) : Logged (Bool × Client) :=
  client.queueFrame .text (Text.bytes text)

def sendBinary (client : Client) (data : List UInt8) : Logged (Bool × Client) :=
  client.queueFrame .binary data

/-- The client without its connection and all that belonged to it. -/
def reset (client : Client) : Client :=
  { client with
    phase := .disconnected
    remote := .unspecified
    tx := client.tx.clear
    subscriptions := {} }

end Client

/-- What the application does with each text message, before the message is looked at for a change
of subscriptions. -/
abbrev MessageHandler (C : Type) := Client → String → C → Logged (Client × C)

end BoardNet.WebSocket
