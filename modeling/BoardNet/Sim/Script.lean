import BoardNet.Board

namespace BoardNet.Sim

def scriptCount : Nat := 4

inductive Action where
  | send (code : Http.Code) (contentType : String) (body : List UInt8)
  | sendText (code : Http.Code) (contentType body : String)
  | sendFixed (code : Http.Code) (contentType : String) (body : List UInt8)
  | head (code : Http.Code) (contentType : String) (length : Option Nat)
  | write (body : List UInt8)
  /-- Sends the body of the request back. -/
  | echo (code : Http.Code) (contentType : String)
  | close (socket : SocketId)
  | disconnect (socket : SocketId)
  /-- Notes what the responder knows. -/
  | info
  /-- Notes a header and a query parameter. -/
  | lookup (header parameter : String)
  deriving DecidableEq, Repr

inductive Finding where
  | info (status : Option Http.Code) (stats : Http.Stats) (network : Link.Status)
  | lookup (header parameter : Option String)
  deriving DecidableEq, Repr

/-- A script that was played: for which request, the status of the response it made, and what it
noted. -/
structure Played where
  script : Fin scriptCount
  request : Http.Request
  status : Option Http.Code
  findings : List Finding
  deriving DecidableEq, Repr

/-- A message that was heard: who sent it, whether the command in it succeeded, and how many bytes
were queued for the client afterwards. -/
structure Heard where
  client : Fin WebSocket.maxClients
  text : String
  outcome : Option Bool
  pending : Nat
  deriving DecidableEq, Repr

/-- The state of the application: its scripts, and what happened so far. -/
structure Journal where
  scripts : Vector (List Action) scriptCount := Vector.replicate scriptCount []
  played : List Played := []
  heard : List Heard := []
  deriving DecidableEq, Repr

def Action.perform (request : Http.Request) (responder : Http.Responder) :
    Action → Poll (Http.Responder × List Finding)
  | .send code contentType body => return (← responder.send code contentType body, [])
  | .sendText code contentType body => return (← responder.sendText code contentType body, [])
  | .sendFixed code contentType body => return (← responder.sendFixed code contentType body, [])
  | .head code contentType length => return (← responder.sendHead code contentType length, [])
  | .write body => return (← responder.write body, [])
  | .echo code contentType => return (← responder.send code contentType request.body, [])
  | .close socket => do
    Nic.close socket
    return (responder, [])
  | .disconnect socket => do
    Nic.disconnect socket
    return (responder, [])
  | .info => return (responder, [.info responder.status responder.stats responder.network])
  | .lookup header parameter =>
    return (responder, [.lookup (request.header header) (request.queryParam parameter)])

def play (request : Http.Request) (responder : Http.Responder) :
    List Action → Poll (Http.Responder × List Finding)
  | [] => return (responder, [])
  | action :: actions => do
    let (responder, found) ← action.perform request responder
    let (responder, findings) ← play request responder actions
    return (responder, found ++ findings)

/-- The handler that plays a script and writes it into the journal. -/
def scriptHandler (script : Fin scriptCount) : Http.Handler Journal :=
  fun request responder journal => do
    let (responder, findings) ← play request responder (journal.scripts.get script)
    let played : Played := { script, request, status := responder.status, findings }
    return (responder, { journal with played := journal.played ++ [played] })

/-- The command in a message and what it is about, a blank between them. -/
def splitCommand (text : String) : String × String :=
  match Text.cutAt? ' ' text.toList with
  | some (command, argument) => (String.ofList command, String.ofList argument)
  | none => (text, "")

def obey (client : WebSocket.Client) (command argument : String) :
    Logged (Option Bool × WebSocket.Client) :=
  match command with
  | "!echo" => succeed (client.sendText argument)
  | "!bin" => succeed (client.sendBinary (Text.bytes argument))
  | "!sub" => succeed (pure (client.subscribe argument))
  | "!unsub" => succeed (pure (client.unsubscribe argument))
  | "!ping" => succeed (client.queueFrame .ping (Text.bytes argument))
  | "!close" => succeed (client.queueFrame .close (Text.bytes argument))
  | _ => return (none, client)
where
  succeed (result : Logged (Bool × WebSocket.Client)) :
      Logged (Option Bool × WebSocket.Client) := do
    let (outcome, client) ← result
    return (some outcome, client)

/-- The message handler that obeys commands and writes messages into the journal. -/
def obeyMessages : WebSocket.MessageHandler Journal := fun client text journal => do
  let (command, argument) := splitCommand text
  let (outcome, client) ← obey client command argument
  let heard : Heard := { client := client.id, text, outcome, pending := client.tx.length }
  return (client, { journal with heard := journal.heard ++ [heard] })

def ignoreMessages : WebSocket.MessageHandler Journal := fun client _ journal =>
  return (client, journal)

/-- The application, which may or may not listen to messages. -/
def application (listening : Bool) : Application (Fin scriptCount) Journal where
  handlers := scriptHandler
  messages := if listening then obeyMessages else ignoreMessages

end BoardNet.Sim
