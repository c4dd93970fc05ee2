import BoardNet.Http.SlotWatch
import BoardNet.Http.StatusPages

/-!
The HTTP server: one request at a time, and the connection closed after every response. Each update
makes at most one transition, so no update waits for the network; a response larger than the
controller's transmit buffer goes out over as many updates as the peer needs.

The server keeps its request and outbox from one connection to the next, and clears them when it
accepts.
-/

namespace BoardNet.Http

/-- What an endpoint of the server stands for: a built-in page, or a handler of the application by
its name. -/
inductive Target (E : Type) where
  | page (page : StatusPage)
  | handler (name : E)
  deriving DecidableEq, Repr

/-- What the server is doing. All but waiting concerns the connection on `socket`. State and socket
are one value, since they change together: the socket is set where a connection is accepted, kept by
every other transition, and given up where the server waits again. -/
inductive Phase (E : Type) where
  | waiting
  | receiving (socket : SocketId)
  | processing (socket : SocketId)
  /-- The request leads to `route`. -/
  | handling (socket : SocketId) (route : Route (Target E))
  /-- The response is on its way. -/
  | sending (socket : SocketId)
  /-- The request leads nowhere. -/
  | failed (socket : SocketId)
  /-- The connection is being closed; it was `asked` to disconnect or is still to be. -/
  | closing (socket : SocketId) (asked : Bool)
  | forceClosing (socket : SocketId)
  deriving DecidableEq, Repr

namespace Phase

variable {E : Type}

def name : Phase E → String
  | .waiting => "Waiting"
  | .receiving _ => "Receiving"
  | .processing _ => "Processing"
  | .handling _ _ => "Handling"
  | .sending _ => "Sending"
  | .failed _ => "Failed"
  | .closing _ _ => "Closing"
  | .forceClosing _ => "ForceClosing"

def socket : Phase E → Option SocketId
  | .waiting => none
  | .receiving socket | .processing socket | .handling socket _ | .sending socket
  | .failed socket | .closing socket _ | .forceClosing socket => some socket

end Phase

/-- The server. Endpoints are named by values of type `E`. -/
structure Server (E : Type) where
  settings : Settings := {}
  routes : Routes (Target E) := {}
  watch : SlotWatch := {}
  stats : Stats := {}
  phase : Phase E := .waiting
  /-- Time in the phase, or since the peer last took something. -/
  timer : Stopwatch := {}
  /-- Time since the connection was accepted. -/
  accepted : Stopwatch := {}
  /-- Time since the head of the request was complete. -/
  headEnd : Option Stopwatch := none
  request : Request := {}
  out : Outbox := {}
  /-- Status of a handled request whose response is on its way. -/
  reply : Option Code := none
  deriving DecidableEq, Repr

namespace Server

variable {E C : Type}

/-- Moves to a phase, in which time counts from now. -/
def enter (server : Server E) (next : Phase E) (now : Millis) : Logged (Server E) := do
  .note .trace s!"http: {server.phase.name} -> {next.name}"
  return { server with phase := next, timer := ⟨now⟩ }

def countSuccess (server : Server E) : Server E :=
  { server with stats := { server.stats with succeeded := server.stats.succeeded + 1 } }

def countFailure (server : Server E) : Server E :=
  { server with stats := { server.stats with failed := server.stats.failed + 1 } }

def countSweep (server : Server E) (sweep : Sweep) : Server E :=
  { server with
    stats := { server.stats with
      reclaimed := server.stats.reclaimed + sweep.closed.toUInt32
      restarts := server.stats.restarts + if sweep.restarted then 1 else 0 } }

/-- Gives up a response that is on its way, which counts as a failure. -/
def abandonReply (server : Server E) : Server E :=
  let counted := if server.reply.isSome then server.countFailure else server
  { counted with reply := none, out := {} }

def checkSockets (server : Server E) (now : Millis) : Poll (Server E × Sweep) := do
  let (watch, sweep) ← server.watch.check server.settings server.phase.socket now
  return (({ server with watch }).countSweep sweep, sweep)

def pollSockets (server : Server E) (now : Millis) : Poll (Server E) := do
  let (watch, sweep) ← server.watch.poll server.settings server.phase.socket now
  let server := { server with watch }
  match sweep with
  | some sweep => return server.countSweep sweep
  | none => return server

/-- The whole response is with the controller. It counts, if a handler made it, as a success only
if nothing of it was lost. -/
def complete (server : Server E) (socket : SocketId) (now : Millis) : Logged (Server E) := do
  let closing : Phase E := .closing socket false
  match server.reply with
  | none => server.enter closing now
  | some status =>
    let answered := { server with reply := none }
    let uri := server.request.head.uri
    if server.out.overflowed then
      .note .warn s!"http: {uri} response cut short"
      answered.countFailure.enter closing now
    else
      let verb := server.request.head.method.verb
      let sent := server.out.sent
      let spent := server.accepted.elapsed now
      .note .info
        s!"http: {verb} {uri} -> {status.toNat} ({sent} bytes, {spent.toNat} ms)"
      answered.countSuccess.enter closing now

/-- Closes once the controller holds the whole response, and goes on feeding it until then. -/
def deliver (server : Server E) (socket : SocketId) (now : Millis) : Logged (Server E) := do
  if server.out.isEmpty then server.complete socket now
  else
    .note .debug s!"http: {server.out.pending} response bytes wait for the socket"
    server.enter (.sending socket) now

/-- A response to the present request that has not begun. -/
def responder (server : Server E) (socket : SocketId) (network : Link.Status) : Responder :=
  .start socket server.settings.responseChunk server.out network server.stats

/-- The body of a response by which a request is refused. -/
def refusal (code : Code) : String :=
  if code = 400 then "Bad Request"
  else if code = 405 then "Method Not Allowed"
  else if code = 408 then "Request Timeout"
  else "Error"

def reject (server : Server E) (network : Link.Status) (socket : SocketId) (code : Code)
    (now : Millis) : Poll (Server E) := do
  let server := server.countFailure
  let responder ← (server.responder socket network).sendText code "text/plain" (refusal code)
  let finished ← responder.finish
  ({ server with out := finished.out }).deliver socket now

/-- Accepts a connection on which bytes wait. Its socket was the listener, so another is opened. -/
def accept (server : Server E) (now : Millis) : Poll (Server E) := do
  let port := server.settings.port
  match ← Nic.findConnected port fun socket => return (← Nic.rxAvailable socket) > 0 with
  | none => return server
  | some socket =>
    let remote ← Nic.remoteIp socket
    Poll.log .debug s!"http: socket {socket.val} accepted from {remote}"
    let fresh := { server with
      request := Request.start remote
      headEnd := none
      out := {}
      reply := none
      accepted := ⟨now⟩ }
    let server ← fresh.enter (.receiving socket) now
    if ← Nic.isListening port then return server
    else match ← Nic.listen port with
      | .ok _ => return server
      | .error error =>
        Poll.log .warn s!"http: relisten on {port.toNat}: {error.message}"
        return server

def readChunk : Nat := 512

/-- Reads until the request is complete or refused, or nothing more has arrived. -/
def readRequest (request : Request) (socket : SocketId) : Poll (Request × Parse) := do
  let available ← Nic.rxAvailable socket
  if available = 0 then return (request, .needMore)
  else
    let data ← Nic.recv socket (min available readChunk)
    if _nonempty : data.val = [] then return (request, .needMore)
    else
      let fed := request.feed data.val
      Poll.recordAll fed.records
      match _outcome : fed.value with
      | (fed, .needMore) => readRequest fed socket
      | (fed, parse) => return (fed, parse)
termination_by request.room
decreasing_by exact Request.room_feed_lt _nonempty _outcome

/-- Reads the request and moves on once it is there. A body that is late is taken as far as it came.
Answers with the status by which the request is refused, if it is at fault or its head is late. -/
def hear (server : Server E) (socket : SocketId) (now : Millis) :
    Poll (Server E × Option Code) := do
  let (request, parse) ← readRequest server.request socket
  let headEnd := match server.headEnd with
    | some watch => some watch
    | none => if request.headDone then some ⟨now⟩ else none
  let server := { server with request, headEnd }
  match parse with
  | .complete => return (← server.enter (.processing socket) now, none)
  | .reject code =>
    Poll.log .info s!"http: socket {socket.val} rejected with {code.toNat}"
    return (server, some code)
  | .needMore =>
    match headEnd with
    | some watch =>
      if watch.expired now server.settings.bodyTimeout then
        let length := request.head.contentLength
        Poll.log .debug s!"http: body short of {length} bytes, handling what arrived"
        return (← server.enter (.processing socket) now, none)
      else return (server, none)
    | none =>
      if server.accepted.expired now server.settings.requestTimeout then
        Poll.log .info s!"http: socket {socket.val} request timeout"
        return (server, some 408)
      else
        let status ← Nic.socketStatus socket
        if status.isConnected then return (server, none)
        else
          Poll.log .debug s!"http: socket {socket.val} left mid-request"
          return (← server.countFailure.enter (.closing socket false) now, none)

/-- Reads the request, or refuses it. -/
def receive (server : Server E) (network : Link.Status) (socket : SocketId) (now : Millis) :
    Poll (Server E) := do
  let (server, refused) ← server.hear socket now
  match refused with
  | some code => server.reject network socket code now
  | none => return server

def process (server : Server E) (socket : SocketId) (now : Millis) : Logged (Server E) :=
  match server.routes.lookup server.request.head.method server.request.path with
  | some route => server.enter (.handling socket route) now
  | none => server.enter (.failed socket) now

def answerTarget (handlers : E → Handler C) : Target E → Handler C
  | .page page => page.answer
  | .handler name => handlers name

/-- Answers a request that leads along a route. -/
def answerRoute (handlers : E → Handler C) : Route (Target E) → Handler C
  | .endpoint target => answerTarget handlers target
  | .file file => fun _ responder context => do
    return (← responder.sendFixed 200 file.contentType file.body, context)

/-- Answers a request that leads nowhere, through the application's handler for such if there is
one. -/
def answerNowhere (handlers : E → Handler C) : Option (Target E) → Handler C
  | some target => answerTarget handlers target
  | none => fun _ responder context => do
    return (← responder.sendText 404 "text/plain" "Not Found", context)

def handle (server : Server E) (handlers : E → Handler C) (network : Link.Status)
    (socket : SocketId) (route : Route (Target E)) (context : C) (now : Millis) :
    Poll (Server E × C) := do
  let (responder, context) ←
    answerRoute handlers route server.request (server.responder socket network) context
  let finished ← responder.finish
  let answered := { server with out := finished.out, reply := some (finished.status.getD 0) }
  return (← answered.deliver socket now, context)

/-- Answers a request that leads nowhere, which counts as a failure. -/
def handleNowhere (server : Server E) (handlers : E → Handler C) (network : Link.Status)
    (socket : SocketId) (context : C) (now : Millis) : Poll (Server E × C) := do
  let server := server.countFailure
  let head := server.request.head
  Poll.log .info s!"http: {head.method.verb} {head.uri} not found"
  let (responder, context) ← answerNowhere handlers server.routes.notFound server.request
    (server.responder socket network) context
  let finished ← responder.finish
  return (← ({ server with out := finished.out }).deliver socket now, context)

/-- Feeds the rest of a response to the controller. The response is given up if the peer left or
stopped taking it. -/
def sendRest (server : Server E) (socket : SocketId) (now : Millis) : Poll (Server E) := do
  let status ← Nic.socketStatus socket
  if !status.isConnected then
    Poll.log .info s!"http: socket {socket.val} left with {server.out.pending} bytes unsent"
    server.abandonReply.enter (.closing socket false) now
  else
    let pumped ← server.out.pump socket server.settings.responseChunk
    let server := { server with
      out := pumped.out
      timer := if pumped.moved > 0 then ⟨now⟩ else server.timer }
    if server.out.isEmpty then server.complete socket now
    else if server.timer.expired now server.settings.sendTimeout then
      let unsent := server.out.pending
      Poll.log .warn s!"http: socket {socket.val} stopped reading, {unsent} bytes unsent"
      server.abandonReply.enter (.forceClosing socket) now
    else return server

/-- Closes the connection gracefully, and by force if that takes too long. -/
def close (server : Server E) (socket : SocketId) (asked : Bool) (now : Millis) :
    Poll (Server E) := do
  if !asked then Nic.disconnect socket
  let server := { server with phase := .closing socket true }
  let status ← Nic.socketStatus socket
  if status = .closed then server.enter .waiting now
  else if server.timer.expired now server.settings.closeTimeout then
    server.enter (.forceClosing socket) now
  else return server

def forceClose (server : Server E) (socket : SocketId) (now : Millis) : Poll (Server E) := do
  Poll.log .warn s!"http: socket {socket.val} did not close, forcing"
  Nic.close socket
  server.abandonReply.enter .waiting now

def dropConnection (server : Server E) (now : Millis) : Poll (Server E) := do
  match server.phase.socket with
  | none => return server.abandonReply
  | some socket =>
    Poll.log .warn s!"http: network down, dropping socket {socket.val}"
    Nic.close socket
    server.abandonReply.enter .waiting now

def advance (server : Server E) (handlers : E → Handler C) (network : Link.Status) (context : C)
    (now : Millis) : Poll (Server E × C) := do
  match server.phase with
  | .waiting => return (← server.accept now, context)
  | .receiving socket => return (← server.receive network socket now, context)
  | .processing socket => return (← server.process socket now, context)
  | .handling socket route => server.handle handlers network socket route context now
  | .sending socket => return (← server.sendRest socket now, context)
  | .failed socket => server.handleNowhere handlers network socket context now
  | .closing socket asked => return (← server.close socket asked now, context)
  | .forceClosing socket => return (← server.forceClose socket now, context)

/-- One step of the server: drop the connection if the network is down, else scan the sockets if a
scan is due and make one transition. -/
def update (server : Server E) (handlers : E → Handler C) (network : Link.Status) (context : C)
    (now : Millis) : Poll (Server E × C) := do
  if network.ready then
    let server ← server.pollSockets now
    server.advance handlers network context now
  else return (← server.dropConnection now, context)

end Server

end BoardNet.Http
