import BoardNet.Http.Responder
import BoardNet.Http.Routes

namespace BoardNet.Http

inductive StatusPage where
  | network
  | sockets
  | ping
  deriving DecidableEq, Repr

namespace StatusPage

def path : StatusPage → String
  | .network => "/api/network-status"
  | .sockets => "/api/socket-status"
  | .ping => "/ping"

/-- Registers the pages in turn, up to the first for which there is no space. -/
def install {E : Type} (target : StatusPage → E) (routes : Routes E) :
    Logged (Except RouteError Unit × Routes E) :=
  register [.network, .sockets, .ping] routes
where
  register : List StatusPage → Routes E → Logged (Except RouteError Unit × Routes E)
    | [], routes => return (.ok (), routes)
    | page :: pages, routes => do
      match ← routes.on .get page.path (target page) with
      | .ok routes => register pages routes
      | .error error => return (.error error, routes)

def jsonBool (value : Bool) : String := if value then "true" else "false"

def linkWord : LinkStatus → String
  | .on => "up"
  | .off => "down"
  | .unknown => "unknown"

/-- The formatted writes that make up the body of the network page, each with its pieces. -/
def networkPieces (network : Link.Status) : List (List String) :=
  [["\x7b\"state\":\"", network.state.name, "\",\"ready\":", jsonBool network.ready,
      ",\"busy\":", jsonBool network.busy, ","],
    ["\"link\":\"", linkWord network.link, "\",\"server\":", jsonBool network.server, ","],
    ["\"ip\":\"", network.ip.text, "\",\"mac\":\"", network.mac.text, "\","],
    ["\"init_cycles\":", Text.decimal network.initCycles.toNat, ",\"retries\":",
      Text.decimal network.retries.toNat, ","],
    ["\"hard_resets\":", Text.decimal network.hardResets.toNat, ",\"soft_resets\":",
      Text.decimal network.softResets.toNat, "\x7d"]]

def networkCapacity : Nat := 512

def networkBody (network : Link.Status) : String :=
  (networkPieces network).foldl (Text.appendFitting networkCapacity) ""

/-- What the sockets page says of one socket. -/
structure SocketReport where
  socket : SocketId
  status : SocketStatus
  port : UInt16
  deriving DecidableEq, Repr

/-- Asks the controller about some sockets in turn. -/
def report : List SocketId → Poll (List SocketReport)
  | [] => return []
  | socket :: others => do
    let status ← Nic.socketStatus socket
    let port ← Nic.socketPort socket
    let rest ← report others
    return ⟨socket, status, port⟩ :: rest

def socketsCapacity : Nat := 768

/-- Writes one socket, after a comma unless it is the first. -/
def appendSocket (body : String) (entry : SocketReport) : String :=
  let separated :=
    if entry.socket.val = 0 then body else Text.push socketsCapacity body ","
  Text.appendFitting socketsCapacity separated
    ["\x7b\"id\":", Text.decimal entry.socket.val, ",\"status\":\"", entry.status.name,
      "\",\"port\":", Text.decimal entry.port.toNat, "\x7d"]

def socketsBody (stats : Stats) (sockets : List SocketReport) : String :=
  let requests := Text.fitting socketsCapacity
    ["\x7b\"requests\":\x7b\"success\":", Text.decimal stats.succeeded.toNat, ",\"failed\":",
      Text.decimal stats.failed.toNat, "\x7d,"]
  let opening := Text.appendFitting socketsCapacity requests
    ["\"server_restarts\":", Text.decimal stats.restarts.toNat, ",\"sockets_reclaimed\":",
      Text.decimal stats.reclaimed.toNat, ",\"sockets\":["]
  Text.push socketsCapacity (sockets.foldl appendSocket opening) "]\x7d"

def answer {C : Type} (page : StatusPage) : Handler C := fun _ responder context => do
  match page with
  | .ping => return (← responder.sendText 200 "text/plain" "pong", context)
  | .network =>
    let body := networkBody responder.network
    return (← responder.sendText 200 "application/json" body, context)
  | .sockets =>
    let count ← Nic.socketCount
    let entries ← report (Nic.sockets count)
    let body := socketsBody responder.stats entries
    return (← responder.sendText 200 "application/json" body, context)

end StatusPage

end BoardNet.Http
