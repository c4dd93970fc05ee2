import BoardNet.Bus
import BoardNet.Http.Server
import BoardNet.Link.Supervisor
import BoardNet.WebSocket.Server

namespace BoardNet

/-- What the application does with requests to its endpoints, named by values of type `E`, and with
text messages; it keeps a state of type `C`. -/
structure Application (E C : Type) where
  handlers : E → Http.Handler C
  messages : WebSocket.MessageHandler C

structure Board (E : Type) where
  link : Link.Supervisor
  http : Http.Server E
  webSocket : WebSocket.Server
  deriving DecidableEq

namespace Board

variable {E C : Type}

/-- A board that is about to bring its link up, with the built-in pages registered. -/
def start (resetLine : Pin) (mac : Mac) (addressing : Addressing) (timings : Link.Timings)
    (http : Http.Settings) (webSocket : WebSocket.Settings) : Logged (Board E) := do
  let link ← Link.Supervisor.start resetLine mac addressing timings [http.port, webSocket.port]
  let (_, routes) ← Http.StatusPage.install .page {}
  return { link, http := { settings := http, routes }, webSocket := { settings := webSocket } }

/-- One step of the board. Answers the link as both servers saw it. -/
def poll (board : Board E) (application : Application E C) (context : C) (now : Millis) :
    Poll (Link.Status × Board E × C) := do
  let link ← board.link.update now
  let (http, context) ← board.http.update application.handlers link.status context now
  let (webSocket, context) ←
    board.webSocket.update application.messages link.status context now
  return (link.status, { link, http, webSocket }, context)

end Board

end BoardNet
