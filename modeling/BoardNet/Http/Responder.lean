import BoardNet.Http.Outbox
import BoardNet.Http.Request
import BoardNet.Http.Settings
import BoardNet.Link.Status

namespace BoardNet.Http

def responseHeadCapacity : Nat := 192

/-- A response while a handler makes it. -/
structure Responder where
  socket : SocketId
  /-- Most bytes in one write to the controller. -/
  chunk : Nat
  out : Outbox
  /-- The link at the time of the request. -/
  network : Link.Status
  /-- The counters at the time of the request. -/
  stats : Stats
  /-- The status in the head, once there is one. -/
  status : Option Code := none
  /-- Bytes made so far, sent or not. -/
  produced : Nat := 0
  deriving DecidableEq, Repr

namespace Responder

/-- A response on `socket` that has not begun. -/
def start (socket : SocketId) (chunk : Nat) (out : Outbox) (network : Link.Status)
    (stats : Stats) : Responder :=
  { socket, chunk := clampChunk chunk, out, network, stats }

/-- Hands bytes to the outbox, and from there to the controller whenever a chunk has come together
or there is no space. What finds no space even then is lost, and the outbox marked. -/
def push (responder : Responder) (data : List UInt8) : Poll Responder := do
  if data = [] then return responder
  else
    let staged := min data.length responder.out.space
    let out := responder.out.stage data
    if staged = 0 ∨ out.buffer.length ≥ responder.chunk then
      let pumped ← out.pump responder.socket responder.chunk
      if _stuck : staged = 0 ∧ pumped.moved = 0 then
        if !pumped.out.overflowed then
          Poll.log .warn
            s!"http: socket {responder.socket.val} outbox full, {data.length} bytes lost"
        return { responder with out := { pumped.out with overflowed := true } }
      else ({ responder with out := pumped.out }).push (data.drop staged)
    else ({ responder with out }).push (data.drop staged)
termination_by 2 * data.length + responder.out.pending
decreasing_by
  all_goals
    have length := List.length_pos_iff.mpr ‹data ≠ []›
    have staging : out.pending = responder.out.pending + staged := responder.out.pending_stage data
    simp only [List.length_drop]
  · have balance := pumped.balance
    omega
  · change 2 * (data.length - staged) + out.pending < _
    omega

/-- Appends bytes to the body. -/
def write (responder : Responder) (data : List UInt8) : Poll Responder :=
  { responder with produced := responder.produced + data.length }.push data

/-- The word after the code on the status line. -/
def reason (code : Code) : String := if 200 ≤ code ∧ code < 300 then "OK" else "NOT OK"

/-- The head of a response, in the bytes that there are for it. The status line and type, the
length if there is one, and the end are each cut where they would not fit. -/
def headText (code : Code) (contentType : String) (length : Option Nat) : String :=
  let opening := Text.fitting responseHeadCapacity
    ["HTTP/1.1 ", Text.decimal code.toNat, " ", reason code, "\r\nContent-Type: ", contentType,
      "\r\n"]
  let measured := match length with
    | none => opening
    | some bytes => Text.appendFitting responseHeadCapacity opening
      ["Content-Length: ", Text.decimal bytes, "\r\n"]
  Text.push responseHeadCapacity measured "Connection: close\r\n\r\n"

/-- A second head was asked for, which is only put on record. -/
def refuseSecondHead (responder : Responder) : Poll Responder := do
  Poll.log .warn "http: response header sent twice"
  return responder

/-- Begins a response. Without a length its body runs to the close. -/
def sendHead (responder : Responder) (code : Code) (contentType : String) (length : Option Nat) :
    Poll Responder :=
  if responder.status.isSome then responder.refuseSecondHead
  else { responder with status := some code }.write (Text.bytes (headText code contentType length))

/-- A complete response with the length of its body. -/
def send (responder : Responder) (code : Code) (contentType : String) (body : List UInt8) :
    Poll Responder := do
  let begun ← responder.sendHead code contentType (some body.length)
  begun.write body

def sendText (responder : Responder) (code : Code) (contentType body : String) :
    Poll Responder :=
  responder.send code contentType (Text.bytes body)

/-- A complete response with a fixed body, which is not copied into the outbox. -/
def sendFixed (responder : Responder) (code : Code) (contentType : String)
    (body : List UInt8) : Poll Responder := do
  if responder.status.isSome then responder.refuseSecondHead
  else
    let begun ← responder.sendHead code contentType (some body.length)
    return { begun with
      out := { begun.out with tail := body }
      produced := begun.produced + body.length }

/-- Hands the controller what it will take now. -/
def finish (responder : Responder) : Poll Responder := do
  let pumped ← responder.out.pump responder.socket responder.chunk
  return { responder with out := pumped.out }

end Responder

/-- What answers a request: it makes a response and may change the application's state. -/
abbrev Handler (C : Type) := Request → Responder → C → Poll (Responder × C)

end BoardNet.Http
