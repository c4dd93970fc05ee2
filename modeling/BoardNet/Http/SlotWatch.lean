import BoardNet.Http.Settings
import BoardNet.Nic.Scan

/-!
Watch over the hardware sockets. A pulled cable can leave a socket half closed, or connected to a
peer that is gone, and nothing else takes it back. The watch remembers what each socket showed and
since when, closes those that stay stuck, and opens the service listener anew if it is missing.
-/

namespace BoardNet.Http

/-- What a socket showed, and when the watch first saw it so. -/
structure Shadow where
  status : SocketStatus := .closed
  port : UInt16 := 0
  since : Millis := 0
  deriving DecidableEq, Repr, Inhabited

structure Sweep where
  closed : Nat := 0
  restarted : Bool := false
  deriving DecidableEq, Repr

structure SlotWatch where
  shadows : Vector Shadow maxSockets := Vector.replicate maxSockets {}
  timer : Stopwatch := {}
  deriving DecidableEq, Repr

namespace SlotWatch

/-- A socket that has shown the same for `age` milliseconds is stuck: half closed for longer than
the limit, or connected on the service port for twice as long with nothing to read. Only of the
latter the controller is asked for more. -/
def isStuck (settings : Settings) (socket : SocketId) (shadow : Shadow) (age : Millis) :
    Poll Bool := do
  if shadow.status.isTransitional then return age > settings.staleSocket
  else if shadow.status = .established ∧ shadow.port = settings.port ∧
      age > 2 * settings.staleSocket then
    return (← Nic.rxAvailable socket) = 0
  else return false

/-- Looks at one socket: remembers what is new, and closes it if it is stuck, unless it is the one
that serves a request. Answers what to remember and whether the socket was closed. -/
def inspect (settings : Settings) (active : Option SocketId) (now : Millis) (socket : SocketId)
    (shadow : Shadow) : Poll (Shadow × Bool) := do
  let status ← Nic.socketStatus socket
  let port ← Nic.socketPort socket
  if status ≠ shadow.status ∨ port ≠ shadow.port then return (⟨status, port, now⟩, false)
  else if some socket = active then return (shadow, false)
  else
    let age := elapsed now shadow.since
    if ← isStuck settings socket shadow age then
      Poll.log .warn
        s!"http: socket {socket.val} stuck in {status.name} for {age.toNat} ms, closing"
      Nic.close socket
      return (⟨.closed, 0, now⟩, true)
    else return (shadow, false)

/-- Looks at some sockets in turn, counting those it closes. -/
def inspectAll (settings : Settings) (active : Option SocketId) (now : Millis) :
    List SocketId → SlotWatch → Nat → Poll (SlotWatch × Nat)
  | [], watch, closed => return (watch, closed)
  | socket :: sockets, watch, closed => do
    let (shadow, wasClosed) ←
      inspect settings active now socket (watch.shadows.get socket)
    inspectAll settings active now sockets
      { watch with shadows := watch.shadows.set socket shadow }
      (if wasClosed then closed + 1 else closed)

def restoreListener (settings : Settings) : Poll Bool := do
  if ← Nic.isListening settings.port then return false
  else match ← Nic.listen settings.port with
    | .ok socket =>
      Poll.log .warn
        s!"http: no listener on {settings.port.toNat}, restarted on socket {socket.val}"
      return true
    | .error error =>
      Poll.log .error s!"http: listener restart failed: {error.message}"
      return false

/-- One scan. The `active` socket serves a request and is never closed. -/
def check (watch : SlotWatch) (settings : Settings) (active : Option SocketId) (now : Millis) :
    Poll (SlotWatch × Sweep) := do
  let count ← Nic.socketCount
  let (watch, closed) ← inspectAll settings active now (Nic.sockets count) watch 0
  let restarted ← restoreListener settings
  return (watch, { closed, restarted })

/-- A scan, if the last one is long enough ago. -/
def poll (watch : SlotWatch) (settings : Settings) (active : Option SocketId) (now : Millis) :
    Poll (SlotWatch × Option Sweep) := do
  if watch.timer.elapsed now < settings.monitorInterval then return (watch, none)
  else
    let (watch, sweep) ← ({ watch with timer := ⟨now⟩ }).check settings active now
    return (watch, some sweep)

end SlotWatch

end BoardNet.Http
