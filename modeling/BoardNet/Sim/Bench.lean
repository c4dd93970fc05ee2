import BoardNet.Sim.Fault
import BoardNet.Sim.Registration

namespace BoardNet.Sim

/-- The engines that can be stepped on a bench. -/
inductive Part where
  | link
  | http
  | webSocket
  /-- All three as one board, behind the arbiter. -/
  | board
  deriving DecidableEq, Repr

/-- The link that engines without a supervisor are told of. -/
def steadyLink : Link.Status where
  state := .idle
  ready := true
  busy := false
  link := .on
  server := true
  ip := ⟨10, 0, 0, 42⟩
  mac := ⟨0x1E, 7, 1, 2, 3, 4⟩
  initCycles := 1
  retries := 0
  hardResets := 0
  softResets := 0

structure Setup where
  addressing : Addressing := {}
  timings : Link.Timings := {}
  mac : Mac := steadyLink.mac
  /-- The link that single servers are told of. -/
  network : Link.Status := steadyLink
  /-- Service ports of a link supervisor, if there is one. -/
  ports : Option (List UInt16) := none
  http : Option Http.Settings := none
  webSocket : Option WebSocket.Settings := none
  /-- Settings of a socket watch of its own. -/
  watch : Option Http.Settings := none
  /-- The engines are parts of a board. -/
  asBoard : Bool := false
  /-- Notices are heard. -/
  hooked : Bool := true
  /-- The application listens to messages. -/
  listening : Bool := true
  /-- Single engines and direct calls go through the arbiter too. -/
  arbitrated : Bool := false
  logLimit : Option Log.Level := none
  deriving Repr

structure Bench where
  rig : Rig := {}
  arbiter : Option Bus.Arbiter := none
  link : Option Link.Supervisor := none
  http : Option (Http.Server (Fin scriptCount)) := none
  webSocket : Option WebSocket.Server := none
  watch : Option (Http.SlotWatch × Http.Settings) := none
  /-- The link that single servers are told of. -/
  network : Link.Status := steadyLink
  journal : Journal := {}
  hooked : Bool := true
  listening : Bool := true
  arbitrated : Bool := false
  logLimit : Option Log.Level := none
  /-- Records kept and notices heard since the last look. -/
  records : List Log.Record := []
  notices : List Notice := []

namespace Bench

/-- Keeps the records that the log's limit lets through. -/
def keepRecords (bench : Bench) (records : List Log.Record) : Bench :=
  { bench with records := bench.records ++ records.filter (·.keptAt bench.logLimit) }

/-- Takes the value of a result and keeps its records. -/
def keep {α : Type} (bench : Bench) (result : Logged α) : α × Bench :=
  (result.value, bench.keepRecords result.records)

/-- Forgets what was put out, once it has been looked at. -/
def forget (bench : Bench) : Bench :=
  { bench with
    records := []
    notices := []
    journal := { bench.journal with played := [], heard := [] } }

/-- Runs a step on the controller, through the arbiter if that is asked for. -/
def run {α : Type} (bench : Bench) (arbitrated : Bool) (step : Poll α) : α × Bench :=
  match arbitrated, bench.arbiter with
  | true, some arbiter =>
    let ran := step.run (Bus.arbitrated Rig.chip) (arbiter, bench.rig)
    (ran.value, collect { bench with arbiter := some ran.state.1, rig := ran.state.2 } ran.output)
  | _, _ =>
    let ran := step.run Rig.chip bench.rig
    (ran.value, collect { bench with rig := ran.state } ran.output)
where
  collect (bench : Bench) (output : List Output) : Bench :=
    let ran : Ran Unit Unit := ⟨(), (), output⟩
    let kept := bench.keepRecords ran.records
    if bench.hooked then { kept with notices := kept.notices ++ ran.notices } else kept

def call {α : Type} (bench : Bench) (step : Poll α) : α × Bench := bench.run bench.arbitrated step

def ofSetup (setup : Setup) : Bench :=
  let bare : Bench := {
    arbiter :=
      if setup.asBoard || setup.arbitrated then some (.take {} none none) else none
    watch := setup.watch.map ({}, ·)
    network := setup.network
    hooked := setup.hooked
    listening := setup.listening
    arbitrated := setup.arbitrated
    logLimit := setup.logLimit }
  if setup.asBoard then
    let (board, bench) := bare.keep (Board.start {} setup.mac setup.addressing setup.timings
      (setup.http.getD {}) (setup.webSocket.getD {}))
    { bench with
      link := some board.link, http := some board.http, webSocket := some board.webSocket }
  else
    let engines := { bare with
      http := setup.http.map ({ settings := · })
      webSocket := setup.webSocket.map ({ settings := · }) }
    match setup.ports with
    | none => engines
    | some ports =>
      let (link, bench) := engines.keep
        (Link.Supervisor.start {} setup.mac setup.addressing setup.timings ports)
      { bench with link := some link }

def application (bench : Bench) : Application (Fin scriptCount) Journal :=
  Sim.application bench.listening

def updateLink (bench : Bench) (now : Millis) : Bench :=
  match bench.link with
  | none => bench
  | some link =>
    let (link, bench) := bench.call (link.update now)
    { bench with link := some link }

def updateHttp (bench : Bench) (now : Millis) : Bench :=
  match bench.http with
  | none => bench
  | some http =>
    let ((http, journal), bench) := bench.call
      (http.update bench.application.handlers bench.network bench.journal now)
    { bench with http := some http, journal }

def updateWebSocket (bench : Bench) (now : Millis) : Bench :=
  match bench.webSocket with
  | none => bench
  | some webSocket =>
    let ((webSocket, journal), bench) := bench.call
      (webSocket.update bench.application.messages bench.network bench.journal now)
    { bench with webSocket := some webSocket, journal }

/-- One step of the whole board, and the link as its servers saw it. -/
def updateBoard (bench : Bench) (now : Millis) : Option Link.Status × Bench :=
  match bench.link, bench.http, bench.webSocket with
  | some link, some http, some webSocket =>
    let board : Board (Fin scriptCount) := { link, http, webSocket }
    let ((status, board, journal), bench) := bench.run true
      (board.poll bench.application bench.journal now)
    (some status, { bench with
      link := some board.link
      http := some board.http
      webSocket := some board.webSocket
      journal })
  | _, _, _ => (none, bench)

def update (bench : Bench) (part : Part) (now : Millis) : Bench :=
  match part with
  | .link => bench.updateLink now
  | .http => bench.updateHttp now
  | .webSocket => bench.updateWebSocket now
  | .board => (bench.updateBoard now).2

/-- What each engine on the bench is doing. -/
def states (bench : Bench) : List String :=
  (bench.link.map fun link => link.state.name).toList ++
    (bench.http.map fun http => http.phase.name).toList ++
    (bench.webSocket.map fun webSocket =>
      webSocket.slots.toList.map fun slot => slot.client.phase.name).getD []

/-- Steps a part some times, at equal distances. After every step the peer acknowledges what was
sent on `acked`. Answers when the engines changed what they do, and to what. -/
def repeatUpdate (part : Part) (acked : Option SocketId) (distance : Millis) :
    (times : Nat) → Millis → Bench → List (Millis × List String) × Bench
  | 0, _, bench => ([], bench)
  | times + 1, now, bench =>
    let stepped := bench.update part now
    let after := match acked with
      | none => stepped
      | some socket => { stepped with
        rig := { stepped.rig with nic := stepped.rig.nic.acknowledge socket } }
    let (changes, ended) := repeatUpdate part acked distance times (now + distance) after
    (if after.states = bench.states then changes else (now, after.states) :: changes, ended)

end Bench

end BoardNet.Sim
