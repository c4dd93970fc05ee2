import BoardNet.Proofs.WebSocket.Likeness
import BoardNet.Proofs.WebSocket.Transcript

namespace BoardNet.WebSocket

/-- Of what a slot was before, a connection that it takes over only leaves the count of lost frames
and where in the ring the queue begins. -/
theorem Slot.attach_alike {slot other : Slot} (same : other.client.id = slot.client.id)
    (socket : SocketId) (remote : Ipv4) (now : Millis) :
    (slot.attach socket remote now).Alike (other.attach socket remote now) := by
  obtain ⟨⟨id, phase, peer, tx, subscriptions, dropped⟩⟩ := other
  obtain rfl : id = slot.client.id := same
  refine .swap (.swap tx.clear dropped ?_)
  change tx.clear.toList = slot.client.tx.clear.toList
  rw [Ring.toList_clear, Ring.toList_clear]

namespace Server

def onClient (server : Server) (id : Fin maxClients) (change : Client → Logged (Bool × Client)) :
    Logged (Nat × Server) := do
  let (done, client) ← change (server.client id)
  return (done.toNat, server.setClient id client)

end Server

/-- What the application does between updates. Whom it chooses for a frame may depend on all that it
can learn of a client but the count of lost frames. -/
inductive Act where
  | emit (topic text : String) (properties : List Property)
  | emitBinary (topic : String) (data : List UInt8)
  | broadcast (opcode : Opcode) (payload : List UInt8) (chosen : Client → Bool)
      (discreet : ∀ {client other}, client.Alike other → chosen other = chosen client)
  | sendTo (id : Nat) (text : String)
  | queue (id : Fin maxClients) (opcode : Opcode) (payload : List UInt8)
  | subscribe (id : Fin maxClients) (topic : String)
  | unsubscribe (id : Fin maxClients) (topic : String)

/-- Does it with a server. Answers what the application is told, a success being 1. -/
def Act.perform (server : Server) : Act → Logged (Nat × Server)
  | .emit topic text properties => server.emit topic text properties
  | .emitBinary topic data => server.emitBinary topic data
  | .broadcast opcode payload chosen _ => server.broadcastFrame opcode payload chosen
  | .sendTo id text => do
    let (sent, server) ← server.sendTo id text
    return (sent.toNat, server)
  | .queue id opcode payload => server.onClient id (·.queueFrame opcode payload)
  | .subscribe id topic => server.onClient id fun client => return client.subscribe topic
  | .unsubscribe id topic => server.onClient id fun client => return client.unsubscribe topic

structure Server.Alike (server other : Server) : Prop where
  settings : other.settings = server.settings
  stats : other.stats = server.stats
  slots : ∀ id, (server.slots.get id).Alike (other.slots.get id)

namespace Server.Alike

variable {C : Type} {server other : Server} {handler : MessageHandler C} {now : Millis}
  {context : C} {network : Link.Status} {ids : List (Fin maxClients)}

theorem client (alike : server.Alike other) (id : Fin maxClients) :
    (server.client id).Alike (other.client id) :=
  (alike.slots id).client

theorem phase (alike : server.Alike other) (id : Fin maxClients) :
    (other.client id).phase = (server.client id).phase :=
  (alike.client id).phase

theorem holds (alike : server.Alike other) : other.holds = server.holds := by
  funext socket
  simp only [Server.holds, alike.phase]

theorem vacant? (alike : server.Alike other) : other.vacant? = server.vacant? := by
  simp only [Server.vacant?, alike.phase]

theorem refl (server : Server) : server.Alike server :=
  ⟨rfl, rfl, fun id => .swap (.refl (server.client id))⟩

theorem setSlot (alike : server.Alike other) (id : Fin maxClients) {slot replaced : Slot}
    (slots : slot.Alike replaced) : (server.setSlot id slot).Alike (other.setSlot id replaced) where
  settings := alike.settings
  stats := alike.stats
  slots another := by
    unfold Server.setSlot
    dsimp only
    by_cases own : id = another
    · subst own
      rw [get_set_self, get_set_self]
      exact slots
    · rw [get_set_other own, get_set_other own]
      exact alike.slots another

theorem setClient (alike : server.Alike other) (id : Fin maxClients) {client replaced : Client}
    (clients : client.Alike replaced) :
    (server.setClient id client).Alike (other.setClient id replaced) :=
  alike.setSlot id ((alike.slots id).withClient clients)

theorem withStats (alike : server.Alike other) (stats : Stats) :
    Server.Alike { server with stats } { other with stats } :=
  ⟨alike.settings, rfl, alike.slots⟩

/-- A connection is taken over in the same slot, and what was in it before is forgotten. -/
theorem welcome (alike : server.Alike other) (socket : SocketId) :
    Poll.Coupled Server.Alike (server.welcome socket now) (other.welcome socket now) := by
  unfold Server.welcome
  rw [alike.vacant?, alike.stats]
  refine .next fun remote => ?_
  cases server.vacant? with
  | some id =>
    have attached := Slot.attach_alike (alike.client id).id socket remote now
    exact .next fun _ => .done ((alike.setSlot id attached).withStats _)
  | none => exact .next fun _ => .next fun _ => .done (alike.withStats _)

theorem admitAll (alike : server.Alike other) (most : Nat) :
    Poll.Coupled (Seconds Server.Alike) (server.admitAll now most)
      (other.admitAll now most) := by
  induction most generalizing server other with
  | zero => exact .done ⟨rfl, alike⟩
  | succ most ih =>
    unfold Server.admitAll
    rw [alike.holds, alike.settings]
    refine .next fun found => ?_
    cases found with
    | none => exact .done ⟨rfl, alike⟩
    | some socket =>
      refine (alike.welcome socket).bind fun admitted => (ih admitted).bind ?_
      rintro ⟨_, after⟩ ⟨_, also⟩ ⟨_, ends⟩
      exact .done ⟨rfl, ends⟩

theorem relisten (alike : server.Alike other) :
    Poll.Coupled Server.Alike server.relisten other.relisten := by
  unfold Server.relisten
  rw [alike.settings]
  refine .next fun listening => .ite (fun _ => .done alike) fun _ => .next fun opened => ?_
  cases opened with
  | ok => exact .done alike
  | error error => exact .next fun _ => .done alike

theorem accept (alike : server.Alike other) :
    Poll.Coupled Server.Alike (server.accept now) (other.accept now) := by
  refine (alike.admitAll maxSockets).bind ?_
  rintro ⟨any, admitted⟩ ⟨_, also⟩ ⟨rfl, ends⟩
  exact .ite (fun _ => ends.relisten) fun _ => .done ends

theorem turn (alike : server.Alike other) (id : Fin maxClients) (context : C) :
    Turn.Alike ⟨server.slots.get id, server.stats, context⟩
      ⟨other.slots.get id, other.stats, context⟩ := by
  rw [alike.stats]
  exact .swap (alike.slots id)

theorem serviceAllNoting (alike : server.Alike other) (discreet : Discreet handler)
    (context : C) :
    Poll.Coupled (Firsts (Firsts Server.Alike))
      (serviceAllNoting handler now ids server context)
      (Server.serviceAllNoting handler now ids other context) := by
  induction ids generalizing server other context with
  | nil => exact .done ⟨⟨alike, rfl⟩, rfl⟩
  | cons id ids ih =>
    unfold Server.serviceAllNoting
    rw [alike.settings]
    refine ((alike.turn id context).serviceNoting discreet).bind ?_
    rintro ⟨ended, events⟩ ⟨_, _⟩ ⟨⟨slots⟩, rfl⟩
    have serviced := (alike.setSlot id slots).withStats ended.stats
    refine (ih serviced ended.context).bind ?_
    rintro ⟨result, notes⟩ ⟨_, _⟩ ⟨results, rfl⟩
    exact .done ⟨results, rfl⟩

theorem serviceAll (alike : server.Alike other) (discreet : Discreet handler) (context : C) :
    Poll.Coupled (Firsts Server.Alike) (serviceAll handler now ids server context)
      (Server.serviceAll handler now ids other context) := by
  rw [← fst_serviceAllNoting, ← fst_serviceAllNoting]
  exact (alike.serviceAllNoting discreet context).map And.left

theorem dropAll (alike : server.Alike other) (reason : String) :
    Poll.Coupled Server.Alike (dropAll reason ids server)
      (Server.dropAll reason ids other) := by
  induction ids generalizing server other with
  | nil => exact .done alike
  | cons id ids ih =>
    unfold Server.dropAll
    rw [alike.phase]
    refine .ite (fun _ => ih alike) fun _ => .next fun _ => ?_
    refine (alike.turn id ()).forceClose.bind ?_
    rintro ended _ ⟨slots⟩
    exact ih ((alike.setSlot id slots).withStats ended.stats)

theorem updateNoting (alike : server.Alike other) (discreet : Discreet handler) (context : C) :
    Poll.Coupled (Firsts (Firsts Server.Alike))
      (server.updateNoting handler network context now)
      (other.updateNoting handler network context now) := by
  refine .next fun link => .ite (fun _ => ?_) fun _ => .ite (fun _ => ?_) fun _ => ?_
  · exact (alike.dropAll _).bind fun ends => .done ⟨⟨ends, rfl⟩, rfl⟩
  · exact (alike.dropAll _).bind fun ends => .done ⟨⟨ends, rfl⟩, rfl⟩
  · exact alike.accept.bind fun ends => ends.serviceAllNoting discreet context

/-- A whole update cannot tell such servers apart. -/
theorem update (alike : server.Alike other) (discreet : Discreet handler) (context : C) :
    Poll.Coupled (Firsts Server.Alike) (server.update handler network context now)
      (other.update handler network context now) := by
  rw [← fst_updateNoting, ← fst_updateNoting]
  exact (alike.updateNoting discreet context).map And.left

theorem broadcastTo (alike : server.Alike other) (opcode : Opcode) (payload : List UInt8)
    {chosen : Client → Bool}
    (discreet : ∀ {client replaced}, client.Alike replaced → chosen replaced = chosen client) :
    Logged.Coupled (Seconds Server.Alike) (broadcastTo opcode payload chosen ids server)
      (Server.broadcastTo opcode payload chosen ids other) := by
  induction ids generalizing server other with
  | nil => exact .done ⟨rfl, alike⟩
  | cons id ids ih =>
    have clients := alike.client id
    unfold Server.broadcastTo
    dsimp only
    rw [clients.isConnected, discreet clients]
    refine .ite (fun _ => (clients.queueFrame opcode payload).bind ?_) fun _ => ih alike
    rintro ⟨queued, client⟩ ⟨_, replaced⟩ ⟨rfl, ends⟩
    refine (ih (alike.setClient id ends)).bind ?_
    rintro ⟨count, after⟩ ⟨_, also⟩ ⟨rfl, ends⟩
    exact .done ⟨rfl, ends⟩

theorem sendTo (alike : server.Alike other) (id : Nat) (text : String) :
    (server.sendTo id text).Coupled (Seconds Server.Alike) (other.sendTo id text) := by
  unfold Server.sendTo
  by_cases known : id < maxClients
  · rw [dif_pos known, dif_pos known]
    refine ((alike.client ⟨id, known⟩).queueFrame .text (Text.bytes text)).bind ?_
    rintro ⟨queued, client⟩ ⟨_, replaced⟩ ⟨rfl, ends⟩
    exact .done ⟨rfl, alike.setClient _ ends⟩
  · rw [dif_neg known, dif_neg known]
    exact .done ⟨rfl, alike⟩

theorem onClient (alike : server.Alike other) (id : Fin maxClients)
    {change : Client → Logged (Bool × Client)}
    (discreet : ∀ {client replaced : Client}, client.Alike replaced →
      (change client).Coupled (Seconds Client.Alike) (change replaced)) :
    (server.onClient id change).Coupled (Seconds Server.Alike) (other.onClient id change) := by
  refine (discreet (alike.client id)).bind ?_
  rintro ⟨done, client⟩ ⟨_, replaced⟩ ⟨rfl, ends⟩
  exact .done ⟨rfl, alike.setClient id ends⟩

theorem perform (alike : server.Alike other) (act : Act) :
    (act.perform server).Coupled (Seconds Server.Alike) (act.perform other) := by
  cases act with
  | emit topic text properties => exact alike.broadcastTo _ _ fun clients => clients.wants _ _
  | emitBinary topic data => exact alike.broadcastTo _ _ fun clients => clients.wants _ _
  | broadcast opcode payload chosen discreet => exact alike.broadcastTo _ _ discreet
  | sendTo id text =>
    refine (alike.sendTo id text).bind ?_
    rintro ⟨sent, after⟩ ⟨_, also⟩ ⟨rfl, ends⟩
    exact .done ⟨rfl, ends⟩
  | queue id opcode payload => exact alike.onClient id (·.queueFrame opcode payload)
  | subscribe id topic => exact alike.onClient id fun clients => .done (clients.subscribe topic)
  | unsubscribe id topic =>
    exact alike.onClient id fun clients => .done (clients.unsubscribe topic)

end Server.Alike

structure Scene (σ C : Type) where
  server : Server
  context : C
  nic : σ

namespace Scene

variable {σ C : Type}

inductive Deed where
  | update (network : Link.Status) (now : Millis)
  /-- The rest of an update in which a client took over a connection. -/
  | rest (now : Millis) (most : Nat)
  | act (what : Act)

/-- A step of a server. The controller and the state of the application may become anything before,
by what they were. -/
structure Step (σ C : Type) where
  nic : σ → σ := id
  context : C → C := id
  deed : Deed

/-- What comes of a step besides the server: an answer to the application, and the application's
state. -/
structure Report (C : Type) where
  answer : Nat := 0
  context : C

/-- What shows of a client: whom it talks to, what is queued for it, and what it has subscribed
to. -/
structure Shown where
  phase : Phase
  remote : Ipv4
  queued : List UInt8
  subscriptions : Subscriptions

/-- What shows of a step: the exchanges with the controller, the events that the server acted on,
the report, the counters and the clients. -/
structure Seen (C : Type) where
  exchanges : List Exchange
  notes : Notes
  report : Report C
  stats : Stats
  clients : List Shown

end Scene

def Client.shown (client : Client) : Scene.Shown where
  phase := client.phase
  remote := client.remote
  queued := client.tx.toList
  subscriptions := client.subscriptions

theorem Client.Alike.shown {client other : Client} (alike : client.Alike other) :
    other.shown = client.shown := by
  obtain ⟨tx, dropped, same⟩ := alike
  rw [Client.shown, Client.shown, same]

namespace Scene

variable {σ C : Type} (handler : MessageHandler C) (chip : Chip σ) (scene : Scene σ C)

def Deed.run (server : Server) (context : C) : Deed → Poll (Server × Report C)
  | .update network now => do
    let (server, context) ← server.update handler network context now
    return (server, { context })
  | .rest now most => do
    let (_, server) ← server.admitAll now most
    let server ← server.relisten
    let (server, context) ← server.serviceAll handler now (List.finRange maxClients) context
    return (server, { context })
  | .act what => do
    let (answer, server) ← what.perform server
    return (server, { answer, context })

def Deed.notes (server : Server) (context : C) : Deed → Poll Notes
  | .update network now => Prod.snd <$> server.updateNoting handler network context now
  | .rest now most => do
    let (_, server) ← server.admitAll now most
    let server ← server.relisten
    Prod.snd <$> server.serviceAllNoting handler now (List.finRange maxClients) context
  | .act _ => return []

theorem Deed.coupled {server other : Server} (alike : server.Alike other)
    (discreet : Discreet handler) (context : C) (deed : Deed) :
    (deed.run handler server context).Coupled (Firsts Server.Alike)
      (deed.run handler other context) := by
  cases deed with
  | update network now =>
    refine (alike.update discreet context).bind ?_
    rintro ⟨after, left⟩ ⟨also, _⟩ ⟨ends, rfl⟩
    exact .done ⟨ends, rfl⟩
  | rest now most =>
    refine (alike.admitAll most).bind fun admits => admits.2.relisten.bind fun listens => ?_
    refine (listens.serviceAll discreet context).bind ?_
    rintro ⟨after, left⟩ ⟨also, _⟩ ⟨ends, rfl⟩
    exact .done ⟨ends, rfl⟩
  | act what =>
    refine (Poll.Coupled.lift (alike.perform what)).bind ?_
    rintro ⟨answer, after⟩ ⟨_, also⟩ ⟨rfl, ends⟩
    exact .done ⟨ends, rfl⟩

theorem Deed.notes_coupled {server other : Server} (alike : server.Alike other)
    (discreet : Discreet handler) (context : C) (deed : Deed) :
    (deed.notes handler server context).Coupled Eq (deed.notes handler other context) := by
  cases deed with
  | update network now => exact (alike.updateNoting discreet context).map And.right
  | rest now most =>
    refine (alike.admitAll most).bind fun admits => admits.2.relisten.bind fun listens => ?_
    exact (listens.serviceAllNoting discreet context).map And.right
  | act what => exact .done rfl

def poll (step : Step σ C) : Poll (Server × Report C) :=
  step.deed.run handler scene.server (step.context scene.context)

def notes (step : Step σ C) : Poll Notes :=
  step.deed.notes handler scene.server (step.context scene.context)

def take (step : Step σ C) : Scene σ C :=
  let ran := (scene.poll handler step).run chip (step.nic scene.nic)
  ⟨ran.value.1, ran.value.2.context, ran.state⟩

def seen (step : Step σ C) : Seen C :=
  let ran := (scene.poll handler step).run chip (step.nic scene.nic)
  { exchanges := (scene.poll handler step).exchanges chip (step.nic scene.nic)
    notes := ((scene.notes handler step).run chip (step.nic scene.nic)).value
    report := ran.value.2
    stats := ran.value.1.stats
    clients := (List.finRange maxClients).map fun id => (ran.value.1.client id).shown }

/-- What shows of some steps, one after the other. -/
def observed (scene : Scene σ C) : List (Step σ C) → List (Seen C)
  | [] => []
  | step :: steps =>
    scene.seen handler chip step :: (scene.take handler chip step).observed steps

/-- Scenes that differ in their servers only, and in those only so. -/
structure Alike (scene other : Scene σ C) : Prop where
  server : scene.server.Alike other.server
  context : scene.context = other.context
  nic : scene.nic = other.nic

namespace Alike

variable {handler scene} {other : Scene σ C}

theorem poll (alike : Alike scene other) (discreet : Discreet handler) (step : Step σ C) :
    Poll.Coupled (Firsts Server.Alike) (scene.poll handler step) (other.poll handler step) := by
  unfold Scene.poll
  rw [alike.context]
  exact Deed.coupled handler alike.server discreet _ step.deed

theorem notes (alike : Alike scene other) (discreet : Discreet handler) (step : Step σ C) :
    Poll.Coupled Eq (scene.notes handler step) (other.notes handler step) := by
  unfold Scene.notes
  rw [alike.context]
  exact Deed.notes_coupled handler alike.server discreet _ step.deed

theorem take (alike : Alike scene other) (discreet : Discreet handler) (step : Step σ C) :
    Alike (scene.take handler chip step) (other.take handler chip step) := by
  obtain ⟨⟨server, report⟩, state, -⟩ :=
    (alike.poll discreet step).run chip (step.nic scene.nic)
  unfold Scene.take
  rw [← alike.nic]
  exact ⟨server, congrArg Report.context report, state⟩

/-- Nothing shows of what such scenes differ in. -/
theorem seen (alike : Alike scene other) (discreet : Discreet handler) (step : Step σ C) :
    scene.seen handler chip step = other.seen handler chip step := by
  obtain ⟨⟨server, report⟩, -, exchanges⟩ :=
    (alike.poll discreet step).run chip (step.nic scene.nic)
  have notes := ((alike.notes discreet step).run chip (step.nic scene.nic)).1
  unfold Scene.seen
  dsimp only
  rw [← alike.nic, exchanges, notes, report, server.stats]
  simp only [fun id => (server.client id).shown]

theorem observed (alike : Alike scene other) (discreet : Discreet handler)
    (steps : List (Step σ C)) :
    scene.observed handler chip steps = other.observed handler chip steps := by
  induction steps generalizing scene other with
  | nil => rfl
  | cons step steps ih =>
    rw [Scene.observed, Scene.observed, alike.seen chip discreet,
      ih (alike.take chip discreet step)]

end Alike

end Scene

namespace Server

variable {σ C : Type} {handler : MessageHandler C}

/-- Nothing of one peer shows to the next. Whatever was in a slot when it takes over a
connection, it is then what a new client's would be but for the count of lost frames and the cells
of the empty ring, and the server goes on with it as with that: in every step it asks the same of
the controller and records the same, acts on the same messages of the same clients, answers the
application the same, and comes to the same counters, queues and subscriptions. -/
theorem nothing_left_of_peers (discreet : Discreet handler) (server : Server)
    (id : Fin maxClients) (slot : Slot) (socket : SocketId) (remote : Ipv4) (now : Millis)
    (chip : Chip σ) (nic : σ) (context : C) (steps : List (Scene.Step σ C)) :
    let fresh : Slot := { client := { id := slot.client.id } }
    let renewed := fresh.attach socket remote now
    let attached := slot.attach socket remote now
    (attached.client.tx.toList = [] ∧ renewed.client.tx.toList = [] ∧
      attached = { renewed with client := { renewed.client with
        tx := attached.client.tx, dropped := attached.client.dropped } }) ∧
      Scene.observed handler chip ⟨server.setSlot id attached, context, nic⟩ steps =
        Scene.observed handler chip ⟨server.setSlot id renewed, context, nic⟩ steps := by
  intro fresh renewed attached
  refine ⟨⟨Ring.toList_clear _, Ring.toList_clear _, rfl⟩, ?_⟩
  have numbered : fresh.client.id = slot.client.id := rfl
  have renews : attached.Alike renewed := Slot.attach_alike numbered socket remote now
  have alike : (server.setSlot id attached).Alike (server.setSlot id renewed) :=
    (Server.Alike.refl server).setSlot id renews
  have scenes : Scene.Alike (⟨server.setSlot id attached, context, nic⟩ : Scene σ C)
      ⟨server.setSlot id renewed, context, nic⟩ := ⟨alike, rfl, rfl⟩
  exact scenes.observed chip discreet steps

/-- An application that sends every text back. -/
def echo : MessageHandler Unit := fun client text context => do
  let (_, client) ← client.sendText text
  return (client, context)

theorem discreet_echo : Discreet echo := by
  intro client other alike text context
  exact (alike.queueFrame .text (Text.bytes text)).bind fun ends => .done ⟨ends.2, rfl⟩

/-- A slot of a session that broke off: a part of a frame was read, a frame is still queued, the
peer has taken nothing for a while, and some frames were lost. -/
def brokenOff (id : Fin maxClients) (socket : SocketId) : Slot where
  client :=
    { id
      phase := .connected socket
      tx := (Ring.empty.pushAll [[0x81, 1, 97]]).2
      dropped := 7 }
  stalledSince := some 5
  upgrade := { line := [72], keyText := "k" }
  received := [0x81]

open Scene in
/-- A peer asks for an upgrade and says something in a slot like that. -/
theorem broken_session_forgotten :
    let id : Fin maxClients := ⟨0, by decide⟩
    let visitor : SocketId := ⟨0, by decide⟩
    let attached := (brokenOff id ⟨1, by decide⟩).attach visitor .unspecified 9
    let renewed := ({ client := { id } } : Slot).attach visitor .unspecified 9
    let steps : List (Step Sim.Controller Unit) :=
      [{ deed := .rest 9 3 },
        { nic := fun nic => nic.arrive visitor [0x81, 0x81, 0, 0, 0, 0, 104],
          deed := .update Sim.steadyLink 10 }]
    let before : Scene Sim.Controller Unit :=
      ⟨({} : Server).setSlot id attached, (), Transcript.upgradeAsked⟩
    let other : Scene Sim.Controller Unit :=
      ⟨({} : Server).setSlot id renewed, (), Transcript.upgradeAsked⟩
    attached.client.tx.head ≠ renewed.client.tx.head ∧
      attached.client.dropped ≠ renewed.client.dropped ∧
      (other.observed echo Sim.Controller.chip steps).map (·.notes) =
        [[(id, .accepted "a")], [(id, .text "h")]] ∧
      before.observed echo Sim.Controller.chip steps =
        other.observed echo Sim.Controller.chip steps := by
  intro id visitor attached renewed steps before other
  have apart : attached.client.tx.head ≠ renewed.client.tx.head := by decide +kernel
  have noted : (other.observed echo Sim.Controller.chip steps).map (·.notes) =
      [[(id, .accepted "a")], [(id, .text "h")]] := by decide +kernel
  have forgotten := nothing_left_of_peers discreet_echo {} id (brokenOff id ⟨1, by decide⟩) visitor
    .unspecified 9 Sim.Controller.chip Transcript.upgradeAsked () steps
  exact ⟨apart, by decide, noted, forgotten.2⟩

end Server

end BoardNet.WebSocket
