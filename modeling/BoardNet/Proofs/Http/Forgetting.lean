import BoardNet.Proofs.Http.Accounting
import BoardNet.Proofs.Http.Career
import BoardNet.Proofs.Shift.Clock

namespace BoardNet.Http

open Poll

namespace Server

variable {E C : Type} {handlers : E → Handler C} {network : Link.Status} {now : Millis}
  {context left : C} {trace : List Exchange} {server after other : Server E}
  {history : List (Act E)}

/-- The status of a response is kept only while the response is on its way. -/
def Tidy (server : Server E) : Prop :=
  server.reply = none ∨ ∃ socket, server.phase = .sending socket

namespace Tidy

/-- In any other phase there is no status. -/
theorem reply (tidy : server.Tidy) (other : ∀ socket, server.phase ≠ .sending socket) :
    server.reply = none :=
  tidy.resolve_right fun ⟨socket, sending⟩ => other socket sending

theorem congr (tidy : server.Tidy) (phase : after.phase = server.phase)
    (reply : after.reply = server.reply) : after.Tidy := by
  rw [Tidy, phase, reply]
  exact tidy

theorem completed {socket : SocketId} : (server.completed socket now).Tidy := .inl rfl

theorem moved (tidy : server.Tidy) (moves : Moves now server trace after) : after.Tidy := by
  cases moves with
  | accept waiting path =>
    rcases path_accept path with rfl | ⟨socket, remote, rfl, -⟩
    · exact tidy
    · exact .inl rfl
  | hear receiving path =>
    have none := tidy.reply fun socket => by rw [receiving]; nofun
    obtain ⟨-, request, headEnd, rfl | ⟨-, rfl⟩ | ⟨-, rfl⟩⟩ := path_hear path
    all_goals exact .inl none
  | process processing path =>
    have none := tidy.reply fun socket => by rw [processing]; nofun
    obtain ⟨-, next, rfl, -⟩ := path_process path
    exact .inl none
  | send sending path =>
    obtain ⟨-, ⟨-, rfl⟩ | ⟨out, timer, -, -, ⟨-, rfl⟩ | rfl | ⟨-, rfl⟩⟩⟩ := path_sendRest path
    · exact .inl rfl
    · exact completed
    · exact .inl rfl
    · exact .inr ⟨_, sending⟩
  | close closing path =>
    have none := tidy.reply fun socket => by rw [closing]; nofun
    obtain ⟨rest, -, -, rfl | rfl | rfl⟩ := path_close path
    all_goals exact .inl none
  | force forcing path =>
    obtain ⟨-, rfl⟩ := path_forceClose path
    exact .inl rfl

theorem updated (tidy : server.Tidy)
    (path : Path (server.update handlers network context now) trace (after, left)) :
    after.Tidy := by
  obtain ⟨deed, rfl, serves⟩ := path_update.mp path
  cases serves with
  | drop down dropping =>
    obtain ⟨timer, rfl⟩ := path_dropConnection_waits dropping
    exact .inl rfl
  | move up scan moves =>
    have kept := scanned_pollSockets scan
    exact (tidy.congr kept.phase kept.reply).moved moves
  | answer up scan turns request begun given made settles =>
    obtain ⟨out, -, -, -, ⟨-, rfl⟩ | ⟨-, rfl⟩⟩ := path_settle settles
    · exact .inr ⟨_, rfl⟩
    · exact completed

theorem scanned {sweep : Sweep} (tidy : server.Tidy)
    (path : Path (server.checkSockets now) trace (after, sweep)) : after.Tidy := by
  rw [path_checkSockets path]
  exact tidy.congr rfl rfl

end Tidy

theorem Career.tidy (career : Career handlers history server) : server.Tidy := by
  induction career with
  | built settings routes => exact .inl rfl
  | routed career routes ih => exact ih.congr rfl rfl
  | scanned career path ih => exact ih.scanned path
  | updated career path ih => exact ih.updated path

/-- A server that was just built with the settings, routes, watch and counters of this one. -/
def renewed (server : Server E) : Server E where
  settings := server.settings
  routes := server.routes
  watch := server.watch
  stats := server.stats

/-- What counts of a server: while it waits, only what a new one would have as well. -/
def forget (server : Server E) : Server E :=
  if server.phase.socket = none then server.renewed else server

theorem forget_waiting (waiting : server.phase = .waiting) : server.forget = server.renewed :=
  if_pos (Phase.socket_eq_none.mpr waiting)

theorem forget_held (held : server.phase ≠ .waiting) : server.forget = server :=
  if_neg (held ∘ Phase.socket_eq_none.mp)

theorem phase_forget (server : Server E) : server.forget.phase = server.phase := by
  by_cases waiting : server.phase = .waiting
  · rw [forget_waiting waiting, waiting]
    rfl
  · rw [forget_held waiting]

theorem stats_forget (server : Server E) : server.forget.stats = server.stats := by
  unfold forget
  split <;> rfl

theorem forget_routes (same : server.forget = other.forget)
    (change : Routes (Target E) → Routes (Target E)) :
    ({ server with routes := change server.routes } : Server E).forget =
      ({ other with routes := change other.routes } : Server E).forget := by
  have routed (server : Server E) :
      ({ server with routes := change server.routes } : Server E).forget =
        { server.forget with routes := change server.forget.routes } := by
    unfold forget
    dsimp only
    split <;> rfl
  rw [routed, routed, same]

section Alike

variable {m : Type → Type} [Monad m] [LawfulMonad m] {α β γ : Type} {change : β → γ}

/-- Sequences that begin alike end alike but for a change if their second parts do. -/
theorem map_bind_congr {first : m α} {next second : α → m β}
    (rest : ∀ value, change <$> next value = change <$> second value) :
    change <$> (first >>= next) = change <$> (first >>= second) := by
  rw [map_bind, map_bind]
  exact bind_congr rest

end Alike

/-- What is left of an earlier connection is gone when one is accepted. -/
theorem accept_renewed (waiting : server.phase = .waiting) :
    forget <$> server.renewed.accept now = forget <$> server.accept now := by
  obtain ⟨settings, routes, watch, stats, phase, timer, accepted, headEnd, request, out, reply⟩ :=
    server
  obtain rfl : phase = .waiting := waiting
  refine map_bind_congr fun found => ?_
  cases found with
  | none => rfl
  | some socket => rfl

theorem beside_alike {first second : Poll (Server E)}
    (alike : forget <$> first = forget <$> second) :
    Prod.map forget id <$> (do return (← first, context) : Poll (Server E × C)) =
      Prod.map forget id <$> (do return (← second, context)) := by
  have apart (step : Poll (Server E)) :
      Prod.map forget id <$> (do return (← step, context) : Poll (Server E × C)) =
        (·, context) <$> forget <$> step := by
    simp only [map_eq_pure_bind, bind_assoc, pure_bind]
    rfl
  rw [apart, apart, alike]

/-- A server that waits goes through the transition that a new one would. -/
theorem advance_renewed (waiting : server.phase = .waiting) :
    Prod.map forget id <$> server.renewed.advance handlers network context now =
      Prod.map forget id <$> server.advance handlers network context now := by
  have new : server.renewed.phase = .waiting := rfl
  unfold advance
  rw [waiting, new]
  exact beside_alike (accept_renewed waiting)

/-- The server with what a scan leaves, if there was one. -/
def watched (server : Server E) (watch : SlotWatch) (sweep : Option Sweep) : Server E :=
  match sweep with
  | some sweep => ({ server with watch }).countSweep sweep
  | none => { server with watch }

theorem pollSockets_eq (server : Server E) (now : Millis) :
    server.pollSockets now = (fun polled => server.watched polled.1 polled.2) <$>
      server.watch.poll server.settings server.phase.socket now := by
  rw [map_eq_pure_bind]
  refine bind_congr fun polled => ?_
  obtain ⟨watch, sweep⟩ := polled
  cases sweep <;> rfl

theorem phase_watched (watch : SlotWatch) (sweep : Option Sweep) :
    (server.watched watch sweep).phase = server.phase := by
  cases sweep <;> rfl

theorem renewed_watched (watch : SlotWatch) (sweep : Option Sweep) :
    server.renewed.watched watch sweep = (server.watched watch sweep).renewed := by
  cases sweep <;> rfl

theorem renewed_abandonReply (reply : server.reply = none) :
    server.abandonReply.renewed = server.renewed := by
  unfold abandonReply
  rw [reply]
  rfl

theorem dropConnection_of_waiting (waiting : server.phase = .waiting) :
    server.dropConnection now = pure server.abandonReply := by
  unfold dropConnection
  rw [waiting]
  rfl

theorem dropConnection_renewed (waiting : server.phase = .waiting) (reply : server.reply = none) :
    forget <$> server.renewed.dropConnection now = forget <$> server.dropConnection now := by
  have new : server.renewed.phase = .waiting := rfl
  rw [dropConnection_of_waiting waiting, dropConnection_of_waiting new, map_pure, map_pure,
    forget_waiting (by rw [phase_abandonReply, new]),
    forget_waiting (by rw [phase_abandonReply, waiting]), renewed_abandonReply reply,
    renewed_abandonReply rfl]
  rfl

/-- A server that waits does what a new one would. -/
theorem update_renewed (waiting : server.phase = .waiting) (reply : server.reply = none) :
    Prod.map forget id <$> server.renewed.update handlers network context now =
      Prod.map forget id <$> server.update handlers network context now := by
  have scan : server.renewed.watch.poll server.renewed.settings server.renewed.phase.socket now =
      server.watch.poll server.settings server.phase.socket now := by
    rw [waiting]
    rfl
  unfold update
  split
  · rw [pollSockets_eq, pollSockets_eq, scan, bind_map_left, bind_map_left]
    refine map_bind_congr fun polled => ?_
    rw [renewed_watched]
    exact advance_renewed (by rw [phase_watched, waiting])
  · exact beside_alike (dropConnection_renewed waiting reply)

theorem checkSockets_renewed (waiting : server.phase = .waiting) :
    Prod.map forget id <$> server.renewed.checkSockets now =
      Prod.map forget id <$> server.checkSockets now := by
  have scan : server.renewed.watch.check server.renewed.settings server.renewed.phase.socket now =
      server.watch.check server.settings server.phase.socket now := by
    rw [waiting]
    rfl
  unfold checkSockets
  rw [scan]
  refine map_bind_congr fun checked => ?_
  obtain ⟨watch, sweep⟩ := checked
  have kept : (({ server with watch }).countSweep sweep).phase = .waiting := waiting
  rw [map_pure, map_pure, Prod.map_apply, Prod.map_apply, forget_waiting kept]
  rfl

/-- Servers of which the same counts go on alike. -/
theorem alike_of_renewed {α : Type} (step : Server E → Poll (Server E × α))
    (renews : ∀ {server : Server E}, server.phase = .waiting → server.reply = none →
      Prod.map forget id <$> step server.renewed = Prod.map forget id <$> step server)
    (same : server.forget = other.forget) (tidy : server.Tidy) (neat : other.Tidy) :
    Prod.map forget id <$> step server = Prod.map forget id <$> step other := by
  have phase : server.phase = other.phase := by
    rw [← phase_forget server, same, phase_forget]
  -- Of a busy server everything counts, so only servers that wait can differ.
  by_cases waiting : server.phase = .waiting
  · have waits := phase ▸ waiting
    rw [forget_waiting waiting, forget_waiting waits] at same
    rw [← renews waiting (tidy.reply fun _ => by rw [waiting]; nofun), same,
      renews waits (neat.reply fun _ => by rw [waits]; nofun)]
  · rw [forget_held waiting, forget_held (phase ▸ waiting)] at same
    rw [same]

end Server

/-- A call of a handler, with what it was given. -/
structure Consulted (E : Type) where
  name : E
  request : Request
  responder : Responder

section Noting

variable {E C : Type} {handlers : E → Handler C} {network : Link.Status} {now : Millis}
  {server : Server E} {context : C} {calls : List (Consulted E)}

/-- The same handlers, keeping a list of their calls beside the application's state. -/
def noting (handlers : E → Handler C) : E → Handler (C × List (Consulted E)) :=
  fun name request responder (context, calls) => do
    let (answered, left) ← handlers name request responder context
    return (answered, left, calls ++ [⟨name, request, responder⟩])

/-- One handler does what another does, but for what it keeps beside the application's state. -/
def Keeps (handler : Handler C) (keeping : Handler (C × List (Consulted E))) : Prop :=
  ∀ request responder context calls,
    handler request responder context =
      Prod.map id Prod.fst <$> keeping request responder (context, calls)

theorem keeps_noting (name : E) : Keeps (handlers name) (noting handlers name) := by
  intro request responder context calls
  rw [noting, map_bind]
  simp only [map_pure, Prod.map_apply, id]
  exact (bind_pure _).symm

/-- A built-in page takes no notice of the application's state. -/
theorem keeps_page (page : StatusPage) : Keeps (E := E) (C := C) page.answer page.answer := by
  intro request responder context calls
  cases page with
  | ping => exact next_apart fun _ => rfl
  | network => exact next_apart fun _ => rfl
  | sockets => exact next_apart fun _ => next_apart fun _ => next_apart fun _ => rfl

namespace Server

theorem keeps_target (target : Target E) :
    Keeps (answerTarget handlers target) (answerTarget (noting handlers) target) := by
  cases target with
  | page page => exact keeps_page page
  | handler name => exact keeps_noting name

theorem keeps_route (route : Route (Target E)) :
    Keeps (answerRoute handlers route) (answerRoute (noting handlers) route) := by
  cases route with
  | endpoint target => exact keeps_target target
  | file file => exact fun _ _ _ _ => next_apart fun _ => rfl

theorem keeps_nowhere (target : Option (Target E)) :
    Keeps (answerNowhere handlers target) (answerNowhere (noting handlers) target) := by
  cases target with
  | some target => exact keeps_target target
  | none => exact fun _ _ _ _ => next_apart fun _ => rfl

/-- A list of the calls changes nothing in an update. -/
theorem update_noting :
    server.update handlers network context now =
      Prod.map id Prod.fst <$> server.update (noting handlers) network (context, calls) now := by
  unfold update
  split
  · refine next_apart fun watched => ?_
    unfold advance
    cases watched.phase with
    | handling socket route =>
      exact bind_apart (keeps_route route ..) fun _ => next_apart fun _ => next_apart fun _ => rfl
    | failed socket =>
      exact next_apart fun _ => bind_apart (keeps_nowhere _ ..) fun _ =>
        next_apart fun _ => next_apart fun _ => rfl
    | waiting | receiving socket | processing socket | sending socket | closing socket asked
    | forceClosing socket => exact next_apart fun _ => rfl
  · exact next_apart fun _ => rfl

end Server

end Noting

structure Scene (σ E C : Type) where
  server : Server E
  context : C
  nic : σ

namespace Scene

variable {σ E C : Type}

/-- What happens to a server. The controller and the state of the application may become anything
in between, by what they were. -/
inductive Step (σ E C : Type) where
  | update (network : Link.Status) (now : Millis)
  | scan (now : Millis)
  | route (change : Routes (Target E) → Routes (Target E))
  | beside (nic : σ → σ) (context : C → C)

/-- What shows of one step: the exchanges with the controller, the calls of handlers with what they
were given, and the state of the application, the counters and the phase afterwards. -/
structure Seen (E C : Type) where
  exchanges : List Exchange
  calls : List (Consulted E)
  context : C
  stats : Stats
  phase : Phase E

variable (handlers : E → Handler C) (chip : Chip σ) (scene : Scene σ E C)

def take : Step σ E C → Scene σ E C
  | .update network now =>
    let ran := (scene.server.update handlers network scene.context now).run chip scene.nic
    ⟨ran.value.1, ran.value.2, ran.state⟩
  | .scan now =>
    let ran := (scene.server.checkSockets now).run chip scene.nic
    ⟨ran.value.1, scene.context, ran.state⟩
  | .route change =>
    { scene with server := { scene.server with routes := change scene.server.routes } }
  | .beside nic context => { scene with nic := nic scene.nic, context := context scene.context }

theorem career_take {history : List (Act E)} (career : Server.Career handlers history scene.server)
    (step : Step σ E C) :
    ∃ history, Server.Career handlers history (scene.take handlers chip step).server := by
  cases step with
  | update network now => exact ⟨_, career.updated (path_run ..)⟩
  | scan now => exact ⟨_, career.scanned (path_run ..)⟩
  | route change => exact ⟨_, career.routed _⟩
  | beside nic context => exact ⟨_, career⟩

def exchanges : Step σ E C → List Exchange
  | .update network now =>
    (scene.server.update handlers network scene.context now).exchanges chip scene.nic
  | .scan now => (scene.server.checkSockets now).exchanges chip scene.nic
  | .route _ | .beside _ _ => []

def calls : Step σ E C → List (Consulted E)
  | .update network now =>
    ((scene.server.update (noting handlers) network (scene.context, []) now).run chip
      scene.nic).value.2.2
  | .scan _ | .route _ | .beside _ _ => []

def seen (step : Step σ E C) : Seen E C where
  exchanges := scene.exchanges handlers chip step
  calls := scene.calls handlers chip step
  context := (scene.take handlers chip step).context
  stats := (scene.take handlers chip step).server.stats
  phase := (scene.take handlers chip step).server.phase

/-- What shows of some steps, one after the other. -/
def observed (scene : Scene σ E C) : List (Step σ E C) → List (Seen E C)
  | [] => []
  | step :: steps =>
    scene.seen handlers chip step :: (scene.take handlers chip step).observed steps

/-- Scenes that differ only in what a server that waits has of earlier connections. -/
structure Alike (scene other : Scene σ E C) : Prop where
  server : scene.server.forget = other.server.forget
  tidy : scene.server.Tidy
  neat : other.server.Tidy
  context : scene.context = other.context
  nic : scene.nic = other.nic

namespace Alike

variable {scene} {other : Scene σ E C} {D : Type}

theorem update (alike : Alike scene other) (handlers : E → Handler D) (network : Link.Status)
    (context : D) (now : Millis) :
    Prod.map Server.forget id <$> scene.server.update handlers network context now =
      Prod.map Server.forget id <$> other.server.update handlers network context now :=
  Server.alike_of_renewed (·.update handlers network context now) Server.update_renewed
    alike.server alike.tidy alike.neat

theorem scan (alike : Alike scene other) (now : Millis) :
    Prod.map Server.forget id <$> scene.server.checkSockets now =
      Prod.map Server.forget id <$> other.server.checkSockets now :=
  Server.alike_of_renewed (·.checkSockets now)
    (fun waiting _ => Server.checkSockets_renewed waiting) alike.server alike.tidy alike.neat

end Alike

/-- Steps that end alike are run alike. -/
theorem run_alike {α : Type} {first second : Poll (Server E × α)} (chip : Chip σ) (nic : σ)
    (same : Prod.map Server.forget id <$> first = Prod.map Server.forget id <$> second) :
    (first.run chip nic).value.1.forget = (second.run chip nic).value.1.forget ∧
      (first.run chip nic).value.2 = (second.run chip nic).value.2 ∧
      (first.run chip nic).state = (second.run chip nic).state ∧
      first.exchanges chip nic = second.exchanges chip nic := by
  have ran := congrArg (·.run chip nic) same
  have asked := congrArg (·.exchanges chip nic) same
  simp only [run_map] at ran
  simp only [exchanges_map] at asked
  obtain ⟨value, state, -⟩ := Ran.mk.inj ran
  obtain ⟨server, rest⟩ := Prod.ext_iff.mp value
  exact ⟨server, rest, state, asked⟩

namespace Alike

variable {scene} {other : Scene σ E C}

theorem take (alike : Alike scene other) (step : Step σ E C) :
    Alike (scene.take handlers chip step) (other.take handlers chip step) := by
  unfold Scene.take
  rw [← alike.context, ← alike.nic]
  cases step with
  | update network now =>
    obtain ⟨server, context, nic, -⟩ := run_alike chip scene.nic
      (alike.update handlers network scene.context now)
    exact ⟨server, alike.tidy.updated (path_run ..), alike.neat.updated (path_run ..), context, nic⟩
  | scan now =>
    obtain ⟨server, -, nic, -⟩ := run_alike chip scene.nic (alike.scan now)
    exact ⟨server, alike.tidy.scanned (path_run ..), alike.neat.scanned (path_run ..), rfl, nic⟩
  | route change =>
    exact ⟨Server.forget_routes alike.server change, alike.tidy.congr rfl rfl,
      alike.neat.congr rfl rfl, rfl, rfl⟩
  | beside nic context => exact ⟨alike.server, alike.tidy, alike.neat, rfl, rfl⟩

theorem exchanges (alike : Alike scene other) (step : Step σ E C) :
    scene.exchanges handlers chip step = other.exchanges handlers chip step := by
  unfold Scene.exchanges
  rw [← alike.context, ← alike.nic]
  cases step with
  | update network now =>
    exact (run_alike chip scene.nic (alike.update handlers network scene.context now)).2.2.2
  | scan now => exact (run_alike chip scene.nic (alike.scan now)).2.2.2
  | route change | beside nic context => rfl

theorem calls (alike : Alike scene other) (step : Step σ E C) :
    scene.calls handlers chip step = other.calls handlers chip step := by
  unfold Scene.calls
  rw [← alike.context, ← alike.nic]
  cases step with
  | update network now =>
    have noted := (run_alike chip scene.nic (alike.update (noting handlers) network
      (scene.context, []) now)).2.1
    exact congrArg Prod.snd noted
  | scan now | route change | beside nic context => rfl

/-- Nothing shows of what such scenes differ in. -/
theorem seen (alike : Alike scene other) (step : Step σ E C) :
    scene.seen handlers chip step = other.seen handlers chip step := by
  have after := alike.take handlers chip step
  have stats := congrArg Server.stats after.server
  have phase := congrArg Server.phase after.server
  rw [Server.stats_forget, Server.stats_forget] at stats
  rw [Server.phase_forget, Server.phase_forget] at phase
  rw [Scene.seen, alike.exchanges, alike.calls, after.context, stats, phase, Scene.seen]

theorem observed (alike : Alike scene other) (steps : List (Step σ E C)) :
    scene.observed handlers chip steps = other.observed handlers chip steps := by
  induction steps generalizing scene other with
  | nil => rfl
  | cons step steps ih =>
    have after := alike.take handlers chip step
    rw [Scene.observed, Scene.observed, alike.seen, ih after]

end Alike

end Scene

namespace Server

variable {σ E C : Type} {handlers : E → Handler C}

/-- Nothing of a connection shows in a later one. Whatever came before, a server that waits and one
that was just built with its settings, routes, watch and counters go on alike for ever: in every
step they ask the same of the controller and record the same, call the same handlers with the same
requests, and come to the same counters and phase. -/
theorem nothing_left_of_connections {history : List (Act E)} {server : Server E}
    (career : Career handlers history server) (waiting : server.phase = .waiting)
    (chip : Chip σ) (nic : σ) (context : C)
    (steps : List (Scene.Step σ E C)) :
    let fresh : Server E :=
      { settings := server.settings, routes := server.routes, watch := server.watch,
        stats := server.stats }
    Scene.observed handlers chip ⟨fresh, context, nic⟩ steps =
      Scene.observed handlers chip ⟨server, context, nic⟩ steps := by
  intro fresh
  have alike : Scene.Alike (⟨fresh, context, nic⟩ : Scene σ E C) ⟨server, context, nic⟩ :=
    ⟨(forget_waiting waiting).symm, .inl rfl, career.tidy, rfl, rfl⟩
  exact alike.observed handlers chip steps

/-- Half of a request comes, and then the network goes down. What was read is still there, and does
not show when the next peer calls. -/
theorem half_request_forgotten :
    ∃ server : Server Empty, server.phase = .waiting ∧ server.request ≠ {} ∧
      let steps : List (Scene.Step Sim.Controller Empty Unit) :=
        [.beside (fun _ => calledUpon) id, .update (linkThatIs true) 3,
          .update (linkThatIs true) 4]
      let fresh : Server Empty :=
        { settings := server.settings, routes := server.routes, watch := server.watch,
          stats := server.stats }
      Scene.observed nofun Sim.Controller.chip ⟨fresh, (), {}⟩ steps =
        Scene.observed nofun Sim.Controller.chip ⟨server, (), {}⟩ steps := by
  let handlers : Empty → Handler Unit := nofun
  let start : Scene Sim.Controller Empty Unit := ⟨{}, (), calledUpon⟩
  let accepted := start.take handlers Sim.Controller.chip (.update (linkThatIs true) 0)
  let heard := accepted.take handlers Sim.Controller.chip (.update (linkThatIs true) 1)
  let dropped := heard.take handlers Sim.Controller.chip (.update (linkThatIs false) 2)
  obtain ⟨_, career⟩ := start.career_take handlers Sim.Controller.chip (.built {} {})
    (.update (linkThatIs true) 0)
  obtain ⟨_, career⟩ := accepted.career_take handlers Sim.Controller.chip career
    (.update (linkThatIs true) 1)
  obtain ⟨_, career⟩ := heard.career_take handlers Sim.Controller.chip career
    (.update (linkThatIs false) 2)
  have waiting : dropped.server.phase = .waiting ∧ dropped.server.request ≠ {} := by
    decide +kernel
  exact ⟨dropped.server, waiting.1, waiting.2,
    nothing_left_of_connections career waiting.1 Sim.Controller.chip {} () _⟩

end Server

end BoardNet.Http
