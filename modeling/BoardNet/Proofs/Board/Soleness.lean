import BoardNet.Proofs.Board.Downtime
import BoardNet.Proofs.Board.Listener
import BoardNet.Proofs.Http.Conduct
import BoardNet.Proofs.Link.Stages
import BoardNet.Proofs.Sim.Soleness

/-!
The listeners of a board. Four places open them: the supervisor when the link comes up, both servers
when they have accepted a connection, and the watch over the sockets. Each looks first whether there
is one, so however they follow one another no port ever has two; and when the supervisor reports the
servers ready, each of its ports has one.
-/

namespace BoardNet

open Poll Sim

namespace Link.Supervisor

variable {supervisor after : Supervisor} {now : Millis} {trace : List Exchange}
  {ports : List UInt16} {nic : Controller}

theorem guards_openPorts (ports : List UInt16) : Guards (openPorts ports) := by
  induction ports with
  | nil => exact guards_done _
  | cons port ports ih =>
    refine guards_opening ih fun answer => ?_
    cases answer with
    | ok socket => exact ih
    | error error => exact guards_done _

/-- When no port has failed each of them has a listener. -/
theorem listens_openPorts (path : Path (openPorts ports) trace none)
    (answered : Answered nic trace) :
    (∀ port, nic.Listens port → (nic.after (callsIn trace)).Listens port) ∧
      ∀ port ∈ ports, (nic.after (callsIn trace)).Listens port := by
  induction ports generalizing nic trace with
  | nil =>
    obtain ⟨rfl, -⟩ := path_done.mp path
    exact ⟨fun _ => id, nofun⟩
  | cons port ports ih =>
    rw [openPorts, path_bind] at path
    obtain ⟨looks, rest, found, rfl, looking, path⟩ := path
    obtain ⟨looked, later⟩ := answered_append.mp answered
    obtain ⟨same, listens⟩ := answered_isListening looking looked
    rw [callsIn_append, Controller.after_append, same]
    rw [same] at later
    cases found with
    | true =>
      obtain ⟨kept, opened⟩ := ih path later
      exact ⟨kept, List.forall_mem_cons.mpr ⟨kept port (listens.mp rfl), opened⟩⟩
    | false =>
      rw [if_neg Bool.false_ne_true, Nic.listen, path_nic_bind] at path
      obtain ⟨answer, rest, rfl, path⟩ := path
      cases answer with
      | error error => cases (path_done.mp path).2
      | ok socket =>
        obtain ⟨given, later⟩ := later
        obtain ⟨kept, opened⟩ := ih path later
        have given : (nic.listen port).1 = .ok socket := given.symm
        have here : (nic.listen port).2.Listens port := by
          refine ⟨socket, ?_⟩
          rw [(Controller.listen_ok given).2, Controller.socket_modify_self]
          exact ⟨rfl, rfl⟩
        refine ⟨fun other listens => kept other (listens.listen port), ?_⟩
        exact List.forall_mem_cons.mpr ⟨kept port here, opened⟩

/-- A stage that ends in some records opens no listener by these. -/
theorem asks_logged (given : Logged Supervisor) :
    (liftM given : Poll Supervisor).Asks Effect.OpensNone :=
  asks_lift fun _ => nofun

theorem asks_awaitSoftReset : (supervisor.awaitSoftReset now).Asks Effect.OpensNone := by
  refine (asks_nic.mpr nofun).bind fun progress => ?_
  cases progress with
  | finished => exact asks_logged _
  | failed error => exact log_opensNone.bind fun _ => asks_logged _
  | pending =>
    dsimp only
    split
    · exact log_opensNone.bind fun _ => asks_logged _
    · exact asks_done _

theorem asks_notify {notice : Notice} : (Poll.notify notice).Asks Effect.OpensNone :=
  ⟨nofun, fun _ => trivial⟩

theorem asks_probe : (supervisor.probe now).Asks Effect.OpensNone := by
  refine (asks_nic.mpr nofun).bind fun answer => ?_
  cases answer with
  | ok found => exact asks_logged _
  | error error => exact log_opensNone.bind fun _ => asks_logged _

theorem asks_checkLink : (supervisor.checkLink now).Asks Effect.OpensNone := by
  refine (asks_nic.mpr nofun).bind fun link => ?_
  cases link with
  | on =>
    dsimp only
    split
    · exact asks_logged _
    · exact asks_logged _
  | off => exact asks_logged _
  | unknown =>
    dsimp only
    split
    · exact log_opensNone.bind fun _ => asks_logged _
    · exact asks_done _

theorem asks_leaseAddress : (supervisor.leaseAddress now).Asks Effect.OpensNone := by
  refine (asks_nic.mpr nofun).bind fun answer => ?_
  cases answer with
  | ok lease =>
    refine log_opensNone.bind fun _ => ?_
    exact (asks_takeLease (fun _ => nofun) fun _ => nofun).bind fun _ => asks_logged _
  | error error =>
    refine log_opensNone.bind fun _ => ?_
    split
    · exact asks_notify.bind fun _ => asks_logged _
    · exact asks_done _

theorem asks_configureAddress : (supervisor.configureAddress now).Asks Effect.OpensNone := by
  refine (asks_nic.mpr nofun).bind fun _ => (asks_nic.mpr nofun).bind fun ip => ?_
  dsimp only
  split
  · refine log_opensNone.bind fun _ => ?_
    exact asks_notify.bind fun _ => asks_logged _
  · exact log_opensNone.bind fun _ => asks_logged _

theorem asks_complete : (supervisor.complete now).Asks Effect.OpensNone :=
  log_opensNone.bind fun _ => asks_notify.bind fun _ => asks_logged _

theorem asks_maintainLease : supervisor.maintainLease.Asks Effect.OpensNone := by
  refine (asks_nic.mpr nofun).bind fun upkeep => ?_
  cases upkeep with
  | renewed lease | rebound lease => exact asks_takeLease (fun _ => nofun) fun _ => nofun
  | renewFailed | rebindFailed => exact log_opensNone.bind fun _ => asks_done _
  | nothing => exact asks_done _

theorem asks_watch : (supervisor.watch now).Asks Effect.OpensNone := by
  unfold watch
  split
  · exact asks_done _
  · refine (asks_nic.mpr nofun).bind fun link => ?_
    dsimp only
    split
    · refine log_opensNone.bind fun _ => ?_
      exact asks_notify.bind fun _ => asks_logged _
    · split
      · exact asks_maintainLease
      · exact asks_done _

theorem asks_awaitCable : (supervisor.awaitCable now).Asks Effect.OpensNone := by
  unfold awaitCable
  split
  · exact asks_done _
  · refine (asks_nic.mpr nofun).bind fun answer => ?_
    cases answer with
    | error error =>
      refine log_opensNone.bind fun _ => ?_
      exact asks_notify.bind fun _ => asks_done _
    | ok found =>
      refine (asks_nic.mpr nofun).bind fun link => ?_
      dsimp only
      split
      · exact log_opensNone.bind fun _ => asks_logged _
      · exact asks_done _

theorem guards_startServers : Guards (supervisor.startServers now) := by
  unfold startServers
  split
  · exact guards_done _
  · refine (guards_openPorts supervisor.ports).bind fun failure => guards_of_asks ?_
    cases failure with
    | none => exact asks_logged _
    | some failure => exact log_opensNone.bind fun _ => asks_logged _

/-- Only in one stage are listeners opened. -/
theorem guards_update : Guards (supervisor.update now) := by
  unfold update
  split
  · exact guards_of_asks (asks_logged _)
  · refine guards_of_asks ?_
    split
    · exact asks_logged _
    · exact asks_done _
  · refine guards_of_asks ?_
    split
    · exact asks_logged _
    · exact asks_done _
  · exact guards_of_asks ((asks_nic.mpr nofun).bind fun _ => asks_logged _)
  · exact guards_of_asks asks_awaitSoftReset
  · exact guards_of_asks asks_probe
  · exact guards_of_asks asks_checkLink
  · exact guards_of_asks asks_leaseAddress
  · exact guards_of_asks asks_configureAddress
  · exact guards_startServers
  · exact guards_of_asks asks_complete
  · exact guards_of_asks asks_watch
  · exact guards_of_asks asks_awaitCable
  · exact guards_of_asks (asks_logged _)

theorem ports_update (path : Path (supervisor.update now) trace after) :
    after.ports = supervisor.ports := by
  have passes := passes_of_path path
  generalize noticesIn trace = told at passes
  cases passes <;> rfl

/-- The servers are reported ready once every port has a listener. -/
theorem listens_update (path : Path (supervisor.update now) trace after)
    (answered : Answered nic trace) (before : supervisor.serverReady = false)
    (ready : after.serverReady = true) :
    ∀ port ∈ supervisor.ports, (nic.after (callsIn trace)).Listens port := by
  have stage : supervisor.state = .initServerStart := by
    have passes := passes_of_path path
    generalize noticesIn trace = told at passes
    cases passes with
    | opensPorts stage due => exact stage
    | _ => simp [failed, before] at ready
  rw [update, stage] at path
  dsimp only at path
  unfold startServers at path
  split at path
  · obtain ⟨-, rfl⟩ := path_done.mp path
    cases before.symm.trans ready
  · obtain ⟨opening, rest, failure, rfl, opened, going⟩ := path_bind.mp path
    cases failure with
    | some failure =>
      dsimp only at going
      rw [path_log_bind] at going
      obtain ⟨rest, rfl, going⟩ := going
      obtain ⟨-, rfl⟩ := path_lift.mp going
      rw [value_fail] at ready
      cases ready
    | none =>
      obtain ⟨rfl, -⟩ := path_lift.mp going
      have silent (records : List Log.Record) : callsIn (recorded records) = [] := by
        refine List.filterMap_eq_nil_iff.mpr fun exchange member => ?_
        obtain ⟨record, -, rfl⟩ := List.mem_map.mp member
        rfl
      rw [callsIn_append, silent, List.append_nil]
      exact (listens_openPorts opened (answered_append.mp answered).1).2

end Link.Supervisor

namespace Http

namespace Responder

variable {responder : Responder} {data : List UInt8}

theorem push_opensNone : (responder.push data).Asks Effect.OpensNone :=
  asks_push (fun _ => nofun) (fun _ _ => nofun) fun _ _ => nofun

theorem asks_sendHead {code : Code} {contentType : String} {length : Option Nat} :
    (responder.sendHead code contentType length).Asks Effect.OpensNone := by
  unfold sendHead
  split
  · exact log_opensNone.bind fun _ => asks_done _
  · exact push_opensNone

theorem asks_sendText {code : Code} {contentType body : String} :
    (responder.sendText code contentType body).Asks Effect.OpensNone :=
  asks_sendHead.bind fun _ => push_opensNone

theorem asks_sendFixed {code : Code} {contentType : String} {body : List UInt8} :
    (responder.sendFixed code contentType body).Asks Effect.OpensNone := by
  unfold sendFixed
  split
  · exact log_opensNone.bind fun _ => asks_done _
  · exact asks_sendHead.bind fun _ => asks_done _

end Responder

def Handler.OpensNone {C : Type} (handler : Handler C) : Prop :=
  ∀ request responder context, (handler request responder context).Asks Effect.OpensNone

theorem StatusPage.opensNone {C : Type} (page : StatusPage) :
    (page.answer : Handler C).OpensNone := by
  intro request responder context
  cases page with
  | ping | network => exact Responder.asks_sendText.bind fun _ => asks_done _
  | sockets =>
    refine (asks_nic.mpr nofun).bind fun count => ?_
    refine (asks_report (fun _ => nofun) (fun _ => nofun) _).bind fun entries => ?_
    exact Responder.asks_sendText.bind fun _ => asks_done _

/-- A scan looks for the listener before it opens one. -/
theorem SlotWatch.guards_check {watch : SlotWatch} {settings : Settings}
    {active : Option SocketId} {now : Millis} : Guards (watch.check settings active now) := by
  have inspects : Inspects Effect.OpensNone active :=
    ⟨fun _ => nofun, fun _ => nofun, fun _ => nofun, fun _ _ => nofun, fun _ => nofun⟩
  refine Guards.bind (guards_nic nofun) fun count => ?_
  refine (guards_of_asks (asks_inspectAll inspects _ _ _)).bind fun seen => ?_
  refine Guards.bind ?_ fun restarted => guards_done _
  refine guards_opening (guards_done _) fun answer => guards_of_asks ?_
  cases answer with
  | ok socket => exact log_opensNone.bind fun _ => asks_done _
  | error error => exact log_opensNone.bind fun _ => asks_done _

namespace Server

variable {E C : Type} {server : Server E} {handlers : E → Handler C} {network : Link.Status}
  {context : C} {now : Millis} {socket : SocketId}

theorem guards_checkSockets : Guards (server.checkSockets now) :=
  SlotWatch.guards_check.bind fun _ => guards_done _

theorem guards_pollSockets : Guards (server.pollSockets now) := by
  refine Guards.bind ?_ fun ⟨watch, sweep⟩ => ?_
  · unfold SlotWatch.poll
    split
    · exact guards_done _
    · exact SlotWatch.guards_check.bind fun _ => guards_done _
  · cases sweep with
    | none => exact guards_done _
    | some sweep => exact guards_done _

theorem guards_accept : Guards (server.accept now) := by
  have scan : (Nic.findConnected server.settings.port fun socket =>
      return (← Nic.rxAvailable socket) > 0).Asks Effect.OpensNone :=
    Nic.asks_findConnected nofun (fun _ => nofun) (fun _ => nofun) fun _ =>
      (asks_nic.mpr nofun).bind fun _ => asks_done _
  refine (guards_of_asks scan).bind fun found => ?_
  cases found with
  | none => exact guards_done _
  | some socket =>
    refine Guards.bind (guards_nic nofun) fun remote => guards_log.bind fun _ => ?_
    refine (guards_of_asks (asks_lift fun _ => nofun)).bind fun entered => ?_
    refine guards_opening (guards_done _) fun answer => guards_of_asks ?_
    cases answer with
    | ok socket => exact asks_done _
    | error error => exact log_opensNone.bind fun _ => asks_done _

theorem entering_opensNone (given : Logged (Server E)) :
    (liftM given : Poll (Server E)).Asks Effect.OpensNone :=
  asks_entering (fun _ => nofun) given

theorem asks_hear : (server.hear socket now).Asks Effect.OpensNone := by
  refine (asks_readRequest _ nofun (fun _ => nofun) fun _ => nofun).bind fun ⟨request, parse⟩ => ?_
  dsimp only
  cases parse with
  | complete => exact (entering_opensNone _).bind fun _ => asks_done _
  | reject code => exact log_opensNone.bind fun _ => asks_done _
  | needMore =>
    dsimp only
    split
    · split
      · exact log_opensNone.bind fun _ => (entering_opensNone _).bind fun _ => asks_done _
      · exact asks_done _
    · split
      · exact log_opensNone.bind fun _ => asks_done _
      · refine (asks_nic.mpr nofun).bind fun status => ?_
        split
        · exact asks_done _
        · exact log_opensNone.bind fun _ => (entering_opensNone _).bind fun _ => asks_done _

theorem asks_receive : (server.receive network socket now).Asks Effect.OpensNone := by
  refine asks_hear.bind fun ⟨heard, refused⟩ => ?_
  cases refused with
  | none => exact asks_done _
  | some code =>
    refine Responder.asks_sendText.bind fun said => ?_
    exact (Responder.asks_finish nofun fun _ => nofun).bind fun _ => entering_opensNone _

/-- An answer is made and settled without a listener being opened, if its handler opens none. -/
theorem asks_answer {handler : Handler C} {request : Request} {responder : Responder}
    {settled : Responder → Logged (Server E)} (none : handler.OpensNone) :
    (do
      let (responder, context) ← handler request responder context
      let finished ← responder.finish
      return (← settled finished, context) : Poll (Server E × C)).Asks Effect.OpensNone := by
  refine (none request responder context).bind fun ⟨said, left⟩ => ?_
  refine (Responder.asks_finish nofun fun _ => nofun).bind fun finished => ?_
  exact (entering_opensNone _).bind fun _ => asks_done _

theorem opensNone_answerTarget (none : ∀ name, (handlers name).OpensNone) (target : Target E) :
    (answerTarget handlers target).OpensNone := by
  cases target with
  | page page => exact page.opensNone
  | handler name => exact none name

theorem opensNone_answerRoute (none : ∀ name, (handlers name).OpensNone)
    (route : Route (Target E)) : (answerRoute handlers route).OpensNone := by
  cases route with
  | endpoint target => exact opensNone_answerTarget none target
  | file file => exact fun _ _ _ => Responder.asks_sendFixed.bind fun _ => asks_done _

theorem opensNone_answerNowhere (none : ∀ name, (handlers name).OpensNone)
    (target : Option (Target E)) : (answerNowhere handlers target).OpensNone := by
  cases target with
  | some target => exact opensNone_answerTarget none target
  | none => exact fun _ _ _ => Responder.asks_sendText.bind fun _ => asks_done _

/-- Of the transitions only the acceptance of a connection opens a listener. -/
theorem guards_advance (none : ∀ name, (handlers name).OpensNone) :
    Guards (server.advance handlers network context now) := by
  unfold advance
  split
  · exact guards_accept.bind fun _ => guards_done _
  · exact guards_of_asks (asks_receive.bind fun _ => asks_done _)
  · exact guards_of_asks ((entering_opensNone _).bind fun _ => asks_done _)
  · exact guards_of_asks (asks_answer (opensNone_answerRoute none _))
  · refine guards_of_asks (Asks.bind ?_ fun _ => asks_done _)
    exact asks_sendRest (fun _ => nofun) (fun _ => nofun) (fun _ => nofun) fun _ _ => nofun
  · refine guards_of_asks (log_opensNone.bind fun _ => ?_)
    exact asks_answer (opensNone_answerNowhere none _)
  · refine guards_of_asks (Asks.bind ?_ fun _ => asks_done _)
    exact asks_close (fun _ => nofun) (fun _ => nofun) fun _ => nofun
  · refine guards_of_asks (Asks.bind ?_ fun _ => asks_done _)
    exact asks_forceClose (fun _ => nofun) fun _ => nofun

theorem guards_update (none : ∀ name, (handlers name).OpensNone) :
    Guards (server.update handlers network context now) := by
  unfold update
  split
  · exact guards_pollSockets.bind fun _ => guards_advance none
  · have drops : (server.dropConnection now).Asks Effect.OpensNone :=
      asks_dropConnection (fun _ => nofun) fun _ => nofun
    exact guards_of_asks (drops.bind fun _ => asks_done _)

end Server

end Http

namespace WebSocket.Server

variable {C : Type} {server : Server} {handler : MessageHandler C} {network : Link.Status}
  {context : C} {now : Millis}

theorem guards_accept : Guards (server.accept now) := by
  have welcomes : (server.admitAll now maxSockets).Asks Effect.OpensNone :=
    (asks_admitAll welcoming_welcomes).mono fun effect welcomes port listens => by
      rw [listens] at welcomes
      cases welcomes
  refine (guards_of_asks welcomes).bind fun ⟨any, admitted⟩ => ?_
  cases any with
  | false => exact guards_done _
  | true =>
    refine guards_opening (guards_done _) fun answer => guards_of_asks ?_
    cases answer with
    | ok socket => exact asks_done _
    | error error => exact log_opensNone.bind fun _ => asks_done _

theorem guards_dropAll {reason : String} {ids : List (Fin maxClients)} :
    Guards (dropAll reason ids server) := by
  refine guards_of_asks (asks_dropAll.mono fun effect lets port listens => ?_)
  rw [listens] at lets
  cases lets

theorem guards_serviceAll {ids : List (Fin maxClients)} :
    Guards (serviceAll handler now ids server context) :=
  guards_of_asks (asks_serviceAll.mono fun _ tends => tends.not_listen)

theorem guards_update : Guards (server.update handler network context now) := by
  have looks : Guards Nic.linkStatus := guards_nic fun _ => nofun
  refine looks.bind fun link => ?_
  split
  · exact guards_dropAll.bind fun _ => guards_done _
  · split
    · exact guards_dropAll.bind fun _ => guards_done _
    · exact guards_accept.bind fun _ => guards_serviceAll

end WebSocket.Server

variable {E C : Type} {application : Application E C}

/-- No handler for requests opens a listener. One for messages could not. -/
def Application.OpensNone (application : Application E C) : Prop :=
  ∀ name, (application.handlers name).OpensNone

namespace Board

variable {board after : Board E} {context left : C} {now : Millis} {trace : List Exchange}

theorem guards_update (none : application.OpensNone) (board : Board E) (context : C)
    (update : Update) : Guards (board.update application context update) := by
  cases update with
  | link now => exact Link.Supervisor.guards_update.bind fun _ => guards_done _
  | http network now =>
    exact (Http.Server.guards_update none).bind fun _ => guards_done _
  | webSocket network now => exact WebSocket.Server.guards_update.bind fun _ => guards_done _

theorem path_link
    (path : Path (board.update application context (.link now)) trace (after, left)) :
    Path (board.link.update now) trace after.link := by
  obtain ⟨trace, _, link, rfl, updating, path⟩ := path_bind.mp path
  obtain ⟨rfl, same⟩ := path_done.mp path
  cases same
  rwa [List.append_nil]

theorem ports_update {update : Update}
    (path : Path (board.update application context update) trace (after, left)) :
    after.link.ports = board.link.ports := by
  cases update with
  | link now => exact Link.Supervisor.ports_update (path_link path)
  | http network now =>
    obtain ⟨_, _, _, -, -, path⟩ := path_bind.mp path
    obtain ⟨-, same⟩ := path_done.mp path
    cases same
    rfl
  | webSocket network now =>
    obtain ⟨_, _, _, -, -, path⟩ := path_bind.mp path
    obtain ⟨-, same⟩ := path_done.mp path
    cases same
    rfl

end Board

namespace Stack

def checkSockets (stack : Stack E C) (now : Millis) : List Exchange × Stack E C :=
  let check := stack.board.http.checkSockets now
  let ran := check.run Controller.chip stack.nic
  (check.exchanges Controller.chip stack.nic,
    ⟨{ stack.board with http := ran.value.1 }, stack.context, ran.state⟩)

/-- A board in service since it was some other one, with all that has happened to its controller.
Its parts are updated in any order, and its sockets scanned. In between, peers and the chip itself
make no listeners, and the firmware does as it likes with the board as long as its ports stay. -/
inductive Service (application : Application E C) (first : Stack E C) :
    List Happening → Stack E C → Prop where
  | start : Service application first [] first
  | update {history : List Happening} {stack : Stack E C}
      (service : Service application first history stack) (update : Update) :
      Service application first (history ++ callsIn (stack.exchanges application update))
        (stack.move application (.update update))
  | check {history : List Happening} {stack : Stack E C}
      (service : Service application first history stack) (now : Millis) :
      Service application first (history ++ callsIn (stack.checkSockets now).1)
        (stack.checkSockets now).2
  | event {history : List Happening} {stack : Stack E C}
      (service : Service application first history stack) (event : Event)
      (silent : ∀ port socket, ((event.apply stack.nic).socket socket).Listens port →
        (stack.nic.socket socket).Listens port) :
      Service application first (history ++ [.event event])
        { stack with nic := event.apply stack.nic }
  | beside {history : List Happening} {stack : Stack E C}
      (service : Service application first history stack) (board : Board E) (context : C)
      (ports : board.link.ports = stack.board.link.ports) :
      Service application first history { stack with board, context }

variable {first stack : Stack E C} {history : List Happening}

namespace Service

theorem nic (service : Service application first history stack) :
    stack.nic = first.nic.after history := by
  induction service with
  | start => rfl
  | update service update ih =>
    rw [Controller.after_append, ← ih]
    exact state_run _ _
  | check service now ih =>
    rw [Controller.after_append, ← ih]
    exact state_run _ _
  | event service event silent ih =>
    rw [Controller.after_append, ← ih]
    rfl
  | beside service board context ports ih => exact ih

theorem ports (service : Service application first history stack) :
    stack.board.link.ports = first.board.link.ports := by
  induction service with
  | start => rfl
  | @update history stack service update ih =>
    exact (Board.ports_update (stack.path_move application update)).trans ih
  | check service now ih => exact ih
  | event service event silent ih => exact ih
  | beside service board context ports ih => exact ports.trans ih

theorem lasts (none : application.OpensNone)
    (service : Service application first history stack) (sole : first.nic.Sole) :
    Lasts Controller.Sole first.nic history := by
  induction service with
  | start => exact sole
  | @update history stack service update ih =>
    refine ih.append ?_
    rw [← service.nic]
    have now : stack.nic.Sole := service.nic ▸ ih.last
    exact Board.guards_update none _ _ update _ _ _ (stack.path_move application update)
      (stack.answered application update) now
  | @check history stack service now ih =>
    refine ih.append ?_
    rw [← service.nic]
    have sole : stack.nic.Sole := service.nic ▸ ih.last
    exact Http.Server.guards_checkSockets _ _ _
      (path_run Controller.chip (stack.board.http.checkSockets now) stack.nic)
      (answered_exchanges _ _) sole
  | event service event silent ih =>
    refine ih.append ?_
    rw [← service.nic]
    have now := service.nic ▸ ih.last
    exact ⟨now, now.of_fewer silent⟩
  | beside service board context ports ih => exact ih

/-- A step of the whole board is one update of each part. -/
theorem poll (service : Service application first history stack) (now : Millis) :
    ∃ later, Service application first (history ++ later) (stack.poll application now) := by
  obtain ⟨value, nic⟩ := stack.run_poll application now
  let status := (stack.move application (.update (.link now))).board.link.status
  have updated :=
    ((service.update (.link now)).update (.http status now)).update (.webSocket status now)
  rw [List.append_assoc, List.append_assoc] at updated
  have polled : stack.poll application now =
      ((stack.move application (.update (.link now))).move application
        (.update (.http status now))).move application (.update (.webSocket status now)) := by
    simp only [Stack.poll, value, nic]
    rfl
  exact polled ▸ ⟨_, updated⟩

/-- However the parts of a board are updated from its start on, whatever peers and the chip do that
makes no listener, no port has two listeners at any moment. And when the supervisor reports the
servers ready, each service port has one. -/
theorem sole_listeners {resetLine : Pin} {mac : Mac} {addressing : Addressing}
    {timings : Link.Timings} {http : Http.Settings} {webSocket : WebSocket.Settings}
    {context : C} {nic : Controller} (none : application.OpensNone) (sole : nic.Sole)
    (service : Service application
      ⟨(Board.start resetLine mac addressing timings http webSocket).value, context, nic⟩ history
      stack) :
    stack.nic = nic.after history ∧ Lasts Controller.Sole nic history ∧
      ∀ now, let updated := stack.move application (.update (.link now))
        stack.board.link.serverReady = false → updated.board.link.serverReady = true →
          ∀ port ∈ [http.port, webSocket.port], updated.nic.Listens port := by
  refine ⟨service.nic, service.lasts none sole, ?_⟩
  intro now updated before ready
  have ports : stack.board.link.ports = [http.port, webSocket.port] := service.ports
  have path := Board.path_link (stack.path_move application (.link now))
  have nic : updated.nic = stack.nic.after (callsIn (stack.exchanges application (.link now))) :=
    state_run _ _
  rw [nic, ← ports]
  exact Link.Supervisor.listens_update path (stack.answered application (.link now)) before ready

/-- A board that is about to open its ports, and the update that does it. -/
theorem sole_listeners_bringUp :
    let start : Stack Empty Unit := ⟨(Board.start {} steadyLink.mac {} {} {} {}).value, (), {}⟩
    ∃ history stack, Service indifferentApplication start history stack ∧
      indifferentApplication.OpensNone ∧ start.nic.Sole ∧
      stack.board.link.serverReady = false ∧
      (stack.move indifferentApplication (.update (.link 300))).board.link.serverReady = true ∧
      ∀ port ∈ [80, 81],
        (stack.move indifferentApplication (.update (.link 300))).nic.Listens port := by
  intro start
  have none : indifferentApplication.OpensNone := nofun
  have sole : start.nic.Sole := by
    have closed : ∀ socket, (start.nic.socket socket).status = .closed := by decide +kernel
    intro port socket other listens
    cases (closed socket).symm.trans listens.1
  let stack := ((start.poll indifferentApplication 0).poll indifferentApplication 100).poll
    indifferentApplication 200
  obtain ⟨history, service⟩ : ∃ history, Service indifferentApplication start history stack := by
    obtain ⟨_, first⟩ := Service.start.poll 0
    obtain ⟨_, second⟩ := first.poll 100
    obtain ⟨_, third⟩ := second.poll 200
    exact ⟨_, third⟩
  have turns : stack.board.link.serverReady = false ∧
      (stack.move indifferentApplication (.update (.link 300))).board.link.serverReady = true := by
    decide +kernel
  obtain ⟨before, ready⟩ := turns
  clear_value stack
  have opened := (service.sole_listeners none sole).2.2 300 before ready
  exact ⟨history, stack, service, none, sole, before, ready, opened⟩

end Service

end Stack

end BoardNet
