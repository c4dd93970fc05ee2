import BoardNet.Proofs.Board.Tenure
import BoardNet.Proofs.WebSocket.Listening

/-!
A board that nobody can call on its WebSocket port. The server looks for a listener only when it has
taken over a connection, so once it has them all and no slot listens, it stays like that, however
many slots are free, until something else opens the port.
-/

namespace BoardNet

open Poll

namespace Sim

/-- A call opens a listener on the port, or the chip itself makes a slot listen there or gives it a
peer. -/
def Happening.Opens (port : UInt16) (nic : Controller) : Happening → Prop
  | .call (.listen bound) => bound = port ∧ ∃ slot, (nic.listen port).1 = .ok slot
  | .event (.setStatus _ status bound) =>
    bound = port ∧ (status = .listen ∨ status.isConnected = true)
  | _ => False

/-- The slot does not listen on the port, and has no peer there that it did not have. -/
def Socket.Unopened (port : UInt16) (before after : Socket) : Prop :=
  ¬after.Listens port ∧ (after.Serves port → before.Serves port)

namespace Socket.Unopened

variable {port : UInt16} {before between after : Socket}

theorem trans (first : before.Unopened port between) (second : between.Unopened port after) :
    before.Unopened port after :=
  ⟨second.1, fun serves => first.2 (second.2 serves)⟩

theorem of_kept (silent : ¬before.Listens port) (status : after.status = before.status)
    (bound : after.port = before.port) : before.Unopened port after := by
  unfold Unopened Listens Serves
  rw [status, bound]
  exact ⟨silent, id⟩

theorem of_spent (spent : after.Spent) : before.Unopened port after := by
  constructor
  · intro listens
    exact spent.2 listens.1
  · intro serves
    exact absurd serves.1 (Bool.eq_false_iff.mp spent.1)

theorem of_port (other : after.port ≠ port) : before.Unopened port after :=
  ⟨fun listens => other listens.2, fun serves => absurd serves.2 other⟩

end Socket.Unopened

variable {nic : Controller} {port : UInt16}

theorem Socket.port_arrive {slot : Socket} {data : List UInt8} :
    (slot.arrive data).port = slot.port := by
  unfold arrive
  dsimp only
  split <;> split <;> rfl

theorem Controller.port_connect {remote : Ipv4} {data : List UInt8} {socket : SocketId} :
    ((nic.connect port remote data).2.socket socket).port = (nic.socket socket).port := by
  unfold connect
  cases nic.firstSocket? fun socket => socket.status = .listen && socket.port = port with
  | none => rfl
  | some id =>
    by_cases same : id = socket
    · subst same
      rw [socket_modify_self, Socket.port_arrive]
      rfl
    · rw [socket_modify_other same]

/-- A peer that calls finds no listener where there is none, so only what opens the port changes
who is there. -/
theorem unopened_apply (happening : Happening) (silent : ¬nic.Listens port)
    (unopened : ¬happening.Opens port nic) (socket : SocketId) :
    (nic.socket socket).Unopened port ((happening.apply nic).socket socket) := by
  have quiet : ¬(nic.socket socket).Listens port := fun listens => silent ⟨socket, listens⟩
  have change := fate nic socket happening
  generalize shown : (happening.apply nic).socket socket = after at change
  cases change with
  | kept status bound => exact .of_kept quiet status bound
  | ended status =>
    refine .of_spent ⟨?_, ?_⟩
    · rw [status]
      rfl
    · rw [status]
      nofun
  | finishing status =>
    refine .of_spent ⟨?_, ?_⟩
    · rw [status]
      rfl
    · rw [status]
      nofun
  | @opened bound after taken status =>
    have placed : ((nic.listen bound).2.socket socket).port = after.port :=
      congrArg Socket.port shown
    rw [(Controller.listen_ok taken).2, Controller.socket_modify_self] at placed
    have placed : bound = after.port := placed
    refine .of_port fun same => unopened ?_
    obtain rfl : bound = port := placed.trans same
    exact ⟨rfl, socket, taken⟩
  | @met bound remote data after listening =>
    have placed : (nic.socket socket).port = after.port :=
      Controller.port_connect.symm.trans (congrArg Socket.port shown)
    exact .of_port fun same => quiet ⟨listening, placed.trans same⟩
  | set status bound =>
    by_cases same : after.port = port
    · have idle : ¬(after.status = .listen ∨ after.status.isConnected = true) := fun busy =>
        unopened ⟨bound.symm.trans same, status ▸ busy⟩
      refine .of_spent ⟨?_, fun listening => idle (.inl listening)⟩
      exact Bool.eq_false_iff.mpr fun connected => idle (.inr connected)
    · exact .of_port same

/-- Where nobody listens on a port nobody comes to, until it is opened. -/
theorem unopened_after (history : List Happening) (silent : ¬nic.Listens port)
    (unopened : ¬Occurs (fun nic happening => happening.Opens port nic) nic history)
    (socket : SocketId) :
    (nic.socket socket).Unopened port ((nic.after history).socket socket) := by
  induction history generalizing nic with
  | nil => exact .of_kept (fun listens => silent ⟨socket, listens⟩) rfl rfl
  | cons happening history ih =>
    have first := unopened_apply happening silent fun opens => unopened (.inl opens)
    have still : ¬(happening.apply nic).Listens port := by
      rintro ⟨other, listens⟩
      exact (first other).1 listens
    exact (first socket).trans (ih still fun later => unopened (.inr later))

variable {socket : SocketId} {sockets : List SocketId}

/-- When sockets are closed one after the other, each of them ends closed, however often it is among
them. -/
theorem Controller.closed_or_same :
    ((nic.closeAll sockets).socket socket).status = .closed ∨
      socket ∉ sockets ∧ (nic.closeAll sockets).socket socket = nic.socket socket := by
  induction sockets generalizing nic with
  | nil => exact .inr ⟨List.not_mem_nil, rfl⟩
  | cons first sockets ih =>
    change (((nic.close first).closeAll sockets).socket socket).status = .closed ∨
      _ ∧ ((nic.close first).closeAll sockets).socket socket = _
    rcases @ih (nic.close first) with closed | ⟨out, same⟩
    · exact .inl closed
    · rw [same, socket_close]
      by_cases own : first = socket
      · rw [if_pos own]
        exact .inl rfl
      · rw [if_neg own]
        refine .inr ⟨fun member => ?_, rfl⟩
        exact out ((List.mem_cons.mp member).resolve_left (Ne.symm own))

end Sim

open Sim

variable {E C : Type} {application : Application E C} {stack : Stack E C}

/-- Nobody can come to the WebSocket server: no slot listens on its port, and it has every
connection that there is. -/
def Stack.Sealed (stack : Stack E C) : Prop :=
  ¬stack.nic.Listens stack.board.webSocket.settings.port ∧
    ∀ socket, (stack.nic.socket socket).Serves stack.board.webSocket.settings.port →
      stack.board.webSocket.holds socket = true

instance (stack : Stack E C) : Decidable stack.Sealed :=
  inferInstanceAs (Decidable (_ ∧ ∀ _, _))

namespace Stack

theorem leads_move (stack : Stack E C) (application : Application E C) (update : Update) :
    Controller.chip.Leads stack.nic (stack.exchanges application update)
      (stack.move application (.update update)).nic :=
  Chip.leads_run _ _

theorem path_webSocket (stack : Stack E C) (application : Application E C)
    (network : Link.Status) (now : Millis) :
    let served := stack.move application (.update (.webSocket network now))
    Path (stack.board.webSocket.update application.messages network stack.context now)
      (stack.exchanges application (.webSocket network now))
      (served.board.webSocket, served.context) :=
  (Board.path_update_webSocket (stack.path_move application (.webSocket network now))).1

/-- A server that nobody can come to does not change that. -/
theorem Sealed.updated (keeps : application.messages.KeepsPhase) (shut : stack.Sealed)
    (network : Link.Status) (now : Millis) :
    (stack.move application (.update (.webSocket network now))).Sealed := by
  have path := stack.path_webSocket application network now
  have leads := stack.leads_move application (.webSocket network now)
  have rig := Rig.leads_of_faultless leads
  have settings := WebSocket.Server.settings_update path
  unfold Sealed
  rw [settings]
  by_cases up : stack.nic.link = .on ∧ network.ready = true
  · constructor
    · rw [WebSocket.Server.listens_updated keeps up path leads]
      rintro (⟨socket, listens, -⟩ | ⟨-, ⟨socket, serves, free⟩, -⟩)
      · exact shut.1 ⟨socket, listens⟩
      · rw [shut.2 socket serves] at free
        cases free
    · intro socket serves
      exact WebSocket.Server.covers_updated keeps up path rig socket socket.isLt serves
  · obtain ⟨-, closing, -⟩ := WebSocket.Server.dropped_update up path rig
    have closing : (stack.move application (.update (.webSocket network now))).nic =
        stack.nic.closeAll
          (stack.board.webSocket.socketsOf (List.finRange WebSocket.maxClients)) := closing
    rw [closing]
    constructor
    · rintro ⟨socket, listens⟩
      rcases Controller.closed_or_same with closed | ⟨-, same⟩
      · cases closed.symm.trans listens.1
      · rw [same] at listens
        exact shut.1 ⟨socket, listens⟩
    · intro socket serves
      rcases Controller.closed_or_same with closed | ⟨out, same⟩
      · have connected := serves.1
        rw [closed] at connected
        cases connected
      · rw [same] at serves
        exact absurd (WebSocket.Server.mem_socketsOf.mpr (shut.2 socket serves)) out

/-- The port of the WebSocket server is opened in a move. -/
def Opens (stack : Stack E C) (application : Application E C) (move : Move) : Prop :=
  Occurs (fun nic happening => happening.Opens stack.board.webSocket.settings.port nic) stack.nic
    (stack.history application move)

/-- What leaves the server alone changes that only by opening the port. -/
theorem Sealed.beside (shut : stack.Sealed) {move : Move} (unopened : ¬stack.Opens application move)
    (server : (stack.move application move).board.webSocket = stack.board.webSocket) :
    (stack.move application move).Sealed := by
  have unopened := unopened_after (stack.history application move) shut.1 unopened
  rw [← nic_move] at unopened
  unfold Sealed
  rw [server]
  constructor
  · rintro ⟨socket, listens⟩
    exact (unopened socket).1 listens
  · intro socket serves
    exact shut.2 socket ((unopened socket).2 serves)

theorem Sealed.moved (keeps : application.messages.KeepsPhase) (shut : stack.Sealed) (move : Move) :
    (stack.move application move).Sealed ∨
      (∀ network now, move ≠ .update (.webSocket network now)) ∧ stack.Opens application move := by
  by_cases own : ∃ network now, move = .update (.webSocket network now)
  · obtain ⟨network, now, rfl⟩ := own
    exact .inl (shut.updated keeps network now)
  · have other : ∀ network now, move ≠ .update (.webSocket network now) :=
      fun network now same => own ⟨network, now, same⟩
    by_cases opened : stack.Opens application move
    · exact .inr ⟨other, opened⟩
    · left
      cases move with
      | event event => exact shut.beside opened rfl
      | update update =>
        have path := stack.path_move application update
        cases update with
        | link now => exact shut.beside opened (Board.path_update_link path).2
        | http network now => exact shut.beside opened (Board.path_update_http path).2
        | webSocket network now => exact absurd rfl (other network now)

/-- So somebody else has to open the port before the server can be called again. -/
theorem Sealed.run (keeps : application.messages.KeepsPhase) (shut : stack.Sealed)
    (moves : List Move) :
    (stack.run application moves).Sealed ∨
      ∃ earlier move later, moves = earlier ++ move :: later ∧
        (∀ network now, move ≠ .update (.webSocket network now)) ∧
        (stack.run application earlier).Opens application move := by
  induction moves generalizing stack with
  | nil => exact .inl shut
  | cons first moves ih =>
    rcases shut.moved keeps first with still | ⟨other, opens⟩
    · rcases ih still with ends | ⟨earlier, move, later, rfl, other, opens⟩
      · exact .inl ends
      · exact .inr ⟨first :: earlier, move, later, rfl, other, opens⟩
    · exact .inr ⟨[], first, moves, rfl, other, opens⟩

/-- Even if a slot is closed and listening does not fail, an update of the WebSocket server with the
network up leaves a listener on its port just if there was one on a slot that no client has, or if
there was none, a connection was there to take over, and the slot that is opened then is no
client's. And once nobody can come to the server, that stays so until its port is opened by
something other than its own updates, whatever slots become free. -/
theorem listens_update_iff (keeps : application.messages.KeepsPhase) (stack : Stack E C) :
    (∀ (network : Link.Status) (now : Millis), stack.nic.link = .on → network.ready = true →
      stack.nic.listenFails = false → (∃ socket, (stack.nic.socket socket).status = .closed) →
      let server := stack.board.webSocket
      let port := server.settings.port
      let admission := server.admission stack.nic now
      ∃ slot, (admission.state.listen port).1 = .ok slot ∧
        ((stack.move application (.update (.webSocket network now))).nic.Listens port ↔
          (∃ socket, (stack.nic.socket socket).Listens port ∧ server.holds socket = false) ∨
            ¬stack.nic.Listens port ∧
              (∃ socket, (stack.nic.socket socket).Serves port ∧ server.holds socket = false) ∧
              admission.value.2.holds slot = false)) ∧
    (stack.Sealed → ∀ moves, (stack.run application moves).Sealed ∨
      ∃ earlier move later, moves = earlier ++ move :: later ∧
        (∀ network now, move ≠ .update (.webSocket network now)) ∧
        (stack.run application earlier).Opens application move) := by
  constructor
  · intro network now on ready able vacancy server port admission
    obtain ⟨slot, opened⟩ : ∃ slot, (admission.state.listen port).1 = .ok slot :=
      WebSocket.Server.listen_admission able vacancy now port
    refine ⟨slot, opened, ?_⟩
    rw [WebSocket.Server.listens_updated keeps ⟨on, ready⟩
      (stack.path_webSocket application network now)
      (stack.leads_move application (.webSocket network now))]
    refine or_congr_right (and_congr_right fun _ => and_congr_right fun _ => ?_)
    constructor
    · rintro ⟨other, same, free⟩
      cases same.symm.trans opened
      exact free
    · intro free
      exact ⟨slot, opened, free⟩
  · exact fun shut moves => shut.run keeps moves

/-- A peer calls the WebSocket server while all other slots are busy, so the listener cannot be
replaced. Then a slot becomes free. -/
def crowded : Stack Empty Unit :=
  broughtUp.run indifferentApplication <|
    ((List.finRange maxSockets).drop 2).map (fun slot => .event (.setStatus slot .finWait 0)) ++
      [.event (.connect 81 .unspecified []),
        .update (.webSocket broughtUp.board.link.status 600),
        .event (.setStatus ⟨2, by decide⟩ .closed 0)]

/-- The next update does not look for a listener, and neither does any other, so nobody can come to
the server any more. -/
theorem sealed_with_free_slot :
    ∃ (network : Link.Status) (now : Millis),
      crowded.nic.link = .on ∧ network.ready = true ∧ crowded.nic.listenFails = false ∧
        (∃ socket, (crowded.nic.socket socket).status = .closed) ∧ crowded.Sealed ∧
        ¬(crowded.move indifferentApplication (.update (.webSocket network now))).nic.Listens
          crowded.board.webSocket.settings.port ∧
        ∀ times : List Millis, (crowded.run indifferentApplication
          (times.map fun now => .update (.webSocket network now))).Sealed := by
  have facts : crowded.nic.link = .on ∧ crowded.board.link.status.ready = true ∧
      crowded.nic.listenFails = false ∧
      (∃ socket, (crowded.nic.socket socket).status = .closed) ∧ crowded.Sealed := by
    decide +kernel
  obtain ⟨on, ready, able, vacancy, shut⟩ := facts
  refine ⟨crowded.board.link.status, 601, on, ready, able, vacancy, shut, ?_⟩
  generalize crowded.board.link.status = network at ready
  generalize crowded = stack at on able vacancy shut
  have keeps : indifferentApplication.messages.KeepsPhase := fun _ _ _ => rfl
  have ⟨once, ever⟩ := stack.listens_update_iff keeps
  constructor
  · obtain ⟨slot, -, left⟩ := once network 601 on ready able vacancy
    rw [left]
    rintro (⟨socket, listens, -⟩ | ⟨-, ⟨socket, serves, unheld⟩, -⟩)
    · exact shut.1 ⟨socket, listens⟩
    · rw [shut.2 socket serves] at unheld
      cases unheld
  · intro times
    rcases ever shut (times.map fun now => .update (.webSocket network now)) with
      still | ⟨earlier, move, later, same, other, -⟩
    · exact still
    · have member : move ∈ times.map fun now => Move.update (.webSocket network now) := by
        rw [same]
        exact List.mem_append_right _ List.mem_cons_self
      obtain ⟨now, -, own⟩ := List.mem_map.mp member
      exact absurd own.symm (other network now)

end Stack

end BoardNet
