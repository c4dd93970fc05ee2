import BoardNet.Proofs.Board.Stack
import BoardNet.Proofs.Http.Holding
import BoardNet.Proofs.WebSocket.Holding

/-!
The servers keep the numbers of the slots that their connections are on, and end a connection by its
number. A slot that is closed by the chip can be opened as a listener before that, by either server
or by the supervisor, and no server notices: what is ended then is not the connection that was
accepted. This is the only way in which it goes wrong.
-/

namespace BoardNet

open Poll Sim

variable {E C : Type}

inductive Engine where
  | http
  | webSocket
  deriving DecidableEq

namespace Engine

def Holds (board : Board E) (socket : SocketId) : Engine → Prop
  | .http => board.http.phase.socket = some socket
  | .webSocket => board.webSocket.holds socket = true

instance (board : Board E) (socket : SocketId) (engine : Engine) :
    Decidable (engine.Holds board socket) :=
  match engine with
  | .http => inferInstanceAs (Decidable (_ = _))
  | .webSocket => inferInstanceAs (Decidable (_ = _))

def port (board : Board E) : Engine → UInt16
  | .http => board.http.settings.port
  | .webSocket => board.webSocket.settings.port

end Engine

/-- A server's hold on a slot: `opening` is the stack before the move in which the server accepts
the connection, and `history` is what has happened to the controller since. -/
inductive Tenure (application : Application E C) (engine : Engine) (socket : SocketId)
    (opening : Stack E C) : List Happening → Stack E C → Prop where
  | begins (free : ¬engine.Holds opening.board socket) :
      Tenure application engine socket opening [] opening
  | lasts {history : List Happening} {stack : Stack E C}
      (tenure : Tenure application engine socket opening history stack) (move : Move)
      (held : engine.Holds (stack.move application move).board socket) :
      Tenure application engine socket opening (history ++ stack.history application move)
        (stack.move application move)

/-- A server ends the connection on the slot that it remembers, after some calls of the same
update. -/
inductive Stack.Releases (application : Application E C) (stack : Stack E C) (socket : SocketId) :
    Engine → Update → List Happening → Prop where
  | http {network : Link.Status} {now : Millis} {earlier later : List Happening} {call : Nic.Call}
      (held : stack.board.http.phase.socket = some socket)
      (ending : network.ready = false ∨ (∃ asked, stack.board.http.phase = .closing socket asked) ∨
        stack.board.http.phase = .forceClosing socket)
      (made : stack.history application (.update (.http network now)) =
        earlier ++ .call call :: later)
      (ends : (Effect.call call).Releases socket) :
      Releases application stack socket .http (.http network now) earlier
  | webSocket {network : Link.Status} {now : Millis} {earlier later : List Happening}
      {call : Nic.Call}
      (made : stack.history application (.update (.webSocket network now)) =
        earlier ++ .call call :: later)
      (ends : (Effect.call call).Releases socket) :
      Releases application stack socket .webSocket (.webSocket network now) earlier

variable {application : Application E C} {stack opening : Stack E C} {engine : Engine}
  {socket : SocketId} {history : List Happening}

namespace Stack

/-- A slot that a server comes to hold in a move had a peer on its port before. -/
theorem serves_of_held (keeps : application.messages.KeepsPhase)
    (free : ¬engine.Holds stack.board socket) {move : Move}
    (held : engine.Holds (stack.move application move).board socket) :
    (stack.nic.socket socket).Serves (engine.port stack.board) := by
  cases move with
  | event event => exact absurd held free
  | update update =>
    have path := stack.path_move application update
    have answered := stack.answered application update
    -- an update of one part leaves the others as they are
    cases update with
    | link now =>
      have ⟨http, webSocket⟩ := Board.path_update_link path
      cases engine with
      | http =>
        rw [Engine.Holds, http] at held
        exact absurd held free
      | webSocket =>
        rw [Engine.Holds, webSocket] at held
        exact absurd held free
    | http network now =>
      have ⟨updating, webSocket⟩ := Board.path_update_http path
      cases engine with
      | http =>
        rcases Http.Server.path_update_admits updating socket held with before | found
        · exact absurd before free
        · exact serves_of_found answered found
      | webSocket =>
        rw [Engine.Holds, webSocket] at held
        exact absurd held free
    | webSocket network now =>
      have ⟨updating, http⟩ := Board.path_update_webSocket path
      cases engine with
      | http =>
        rw [Engine.Holds, http] at held
        exact absurd held free
      | webSocket =>
        have free : stack.board.webSocket.holds socket = false := by
          simpa [Engine.Holds] using free
        rcases WebSocket.Server.path_update_admits keeps free updating with
          found | ⟨still, -⟩
        · exact serves_of_found answered found
        · rw [Engine.Holds, still] at held
          cases held

/-- So has a slot whose connection a server ends. -/
theorem Releases.serves {update : Update} {earlier : List Happening}
    (keeps : application.messages.KeepsPhase)
    (releases : stack.Releases application socket engine update earlier)
    (free : ¬engine.Holds stack.board socket) :
    (stack.nic.socket socket).Serves (engine.port stack.board) := by
  cases releases with
  | http held ending made ends => exact absurd held free
  | @webSocket network now earlier later call made ends =>
    have path := stack.path_move application (.webSocket network now)
    have answered := stack.answered application (.webSocket network now)
    have free : stack.board.webSocket.holds socket = false := by
      simpa [Engine.Holds] using free
    rcases WebSocket.Server.path_update_admits keeps free
        (Board.path_update_webSocket path).1 with found | ⟨-, spared⟩
    · exact serves_of_found answered found
    · have member : .call call ∈ stack.history application (.update (.webSocket network now)) := by
        rw [made]
        exact List.mem_append_right _ List.mem_cons_self
      obtain ⟨exchange, member, effect⟩ := mem_callsIn.mp member
      rw [← effect] at ends
      exact absurd ends (spared exchange member)

end Stack

namespace Tenure

theorem nic (tenure : Tenure application engine socket opening history stack) :
    stack.nic = opening.nic.after history := by
  induction tenure with
  | begins free => rfl
  | lasts tenure move held ih =>
    rw [Stack.nic_move, ih, Controller.after_append]

/-- In every run of a stack whose servers have no connections at first, a server's hold on a slot
has a beginning, if only now. -/
theorem exists_of_run (free : ¬engine.Holds stack.board socket) (moves : List Move) :
    ∃ opening history,
      Tenure application engine socket opening history (stack.run application moves) := by
  have going (moves : List Move) (stack : Stack E C)
      (tenure : ∃ opening history, Tenure application engine socket opening history stack) :
      ∃ opening history,
        Tenure application engine socket opening history (stack.run application moves) := by
    induction moves generalizing stack with
    | nil => exact tenure
    | cons move moves ih =>
      apply ih
      by_cases held : engine.Holds (stack.move application move).board socket
      · obtain ⟨opening, history, tenure⟩ := tenure
        exact ⟨opening, _, tenure.lasts move held⟩
      · exact ⟨_, [], .begins held⟩
  exact going moves stack ⟨stack, [], .begins free⟩

/-- A server that holds a slot has accepted a connection on it. -/
theorem serves (keeps : application.messages.KeepsPhase)
    (tenure : Tenure application engine socket opening history stack)
    (held : engine.Holds stack.board socket) :
    (opening.nic.socket socket).Serves (engine.port opening.board) := by
  induction tenure with
  | begins free => exact absurd held free
  | @lasts history stack tenure move later ih =>
    by_cases before : engine.Holds stack.board socket
    · exact ih before
    · cases tenure with
      | begins free => exact Stack.serves_of_held keeps free later
      | lasts tenure move still => exact absurd still before

/-- What a server ends is the connection that it accepted, or no connection at all, unless a call to
listen was answered with its slot since it accepted, or the chip itself opened the slot. In these
cases, and in no others, the slot was put to a new use. -/
theorem reopened_iff_taken {update : Update} {earlier : List Happening}
    (keeps : application.messages.KeepsPhase)
    (tenure : Tenure application engine socket opening history stack)
    (releases : stack.Releases application socket engine update earlier) :
    (opening.nic.socket socket).Serves (engine.port opening.board) ∧
      (Reopened socket opening.nic (history ++ earlier) ↔
        Taken socket opening.nic (history ++ earlier)) ∧
      (¬Taken socket opening.nic (history ++ earlier) →
        Lasts (fun nic => (nic.socket socket).Serves (engine.port opening.board)) opening.nic
            (history ++ earlier) ∨
          ((stack.nic.after earlier).socket socket).Spent) := by
  have serves : (opening.nic.socket socket).Serves (engine.port opening.board) := by
    by_cases held : engine.Holds stack.board socket
    · exact tenure.serves keeps held
    · cases tenure with
      | begins free => exact releases.serves keeps free
      | lasts tenure move still => exact absurd still held
  rw [tenure.nic, ← Controller.after_append]
  exact ⟨serves, serves_after _ serves⟩

end Tenure

def indifferentApplication : Application Empty Unit := ⟨nofun, WebSocket.Session.indifferent⟩

/-- A stack with its link up and both listeners open. -/
def Stack.broughtUp : Stack Empty Unit :=
  run ⟨(Board.start {} steadyLink.mac {} {} {} {}).value, (), {}⟩ indifferentApplication
    ([0, 100, 200, 300, 400, 500].map fun now => .update (.link now))

/-- A peer closes its connection before its request is complete. The server sees that, but another
peer calls the other server before it disconnects, and the slot becomes the listener. It is the
listener that is closed. -/
theorem Tenure.listener_ended :
    ∃ (opening stack : Stack Empty Unit) (history : List Happening) (update : Update),
      Tenure indifferentApplication .http ⟨0, by decide⟩ opening history stack ∧
      stack.Releases indifferentApplication ⟨0, by decide⟩ .http update [] ∧
      Reopened ⟨0, by decide⟩ opening.nic (history ++ []) ∧
      (stack.nic.socket ⟨0, by decide⟩).status = .listen ∧
      (stack.nic.socket ⟨0, by decide⟩).port = stack.board.webSocket.settings.port ∧
      ((stack.move indifferentApplication (.update update)).nic.socket ⟨0, by decide⟩).status =
        .closed := by
  let slot : SocketId := ⟨0, by decide⟩
  let network := Stack.broughtUp.board.link.status
  let opening := Stack.broughtUp.move indifferentApplication
    (.event (.connect 80 .unspecified (Text.bytes "G")))
  let accepted := opening.move indifferentApplication (.update (.http network 600))
  let left := accepted.move indifferentApplication (.event (.setStatus slot .closed 0))
  let called := left.move indifferentApplication (.event (.connect 81 .unspecified []))
  let noticed := called.move indifferentApplication (.update (.http network 601))
  let stack := noticed.move indifferentApplication (.update (.webSocket network 601))
  have held : ¬Engine.http.Holds opening.board slot ∧ Engine.http.Holds accepted.board slot ∧
      Engine.http.Holds left.board slot ∧ Engine.http.Holds called.board slot ∧
      Engine.http.Holds noticed.board slot ∧ Engine.http.Holds stack.board slot := by
    decide +kernel
  obtain ⟨free, first, second, third, fourth, last⟩ := held
  have begun : Tenure indifferentApplication .http slot opening [] opening :=
    .begins free
  have receiving : Tenure indifferentApplication .http slot opening _ accepted :=
    begun.lasts (.update (.http network 600)) first
  have alone : Tenure indifferentApplication .http slot opening _ left :=
    receiving.lasts (.event (.setStatus slot .closed 0)) second
  have beside : Tenure indifferentApplication .http slot opening _ called :=
    alone.lasts (.event (.connect 81 .unspecified [])) third
  have aware : Tenure indifferentApplication .http slot opening _ noticed :=
    beside.lasts (.update (.http network 601)) fourth
  have tenure : Tenure indifferentApplication .http slot opening _ stack :=
    aware.lasts (.update (.webSocket network 601)) last
  have made : stack.board.http.phase = .closing slot false ∧
      stack.history indifferentApplication (.update (.http network 602)) =
        [.call (.disconnect slot), .call (.socketStatus slot)] ∧
      (stack.nic.socket slot).status = .listen ∧
      (stack.nic.socket slot).port = stack.board.webSocket.settings.port ∧
      ((stack.move indifferentApplication (.update (.http network 602))).nic.socket slot).status =
        .closed := by
    decide +kernel
  obtain ⟨closing, calls, listening, bound, ended⟩ := made
  have releases : stack.Releases indifferentApplication slot .http (.http network 602) [] :=
    .http last (.inr (.inl ⟨false, closing⟩)) calls ⟨rfl, rfl⟩
  clear_value opening stack
  obtain ⟨-, reopened, own⟩ :=
    tenure.reopened_iff_taken (fun _ _ _ => rfl) releases
  refine ⟨opening, stack, _, _, tenure, releases, reopened.mpr ?_, listening, bound, ended⟩
  apply Classical.byContradiction
  intro untaken
  rcases own untaken with lasts | spent
  · have serves := lasts.last
    rw [List.append_nil, ← tenure.nic] at serves
    exact serves.not_listen listening
  · exact spent.2 listening

end BoardNet
