import BoardNet.Board
import BoardNet.Proofs.Sim.Reuse

namespace BoardNet

open Poll Sim

variable {E C : Type}

/-- The update of one part of a board. The servers are told of a link. -/
inductive Update where
  | link (now : Millis)
  | http (network : Link.Status) (now : Millis)
  | webSocket (network : Link.Status) (now : Millis)

inductive Move where
  | update (update : Update)
  | event (event : Event)

namespace Board

def update (board : Board E) (application : Application E C) (context : C) :
    Update → Poll (Board E × C)
  | .link now => return ({ board with link := ← board.link.update now }, context)
  | .http network now => do
    let (http, context) ← board.http.update application.handlers network context now
    return ({ board with http }, context)
  | .webSocket network now => do
    let (webSocket, context) ←
      board.webSocket.update application.messages network context now
    return ({ board with webSocket }, context)

variable {board after : Board E} {application : Application E C} {context left : C}
  {network : Link.Status} {now : Millis} {trace : List Exchange}

theorem path_update_link (path : Path (board.update application context (.link now)) trace
    (after, left)) : after.http = board.http ∧ after.webSocket = board.webSocket := by
  rw [update, path_bind] at path
  obtain ⟨_, _, link, -, -, path⟩ := path
  obtain ⟨-, same⟩ := path_done.mp path
  cases same
  exact ⟨rfl, rfl⟩

theorem path_update_http (path : Path (board.update application context (.http network now)) trace
    (after, left)) :
    Path (board.http.update application.handlers network context now) trace (after.http, left) ∧
      after.webSocket = board.webSocket := by
  rw [update, path_bind] at path
  obtain ⟨trace, _, ⟨http, left⟩, rfl, updating, path⟩ := path
  obtain ⟨rfl, same⟩ := path_done.mp path
  cases same
  rw [List.append_nil]
  exact ⟨updating, rfl⟩

theorem path_update_webSocket
    (path : Path (board.update application context (.webSocket network now)) trace (after, left)) :
    Path (board.webSocket.update application.messages network context now) trace
        (after.webSocket, left) ∧
      after.http = board.http := by
  rw [update, path_bind] at path
  obtain ⟨trace, _, ⟨webSocket, left⟩, rfl, updating, path⟩ := path
  obtain ⟨rfl, same⟩ := path_done.mp path
  cases same
  rw [List.append_nil]
  exact ⟨updating, rfl⟩

end Board

/-- A board, its controller, and the state of the application. -/
structure Stack (E C : Type) where
  board : Board E
  context : C
  nic : Controller

namespace Stack

/-- What is asked of the controller in an update, with the answers. -/
def exchanges (stack : Stack E C) (application : Application E C) (update : Update) :
    List Exchange :=
  (stack.board.update application stack.context update).exchanges Controller.chip stack.nic

/-- What happens to the controller in a move. -/
def history (stack : Stack E C) (application : Application E C) : Move → List Happening
  | .update update => callsIn (stack.exchanges application update)
  | .event event => [.event event]

def move (stack : Stack E C) (application : Application E C) : Move → Stack E C
  | .update update =>
    let ran :=
      (stack.board.update application stack.context update).run Controller.chip stack.nic
    ⟨ran.value.1, ran.value.2, ran.state⟩
  | .event event => { stack with nic := event.apply stack.nic }

def run (stack : Stack E C) (application : Application E C) (moves : List Move) : Stack E C :=
  moves.foldl (·.move application ·) stack

variable (stack : Stack E C) (application : Application E C)

theorem nic_move (move : Move) :
    (stack.move application move).nic = stack.nic.after (stack.history application move) := by
  cases move with
  | update update => exact state_run _ _
  | event event => rfl

theorem answered (update : Update) : Answered stack.nic (stack.exchanges application update) :=
  answered_exchanges _ _

theorem path_move (update : Update) :
    Path (stack.board.update application stack.context update)
      (stack.exchanges application update)
      ((stack.move application (.update update)).board,
        (stack.move application (.update update)).context) :=
  path_run _ _ _

/-- A step of the whole board is three moves, in which both servers are told of the link as the
supervisor left it. -/
theorem run_poll (now : Millis) :
    let linked := stack.move application (.update (.link now))
    let status := linked.board.link.status
    let answered := linked.move application (.update (.http status now))
    let served := answered.move application (.update (.webSocket status now))
    let ran := (stack.board.poll application stack.context now).run Controller.chip stack.nic
    ran.value = (status, served.board, served.context) ∧ ran.state = served.nic := by
  simp only [move, Board.update, Board.poll, run_bind]
  exact ⟨rfl, rfl⟩

end Stack

end BoardNet
