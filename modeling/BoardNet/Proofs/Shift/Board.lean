import BoardNet.Proofs.Board.Stack
import BoardNet.Proofs.Shift.Http
import BoardNet.Proofs.Shift.Link
import BoardNet.Proofs.Shift.WebSocket

namespace BoardNet

variable {E C : Type}

/-- The board by a clock that is ahead by `span`. -/
def Board.shift (span : Millis) (board : Board E) : Board E where
  link := board.link.shift span
  http := board.http.shift span
  webSocket := board.webSocket.shift span

/-- The update at a time by a clock that is ahead by `span`. -/
def Update.shift (span : Millis) : Update → Update
  | .link now => .link (now + span)
  | .http network now => .http network (now + span)
  | .webSocket network now => .webSocket network (now + span)

/-- What happens to the controller happens by no clock. -/
def Move.shift (span : Millis) : Move → Move
  | .update step => .update (step.shift span)
  | .event happened => .event happened

namespace Board

variable (board : Board E) (application : Application E C) (context : C) (span now : Millis)

theorem update_shift (update : Update) :
    (board.shift span).update application context (update.shift span) =
      Prod.map (shift span) id <$> board.update application context update := by
  cases update with
  | link now => exact bind_apart (Link.Supervisor.update_shift ..) fun _ => rfl
  | http network now => exact bind_apart (Http.Server.update_shift ..) fun _ => rfl
  | webSocket network now => exact bind_apart (WebSocket.Server.update_shift ..) fun _ => rfl

theorem poll_shift :
    (board.shift span).poll application context (now + span) =
      Prod.map id (Prod.map (shift span) id) <$> board.poll application context now := by
  refine bind_apart (Link.Supervisor.update_shift ..) fun link => ?_
  refine bind_apart (Http.Server.update_shift ..) fun answered => ?_
  exact bind_apart (WebSocket.Server.update_shift ..) fun served => rfl

/-- Only spans of time matter. By a clock that is ahead, every step makes the same calls, whatever
the controller answers, writes the same log, notifies the firmware and calls the application in the
same way, and ends with the same result, its times ahead. -/
theorem steps_shift (network : Link.Status) (force : Bool) (addressing : Addressing) :
    (board.link.shift span).update (now + span) =
        Link.Supervisor.shift span <$> board.link.update now ∧
      (board.link.shift span).requestHardReset force (now + span) =
        Link.Supervisor.shift span <$> board.link.requestHardReset force now ∧
      (board.link.shift span).applyAddressing addressing (now + span) =
        Link.Supervisor.shift span <$> board.link.applyAddressing addressing now ∧
      (board.http.shift span).update application.handlers network context (now + span) =
        Prod.map (Http.Server.shift span) id <$>
          board.http.update application.handlers network context now ∧
      (board.http.shift span).checkSockets (now + span) =
        Prod.map (Http.Server.shift span) id <$> board.http.checkSockets now ∧
      (board.webSocket.shift span).update application.messages network context (now + span) =
        Prod.map (WebSocket.Server.shift span) id <$>
          board.webSocket.update application.messages network context now ∧
      (board.shift span).poll application context (now + span) =
        Prod.map id (Prod.map (shift span) id) <$> board.poll application context now := by
  refine ⟨?_, ?_, ?_, ?_, ?_, ?_, ?_⟩
  · exact board.link.update_shift span now
  · exact Link.Supervisor.requestHardReset_ahead rfl force
  · exact board.link.applyAddressing_shift span now addressing
  · exact board.http.update_shift span now network application.handlers context
  · exact board.http.checkSockets_shift span now
  · exact board.webSocket.update_shift span now application.messages context network
  · exact board.poll_shift application context span now

end Board

namespace Stack

/-- The board by a clock that is ahead by `span`, on the same controller. -/
def shift (span : Millis) (stack : Stack E C) : Stack E C :=
  { stack with board := stack.board.shift span }

variable (stack : Stack E C) (application : Application E C) (span : Millis)

theorem move_shift (move : Move) :
    (stack.shift span).move application (move.shift span) =
      (stack.move application move).shift span := by
  cases move with
  | event event => rfl
  | update update =>
    unfold Stack.move Move.shift shift
    dsimp only
    rw [Board.update_shift, Poll.run_map]
    rfl

/-- However the parts and the surroundings take turns, a run by a clock that is ahead is the run. -/
theorem run_shift (moves : List Move) :
    (stack.shift span).run application (moves.map (Move.shift span)) =
      (stack.run application moves).shift span := by
  induction moves generalizing stack with
  | nil => rfl
  | cons move moves ih =>
    simp only [run, List.map_cons, List.foldl_cons] at ih ⊢
    rw [move_shift]
    exact ih (stack.move application move)

end Stack

end BoardNet
