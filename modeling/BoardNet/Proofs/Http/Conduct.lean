import BoardNet.Http.StatusPages
import BoardNet.Proofs.Http.Responder

namespace BoardNet.Http

open Poll

/-- One call of a handler on its responder. -/
inductive Operation where
  | write (data : List UInt8)
  | head (code : Code) (contentType : String) (length : Option Nat)
  | send (code : Code) (contentType : String) (body : List UInt8)
  | sendText (code : Code) (contentType body : String)
  | sendFixed (code : Code) (contentType : String) (body : List UInt8)
  deriving DecidableEq, Repr

namespace Operation

def perform (operation : Operation) (responder : Responder) : Poll Responder :=
  match operation with
  | .write data => responder.write data
  | .head code contentType length => responder.sendHead code contentType length
  | .send code contentType body => responder.send code contentType body
  | .sendText code contentType body => responder.sendText code contentType body
  | .sendFixed code contentType body => responder.sendFixed code contentType body

def bytes (operation : Operation) (responder : Responder) : List UInt8 :=
  match operation with
  | .write data => data
  | .head code contentType length => responder.headBytes code contentType length
  | .send code contentType body =>
    responder.headBytes code contentType (some body.length) ++ body
  | .sendText code contentType body =>
    responder.headBytes code contentType (some (Text.bytes body).length) ++ Text.bytes body
  | .sendFixed code contentType body =>
    if responder.status.isSome then []
    else responder.headBytes code contentType (some body.length) ++ body

/-- A call adds its bytes to those made before. -/
theorem path_perform {operation : Operation} {responder after : Responder} {trace : List Exchange}
    {made taken : List UInt8} (path : Path (operation.perform responder) trace after)
    (holds : responder.Holds made taken) :
    after.Holds (made ++ operation.bytes responder) (taken ++ takenOn responder.socket trace) ∧
      after.socket = responder.socket := by
  cases operation with
  | write data =>
    obtain ⟨written, socket, -⟩ := Responder.path_write path holds
    exact ⟨written, socket⟩
  | head code contentType length =>
    obtain ⟨headed, socket, -⟩ := Responder.path_sendHead path holds
    exact ⟨headed, socket⟩
  | send code contentType body => exact Responder.path_send path holds
  | sendText code contentType body => exact Responder.path_send path holds
  | sendFixed code contentType body => exact Responder.path_sendFixed path holds

end Operation

/-- What a handler does that transmits only through its responder, and the result with which it
ends. It sees the responder after each call. -/
inductive Conduct (A : Type) where
  | finished (result : A)
  | operate (operation : Operation) (next : Responder → Conduct A)
  | ask (effect : Effect) (silent : effect.isSend = false) (next : effect.Answer → Conduct A)

namespace Conduct

variable {A B C : Type}

/-- Does it all. Ends also with the bytes that were made. -/
def play : Conduct A → Responder → Poll (Responder × A × List UInt8)
  | .finished result, responder => return (responder, result, [])
  | .operate operation next, responder => do
    let after ← operation.perform responder
    let (ended, result, made) ← (next after).play after
    return (ended, result, operation.bytes responder ++ made)
  | .ask effect _ next, responder => .ask effect fun answer => (next answer).play responder

/-- What a response holds after a handler's conduct: the bytes made before and those that the
conduct made. -/
theorem path_play {conduct : Conduct A} {responder ended : Responder} {trace : List Exchange}
    {result : A} {before made taken : List UInt8}
    (path : Path (conduct.play responder) trace (ended, result, made))
    (holds : responder.Holds before taken) :
    ended.Holds (before ++ made) (taken ++ takenOn responder.socket trace) ∧
      ended.socket = responder.socket := by
  induction conduct generalizing responder trace before made taken with
  | finished value =>
    obtain ⟨rfl, same⟩ := path_done.mp path
    cases same
    exact ⟨by simpa using holds, rfl⟩
  | operate operation next ih =>
    rw [play, path_bind] at path
    obtain ⟨trace, later, after, rfl, performing, path⟩ := path
    rw [path_bind] at path
    obtain ⟨later, _, rest, rfl, playing, path⟩ := path
    obtain ⟨rfl, same⟩ := path_done.mp path
    cases same
    obtain ⟨performed, socket⟩ := Operation.path_perform performing holds
    obtain ⟨played, kept⟩ := ih after playing performed
    rw [socket, List.append_assoc, List.append_assoc, ← takenOn_append] at played
    rw [List.append_nil]
    exact ⟨played, kept.trans socket⟩
  | ask effect silent next ih =>
    rw [play, path_ask] at path
    obtain ⟨answer, trace, rfl, playing⟩ := path
    rw [takenOn_cons, Exchange.taken_eq_nil _ silent, List.nil_append]
    exact ih answer playing holds

/-- Goes on with what a step ends with that sends nothing. -/
def asking : (step : Poll B) → step.Asks (·.isSend = false) → (B → Conduct A) → Conduct A
  | .done value, _, next => next value
  | .ask effect answered, asks, next =>
    .ask effect asks.1 fun answer => asking (answered answer) (asks.2 answer) next

theorem play_asking {step : Poll B} (asks : step.Asks (·.isSend = false)) (next : B → Conduct A)
    (responder : Responder) :
    (asking step asks next).play responder = step >>= fun value => (next value).play responder := by
  induction step with
  | done value => rfl
  | ask effect answered ih => exact congrArg (Poll.ask effect) (funext fun answer => ih answer _)

def handler (conduct : Request → C → Responder → Conduct C) : Handler C :=
  fun request responder context => do
    let (ended, left, _) ← (conduct request context responder).play responder
    return (ended, left)

def once (operation : Operation) (result : A) : Conduct A :=
  .operate operation fun _ => .finished result

theorem play_once (operation : Operation) (result : A) (responder : Responder) :
    (once operation result).play responder = do
      let ended ← operation.perform responder
      return (ended, result, operation.bytes responder) := by
  simp [once, play]

/-- Answering with one call is such a conduct. -/
theorem handler_once (operation : Operation) :
    handler (fun _ context _ => once operation context) =
      fun (_ : Request) responder (context : C) => do
        return (← operation.perform responder, context) := by
  funext request responder context
  rw [handler, play_once, bind_assoc]
  rfl

end Conduct

namespace StatusPage

variable {C : Type}

/-- A report looks at the states and the ports of sockets. -/
theorem asks_report {allowed : Effect → Prop}
    (status : ∀ socket, allowed (.call (.socketStatus socket)))
    (port : ∀ socket, allowed (.call (.socketPort socket))) (sockets : List SocketId) :
    (report sockets).Asks allowed := by
  induction sockets with
  | nil => trivial
  | cons socket others ih =>
    exact ⟨status socket, fun _ => ⟨port socket, fun _ => ih.bind fun _ => trivial⟩⟩

/-- What the pages do: they look at the sockets and answer with one call. -/
def conduct (page : StatusPage) (context : C) (responder : Responder) : Conduct C :=
  match page with
  | .ping => .once (.sendText 200 "text/plain" "pong") context
  | .network => .once (.sendText 200 "application/json" (networkBody responder.network)) context
  | .sockets =>
    .ask (.call .socketCount) rfl fun count =>
      .asking (report (Nic.sockets count)) (asks_report (fun _ => rfl) (fun _ => rfl) _)
        fun entries =>
          .once (.sendText 200 "application/json" (socketsBody responder.stats entries)) context

/-- The pages transmit only through their responder. -/
theorem answer_eq_handler (page : StatusPage) :
    page.answer (C := C) = Conduct.handler fun _ => page.conduct := by
  funext request responder context
  cases page with
  | ping =>
    simp only [answer, Conduct.handler, conduct, Conduct.play_once, Operation.perform, bind_assoc,
      pure_bind]
  | network =>
    simp only [answer, Conduct.handler, conduct, Conduct.play_once, Operation.perform, bind_assoc,
      pure_bind]
  | sockets =>
    simp only [answer, Conduct.handler, conduct, Conduct.play, Conduct.play_asking,
      Conduct.play_once, Operation.perform, Nic.socketCount, Poll.nic, ask_bind, done_bind,
      bind_assoc, pure_bind]

end StatusPage

end BoardNet.Http
