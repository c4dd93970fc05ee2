import BoardNet.Http.Server
import BoardNet.Proofs.Trace

/-!
What an update of the HTTP server consists of. The scan of the sockets, the server's own part, and
the making of an answer follow one another; a deed keeps them apart, so that what a handler asks of
the controller is not taken for what the server asks.
-/

namespace BoardNet.Http

open Poll

/-- What is answered: the refusal of a request, or the place that it leads to. -/
inductive Reached (E : Type) where
  | refusal (code : Code)
  | route (found : Route (Target E))
  | nowhere (target : Option (Target E))

namespace Reached

variable {E C : Type}

def called : Reached E → Option (Target E)
  | .route (.endpoint target) => some target
  | .nowhere target => target
  | _ => none

def handler (handlers : E → Handler C) : Reached E → Handler C
  | .refusal code => fun _ responder context => do
    return (← responder.sendText code "text/plain" (Server.refusal code), context)
  | .route found => Server.answerRoute handlers found
  | .nowhere target => Server.answerNowhere handlers target

/-- The status that is kept until the response is with the controller. Only an answer along a route
has one: all others have counted as failures already. -/
def reply (reached : Reached E) (status before : Option Code) : Option Code :=
  match reached with
  | .route _ => some (status.getD 0)
  | _ => before

end Reached

/-- An answer in the making: what a handler was given, its exchanges, and what it left. -/
structure Answer (E C : Type) where
  reached : Reached E
  request : Request
  begun : Responder
  context : C
  trace : List Exchange
  ended : Responder
  left : C

def Answer.Made {E C : Type} (answer : Answer E C) (handlers : E → Handler C) : Prop :=
  Path (answer.reached.handler handlers answer.request answer.begun answer.context) answer.trace
    (answer.ended, answer.left)

/-- What was done in one update: whether the network was ready, the exchanges of the scan and of the
server itself, and the answer that was made between them. -/
structure Deed (E C : Type) where
  ready : Bool
  watch : List Exchange := []
  before : List Exchange := []
  answer : Option (Answer E C) := none
  after : List Exchange := []

/-- The record of a request that leads nowhere. -/
def Request.notFoundRecord (request : Request) : Log.Record :=
  ⟨.info, s!"http: {request.head.method.verb} {request.head.uri} not found"⟩

namespace Deed

variable {E C : Type}

def trace (deed : Deed E C) : List Exchange :=
  deed.watch ++ deed.before ++ (deed.answer.map (·.trace)).getD [] ++ deed.after

def engine (deed : Deed E C) : List Exchange := deed.watch ++ deed.before ++ deed.after

end Deed

namespace Server

variable {E C : Type}

/-- What the server does with a response that was made. -/
def settle (server : Server E) (reached : Reached E) (ended : Responder) (socket : SocketId)
    (now : Millis) : Poll (Server E) := do
  let finished ← ended.finish
  ({ server with out := finished.out, reply := reached.reply finished.status server.reply }).deliver
    socket now

/-- Transitions of the server in which nothing is answered. -/
inductive Moves (now : Millis) (server : Server E) : List Exchange → Server E → Prop where
  | accept {trace : List Exchange} {after : Server E} (waiting : server.phase = .waiting)
      (path : Path (server.accept now) trace after) : Moves now server trace after
  | hear {socket : SocketId} {trace : List Exchange} {after : Server E}
      (receiving : server.phase = .receiving socket)
      (path : Path (server.hear socket now) trace (after, none)) : Moves now server trace after
  | process {socket : SocketId} {trace : List Exchange} {after : Server E}
      (processing : server.phase = .processing socket)
      (path : Path (liftM (server.process socket now)) trace after) : Moves now server trace after
  | send {socket : SocketId} {trace : List Exchange} {after : Server E}
      (sending : server.phase = .sending socket)
      (path : Path (server.sendRest socket now) trace after) : Moves now server trace after
  | close {socket : SocketId} {asked : Bool} {trace : List Exchange} {after : Server E}
      (closing : server.phase = .closing socket asked)
      (path : Path (server.close socket asked now) trace after) : Moves now server trace after
  | force {socket : SocketId} {trace : List Exchange} {after : Server E}
      (forcing : server.phase = .forceClosing socket)
      (path : Path (server.forceClose socket now) trace after) : Moves now server trace after

/-- What goes before an answer: what is to be answered, on which socket, and the server when the
answer is made. -/
inductive Turns (now : Millis) (server : Server E) :
    List Exchange → Reached E → SocketId → Server E → Prop where
  | refuse {socket : SocketId} {code : Code} {trace : List Exchange} {heard : Server E}
      (receiving : server.phase = .receiving socket)
      (path : Path (server.hear socket now) trace (heard, some code)) :
      Turns now server trace (.refusal code) socket heard.countFailure
  | route {socket : SocketId} {route : Route (Target E)}
      (handling : server.phase = .handling socket route) :
      Turns now server [] (.route route) socket server
  | nowhere {socket : SocketId} (failed : server.phase = .failed socket) :
      Turns now server [⟨.record server.request.notFoundRecord, ()⟩]
        (.nowhere server.routes.notFound) socket server.countFailure

/-- A server that waits can only accept. -/
theorem Moves.of_waiting {now : Millis} {server after : Server E} {trace : List Exchange}
    (moves : Moves now server trace after) (waiting : server.phase = .waiting) :
    Path (server.accept now) trace after := by
  cases moves with
  | accept _ path => exact path
  | hear other | process other | send other | close other | force other =>
    rw [waiting] at other
    cases other

/-- A response goes to the socket that the request came from. -/
theorem Turns.phase {now : Millis} {server asked : Server E} {before : List Exchange}
    {reached : Reached E} {socket : SocketId}
    (turns : Turns now server before reached socket asked) :
    server.phase.socket = some socket := by
  cases turns with
  | refuse receiving path =>
    rw [receiving]
    rfl
  | route handling =>
    rw [handling]
    rfl
  | nowhere failed =>
    rw [failed]
    rfl

theorem Turns.not_waiting {now : Millis} {server asked : Server E} {before : List Exchange}
    {reached : Reached E} {socket : SocketId}
    (turns : Turns now server before reached socket asked) : server.phase ≠ .waiting := by
  intro waiting
  have held := turns.phase
  rw [waiting] at held
  cases held

/-- One update of the server, with what was done in it. -/
inductive Serves (handlers : E → Handler C) (network : Link.Status) (now : Millis)
    (server : Server E) (context : C) : Deed E C → Server E → C → Prop where
  | drop {trace : List Exchange} {after : Server E} (down : network.ready = false)
      (path : Path (server.dropConnection now) trace after) :
      Serves handlers network now server context { ready := false, before := trace } after context
  | move {watch trace : List Exchange} {watched after : Server E} (up : network.ready = true)
      (scan : Path (server.pollSockets now) watch watched) (moves : Moves now watched trace after) :
      Serves handlers network now server context { ready := true, watch, before := trace } after
        context
  | answer {watch before trace : List Exchange} {watched asked after : Server E}
      {socket : SocketId} {answer : Answer E C} (up : network.ready = true)
      (scan : Path (server.pollSockets now) watch watched)
      (turns : Turns now watched before answer.reached socket asked)
      (request : answer.request = asked.request)
      (begun : answer.begun = asked.responder socket network) (given : answer.context = context)
      (made : answer.Made handlers)
      (settles : Path (asked.settle answer.reached answer.ended socket now) trace after) :
      Serves handlers network now server context
        { ready := true, watch, before, answer, after := trace } after answer.left

variable {handlers : E → Handler C} {network : Link.Status} {now : Millis} {server after : Server E}
  {context left : C} {trace : List Exchange}

private theorem path_beside {α : Type} {step : Poll α} {value : α} :
    Path (do return (← step, context)) trace (value, left) ↔
      Path step trace value ∧ left = context := by
  rw [path_bind]
  constructor
  · rintro ⟨trace, rest, ended, rfl, stepping, path⟩
    obtain ⟨rfl, same⟩ := path_done.mp path
    cases same
    exact ⟨by simpa using stepping, rfl⟩
  · rintro ⟨stepping, rfl⟩
    exact ⟨trace, [], value, (List.append_nil trace).symm, stepping, .done _⟩

/-- The refusal of a request, with its answer and what the server does then. -/
private theorem path_reject {socket : SocketId} {code : Code}
    (path : Path (server.reject network socket code now) trace after) :
    ∃ (said rest : List Exchange) (ended : Responder), trace = said ++ rest ∧
      Path ((server.countFailure.responder socket network).sendText code "text/plain"
        (refusal code)) said ended ∧
      Path (server.countFailure.settle (.refusal code) ended socket now) rest after := by
  rw [reject, path_bind] at path
  obtain ⟨said, rest, ended, rfl, saying, path⟩ := path
  exact ⟨said, rest, ended, rfl, saying, path⟩

/-- The answer of a route, and what the server does then. -/
private theorem path_handle {socket : SocketId} {found : Route (Target E)}
    (path : Path (server.handle handlers network socket found context now) trace (after, left)) :
    ∃ (said rest : List Exchange) (ended : Responder), trace = said ++ rest ∧
      Path (answerRoute handlers found server.request (server.responder socket network) context)
        said (ended, left) ∧
      Path (server.settle (.route found) ended socket now) rest after := by
  rw [handle, path_bind] at path
  obtain ⟨said, rest, ⟨ended, given⟩, rfl, made, path⟩ := path
  have settling : Path (do return (← server.settle (.route found) ended socket now, given)) rest
      (after, left) := by
    simpa only [settle, Reached.reply, bind_assoc] using path
  obtain ⟨settles, rfl⟩ := path_beside.mp settling
  exact ⟨said, rest, ended, rfl, made, settles⟩

/-- The answer to a request that leads nowhere, which is recorded and counted before. -/
private theorem path_handleNowhere {socket : SocketId}
    (path : Path (server.handleNowhere handlers network socket context now) trace (after, left)) :
    ∃ (said rest : List Exchange) (ended : Responder),
      trace = ⟨.record server.request.notFoundRecord, ()⟩ :: (said ++ rest) ∧
      Path (answerNowhere handlers server.routes.notFound server.request
        (server.countFailure.responder socket network) context) said (ended, left) ∧
      Path (server.countFailure.settle (.nowhere server.routes.notFound) ended socket now) rest
        after := by
  rw [handleNowhere, path_bind] at path
  obtain ⟨noted, answering, _, rfl, noting, path⟩ := path
  obtain rfl : noted = [⟨.record server.request.notFoundRecord, ()⟩] := path_log.mp noting
  rw [path_bind] at path
  obtain ⟨said, rest, ⟨ended, given⟩, rfl, made, path⟩ := path
  have settling : Path (do return (← server.countFailure.settle (.nowhere server.routes.notFound)
      ended socket now, given)) rest (after, left) := by
    simpa only [settle, Reached.reply, bind_assoc] using path
  obtain ⟨settles, rfl⟩ := path_beside.mp settling
  exact ⟨said, rest, ended, rfl, made, settles⟩

/-- A transition of the server is a move or the making of an answer. -/
private theorem serves_of_advance {watch : List Exchange} {watched : Server E}
    (up : network.ready = true) (scan : Path (server.pollSockets now) watch watched)
    (path : Path (watched.advance handlers network context now) trace (after, left)) :
    ∃ deed : Deed E C, deed.trace = watch ++ trace ∧
      Serves handlers network now server context deed after left := by
  -- in three phases an answer is made, in the first of them only if the request is refused
  unfold advance at path
  split at path
  · next waiting =>
    obtain ⟨moving, rfl⟩ := path_beside.mp path
    exact ⟨_, by simp [Deed.trace], .move up scan (.accept waiting moving)⟩
  · next socket receiving =>
    obtain ⟨moving, rfl⟩ := path_beside.mp path
    rw [receive, path_bind] at moving
    obtain ⟨before, rest, ⟨heard, refused⟩, rfl, hearing, path⟩ := moving
    cases refused with
    | none =>
      obtain ⟨rfl, rfl⟩ := path_done.mp path
      exact ⟨_, by simp [Deed.trace], .move up scan (.hear receiving hearing)⟩
    | some code =>
      obtain ⟨said, rest, ended, rfl, saying, settles⟩ := path_reject path
      let answer : Answer E C :=
        ⟨.refusal code, heard.request, heard.countFailure.responder socket network, left, said,
          ended, left⟩
      have made : answer.Made handlers :=
        path_bind.mpr ⟨said, [], ended, (List.append_nil _).symm, saying, .done _⟩
      exact ⟨_, by simp [Deed.trace, answer],
        .answer up scan (.refuse receiving hearing) rfl rfl rfl made settles⟩
  · next socket processing =>
    obtain ⟨moving, rfl⟩ := path_beside.mp path
    exact ⟨_, by simp [Deed.trace], .move up scan (.process processing moving)⟩
  · next socket found handling =>
    obtain ⟨said, rest, ended, rfl, made, settles⟩ := path_handle path
    let answer : Answer E C :=
      ⟨.route found, watched.request, watched.responder socket network, context, said, ended, left⟩
    have made : answer.Made handlers := made
    exact ⟨_, by simp [Deed.trace, answer],
      .answer up scan (.route handling) rfl rfl rfl made settles⟩
  · next socket sending =>
    obtain ⟨moving, rfl⟩ := path_beside.mp path
    exact ⟨_, by simp [Deed.trace], .move up scan (.send sending moving)⟩
  · next socket failed =>
    obtain ⟨said, rest, ended, rfl, made, settles⟩ := path_handleNowhere path
    have turns : Turns now watched _ _ socket _ := .nowhere failed
    let answer : Answer E C :=
      ⟨.nowhere watched.routes.notFound, watched.request,
        watched.countFailure.responder socket network, context, said, ended, left⟩
    have made : answer.Made handlers := made
    exact ⟨_, by simp [Deed.trace, answer], .answer up scan turns rfl rfl rfl made settles⟩
  · next socket asked closing =>
    obtain ⟨moving, rfl⟩ := path_beside.mp path
    exact ⟨_, by simp [Deed.trace], .move up scan (.close closing moving)⟩
  · next socket forcing =>
    obtain ⟨moving, rfl⟩ := path_beside.mp path
    exact ⟨_, by simp [Deed.trace], .move up scan (.force forcing moving)⟩

private theorem advance_of_moves (moves : Moves now server trace after) :
    Path (server.advance handlers network context now) trace (after, context) := by
  unfold advance
  cases moves with
  | accept waiting path =>
    rw [waiting]
    exact path_beside.mpr ⟨path, rfl⟩
  | @hear socket trace after receiving path =>
    rw [receiving]
    refine path_beside.mpr ⟨?_, rfl⟩
    exact path_bind.mpr ⟨trace, [], _, (List.append_nil trace).symm, path, .done _⟩
  | process processing path =>
    rw [processing]
    exact path_beside.mpr ⟨path, rfl⟩
  | send sending path =>
    rw [sending]
    exact path_beside.mpr ⟨path, rfl⟩
  | close closing path =>
    rw [closing]
    exact path_beside.mpr ⟨path, rfl⟩
  | force forcing path =>
    rw [forcing]
    exact path_beside.mpr ⟨path, rfl⟩

private theorem advance_of_turns {before : List Exchange} {asked : Server E} {socket : SocketId}
    {answer : Answer E C} (turns : Turns now server before answer.reached socket asked)
    (request : answer.request = asked.request)
    (begun : answer.begun = asked.responder socket network) (made : answer.Made handlers)
    (settles : Path (asked.settle answer.reached answer.ended socket now) trace after) :
    Path (server.advance handlers network answer.context now) (before ++ (answer.trace ++ trace))
      (after, answer.left) := by
  obtain ⟨reached, given, responder, context, said, ended, left⟩ := answer
  obtain rfl : given = asked.request := request
  obtain rfl : responder = asked.responder socket network := begun
  have settling : Path (do return (← asked.settle reached ended socket now, left)) trace
      (after, left) := path_beside.mpr ⟨settles, rfl⟩
  simp only [settle, Reached.reply, bind_assoc] at settling
  unfold advance
  cases turns with
  | refuse receiving path =>
    rw [receiving]
    obtain ⟨saying, same⟩ := path_beside.mp made
    refine path_beside.mpr ⟨path_bind.mpr ⟨before, said ++ trace, _, rfl, path, ?_⟩, same⟩
    exact path_bind.mpr ⟨said, trace, _, rfl, saying, settles⟩
  | route handling =>
    rw [handling]
    exact path_bind.mpr ⟨said, trace, _, rfl, made, settling⟩
  | nowhere failed =>
    rw [failed]
    refine path_bind.mpr ⟨_, said ++ trace, (), rfl, path_log.mpr rfl, ?_⟩
    exact path_bind.mpr ⟨said, trace, _, rfl, made, settling⟩

/-- The updates are these, and the parts of what was done are, in order, all that was asked of the
controller. -/
theorem path_update :
    Path (server.update handlers network context now) trace (after, left) ↔
      ∃ deed : Deed E C, deed.trace = trace ∧
        Serves handlers network now server context deed after left := by
  unfold update
  constructor
  · intro path
    split at path
    · next up =>
      rw [path_bind] at path
      obtain ⟨watch, trace, watched, rfl, scan, path⟩ := path
      exact serves_of_advance up scan path
    · next down =>
      obtain ⟨dropping, rfl⟩ := path_beside.mp path
      exact ⟨_, by simp [Deed.trace], .drop (by simpa using down) dropping⟩
  · rintro ⟨deed, rfl, serves⟩
    cases serves with
    | drop down path =>
      rw [if_neg (by simp [down])]
      exact path_beside.mpr ⟨by simpa [Deed.trace] using path, rfl⟩
    | @move watch trace watched after up scan moves =>
      rw [if_pos up]
      exact path_bind.mpr ⟨watch, trace, watched, by simp [Deed.trace], scan,
        advance_of_moves moves⟩
    | @answer watch before trace watched asked after socket answer up scan turns request begun given
        made settles =>
      rw [if_pos up, ← given]
      exact path_bind.mpr ⟨watch, _, watched, by simp [Deed.trace], scan,
        advance_of_turns turns request begun made settles⟩

/-- An update of the server, and how it came to its exchanges. -/
structure Updates (handlers : E → Handler C) (network : Link.Status) (now : Millis)
    (server : Server E) (context : C) (deed : Deed E C) (after : Server E) (left : C) : Prop where
  path : Path (server.update handlers network context now) deed.trace (after, left)
  serves : Serves handlers network now server context deed after left

/-- No update is left out. -/
theorem exists_updates
    (path : Path (server.update handlers network context now) trace (after, left)) :
    ∃ deed : Deed E C, deed.trace = trace ∧
      Updates handlers network now server context deed after left := by
  obtain ⟨deed, rfl, serves⟩ := path_update.mp path
  exact ⟨deed, rfl, path, serves⟩

theorem exists_updates_run {σ : Type} {chip : Chip σ} {state : σ} {ran : Ran σ (Server E × C)}
    (running : ran = (server.update handlers network context now).run chip state) :
    ∃ deed : Deed E C,
      Updates handlers network now server context deed ran.value.1 ran.value.2 := by
  subst running
  obtain ⟨deed, -, updates⟩ := exists_updates (path_run chip _ state)
  exact ⟨deed, updates⟩

end Server

end BoardNet.Http
