import BoardNet.Proofs.Board.Tenure
import BoardNet.Proofs.Http.Course
import BoardNet.Proofs.Link.Readiness
import BoardNet.Proofs.WebSocket.Table

namespace BoardNet

open Poll

/-- A server that has this effect does no more than let go: it looks at the cable, closes a socket,
or puts something on record. -/
def Effect.LetsGo : Effect → Prop
  | .call .linkStatus | .call (.close _) | .record _ => True
  | _ => False

section Servers

variable {E C : Type} {network : Link.Status} {now : Millis} {context left : C}
  {trace : List Exchange}

namespace Http.Server

variable {server after : Server E}

/-- While the network is down an update drops the connection, whatever the handlers. -/
theorem update_of_down (down : network.ready = false) (handlers : E → Handler C) :
    server.update handlers network context now =
      (return (← server.dropConnection now, context)) := by
  rw [update, down, if_neg nofun]

/-- A connection that is dropped is gone at once. -/
theorem waiting_of_dropped (path : Path (server.dropConnection now) trace after) :
    after.phase = .waiting := by
  obtain ⟨timer, rfl⟩ := path_dropConnection_waits path
  rfl

end Http.Server

namespace WebSocket

open Server

variable {server after : Server} {reason : String} {ids : List (Fin maxClients)}

/-- While the network is down an update drops all clients, whatever the handler. -/
theorem Server.update_of_down (down : network.ready = false) (handler : MessageHandler C) :
    server.update handler network context now = (do
      let link ← Nic.linkStatus
      let reason := if link ≠ .on then "link lost" else "network not ready"
      return (← dropAll reason (List.finRange maxClients) server, context)) := by
  unfold update
  congr 1
  funext link
  by_cases on : link = .on
  · simp [on, down]
  · simp [on]

theorem asks_dropAll : (dropAll reason ids server).Asks Effect.LetsGo := by
  induction ids generalizing server with
  | nil => trivial
  | cons id ids ih =>
    unfold dropAll
    split
    · exact ih
    · have closes (turn : Turn Unit) : turn.forceClose.Asks Effect.LetsGo := by
        unfold Turn.forceClose
        split
        · exact ⟨trivial, fun _ => trivial⟩
        · trivial
      exact (asks_log.mpr trivial).bind fun _ => (closes _).bind fun _ => ih

/-- Clients that are dropped are gone at once. -/
theorem vacant_of_dropped
    (path : Path (dropAll reason (List.finRange maxClients) server) trace after)
    (id : Fin maxClients) : (after.slots.get id).Vacant := by
  rcases (dropped (List.nodup_finRange maxClients) path).2 id with ⟨-, cleared⟩ | ⟨same, vacant⟩
  · exact cleared.vacant
  · rw [same]
    exact vacant (List.mem_finRange id)

end WebSocket

end Servers

variable {E C : Type} {application : Application E C} {board after : Board E} {context left : C}
  {network status : Link.Status} {now : Millis} {trace : List Exchange}

namespace Board

def serve (board : Board E) (application : Application E C) (network : Link.Status) (context : C)
    (now : Millis) : Poll (Board E × C) := do
  let (http, context) ← board.http.update application.handlers network context now
  let (webSocket, context) ←
    board.webSocket.update application.messages network context now
  return ({ board with http, webSocket }, context)

/-- A step of the board is one of the supervisor and then the servers' part. -/
theorem poll_eq_serve : board.poll application context now = (do
    let link ← board.link.update now
    let (board, context) ← ({ board with link } : Board E).serve application link.status context now
    return (link.status, board, context)) := by
  simp only [poll, serve, bind_assoc, pure_bind]

theorem path_poll :
    Path (board.poll application context now) trace (status, after, left) ↔
      ∃ linking serving link, trace = linking ++ serving ∧
        Path (board.link.update now) linking link ∧ status = link.status ∧
        Path (({ board with link } : Board E).serve application link.status context now) serving
          (after, left) := by
  rw [poll_eq_serve, path_bind]
  constructor
  · rintro ⟨linking, serving, link, rfl, linked, path⟩
    obtain ⟨serving, _, ⟨after, left⟩, rfl, served, path⟩ := path_bind.mp path
    obtain ⟨rfl, same⟩ := path_done.mp path
    cases same
    exact ⟨linking, serving, link, by rw [List.append_nil], linked, rfl, served⟩
  · rintro ⟨linking, serving, link, rfl, linked, rfl, served⟩
    refine ⟨linking, serving, link, rfl, linked, path_bind.mpr ?_⟩
    exact ⟨serving, [], (after, left), (List.append_nil _).symm, served, .done _⟩

theorem link_serve (path : Path (board.serve application network context now) trace (after, left)) :
    after.link = board.link := by
  obtain ⟨_, _, ⟨http, context⟩, -, -, path⟩ := path_bind.mp path
  obtain ⟨_, _, ⟨webSocket, context⟩, -, -, path⟩ := path_bind.mp path
  obtain ⟨-, same⟩ := path_done.mp path
  cases same
  rfl

/-- While the network is down the servers do not consult the application. -/
theorem serve_of_down (down : network.ready = false) (application other : Application E C) :
    board.serve application network context now = board.serve other network context now := by
  simp only [serve, Http.Server.update_of_down down, WebSocket.Server.update_of_down down]

/-- While the network is down the servers only let go. -/
theorem path_serve_of_down (down : network.ready = false)
    (path : Path (board.serve application network context now) trace (after, left)) :
    left = context ∧ (∀ exchange ∈ trace, exchange.effect.LetsGo) ∧
      after.http.phase = .waiting ∧
      ∀ id, (after.webSocket.client id).phase = .disconnected := by
  rw [serve, Http.Server.update_of_down down, bind_assoc, path_bind] at path
  obtain ⟨dropping, rest, http, rfl, dropped, path⟩ := path
  rw [pure_bind] at path
  dsimp only at path
  rw [WebSocket.Server.update_of_down down, Nic.linkStatus, bind_assoc, path_nic_bind] at path
  obtain ⟨link, rest, rfl, path⟩ := path
  rw [bind_assoc, path_bind] at path
  obtain ⟨parting, rest, webSocket, rfl, parted, path⟩ := path
  obtain ⟨rfl, same⟩ := path_done.mp path
  cases same
  refine ⟨rfl, ?_, Http.Server.waiting_of_dropped dropped,
    WebSocket.vacant_of_dropped parted⟩
  intro exchange member
  simp only [List.append_nil, List.mem_append, List.mem_cons] at member
  rcases member with ours | rfl | theirs
  · exact dropped.effect_allowed
      (Http.Server.asks_dropConnection (fun _ => trivial) fun _ => trivial) exchange ours
  · trivial
  · exact parted.effect_allowed WebSocket.asks_dropAll exchange theirs

end Board

open Link.Supervisor (Act Career Down)

variable {first : Link.Supervisor} {history : List Act}

/-- A board in operation, whatever its controller answers: what was done with its supervisor since
this was some other one, the latest first. Between two steps the firmware may call the supervisor,
and do as it likes with the servers and the state of the application. -/
inductive Operated (application : Application E C) (first : Link.Supervisor) :
    List Act → Board E → C → Prop where
  | start {board : Board E} {context : C} (link : board.link = first) :
      Operated application first [] board context
  | poll {history : List Act} {board after : Board E} {context left : C} {now : Millis}
      {status : Link.Status} {linking serving : List Exchange}
      (operated : Operated application first history board context)
      (linked : Path (board.link.update now) linking after.link)
      (path : Path (board.poll application context now) (linking ++ serving)
        (status, after, left)) :
      Operated application first
        (⟨board.link, .update now, noticesIn linking, after.link⟩ :: history) after left
  | call {history : List Act} {board : Board E} {context : C} {deed : Link.Supervisor.Deed}
      {trace : List Exchange} {link : Link.Supervisor}
      (operated : Operated application first history board context)
      (path : Path (board.link.perform deed) trace link) :
      Operated application first (⟨board.link, deed, noticesIn trace, link⟩ :: history)
        { board with link } context
  | beside {history : List Act} {board after : Board E} {context left : C}
      (operated : Operated application first history board context)
      (link : after.link = board.link) : Operated application first history after left

theorem Operated.career (operated : Operated application first history board context) :
    Career first history board.link := by
  induction operated with
  | start link =>
    rw [link]
    exact .start
  | poll operated linked path ih => exact ih.perform linked
  | call operated path ih => exact ih.perform path
  | beside operated link ih =>
    rw [link]
    exact ih

/-- The link is ready as long as nothing has interrupted it since it came up. -/
theorem Operated.ready_iff (marked : first.Marked) (fresh : first.state ≠ .idle)
    (operated : Operated application first history board context) :
    board.link.status.ready = true ↔ ¬Down history :=
  (operated.career.marked marked).isReady_iff.trans (operated.career.idle_iff fresh)

/-- The link is ready just when the supervisor is idle, and then only; and from an interruption
until the link is reported to be up again, the servers of a board only let go. They send nothing,
have no connection after any step, and would take the same step for any other application. -/
theorem quiet_while_down (resetLine : Pin) (mac : Mac) (addressing : Addressing)
    (timings : Link.Timings) (ports : List UInt16) :
    (∀ {history supervisor},
      Career (Link.Supervisor.start resetLine mac addressing timings ports).value history
          supervisor →
        (supervisor.isReady = true ↔ supervisor.state = .idle) ∧
        (supervisor.state = .initComplete → supervisor.serverReady = true) ∧
        (supervisor.established = true → supervisor.state = .idle ∨
          supervisor.state = .hardResetStart ∨ supervisor.state = .softResetStart)) ∧
    ∀ {application : Application E C} {history board context now trace status after left},
      Operated application (Link.Supervisor.start resetLine mac addressing timings ports).value
          history board context →
      Path (board.poll application context now) trace (status, after, left) →
      ∃ linking serving, trace = linking ++ serving ∧
        Path (board.link.update now) linking after.link ∧
        let history := ⟨board.link, .update now, noticesIn linking, after.link⟩ :: history
        (status.ready = true ↔ ¬Down history) ∧
        (Down history → left = context ∧ (∀ exchange ∈ serving, exchange.effect.LetsGo) ∧
          after.http.phase = .waiting ∧
          (∀ id, (after.webSocket.client id).phase = .disconnected) ∧
          ∀ other : Application E C,
            Path (board.poll other context now) trace (status, after, left)) := by
  have marked : (Link.Supervisor.start resetLine mac addressing timings ports).value.Marked :=
    ⟨nofun, nofun, nofun⟩
  constructor
  · intro history supervisor career
    have marked := career.marked marked
    exact ⟨marked.isReady_iff, marked.opened, marked.established⟩
  · intro application history board context now trace status after left operated path
    obtain ⟨linking, serving, link, rfl, linked, rfl, served⟩ := Board.path_poll.mp path
    obtain rfl : after.link = link := Board.link_serve served
    have ready := (operated.poll linked path).ready_iff marked nofun
    refine ⟨linking, serving, rfl, linked, ready, fun down => ?_⟩
    have off : after.link.status.ready = false :=
      Bool.eq_false_iff.mpr fun up => ready.mp up down
    obtain ⟨kept, lets, waiting, vacant⟩ := Board.path_serve_of_down off served
    refine ⟨kept, lets, waiting, vacant, fun other => ?_⟩
    rw [Board.serve_of_down off application other] at served
    exact Board.path_poll.mpr ⟨linking, serving, after.link, rfl, linked, rfl, served⟩

def Stack.poll (stack : Stack E C) (application : Application E C) (now : Millis) : Stack E C :=
  let ran := (stack.board.poll application stack.context now).run Sim.Controller.chip stack.nic
  ⟨ran.value.2.1, ran.value.2.2, ran.state⟩

theorem Stack.path_poll (stack : Stack E C) (application : Application E C) (now : Millis) :
    let polled := stack.poll application now
    ∃ linking serving, Path (stack.board.link.update now) linking polled.board.link ∧
      Path (stack.board.poll application stack.context now) (linking ++ serving)
        (polled.board.link.status, polled.board, polled.context) := by
  intro polled
  have path := path_run Sim.Controller.chip
    (stack.board.poll application stack.context now) stack.nic
  obtain ⟨linking, serving, link, same, linked, told, served⟩ := Board.path_poll.mp path
  have kept : polled.board.link = link := Board.link_serve served
  rw [same] at path
  rw [← kept] at linked told
  exact ⟨linking, serving, linked, told ▸ path⟩

inductive Stack.Step where
  | poll (now : Millis)
  | call (deed : Link.Supervisor.Deed)
  | event (event : Sim.Event)

def Stack.take (application : Application E C) (stack : Stack E C) : Step → Stack E C
  | .poll now => stack.poll application now
  | .call deed =>
    let ran := (stack.board.link.perform deed).run Sim.Controller.chip stack.nic
    { stack with board := { stack.board with link := ran.value }, nic := ran.state }
  | .event event => { stack with nic := event.apply stack.nic }

/-- Whatever happens on the simulated controller is operation. -/
theorem Operated.steps (application : Application E C) {stack : Stack E C}
    (steps : List Stack.Step)
    (operated : Operated application first history stack.board stack.context) :
    ∃ history, Operated application first history
      (steps.foldl (·.take application ·) stack).board
      (steps.foldl (·.take application ·) stack).context := by
  induction steps generalizing stack history with
  | nil => exact ⟨history, operated⟩
  | cons step later ih =>
    cases step with
    | poll now =>
      obtain ⟨linking, serving, linked, path⟩ := stack.path_poll application now
      exact ih (operated.poll linked path)
    | call deed => exact ih (operated.call (path_run Sim.Controller.chip _ stack.nic))
    | event event => exact ih operated

/-- A pulse on the reset line is asked for while a request arrives. The next step drops the
connection. -/
theorem quiet_after_request :
    ∃ (history : List Act) (board after : Board Empty) (trace : List Exchange)
      (status : Link.Status),
      Operated indifferentApplication
        (Link.Supervisor.start {} Sim.steadyLink.mac {} {} [80, 81]).value history board () ∧
      board.http.phase ≠ .waiting ∧ Down history ∧
      Path (board.poll indifferentApplication () 602) trace (status, after, ()) ∧
      after.http.phase = .waiting := by
  let started : Stack Empty Unit :=
    ⟨(Board.start {} Sim.steadyLink.mac {} {} {} {}).value, (), {}⟩
  let steps : List Stack.Step := [0, 100, 200, 300, 400, 500].map .poll ++
    [.event (.connect 80 .unspecified (Text.bytes "G")), .poll 600,
      .call (.requestHardReset true 601)]
  let stack := steps.foldl (·.take indifferentApplication ·) started
  obtain ⟨history, operated⟩ : ∃ history, Operated indifferentApplication
      (Link.Supervisor.start {} Sim.steadyLink.mac {} {} [80, 81]).value history stack.board
      stack.context :=
    Operated.steps indifferentApplication steps (.start (rfl : started.board.link = _))
  have outcome : stack.board.http.phase ≠ .waiting ∧ stack.board.link.status.ready = false ∧
      (stack.poll indifferentApplication 602).board.link.status.ready = false := by
    decide +kernel
  obtain ⟨going, off, still⟩ := outcome
  clear_value stack
  have marked : (Link.Supervisor.start {} Sim.steadyLink.mac {} {} [80, 81]).value.Marked :=
    ⟨nofun, nofun, nofun⟩
  have down : Down history := Classical.byContradiction fun up => by
    rw [(operated.ready_iff marked nofun).mpr up] at off
    cases off
  obtain ⟨linking, serving, -, path⟩ := stack.path_poll indifferentApplication 602
  obtain ⟨_, _, -, -, ready, quiet⟩ :=
    (quiet_while_down {} Sim.steadyLink.mac {} {} [80, 81]).2 operated path
  have waiting := quiet (Classical.byContradiction fun up => by
    rw [ready.mpr up] at still
    cases still)
  exact ⟨history, _, _, _, _, operated, going, down, path, waiting.2.2.1⟩

end BoardNet
