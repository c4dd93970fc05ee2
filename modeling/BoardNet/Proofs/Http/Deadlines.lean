import BoardNet.Proofs.Http.Accounting
import BoardNet.Proofs.Http.Career
import BoardNet.Proofs.Shift.Clock

namespace BoardNet.Http

open Poll

variable {E C : Type} {handlers : E → Handler C} {network : Link.Status} {now : Millis}
  {context left : C} {trace : List Exchange} {socket : SocketId}

/-- The end of a head that was found stays found. -/
theorem Request.headDone_feed {request : Request} (done : request.headDone = true)
    (data : List UInt8) : (request.feed data).value.1.headDone = true := by
  rw [feed, if_pos done]
  exact done

/-- The phases that wait for nobody. -/
def Phase.Passing : Phase E → Prop
  | .processing _ | .handling _ _ | .failed _ | .forceClosing _ => True
  | .waiting | .receiving _ | .sending _ | .closing _ _ => False

namespace Server

variable {server after : Server E} {history : List (Act E)}

/-- The end of a head stays found. -/
theorem Fetches.headDone {request ended : Request} {parse : Parse}
    (fetches : Fetches socket request trace ended parse) (done : request.headDone = true) :
    ended.headDone = true := by
  induction fetches with
  | nothing request => exact done
  | empty request waiting none => exact done
  | @more request fed ended parse later available waiting data some feeds rest ih =>
    have kept := Request.headDone_feed done data.val
    rw [feeds] at kept
    exact ih kept
  | @decided request ended parse available waiting data some feeds last =>
    have kept := Request.headDone_feed done data.val
    rw [feeds] at kept
    exact kept

/-- When the head ended of a request that was read so far by now. -/
def headEndOf (server : Server E) (request : Request) (now : Millis) : Option Stopwatch :=
  match server.headEnd with
  | some watch => some watch
  | none => if request.headDone then some ⟨now⟩ else none

/-- A server that goes on reading has found nobody to be late. -/
theorem path_hear_waits {heard : Server E}
    (path : Path (server.hear socket now) trace (heard, none))
    (waits : heard.phase = .receiving socket) :
    ∃ request, heard = { server with request, headEnd := server.headEndOf request now } ∧
      (server.request.headDone = true → request.headDone = true) ∧
      match server.headEndOf request now with
      | some watch => watch.elapsed now ≤ server.settings.bodyTimeout
      | none => server.accepted.elapsed now ≤ server.settings.requestTimeout := by
  rw [hear, path_bind] at path
  obtain ⟨_, _, ⟨request, parse⟩, rfl, reading, path⟩ := path
  have moved {server : Server E} {next : Phase E} {trace : List Exchange} {refused : Option Code}
      (path : Path (do return (← server.enter next now, refused) : Poll _) trace (heard, none)) :
      next = .receiving socket := by
    obtain ⟨_, -, path⟩ := path_lift_bind.mp path
    obtain ⟨-, same⟩ := path_done.mp path
    cases same
    exact waits
  have head (done : server.request.headDone = true) :=
    (path_readRequest reading).headDone done
  cases parse with
  | complete => cases moved path
  | reject code =>
    obtain ⟨_, -, path⟩ := path_log_bind.mp path
    cases (path_done.mp path).2
  | needMore =>
    dsimp only at path
    split at path
    · next watch ended =>
      have ended : server.headEndOf request now = some watch := ended
      split at path
      · obtain ⟨_, -, path⟩ := path_log_bind.mp path
        cases moved path
      · next early =>
        obtain ⟨-, same⟩ := path_done.mp path
        cases same
        refine ⟨request, rfl, head, ?_⟩
        rw [ended]
        exact Stopwatch.elapsed_le_of_unexpired early
    · next unended =>
      have unended : server.headEndOf request now = none := unended
      split at path
      · obtain ⟨_, -, path⟩ := path_log_bind.mp path
        cases (path_done.mp path).2
      · next early =>
        obtain ⟨status, _, -, path⟩ := path_nic_bind.mp path
        split at path
        · obtain ⟨-, same⟩ := path_done.mp path
          cases same
          refine ⟨request, rfl, head, ?_⟩
          rw [unended]
          exact Stopwatch.elapsed_le_of_unexpired early
        · obtain ⟨_, -, path⟩ := path_log_bind.mp path
          cases moved path

/-- A server that goes on sending has more to send, and its time counts anew if the controller took
something. -/
theorem path_sendRest_waits (path : Path (server.sendRest socket now) trace after)
    (waits : after.phase = .sending socket) :
    ∃ out timer, after = { server with out, timer } ∧ out.isEmpty = false ∧
      timer = (if takenOn socket trace = [] then server.timer else ⟨now⟩) ∧
      timer.elapsed now ≤ server.settings.sendTimeout := by
  rw [sendRest, Nic.socketStatus, path_nic_bind] at path
  obtain ⟨status, trace, rfl, path⟩ := path
  split at path
  · obtain ⟨_, -, path⟩ := path_log_bind.mp path
    obtain ⟨-, rfl⟩ := path_lift.mp path
    cases waits
  · rw [path_bind] at path
    obtain ⟨pumps, rest, pumped, rfl, pumping, path⟩ := path
    obtain ⟨-, -, moved⟩ := Outbox.path_pump pumping
    dsimp only at path
    generalize begun : (if pumped.moved > 0 then (⟨now⟩ : Stopwatch) else server.timer) = timer
      at path
    split at path
    · obtain ⟨-, rfl⟩ := path_complete path
      cases waits
    · next more =>
      split at path
      · obtain ⟨_, -, path⟩ := path_log_bind.mp path
        obtain ⟨-, rfl⟩ := path_lift.mp path
        cases waits
      · next early =>
        obtain ⟨rfl, rfl⟩ := path_done.mp path
        refine ⟨pumped.out, timer, rfl, Bool.eq_false_iff.mpr more, ?_,
          Stopwatch.elapsed_le_of_unexpired early⟩
        have taken : takenOn socket (⟨.call (.socketStatus socket), status⟩ :: (pumps ++ [])) =
            takenOn socket pumps := by
          rw [List.append_nil]
          rfl
        rw [taken, ← begun, moved]
        by_cases none : takenOn socket pumps = []
        · rw [if_pos none, none, if_neg (by decide)]
        · rw [if_neg none, if_pos (List.length_pos_iff.mpr none)]

/-- A server that goes on waiting for a connection to close has not waited too long. -/
theorem path_close_waits {asked still : Bool}
    (path : Path (server.close socket asked now) trace after)
    (waits : after.phase = .closing socket still) :
    after = { server with phase := .closing socket true } ∧
      server.timer.elapsed now ≤ server.settings.closeTimeout := by
  have waiting {rest : List Exchange} (path : Path (server.close socket true now) rest after) :
      after = { server with phase := .closing socket true } ∧
        server.timer.elapsed now ≤ server.settings.closeTimeout := by
    obtain ⟨status, _, -, path⟩ := path_nic_bind.mp path
    split at path
    · obtain ⟨-, rfl⟩ := path_lift.mp path
      cases waits
    · split at path
      · obtain ⟨-, rfl⟩ := path_lift.mp path
        cases waits
      · next early => exact ⟨(path_done.mp path).2, Stopwatch.elapsed_le_of_unexpired early⟩
  cases asked with
  | true => exact waiting path
  | false =>
    obtain ⟨_, _, -, path⟩ := path_nic_bind.mp path
    exact waiting path

/-- What a server waits for in its phase, since when, and that this is within its limit. The test of
the limit is left open: at the end of an update it is not exceeded, and later it may be. -/
def Waits (history : List (Act E)) (within : Millis → Millis → Prop) (server : Server E) : Prop :=
  match server.phase with
  | .receiving _ =>
    Since Act.Enters history server.accepted.started ∧
      match server.headEnd with
      | none => server.request.headDone = false ∧
        within server.accepted.started server.settings.requestTimeout
      | some watch => server.request.headDone = true ∧ Since Act.Completes history watch.started ∧
        within watch.started server.settings.bodyTimeout
  | .sending _ => server.out.isEmpty = false ∧
    Since Act.Progresses history server.timer.started ∧
    within server.timer.started server.settings.sendTimeout
  | .closing _ _ => Since Act.Enters history server.timer.started ∧
    within server.timer.started server.settings.closeTimeout
  | .waiting | .processing _ | .handling _ _ | .failed _ | .forceClosing _ => True

/-- No limit is tested. -/
def anyTime (_since _limit : Millis) : Prop := True

/-- No limit is exceeded at a time. -/
def inTime (now since limit : Millis) : Prop := elapsed now since ≤ limit

section Waits

variable {within : Millis → Millis → Prop} {act : Act E}

theorem waits_receiving {server : Server E} (phase : server.phase = .receiving socket) :
    server.Waits history within ↔ Since Act.Enters history server.accepted.started ∧
      match server.headEnd with
      | none => server.request.headDone = false ∧
        within server.accepted.started server.settings.requestTimeout
      | some watch => server.request.headDone = true ∧ Since Act.Completes history watch.started ∧
        within watch.started server.settings.bodyTimeout := by
  rw [Waits, phase]

theorem waits_sending {server : Server E} (phase : server.phase = .sending socket) :
    server.Waits history within ↔ server.out.isEmpty = false ∧
      Since Act.Progresses history server.timer.started ∧
      within server.timer.started server.settings.sendTimeout := by
  rw [Waits, phase]

theorem waits_closing {server : Server E} {asked : Bool}
    (phase : server.phase = .closing socket asked) :
    server.Waits history within ↔ Since Act.Enters history server.timer.started ∧
      within server.timer.started server.settings.closeTimeout := by
  rw [Waits, phase]

/-- The end of an update is when its limits were tested last. -/
theorem Waits.untimed (waits : server.Waits history within) : server.Waits history anyTime := by
  cases phase : server.phase with
  | waiting | processing | handling | failed | forceClosing =>
    rw [Waits, phase]
    trivial
  | sending socket =>
    obtain ⟨more, since, -⟩ := (waits_sending phase).mp waits
    exact (waits_sending phase).mpr ⟨more, since, trivial⟩
  | closing socket asked =>
    exact (waits_closing phase).mpr ⟨((waits_closing phase).mp waits).1, trivial⟩
  | receiving socket =>
    obtain ⟨accepted, head⟩ := (waits_receiving phase).mp waits
    refine (waits_receiving phase).mpr ⟨accepted, ?_⟩
    cases ended : server.headEnd with
    | none =>
      rw [ended] at head
      exact ⟨head.1, trivial⟩
    | some watch =>
      rw [ended] at head
      exact ⟨head.1, head.2.1, trivial⟩

/-- A server that has just begun to close a connection waits since now. -/
theorem waits_entered {asked : Bool} (entered : act.Enters)
    (phase : server.phase = .closing socket asked) (timer : server.timer = ⟨act.now⟩) :
    server.Waits (act :: history) (inTime act.now) := by
  rw [waits_closing phase, timer]
  exact ⟨.now entered, elapsed_self_le ..⟩

end Waits

/-- A server that goes on receiving waits as before, or for the body since the head ended. -/
theorem waits_hear {act : Act E} (waits : server.Waits history anyTime)
    (receiving : server.phase = .receiving socket)
    (path : Path (server.hear socket act.now) trace (after, none))
    (goesOn : after.phase = .receiving socket)
    (stays : ¬act.Enters) (request : act.before.request = server.request)
    (ended : act.after = after) :
    after.Waits (act :: history) (inTime act.now) := by
  obtain ⟨read, rfl, kept, early⟩ := path_hear_waits path goesOn
  obtain ⟨accepted, head⟩ := (waits_receiving receiving).mp waits
  rw [waits_receiving goesOn]
  refine ⟨.before stays accepted, ?_⟩
  unfold headEndOf at early ⊢
  dsimp only
  cases was : server.headEnd with
  | some watch =>
    rw [was] at head early
    obtain ⟨done, since, -⟩ := head
    have stays : ¬act.Completes := fun completes => by
      have undone := completes.1
      rw [request, done] at undone
      cases undone
    exact ⟨kept done, .before stays since, early⟩
  | none =>
    rw [was] at head early
    -- If the head is complete now, the wait for the body begins.
    cases done : read.headDone with
    | false =>
      rw [done] at early
      exact ⟨rfl, early⟩
    | true =>
      have completes : act.Completes := ⟨by rw [request, head.1], by rw [ended, done]⟩
      exact ⟨rfl, .now completes, elapsed_self_le ..⟩

/-- A server that goes on sending waits as before, or since the controller took something. -/
theorem waits_sendRest {act : Act E} (waits : server.Waits history anyTime)
    (sending : server.phase = .sending socket)
    (path : Path (server.sendRest socket act.now) trace after)
    (goesOn : after.phase = .sending socket) (stays : ¬act.Enters)
    (taken : takenOn socket act.trace = takenOn socket trace) (ended : act.after = after) :
    after.Waits (act :: history) (inTime act.now) := by
  obtain ⟨out, timer, same, more, begun, early⟩ := path_sendRest_waits path goesOn
  obtain ⟨-, since, -⟩ := (waits_sending sending).mp waits
  rw [waits_sending goesOn, same]
  refine ⟨more, ?_, early⟩
  rw [← taken] at begun
  have held : act.after.phase.socket = some socket := by
    rw [ended, goesOn]
    rfl
  by_cases none : takenOn socket act.trace = []
  · rw [if_pos none] at begun
    rw [begun]
    refine .before ?_ since
    rintro (enters | ⟨other, own, some⟩)
    · exact stays enters
    · obtain rfl : socket = other := Option.some.inj (held.symm.trans own)
      exact some none
  · rw [if_neg none] at begun
    rw [begun]
    exact .now (.inr ⟨socket, held, none⟩)

/-- What a transition without an answer leads to. -/
theorem Moves.waits (act : Act E) (waits : server.Waits history anyTime)
    (moves : Moves act.now server trace after) (phase : act.before.phase = server.phase)
    (request : act.before.request = server.request)
    (taken : ∀ socket, takenOn socket act.trace = takenOn socket trace)
    (ended : act.after = after) :
    after.Waits (act :: history) (inTime act.now) := by
  have enters {was next : Phase E} (before : server.phase = was) (comes : after.phase = next)
      (different : next.name ≠ was.name) : act.Enters := by
    rw [Act.Enters, ended, phase, before, comes]
    exact different
  have stays (same : after.phase.name = server.phase.name) : ¬act.Enters := by
    rw [Act.Enters, ended, phase, same]
    exact fun other => other rfl
  cases moves with
  | accept waiting path =>
    rcases path_accept path with rfl | ⟨socket, remote, rfl, -⟩
    · rw [Waits, waiting]
      trivial
    · have different : "Receiving" ≠ "Waiting" := by decide
      exact ⟨.now (enters waiting rfl different), rfl, elapsed_self_le ..⟩
  | hear receiving path =>
    have different : "Closing" ≠ "Receiving" := by decide
    obtain ⟨-, read, headEnd, rfl | ⟨-, rfl⟩ | ⟨-, rfl⟩⟩ := path_hear path
    · exact waits_hear waits receiving path receiving (stays rfl) request ended
    · exact trivial
    · exact waits_entered (enters receiving rfl different) rfl rfl
  | process processing path =>
    obtain ⟨-, next, rfl, rfl | ⟨found, rfl⟩⟩ := path_process path
    · exact trivial
    · exact trivial
  | send sending path =>
    have different : "Closing" ≠ "Sending" := by decide
    obtain ⟨-, ⟨-, rfl⟩ | ⟨out, timer, -, -, ⟨-, rfl⟩ | rfl | ⟨-, rfl⟩⟩⟩ := path_sendRest path
    · exact waits_entered (enters sending rfl different) rfl rfl
    · exact waits_entered (enters sending rfl different) rfl rfl
    · exact trivial
    · exact waits_sendRest waits sending path sending (stays rfl) (taken _) ended
  | close closing path =>
    obtain ⟨rest, -, -, rfl | rfl | rfl⟩ := path_close path
    · obtain ⟨-, early⟩ := path_close_waits path rfl
      have same : "Closing" = server.phase.name := by rw [closing]; rfl
      exact ⟨.before (stays same) ((waits_closing closing).mp waits).1, early⟩
    · exact trivial
    · exact trivial
  | force forcing path =>
    obtain ⟨-, rfl⟩ := path_forceClose path
    exact trivial

/-- With an answer the server comes to another phase. -/
theorem Turns.leaves {before : List Exchange} {reached : Reached E} {asked : Server E}
    {now : Millis} {next : Phase E} (turns : Turns now server before reached socket asked)
    (answered : next = .sending socket ∨ next = .closing socket false) :
    next.name ≠ server.phase.name := by
  rcases answered with rfl | rfl
  all_goals
    cases turns with
    | refuse phase | route phase | nowhere phase =>
      rw [phase]
      simp [Phase.name]

/-- What remains of an answer that was just made waits since now. -/
theorem waits_settle (act : Act E) {before : List Exchange} {reached : Reached E}
    {ended : Responder} {asked : Server E}
    (turns : Turns act.now server before reached socket asked)
    (settles : Path (asked.settle reached ended socket act.now) trace after)
    (phase : act.before.phase = server.phase) (same : act.after = after) :
    after.Waits (act :: history) (inTime act.now) := by
  have enters (answered : after.phase = .sending socket ∨ after.phase = .closing socket false) :
      act.Enters := by
    rw [Act.Enters, same, phase]
    exact turns.leaves answered
  obtain ⟨out, -, -, -, ⟨more, rfl⟩ | ⟨-, rfl⟩⟩ := path_settle settles
  · exact ⟨more, .now (.inl (enters (.inl rfl))), elapsed_self_le ..⟩
  · exact waits_entered (enters (.inr rfl)) rfl rfl

/-- Every update leaves the server in a phase that it enters now, or where it is in time. -/
theorem Waits.updated (waits : server.Waits history anyTime)
    (path : Path (server.update handlers network context now) trace (after, left)) :
    after.Waits (⟨server, now, trace, after⟩ :: history) (inTime now) := by
  obtain ⟨deed, rfl, serves⟩ := path_update.mp path
  cases serves with
  | drop down dropping =>
    obtain ⟨timer, rfl⟩ := path_dropConnection_waits dropping
    exact trivial
  | @move watch trace watched after up scan moves =>
    have quiet (socket : SocketId) :
        takenOn socket (watch ++ trace ++ [] ++ []) = takenOn socket trace := by
      rw [List.append_nil, List.append_nil, takenOn_append, takenOn_pollSockets scan]
      rfl
    obtain ⟨-, same⟩ := path_pollSockets scan
    have waits : watched.Waits history anyTime := by
      rw [same]
      exact waits
    exact Moves.waits ⟨server, now, _, after⟩ waits moves (congrArg phase same).symm
      (congrArg Server.request same).symm quiet rfl
  | answer up scan turns request begun given made settles =>
    exact waits_settle ⟨server, now, _, after⟩ turns settles
      (scanned_pollSockets scan).phase.symm rfl

theorem Career.waits (career : Career handlers history server) :
    server.Waits history anyTime := by
  -- Time goes on between two updates: only since when the server waits is carried on.
  induction career with
  | built settings routes => exact trivial
  | routed career routes ih => exact ih
  | scanned career path ih =>
    rw [path_checkSockets path]
    exact ih
  | updated career path ih => exact (ih.updated path).untimed

theorem settings_abandonReply (server : Server E) :
    server.abandonReply.settings = server.settings := by
  unfold abandonReply
  dsimp only
  split <;> rfl

theorem settings_completed (server : Server E) (socket : SocketId) (now : Millis) :
    (server.completed socket now).settings = server.settings := by
  unfold completed counted
  dsimp only
  split
  · rfl
  · split <;> rfl

theorem Moves.settings (moves : Moves now server trace after) :
    after.settings = server.settings := by
  cases moves with
  | accept waiting path =>
    rcases path_accept path with rfl | ⟨socket, remote, rfl, -⟩
    · rfl
    · rfl
  | hear receiving path =>
    obtain ⟨-, read, headEnd, rfl | ⟨-, rfl⟩ | ⟨-, rfl⟩⟩ := path_hear path
    all_goals rfl
  | process processing path =>
    obtain ⟨-, next, rfl, -⟩ := path_process path
    rfl
  | send sending path =>
    obtain ⟨-, ⟨-, rfl⟩ | ⟨out, timer, -, -, ⟨-, rfl⟩ | rfl | ⟨-, rfl⟩⟩⟩ := path_sendRest path
    · exact settings_abandonReply server
    · exact settings_completed _ _ now
    · exact settings_abandonReply server
    · rfl
  | close closing path =>
    obtain ⟨rest, -, -, rfl | rfl | rfl⟩ := path_close path
    all_goals rfl
  | force forcing path =>
    obtain ⟨-, rfl⟩ := path_forceClose path
    exact settings_abandonReply server

theorem Turns.settings {before : List Exchange} {reached : Reached E} {asked : Server E}
    (turns : Turns now server before reached socket asked) :
    asked.settings = server.settings := by
  cases turns with
  | refuse receiving path =>
    obtain ⟨-, read, headEnd, rfl | ⟨-, rfl⟩ | ⟨-, rfl⟩⟩ := path_hear path
    all_goals rfl
  | route handling => rfl
  | nowhere failed => rfl

/-- The limits stay what they were when the server was built. -/
theorem path_update_settings
    (path : Path (server.update handlers network context now) trace (after, left)) :
    after.settings = server.settings := by
  obtain ⟨deed, rfl, serves⟩ := path_update.mp path
  cases serves with
  | drop down dropping =>
    obtain ⟨timer, rfl⟩ := path_dropConnection_waits dropping
    exact settings_abandonReply server
  | move up scan moves => exact moves.settings.trans (scanned_pollSockets scan).settings
  | answer up scan turns request begun given made settles =>
    have asked := turns.settings.trans (scanned_pollSockets scan).settings
    obtain ⟨out, -, -, -, ⟨-, rfl⟩ | ⟨-, rfl⟩⟩ := path_settle settles
    · exact asked
    · exact (settings_completed _ _ now).trans asked

theorem Moves.leaves (moves : Moves now server trace after) (passing : server.phase.Passing) :
    after.phase.name ≠ server.phase.name := by
  cases moves with
  | accept phase | hear phase | send phase | close phase =>
    rw [phase] at passing
    cases passing
  | process processing path =>
    rw [processing]
    obtain ⟨-, next, rfl, rfl | ⟨found, rfl⟩⟩ := path_process path
    · simp [Phase.name]
    · simp [Phase.name]
  | force forcing path =>
    rw [forcing]
    obtain ⟨-, rfl⟩ := path_forceClose path
    simp [Phase.name]

/-- A phase that waits for nobody is left in the next update. -/
theorem path_update_leaves (ready : network.ready = true) (passing : server.phase.Passing)
    (path : Path (server.update handlers network context now) trace (after, left)) :
    after.phase.name ≠ server.phase.name := by
  obtain ⟨deed, rfl, serves⟩ := path_update.mp path
  cases serves with
  | drop down dropping => exact nomatch ready.symm.trans down
  | move up scan moves =>
    have kept := (scanned_pollSockets scan).phase
    rw [← kept] at passing ⊢
    exact moves.leaves passing
  | answer up scan turns request begun given made settles =>
    rw [← (scanned_pollSockets scan).phase]
    refine turns.leaves ?_
    obtain ⟨out, -, -, -, ⟨-, rfl⟩ | ⟨-, rfl⟩⟩ := path_settle settles
    · exact .inl rfl
    · exact .inr rfl

/-- No peer holds the connection past the limits. After every update with the network ready, the
server has not waited longer than it may for what it waits for in its phase; a phase in which it
waits for nobody is left; and it holds a socket unless it waits for a connection. The last is so by
the type of a phase, which keeps state and socket together; that the socket changes with the state
only is `path_update_admits`. -/
theorem connection_timely (career : Career handlers history server) (ready : network.ready = true)
    (path : Path (server.update handlers network context now) trace (after, left)) :
    after.Waits (⟨server, now, trace, after⟩ :: history) (inTime now) ∧
      after.settings = server.settings ∧
      (server.phase.Passing → after.phase.name ≠ server.phase.name) ∧
      (after.phase = .waiting ↔ after.phase.socket = none) :=
  ⟨career.waits.updated path, path_update_settings path,
    fun passing => path_update_leaves ready passing path, Phase.socket_eq_none.symm⟩

/-- A peer that sent one byte is waited for until the very end of the time for a request. -/
theorem receiving_at_last_moment :
    let handlers : Empty → Handler Unit := nofun
    let accepted := (({} : Server Empty).update handlers (linkThatIs true) () 0).run
      Sim.Controller.chip calledUpon
    let heard := (accepted.value.1.update handlers (linkThatIs true) () 500).run
      Sim.Controller.chip accepted.state
    heard.value.1.phase = .receiving ⟨0, by decide⟩ ∧
      heard.value.1.accepted.elapsed 500 = 500 ∧
      ∃ history, heard.value.1.Waits history (inTime 500) := by
  intro handlers accepted heard
  have career : Career handlers _ accepted.value.1 :=
    .updated (.built {} {}) (path_run Sim.Controller.chip _ calledUpon)
  have path := path_run Sim.Controller.chip
    (accepted.value.1.update handlers (linkThatIs true) () 500) accepted.state
  have receiving : heard.value.1.phase = .receiving ⟨0, by decide⟩ := by decide +kernel
  have late : heard.value.1.accepted.elapsed 500 = 500 := by decide +kernel
  change Path _ _ heard.value at path
  clear_value heard
  exact ⟨receiving, late, _, (connection_timely career rfl path).1⟩

end Server

end BoardNet.Http
