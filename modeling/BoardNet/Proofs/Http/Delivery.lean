import BoardNet.Proofs.Http.Accounting
import BoardNet.Proofs.Http.Conduct

namespace BoardNet.Http

open Poll

variable {E C : Type}

/-- Any number of later pumps, with any limits on one write. -/
inductive Outbox.Pumps (socket : SocketId) : Outbox → List Exchange → Outbox → Prop where
  | none (out : Outbox) : Pumps socket out [] out
  | pump {out last : Outbox} {chunk : Nat} {trace later : List Exchange} {pumped : Pumped out}
      (path : Path (out.pump socket chunk) trace pumped)
      (rest : Pumps socket pumped.out later last) : Pumps socket out (trace ++ later) last

theorem Outbox.Holds.pumps {made taken : List UInt8} {out last : Outbox} {socket : SocketId}
    {trace : List Exchange} (holds : out.Holds made taken) (pumps : Pumps socket out trace last) :
    last.Holds made (taken ++ takenOn socket trace) := by
  induction pumps generalizing taken with
  | none out =>
    rw [takenOn_nil, List.append_nil]
    exact holds
  | pump path rest ih =>
    obtain ⟨fed, sent, -⟩ := path_pump path
    rw [takenOn_append, ← List.append_assoc]
    exact ih (holds.fed fed sent)

/-- What makes each answer, when the application's handlers are such conducts. -/
def Reached.conduct (conducts : E → Request → C → Responder → Conduct C) :
    Reached E → Request → C → Responder → Conduct C
  | .refusal code => fun _ context _ =>
    .once (.sendText code "text/plain" (Server.refusal code)) context
  | .route (.endpoint (.page page)) | .nowhere (some (.page page)) => fun _ => page.conduct
  | .route (.endpoint (.handler name)) | .nowhere (some (.handler name)) => conducts name
  | .route (.file file) => fun _ context _ =>
    .once (.sendFixed 200 file.contentType file.body) context
  | .nowhere none => fun _ context _ => .once (.sendText 404 "text/plain" "Not Found") context

theorem Reached.handler_eq (conducts : E → Request → C → Responder → Conduct C)
    (reached : Reached E) :
    reached.handler (fun name => Conduct.handler (conducts name)) =
      Conduct.handler (reached.conduct conducts) := by
  cases reached with
  | refusal code =>
    exact (Conduct.handler_once (.sendText code "text/plain" (Server.refusal code))).symm
  | route found =>
    cases found with
    | endpoint place =>
      cases place with
      | page page => exact StatusPage.answer_eq_handler page
      | handler name => rfl
    | file file =>
      exact (Conduct.handler_once (.sendFixed 200 file.contentType file.body)).symm
  | nowhere place =>
    cases place with
    | none => exact (Conduct.handler_once (.sendText 404 "text/plain" "Not Found")).symm
    | some place =>
      cases place with
      | page page => exact StatusPage.answer_eq_handler page
      | handler name => rfl

namespace Answer

/-- These bytes were made in the making of the answer. -/
def Produced (answer : Answer E C) (conducts : E → Request → C → Responder → Conduct C)
    (made : List UInt8) : Prop :=
  Path ((answer.reached.conduct conducts answer.request answer.context answer.begun).play
    answer.begun) answer.trace (answer.ended, answer.left, made)

theorem Made.produced {answer : Answer E C} {conducts : E → Request → C → Responder → Conduct C}
    (made : answer.Made fun name => Conduct.handler (conducts name)) :
    ∃ bytes, answer.Produced conducts bytes := by
  unfold Made at made
  rw [Reached.handler_eq, Conduct.handler, path_bind] at made
  obtain ⟨trace, rest, ⟨ended, left, bytes⟩, same, playing, path⟩ := made
  obtain ⟨rfl, pair⟩ := path_done.mp path
  cases pair
  rw [List.append_nil] at same
  refine ⟨bytes, ?_⟩
  unfold Produced
  rw [same]
  exact playing

end Answer

namespace Server

def traceOf (history : List (Deed E C)) : List Exchange := history.flatMap (·.trace)

theorem traceOf_append (history : List (Deed E C)) (deed : Deed E C) :
    traceOf (history ++ [deed]) = traceOf history ++ deed.trace := by
  simp [traceOf]

variable {conducts : E → Request → C → Responder → Conduct C} {socket : SocketId}
  {history : List (Deed E C)} {start server after : Server E} {now : Millis} {out : Outbox}

/-- The one answer is on its way: what the controller took on the socket and what waits in the
outbox are the bytes that were made for it. -/
structure Conveys (conducts : E → Request → C → Responder → Conduct C) (socket : SocketId)
    (history : List (Deed E C)) (out : Outbox) (answer : Answer E C) (made : List UInt8) :
    Prop where
  only : answersOf history = [answer]
  produced : answer.Produced conducts made
  holds : out.Holds made (takenOn socket (traceOf history))
  overflowed : out.overflowed = answer.ended.out.overflowed

/-- The one answer was made along a route, nothing of it was lost, and the controller has taken all
of it. -/
structure Conveyed (conducts : E → Request → C → Responder → Conduct C) (socket : SocketId)
    (history : List (Deed E C)) (answer : Answer E C) (made : List UInt8) : Prop where
  only : answersOf history = [answer]
  routed : ∃ found, answer.reached = .route found
  produced : answer.Produced conducts made
  whole : answer.ended.out.overflowed = false
  taken : takenOn socket (traceOf history) = made

/-- Counting a response that has wholly gone as a success is counting one that was conveyed. -/
private theorem Conveys.completed {answer : Answer E C} {made : List UInt8}
    (conveys : Conveys conducts socket history server.out answer made)
    (pending : Pending start history server) (empty : server.out.isEmpty = true)
    (success : (server.completed socket now).stats.succeeded ≠ server.stats.succeeded) :
    (server.completed socket now).stats.succeeded = server.stats.succeeded + 1 ∧
      Conveyed conducts socket history answer made := by
  cases pending with
  | @reply other found reply only routed overflowed counted =>
    obtain ⟨status, some⟩ := Option.isSome_iff_exists.mp reply
    obtain rfl : other = answer := List.singleton_inj.mp (only.symm.trans conveys.only)
    unfold Server.completed Server.counted at success ⊢
    rw [some] at success ⊢
    dsimp only at success ⊢
    by_cases lost : server.out.overflowed = true
    · rw [if_pos lost] at success
      exact absurd rfl success
    · rw [if_neg lost]
      have whole : server.out.overflowed = false := Bool.not_eq_true _ ▸ lost
      have none : server.out.toList = [] := by
        apply List.eq_nil_of_length_eq_zero
        rw [Outbox.length_toList]
        simpa [Outbox.isEmpty] using empty
      have bytes := conveys.holds.bytes whole
      rw [none, List.append_nil] at bytes
      exact ⟨rfl, only, ⟨found, routed⟩, conveys.produced, overflowed.symm.trans whole, bytes⟩
  | refusal reply most counted =>
    unfold Server.completed Server.counted at success
    rw [reply] at success
    exact absurd rfl success

theorem succeeded_abandonReply (server : Server E) :
    server.abandonReply.stats.succeeded = server.stats.succeeded := by
  unfold abandonReply
  dsimp only
  split <;> rfl

/-- What is known of the bytes of a connection: none before an answer, and all of them while its
answer is on its way. -/
structure Carries (conducts : E → Request → C → Responder → Conduct C) (socket : SocketId)
    (history : List (Deed E C)) (server : Server E) : Prop where
  unanswered : server.phase.stage = .unanswered → takenOn socket (traceOf history) = []
  sending : server.phase.stage = .sending →
    ∃ answer made, Conveys conducts socket history server.out answer made

/-- Successes are counted only for responses that were conveyed. -/
def CountsConveyed (conducts : E → Request → C → Responder → Conduct C) (socket : SocketId)
    (history : List (Deed E C)) (server after : Server E) : Prop :=
  after.stats.succeeded ≠ server.stats.succeeded →
    after.stats.succeeded = server.stats.succeeded + 1 ∧
      ∃ answer made, Conveyed conducts socket history answer made

private theorem countsConveyed_of_eq (same : after.stats.succeeded = server.stats.succeeded) :
    CountsConveyed conducts socket history server after := by
  intro changed
  exact absurd same changed

/-- What the controller took in one more update comes behind what it took before. -/
private theorem takenOn_deed {trace : List Exchange} {deed : Deed E C} (history : List (Deed E C))
    (taken : takenOn socket deed.trace = takenOn socket trace) :
    takenOn socket (traceOf (history ++ [deed])) =
      takenOn socket (traceOf history) ++ takenOn socket trace := by
  rw [traceOf_append, takenOn_append, taken]

private theorem Carries.sent {trace : List Exchange} {deed : Deed E C}
    (carries : Carries conducts socket history server)
    (standing : Standing start socket history server) (sending : server.phase = .sending socket)
    (path : Path (server.sendRest socket now) trace after) (silent : deed.answer = none)
    (taken : takenOn socket deed.trace = takenOn socket trace) :
    Carries conducts socket (history ++ [deed]) after ∧
      CountsConveyed conducts socket (history ++ [deed]) server after := by
  have stands := standing.stands
  rw [sending] at stands
  have answers := answersOf_silent silent history
  have total := takenOn_deed history taken
  obtain ⟨answer, made, conveys⟩ := carries.sending (by rw [sending]; rfl)
  obtain ⟨-, same⟩ := path_sendRest path
  rcases same with ⟨-, rfl⟩ | ⟨out, timer, fed, sent, same⟩
  · exact ⟨⟨nofun, nofun⟩, countsConveyed_of_eq (succeeded_abandonReply server)⟩
  · have conveying : Conveys conducts socket (history ++ [deed]) out answer made := by
      refine ⟨answers.trans conveys.only, conveys.produced, ?_, ?_⟩
      · rw [total]
        exact conveys.holds.fed fed sent
      · exact fed.overflowed.trans conveys.overflowed
    rcases same with ⟨empty, rfl⟩ | rfl | ⟨-, rfl⟩
    · refine ⟨⟨nofun, nofun⟩, ?_⟩
      intro changed
      have pending : Pending start (history ++ [deed]) ({ server with out, timer } : Server E) :=
        stands.1.congr answers fed.overflowed rfl rfl rfl
      obtain ⟨once, conveyed⟩ := Conveys.completed conveying pending empty changed
      exact ⟨once, answer, made, conveyed⟩
    · exact ⟨⟨nofun, nofun⟩, countsConveyed_of_eq (succeeded_abandonReply server)⟩
    · refine ⟨⟨?_, fun _ => ⟨answer, made, conveying⟩⟩, countsConveyed_of_eq rfl⟩
      rw [sending]
      nofun

private theorem Carries.moved {trace : List Exchange} {deed : Deed E C}
    (carries : Carries conducts socket history server)
    (standing : Standing start socket history server) (going : server.phase ≠ .waiting)
    (moves : Moves now server trace after) (silent : deed.answer = none)
    (taken : takenOn socket deed.trace = takenOn socket trace) :
    Carries conducts socket (history ++ [deed]) after ∧
      CountsConveyed conducts socket (history ++ [deed]) server after := by
  have total := takenOn_deed history taken
  cases moves with
  | accept waiting path => exact absurd waiting going
  | @hear source trace after receiving path =>
    obtain ⟨idle, request, headEnd, same⟩ := path_hear path
    rw [idle.taken, List.append_nil] at total
    have none := carries.unanswered (by rw [receiving]; rfl)
    rcases same with rfl | ⟨-, rfl⟩ | ⟨-, rfl⟩
    · refine ⟨⟨fun _ => total.trans none, ?_⟩, countsConveyed_of_eq rfl⟩
      rw [receiving]
      nofun
    · exact ⟨⟨fun _ => total.trans none, nofun⟩, countsConveyed_of_eq rfl⟩
    · exact ⟨⟨nofun, nofun⟩, countsConveyed_of_eq rfl⟩
  | @process source trace after processing path =>
    obtain ⟨idle, next, rfl, leads⟩ := path_process path
    rw [idle.taken, List.append_nil] at total
    have none := carries.unanswered (by rw [processing]; rfl)
    refine ⟨⟨fun _ => total.trans none, ?_⟩, countsConveyed_of_eq rfl⟩
    rcases leads with rfl | ⟨found, rfl⟩ <;> exact nofun
  | @send source trace after sending path =>
    obtain rfl : source = socket := standing.held source (by rw [sending]; rfl)
    exact carries.sent standing sending path silent taken
  | close closing path =>
    obtain ⟨rest, -, -, same⟩ := path_close path
    rcases same with rfl | rfl | rfl
    · exact ⟨⟨nofun, nofun⟩, countsConveyed_of_eq rfl⟩
    · exact ⟨⟨nofun, nofun⟩, countsConveyed_of_eq rfl⟩
    · exact ⟨⟨nofun, nofun⟩, countsConveyed_of_eq rfl⟩
  | force forcing path =>
    obtain ⟨-, rfl⟩ := path_forceClose path
    exact ⟨⟨nofun, nofun⟩, countsConveyed_of_eq (succeeded_abandonReply server)⟩

private theorem Carries.answered {before trace : List Exchange} {answer : Answer E C}
    {held : SocketId} {asked : Server E} {deed : Deed E C} {network : Link.Status}
    (carries : Carries conducts socket history server)
    (standing : Standing start socket history server)
    (turns : Turns now server before answer.reached held asked)
    (begun : answer.begun = asked.responder held network)
    (made : answer.Made fun name => Conduct.handler (conducts name))
    (settles : Path (asked.settle answer.reached answer.ended held now) trace after)
    (given : deed.answer = some answer)
    (taken : takenOn socket deed.trace = takenOn socket (before ++ (answer.trace ++ trace))) :
    Carries conducts socket (history ++ [deed]) after ∧
      CountsConveyed conducts socket (history ++ [deed]) server after := by
  obtain ⟨rfl, idle, -, empty, -⟩ := standing.turned turns
  obtain ⟨early, uncounted⟩ := turns.early
  obtain ⟨bytes, produced⟩ := made.produced
  have starts : answer.begun.Holds [] [] := by
    rw [begun, responder, empty]
    exact Responder.holds_start _ _ _ _
  obtain ⟨played, kept⟩ := Conduct.path_play produced starts
  have source : answer.begun.socket = held := by
    rw [begun]
    rfl
  rw [source] at kept played
  obtain ⟨out, -, fed, sent, same⟩ := path_settle settles
  rw [kept] at fed sent
  obtain ⟨only, pending⟩ := standing.pending turns given fed.overflowed
  have total : takenOn held (traceOf (history ++ [deed])) =
      takenOn held answer.trace ++ takenOn held trace := by
    rw [traceOf_append, takenOn_append, carries.unanswered early, taken, takenOn_append, idle.taken,
      takenOn_append, List.nil_append, List.nil_append]
  have conveys : Conveys conducts held (history ++ [deed]) out answer bytes :=
    ⟨only, produced, by rw [total]; exact played.out.fed fed sent, fed.overflowed⟩
  rcases same with ⟨-, rfl⟩ | ⟨gone, rfl⟩
  · exact ⟨⟨nofun, fun _ => ⟨answer, bytes, conveys⟩⟩, countsConveyed_of_eq uncounted⟩
  · refine ⟨⟨nofun, nofun⟩, ?_⟩
    intro changed
    rw [← uncounted] at changed ⊢
    obtain ⟨once, conveyed⟩ := Conveys.completed conveys pending gone changed
    exact ⟨once, answer, bytes, conveyed⟩

variable {network : Link.Status} {context left : C} {deed : Deed E C}

private theorem Carries.scanned {watch : List Exchange} {watched : Server E}
    (carries : Carries conducts socket history server)
    (scan : Path (server.pollSockets now) watch watched) :
    Carries conducts socket history watched ∧
      watched.stats.succeeded = server.stats.succeeded := by
  have kept := scanned_pollSockets scan
  refine ⟨⟨?_, ?_⟩, kept.succeeded⟩
  · rw [kept.phase]
    exact carries.unanswered
  · rw [kept.phase, kept.out]
    exact carries.sending

/-- Every update keeps account of the bytes, and counts a success only when all were taken. -/
theorem Carries.served (carries : Carries conducts socket history server)
    (standing : Standing start socket history server) (going : server.phase ≠ .waiting)
    (serves : Serves (fun name => Conduct.handler (conducts name)) network now server context deed
      after left) :
    Carries conducts socket (history ++ [deed]) after ∧
      CountsConveyed conducts socket (history ++ [deed]) server after := by
  cases serves with
  | drop down path =>
    have dropped := path_dropConnection path
    rw [(standing.abandoned going).1] at dropped
    obtain ⟨-, rfl⟩ := dropped
    exact ⟨⟨nofun, nofun⟩, countsConveyed_of_eq (succeeded_abandonReply server)⟩
  | @move watch trace watched after up scan moves =>
    obtain ⟨phase, scanned⟩ := standing.scanned scan
    obtain ⟨carried, same⟩ := carries.scanned scan
    let deed : Deed E C := { ready := true, watch, before := trace }
    have taken : takenOn socket deed.trace = takenOn socket trace := by
      simp [deed, Deed.trace, takenOn_pollSockets scan]
    have led := carried.moved scanned (by rw [phase]; exact going) moves rfl taken
    unfold CountsConveyed at led ⊢
    rw [same] at led
    exact led
  | @answer watch before trace watched asked after source answer up scan turns request begun given
      made settles =>
    obtain ⟨phase, scanned⟩ := standing.scanned scan
    obtain ⟨carried, same⟩ := carries.scanned scan
    let deed : Deed E C := { ready := true, watch, before, answer, after := trace }
    have taken : takenOn socket deed.trace =
        takenOn socket (before ++ (answer.trace ++ trace)) := by
      simp [deed, Deed.trace, takenOn_pollSockets scan]
    have led := carried.answered scanned turns begun made settles rfl taken
    unfold CountsConveyed at led ⊢
    rw [same] at led
    exact led

/-- The bytes of a connection are accounted for throughout its course. -/
theorem Course.carries
    (course : Course (fun name => Conduct.handler (conducts name)) start socket history server) :
    Carries conducts socket history server := by
  induction course with
  | accepted waiting updates receiving => exact ⟨fun _ => rfl, by rw [receiving]; exact nofun⟩
  | update course going updates ih => exact (ih.served course.standing going updates.serves).1

/-- No success is counted while the server waits for a connection. -/
private theorem succeeded_waiting {handlers : E → Handler C} {trace : List Exchange}
    (waiting : server.phase = .waiting)
    (path : Path (server.update handlers network context now) trace (after, left)) :
    after.stats.succeeded = server.stats.succeeded := by
  obtain ⟨deed, -, serves⟩ := path_update.mp path
  cases serves with
  | drop down dropping =>
    have dropped := path_dropConnection dropping
    rw [waiting] at dropped
    obtain ⟨-, rfl⟩ := dropped
    exact succeeded_abandonReply server
  | @move watch trace watched after up scan moves =>
    have kept := scanned_pollSockets scan
    have accepting := moves.of_waiting (kept.phase.trans waiting)
    rcases path_accept accepting with rfl | ⟨source, remote, rfl, -⟩
    · exact kept.succeeded
    · exact kept.succeeded
  | @answer watch before trace watched asked after source answer up scan turns =>
    exact absurd ((scanned_pollSockets scan).phase.trans waiting) turns.not_waiting

/-- What is delivered of the response on a connection, at each moment of its course. -/
structure Delivers (conducts : E → Request → C → Responder → Conduct C) (start : Server E)
    (socket : SocketId) (history : List (Deed E C)) (server : Server E) : Prop where
  /-- What was taken and what waits are the bytes that were made. -/
  sending : server.phase = .sending socket →
    ∃ answer made, Conveys conducts socket history server.out answer made
  /-- The next update counts a success only if the controller has then taken all that was made. -/
  success : ∀ {network : Link.Status} {now : Millis} {context left : C} {deed : Deed E C}
    {after : Server E},
    Updates (fun name => Conduct.handler (conducts name)) network now server context deed after
        left →
      server.phase ≠ .waiting → CountsConveyed conducts socket (history ++ [deed]) server after
  /-- A response of which something was lost counts as a failure once it is no longer sent. -/
  overflowed : ∀ answer ∈ answersOf history, answer.ended.out.overflowed = true →
    Counted start server 0 1 ∨ server.phase = .sending socket ∧ Counted start server 0 0

private theorem Settled.of_overflowed (settled : Settled start history server)
    {answer : Answer E C} (member : answer ∈ answersOf history)
    (lost : answer.ended.out.overflowed = true) : Counted start server 0 1 := by
  cases settled with
  | success only routed whole counted =>
    rw [only] at member
    obtain rfl := List.mem_singleton.mp member
    exact nomatch whole.symm.trans lost
  | failure most counted => exact counted

private theorem Standing.of_overflowed (standing : Standing start socket history server)
    {answer : Answer E C} (member : answer ∈ answersOf history)
    (lost : answer.ended.out.overflowed = true) :
    Counted start server 0 1 ∨ server.phase = .sending socket ∧ Counted start server 0 0 := by
  rcases standing.outcome with ⟨-, none⟩ | ⟨stage, pending⟩ | settled
  · rw [none] at member
    cases member
  · cases pending with
    | reply some only routed overflowed counted =>
      refine .inr ⟨?_, counted⟩
      cases phase : server.phase with
      | sending held => rw [standing.held held (by rw [phase]; rfl)]
      | _ =>
        rw [phase] at stage
        cases stage
    | refusal none most counted => exact .inl counted
  · exact .inl (settled.of_overflowed member lost)

/-- Response bytes are conserved: through a handler and any number of later pumps, what the
controller took followed by what waits is what was made, unless some was lost. So a success is
counted only at a moment when the controller has taken all of a response, and never for one of which
some was lost. -/
theorem response_bytes_conserved (conducts : E → Request → C → Responder → Conduct C) :
    (∀ {A : Type} {conduct : Conduct A} {socket : SocketId} {chunk : Nat} {network : Link.Status}
        {stats : Stats} {trace later : List Exchange} {ended : Responder} {result : A}
        {made : List UInt8} {out : Outbox},
      Path (conduct.play (.start socket chunk {} network stats)) trace (ended, result, made) →
      Outbox.Pumps socket ended.out later out →
      out.Holds made (takenOn socket (trace ++ later)) ∧ ended.produced = made.length) ∧
    (∀ {start server : Server E} {socket : SocketId} {history : List (Deed E C)},
      Course (fun name => Conduct.handler (conducts name)) start socket history server →
      Delivers conducts start socket history server) ∧
    (∀ {network : Link.Status} {now : Millis} {server after : Server E} {context left : C}
        {trace : List Exchange}, server.phase = .waiting →
      Path (server.update (fun name => Conduct.handler (conducts name)) network context now) trace
        (after, left) → after.stats.succeeded = server.stats.succeeded) := by
  refine ⟨?_, ?_, succeeded_waiting⟩
  · intro A conduct socket chunk network stats trace later ended result made out playing pumps
    obtain ⟨played, -⟩ := Conduct.path_play playing (Responder.holds_start _ _ _ _)
    rw [takenOn_append]
    exact ⟨played.out.pumps pumps, played.produced⟩
  · intro start server socket history course
    constructor
    · intro sending
      apply course.carries.sending
      rw [sending]
      rfl
    · intro network now context left deed after updates going
      exact (course.carries.served course.standing going updates.serves).2
    · intro answer
      exact course.standing.of_overflowed

def welcome : Unit → Request → Unit → Responder → Conduct Unit :=
  fun _ _ context _ => .once (.sendText 200 "text/plain" "Hello") context

theorem greeting_eq : greeting = fun name => Conduct.handler (welcome name) :=
  funext fun _ => (Conduct.handler_once (.sendText 200 "text/plain" "Hello")).symm

/-- A peer to whom not more than two bytes can be sent at present. -/
def slowPeer (visitor : SocketId) : Sim.Controller := withSpaceFor calledUpon visitor 2

/-- Of three bytes that are written the controller takes two, and one by a later pump. And of a
greeting it takes a part when it is made; what it has taken by then and what waits are the greeting,
and it has all of it when the success is counted. -/
theorem greeting_conserved :
    let visitor : SocketId := ⟨0, by decide⟩
    (∃ (trace later : List Exchange) (ended : Responder) (out : Outbox),
      Outbox.Pumps visitor ended.out later out ∧ takenOn visitor trace = [1, 2] ∧
      takenOn visitor later = [3] ∧ out.Holds [1, 2, 3] (takenOn visitor (trace ++ later))) ∧
    (∃ (history : List (Deed Unit Unit)) (halfway sent : Server Unit) (sending : Deed Unit Unit),
      Delivers welcome rootServed visitor history halfway ∧
      (∃ answer made, Conveys welcome visitor history halfway.out answer made) ∧
      sent.stats.succeeded = halfway.stats.succeeded + 1 ∧
      ∃ answer made, Conveyed welcome visitor (history ++ [sending]) answer made) ∧
    let accepted := (rootServed.update greeting (linkThatIs true) () 0).run Sim.Controller.chip
      (rootAskedFor visitor)
    accepted.value.1.stats.succeeded = rootServed.stats.succeeded := by
  intro visitor
  obtain ⟨conserved, delivers, waits⟩ := response_bytes_conserved welcome
  rw [← greeting_eq] at delivers waits
  refine ⟨?_, ?_, waits rfl (path_run Sim.Controller.chip _ (rootAskedFor visitor))⟩
  · let chip := Sim.Controller.chip
    let begun : Responder := .start visitor 2 {} (linkThatIs true) {}
    let writing := Operation.perform (.write [1, 2, 3]) begun
    let slow := slowPeer visitor
    let written := writing.run chip slow
    let pumping := written.value.out.pump visitor 2
    let acknowledged := written.state.acknowledge visitor
    have plays : Path ((Conduct.once (.write [1, 2, 3]) ()).play begun)
        (writing.exchanges chip slow) (written.value, (), [1, 2, 3]) := by
      rw [Conduct.play_once]
      exact path_bind.mpr ⟨_, [], _, (List.append_nil _).symm, path_run chip writing slow,
        .done _⟩
    have pumps : Outbox.Pumps visitor written.value.out (pumping.exchanges chip acknowledged ++ [])
        (pumping.run chip acknowledged).value.out :=
      .pump (path_run chip pumping acknowledged) (.none _)
    have taken : takenOn visitor (writing.exchanges chip slow) = [1, 2] ∧
        takenOn visitor (pumping.exchanges chip acknowledged ++ []) = [3] := by
      decide +kernel
    exact ⟨_, _, _, _, pumps, taken.1, taken.2, (conserved plays pumps).1⟩
  · obtain ⟨history, halfway, sent, _, sending, _, course, phase, ⟨_, updates⟩, none, one, -⟩ :=
      exists_greeted
    have delivers := delivers course
    have conveyed := delivers.success (greeting_eq ▸ updates) (by rw [phase]; exact nofun)
    obtain ⟨more, conveyed⟩ := conveyed (by rw [none, one]; decide)
    exact ⟨history, halfway, sent, sending, delivers, delivers.sending phase, more, conveyed⟩

end Server

end BoardNet.Http
