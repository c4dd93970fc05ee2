import BoardNet.Http.Server
import BoardNet.Proofs.Http.Responder
import BoardNet.Proofs.Scan

namespace BoardNet.Http

open Poll

namespace SlotWatch

/-- The watch closes no socket that serves a request, and ends no connection otherwise. It sends
nothing. -/
def Allows (active : Option SocketId) (effect : Effect) : Prop :=
  effect.isIdle ∨ ∃ socket, effect = .call (.close socket) ∧ some socket ≠ active

/-- What is asked when sockets are looked at. -/
structure Inspects (allowed : Effect → Prop) (active : Option SocketId) : Prop where
  status : ∀ socket, allowed (.call (.socketStatus socket))
  bound : ∀ socket, allowed (.call (.socketPort socket))
  waiting : ∀ socket, allowed (.call (.rxAvailable socket))
  close : ∀ socket, some socket ≠ active → allowed (.call (.close socket))
  record : ∀ record, allowed (.record record)

variable {settings : Settings} {active : Option SocketId} {now : Millis} {allowed : Effect → Prop}

theorem asks_inspect (inspects : Inspects allowed active) (socket : SocketId) (shadow : Shadow) :
    (inspect settings active now socket shadow).Asks allowed := by
  refine (asks_nic.mpr (inspects.status socket)).bind fun status => ?_
  refine (asks_nic.mpr (inspects.bound socket)).bind fun port => ?_
  split
  · trivial
  · split
    · trivial
    · next other =>
      have stuck (age : Millis) : (isStuck settings socket shadow age).Asks allowed := by
        unfold isStuck
        split
        · trivial
        · split
          · exact (asks_nic.mpr (inspects.waiting socket)).bind fun waiting => trivial
          · trivial
      refine (stuck _).bind fun found => ?_
      split
      · refine (asks_log.mpr (inspects.record _)).bind fun _ => ?_
        exact (asks_nic.mpr (inspects.close socket other)).bind fun _ => trivial
      · trivial

theorem asks_inspectAll (inspects : Inspects allowed active) (sockets : List SocketId)
    (watch : SlotWatch) (closed : Nat) :
    (inspectAll settings active now sockets watch closed).Asks allowed := by
  induction sockets generalizing watch closed with
  | nil => trivial
  | cons socket sockets ih => exact (asks_inspect inspects socket _).bind fun seen => ih _ _

theorem inspects_allows : Inspects (Allows active) active where
  status := fun _ => .inl ⟨rfl, rfl⟩
  bound := fun _ => .inl ⟨rfl, rfl⟩
  waiting := fun _ => .inl ⟨rfl, rfl⟩
  close := fun socket other => .inr ⟨socket, rfl, other⟩
  record := fun _ => .inl ⟨rfl, rfl⟩

theorem asks_restoreListener (inspects : Inspects allowed active)
    (count : allowed (.call .socketCount)) (listen : ∀ port, allowed (.call (.listen port))) :
    (restoreListener settings).Asks allowed := by
  refine (Nic.asks_isListening count inspects.status inspects.bound).bind fun listening => ?_
  split
  · trivial
  · refine (asks_nic.mpr (listen _)).bind fun opened => ?_
    cases opened with
    | ok socket => exact (asks_log.mpr (inspects.record _)).bind fun _ => trivial
    | error error => exact (asks_log.mpr (inspects.record _)).bind fun _ => trivial

theorem asks_poll (inspects : Inspects allowed active) (count : allowed (.call .socketCount))
    (listen : ∀ port, allowed (.call (.listen port))) (watch : SlotWatch) :
    (watch.poll settings active now).Asks allowed := by
  unfold poll
  split
  · trivial
  · refine Asks.bind ?_ fun result => trivial
    refine (asks_nic.mpr count).bind fun number => ?_
    refine (asks_inspectAll inspects _ _ _).bind fun seen => ?_
    exact (asks_restoreListener inspects count listen).bind fun restarted => trivial

theorem allows_poll (watch : SlotWatch) : (watch.poll settings active now).Asks (Allows active) :=
  asks_poll inspects_allows (.inl ⟨rfl, rfl⟩) (fun _ => .inl ⟨rfl, rfl⟩) watch

end SlotWatch

namespace Outbox

variable {allowed : Effect → Prop} {socket : SocketId}

/-- Moving bytes only asks for space and sends. -/
theorem asks_drain {out : Outbox} {chunk : Nat} (free : allowed (.call (.txFree socket)))
    (send : ∀ data, allowed (.call (.send socket data))) :
    (out.drain socket chunk).Asks allowed := by
  induction out using drain.induct chunk with
  | case1 out ih =>
    rw [drain]
    refine (asks_nic.mpr free).bind fun space => ?_
    dsimp only
    split
    · trivial
    · next some =>
      refine (asks_nic.mpr (send _)).bind fun taken => ?_
      split
      · trivial
      · next full => exact (ih space some taken full).bind fun _ => trivial

theorem asks_pump {out : Outbox} {chunk : Nat} (free : allowed (.call (.txFree socket)))
    (send : ∀ data, allowed (.call (.send socket data))) :
    (out.pump socket chunk).Asks allowed :=
  (asks_drain free send).bind fun _ => trivial

end Outbox

/-- Pushing asks for space, sends, and puts on record what is lost. -/
theorem Responder.asks_push {allowed : Effect → Prop} {responder : Responder} {data : List UInt8}
    (free : ∀ socket, allowed (.call (.txFree socket)))
    (send : ∀ socket piece, allowed (.call (.send socket piece)))
    (lost : ∀ (socket : SocketId) (count : Nat), allowed
      (.record ⟨.warn, s!"http: socket {socket.val} outbox full, {count} bytes lost"⟩)) :
    (responder.push data).Asks allowed := by
  induction responder, data using Responder.push.induct with
  | case1 responder =>
    rw [Responder.push, if_pos rfl]
    exact asks_done _
  | case2 responder data some staged out =>
    rename_i full ih
    rw [Responder.push, if_neg some]
    dsimp only
    rw [if_pos full]
    refine (Outbox.asks_pump (free _) (send _)).bind fun pumped => ?_
    split
    · split
      · exact (asks_log.mpr (lost _ _)).bind fun _ => asks_done _
      · exact asks_done _
    · next going => exact ih pumped going
  | case3 responder data some staged out =>
    rename_i spare ih
    rw [Responder.push, if_neg some]
    dsimp only
    rw [if_neg spare]
    exact ih

/-- Finishing asks for no more than moving bytes does. -/
theorem Responder.asks_finish {allowed : Effect → Prop} {responder : Responder}
    (free : allowed (.call (.txFree responder.socket)))
    (send : ∀ data, allowed (.call (.send responder.socket data))) :
    responder.finish.Asks allowed :=
  (Outbox.asks_pump free send).bind fun _ => trivial

namespace Server

variable {E : Type} {server after : Server E} {now : Millis} {socket : SocketId}
  {trace : List Exchange}

theorem value_enter (server : Server E) (next : Phase E) (now : Millis) :
    (server.enter next now).value = { server with phase := next, timer := ⟨now⟩ } := rfl

/-- What a scan leaves alone. -/
theorem path_pollSockets (path : Path (server.pollSockets now) trace after) :
    (∀ exchange ∈ trace, SlotWatch.Allows server.phase.socket exchange.effect) ∧
      after = { server with
        watch := after.watch
        stats := { server.stats with
          restarts := after.stats.restarts
          reclaimed := after.stats.reclaimed } } := by
  rw [pollSockets, path_bind] at path
  obtain ⟨trace, rest, ⟨watch, sweep⟩, rfl, polling, path⟩ := path
  have allowed := polling.effect_allowed (SlotWatch.allows_poll _)
  cases sweep with
  | some sweep =>
    obtain ⟨rfl, rfl⟩ := path_done.mp path
    exact ⟨by simpa using allowed, rfl⟩
  | none =>
    obtain ⟨rfl, rfl⟩ := path_done.mp path
    exact ⟨by simpa using allowed, rfl⟩

/-- A scan sends nothing. -/
theorem takenOn_pollSockets (path : Path (server.pollSockets now) trace after)
    (socket : SocketId) : takenOn socket trace = [] := by
  refine takenOn_eq_nil socket fun exchange member => ?_
  rcases (path_pollSockets path).1 exchange member with idle | ⟨other, closed, -⟩
  · exact idle.1
  · rw [closed]
    rfl

/-- A scan changes neither phase nor settings, and leaves the response and the counts of requests as
they are. -/
structure Scanned (server watched : Server E) : Prop where
  phase : watched.phase = server.phase
  settings : watched.settings = server.settings
  out : watched.out = server.out
  reply : watched.reply = server.reply
  succeeded : watched.stats.succeeded = server.stats.succeeded
  failed : watched.stats.failed = server.stats.failed

theorem scanned_pollSockets (path : Path (server.pollSockets now) trace after) :
    Scanned server after := by
  obtain ⟨-, kept⟩ := path_pollSockets path
  constructor
  all_goals rw [kept]

def accepting (server : Server E) (socket : SocketId) (remote : Ipv4) (now : Millis) : Server E :=
  { server with
    phase := .receiving socket
    timer := ⟨now⟩
    accepted := ⟨now⟩
    headEnd := none
    request := Request.start remote
    out := {}
    reply := none }

/-- A connection is accepted that was seen on the service port, or nothing changes. -/
theorem path_accept (path : Path (server.accept now) trace after) :
    after = server ∨ ∃ socket remote, after = server.accepting socket remote now ∧
      Nic.Found server.settings.port socket trace := by
  rw [accept, path_bind] at path
  obtain ⟨scanning, trace, found, rfl, scan, path⟩ := path
  cases found with
  | none => exact .inl (path_done.mp path).2
  | some socket =>
    have seen := (Nic.path_findConnected scan).1.before trace
    refine .inr ⟨socket, ?_⟩
    dsimp only at path
    rw [Nic.remoteIp, path_nic_bind] at path
    obtain ⟨remote, trace, rfl, path⟩ := path
    rw [path_log_bind] at path
    obtain ⟨trace, rfl, path⟩ := path
    rw [path_lift_bind] at path
    obtain ⟨trace, rfl, path⟩ := path
    rw [path_bind] at path
    obtain ⟨_, trace, listening, rfl, -, path⟩ := path
    refine ⟨remote, ?_, seen⟩
    split at path
    · exact (path_done.mp path).2
    · rw [Nic.listen, path_nic_bind] at path
      obtain ⟨opened, trace, rfl, path⟩ := path
      cases opened with
      | ok other => exact (path_done.mp path).2
      | error error =>
        rw [path_log_bind] at path
        obtain ⟨trace, rfl, path⟩ := path
        exact (path_done.mp path).2

theorem asks_readRequest {allowed : Effect → Prop} (request : Request)
    (waiting : allowed (.call (.rxAvailable socket)))
    (reads : ∀ limit, allowed (.call (.recv socket limit)))
    (records : ∀ record, allowed (.record record)) :
    (readRequest request socket).Asks allowed := by
  induction request using readRequest.induct with
  | case1 request ih =>
    rw [readRequest]
    refine (asks_nic.mpr waiting).bind fun available => ?_
    split
    · trivial
    · refine (asks_nic.mpr (reads _)).bind fun data => ?_
      split
      · trivial
      · refine (asks_recordAll _ records).bind fun _ => ?_
        split
        · next fed more => exact ih available data ‹_› fed more
        · trivial

/-- How the bytes of a request are fetched: it is fed as long as some come that do not decide it. -/
inductive Fetches (socket : SocketId) : Request → List Exchange → Request → Parse → Prop where
  | nothing (request : Request) :
      Fetches socket request [⟨.call (.rxAvailable socket), (0 : Nat)⟩] request .needMore
  | empty (request : Request) {available : Nat} (waiting : available ≠ 0)
      {data : (Nic.Call.recv socket (min available readChunk)).Answer} (none : data.val = []) :
      Fetches socket request
        [⟨.call (.rxAvailable socket), available⟩, ⟨.call (.recv socket _), data⟩] request
        .needMore
  | more {request fed ended : Request} {parse : Parse} {later : List Exchange} {available : Nat}
      (waiting : available ≠ 0)
      {data : (Nic.Call.recv socket (min available readChunk)).Answer} (some : data.val ≠ [])
      (feeds : (request.feed data.val).value = (fed, .needMore))
      (rest : Fetches socket fed later ended parse) :
      Fetches socket request (⟨.call (.rxAvailable socket), available⟩ ::
        ⟨.call (.recv socket _), data⟩ ::
        (recorded (request.feed data.val).records ++ later)) ended parse
  | decided {request ended : Request} {parse : Parse} {available : Nat} (waiting : available ≠ 0)
      {data : (Nic.Call.recv socket (min available readChunk)).Answer} (some : data.val ≠ [])
      (feeds : (request.feed data.val).value = (ended, parse)) (last : parse ≠ .needMore) :
      Fetches socket request (⟨.call (.rxAvailable socket), available⟩ ::
        ⟨.call (.recv socket _), data⟩ :: recorded (request.feed data.val).records) ended parse

theorem path_readRequest {request ended : Request} {parse : Parse}
    (path : Path (readRequest request socket) trace (ended, parse)) :
    Fetches socket request trace ended parse := by
  induction request using readRequest.induct generalizing trace with
  | case1 request ih =>
    rw [readRequest, Nic.rxAvailable, path_nic_bind] at path
    obtain ⟨available, trace, rfl, path⟩ := path
    split at path
    · next nothing =>
      subst nothing
      obtain ⟨rfl, same⟩ := path_done.mp path
      cases same
      exact .nothing _
    · next waiting =>
      rw [Nic.recv, path_nic_bind] at path
      obtain ⟨data, trace, rfl, path⟩ := path
      split at path
      · next none =>
        obtain ⟨rfl, same⟩ := path_done.mp path
        cases same
        exact .empty _ waiting none
      · next some =>
        rw [path_bind] at path
        obtain ⟨noted, trace, _, rfl, noting, path⟩ := path
        obtain rfl := path_recordAll.mp noting
        split at path
        · next fed feeds =>
          exact .more waiting some feeds (ih available data some fed feeds path)
        · next fed parse other feeds =>
          obtain ⟨rfl, same⟩ := path_done.mp path
          cases same
          rw [List.append_nil]
          exact .decided waiting some feeds other

/-- What the server hears is the reading of its request, beside which nothing is received and
nothing sent. A request that stays with the server wants more, or is refused. -/
theorem path_hear_reads {heard : Server E} {refused : Option Code}
    (path : Path (server.hear socket now) trace (heard, refused)) :
    ∃ reads rest request parse, trace = reads ++ rest ∧
      Path (readRequest server.request socket) reads (request, parse) ∧ Passive rest ∧
      ∃ headEnd,
        heard = { server with request, headEnd } ∧ (refused = none → parse = .needMore) ∨
        refused = none ∧ heard =
          { server with request, headEnd, phase := .processing socket, timer := ⟨now⟩ } ∨
        refused = none ∧ heard =
          { server.countFailure with
            request, headEnd, phase := .closing socket false, timer := ⟨now⟩ } := by
  rw [hear, path_bind] at path
  obtain ⟨reads, trace, ⟨request, parse⟩, rfl, reading, path⟩ := path
  refine ⟨reads, trace, request, parse, rfl, reading, ?_⟩
  have quiet : (Effect.call (.socketStatus socket)).isIdle ∧
      (Effect.call (.socketStatus socket)).source = none := ⟨⟨rfl, rfl⟩, rfl⟩
  have noted (record : Log.Record) :
      (Effect.record record).isIdle ∧ (Effect.record record).source = none := ⟨⟨rfl, rfl⟩, rfl⟩
  cases parse with
  | complete =>
    dsimp only at path
    rw [path_lift_bind] at path
    obtain ⟨rest, rfl, path⟩ := path
    obtain ⟨rfl, same⟩ := path_done.mp path
    cases same
    exact ⟨(passive_recorded _).append passive_nil, _, .inr (.inl ⟨rfl, rfl⟩)⟩
  | reject code =>
    dsimp only at path
    rw [path_log_bind] at path
    obtain ⟨rest, rfl, path⟩ := path
    obtain ⟨rfl, same⟩ := path_done.mp path
    cases same
    exact ⟨passive_cons (noted _) passive_nil, _, .inl ⟨rfl, nofun⟩⟩
  | needMore =>
    dsimp only at path
    split at path
    -- a body that is late is taken as far as it came
    · split at path
      · rw [path_log_bind] at path
        obtain ⟨rest, rfl, path⟩ := path
        rw [path_lift_bind] at path
        obtain ⟨rest, rfl, path⟩ := path
        obtain ⟨rfl, same⟩ := path_done.mp path
        cases same
        exact ⟨passive_cons (noted _) ((passive_recorded _).append passive_nil), _,
          .inr (.inl ⟨rfl, rfl⟩)⟩
      · obtain ⟨rfl, same⟩ := path_done.mp path
        cases same
        exact ⟨passive_nil, _, .inl ⟨rfl, fun _ => rfl⟩⟩
    -- a head that is late is refused, and one whose peer left is given up
    · split at path
      · rw [path_log_bind] at path
        obtain ⟨rest, rfl, path⟩ := path
        obtain ⟨rfl, same⟩ := path_done.mp path
        cases same
        exact ⟨passive_cons (noted _) passive_nil, _, .inl ⟨rfl, nofun⟩⟩
      · rw [Nic.socketStatus, path_nic_bind] at path
        obtain ⟨status, rest, rfl, path⟩ := path
        split at path
        · obtain ⟨rfl, same⟩ := path_done.mp path
          cases same
          exact ⟨passive_cons quiet passive_nil, _, .inl ⟨rfl, fun _ => rfl⟩⟩
        · rw [path_log_bind] at path
          obtain ⟨rest, rfl, path⟩ := path
          rw [path_lift_bind] at path
          obtain ⟨rest, rfl, path⟩ := path
          obtain ⟨rfl, same⟩ := path_done.mp path
          cases same
          exact ⟨passive_cons quiet (passive_cons (noted _)
            ((passive_recorded _).append passive_nil)), _, .inr (.inr ⟨rfl, rfl⟩)⟩

/-- A request that is being read stays with the server, is complete, is refused, or is given up by
the peer. -/
theorem path_hear {heard : Server E} {refused : Option Code}
    (path : Path (server.hear socket now) trace (heard, refused)) :
    Idle trace ∧ ∃ request headEnd,
      heard = { server with request, headEnd } ∨
      refused = none ∧ heard =
        { server with request, headEnd, phase := .processing socket, timer := ⟨now⟩ } ∨
      refused = none ∧ heard =
        { server.countFailure with
          request, headEnd, phase := .closing socket false, timer := ⟨now⟩ } := by
  obtain ⟨reads, rest, request, parse, rfl, reading, passive, headEnd, same⟩ := path_hear_reads path
  have idle : Idle reads := reading.effect_allowed
    (asks_readRequest _ ⟨rfl, rfl⟩ (fun _ => ⟨rfl, rfl⟩) fun _ => ⟨rfl, rfl⟩)
  exact ⟨idle.append passive.idle, request, headEnd, same.imp_left And.left⟩

section Asks

variable {allowed : Effect → Prop} (status : ∀ socket, allowed (.call (.socketStatus socket)))
  (record : ∀ record, allowed (.record record))

include record in
theorem asks_entering (given : Logged (Server E)) : (liftM given : Poll (Server E)).Asks allowed :=
  asks_lift record

include status record in
/-- The rest of a response is sent after a look at the socket. -/
theorem asks_sendRest (free : ∀ socket, allowed (.call (.txFree socket)))
    (send : ∀ socket data, allowed (.call (.send socket data))) :
    (server.sendRest socket now).Asks allowed := by
  refine (asks_nic.mpr (status socket)).bind fun status => ?_
  split
  · exact (asks_log.mpr (record _)).bind fun _ => asks_entering record _
  · refine (Outbox.asks_pump (free socket) (send socket)).bind fun pumped => ?_
    dsimp only
    generalize (if pumped.moved > 0 then (⟨now⟩ : Stopwatch) else server.timer) = timer
    split
    · exact asks_entering record _
    · split
      · exact (asks_log.mpr (record _)).bind fun _ => asks_entering record _
      · exact asks_done _

include status record in
theorem asks_close (disconnect : ∀ socket, allowed (.call (.disconnect socket))) {asked : Bool} :
    (server.close socket asked now).Asks allowed := by
  have looks : (server.close socket true now).Asks allowed := by
    refine (asks_nic.mpr (status socket)).bind fun status => ?_
    split
    · exact asks_entering record _
    · split
      · exact asks_entering record _
      · exact asks_done _
  cases asked with
  | true => exact looks
  | false => exact (asks_nic.mpr (disconnect socket)).bind fun _ => looks

include record in
theorem asks_forceClose (close : ∀ socket, allowed (.call (.close socket))) :
    (server.forceClose socket now).Asks allowed :=
  (asks_log.mpr (record _)).bind fun _ =>
    (asks_nic.mpr (close socket)).bind fun _ => asks_entering record _

include record in
theorem asks_dropConnection (close : ∀ socket, allowed (.call (.close socket))) :
    (server.dropConnection now).Asks allowed := by
  unfold dropConnection
  split
  · trivial
  · exact (asks_log.mpr (record _)).bind fun _ =>
      (asks_nic.mpr (close _)).bind fun _ => asks_entering record _

end Asks

/-- A request leads somewhere or nowhere. -/
theorem path_process (path : Path (liftM (server.process socket now)) trace after) :
    Idle trace ∧ ∃ next, after = { server with phase := next, timer := ⟨now⟩ } ∧
      (next = .failed socket ∨ ∃ found, next = .handling socket found) := by
  obtain ⟨rfl, rfl⟩ := path_lift.mp path
  refine ⟨idle_recorded _, ?_⟩
  unfold process
  split
  · next found _ => exact ⟨.handling socket found, rfl, .inr ⟨found, rfl⟩⟩
  · exact ⟨.failed socket, rfl, .inl rfl⟩

/-- The server when it has counted a response that is with the controller. -/
def counted (server : Server E) : Server E :=
  match server.reply with
  | none => server
  | some _ => if server.out.overflowed then server.countFailure else server.countSuccess

/-- The server when the whole response is with the controller. -/
def completed (server : Server E) (socket : SocketId) (now : Millis) : Server E :=
  { server.counted with phase := .closing socket false, timer := ⟨now⟩, reply := none }

theorem path_complete (path : Path (liftM (server.complete socket now)) trace after) :
    Idle trace ∧ after = server.completed socket now := by
  obtain ⟨rfl, rfl⟩ := path_lift.mp path
  refine ⟨idle_recorded _, ?_⟩
  unfold complete completed counted
  cases pending : server.reply with
  | none => simp only [value_enter, pending]
  | some status =>
    dsimp only
    split
    · rfl
    · rfl

/-- A response that was begun waits to be sent, or is with the controller already. -/
theorem path_deliver (path : Path (liftM (server.deliver socket now)) trace after) :
    Idle trace ∧
      (server.out.isEmpty = false ∧
          after = { server with phase := .sending socket, timer := ⟨now⟩ } ∨
        server.out.isEmpty = true ∧ after = server.completed socket now) := by
  obtain ⟨rfl, rfl⟩ := path_lift.mp path
  refine ⟨idle_recorded _, ?_⟩
  unfold deliver
  split
  · next empty => exact .inr ⟨empty, (path_complete (path_lift.mpr ⟨rfl, rfl⟩)).2⟩
  · next waiting => exact .inl ⟨by simpa using waiting, rfl⟩

/-- Only pumping sends, whatever goes before and after it. -/
private theorem fed_between {out : Outbox} {chunk : Nat} {before pumps rest : List Exchange}
    {pumped : Outbox.Pumped out} (pumping : Path (out.pump socket chunk) pumps pumped)
    (quiet : Idle before) (silent : Idle rest) :
    Spares (before ++ (pumps ++ rest)) ∧
      Outbox.Fed socket (before ++ (pumps ++ rest)) out pumped.out ∧
      pumped.out.sent = out.sent + (takenOn socket (before ++ (pumps ++ rest))).length := by
  obtain ⟨fed, sent, -⟩ := Outbox.path_pump pumping
  have asks : (out.pump socket chunk).Asks (·.isRelease = false) :=
    Outbox.asks_pump rfl fun _ => rfl
  have spares : Spares pumps := pumping.effect_allowed asks
  have taken : takenOn socket (before ++ (pumps ++ rest)) = takenOn socket pumps :=
    takenOn_between quiet silent socket
  refine ⟨quiet.spares.append (spares.append silent.spares), fed.congr taken, ?_⟩
  rw [taken, sent]

/-- The rest of a response is given up with the peer that left, or some of it is sent. -/
theorem path_sendRest (path : Path (server.sendRest socket now) trace after) :
    Spares trace ∧
      ((takenOn socket trace = [] ∧
          after = { server.abandonReply with phase := .closing socket false, timer := ⟨now⟩ }) ∨
        ∃ out timer, Outbox.Fed socket trace server.out out ∧
          out.sent = server.out.sent + (takenOn socket trace).length ∧
          (out.isEmpty = true ∧
              after = ({ server with out, timer } : Server E).completed socket now ∨
            after = { server.abandonReply with phase := .forceClosing socket, timer := ⟨now⟩ } ∨
            out.isEmpty = false ∧ after = { server with out, timer })) := by
  rw [sendRest, Nic.socketStatus, path_nic_bind] at path
  obtain ⟨status, trace, rfl, path⟩ := path
  split at path
  · rw [path_log_bind] at path
    obtain ⟨rest, said, path⟩ := path
    obtain ⟨rfl, rfl⟩ := path_lift.mp path
    have idle : Idle (⟨.call (.socketStatus socket), status⟩ :: trace) := by
      rw [said]
      exact idle_cons ⟨rfl, rfl⟩ (idle_cons ⟨rfl, rfl⟩ (idle_recorded _))
    exact ⟨idle.spares, .inl ⟨idle.taken socket, rfl⟩⟩
  · rw [path_bind] at path
    obtain ⟨pumps, rest, pumped, rfl, pumping, path⟩ := path
    have asked : Idle [⟨.call (.socketStatus socket), status⟩] := idle_cons ⟨rfl, rfl⟩ idle_nil
    dsimp only at path
    generalize (if pumped.moved > 0 then (⟨now⟩ : Stopwatch) else server.timer) = timer at path
    split at path
    · next empty =>
      obtain ⟨idle, rfl⟩ := path_complete path
      obtain ⟨spares, fed, sent⟩ := fed_between pumping asked idle
      exact ⟨spares, .inr ⟨pumped.out, timer, fed, sent, .inl ⟨empty, rfl⟩⟩⟩
    · next waiting =>
      split at path
      · rw [path_log_bind] at path
        obtain ⟨noted, said, path⟩ := path
        obtain ⟨rfl, rfl⟩ := path_lift.mp path
        have silent : Idle rest := by
          rw [said]
          exact idle_cons ⟨rfl, rfl⟩ (idle_recorded _)
        obtain ⟨spares, fed, sent⟩ := fed_between pumping asked silent
        refine ⟨spares, .inr ⟨pumped.out, timer, fed, sent, .inr (.inl ?_)⟩⟩
        simp only [value_enter, abandonReply]
        split <;> rfl
      · obtain ⟨rfl, rfl⟩ := path_done.mp path
        obtain ⟨spares, fed, sent⟩ := fed_between pumping asked idle_nil
        have waits : pumped.out.isEmpty = false := by simpa using waiting
        exact ⟨spares, .inr ⟨pumped.out, timer, fed, sent, .inr (.inr ⟨waits, rfl⟩)⟩⟩

/-- A connection that was asked to disconnect is waited for. -/
private theorem path_close_asked (path : Path (server.close socket true now) trace after) :
    Idle trace ∧
      (after = { server with phase := .closing socket true } ∨
        after = { server with phase := .waiting, timer := ⟨now⟩ } ∨
        after = { server with phase := .forceClosing socket, timer := ⟨now⟩ }) := by
  unfold close at path
  simp only [Bool.not_true, Bool.false_eq_true, if_false] at path
  rw [Nic.socketStatus, path_nic_bind] at path
  obtain ⟨status, rest, rfl, path⟩ := path
  split at path
  · obtain ⟨rfl, rfl⟩ := path_lift.mp path
    exact ⟨idle_cons ⟨rfl, rfl⟩ (idle_recorded _), .inr (.inl rfl)⟩
  · split at path
    · obtain ⟨rfl, rfl⟩ := path_lift.mp path
      exact ⟨idle_cons ⟨rfl, rfl⟩ (idle_recorded _), .inr (.inr rfl)⟩
    · obtain ⟨rfl, rfl⟩ := path_done.mp path
      exact ⟨idle_cons ⟨rfl, rfl⟩ idle_nil, .inl rfl⟩

/-- A connection that is closed gracefully is asked to disconnect first of all, unless it was. -/
theorem path_close {asked : Bool} (path : Path (server.close socket asked now) trace after) :
    ∃ rest, trace = (if asked then [] else [⟨.call (.disconnect socket), ()⟩]) ++ rest ∧
      Idle rest ∧
      (after = { server with phase := .closing socket true } ∨
        after = { server with phase := .waiting, timer := ⟨now⟩ } ∨
        after = { server with phase := .forceClosing socket, timer := ⟨now⟩ }) := by
  cases asked with
  | true => exact ⟨trace, rfl, path_close_asked path⟩
  | false =>
    have unasked : server.close socket false now =
        (Nic.disconnect socket >>= fun _ => server.close socket true now) := rfl
    rw [unasked, Nic.disconnect, path_nic_bind] at path
    obtain ⟨_, rest, rfl, path⟩ := path
    exact ⟨rest, rfl, path_close_asked path⟩

/-- One close, and nothing else that ends a connection. -/
def ClosesOnce (socket : SocketId) (trace : List Exchange) : Prop :=
  ∃ before rest, trace = before ++ ⟨.call (.close socket), ()⟩ :: rest ∧ Idle before ∧ Idle rest

/-- However a connection is closed at once, its response is given up. -/
private theorem path_closeAtOnce {text : String}
    (path : Path (do
      Poll.log .warn text
      Nic.close socket
      server.abandonReply.enter .waiting now) trace after) :
    ClosesOnce socket trace ∧
      after = { server.abandonReply with phase := .waiting, timer := ⟨now⟩ } := by
  rw [path_log_bind] at path
  obtain ⟨rest, rfl, path⟩ := path
  rw [Nic.close, path_nic_bind] at path
  obtain ⟨answer, rest, rfl, path⟩ := path
  obtain ⟨rfl, rfl⟩ := path_lift.mp path
  exact ⟨⟨[_], _, rfl, idle_cons ⟨rfl, rfl⟩ idle_nil, idle_recorded _⟩, rfl⟩

/-- A connection is closed at once, whatever became of it. -/
theorem path_forceClose (path : Path (server.forceClose socket now) trace after) :
    ClosesOnce socket trace ∧
      after = { server.abandonReply with phase := .waiting, timer := ⟨now⟩ } :=
  path_closeAtOnce path

/-- When the network is down the connection is closed at once too, if there is one. -/
theorem path_dropConnection (path : Path (server.dropConnection now) trace after) :
    match server.phase.socket with
    | none => trace = [] ∧ after = server.abandonReply
    | some socket =>
      ClosesOnce socket trace ∧
        after = { server.abandonReply with phase := .waiting, timer := ⟨now⟩ } := by
  unfold dropConnection at path
  cases held : server.phase.socket with
  | none =>
    rw [held] at path
    exact path_done.mp path
  | some socket =>
    rw [held] at path
    exact path_closeAtOnce path

end Server

end BoardNet.Http
