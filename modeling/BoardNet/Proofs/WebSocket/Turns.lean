import BoardNet.Proofs.Trace
import BoardNet.Proofs.WebSocket.Noting

namespace BoardNet.WebSocket

open Poll

namespace Reading

/-- Reading these bytes finds these events and leads here, whatever comes behind them. -/
def Advances (reading : Reading) (data : List UInt8) (events : List Event) (next : Reading) :
    Prop :=
  ∀ more, reading.feed (data ++ more) = (next.feed more).after events

/-- No event is to be found before more has come. -/
def Quiet (reading : Reading) : Prop := reading.feed [] = ⟨[], reading⟩

variable {reading middle next : Reading} {data more : List UInt8} {events later : List Event}

theorem Advances.refl : reading.Advances [] [] reading := fun _ => rfl

theorem Advances.trans (first : reading.Advances data events middle)
    (second : middle.Advances more later next) :
    reading.Advances (data ++ more) (events ++ later) next := by
  intro rest
  rw [List.append_assoc, first, second, Findings.after_after]

theorem Advances.feed (advances : reading.Advances data events next) (quiet : next.Quiet) :
    reading.feed data = ⟨events, next⟩ := by
  have whole := advances []
  rw [List.append_nil, quiet] at whole
  simpa [Findings.after] using whole

theorem advances_feed (reading : Reading) (data : List UInt8) :
    reading.Advances data (reading.feed data).events (reading.feed data).reading :=
  fun more => reading.feed_append data more

theorem quiet_feed (reading : Reading) (data : List UInt8) : (reading.feed data).reading.Quiet :=
  reading.feed_nil_of_feed data

theorem quiet_request (reader : LineReader) : (request reader).Quiet := rfl

theorem quiet_closed (rest : List UInt8) : (closed rest).Quiet := by
  rw [Quiet, Reading.feed, List.append_nil]

theorem quiet_ended : ended.Quiet := rfl

end Reading

/-- What a slot remembers of its peer's stream. -/
def Slot.reading (slot : Slot) : Reading :=
  match slot.client.phase with
  | .disconnected => .ended
  | .upgrading _ => .request slot.upgrade
  | .connected _ => .frames slot.received
  | .closing _ => .closed slot.received

namespace Subscriptions

def heed (subscriptions : Subscriptions) : Event → Subscriptions
  | .text message => (subscriptions.apply message).value.2
  | _ => subscriptions

def heedAll (subscriptions : Subscriptions) (events : List Event) : Subscriptions :=
  events.foldl heed subscriptions

@[simp] theorem heedAll_append (subscriptions : Subscriptions) (events later : List Event) :
    subscriptions.heedAll (events ++ later) = (subscriptions.heedAll events).heedAll later :=
  List.foldl_append

end Subscriptions

/-- The application does not change the connection of a client that sends it a message. -/
def MessageHandler.KeepsPhase {C : Type} (handler : MessageHandler C) : Prop :=
  ∀ client text context, (handler client text context).value.1.phase = client.phase

/-- The application changes neither the connection of a client that sends it a message nor its
subscriptions. It may queue frames to it. -/
structure MessageHandler.LeavesAlone {C : Type} (handler : MessageHandler C) : Prop where
  phase : ∀ client text context, (handler client text context).value.1.phase = client.phase
  subscriptions : ∀ client text context,
    (handler client text context).value.1.subscriptions = client.subscriptions

theorem Phase.socket_eq_none {phase : Phase} : phase.socket = none ↔ phase = .disconnected := by
  cases phase <;> simp [Phase.socket]

namespace Slot

/-- Everything that has to do with what the peer sent is kept. -/
structure Keeps (before after : Slot) : Prop where
  phase : after.client.phase = before.client.phase
  subscriptions : after.client.subscriptions = before.client.subscriptions
  upgrade : after.upgrade = before.upgrade
  received : after.received = before.received

/-- A slot serves a peer on `socket`, and is so far into its stream. -/
structure Follows (slot : Slot) (socket : SocketId) (reading : Reading)
    (subscriptions : Subscriptions) : Prop where
  held : slot.client.phase.socket = some socket
  reading : slot.reading = reading
  subscriptions : slot.client.subscriptions = subscriptions
  /-- No frame is received before the upgrade. -/
  unread : slot.client.phase = .upgrading socket → slot.received = []

def Vacant (slot : Slot) : Prop := slot.client.phase = .disconnected

/-- A slot has no other socket than before. -/
def Stays (before after : Slot) : Prop :=
  after.client.phase.socket = none ∨ after.client.phase.socket = before.client.phase.socket

variable {before middle after : Slot} {socket : SocketId} {reading : Reading}
  {subscriptions : Subscriptions}

theorem Vacant.stays (vacant : after.Vacant) : before.Stays after :=
  .inl (congrArg Phase.socket vacant)

theorem not_vacant (held : after.client.phase.socket = some socket) : ¬after.Vacant := by
  intro vacant
  rw [vacant] at held
  cases held

theorem Stays.refl (slot : Slot) : slot.Stays slot := .inr rfl

theorem Stays.trans (first : before.Stays middle) (second : middle.Stays after) :
    before.Stays after := by
  rcases second with none | same
  · exact .inl none
  · rcases first with none | kept
    · exact .inl (same.trans none)
    · exact .inr (same.trans kept)

/-- A socket that was not held is not held afterwards. -/
theorem Stays.free (stays : before.Stays after) (free : before.client.phase.socket ≠ some socket) :
    after.client.phase.socket ≠ some socket := by
  rcases stays with none | same
  · rw [none]
    nofun
  · rwa [same]

theorem Keeps.refl (slot : Slot) : slot.Keeps slot := ⟨rfl, rfl, rfl, rfl⟩

theorem Keeps.trans (first : before.Keeps middle) (second : middle.Keeps after) :
    before.Keeps after where
  phase := second.phase.trans first.phase
  subscriptions := second.subscriptions.trans first.subscriptions
  upgrade := second.upgrade.trans first.upgrade
  received := second.received.trans first.received

theorem Keeps.reading_eq (keeps : before.Keeps after) : after.reading = before.reading := by
  unfold Slot.reading
  rw [keeps.phase, keeps.upgrade, keeps.received]

theorem Keeps.follows (keeps : before.Keeps after)
    (follows : before.Follows socket reading subscriptions) :
    after.Follows socket reading subscriptions where
  held := (congrArg Phase.socket keeps.phase).trans follows.held
  reading := keeps.reading_eq.trans follows.reading
  subscriptions := keeps.subscriptions.trans follows.subscriptions
  unread := by
    intro upgrading
    rw [keeps.received]
    exact follows.unread (keeps.phase.symm.trans upgrading)

end Slot

/-- No bytes are taken from a socket. -/
def Deaf (effect : Effect) : Prop := effect.source = none

/-- A call is about this socket or about none. -/
def Minds (socket : SocketId) (effect : Effect) : Prop :=
  effect.about = none ∨ effect.about = some socket

/-- A test that passes what a turn does on a socket, save moving bytes. -/
structure Suits (allowed : Effect → Prop) (socket : SocketId) : Prop where
  record : ∀ record, allowed (.record record)
  call : ∀ effect : Effect, effect.about = some socket → effect.source = none →
    effect.isOutflow = false → allowed effect

/-- A test that passes taking bytes from a socket, too. -/
structure Attends (allowed : Effect → Prop) (socket : SocketId) : Prop extends
    Suits allowed socket where
  recv : ∀ limit, allowed (.call (.recv socket limit))

/-- A test that passes sending on a socket, too. -/
structure Feeds (allowed : Effect → Prop) (socket : SocketId) : Prop extends
    Suits allowed socket where
  room : allowed (.call (.txFree socket))
  send : ∀ data, allowed (.call (.send socket data))

theorem suits_deaf (socket : SocketId) : Suits Deaf socket :=
  ⟨fun _ => rfl, fun _ _ deaf _ => deaf⟩

theorem feeds_deaf (socket : SocketId) : Feeds Deaf socket :=
  ⟨suits_deaf socket, rfl, fun _ => rfl⟩

theorem suits_minds (socket : SocketId) : Suits (Minds socket) socket :=
  ⟨fun _ => .inl rfl, fun _ about _ _ => .inr about⟩

theorem attends_minds (socket : SocketId) : Attends (Minds socket) socket :=
  ⟨suits_minds socket, fun _ => .inr rfl⟩

theorem feeds_minds (socket : SocketId) : Feeds (Minds socket) socket :=
  ⟨suits_minds socket, .inr rfl, fun _ => .inr rfl⟩

theorem givenOn_of_deaf {α : Type} {step : Poll α} {result : α} {trace : List Exchange}
    (path : Path step trace result) (asks : step.Asks Deaf) (socket : SocketId) :
    givenOn socket trace = [] := by
  apply givenOn_eq_nil
  intro exchange member source
  have deaf : exchange.effect.source = none := path.effect_allowed asks exchange member
  rw [deaf] at source
  cases source

theorem untouched_of_minds {α : Type} {step : Poll α} {result : α} {trace : List Exchange}
    {socket other : SocketId} (path : Path step trace result) (asks : step.Asks (Minds socket))
    (different : socket ≠ other) : Untouched other trace := by
  intro exchange member about
  rcases path.effect_allowed asks exchange member with none | own
  · rw [none] at about
    cases about
  · exact different (Option.some.inj (own.symm.trans about))

theorem asks_arrivals {allowed : Effect → Prop} {socket : SocketId}
    (attends : Attends allowed socket) (space : Nat) : (arrivals socket space).Asks allowed := by
  refine (asks_nic.mpr (attends.call _ rfl rfl rfl)).bind fun waiting => ?_
  dsimp only
  split
  · exact (asks_nic.mpr (attends.recv _)).bind fun data => trivial
  · trivial

theorem path_arrivals {socket : SocketId} {space : Nat} {trace : List Exchange}
    {data : List UInt8} (path : Path (arrivals socket space) trace data) :
    givenOn socket trace = data := by
  rw [arrivals, Nic.rxAvailable, path_nic_bind] at path
  obtain ⟨waiting, trace, rfl, path⟩ := path
  dsimp only at path
  split at path
  · rw [Nic.recv, path_nic_bind] at path
    obtain ⟨received, rest, rfl, path⟩ := path
    obtain ⟨rfl, rfl⟩ := path_done.mp path
    simp [givenOn, Exchange.given]
  · obtain ⟨rfl, rfl⟩ := path_done.mp path
    rfl

/-- Queueing a frame changes neither the connection nor the subscriptions. -/
theorem Client.queueFrame_keeps (client : Client) (opcode : Opcode) (payload : List UInt8) :
    (client.queueFrame opcode payload).value.2.phase = client.phase ∧
      (client.queueFrame opcode payload).value.2.subscriptions = client.subscriptions := by
  unfold queueFrame
  split
  · split <;> exact ⟨rfl, rfl⟩
  · exact ⟨rfl, rfl⟩

namespace Turn

variable {C : Type} {turn after : Turn C} {socket : SocketId} {settings : Settings}
  {handler : MessageHandler C} {now : Millis} {trace : List Exchange} {events : List Event}

theorem keeps_queue (turn : Turn C) (opcode : Opcode) (payload : List UInt8) :
    turn.slot.Keeps (turn.queue opcode payload).value.slot :=
  have kept := turn.slot.client.queueFrame_keeps opcode payload
  ⟨kept.1, kept.2, rfl, rfl⟩

/-- Only a closing frame changes the phase. -/
theorem phase_perform (keeps : handler.KeepsPhase) (turn : Turn C) (socket : SocketId)
    (event : Event) :
    (turn.perform handler socket event).value.slot.client.phase =
      if event.goesOn = some false then .closing socket else turn.slot.client.phase := by
  cases event with
  | text message => exact keeps ..
  | ping payload => exact (turn.keeps_queue .pong payload).phase
  | close payload => rfl
  | cutOff violation => cases violation <;> rfl
  | binary | pong | accepted | refused | unanswered => rfl

/-- An event leaves the buffers alone, and only a text changes the subscriptions. -/
theorem perform_slot (alone : handler.LeavesAlone) (turn : Turn C) (socket : SocketId)
    (event : Event) :
    (turn.perform handler socket event).value.slot.client.subscriptions =
        turn.slot.client.subscriptions.heed event ∧
      (turn.perform handler socket event).value.slot.received = turn.slot.received := by
  cases event with
  | text message =>
    refine ⟨?_, rfl⟩
    have same := alone.subscriptions turn.slot.client message turn.context
    exact congrArg (fun before => (before.apply message).value.2) same
  | ping payload =>
    have keeps := turn.keeps_queue .pong payload
    exact ⟨keeps.subscriptions, keeps.received⟩
  | close payload =>
    have keeps := turn.keeps_queue .close (payload.take 2)
    exact ⟨keeps.subscriptions, keeps.received⟩
  | cutOff violation => cases violation <;> exact ⟨rfl, rfl⟩
  | binary | pong | accepted | refused | unanswered => exact ⟨rfl, rfl⟩

/-- A turn has acted on what was found, and goes on unless the peer is to be cut off. -/
def HasRead (socket : SocketId) (subscriptions : Subscriptions) (found : Findings)
    (read : (Bool × Turn C) × List Event) : Prop :=
  read.2 = found.events ∧
    (read.1.1 = false ∧ found.reading = .ended ∨
      read.1.1 = true ∧ read.1.2.slot.Follows socket found.reading
        (subscriptions.heedAll found.events))

theorem follows_connected (connected : turn.slot.client.phase = .connected socket) :
    turn.slot.Follows socket (.frames turn.slot.received) turn.slot.client.subscriptions where
  held := by rw [connected]; rfl
  reading := by rw [Slot.reading, connected]
  subscriptions := rfl
  unread := by rw [connected]; nofun

theorem follows_closing (closing : turn.slot.client.phase = .closing socket) :
    turn.slot.Follows socket (.closed turn.slot.received) turn.slot.client.subscriptions where
  held := by rw [closing]; rfl
  reading := by rw [Slot.reading, closing]
  subscriptions := rfl
  unread := by rw [closing]; nofun

/-- The frames that are acted on are those that a reader finds in the received bytes. -/
theorem hasRead_readFrames (alone : handler.LeavesAlone) (now : Millis) (received : List UInt8)
    (connected : turn.slot.client.phase = .connected socket) :
    HasRead socket turn.slot.client.subscriptions (framesIn received)
      (turn.readFramesNoting handler socket now received).value := by
  induction received using framesIn.induct generalizing turn with
  | case1 received error bad =>
    rw [readFramesNoting_of_error bad, framesIn_of_error bad]
    exact ⟨rfl, .inl ⟨rfl, rfl⟩⟩
  | case2 received cut =>
    rw [readFramesNoting_of_partial cut, framesIn_of_partial cut]
    exact ⟨rfl, .inr ⟨rfl, follows_connected connected⟩⟩
  | case3 received header whole rest =>
    rename_i ih
    rw [readFramesNoting_of_frame whole, framesIn_of_frame whole]
    generalize Event.ofFrame header (header.payload received) = event
    dsimp only [Logged.value_bind]
    let ready : Turn C :=
      { turn with slot := { turn.slot with received := rest, lastActive := now } }
    have phase := ready.phase_perform alone.phase socket event
    obtain ⟨subscriptions, buffer⟩ := ready.perform_slot alone socket event
    generalize (ready.perform handler socket event).value = performed at *
    unfold Event.followed
    rcases goes : event.goesOn with _ | _ | _
    · exact ⟨rfl, .inl ⟨rfl, rfl⟩⟩
    · rw [goes, if_pos rfl] at phase
      have follows := follows_closing phase
      rw [buffer, subscriptions] at follows
      exact ⟨rfl, .inr ⟨rfl, follows⟩⟩
    · rw [goes, if_neg (by decide)] at phase
      obtain ⟨same, outcome⟩ := ih (phase.trans connected)
      rw [subscriptions] at outcome
      exact ⟨congrArg (List.cons event) same, outcome⟩

/-- Reading frames does not change the socket. -/
theorem socket_readFramesNoting (keeps : handler.KeepsPhase) (now : Millis)
    (received : List UInt8) (connected : turn.slot.client.phase = .connected socket) :
    (turn.readFramesNoting handler socket now received).value.1.2.slot.client.phase.socket =
      some socket := by
  induction received using framesIn.induct generalizing turn with
  | case1 received error bad =>
    rw [readFramesNoting_of_error bad]
    exact congrArg Phase.socket connected
  | case2 received cut =>
    rw [readFramesNoting_of_partial cut]
    exact congrArg Phase.socket connected
  | case3 received header whole rest =>
    rename_i ih
    rw [readFramesNoting_of_frame whole]
    generalize Event.ofFrame header (header.payload received) = event
    dsimp only [Logged.value_bind]
    let ready : Turn C :=
      { turn with slot := { turn.slot with received := rest, lastActive := now } }
    have phase := ready.phase_perform keeps socket event
    generalize (ready.perform handler socket event).value = performed at *
    rcases goes : event.goesOn with _ | _ | _
    · rw [goes, if_neg (by decide)] at phase
      exact congrArg Phase.socket (phase.trans connected)
    · rw [goes, if_pos rfl] at phase
      exact congrArg Phase.socket phase
    · rw [goes, if_neg (by decide)] at phase
      exact ih (phase.trans connected)

/-- A part of a turn that is not about what the peer sent: the client is gone after it, or has
heard no more than before. -/
def Spares (before after : Turn C) : Prop :=
  after.slot.Vacant ∨ before.slot.Keeps after.slot

theorem Spares.trans {first middle last : Turn C} (before : first.Spares middle)
    (after : middle.Spares last) : first.Spares last := by
  rcases after with vacant | keeps
  · exact .inl vacant
  · rcases before with vacant | kept
    · exact .inl (keeps.phase.trans vacant)
    · exact .inr (kept.trans keeps)

theorem Spares.stays {before : Turn C} (spares : before.Spares after) :
    before.slot.Stays after.slot := by
  rcases spares with vacant | keeps
  · exact vacant.stays
  · exact .inr (congrArg Phase.socket keeps.phase)

theorem path_forceClose (path : Path turn.forceClose trace after) : after.slot.Vacant := by
  unfold forceClose at path
  cases found : turn.slot.client.phase.socket with
  | none =>
    rw [found] at path
    obtain ⟨-, rfl⟩ := path_done.mp path
    rfl
  | some socket =>
    rw [found] at path
    obtain ⟨_, _, -, path⟩ := path_nic_bind.mp path
    obtain ⟨-, rfl⟩ := path_done.mp path
    rfl

theorem path_checkPeer (path : Path (turn.checkPeer socket) trace after) : turn.Spares after := by
  rw [checkPeer, Nic.socketStatus, path_nic_bind] at path
  obtain ⟨status, trace, rfl, path⟩ := path
  rw [path_bind] at path
  obtain ⟨asked, rest, gone, rfl, -, path⟩ := path
  cases gone with
  | false =>
    obtain ⟨-, rfl⟩ := path_done.mp path
    exact .inr (.refl _)
  | true =>
    simp only [if_true, path_log_bind] at path
    obtain ⟨rest, rfl, path⟩ := path
    split at path
    · rw [Nic.close, path_nic_bind] at path
      obtain ⟨_, rest, rfl, path⟩ := path
      obtain ⟨-, rfl⟩ := path_done.mp path
      exact .inl rfl
    · obtain ⟨-, rfl⟩ := path_done.mp path
      exact .inl rfl

theorem path_awaitRequest (path : Path (turn.awaitRequest settings now) trace after) :
    after.slot.Vacant ∨ after = turn := by
  unfold awaitRequest at path
  split at path
  · rw [path_log_bind] at path
    obtain ⟨rest, rfl, path⟩ := path
    exact .inl (path_forceClose path)
  · obtain ⟨-, rfl⟩ := path_done.mp path
    exact .inr rfl

theorem keeps_keepAlive (turn : Turn C) (settings : Settings) (now : Millis) :
    turn.slot.Keeps (turn.keepAlive settings now).value.2.slot := by
  unfold keepAlive
  dsimp only
  split
  · exact .refl _
  · split
    · have keeps := turn.keeps_queue .ping []
      exact ⟨keeps.phase, keeps.subscriptions, keeps.upgrade, keeps.received⟩
    · exact .refl _

/-- A peer is cut off if it sent something unlawful, and otherwise what was read stays. -/
theorem path_upkeep {lawful : Bool} (path : Path (turn.upkeep settings now lawful) trace after) :
    after.slot.Vacant ∨ lawful = true ∧ turn.slot.Keeps after.slot := by
  unfold upkeep at path
  cases lawful with
  | false => exact .inl (path_forceClose path)
  | true =>
    simp only [Bool.not_true, Bool.false_eq_true, if_false] at path
    split at path
    · rw [path_lift_bind] at path
      obtain ⟨rest, -, path⟩ := path
      have keeps := turn.keeps_keepAlive settings now
      split at path
      · obtain ⟨-, rfl⟩ := path_done.mp path
        exact .inr ⟨rfl, keeps⟩
      · exact .inl (path_forceClose path)
    · obtain ⟨-, rfl⟩ := path_done.mp path
      exact .inr ⟨rfl, .refl _⟩

/-- The turn when the controller had space and took some bytes. -/
def advanced (turn : Turn C) (taken : Nat) : Turn C :=
  (turn.withStall none).withClient
    { turn.slot.client with tx := turn.slot.client.tx.consume taken }

/-- One look for space, and what follows it: there is none, and the peer has stalled for too long or
is still waited for; nothing is queued; or a chunk is offered, which may be taken in part. -/
inductive Sends (turn : Turn C) (settings : Settings) (socket : SocketId) (now : Millis)
    (chunks : Nat) : List Exchange → Bool → Turn C → Prop where
  | gaveUp (record : Log.Record)
      (late : elapsed now (turn.slot.stalledSince.getD now) > settings.stallTimeout) :
      Sends turn settings socket now chunks [⟨.call (.txFree socket), 0⟩, ⟨.record record, ()⟩]
        false (turn.withStall (some (turn.slot.stalledSince.getD now)))
  | full (early : ¬elapsed now (turn.slot.stalledSince.getD now) > settings.stallTimeout) :
      Sends turn settings socket now chunks [⟨.call (.txFree socket), 0⟩] true
        (turn.withStall (some (turn.slot.stalledSince.getD now)))
  | nothing {free : Nat} (space : free ≠ 0) :
      Sends turn settings socket now chunks [⟨.call (.txFree socket), free⟩] true
        (turn.withStall none)
  | chunk {free count : Nat} {data : List UInt8} (taken : Fin (data.length + 1))
      {rest : List Exchange} {alive : Bool} {after : Turn C} (space : free ≠ 0)
      (front : data = turn.slot.client.tx.peek count)
      (further : rest = [] ∧ alive = true ∧ after = turn.advanced taken ∨
        Path ((turn.advanced taken).transmit settings socket now chunks) rest (alive, after)) :
      Sends turn settings socket now chunks
        (⟨.call (.txFree socket), free⟩ :: ⟨.call (.send socket data), taken⟩ :: rest) alive after

theorem sends_of_path {chunks : Nat} {alive : Bool}
    (path : Path (turn.transmit settings socket now (chunks + 1)) trace (alive, after)) :
    turn.Sends settings socket now chunks trace alive after := by
  rw [transmit, Nic.txFree, path_nic_bind] at path
  obtain ⟨free, trace, rfl, path⟩ := path
  dsimp only at path
  split at path
  · next none =>
    subst none
    split at path
    · next late =>
      rw [path_log_bind] at path
      obtain ⟨rest, rfl, path⟩ := path
      obtain ⟨rfl, same⟩ := path_done.mp path
      cases same
      exact .gaveUp _ late
    · next early =>
      obtain ⟨rfl, same⟩ := path_done.mp path
      cases same
      exact .full early
  · next space =>
    split at path
    · obtain ⟨rfl, same⟩ := path_done.mp path
      cases same
      exact .nothing space
    · rw [Nic.send, path_nic_bind] at path
      obtain ⟨taken, rest, rfl, path⟩ := path
      split at path
      · obtain ⟨rfl, same⟩ := path_done.mp path
        cases same
        exact .chunk taken space rfl (.inl ⟨rfl, rfl, rfl⟩)
      · exact .chunk taken space rfl (.inr path)

theorem path_transmit {chunks : Nat} {alive : Bool}
    (path : Path (turn.transmit settings socket now chunks) trace (alive, after)) :
    turn.slot.Keeps after.slot := by
  induction chunks generalizing turn trace with
  | zero =>
    obtain ⟨-, same⟩ := path_done.mp path
    cases same
    exact .refl _
  | succ chunks ih =>
    cases sends_of_path path with
    | gaveUp | full | nothing => exact ⟨rfl, rfl, rfl, rfl⟩
    | chunk taken space front further =>
      rcases further with ⟨-, -, rfl⟩ | path
      · exact ⟨rfl, rfl, rfl, rfl⟩
      · have keeps := ih path
        exact ⟨keeps.phase, keeps.subscriptions, keeps.upgrade, keeps.received⟩

/-- What there is to send is sent, and a client that cannot be sent to is let go. -/
theorem path_drain_cases (path : Path (turn.drain settings now) trace after) :
    trace = [] ∧ (after = turn ∨ after = turn.withStall none) ∨
      ∃ (socket : SocketId) (moving rest : List Exchange) (alive : Bool) (moved : Turn C),
        turn.slot.client.phase.socket = some socket ∧ trace = moving ++ rest ∧
          Path (turn.transmit settings socket now settings.chunksPerPoll.toNat) moving
            (alive, moved) ∧
          (rest = [] ∧ after = moved ∨ Path moved.forceClose rest after) := by
  unfold drain at path
  cases phase : turn.slot.client.phase with
  | connected socket | closing socket =>
    simp only [phase] at path
    split at path
    · obtain ⟨empty, same⟩ := path_done.mp path
      exact .inl ⟨empty, .inr same⟩
    · rw [path_bind] at path
      obtain ⟨moving, rest, ⟨alive, moved⟩, parts, transmits, path⟩ := path
      refine .inr ⟨socket, moving, rest, alive, moved, rfl, parts, transmits, ?_⟩
      cases alive with
      | true => exact .inl (path_done.mp path)
      | false => exact .inr path
  | disconnected | upgrading socket =>
    simp only [phase] at path
    obtain ⟨empty, same⟩ := path_done.mp path
    exact .inl ⟨empty, .inl same⟩

theorem path_drain (path : Path (turn.drain settings now) trace after) : turn.Spares after := by
  rcases path_drain_cases path with
    ⟨-, rfl | rfl⟩ | ⟨socket, moving, rest, alive, moved, -, -, transmits, ⟨-, rfl⟩ | closing⟩
  · exact .inr (.refl _)
  · exact .inr ⟨rfl, rfl, rfl, rfl⟩
  · exact .inr (path_transmit transmits)
  · exact .inl (path_forceClose closing)

theorem path_finish (path : Path turn.finish trace after) : turn.Spares after := by
  unfold finish at path
  cases phase : turn.slot.client.phase with
  | closing socket =>
    simp only [phase] at path
    split at path
    · rw [path_log_bind] at path
      obtain ⟨rest, rfl, path⟩ := path
      rw [Nic.disconnect, path_nic_bind] at path
      obtain ⟨_, rest, rfl, path⟩ := path
      obtain ⟨-, rfl⟩ := path_done.mp path
      exact .inl rfl
    · obtain ⟨-, rfl⟩ := path_done.mp path
      exact .inr (.refl _)
  | disconnected | upgrading socket | connected socket =>
    simp only [phase] at path
    obtain ⟨-, rfl⟩ := path_done.mp path
    exact .inr (.refl _)

end Turn

end BoardNet.WebSocket
