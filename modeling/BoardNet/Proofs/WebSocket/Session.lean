import BoardNet.Proofs.WebSocket.Admission
import BoardNet.Sim.Bench

namespace BoardNet.WebSocket

open Poll

/-- The bytes that a reader has not made anything of. -/
def Reading.rest : Reading → List UInt8
  | .frames rest | .closed rest => rest
  | .request _ | .ended => []

theorem Slot.Follows.received {slot : Slot} {socket : SocketId} {reading : Reading}
    {subscriptions : Subscriptions} (follows : slot.Follows socket reading subscriptions) :
    slot.received = reading.rest := by
  rw [← follows.reading, Slot.reading]
  cases phase : slot.client.phase with
  | disconnected =>
    have held := follows.held
    rw [phase] at held
    cases held
  | upgrading own =>
    have held := follows.held
    rw [phase] at held
    cases held
    exact follows.unread phase
  | connected | closing => rfl

/-- Every peer and what it sent is kept, whatever frames are queued. -/
def Server.Keeps (before after : Server) : Prop :=
  ∀ id, (before.slots.get id).Keeps (after.slots.get id)

namespace Server

theorem Keeps.refl (server : Server) : server.Keeps server := fun _ => .refl _

theorem keeps_setClient {server : Server} {id : Fin maxClients} {client : Client}
    (phase : client.phase = (server.client id).phase)
    (subscriptions : client.subscriptions = (server.client id).subscriptions) :
    server.Keeps (server.setClient id client) := by
  intro other
  by_cases same : id = other
  · subst same
    rw [show (server.setClient id client).slots.get id = { server.slots.get id with client } from
      get_set_self]
    exact ⟨phase, subscriptions, rfl, rfl⟩
  · rw [show (server.setClient id client).slots.get other = server.slots.get other from
      get_set_other same]
    exact .refl _

/-- Sending to one client keeps every peer and what it sent. -/
theorem keeps_sendTo (server : Server) (id : Nat) (text : String) :
    server.Keeps (server.sendTo id text).value.2 := by
  unfold sendTo
  split
  · rename_i known
    have kept := Client.queueFrame_keeps (server.client ⟨id, known⟩) .text (Text.bytes text)
    exact keeps_setClient kept.1 kept.2
  · exact .refl server

/-- So does sending to several of them. -/
theorem keeps_broadcastTo (opcode : Opcode) (payload : List UInt8) (chosen : Client → Bool)
    (ids : List (Fin maxClients)) (server : Server) :
    server.Keeps (broadcastTo opcode payload chosen ids server).value.2 := by
  induction ids generalizing server with
  | nil => exact .refl server
  | cons id ids ih =>
    rw [broadcastTo]
    dsimp only
    split
    · have kept := Client.queueFrame_keeps (server.client id) opcode payload
      intro other
      exact (keeps_setClient kept.1 kept.2 other).trans (ih _ other)
    · exact ih server

end Server

variable {C : Type} {handler : MessageHandler C}

/-- Servers that were started at some time and updated since, while the application queued frames
between the updates. -/
inductive Server.Reached (handler : MessageHandler C) : Server → Prop where
  | fresh (settings : Settings) : Reached handler { settings }
  | updated {before after : Server} {network : Link.Status} {context left : C} {now : Millis}
      {trace : List Exchange} (reached : Reached handler before)
      (path : Path (before.update handler network context now) trace (after, left)) :
      Reached handler after
  | queued {before after : Server} (reached : Reached handler before)
      (keeps : before.Keeps after) : Reached handler after

theorem Sound.keeps {before after : Server} (sound : Sound before.slots)
    (keeps : before.Keeps after) : Sound after.slots where
  fit := fun id => (keeps id).fit (sound.fit id)
  apart := by
    intro id other socket holds too
    rw [(keeps id).phase] at holds
    rw [(keeps other).phase] at too
    exact sound.apart id other socket holds too

theorem Sound.updated {before after : Server} {network : Link.Status} {context left : C}
    {now : Millis} {trace : List Exchange} {notes : Notes} (alone : handler.LeavesAlone)
    (sound : Sound before.slots)
    (path : Path (before.updateNoting handler network context now) trace
      ((after, left), notes)) : Sound after.slots := by
  obtain ⟨_, _, -, ⟨⟨_, dropping⟩, -⟩ | ⟨-, admitted, _, _, -, accepting, serving⟩⟩ :=
    Server.path_updateNoting path
  · exact sound.vacated (Server.path_dropAll dropping).1
  · have between := (Server.path_accept accepting).1.sound sound
    exact Server.sound_serviceAllNoting alone between serving

/-- Every update can be taken with the events. -/
theorem Server.noting_of_path {before after : Server} {network : Link.Status} {context left : C}
    {now : Millis} {trace : List Exchange}
    (path : Path (before.update handler network context now) trace (after, left)) :
    ∃ notes, Path (before.updateNoting handler network context now) trace
      ((after, left), notes) := by
  rw [← fst_updateNoting, path_map] at path
  obtain ⟨⟨result, notes⟩, path, rfl⟩ := path
  exact ⟨notes, path⟩

theorem Server.path_of_noting {before after : Server} {network : Link.Status} {context left : C}
    {now : Millis} {trace : List Exchange} {notes : Notes}
    (path : Path (before.updateNoting handler network context now) trace ((after, left), notes)) :
    Path (before.update handler network context now) trace (after, left) := by
  rw [← fst_updateNoting, path_map]
  exact ⟨_, path, rfl⟩

/-- A connection that a client has after an update it had before, if it had one. -/
theorem Server.held_update {before after : Server} {network : Link.Status} {context left : C}
    {now : Millis} {trace : List Exchange} {id : Fin maxClients} {own socket : SocketId}
    (keeps : handler.KeepsPhase)
    (path : Path (before.update handler network context now) trace (after, left))
    (had : (before.client id).phase.socket = some own)
    (held : (after.client id).phase.socket = some socket) : own = socket := by
  obtain ⟨notes, path⟩ := noting_of_path path
  obtain ⟨_, _, -, ⟨⟨_, dropping⟩, -⟩ | ⟨-, admitted, _, _, -, accepting, serving⟩⟩ :=
    Server.path_updateNoting path
  · rcases (path_dropAll dropping).1 id with gone | kept
    · exact absurd gone (Slot.not_vacant held)
    · rw [client, kept] at held
      exact Option.some.inj (had.symm.trans held)
  · have kept := (path_accept accepting).2.kept had
    have attached := attached_of_serviceAllNoting keeps serving held
    rw [client, kept] at attached
    exact Option.some.inj (had.symm.trans attached)

theorem Server.vacant_fresh (settings : Settings) (id : Fin maxClients) :
    (({ settings } : Server).slots.get id).Vacant := by
  change ((Vector.ofFn _)[id.val] : Slot).Vacant
  rw [Vector.getElem_ofFn]
  rfl

theorem Server.Reached.sound {server : Server} (alone : handler.LeavesAlone)
    (reached : Reached handler server) : Sound server.slots := by
  induction reached with
  | fresh settings =>
    constructor
    · intro id
      exact (vacant_fresh settings id).fit
    · intro id other socket holds
      rw [vacant_fresh settings id] at holds
      cases holds
  | updated reached path ih =>
    obtain ⟨notes, path⟩ := noting_of_path path
    exact ih.updated alone path
  | queued reached keeps ih => exact ih.keeps keeps

/-- A client's connection: the server after some updates, and what the controller gave of the
peer's bytes and what the server acted on in them, since the connection was taken over. The events
are those of the noting update on the same exchanges. -/
inductive Session (handler : MessageHandler C) (id : Fin maxClients) (socket : SocketId) :
    Server → List UInt8 → List Event → Prop where
  /-- The update that takes the connection over, and the first turn in it. -/
  | opened {before admitted after : Server} {network : Link.Status} {context left : C}
      {now : Millis} {asked trace : List Exchange} {notes : Notes}
      (reached : before.Reached handler) (ready : network.ready = true)
      (vacant : (before.client id).phase = .disconnected)
      (path : Path (before.update handler network context now)
        (⟨.call .linkStatus, .on⟩ :: (asked ++ trace)) (after, left))
      (accepting : Path (before.accept now) asked admitted)
      (held : (admitted.client id).phase.socket = some socket)
      (noting : Path (Server.serviceAllNoting handler now (List.finRange maxClients) admitted
        context) trace ((after, left), notes)) :
      Session handler id socket after (givenOn socket trace) (notes.of id)
  /-- A later one. -/
  | updated {before after : Server} {bytes : List UInt8} {events : List Event}
      {network : Link.Status} {context left : C} {now : Millis} {trace : List Exchange}
      {notes : Notes} (session : Session handler id socket before bytes events)
      (held : (before.client id).phase.socket = some socket)
      (path : Path (before.update handler network context now) trace (after, left))
      (noting : Path (before.updateNoting handler network context now) trace
        ((after, left), notes)) :
      Session handler id socket after (bytes ++ givenOn socket trace) (events ++ notes.of id)
  | queued {before after : Server} {bytes : List UInt8} {events : List Event}
      (session : Session handler id socket before bytes events) (keeps : before.Keeps after) :
      Session handler id socket after bytes events

namespace Session

variable {id : Fin maxClients} {socket : SocketId} {server : Server} {bytes : List UInt8}
  {events : List Event}

theorem reached (session : Session handler id socket server bytes events) :
    server.Reached handler := by
  induction session with
  | opened reached ready vacant path => exact reached.updated path
  | updated session held path noting ih => exact ih.updated path
  | queued session keeps ih => exact ih.queued keeps

/-- Every update that leaves a client with a connection that it did not have begins one. -/
theorem of_path {before after : Server} {network : Link.Status} {context left : C} {now : Millis}
    {trace : List Exchange} (keeps : handler.KeepsPhase) (reached : before.Reached handler)
    (vacant : (before.client id).phase = .disconnected)
    (path : Path (before.update handler network context now) trace (after, left))
    (held : (after.client id).phase.socket = some socket) :
    ∃ (bytes : List UInt8) (events : List Event),
      Session handler id socket after bytes events := by
  obtain ⟨notes, noting⟩ := Server.noting_of_path path
  obtain ⟨_, _, rfl, ⟨⟨_, dropping⟩, -⟩ | ⟨⟨rfl, ready⟩, admitted, _, _, rfl, accepting, serving⟩⟩ :=
    Server.path_updateNoting noting
  · exact absurd (Server.vacant_dropAll vacant dropping) (Slot.not_vacant held)
  · have attached := Server.attached_of_serviceAllNoting keeps serving held
    exact ⟨_, _, .opened reached ready vacant path accepting attached serving⟩

/-- Every update goes on with a connection. -/
theorem path {after : Server} {network : Link.Status} {context left : C} {now : Millis}
    {trace : List Exchange} (session : Session handler id socket server bytes events)
    (held : (server.client id).phase.socket = some socket)
    (path : Path (server.update handler network context now) trace (after, left)) :
    ∃ notes : Notes, Session handler id socket after (bytes ++ givenOn socket trace)
      (events ++ notes.of id) := by
  obtain ⟨notes, noting⟩ := Server.noting_of_path path
  exact ⟨notes, session.updated held path noting⟩

/-- Every client's connection has come about in this way. -/
theorem exists_of_reached (keeps : handler.KeepsPhase) (reached : server.Reached handler)
    (held : (server.client id).phase.socket = some socket) :
    ∃ (bytes : List UInt8) (events : List Event),
      Session handler id socket server bytes events := by
  induction reached with
  | fresh settings => exact absurd (Server.vacant_fresh settings id) (Slot.not_vacant held)
  | @updated before after _ _ _ _ _ reached path ih =>
    cases had : (before.client id).phase.socket with
    | none => exact of_path keeps reached (Phase.socket_eq_none.mp had) path held
    | some own =>
      obtain rfl := Server.held_update keeps path had held
      obtain ⟨_, _, session⟩ := ih had
      obtain ⟨_, session⟩ := session.path had path
      exact ⟨_, _, session⟩
  | queued reached same ih =>
    obtain ⟨_, _, session⟩ := ih ((congrArg Phase.socket (same id).phase).symm.trans held)
    exact ⟨_, _, session.queued same⟩

/-- What is heard in one update continues what was heard before. -/
theorem settled_update {before after : Server} {network : Link.Status} {context left : C}
    {now : Millis} {trace : List Exchange} {notes : Notes} {reading : Reading}
    {subscriptions : Subscriptions} (alone : handler.LeavesAlone) (sound : Sound before.slots)
    (follows : (before.slots.get id).Follows socket reading subscriptions)
    (path : Path (before.updateNoting handler network context now) trace
      ((after, left), notes)) :
    (∃ key, .unanswered key ∈ notes.of id) ∧ (after.slots.get id).Vacant ∨
      (after.slots.get id).Settled socket reading subscriptions (givenOn socket trace)
        (notes.of id) := by
  obtain ⟨link, rest, rfl,
      ⟨⟨_, dropping⟩, rfl, -⟩ | ⟨-, admitted, _, _, rfl, accepting, serving⟩⟩ :=
    Server.path_updateNoting path
  · obtain ⟨dropped, quiet, -⟩ := Server.path_dropAll dropping
    refine .inr ⟨reading, ?_, ?_, ?_⟩
    · rw [← follows.reading]
      exact (sound.fit id).quiet
    · have silent : givenOn socket (⟨.call .linkStatus, link⟩ :: rest) = [] := quiet socket
      rw [silent]
      exact .refl
    · rcases dropped id with vacant | kept
      · exact .inl vacant
      · rw [kept]
        exact .inr follows
  · obtain ⟨between, admits⟩ := Server.path_accept accepting
    have between := between.sound sound
    rw [← admits.kept follows.held] at follows
    rw [Server.givenOn_served accepting]
    exact Server.settled_serviceAllNoting alone between (List.nodup_finRange maxClients)
      (List.mem_finRange id) follows serving

theorem settled (alone : handler.LeavesAlone)
    (session : Session handler id socket server bytes events) :
    (∃ key, .unanswered key ∈ events) ∧ (server.slots.get id).Vacant ∨
      (server.slots.get id).Settled socket .start {} bytes events := by
  induction session with
  | @opened before _ _ _ _ _ now _ _ _ reached ready vacant path accepting held serving =>
    obtain ⟨between, admits⟩ := Server.path_accept accepting
    have between := between.sound (reached.sound alone)
    obtain ⟨remote, taken⟩ := admits.attached vacant held
    have follows := (before.slots.get id).follows_attach socket remote now
    rw [← taken] at follows
    exact Server.settled_serviceAllNoting alone between (List.nodup_finRange maxClients)
      (List.mem_finRange id) follows serving
  | @updated before _ _ _ _ _ _ _ _ _ session held path noting ih =>
    have present : ¬(before.slots.get id).Vacant := Slot.not_vacant held
    rcases ih with ⟨-, vacant⟩ | ⟨next, quiet, advances, place⟩
    · exact absurd vacant present
    · have follows := place.resolve_left present
      rcases settled_update alone (session.reached.sound alone) follows noting with
        ⟨⟨key, noted⟩, vacant⟩ | ⟨last, settled, further, place⟩
      · exact .inl ⟨⟨key, List.mem_append_right _ noted⟩, vacant⟩
      · rw [← Subscriptions.heedAll_append] at place
        exact .inr ⟨last, settled, advances.trans further, place⟩
  | queued session keeps ih =>
    rcases ih with ⟨noted, vacant⟩ | ⟨next, quiet, advances, place⟩
    · exact .inl ⟨noted, (keeps id).phase.trans vacant⟩
    · refine .inr ⟨next, quiet, advances, ?_⟩
      rcases place with vacant | follows
      · exact .inl ((keeps id).phase.trans vacant)
      · exact .inr ((keeps id).follows follows)

/-- The events of a connection, its subscriptions and what is left in its receive buffer are those
that a reader finds in the bytes that were read, in whatever pieces they came, unless the controller
did not take the whole response to the upgrade. Once the peer is let go, refused or cut off, the
client has no buffer and no subscriptions, and only the events are left. Until then every update
goes on with the connection. -/
theorem events_of_stream (alone : handler.LeavesAlone)
    (session : Session handler id socket server bytes events)
    (answered : ∀ key, .unanswered key ∉ events) :
    events = (Reading.start.feed bytes).events ∧
      ((server.client id).phase ≠ .disconnected →
        (server.client id).phase.socket = some socket ∧
        (server.slots.get id).reading = (Reading.start.feed bytes).reading ∧
        (server.slots.get id).received = (Reading.start.feed bytes).reading.rest ∧
        (server.client id).subscriptions =
          Subscriptions.heedAll {} (Reading.start.feed bytes).events) ∧
      ∀ {network : Link.Status} {context left : C} {now : Millis} {trace : List Exchange}
        {after : Server}, (server.client id).phase.socket = some socket →
        Path (server.update handler network context now) trace (after, left) →
        ∃ notes : Notes, Session handler id socket after (bytes ++ givenOn socket trace)
          (events ++ notes.of id) := by
  rcases session.settled alone with ⟨⟨key, noted⟩, -⟩ | ⟨next, quiet, advances, place⟩
  · exact absurd noted (answered key)
  · rw [advances.feed quiet]
    refine ⟨rfl, fun present => ?_, session.path⟩
    have follows := place.resolve_left present
    exact ⟨follows.held, follows.reading, follows.received, follows.subscriptions⟩

section Runs

variable {σ : Type} {chip : Chip σ} {network : Link.Status} {context : C} {now : Millis}
  {before : σ} {admitted : Ran σ Server} {ran : Ran σ ((Server × C) × Notes)}
  {trace : List Exchange}

/-- An update that is run takes a peer over. -/
theorem opened_run (reached : server.Reached handler) (ready : network.ready = true)
    (vacant : (server.client id).phase = .disconnected)
    (admission : admitted = (server.accept now).run chip before)
    (held : (admitted.value.client id).phase.socket = some socket)
    {turns : Poll ((Server × C) × Notes)}
    (serving : turns = Server.serviceAllNoting handler now (List.finRange maxClients)
      admitted.value context)
    (running : ran = turns.run chip admitted.state)
    (traced : trace = turns.exchanges chip admitted.state) :
    Session handler id socket ran.value.1.1 (givenOn socket trace) (ran.value.2.of id) := by
  subst admission serving running traced
  have accepting := path_run chip (server.accept now) before
  have noting := path_run chip (Server.serviceAllNoting handler now (List.finRange maxClients)
    ((server.accept now).run chip before).value context) ((server.accept now).run chip before).state
  have path := Server.path_of_noting (Server.path_updateNoting_of_ready ready accepting noting)
  exact .opened reached ready vacant path accepting held noting

/-- An update that is run goes on with it. -/
theorem updated_run (session : Session handler id socket server bytes events)
    (held : (server.client id).phase.socket = some socket)
    {update : Poll ((Server × C) × Notes)}
    (updating : update = server.updateNoting handler network context now)
    (running : ran = update.run chip before) (traced : trace = update.exchanges chip before) :
    Session handler id socket ran.value.1.1 (bytes ++ givenOn socket trace)
      (events ++ ran.value.2.of id) := by
  subst updating running traced
  have noting := path_run chip (server.updateNoting handler network context now) before
  exact session.updated held (Server.path_of_noting noting) noting

end Runs

theorem congr {stream : List UInt8} {found : List Event}
    (session : Session handler id socket server bytes events) (read : bytes = stream)
    (noted : events = found) : Session handler id socket server stream found := by
  subst read noted
  exact session

def indifferent : MessageHandler Unit := fun client _ context => pure (client, context)

/-- A controller on which a peer has connected and the first bytes of its request have come. -/
def requestBegun : Sim.Controller :=
  ((({} : Sim.Controller).listen 81).2.connect 81 .unspecified (Text.bytes "Sec")).2

/-- What comes later: the rest of the request and a ping, the last bytes of which come later
still. -/
def requestEnded : List UInt8 := Text.bytes "-WebSocket-Key: a\r\n\r\n" ++ [0x89, 0x81, 1]

theorem cut_stream_followed :
    ∃ server : Server,
      Session indifferent ⟨0, by decide⟩ ⟨0, by decide⟩ server
        (Text.bytes "Sec-WebSocket-Key: a\r\n\r\n" ++ [0x89, 0x81, 1, 2, 3, 4, 8])
        [.accepted "a", .ping [9]] ∧
      (server.client ⟨0, by decide⟩).phase ≠ .disconnected ∧
      (server.slots.get ⟨0, by decide⟩).received = [] := by
  let chip := Sim.Controller.chip
  let visitor : SocketId := ⟨0, by decide⟩
  let taken := (({} : Server).accept 0).run chip requestBegun
  let turns := Server.serviceAllNoting indifferent 0 (List.finRange maxClients) taken.value ()
  let first := turns.run chip taken.state
  let goingOn := first.value.1.1.updateNoting indifferent Sim.steadyLink () 1
  let later := first.state.arrive visitor requestEnded
  let second := goingOn.run chip later
  let ending := second.value.1.1.updateNoting indifferent Sim.steadyLink () 2
  let last := second.state.arrive visitor [2, 3, 4, 8]
  let third := ending.run chip last
  have attached : (taken.value.client ⟨0, by decide⟩).phase.socket = some visitor := by
    decide +kernel
  have waiting : (first.value.1.1.client ⟨0, by decide⟩).phase.socket = some visitor := by
    decide +kernel
  have outcome : (second.value.1.1.client ⟨0, by decide⟩).phase.socket = some visitor ∧
      (givenOn visitor (turns.exchanges chip taken.state) ++
        givenOn visitor (goingOn.exchanges chip later)) ++
        givenOn visitor (ending.exchanges chip last) =
        Text.bytes "Sec-WebSocket-Key: a\r\n\r\n" ++ [0x89, 0x81, 1, 2, 3, 4, 8] ∧
      (first.value.2.of ⟨0, by decide⟩ ++ second.value.2.of ⟨0, by decide⟩) ++
        third.value.2.of ⟨0, by decide⟩ = [.accepted "a", .ping [9]] ∧
      (third.value.1.1.client ⟨0, by decide⟩).phase ≠ .disconnected := by
    decide +kernel
  obtain ⟨held, read, noted, connected⟩ := outcome
  have fresh : Server.Reached indifferent {} := .fresh {}
  have ready : Sim.steadyLink.ready = true := rfl
  have opened : Session indifferent ⟨0, by decide⟩ visitor first.value.1.1 _ _ :=
    opened_run fresh ready (by decide +kernel) rfl attached rfl rfl rfl
  have continued : Session indifferent ⟨0, by decide⟩ visitor second.value.1.1 _ _ :=
    opened.updated_run waiting rfl rfl rfl
  have ended : Session indifferent ⟨0, by decide⟩ visitor third.value.1.1 _ _ :=
    continued.updated_run held rfl rfl rfl
  have whole := ended.congr read noted
  obtain ⟨-, kept, -⟩ := whole.events_of_stream ⟨fun _ _ _ => rfl, fun _ _ _ => rfl⟩ (by simp)
  obtain ⟨-, -, rest, -⟩ := kept connected
  have empty : (Reading.start.feed (Text.bytes "Sec-WebSocket-Key: a\r\n\r\n" ++
      [0x89, 0x81, 1, 2, 3, 4, 8])).reading.rest = [] := by
    decide +kernel
  exact ⟨third.value.1.1, whole, connected, rest.trans empty⟩

end Session

end BoardNet.WebSocket
