import BoardNet.Proofs.WebSocket.Stream

namespace BoardNet.WebSocket

open Poll

namespace Mute

variable {socket : SocketId} {trace : List Exchange}

/-- Nothing is sent, and the connection on a socket is not ended gracefully. -/
def Silent (socket : SocketId) (effect : Effect) : Prop :=
  effect.isSend = false ∧ effect ≠ .call (.disconnect socket)

theorem of_silent (silent : ∀ exchange ∈ trace, Silent socket exchange.effect) :
    Mute socket trace where
  taken := takenOn_eq_nil socket fun exchange member => (silent exchange member).1
  finished := timesAsked_eq_zero fun exchange member => (silent exchange member).2

theorem of_closes {sockets : List SocketId}
    (calls : Sim.callsIn trace = sockets.map (.call <| .close ·)) : Mute socket trace :=
  of_silent (allowed_of_closes calls (fun _ => ⟨rfl, nofun⟩) (fun _ => ⟨rfl, nofun⟩)
    fun _ => ⟨rfl, nofun⟩)

theorem admitting_silent : Server.Admitting (Silent socket) where
  count := ⟨rfl, nofun⟩
  status := fun _ => ⟨rfl, nofun⟩
  bound := fun _ => ⟨rfl, nofun⟩
  remote := fun _ => ⟨rfl, nofun⟩
  refuse := fun _ => ⟨rfl, nofun⟩
  listen := fun _ => ⟨rfl, nofun⟩
  record := fun _ => ⟨rfl, nofun⟩

theorem of_accept {server admitted : Server} {now : Millis}
    (accepting : Path (server.accept now) trace admitted) : Mute socket trace :=
  .of_silent (accepting.effect_allowed (Server.asks_accept admitting_silent))

theorem of_linkStatus (link : LinkStatus) : Mute socket [⟨.call .linkStatus, link⟩] := ⟨rfl, rfl⟩

end Mute

namespace Server

variable {C : Type} {before after : Server} {handler : MessageHandler C} {script : Script C}
  {network : Link.Status} {context left : C} {now : Millis} {told : Told}

theorem path_of_telling {trace : List Exchange}
    (path : Path (before.updateTelling handler script network context now) trace
      ((after, left), told)) :
    Path (before.update handler network context now) trace (after, left) := by
  rw [← fst_updateTelling before handler script, path_map]
  exact ⟨_, path, rfl⟩

theorem telling_of_path {trace : List Exchange} (script : Script C)
    (path : Path (before.update handler network context now) trace (after, left)) :
    ∃ told, Path (before.updateTelling handler script network context now) trace
      ((after, left), told) := by
  rw [← fst_updateTelling before handler script, path_map] at path
  obtain ⟨⟨_, told⟩, telling, rfl⟩ := path
  exact ⟨told, telling⟩

/-- The update in which a connection is taken over is one like any other. -/
theorem path_updateTelling_of_ready {admitted : Server} {asked served : List Exchange}
    (ready : network.ready = true) (accepting : Path (before.accept now) asked admitted)
    (serving : Path (serviceAllTelling handler script now (List.finRange maxClients) admitted
      context) served ((after, left), told)) :
    Path (before.updateTelling handler script network context now)
      (⟨.call .linkStatus, .on⟩ :: (asked ++ served)) ((after, left), told) :=
  path_updateBy_of_ready ready accepting serving

end Server

variable {C : Type}

/-- A client's connection: the server after some updates and uses of its clients, all that was
exchanged with the controller since the connection was taken over, and the frames that were queued.
Those of an update are told by the telling one on the same exchanges. -/
inductive Transcript (handler : MessageHandler C) (script : Script C) (id : Fin maxClients)
    (socket : SocketId) : Server → List Exchange → List ServerFrame → Prop where
  /-- The update that takes the connection over, and the turns in it. -/
  | opened {before admitted after : Server} {given : Fin maxClients → Prop}
      {network : Link.Status} {context left : C} {now : Millis} {asked trace : List Exchange}
      {told : Server.Told} (reachable : before.Reachable handler given)
      (ready : network.ready = true) (vacant : (before.client id).phase = .disconnected)
      (path : Path (before.update handler network context now)
        (⟨.call .linkStatus, .on⟩ :: (asked ++ trace)) (after, left))
      (accepting : Path (before.accept now) asked admitted)
      (held : (admitted.client id).phase.socket = some socket)
      (telling : Path (Server.serviceAllTelling handler script now (List.finRange maxClients)
        admitted context) trace ((after, left), told)) :
      Transcript handler script id socket after trace (told id)
  /-- A later one. -/
  | updated {before after : Server} {trace later : List Exchange} {frames : List ServerFrame}
      {network : Link.Status} {context left : C} {now : Millis} {told : Server.Told}
      (transcript : Transcript handler script id socket before trace frames)
      (held : (before.client id).phase.socket = some socket)
      (path : Path (before.update handler network context now) later (after, left))
      (telling : Path (before.updateTelling handler script network context now) later
        ((after, left), told)) :
      Transcript handler script id socket after (trace ++ later) (frames ++ told id)
  /-- What the application does with its clients between two updates. -/
  | used {before after : Server} {trace : List Exchange} {frames : List ServerFrame}
      {uses : Fin maxClients → List Use}
      (transcript : Transcript handler script id socket before trace frames)
      (held : (before.client id).phase.socket = some socket) (used : before.Used uses after) :
      Transcript handler script id socket after trace
        (frames ++ ((before.client id).useAll (uses id)).1)

namespace Transcript

variable {handler : MessageHandler C} {script : Script C} {id : Fin maxClients}
  {socket : SocketId} {server : Server} {trace : List Exchange} {frames : List ServerFrame}

theorem reachable (transcript : Transcript handler script id socket server trace frames) :
    ∃ given, server.Reachable handler given := by
  induction transcript with
  | opened reachable ready vacant path => exact ⟨_, reachable.updated path⟩
  | updated transcript held path telling ih =>
    obtain ⟨given, reachable⟩ := ih
    exact ⟨_, reachable.updated path⟩
  | used transcript held used ih =>
    obtain ⟨given, reachable⟩ := ih
    exact ⟨_, reachable.used used⟩

/-- Every update that leaves a client with a connection that it did not have begins one. -/
theorem of_path {before after : Server} {given : Fin maxClients → Prop} {network : Link.Status}
    {context left : C} {now : Millis} {later : List Exchange} (plays : handler.Plays script)
    (reachable : before.Reachable handler given)
    (vacant : (before.client id).phase = .disconnected)
    (path : Path (before.update handler network context now) later (after, left))
    (held : (after.client id).phase.socket = some socket) :
    ∃ (trace : List Exchange) (frames : List ServerFrame),
      Transcript handler script id socket after trace frames := by
  obtain ⟨told, telling⟩ := Server.telling_of_path script path
  obtain ⟨_, _, rfl, ⟨⟨_, _, dropping, same⟩, -⟩ | ⟨⟨rfl, ready⟩, admitted, _, _, rfl, accepting,
    serving⟩⟩ := Server.path_updateBy telling
  · cases same
    exact absurd (Server.vacant_dropAll vacant dropping) (Slot.not_vacant held)
  · obtain ⟨notes, noted⟩ := Server.noting_of_telling serving
    have attached := Server.attached_of_serviceAllNoting plays.keepsPhase noted held
    exact ⟨_, _, .opened reachable ready vacant path accepting attached serving⟩

/-- Every update goes on with a connection. -/
theorem path {after : Server} {network : Link.Status} {context left : C} {now : Millis}
    {later : List Exchange} (transcript : Transcript handler script id socket server trace frames)
    (held : (server.client id).phase.socket = some socket)
    (path : Path (server.update handler network context now) later (after, left)) :
    ∃ told : Server.Told, Transcript handler script id socket after (trace ++ later)
      (frames ++ told id) := by
  obtain ⟨told, telling⟩ := Server.telling_of_path script path
  exact ⟨told, transcript.updated held path telling⟩

/-- Every client's connection has come about in this way. -/
theorem exists_of_reachable {given : Fin maxClients → Prop} (plays : handler.Plays script)
    (reachable : server.Reachable handler given)
    (held : (server.client id).phase.socket = some socket) :
    ∃ (trace : List Exchange) (frames : List ServerFrame),
      Transcript handler script id socket server trace frames := by
  induction reachable with
  | fresh settings => exact absurd (Server.vacant_fresh settings id) (Slot.not_vacant held)
  | @updated before after _ _ _ _ _ _ reachable path ih =>
    cases had : (before.client id).phase.socket with
    | none => exact of_path plays reachable (Phase.socket_eq_none.mp had) path held
    | some own =>
      obtain rfl := Server.held_update plays.keepsPhase path had held
      obtain ⟨_, _, transcript⟩ := ih had
      obtain ⟨_, transcript⟩ := transcript.path had path
      exact ⟨_, _, transcript⟩
  | used reachable used ih =>
    have had := (congrArg Phase.socket (used.phase id)).symm.trans held
    obtain ⟨_, _, transcript⟩ := ih had
    exact ⟨_, _, transcript.used had used⟩

/-- A connection that was just taken over has nothing in its ring. -/
theorem streams_taken {before admitted : Server} {now : Millis} {asked : List Exchange}
    (vacant : (before.client id).phase = .disconnected)
    (accepting : Path (before.accept now) asked admitted)
    (held : (admitted.client id).phase.socket = some socket) :
    (admitted.slots.get id).Streams socket [] [] := by
  obtain ⟨remote, taken⟩ := (Server.path_accept accepting).2.attached vacant held
  rw [taken]
  exact .waiting rfl ⟨rfl, rfl⟩ (before.slots.get id).client.tx.toList_clear rfl

/-- An update continues a connection, or ends it. -/
theorem accounts_updated {before after : Server} {later : List Exchange} {network : Link.Status}
    {context left : C} {now : Millis} {told : Server.Told} (plays : handler.Plays script)
    (apart : Apart before.slots) (streams : (before.slots.get id).Streams socket trace frames)
    (path : Path (before.updateTelling handler script network context now) later
      ((after, left), told)) :
    (after.slots.get id).Accounts socket (trace ++ later) (frames ++ told id) := by
  obtain ⟨link, rest, rfl, ⟨⟨reason, dropped, dropping, same⟩, -⟩ | ⟨-, admitted, asked, served,
    rfl, accepting, serving⟩⟩ := Server.path_updateBy path
  · cases same
    obtain ⟨calls, slots⟩ := Server.dropped (List.nodup_finRange maxClients) dropping
    have mute : Mute socket (⟨.call .linkStatus, link⟩ :: rest) :=
      (Mute.of_linkStatus link).append (.of_closes calls)
    rw [List.append_nil]
    rcases slots id with ⟨-, cleared⟩ | ⟨-, vacant⟩
    · exact .inr ⟨cleared.vacant, streams.cut mute⟩
    · exact absurd (vacant (List.mem_finRange id)) (Slot.not_vacant streams.held)
  · have kept := (Server.path_accept accepting).2.kept streams.held
    have mute : Mute socket (⟨.call .linkStatus, link⟩ :: asked) :=
      (Mute.of_linkStatus link).append (.of_accept accepting)
    have streams := streams.elsewhere mute
    rw [← kept] at streams
    have between := (Server.path_accept accepting).1.apart apart
    have accounts := Server.accounts_serviceAll plays between (List.nodup_finRange maxClients)
      (List.mem_finRange id) streams serving
    rwa [List.append_assoc] at accounts

theorem accounts (plays : handler.Plays script)
    (transcript : Transcript handler script id socket server trace frames) :
    (server.slots.get id).Accounts socket trace frames := by
  have present {before : Server} {trace : List Exchange} {frames : List ServerFrame}
      (held : (before.client id).phase.socket = some socket)
      (accounts : (before.slots.get id).Accounts socket trace frames) :
      (before.slots.get id).Streams socket trace frames :=
    accounts.resolve_right fun ended => Slot.not_vacant held ended.1
  induction transcript with
  | opened reachable ready vacant path accepting held telling =>
    have apart := (Server.path_accept accepting).1.apart (reachable.apart plays.keepsPhase)
    have streams := streams_taken vacant accepting held
    exact Server.accounts_serviceAll plays apart (List.nodup_finRange maxClients)
      (List.mem_finRange id) streams telling
  | updated transcript held path telling ih =>
    obtain ⟨given, reachable⟩ := transcript.reachable
    exact accounts_updated plays (reachable.apart plays.keepsPhase) (present held ih) telling
  | @used before after _ _ uses transcript held used ih =>
    rw [used.slots id]
    exact .inl ((present held ih).used (uses id))

/-- Behind the response to the upgrade, what the controller took on a client's socket and what is in
the client's ring are the bytes of the frames that were queued, in order; a peer reads these as they
were queued; and when the connection was ended gracefully all of them were taken. Until it ends
every update goes on with it. -/
theorem frames_conserved (plays : handler.Plays script)
    (transcript : Transcript handler script id socket server trace frames) :
    ServerFrame.readAll? (ServerFrame.stream frames) = some frames ∧
      (match (server.client id).phase with
      | .upgrading own => own = socket ∧ takenOn socket trace = [] ∧
          (server.client id).tx.toList = [] ∧ frames = []
      | .connected own | .closing own => own = socket ∧ ∃ key sent,
          takenOn socket trace = response key ++ sent ∧
          sent ++ (server.client id).tx.toList = ServerFrame.stream frames
      | .disconnected =>
          (∃ key, takenOn socket trace <+: response key ∧ frames = [] ∧
            (finishedOn socket trace ≠ 0 → takenOn socket trace = [])) ∨
          ∃ key sent, takenOn socket trace = response key ++ sent ∧
            sent <+: ServerFrame.stream frames ∧
            (finishedOn socket trace ≠ 0 → sent = ServerFrame.stream frames)) ∧
      ∀ {network : Link.Status} {context left : C} {now : Millis} {later : List Exchange}
        {after : Server}, (server.client id).phase.socket = some socket →
        Path (server.update handler network context now) later (after, left) →
        ∃ told : Server.Told, Transcript handler script id socket after (trace ++ later)
          (frames ++ told id) := by
  have accounts := transcript.accounts plays
  refine ⟨ServerFrame.readAll?_stream frames accounts.fit, ?_, transcript.path⟩
  unfold Server.client
  rcases accounts with streams | ⟨vacant, ended⟩
  · cases streams with
    | waiting upgrading mute empty none =>
      rw [upgrading]
      exact ⟨rfl, mute.taken, empty, none⟩
    | speaking speaks key sent taken rest fit open_ =>
      rcases speaks with connected | closing
      · rw [connected]
        exact ⟨rfl, key, sent, taken, rest⟩
      · rw [closing]
        exact ⟨rfl, key, sent, taken, rest⟩
  · rw [vacant]
    cases ended with
    | refused key part mute none => exact .inl ⟨key, part, none, mute⟩
    | cut key sent taken part fit whole => exact .inr ⟨key, sent, taken, part, whole⟩

section Runs

variable {σ : Type} {chip : Chip σ} {network : Link.Status} {context : C} {now : Millis}
  {before : σ} {given : Fin maxClients → Prop} {ran : Ran σ ((Server × C) × Server.Told)}
  {later : List Exchange}

/-- An update that is run takes a peer over. -/
theorem opened_run (reachable : server.Reachable handler given) (ready : network.ready = true)
    (vacant : (server.client id).phase = .disconnected) {admitted : Ran σ Server}
    (admission : admitted = (server.accept now).run chip before)
    (held : (admitted.value.client id).phase.socket = some socket)
    {turns : Poll ((Server × C) × Server.Told)}
    (serving : turns = Server.serviceAllTelling handler script now (List.finRange maxClients)
      admitted.value context)
    (running : ran = turns.run chip admitted.state)
    (traced : trace = turns.exchanges chip admitted.state) :
    Transcript handler script id socket ran.value.1.1 trace (ran.value.2 id) := by
  subst admission serving running traced
  have accepting := path_run chip (server.accept now) before
  have telling := path_run chip (Server.serviceAllTelling handler script now
    (List.finRange maxClients) ((server.accept now).run chip before).value context)
    ((server.accept now).run chip before).state
  have path := Server.path_of_telling (Server.path_updateTelling_of_ready ready accepting telling)
  exact .opened reachable ready vacant path accepting held telling

/-- An update that is run goes on with it. -/
theorem updated_run (transcript : Transcript handler script id socket server trace frames)
    (held : (server.client id).phase.socket = some socket)
    {update : Poll ((Server × C) × Server.Told)}
    (updating : update = server.updateTelling handler script network context now)
    (running : ran = update.run chip before) (traced : later = update.exchanges chip before) :
    Transcript handler script id socket ran.value.1.1 (trace ++ later)
      (frames ++ ran.value.2 id) := by
  subst updating running traced
  have telling := path_run chip (server.updateTelling handler script network context now) before
  exact transcript.updated held (Server.path_of_telling telling) telling

end Runs

theorem congr {queued : List ServerFrame}
    (transcript : Transcript handler script id socket server trace frames)
    (same : frames = queued) : Transcript handler script id socket server trace queued := by
  subst same
  exact transcript

/-- A controller on which a peer has connected and asked for an upgrade. -/
def upgradeAsked : Sim.Controller :=
  ((({} : Sim.Controller).listen 81).2.connect 81 .unspecified
    (Text.bytes "Sec-WebSocket-Key: a\r\n\r\n")).2

def farewell : List UInt8 := [0x89, 0x80, 0, 0, 0, 0, 0x88, 0x80, 0, 0, 0, 0]

theorem farewell_delivered :
    let frames : List ServerFrame := [⟨.text, [0x68]⟩, ⟨.pong, []⟩, ⟨.close, []⟩]
    ∃ (server : Server) (trace : List Exchange),
      Transcript Session.indifferent (fun _ _ _ => []) ⟨0, by decide⟩ ⟨0, by decide⟩ server trace
        frames ∧
      (server.client ⟨0, by decide⟩).phase = .disconnected ∧
      finishedOn ⟨0, by decide⟩ trace ≠ 0 ∧
      ∃ key, takenOn ⟨0, by decide⟩ trace = response key ++ ServerFrame.stream frames := by
  intro frames
  let chip := Sim.Controller.chip
  let first : Fin maxClients := ⟨0, by decide⟩
  let visitor : SocketId := ⟨0, by decide⟩
  let script : Script Unit := fun _ _ _ => []
  let taken := (({} : Server).accept 0).run chip upgradeAsked
  let turns := Server.serviceAllTelling Session.indifferent script 0 (List.finRange maxClients)
    taken.value ()
  let greeted := turns.run chip taken.state
  let hailed := (greeted.value.1.1.sendTo first "h").value.2
  let leaving := greeted.state.arrive visitor farewell
  let ending := hailed.updateTelling Session.indifferent script Sim.steadyLink () 1
  let left := ending.run chip leaving
  let trace := turns.exchanges chip taken.state ++ ending.exchanges chip leaving
  have attached : (taken.value.client first).phase.socket = some visitor := by decide +kernel
  have connected : (greeted.value.1.1.client first).phase.socket = some visitor := by
    decide +kernel
  have waiting : (hailed.client first).phase.socket = some visitor := by decide +kernel
  have fresh : ({} : Server).Reachable Session.indifferent _ := .fresh {}
  have ready : Sim.steadyLink.ready = true := rfl
  have opened : Transcript Session.indifferent script first visitor greeted.value.1.1 _ _ :=
    opened_run fresh ready (by decide +kernel) rfl attached rfl rfl rfl
  have spoken : Transcript Session.indifferent script first visitor hailed _ _ :=
    opened.used connected (Server.used_sendTo first "h")
  have parted : Transcript Session.indifferent script first visitor left.value.1.1 trace _ :=
    spoken.updated_run waiting rfl rfl rfl
  have whole : Transcript Session.indifferent script first visitor left.value.1.1 trace frames :=
    parted.congr (by decide +kernel)
  have gone : (left.value.1.1.client first).phase = .disconnected := by decide +kernel
  have finished : finishedOn visitor trace ≠ 0 := by decide +kernel
  have plays : Session.indifferent.Plays script := fun _ _ _ => rfl
  -- what the server has come to is not looked into any further
  obtain ⟨server, record, whole, gone, finished⟩ : ∃ server record,
      Transcript Session.indifferent script first visitor server record frames ∧
      (server.client first).phase = .disconnected ∧ finishedOn visitor record ≠ 0 :=
    ⟨_, _, whole, gone, finished⟩
  obtain ⟨-, conserved, -⟩ := whole.frames_conserved plays
  rw [gone] at conserved
  refine ⟨server, record, whole, gone, finished, ?_⟩
  rcases conserved with ⟨_, -, empty, -⟩ | ⟨key, sent, answered, -, all⟩
  · exact absurd empty (by simp [frames])
  · exact ⟨key, by rw [answered, all finished]⟩

end Transcript

end BoardNet.WebSocket
