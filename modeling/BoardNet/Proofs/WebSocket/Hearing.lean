import BoardNet.Proofs.WebSocket.Turns

namespace BoardNet.WebSocket

open Poll

/-- A slot at a moment when nothing that has come is left to be acted on: its peer was followed as
far as `reading` before, and `data` with these events came since. -/
def Slot.Settled (slot : Slot) (socket : SocketId) (reading : Reading)
    (subscriptions : Subscriptions) (data : List UInt8) (events : List Event) : Prop :=
  ∃ next : Reading, next.Quiet ∧ reading.Advances data events next ∧
    (slot.Vacant ∨ slot.Follows socket next (subscriptions.heedAll events))

namespace Turn

variable {C : Type} {turn after : Turn C} {socket : SocketId} {settings : Settings}
  {handler : MessageHandler C} {now : Millis} {trace : List Exchange} {events : List Event}
  {allowed : Effect → Prop}

/-- The client has this socket or none. -/
def Within (turn : Turn C) (socket : SocketId) : Prop :=
  turn.slot.client.phase.socket = none ∨ turn.slot.client.phase.socket = some socket

/-- A test suits the socket of the turn's client, if it has one. -/
def Suits (turn : Turn C) (allowed : Effect → Prop) : Prop :=
  ∀ socket, turn.slot.client.phase.socket = some socket → WebSocket.Suits allowed socket

/-- A test suits sending on that socket, too. -/
def Feeds (turn : Turn C) (allowed : Effect → Prop) : Prop :=
  ∀ socket, turn.slot.client.phase.socket = some socket → WebSocket.Feeds allowed socket

theorem Within.socket_eq (within : turn.Within socket) {held : SocketId}
    (holds : turn.slot.client.phase.socket = some held) : held = socket := by
  rcases within with none | own
  · rw [none] at holds
    cases holds
  · exact Option.some.inj (holds.symm.trans own)

theorem Within.suits (within : turn.Within socket) (suits : WebSocket.Suits allowed socket) :
    turn.Suits allowed := by
  intro held holds
  rwa [within.socket_eq holds]

theorem Within.feeds (within : turn.Within socket) (feeds : WebSocket.Feeds allowed socket) :
    turn.Feeds allowed := by
  intro held holds
  rwa [within.socket_eq holds]

theorem within_of_stays (stays : turn.slot.Stays after.slot) (within : turn.Within socket) :
    after.Within socket := by
  rcases stays with none | same
  · exact .inl none
  · rw [Within, same]
    exact within

theorem Suits.of_phase (suits : turn.Suits allowed)
    (same : after.slot.client.phase = turn.slot.client.phase) : after.Suits allowed := by
  intro socket held
  rw [same] at held
  exact suits socket held

theorem suits_deaf (turn : Turn C) : turn.Suits Deaf := fun socket _ => WebSocket.suits_deaf socket

theorem feeds_deaf (turn : Turn C) : turn.Feeds Deaf := fun socket _ => WebSocket.feeds_deaf socket

theorem asks_forceClose (suits : turn.Suits allowed) : turn.forceClose.Asks allowed := by
  unfold forceClose
  cases held : turn.slot.client.phase.socket with
  | none => trivial
  | some socket =>
    exact (asks_nic.mpr ((suits socket held).call _ rfl rfl rfl)).bind fun _ => trivial

theorem asks_checkPeer (suits : WebSocket.Suits allowed socket) :
    (turn.checkPeer socket).Asks allowed := by
  refine (asks_nic.mpr (suits.call _ rfl rfl rfl)).bind fun status => Asks.bind ?_ fun gone => ?_
  · unfold peerGone
    split
    · trivial
    · split
      · exact (asks_nic.mpr (suits.call _ rfl rfl rfl)).bind fun waiting => trivial
      · trivial
  · cases gone with
    | false => trivial
    | true =>
      refine (asks_log.mpr (suits.record _)).bind fun _ => ?_
      split
      · exact (asks_nic.mpr (suits.call _ rfl rfl rfl)).bind fun _ => trivial
      · trivial

theorem asks_accept {rest : List UInt8} (own : WebSocket.Suits allowed socket)
    (send : ∀ data, allowed (.call (.send socket data))) (suits : turn.Suits allowed) :
    (turn.accept socket rest now).Asks allowed := by
  unfold accept
  cases turn.slot.upgrade.key with
  | none =>
    refine (asks_log.mpr (own.record _)).bind fun _ => ?_
    exact (asks_nic.mpr (own.call _ rfl rfl rfl)).bind fun _ => trivial
  | some key =>
    dsimp only
    generalize Text.bytes (upgradeReply (acceptKey key)) = reply
    refine (asks_nic.mpr (send _)).bind fun taken => ?_
    split
    · exact (asks_log.mpr (own.record _)).bind fun _ => asks_forceClose suits
    · exact (asks_log.mpr (own.record _)).bind fun _ => trivial

theorem asks_acceptNoting {rest : List UInt8} (own : WebSocket.Suits allowed socket)
    (send : ∀ data, allowed (.call (.send socket data))) (suits : turn.Suits allowed) :
    (turn.acceptNoting socket rest now).Asks allowed := by
  refine (asks_accept own send suits).bind fun ended => ?_
  cases turn.slot.upgrade.key <;> trivial

theorem asks_awaitRequest (record : ∀ record, allowed (.record record))
    (suits : turn.Suits allowed) : (turn.awaitRequest settings now).Asks allowed := by
  unfold awaitRequest
  split
  · exact (asks_log.mpr (record _)).bind fun _ => asks_forceClose suits
  · trivial

theorem asks_upgradeNoting (attends : Attends allowed socket)
    (send : ∀ data, allowed (.call (.send socket data))) (within : turn.Within socket) :
    (turn.upgradeNoting settings now).Asks allowed := by
  have own := attends.toSuits
  unfold upgradeNoting
  cases phase : turn.slot.client.phase with
  | upgrading held =>
    obtain rfl : held = socket := within.socket_eq (by rw [phase]; rfl)
    refine (asks_arrivals attends _).bind fun data => ?_
    refine (asks_lift own.record).bind fun fed => ?_
    dsimp only
    cases fed.2 with
    | none => exact Asks.bind (asks_awaitRequest own.record (within.suits own)) fun ended => trivial
    | some rest => exact asks_acceptNoting own send (within.suits own)
  | disconnected | connected held | closing held => trivial

theorem asks_upkeep {lawful : Bool} (record : ∀ record, allowed (.record record))
    (suits : turn.Suits allowed) : (turn.upkeep settings now lawful).Asks allowed := by
  unfold upkeep
  cases lawful with
  | false => exact asks_forceClose suits
  | true =>
    simp only [Bool.not_true, Bool.false_eq_true, if_false]
    split
    · refine (asks_lift record).bind_path fun trace kept path => ?_
      obtain ⟨-, rfl⟩ := path_lift.mp path
      split
      · trivial
      · exact asks_forceClose (suits.of_phase (turn.keeps_keepAlive settings now).phase)
    · trivial

theorem asks_converseNoting (attends : Attends allowed socket) (keeps : handler.KeepsPhase)
    (within : turn.Within socket) :
    (turn.converseNoting settings handler now).Asks allowed := by
  have own := attends.toSuits
  unfold converseNoting
  cases phase : turn.slot.client.phase with
  | connected held =>
    obtain rfl : held = socket := within.socket_eq (by rw [phase]; rfl)
    refine Asks.bind ((asks_arrivals attends _).bind fun data => trivial)
      fun received => ?_
    refine (asks_lift own.record).bind_path fun trace read path => ?_
    obtain ⟨-, rfl⟩ := path_lift.mp path
    have same : Within _ held := .inr (socket_readFramesNoting keeps now received phase)
    exact (asks_upkeep own.record (same.suits own)).bind fun ended => trivial
  | disconnected | upgrading held | closing held => trivial

theorem asks_transmit {chunks : Nat} (own : WebSocket.Feeds allowed socket) :
    (turn.transmit settings socket now chunks).Asks allowed := by
  induction chunks generalizing turn with
  | zero => trivial
  | succ chunks ih =>
    refine (asks_nic.mpr own.room).bind fun free => ?_
    dsimp only
    split
    · split
      · exact (asks_log.mpr (own.record _)).bind fun _ => trivial
      · trivial
    · split
      · trivial
      · refine (asks_nic.mpr (own.send _)).bind fun taken => ?_
        split
        · trivial
        · exact ih

theorem asks_drain (feeds : turn.Feeds allowed) : (turn.drain settings now).Asks allowed := by
  have suits : turn.Suits allowed := fun socket held => (feeds socket held).toSuits
  have moves (socket : SocketId) (own : WebSocket.Feeds allowed socket) :
      (turn.transmit settings socket now settings.chunksPerPoll.toNat >>= fun moved =>
        if moved.1 then pure moved.2 else moved.2.forceClose).Asks allowed := by
    refine (asks_transmit own).bind_path fun trace ⟨alive, moved⟩ path => ?_
    split
    · trivial
    · exact asks_forceClose (suits.of_phase (path_transmit path).phase)
  unfold drain
  cases phase : turn.slot.client.phase with
  | connected socket | closing socket =>
    have held : turn.slot.client.phase.socket = some socket := by rw [phase]; rfl
    dsimp only
    split
    · trivial
    · exact moves socket (feeds socket held)
  | disconnected | upgrading socket => trivial

theorem asks_finish (suits : turn.Suits allowed) : turn.finish.Asks allowed := by
  unfold finish
  cases phase : turn.slot.client.phase with
  | closing socket =>
    have own := suits socket (by rw [phase]; rfl)
    dsimp only
    split
    · refine (asks_log.mpr (own.record _)).bind fun _ => ?_
      exact (asks_nic.mpr (own.call _ rfl rfl rfl)).bind fun _ => trivial
    · trivial
  | disconnected | upgrading socket | connected socket => trivial

section Everywhere

variable (attends : ∀ socket, Attends allowed socket)
  (feeds : ∀ socket, WebSocket.Feeds allowed socket)

include attends feeds

theorem asks_upgrade : (turn.upgrade settings now).Asks allowed := by
  have suits (turn : Turn C) : turn.Suits allowed := fun socket _ => (feeds socket).toSuits
  unfold upgrade
  cases turn.slot.client.phase with
  | upgrading own =>
    refine (asks_arrivals (attends own) _).bind fun data => ?_
    refine (asks_lift (feeds own).record).bind fun fed => ?_
    dsimp only
    cases fed.2 with
    | none => exact asks_awaitRequest (feeds own).record (suits _)
    | some rest => exact asks_accept (feeds own).toSuits (feeds own).send (suits _)
  | disconnected | connected own | closing own => trivial

theorem asks_converse : (turn.converse settings handler now).Asks allowed := by
  unfold converse
  cases turn.slot.client.phase with
  | connected own =>
    refine Asks.bind ((asks_arrivals (attends own) _).bind fun data => trivial) fun received => ?_
    refine (asks_lift (feeds own).record).bind fun read => ?_
    exact asks_upkeep (feeds own).record fun socket _ => (feeds socket).toSuits
  | disconnected | upgrading own | closing own => trivial

/-- A test that suits every socket passes a whole turn, even if the application moves the client to
another socket in it. -/
theorem asks_service : (turn.service settings handler now).Asks allowed := by
  unfold service
  cases turn.slot.client.phase.socket with
  | none => trivial
  | some own =>
    refine (asks_checkPeer (feeds own).toSuits).bind fun present => ?_
    refine (asks_upgrade attends feeds).bind fun upgraded => ?_
    refine (asks_converse attends feeds).bind fun conversed => ?_
    refine (asks_drain fun socket _ => feeds socket).bind fun drained => ?_
    exact asks_finish fun socket _ => (feeds socket).toSuits

end Everywhere

theorem path_accept {rest : List UInt8} (path : Path (turn.accept socket rest now) trace after) :
    after.slot.Vacant ∨
      turn.slot.upgrade.key ≠ none ∧ after.slot.client.phase = .connected socket ∧
        after.slot.client.subscriptions = turn.slot.client.subscriptions ∧
        after.slot.received = turn.slot.received ++ rest := by
  unfold accept at path
  cases found : turn.slot.upgrade.key with
  | none =>
    simp only [found, path_log_bind] at path
    obtain ⟨rest, rfl, path⟩ := path
    rw [Nic.disconnect, path_nic_bind] at path
    obtain ⟨_, rest, rfl, path⟩ := path
    obtain ⟨-, rfl⟩ := path_done.mp path
    exact .inl rfl
  | some key =>
    simp only [found] at path
    generalize Text.bytes (upgradeReply (acceptKey key)) = reply at path
    rw [Nic.send, path_nic_bind] at path
    obtain ⟨taken, rest, rfl, path⟩ := path
    split at path
    · rw [path_log_bind] at path
      obtain ⟨rest, rfl, path⟩ := path
      exact .inl (path_forceClose path)
    · rw [path_log_bind] at path
      obtain ⟨rest, rfl, path⟩ := path
      obtain ⟨-, rfl⟩ := path_done.mp path
      exact .inr ⟨Option.some_ne_none key, rfl, rfl, rfl⟩

/-- How a part of a turn ends that began with a peer followed as far as `reading`, and took `data`
from it. -/
inductive Heard (socket : SocketId) (reading : Reading) (subscriptions : Subscriptions)
    (data : List UInt8) : List Event → Turn C → Prop where
  /-- The controller did not take the response. -/
  | unanswered {after : Turn C} {events : List Event} (key : String)
      (noted : .unanswered key ∈ events) (vacant : after.slot.Vacant) :
      Heard socket reading subscriptions data events after
  /-- The peer was let go, refused or cut off. -/
  | gone {after : Turn C} {events : List Event} {next : Reading}
      (advances : reading.Advances data events next) (quiet : next.Quiet)
      (vacant : after.slot.Vacant) : Heard socket reading subscriptions data events after
  | on {after : Turn C} {events : List Event} {next : Reading}
      (advances : reading.Advances data events next)
      (follows : after.slot.Follows socket next (subscriptions.heedAll events)) :
      Heard socket reading subscriptions data events after

variable {reading : Reading} {subscriptions : Subscriptions}

theorem advances_request {reader upgrade : LineReader} {data rest : List UInt8}
    (read : (reader.feedAll data).value = (upgrade, some rest)) (more : List UInt8) :
    (Reading.request reader).feed (data ++ more) = .ofRequest (upgrade, some (rest ++ more)) := by
  rw [Reading.feed, LineReader.feedAll_append, read]

/-- A request that is complete is answered, and the bytes behind it are frames. -/
theorem heard_accept {data rest : List UInt8} {reader : LineReader}
    (path : Path (turn.acceptNoting socket rest now) trace (after, events))
    (read : (reader.feedAll data).value = (turn.slot.upgrade, some rest))
    (unread : turn.slot.received = []) :
    Heard socket (.request reader) turn.slot.client.subscriptions data events after := by
  rw [acceptNoting, path_bind] at path
  obtain ⟨answering, last, ended, rfl, accepting, path⟩ := path
  have outcome := path_accept accepting
  cases found : turn.slot.upgrade.key with
  | none =>
    rw [found] at path outcome
    obtain ⟨-, same⟩ := path_done.mp path
    cases same
    have vacant : after.slot.Vacant := by
      rcases outcome with vacant | ⟨absurd, -⟩
      · exact vacant
      · exact (absurd rfl).elim
    refine .gone (fun more => ?_) Reading.quiet_ended vacant
    rw [advances_request read, Findings.ofRequest, found]
    rfl
  | some key =>
    rw [found] at path
    obtain ⟨-, same⟩ := path_done.mp path
    cases same
    rcases outcome with vacant | ⟨-, connected, subscriptions, received⟩
    · refine .unanswered key ?_ vacant
      rw [Client.isConnected, vacant]
      exact List.mem_singleton_self _
    · have follows := follows_connected connected
      rw [received, unread, List.nil_append, subscriptions] at follows
      have accepted : after.slot.client.isConnected = true := by
        rw [Client.isConnected, connected]
      rw [accepted, if_pos rfl]
      refine .on (fun more => ?_) follows
      rw [advances_request read, Findings.ofRequest, found]
      rfl

theorem heard_upgrade (follows : turn.slot.Follows socket reading subscriptions)
    (path : Path (turn.upgradeNoting settings now) trace (after, events)) :
    Heard socket reading subscriptions (givenOn socket trace) events after := by
  unfold upgradeNoting at path
  cases phase : turn.slot.client.phase with
  | disconnected | connected _ | closing _ =>
    rw [phase] at path
    obtain ⟨rfl, same⟩ := path_done.mp path
    cases same
    exact .on .refl follows
  | upgrading own =>
    obtain rfl : own = socket := by simpa [phase, Phase.socket] using follows.held
    obtain rfl : .request turn.slot.upgrade = reading := by
      rw [← follows.reading, Slot.reading, phase]
    simp only [phase] at path
    rw [path_bind] at path
    obtain ⟨taking, rest, data, rfl, arrived, path⟩ := path
    rw [path_lift_bind] at path
    obtain ⟨rest, rfl, path⟩ := path
    rcases fed : (turn.slot.upgrade.feedAll data).value with ⟨upgrade, _ | behind⟩
    · rw [fed] at path
      rw [path_bind] at path
      obtain ⟨waiting, last, ended, rfl, wait, path⟩ := path
      obtain ⟨rfl, same⟩ := path_done.mp path
      cases same
      have quiet := givenOn_of_deaf wait (asks_awaitRequest (fun _ => rfl) (suits_deaf _)) own
      have advances := (Reading.request turn.slot.upgrade).advances_feed data
      rw [Reading.feed, fed] at advances
      simp only [givenOn_append, path_arrivals arrived, givenOn_recorded, quiet, List.append_nil]
      rcases path_awaitRequest wait with vacant | rfl
      · exact .gone advances (Reading.quiet_request upgrade) vacant
      · refine .on advances ⟨follows.held, ?_, follows.subscriptions, follows.unread⟩
        simp only [Slot.reading, phase]
        rfl
    · rw [fed] at path
      let complete : Turn C := { turn with slot := { turn.slot with upgrade } }
      change Path (complete.acceptNoting own behind now) rest (after, events) at path
      have quiet : givenOn own rest = [] :=
        givenOn_of_deaf path
          (asks_acceptNoting (WebSocket.suits_deaf own) (fun _ => rfl) (suits_deaf _)) own
      have heard := heard_accept path fed (follows.unread phase)
      rw [← follows.subscriptions]
      simpa only [givenOn_append, path_arrivals arrived, givenOn_recorded, quiet,
        List.append_nil] using heard

theorem heard_converse (alone : handler.LeavesAlone)
    (follows : turn.slot.Follows socket reading subscriptions)
    (path : Path (turn.converseNoting settings handler now) trace (after, events)) :
    after.slot.Settled socket reading subscriptions (givenOn socket trace) events := by
  unfold converseNoting at path
  cases phase : turn.slot.client.phase with
  | disconnected =>
    have held := follows.held
    rw [phase] at held
    cases held
  | upgrading _ | closing _ =>
    rw [phase] at path
    obtain ⟨rfl, same⟩ := path_done.mp path
    cases same
    refine ⟨reading, ?_, .refl, .inr follows⟩
    rw [← follows.reading, Slot.reading, phase]
    first
    | exact Reading.quiet_request _
    | exact Reading.quiet_closed _
  | connected own =>
    obtain rfl : own = socket := by simpa [phase, Phase.socket] using follows.held
    obtain rfl : .frames turn.slot.received = reading := by
      rw [← follows.reading, Slot.reading, phase]
    simp only [phase] at path
    rw [path_bind] at path
    obtain ⟨taking, rest, received, rfl, taken, path⟩ := path
    rw [receive, path_bind] at taken
    obtain ⟨arriving, last, data, rfl, arrived, taken⟩ := taken
    obtain ⟨rfl, rfl⟩ := path_done.mp taken
    rw [path_lift_bind] at path
    obtain ⟨rest, rfl, path⟩ := path
    -- what was left of the stream and what came now are read as one, as a reader would
    have read := hasRead_readFrames alone now (turn.slot.received ++ data) phase
    rcases reads : (turn.readFramesNoting handler own now (turn.slot.received ++ data)).value with
      ⟨⟨lawful, next⟩, noted⟩
    rw [reads] at read path
    obtain ⟨rfl, outcome⟩ := read
    rw [path_bind] at path
    obtain ⟨keeping, last, ended, rfl, kept, path⟩ := path
    obtain ⟨rfl, same⟩ := path_done.mp path
    cases same
    have quiet := givenOn_of_deaf kept (asks_upkeep (fun _ => rfl) (suits_deaf _)) own
    have advances := (Reading.frames turn.slot.received).advances_feed data
    have settled := (Reading.frames turn.slot.received).quiet_feed data
    simp only [givenOn_append, path_arrivals arrived, givenOn_recorded, quiet,
      List.append_nil]
    rw [Reading.feed] at advances settled
    rcases path_upkeep kept with vacant | ⟨rfl, keeps⟩
    · exact ⟨_, settled, advances, .inl vacant⟩
    · rcases outcome with ⟨unlawful, -⟩ | ⟨-, followed⟩
      · cases unlawful
      · rw [follows.subscriptions] at followed
        exact ⟨_, settled, advances, .inr (keeps.follows followed)⟩

theorem path_upgradeNoting_of_vacant (vacant : turn.slot.Vacant)
    (path : Path (turn.upgradeNoting settings now) trace (after, events)) :
    trace = [] ∧ after = turn ∧ events = [] := by
  unfold upgradeNoting at path
  rw [show turn.slot.client.phase = .disconnected from vacant] at path
  obtain ⟨rfl, same⟩ := path_done.mp path
  cases same
  exact ⟨rfl, rfl, rfl⟩

theorem path_converseNoting_of_vacant (vacant : turn.slot.Vacant)
    (path : Path (turn.converseNoting settings handler now) trace (after, events)) :
    trace = [] ∧ after = turn ∧ events = [] := by
  unfold converseNoting at path
  rw [show turn.slot.client.phase = .disconnected from vacant] at path
  obtain ⟨rfl, same⟩ := path_done.mp path
  cases same
  exact ⟨rfl, rfl, rfl⟩

/-- What comes later in a turn does not change what was heard. -/
theorem Spares.settled {reading : Reading} {data : List UInt8} {middle : Turn C}
    (spares : middle.Spares after)
    (settled : middle.slot.Settled socket reading subscriptions data events) :
    after.slot.Settled socket reading subscriptions data events := by
  obtain ⟨next, quiet, advances, place⟩ := settled
  refine ⟨next, quiet, advances, ?_⟩
  rcases spares with vacant | keeps
  · exact .inl vacant
  · rcases place with vacant | follows
    · exact .inl (keeps.phase.trans vacant)
    · exact .inr (keeps.follows follows)

/-- The parts of a turn, one after the other. -/
theorem path_serviceNoting (held : turn.slot.client.phase.socket = some socket)
    (path : Path (turn.serviceNoting settings handler now) trace (after, events)) :
    ∃ (checking asking talking sending ending : List Exchange)
      (present upgraded conversed drained : Turn C) (answer heard : List Event),
      trace = checking ++ (asking ++ (talking ++ (sending ++ ending))) ∧
        events = answer ++ heard ∧
        Path (turn.checkPeer socket) checking present ∧
        Path (present.upgradeNoting settings now) asking (upgraded, answer) ∧
        Path (upgraded.converseNoting settings handler now) talking (conversed, heard) ∧
        Path (conversed.drain settings now) sending drained ∧ Path drained.finish ending after := by
  simp only [serviceNoting, held] at path
  rw [path_bind] at path
  obtain ⟨checking, trace, present, rfl, checked, path⟩ := path
  rw [path_bind] at path
  obtain ⟨asking, trace, ⟨upgraded, answer⟩, rfl, upgrading, path⟩ := path
  rw [path_bind] at path
  obtain ⟨talking, trace, ⟨conversed, heard⟩, rfl, conversing, path⟩ := path
  rw [path_bind] at path
  obtain ⟨sending, trace, drained, rfl, draining, path⟩ := path
  rw [path_bind] at path
  obtain ⟨ending, last, ended, rfl, finishing, path⟩ := path
  obtain ⟨rfl, same⟩ := path_done.mp path
  cases same
  exact ⟨checking, asking, talking, sending, ending, present, upgraded, conversed, drained, answer,
    heard, by rw [List.append_nil], rfl, checked, upgrading, conversing, draining, finishing⟩

/-- A turn acts on the events of the bytes that it takes, and its slot remembers as much of the
stream as a reader would, unless the controller did not take the response to the upgrade. -/
theorem heard_service (alone : handler.LeavesAlone)
    (follows : turn.slot.Follows socket reading subscriptions) (quiet : reading.Quiet)
    (path : Path (turn.serviceNoting settings handler now) trace (after, events)) :
    (∃ key, .unanswered key ∈ events) ∧ after.slot.Vacant ∨
      after.slot.Settled socket reading subscriptions (givenOn socket trace) events := by
  obtain ⟨checking, asking, talking, sending, ending, present, upgraded, conversed, drained, answer,
    heard, rfl, rfl, checked, upgrading, conversing, draining, finishing⟩ :=
    path_serviceNoting follows.held path
  have spares : conversed.Spares after := (path_drain draining).trans (path_finish finishing)
  simp only [givenOn_append, givenOn_of_deaf checked (asks_checkPeer (WebSocket.suits_deaf socket)),
    givenOn_of_deaf draining (asks_drain (feeds_deaf _)),
    givenOn_of_deaf finishing (asks_finish (suits_deaf _)), List.nil_append, List.append_nil]
  have idle (vacant : upgraded.slot.Vacant) :
      talking = [] ∧ conversed = upgraded ∧ heard = [] :=
    path_converseNoting_of_vacant vacant conversing
  rcases path_checkPeer checked with vacant | keeps
  · obtain ⟨rfl, rfl, rfl⟩ := path_upgradeNoting_of_vacant vacant upgrading
    obtain ⟨rfl, rfl, rfl⟩ := idle vacant
    exact .inr (spares.settled ⟨reading, quiet, .refl, .inl vacant⟩)
  · cases heard_upgrade (keeps.follows follows) upgrading with
    | unanswered key noted vacant =>
      obtain ⟨rfl, rfl, rfl⟩ := idle vacant
      rw [List.append_nil]
      refine .inl ⟨⟨key, noted⟩, ?_⟩
      rcases spares with gone | keeps
      · exact gone
      · exact keeps.phase.trans vacant
    | gone advances settled vacant =>
      obtain ⟨rfl, rfl, rfl⟩ := idle vacant
      rw [givenOn_nil, List.append_nil, List.append_nil]
      exact .inr (spares.settled ⟨_, settled, advances, .inl vacant⟩)
    | on advances followed =>
      obtain ⟨next, settled, further, place⟩ := heard_converse alone followed conversing
      rw [← Subscriptions.heedAll_append] at place
      exact .inr (spares.settled ⟨next, settled, advances.trans further, place⟩)

theorem stays_upgradeNoting (path : Path (turn.upgradeNoting settings now) trace (after, events)) :
    turn.slot.Stays after.slot := by
  unfold upgradeNoting at path
  cases phase : turn.slot.client.phase with
  | disconnected | connected _ | closing _ =>
    rw [phase] at path
    cases (path_done.mp path).2
    exact .refl _
  | upgrading own =>
    have held : turn.slot.client.phase.socket = some own := by rw [phase]; rfl
    simp only [phase] at path
    rw [path_bind] at path
    obtain ⟨_, _, data, -, -, path⟩ := path
    rw [path_lift_bind] at path
    obtain ⟨_, -, path⟩ := path
    split at path
    · rw [acceptNoting, path_bind] at path
      obtain ⟨_, _, ended, -, accepting, path⟩ := path
      have same : after = ended := by
        cases found : (turn.slot.upgrade.feedAll data).value.1.key with
        | none | some =>
          rw [found] at path
          exact congrArg Prod.fst (path_done.mp path).2
      rw [same]
      rcases path_accept accepting with vacant | ⟨-, connected, -⟩
      · exact vacant.stays
      · exact .inr ((congrArg Phase.socket connected).trans held.symm)
    · rw [path_bind] at path
      obtain ⟨_, _, ended, -, waiting, path⟩ := path
      cases (path_done.mp path).2
      rcases path_awaitRequest waiting with vacant | rfl
      · exact vacant.stays
      · exact .refl _

theorem stays_converseNoting (keeps : handler.KeepsPhase)
    (path : Path (turn.converseNoting settings handler now) trace (after, events)) :
    turn.slot.Stays after.slot := by
  unfold converseNoting at path
  cases phase : turn.slot.client.phase with
  | disconnected | upgrading _ | closing _ =>
    rw [phase] at path
    cases (path_done.mp path).2
    exact .refl _
  | connected own =>
    have held : turn.slot.client.phase.socket = some own := by rw [phase]; rfl
    simp only [phase] at path
    rw [path_bind] at path
    obtain ⟨_, _, received, -, -, path⟩ := path
    rw [path_lift_bind] at path
    obtain ⟨_, -, path⟩ := path
    have read := socket_readFramesNoting keeps now received phase
    rw [path_bind] at path
    obtain ⟨_, _, ended, -, keeping, path⟩ := path
    cases (path_done.mp path).2
    rcases path_upkeep keeping with vacant | ⟨-, kept⟩
    · exact vacant.stays
    · exact .inr ((congrArg Phase.socket kept.phase).trans (read.trans held.symm))

/-- A turn makes no calls but on its client's socket. -/
theorem asks_serviceNoting (attends : Attends allowed socket)
    (feeds : WebSocket.Feeds allowed socket) (keeps : handler.KeepsPhase)
    (held : turn.slot.client.phase.socket = some socket) :
    (turn.serviceNoting settings handler now).Asks allowed := by
  have own := attends.toSuits
  have within : turn.Within socket := .inr held
  simp only [serviceNoting, held]
  refine (asks_checkPeer own).bind_path fun _ present checked => ?_
  have present := within_of_stays (path_checkPeer checked).stays within
  refine (asks_upgradeNoting attends feeds.send present).bind_path
    fun _ ⟨upgraded, answer⟩ upgrading => ?_
  have upgraded := within_of_stays (stays_upgradeNoting upgrading) present
  refine (asks_converseNoting attends keeps upgraded).bind_path
    fun _ ⟨conversed, heard⟩ conversing => ?_
  have conversed := within_of_stays (stays_converseNoting keeps conversing) upgraded
  refine (asks_drain (conversed.feeds feeds)).bind_path fun _ drained draining => ?_
  have drained := within_of_stays (path_drain draining).stays conversed
  exact (asks_finish (drained.suits own)).bind fun ended => trivial

theorem stays_serviceNoting (keeps : handler.KeepsPhase)
    (path : Path (turn.serviceNoting settings handler now) trace (after, events)) :
    turn.slot.Stays after.slot := by
  cases held : turn.slot.client.phase.socket with
  | none =>
    simp only [serviceNoting, held] at path
    cases (path_done.mp path).2
    exact .refl _
  | some socket =>
    obtain ⟨_, _, _, _, _, present, upgraded, conversed, drained, _, _, -, -, checked, upgrading,
      conversing, draining, finishing⟩ := path_serviceNoting held path
    have early := (path_checkPeer checked).stays.trans (stays_upgradeNoting upgrading)
    have late := (path_drain draining).stays.trans (path_finish finishing).stays
    exact (early.trans (stays_converseNoting keeps conversing)).trans late

end Turn

end BoardNet.WebSocket
