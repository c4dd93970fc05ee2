import BoardNet.Proofs.Coupling
import BoardNet.Proofs.WebSocket.Noting
import BoardNet.Proofs.WebSocket.Ring

/-!
Clients that are the same but for where their queue lies in the ring, what else is in its cells, and
how many frames they lost. No turn of the server can tell them apart: it asks the same, records the
same and acts on the same events for both, and leaves them so.
-/

namespace BoardNet.WebSocket

namespace Ring

variable {ring other : Ring}

theorem length_of_same (same : other.toList = ring.toList) : other.length = ring.length := by
  rw [← length_toList, ← length_toList, same]

theorem free_of_same (same : other.toList = ring.toList) : other.free = ring.free := by
  rw [free, free, length_of_same same]

theorem isEmpty_of_same (same : other.toList = ring.toList) : other.isEmpty = ring.isEmpty := by
  rw [isEmpty, isEmpty, length_of_same same]

theorem peek_of_same (same : other.toList = ring.toList) (count : Nat) :
    other.peek count = ring.peek count := by
  rw [peek_eq, peek_eq, same]

theorem consume_of_same (same : other.toList = ring.toList) (count : Nat) :
    (other.consume count).toList = (ring.consume count).toList := by
  rw [toList_consume, toList_consume, same]

/-- Where its bytes lie makes no difference for what a ring takes in. -/
theorem pushAll_of_same (same : other.toList = ring.toList) (parts : List (List UInt8)) :
    Seconds (fun after before => before.toList = after.toList) (ring.pushAll parts)
      (other.pushAll parts) := by
  have free := free_of_same same
  rcases Nat.lt_or_ge ring.free parts.flatten.length with full | fits
  · rw [ring.pushAll_of_full full, other.pushAll_of_full (free ▸ full)]
    exact ⟨rfl, same⟩
  · have fitsOther : parts.flatten.length ≤ other.free := free ▸ fits
    rw [ring.pushAll_of_fits fits, other.pushAll_of_fits fitsOther]
    refine ⟨rfl, ?_⟩
    dsimp only
    rw [toList_foldl_put _ _ fits, toList_foldl_put _ _ fitsOther, same]

end Ring

/-- A client and the same one with its queue elsewhere in its ring, and with another count of lost
frames. -/
inductive Client.Alike (client : Client) : Client → Prop where
  | swap (tx : Ring) (dropped : UInt32) (same : tx.toList = client.tx.toList) :
      Alike client { client with tx, dropped }

inductive Slot.Alike (slot : Slot) : Slot → Prop where
  | swap {client : Client} (alike : slot.client.Alike client) : Alike slot { slot with client }

inductive Turn.Alike {C : Type} (turn : Turn C) : Turn C → Prop where
  | swap {slot : Slot} (alike : turn.slot.Alike slot) : Alike turn { turn with slot }

/-- A handler that looks neither into a client's ring nor at its count of lost frames. -/
def Discreet {C : Type} (handler : MessageHandler C) : Prop :=
  ∀ {client other : Client}, client.Alike other → ∀ text context,
    (handler client text context).Coupled (Firsts Client.Alike) (handler other text context)

namespace Client.Alike

variable {client other : Client}

theorem refl (client : Client) : client.Alike client := .swap client.tx client.dropped rfl

theorem id (alike : client.Alike other) : other.id = client.id := by
  obtain ⟨tx, dropped, -⟩ := alike
  rfl

theorem phase (alike : client.Alike other) : other.phase = client.phase := by
  obtain ⟨tx, dropped, -⟩ := alike
  rfl

theorem queued (alike : client.Alike other) : other.tx.toList = client.tx.toList := by
  obtain ⟨tx, dropped, same⟩ := alike
  exact same

theorem isConnected (alike : client.Alike other) : other.isConnected = client.isConnected := by
  rw [Client.isConnected, alike.phase, Client.isConnected]

theorem wants (alike : client.Alike other) (topic : String) (properties : List Property) :
    other.wants topic properties = client.wants topic properties := by
  obtain ⟨tx, dropped, -⟩ := alike
  rfl

theorem reset (alike : client.Alike other) : client.reset.Alike other.reset := by
  obtain ⟨tx, dropped, -⟩ := alike
  exact .swap tx.clear dropped (by rw [Ring.toList_clear, reset, Ring.toList_clear])

theorem enqueue (alike : client.Alike other) (opcode : Opcode) (payload : List UInt8) :
    Seconds (fun after before => before.toList = after.toList) (client.enqueue opcode payload)
      (other.enqueue opcode payload) := by
  obtain ⟨tx, dropped, same⟩ := alike
  unfold Client.enqueue
  cases serverHeader opcode payload.length with
  | ok header => exact Ring.pushAll_of_same same _
  | error error => exact ⟨rfl, same⟩

theorem subscribe (alike : client.Alike other) (topic : String) :
    Seconds Client.Alike (client.subscribe topic) (other.subscribe topic) := by
  obtain ⟨tx, dropped, same⟩ := alike
  unfold Client.subscribe
  cases Subscription.ofTopic? topic with
  | none => exact ⟨rfl, .swap tx dropped same⟩
  | some subscription => exact ⟨rfl, .swap tx dropped same⟩

theorem unsubscribe (alike : client.Alike other) (topic : String) :
    Seconds Client.Alike (client.unsubscribe topic) (other.unsubscribe topic) := by
  obtain ⟨tx, dropped, same⟩ := alike
  exact ⟨rfl, .swap tx dropped same⟩

/-- Such clients take in the same frames. -/
theorem queueFrame (alike : client.Alike other) (opcode : Opcode) (payload : List UInt8) :
    (client.queueFrame opcode payload).Coupled (Seconds Client.Alike)
      (other.queueFrame opcode payload) := by
  have enqueued := alike.enqueue opcode payload
  obtain ⟨tx, dropped, same⟩ := alike
  unfold Client.queueFrame
  refine .ite (fun _ => ?_) (fun _ => .done ⟨rfl, .swap tx dropped same⟩)
  -- What was tried is a pair for each client; only whether it went in has to be the same.
  revert enqueued
  generalize client.enqueue opcode payload = first
  generalize Client.enqueue _ opcode payload = second
  obtain ⟨queued, after⟩ := first
  obtain ⟨also, before⟩ := second
  rintro ⟨rfl, rings⟩
  cases queued with
  | true => exact .done ⟨rfl, .swap before dropped rings⟩
  | false =>
    dsimp only
    rw [Ring.free_of_same same]
    exact .next fun _ => .done ⟨rfl, .swap tx _ same⟩

end Client.Alike

namespace Slot.Alike

variable {slot other : Slot}

theorem client (alike : slot.Alike other) : slot.client.Alike other.client := by
  obtain ⟨clients⟩ := alike
  exact clients

theorem withClient (alike : slot.Alike other) {client replaced : Client}
    (clients : client.Alike replaced) :
    ({ slot with client } : Slot).Alike { other with client := replaced } := by
  obtain ⟨-⟩ := alike
  exact .swap clients

end Slot.Alike

namespace Turn.Alike

variable {C : Type} {turn other : Turn C} {handler : MessageHandler C} {settings : Settings}
  {now : Millis} {socket : SocketId}

theorem client (alike : turn.Alike other) : turn.slot.client.Alike other.slot.client := by
  obtain ⟨slots⟩ := alike
  exact slots.client

theorem id (alike : turn.Alike other) : other.slot.client.id = turn.slot.client.id :=
  alike.client.id

theorem phase (alike : turn.Alike other) : other.slot.client.phase = turn.slot.client.phase :=
  alike.client.phase

theorem stalledSince (alike : turn.Alike other) :
    other.slot.stalledSince = turn.slot.stalledSince := by
  obtain ⟨⟨clients⟩⟩ := alike
  rfl

theorem length (alike : turn.Alike other) :
    other.slot.client.tx.length = turn.slot.client.tx.length :=
  Ring.length_of_same alike.client.queued

theorem peek (alike : turn.Alike other) (count : Nat) :
    other.slot.client.tx.peek count = turn.slot.client.tx.peek count :=
  Ring.peek_of_same alike.client.queued count

theorem isEmpty (alike : turn.Alike other) :
    other.slot.client.tx.isEmpty = turn.slot.client.tx.isEmpty :=
  Ring.isEmpty_of_same alike.client.queued

theorem consume (alike : turn.Alike other) (count : Nat) :
    (turn.withClient { turn.slot.client with tx := turn.slot.client.tx.consume count }).Alike
      (other.withClient { other.slot.client with tx := other.slot.client.tx.consume count }) := by
  obtain ⟨⟨⟨tx, dropped, same⟩⟩⟩ := alike
  exact .swap (.swap (.swap (tx.consume count) dropped (Ring.consume_of_same same count)))

theorem release (alike : turn.Alike other) : turn.release.Alike other.release := by
  obtain ⟨⟨clients⟩⟩ := alike
  exact .swap (.swap clients.reset)

theorem withStats (alike : turn.Alike other) (stats : Stats) :
    ({ turn with stats } : Turn C).Alike { other with stats } := by
  obtain ⟨slots⟩ := alike
  exact .swap slots

theorem withStall (alike : turn.Alike other) (since : Option Millis) :
    (turn.withStall since).Alike (other.withStall since) := by
  obtain ⟨⟨clients⟩⟩ := alike
  exact .swap (.swap clients)

theorem forceClose (alike : turn.Alike other) :
    Poll.Coupled Turn.Alike turn.forceClose other.forceClose := by
  have released := alike.release
  obtain ⟨⟨⟨tx, dropped, same⟩⟩⟩ := alike
  unfold Turn.forceClose
  dsimp only
  cases turn.slot.client.phase.socket with
  | none => exact .done (released.withStats _)
  | some socket => exact .next fun _ => .done (released.withStats _)

theorem countHandshakeFailure (alike : turn.Alike other) :
    turn.countHandshakeFailure.Alike other.countHandshakeFailure := by
  obtain ⟨slots⟩ := alike
  exact .swap slots

theorem queue (alike : turn.Alike other) (opcode : Opcode) (payload : List UInt8) :
    Logged.Coupled Turn.Alike (turn.queue opcode payload) (other.queue opcode payload) := by
  obtain ⟨⟨clients⟩⟩ := alike
  exact (clients.queueFrame opcode payload).bind fun ends => .done (.swap (.swap ends.2))

theorem peerGone (alike : turn.Alike other) (socket : SocketId) (status : SocketStatus) :
    other.peerGone socket status = turn.peerGone socket status := by
  rw [Turn.peerGone, alike.phase, Turn.peerGone]

theorem checkPeer (alike : turn.Alike other) :
    Poll.Coupled Turn.Alike (turn.checkPeer socket) (other.checkPeer socket) := by
  have released := alike.release
  unfold Turn.checkPeer
  simp only [alike.peerGone, alike.id]
  refine .next fun status => .next fun gone => .ite (fun _ => ?_) fun _ => .done alike
  exact .next fun _ => .ite (fun _ => .next fun _ => .done released) fun _ => .done released

theorem accept (alike : turn.Alike other) (rest : List UInt8) :
    Poll.Coupled Turn.Alike (turn.accept socket rest now) (other.accept socket rest now) := by
  have failed := alike.countHandshakeFailure
  obtain ⟨⟨⟨tx, dropped, same⟩⟩⟩ := alike
  unfold Turn.accept
  dsimp only
  cases turn.slot.upgrade.key with
  | none => exact .next fun _ => .next fun _ => .done failed.release
  | some key =>
    refine .next fun taken => .ite (fun _ => .next fun _ => failed.forceClose) (fun _ => ?_)
    exact .next fun _ => .done (.swap (.swap (.swap tx dropped same)))

theorem acceptNoting (alike : turn.Alike other) (rest : List UInt8) :
    Poll.Coupled (Firsts Turn.Alike) (turn.acceptNoting socket rest now)
      (other.acceptNoting socket rest now) := by
  refine (alike.accept rest).bind ?_
  rintro ended _ ⟨⟨⟨tx, dropped, same⟩⟩⟩
  obtain ⟨⟨-⟩⟩ := alike
  dsimp only
  cases turn.slot.upgrade.key with
  | none => exact .done ⟨.swap (.swap (.swap tx dropped same)), rfl⟩
  | some key => exact .done ⟨.swap (.swap (.swap tx dropped same)), rfl⟩

theorem awaitRequest (alike : turn.Alike other) :
    Poll.Coupled Turn.Alike (turn.awaitRequest settings now) (other.awaitRequest settings now) := by
  have failed := alike.countHandshakeFailure
  obtain ⟨⟨⟨tx, dropped, same⟩⟩⟩ := alike
  exact .ite (fun _ => .next fun _ => failed.forceClose)
    fun _ => .done (.swap (.swap (.swap tx dropped same)))

theorem upgradeNoting (alike : turn.Alike other) :
    Poll.Coupled (Firsts Turn.Alike) (turn.upgradeNoting settings now)
      (other.upgradeNoting settings now) := by
  unfold Turn.upgradeNoting
  rw [alike.phase]
  cases turn.slot.client.phase with
  | upgrading socket =>
    obtain ⟨⟨⟨tx, dropped, same⟩⟩⟩ := alike
    refine .next fun data => .next fun fed => ?_
    obtain ⟨upgrade, rest⟩ := fed
    have fed : Turn.Alike { turn with slot := { turn.slot with upgrade } } _ :=
      .swap (.swap (.swap tx dropped same))
    cases rest with
    | some rest => exact fed.acceptNoting rest
    | none => exact fed.awaitRequest.bind fun ends => .done ⟨ends, rfl⟩
  | disconnected | connected | closing => exact .done ⟨alike, rfl⟩

theorem message (alike : turn.Alike other) (discreet : Discreet handler) (text : String) :
    Logged.Coupled Turn.Alike (turn.message handler text) (other.message handler text) := by
  obtain ⟨⟨clients⟩⟩ := alike
  refine (discreet clients text turn.context).bind ?_
  rintro ⟨client, context⟩ ⟨also, _⟩ ⟨⟨tx, dropped, same⟩, rfl⟩
  exact .next fun _ => .done (.swap (.swap (.swap tx dropped same)))

theorem perform (alike : turn.Alike other) (discreet : Discreet handler) (event : Event) :
    Logged.Coupled Turn.Alike (turn.perform handler socket event)
      (other.perform handler socket event) := by
  cases event with
  | text message => exact alike.message discreet message
  | ping payload => exact alike.queue _ _
  | close payload =>
    refine (alike.queue _ _).bind ?_
    rintro queued _ ⟨⟨⟨tx, dropped, same⟩⟩⟩
    exact .done (.swap (.swap (.swap tx dropped same)))
  | binary payload =>
    simp only [Turn.perform, alike.id]
    exact .next fun _ => .done alike
  | cutOff violation =>
    cases violation <;> simp only [Turn.perform, alike.id] <;> exact .next fun _ => .done alike
  | pong | accepted | refused | unanswered => exact .done alike

theorem readFramesNoting (alike : turn.Alike other) (discreet : Discreet handler)
    (received : List UInt8) :
    Logged.Coupled (Firsts (Seconds Turn.Alike))
      (turn.readFramesNoting handler socket now received)
      (other.readFramesNoting handler socket now received) := by
  -- The frames are the same for both, so the induction is on the bytes, for any two such turns.
  induction received using framesIn.induct generalizing turn other with
  | case1 received error bad =>
    rw [readFramesNoting_of_error bad, readFramesNoting_of_error bad]
    obtain ⟨⟨clients⟩⟩ := alike
    have kept : Turn.Alike { turn with slot := { turn.slot with received } } _ :=
      .swap (.swap clients)
    exact (kept.perform discreet _).bind fun ends => .done ⟨⟨rfl, ends⟩, rfl⟩
  | case2 received cut =>
    rw [readFramesNoting_of_partial cut, readFramesNoting_of_partial cut]
    obtain ⟨⟨clients⟩⟩ := alike
    exact .done ⟨⟨rfl, .swap (.swap clients)⟩, rfl⟩
  | @case3 received header whole rest ih =>
    rw [readFramesNoting_of_frame whole, readFramesNoting_of_frame whole]
    obtain ⟨⟨clients⟩⟩ := alike
    have kept : Turn.Alike
        { turn with slot := { turn.slot with received := rest, lastActive := now } } _ :=
      .swap (.swap clients)
    refine (kept.perform discreet _).bind ?_
    intro performed also ends
    dsimp only
    rcases (Event.ofFrame header (header.payload received)).goesOn with _ | _ | _
    · exact .done ⟨⟨rfl, ends⟩, rfl⟩
    · exact .done ⟨⟨rfl, ends⟩, rfl⟩
    · refine (ih ends).bind ?_
      rintro ⟨read, events⟩ ⟨others, _⟩ ⟨reads, rfl⟩
      exact .done ⟨reads, rfl⟩

theorem keepAlive (alike : turn.Alike other) :
    Logged.Coupled (Seconds Turn.Alike) (turn.keepAlive settings now)
      (other.keepAlive settings now) := by
  have queues := alike.queue .ping []
  obtain ⟨⟨⟨tx, dropped, same⟩⟩⟩ := alike
  have kept : Turn.Alike turn _ := .swap (.swap (.swap tx dropped same))
  refine .ite (fun _ => .next fun _ => .done ⟨rfl, kept⟩) fun _ => .ite (fun _ => ?_)
    fun _ => .done ⟨rfl, kept⟩
  refine queues.bind ?_
  rintro pinged _ ⟨⟨clients⟩⟩
  exact .done ⟨rfl, .swap (.swap clients)⟩

theorem upkeep (alike : turn.Alike other) (lawful : Bool) :
    Poll.Coupled Turn.Alike (turn.upkeep settings now lawful)
      (other.upkeep settings now lawful) := by
  unfold Turn.upkeep
  rw [alike.client.isConnected]
  refine .ite (fun _ => alike.forceClose) fun _ => .ite (fun _ => ?_) fun _ => .done alike
  refine (Poll.Coupled.lift alike.keepAlive).bind ?_
  rintro ⟨alive, kept⟩ ⟨_, also⟩ ⟨rfl, ends⟩
  exact .ite (fun _ => .done ends) fun _ => ends.forceClose

theorem receive (alike : turn.Alike other) : other.receive socket = turn.receive socket := by
  obtain ⟨⟨-⟩⟩ := alike
  rfl

theorem converseNoting (alike : turn.Alike other) (discreet : Discreet handler) :
    Poll.Coupled (Firsts Turn.Alike) (turn.converseNoting settings handler now)
      (other.converseNoting settings handler now) := by
  unfold Turn.converseNoting
  rw [alike.phase]
  cases turn.slot.client.phase with
  | connected socket =>
    dsimp only
    rw [alike.receive]
    refine .next fun received => ?_
    refine (Poll.Coupled.lift (alike.readFramesNoting discreet received)).bind ?_
    rintro ⟨⟨lawful, read⟩, events⟩ ⟨⟨_, also⟩, _⟩ ⟨⟨rfl, ends⟩, rfl⟩
    exact (ends.upkeep lawful).bind fun ends => .done ⟨ends, rfl⟩
  | disconnected | upgrading | closing => exact .done ⟨alike, rfl⟩

/-- Such turns send the same bytes, for they take them from the front of the same queue. -/
theorem transmit (alike : turn.Alike other) (chunks : Nat) :
    Poll.Coupled (Seconds Turn.Alike) (turn.transmit settings socket now chunks)
      (other.transmit settings socket now chunks) := by
  induction chunks generalizing turn other with
  | zero => exact .done ⟨rfl, alike⟩
  | succ chunks ih =>
    have idle := alike.withStall none
    unfold Turn.transmit
    rw [alike.stalledSince, alike.id, alike.length]
    refine .next fun free => .ite (fun _ => ?_) fun _ => ?_
    · have stalled := alike.withStall (some (turn.slot.stalledSince.getD now))
      exact .ite (fun _ => .next fun _ => .done ⟨rfl, stalled⟩) fun _ => .done ⟨rfl, stalled⟩
    · have heads := idle.peek (min (min settings.chunk maxTransmitChunk) free)
      dsimp only
      revert heads
      -- What is sent is also in the type of the answer, so it is made one variable for both.
      generalize (turn.withStall none).slot.client.tx.peek _ = data
      generalize (other.withStall none).slot.client.tx.peek _ = data
      rintro rfl
      refine .ite (fun _ => .done ⟨rfl, idle⟩) fun _ => .next fun taken => ?_
      have moved := idle.consume taken
      exact .ite (fun _ => .done ⟨rfl, moved⟩) fun _ => ih moved

theorem drain (alike : turn.Alike other) :
    Poll.Coupled Turn.Alike (turn.drain settings now) (other.drain settings now) := by
  have kept := alike.withStall none
  unfold Turn.drain
  rw [alike.phase, alike.isEmpty]
  cases turn.slot.client.phase with
  | connected socket | closing socket =>
    refine .ite (fun _ => .done kept) fun _ => (alike.transmit _).bind ?_
    rintro ⟨alive, ended⟩ ⟨_, also⟩ ⟨rfl, ends⟩
    exact .ite (fun _ => .done ends) fun _ => ends.forceClose
  | disconnected | upgrading => exact .done alike

theorem finish (alike : turn.Alike other) :
    Poll.Coupled Turn.Alike turn.finish other.finish := by
  have released := alike.release
  unfold Turn.finish
  rw [alike.phase, alike.isEmpty, alike.id]
  cases turn.slot.client.phase with
  | closing socket =>
    refine .ite (fun _ => ?_) fun _ => .done alike
    exact .next fun _ => .next fun _ => .done released
  | disconnected | upgrading | connected => exact .done alike

/-- A whole turn cannot tell such slots apart. -/
theorem serviceNoting (alike : turn.Alike other) (discreet : Discreet handler) :
    Poll.Coupled (Firsts Turn.Alike) (turn.serviceNoting settings handler now)
      (other.serviceNoting settings handler now) := by
  unfold Turn.serviceNoting
  rw [alike.phase]
  cases turn.slot.client.phase.socket with
  | none => exact .done ⟨alike, rfl⟩
  | some socket =>
    refine alike.checkPeer.bind fun present => present.upgradeNoting.bind ?_
    rintro ⟨upgraded, answer⟩ ⟨_, _⟩ ⟨upgrades, rfl⟩
    refine (upgrades.converseNoting discreet).bind ?_
    rintro ⟨conversed, events⟩ ⟨_, _⟩ ⟨converses, rfl⟩
    exact converses.drain.bind fun drained => drained.finish.bind fun ends => .done ⟨ends, rfl⟩

end Turn.Alike

end BoardNet.WebSocket
