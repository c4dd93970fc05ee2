import BoardNet.Proofs.Shift.Clock
import BoardNet.Proofs.WebSocket.Noting

namespace BoardNet.WebSocket

/-- The slot by a clock that is ahead by `span`. -/
def Slot.shift (span : Millis) (slot : Slot) : Slot :=
  { slot with
    since := slot.since + span
    lastActive := slot.lastActive + span
    lastPing := slot.lastPing + span
    stalledSince := slot.stalledSince.map (· + span) }

namespace Turn

variable {C : Type}

/-- The turn by a clock that is ahead by `span`. -/
def shift (span : Millis) (turn : Turn C) : Turn C := { turn with slot := turn.slot.shift span }

section Parts

variable {span now : Millis} {ahead turn : Turn C} {settings : Settings}
  {handler : MessageHandler C} {socket : SocketId}

theorem forceClose_ahead (same : ahead = turn.shift span) :
    ahead.forceClose = shift span <$> turn.forceClose := by
  subst same
  have phase : (turn.shift span).slot.client.phase = turn.slot.client.phase := rfl
  unfold forceClose
  rw [phase]
  cases turn.slot.client.phase.socket with
  | none => rfl
  | some socket => exact next_apart fun _ => rfl

theorem queue_ahead (same : ahead = turn.shift span) (opcode : Opcode) (payload : List UInt8) :
    ahead.queue opcode payload = shift span <$> turn.queue opcode payload := by
  subst same
  exact next_apart fun _ => rfl

theorem perform_ahead (same : ahead = turn.shift span) (event : Event) :
    ahead.perform handler socket event = shift span <$> turn.perform handler socket event := by
  subst same
  cases event with
  | text message => exact next_apart fun _ => next_apart fun _ => rfl
  | binary payload => exact next_apart fun _ => rfl
  | ping payload => exact queue_ahead rfl _ _
  | close payload => exact bind_apart (queue_ahead rfl _ _) fun _ => rfl
  | cutOff violation => cases violation <;> rfl
  | pong | accepted | refused | unanswered => rfl

theorem keepAlive_ahead (same : ahead = turn.shift span) :
    ahead.keepAlive settings (now + span) =
      Prod.map id (shift span) <$> turn.keepAlive settings now := by
  subst same
  have silent : elapsed (now + span) (turn.shift span).slot.lastActive =
      elapsed now turn.slot.lastActive := elapsed_shift ..
  have pinged : elapsed (now + span) (turn.shift span).slot.lastPing =
      elapsed now turn.slot.lastPing := elapsed_shift ..
  unfold keepAlive
  rw [silent, pinged]
  refine ite_apart Iff.rfl (next_apart fun _ => rfl) (ite_apart Iff.rfl ?_ rfl)
  exact bind_apart (queue_ahead rfl _ _) fun _ => rfl

theorem upkeep_ahead (same : ahead = turn.shift span) (lawful : Bool) :
    ahead.upkeep settings (now + span) lawful =
      shift span <$> turn.upkeep settings now lawful := by
  refine ite_apart Iff.rfl (forceClose_ahead same) (ite_apart ?_ ?_ ?_)
  · rw [same]
    rfl
  · refine bind_apart (lift_apart (keepAlive_ahead same)) fun kept => ?_
    obtain ⟨alive, kept⟩ := kept
    exact ite_apart Iff.rfl rfl (forceClose_ahead rfl)
  · rw [same]
    rfl

theorem accept_ahead (same : ahead = turn.shift span) (rest : List UInt8) :
    ahead.accept socket rest (now + span) = shift span <$> turn.accept socket rest now := by
  subst same
  have key : (turn.shift span).slot.upgrade.key = turn.slot.upgrade.key := rfl
  unfold accept
  dsimp only
  rw [key]
  cases turn.slot.upgrade.key with
  | none => exact next_apart fun _ => next_apart fun _ => rfl
  | some key =>
    refine next_apart fun taken => ite_apart Iff.rfl ?_ (next_apart fun _ => rfl)
    exact next_apart fun _ => forceClose_ahead (by rfl)

theorem awaitRequest_ahead (same : ahead = turn.shift span) :
    ahead.awaitRequest settings (now + span) = shift span <$> turn.awaitRequest settings now := by
  subst same
  refine ite_apart ?_ (next_apart fun _ => forceClose_ahead (by rfl)) rfl
  have waited : elapsed (now + span) (turn.shift span).slot.since = elapsed now turn.slot.since :=
    elapsed_shift ..
  rw [waited]

theorem transmit_ahead (same : ahead = turn.shift span) (chunks : Nat) :
    ahead.transmit settings socket (now + span) chunks =
      Prod.map id (shift span) <$> turn.transmit settings socket now chunks := by
  subst same
  induction chunks generalizing turn with
  | zero => rfl
  | succ chunks ih =>
    refine next_apart fun free => ite_apart Iff.rfl ?_ ?_
    · have began : (turn.shift span).slot.stalledSince.getD (now + span) =
          turn.slot.stalledSince.getD now + span := by
        unfold shift Slot.shift
        cases turn.slot.stalledSince <;> rfl
      dsimp only
      rw [began]
      refine ite_apart ?_ (next_apart fun _ => rfl) rfl
      rw [elapsed_shift]
    · refine ite_apart Iff.rfl rfl (next_apart fun taken => ite_apart Iff.rfl rfl ?_)
      exact @ih (withClient (turn.withStall none) _)

end Parts

variable (span : Millis) (turn : Turn C) (now : Millis) (settings : Settings)
  (handler : MessageHandler C) (socket : SocketId)

theorem checkPeer_shift :
    (turn.shift span).checkPeer socket = shift span <$> turn.checkPeer socket := by
  refine next_apart fun status => next_apart fun gone => ite_apart Iff.rfl ?_ rfl
  exact next_apart fun _ => ite_apart Iff.rfl (next_apart fun _ => rfl) rfl

theorem readFrames_shift (received : List UInt8) :
    (turn.shift span).readFrames handler socket (now + span) received =
      Prod.map id (shift span) <$> turn.readFrames handler socket now received := by
  induction received using framesIn.induct generalizing turn with
  | case1 received error bad =>
    rw [readFrames_of_error bad, readFrames_of_error bad]
    exact bind_apart (perform_ahead (by rfl) _) fun _ => rfl
  | case2 received cut =>
    rw [readFrames_of_partial cut, readFrames_of_partial cut]
    rfl
  | case3 received header whole rest ih =>
    rw [readFrames_of_frame whole, readFrames_of_frame whole]
    refine bind_apart (perform_ahead (by rfl) _) fun performed => ?_
    cases (Event.ofFrame header (header.payload received)).goesOn with
    | none => rfl
    | some more =>
      cases more with
      | false => rfl
      | true => exact ih performed

theorem upgrade_shift :
    (turn.shift span).upgrade settings (now + span) = shift span <$> turn.upgrade settings now := by
  have phase : (turn.shift span).slot.client.phase = turn.slot.client.phase := rfl
  unfold upgrade
  rw [phase]
  cases turn.slot.client.phase with
  | upgrading socket =>
    refine next_apart fun data => next_apart fun fed => ?_
    obtain ⟨upgrade, rest⟩ := fed
    cases rest with
    | none => exact awaitRequest_ahead (by rfl)
    | some rest => exact accept_ahead (by rfl) rest
  | disconnected | connected | closing => rfl

theorem converse_shift :
    (turn.shift span).converse settings handler (now + span) =
      shift span <$> turn.converse settings handler now := by
  have phase : (turn.shift span).slot.client.phase = turn.slot.client.phase := rfl
  unfold converse
  rw [phase]
  cases turn.slot.client.phase with
  | connected socket =>
    refine next_apart fun received => bind_apart (lift_apart (readFrames_shift ..)) ?_
    exact fun read => upkeep_ahead rfl read.1
  | disconnected | upgrading | closing => rfl

theorem drain_shift :
    (turn.shift span).drain settings (now + span) = shift span <$> turn.drain settings now := by
  have phase : (turn.shift span).slot.client.phase = turn.slot.client.phase := rfl
  unfold drain
  rw [phase]
  cases turn.slot.client.phase with
  | connected socket | closing socket =>
    refine ite_apart Iff.rfl rfl (bind_apart (transmit_ahead rfl _) fun sent => ?_)
    obtain ⟨alive, sent⟩ := sent
    exact ite_apart Iff.rfl rfl (forceClose_ahead rfl)
  | disconnected | upgrading => rfl

theorem finish_shift : (turn.shift span).finish = shift span <$> turn.finish := by
  have phase : (turn.shift span).slot.client.phase = turn.slot.client.phase := rfl
  unfold finish
  rw [phase]
  cases turn.slot.client.phase with
  | closing socket =>
    exact ite_apart Iff.rfl (next_apart fun _ => next_apart fun _ => rfl) rfl
  | disconnected | upgrading | connected => rfl

theorem service_shift :
    (turn.shift span).service settings handler (now + span) =
      shift span <$> turn.service settings handler now := by
  have phase : (turn.shift span).slot.client.phase = turn.slot.client.phase := rfl
  unfold service
  rw [phase]
  cases turn.slot.client.phase.socket with
  | none => rfl
  | some socket =>
    refine bind_apart (checkPeer_shift ..) fun present => ?_
    refine bind_apart (upgrade_shift ..) fun upgraded => ?_
    refine bind_apart (converse_shift ..) fun conversed => ?_
    exact bind_apart (drain_shift ..) fun drained => finish_shift ..

end Turn

namespace Server

variable {C : Type}

/-- The server by a clock that is ahead by `span`. -/
def shift (span : Millis) (server : Server) : Server :=
  { server with slots := server.slots.map (Slot.shift span) }

variable (span : Millis) (server : Server) (now : Millis) (handler : MessageHandler C) (context : C)

@[simp] theorem get_shift (id : Fin maxClients) :
    (server.shift span).slots.get id = (server.slots.get id).shift span :=
  Vector.getElem_map (Slot.shift span) id.isLt

@[simp] theorem client_shift (id : Fin maxClients) :
    (server.shift span).client id = server.client id := by
  rw [client, get_shift]
  rfl

/-- Replacing a slot, and the counters with it. -/
theorem setSlot_ahead {later slot : Slot} (same : later = slot.shift span) (id : Fin maxClients)
    (stats : Stats) :
    { (server.shift span).setSlot id later with stats } =
      shift span { server.setSlot id slot with stats } := by
  simp [setSlot, shift, same]

@[simp] theorem holds_shift (socket : SocketId) :
    (server.shift span).holds socket = server.holds socket := by
  simp only [holds, client_shift]

@[simp] theorem vacant?_shift : (server.shift span).vacant? = server.vacant? := by
  simp only [vacant?, client_shift]

theorem welcome_shift (socket : SocketId) :
    (server.shift span).welcome socket (now + span) = shift span <$> server.welcome socket now := by
  refine next_apart fun remote => ?_
  rw [vacant?_shift]
  cases server.vacant? with
  | none => exact next_apart fun _ => next_apart fun _ => rfl
  | some id =>
    refine next_apart fun _ => ?_
    rw [get_shift]
    exact congrArg pure (setSlot_ahead span server (by rfl) id _)

theorem admitAll_shift (most : Nat) :
    (server.shift span).admitAll (now + span) most =
      Prod.map id (shift span) <$> server.admitAll now most := by
  induction most generalizing server with
  | zero => rfl
  | succ most ih =>
    unfold admitAll
    simp only [holds_shift]
    refine next_apart fun found => ?_
    cases found with
    | none => rfl
    | some socket =>
      exact bind_apart (welcome_shift ..) fun admitted => bind_apart (ih admitted) fun _ => rfl

theorem relisten_shift : (server.shift span).relisten = shift span <$> server.relisten := by
  refine next_apart fun listening => ite_apart Iff.rfl rfl (next_apart fun answer => ?_)
  cases answer with
  | ok => rfl
  | error error => exact next_apart fun _ => rfl

theorem accept_shift :
    (server.shift span).accept (now + span) = shift span <$> server.accept now := by
  refine bind_apart (admitAll_shift ..) fun admitted => ?_
  obtain ⟨any, server⟩ := admitted
  exact ite_apart Iff.rfl (relisten_shift ..) rfl

theorem serviceAll_shift (ids : List (Fin maxClients)) :
    serviceAll handler (now + span) ids (server.shift span) context =
      Prod.map (shift span) id <$> serviceAll handler now ids server context := by
  induction ids generalizing server context with
  | nil => rfl
  | cons id ids ih =>
    rw [serviceAll, get_shift]
    let turn : Turn C := ⟨server.slots.get id, server.stats, context⟩
    refine bind_apart (turn.service_shift span now _ _) fun ended => ?_
    have serviced := @setSlot_ahead span server _ ended.slot rfl id ended.stats
    exact (congrArg (serviceAll handler (now + span) ids · _) serviced).trans (ih _ _)

theorem dropAll_shift (reason : String) (ids : List (Fin maxClients)) :
    dropAll reason ids (server.shift span) = shift span <$> dropAll reason ids server := by
  induction ids generalizing server with
  | nil => rfl
  | cons id ids ih =>
    rw [dropAll, client_shift, get_shift]
    refine ite_apart Iff.rfl (ih server) (next_apart fun _ => ?_)
    let turn : Turn Unit := ⟨server.slots.get id, server.stats, ()⟩
    refine bind_apart (@Turn.forceClose_ahead Unit span _ turn rfl) fun ended => ?_
    have dropped := @setSlot_ahead span server _ ended.slot rfl id ended.stats
    exact (congrArg (dropAll reason ids) dropped).trans (ih _)

theorem update_shift (network : Link.Status) :
    (server.shift span).update handler network context (now + span) =
      Prod.map (shift span) id <$> server.update handler network context now := by
  refine next_apart fun link => ite_apart Iff.rfl ?_ (ite_apart Iff.rfl ?_ ?_)
  · exact bind_apart (dropAll_shift ..) fun _ => rfl
  · exact bind_apart (dropAll_shift ..) fun _ => rfl
  · exact bind_apart (accept_shift ..) fun accepted => serviceAll_shift ..

end Server

end BoardNet.WebSocket
