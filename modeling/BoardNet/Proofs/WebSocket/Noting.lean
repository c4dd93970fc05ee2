import BoardNet.Proofs.WebSocket.Reading
import BoardNet.WebSocket.Server

/-!
Updates that note the events they act on, each where it is acted on. What they do besides is what
the updates without notes do.
-/

namespace BoardNet

namespace WebSocket

namespace Turn

variable {C : Type}

/-- What the server does on an event. Those of the upgrade are behind it when frames are read. -/
def perform (turn : Turn C) (handler : MessageHandler C) (socket : SocketId) :
    Event → Logged (Turn C)
  | .text message => turn.message handler message
  | .binary payload => do
    .note .debug
      s!"ws: client {turn.slot.client.id.val} binary message ignored ({payload.length} bytes)"
    return turn
  | .ping payload => turn.queue .pong payload
  | .close payload => do
    let queued ← turn.queue .close (payload.take 2)
    return queued.withClient { queued.slot.client with phase := .closing socket }
  | .cutOff violation => do
    match violation with
    | .badFrame error =>
      .note .warn s!"ws: client {turn.slot.client.id.val} sent a bad frame: {error.message}"
    | .fragmented =>
      .note .warn s!"ws: client {turn.slot.client.id.val} sent a fragmented message"
    | .invalidText => .note .warn s!"ws: client {turn.slot.client.id.val} sent invalid UTF-8"
    | .opcode bits =>
      .note .warn s!"ws: client {turn.slot.client.id.val} sent opcode {Text.hexNibble bits}"
    return turn
  | .pong _ | .accepted _ | .refused | .unanswered _ => return turn

/-- A frame is acted on by what it says. -/
theorem act_eq_perform (turn : Turn C) (handler : MessageHandler C) (socket : SocketId)
    (header : FrameHeader) (payload : List UInt8) :
    turn.act handler socket header payload =
      (Prod.mk (Event.ofFrame header payload).goesOn <$>
        turn.perform handler socket (Event.ofFrame header payload)) := by
  unfold act Event.ofFrame
  cases header.fin with
  | false => rfl
  | true =>
    simp only [Bool.not_true, Bool.false_eq_true, if_false]
    rcases Opcode.ofBits? header.opcode with _ | _ | _ | _ | _ | _ | _
    · rfl
    · rfl
    · cases Text.ofBytes? payload <;> rfl
    · rfl
    · simp only [perform, map_bind, map_pure]
      rfl
    · rfl
    · rfl

def readFramesNoting (turn : Turn C) (handler : MessageHandler C) (socket : SocketId)
    (now : Millis) (received : List UInt8) : Logged ((Bool × Turn C) × List Event) := do
  match _read : FrameHeader.parse received receiveCapacity with
  | .error error =>
    let event := Event.cutOff (.badFrame error)
    let turn := { turn with slot := { turn.slot with received } }
    let turn ← turn.perform handler socket event
    return ((false, turn), [event])
  | .ok none => return ((true, { turn with slot := { turn.slot with received } }), [])
  | .ok (some header) =>
    let event := Event.ofFrame header (header.payload received)
    let rest := received.drop header.frameLength
    let turn := { turn with slot := { turn.slot with received := rest, lastActive := now } }
    let turn ← turn.perform handler socket event
    match event.goesOn with
    | none => return ((false, turn), [event])
    | some false => return ((true, turn), [event])
    | some true =>
      let (read, events) ← turn.readFramesNoting handler socket now rest
      return (read, event :: events)
termination_by received.length
decreasing_by
  have bounds := FrameHeader.frameLength_bounds _read
  simp only [List.length_drop]
  omega

section Frames

variable {turn : Turn C} {handler : MessageHandler C} {socket : SocketId} {now : Millis}
  {received : List UInt8}

theorem readFrames_of_error {error : FrameError}
    (bad : FrameHeader.parse received receiveCapacity = .error error) :
    turn.readFrames handler socket now received =
      Prod.mk false <$> perform { turn with slot := { turn.slot with received } } handler socket
        (.cutOff (.badFrame error)) := by
  rw [readFrames]
  split <;> rename_i read <;> rw [bad] at read <;> cases read
  rfl

theorem readFrames_of_partial (cut : FrameHeader.parse received receiveCapacity = .ok none) :
    turn.readFrames handler socket now received =
      return (true, { turn with slot := { turn.slot with received } }) := by
  rw [readFrames]
  split <;> rename_i read <;> rw [cut] at read <;> cases read

theorem readFrames_of_frame {header : FrameHeader}
    (whole : FrameHeader.parse received receiveCapacity = .ok (some header)) :
    turn.readFrames handler socket now received = (do
      let event := Event.ofFrame header (header.payload received)
      let rest := received.drop header.frameLength
      let turn := { turn with slot := { turn.slot with received := rest, lastActive := now } }
      let turn ← turn.perform handler socket event
      match event.goesOn with
      | none => return (false, turn)
      | some false => return (true, turn)
      | some true => turn.readFrames handler socket now rest) := by
  rw [readFrames]
  split <;> rename_i read <;> rw [whole] at read <;> cases read
  have acts := act_eq_perform { turn with slot := { turn.slot with
    received := received.drop header.frameLength, lastActive := now } } handler socket header
      (header.payload received)
  exact (congrArg (· >>= _) acts).trans (bind_map_left ..)

theorem readFramesNoting_of_error {error : FrameError}
    (bad : FrameHeader.parse received receiveCapacity = .error error) :
    turn.readFramesNoting handler socket now received = do
      let event := Event.cutOff (.badFrame error)
      let turn := { turn with slot := { turn.slot with received } }
      let turn ← turn.perform handler socket event
      return ((false, turn), [event]) := by
  rw [readFramesNoting]
  split <;> rename_i read <;> rw [bad] at read <;> cases read
  rfl

theorem readFramesNoting_of_partial
    (cut : FrameHeader.parse received receiveCapacity = .ok none) :
    turn.readFramesNoting handler socket now received =
      return ((true, { turn with slot := { turn.slot with received } }), []) := by
  rw [readFramesNoting]
  split <;> rename_i read <;> rw [cut] at read <;> cases read

theorem readFramesNoting_of_frame {header : FrameHeader}
    (whole : FrameHeader.parse received receiveCapacity = .ok (some header)) :
    turn.readFramesNoting handler socket now received = do
      let event := Event.ofFrame header (header.payload received)
      let rest := received.drop header.frameLength
      let turn := { turn with slot := { turn.slot with received := rest, lastActive := now } }
      let turn ← turn.perform handler socket event
      match event.goesOn with
      | none => return ((false, turn), [event])
      | some false => return ((true, turn), [event])
      | some true =>
        let (read, events) ← turn.readFramesNoting handler socket now rest
        return (read, event :: events) := by
  rw [readFramesNoting]
  split <;> rename_i read <;> rw [whole] at read <;> cases read
  rfl

end Frames

theorem fst_readFramesNoting (turn : Turn C) (handler : MessageHandler C) (socket : SocketId)
    (now : Millis) (received : List UInt8) :
    Prod.fst <$> turn.readFramesNoting handler socket now received =
      turn.readFrames handler socket now received := by
  induction received using framesIn.induct generalizing turn with
  | case1 received error bad =>
    rw [readFramesNoting_of_error bad, readFrames_of_error bad]
    rfl
  | case2 received cut =>
    rw [readFramesNoting_of_partial cut, readFrames_of_partial cut]
    rfl
  | case3 received header whole rest ih =>
    rw [readFramesNoting_of_frame whole, readFrames_of_frame whole]
    simp only [map_bind]
    apply bind_congr
    intro performed
    rcases (Event.ofFrame header (header.payload received)).goesOn with _ | _ | _
    · rfl
    · rfl
    · simpa only [map_eq_pure_bind, bind_assoc, pure_bind] using ih performed

/-- No more is acted on than frames have space in the received bytes with their least header, and
what ends the connection. -/
theorem length_events_readFramesNoting_le (turn : Turn C) (handler : MessageHandler C)
    (socket : SocketId) (now : Millis) (received : List UInt8) :
    (turn.readFramesNoting handler socket now received).value.2.length ≤
      received.length / 6 + 1 := by
  induction received using framesIn.induct generalizing turn with
  | case1 received error bad =>
    rw [readFramesNoting_of_error bad]
    exact Nat.le_add_left 1 _
  | case2 received cut =>
    rw [readFramesNoting_of_partial cut]
    exact Nat.zero_le _
  | case3 received header whole rest ih =>
    obtain ⟨least, within⟩ := FrameHeader.frameLength_bounds whole
    have taken : rest.length + 6 ≤ received.length := by
      simp only [rest, List.length_drop]
      omega
    rw [readFramesNoting_of_frame whole]
    generalize Event.ofFrame header (header.payload received) = event
    dsimp only [Logged.value_bind]
    generalize (perform _ handler socket event).value = performed
    rcases event.goesOn with _ | _ | _
    · exact Nat.le_add_left 1 _
    · exact Nat.le_add_left 1 _
    · have further := ih performed
      exact Nat.le_trans (Nat.succ_le_succ further) (by omega)

def acceptNoting (turn : Turn C) (socket : SocketId) (rest : List UInt8) (now : Millis) :
    Poll (Turn C × List Event) := do
  let ended ← turn.accept socket rest now
  match turn.slot.upgrade.key with
  | none => return (ended, [.refused])
  | some key =>
    return (ended, [if ended.slot.client.isConnected then .accepted key else .unanswered key])

theorem fst_acceptNoting (turn : Turn C) (socket : SocketId) (rest : List UInt8) (now : Millis) :
    Prod.fst <$> turn.acceptNoting socket rest now = turn.accept socket rest now := by
  unfold acceptNoting
  cases turn.slot.upgrade.key with
  | none => simp only [map_bind, map_pure, bind_pure]
  | some key => simp only [map_bind, map_pure, bind_pure]

def upgradeNoting (turn : Turn C) (settings : Settings) (now : Millis) :
    Poll (Turn C × List Event) := do
  match turn.slot.client.phase with
  | .upgrading socket =>
    let data ← arrivals socket receiveCapacity
    let (upgrade, rest) ← turn.slot.upgrade.feedAll data
    let turn := { turn with slot := { turn.slot with upgrade } }
    match rest with
    | some rest => turn.acceptNoting socket rest now
    | none => return (← turn.awaitRequest settings now, [])
  | _ => return (turn, [])

theorem fst_upgradeNoting (turn : Turn C) (settings : Settings) (now : Millis) :
    Prod.fst <$> turn.upgradeNoting settings now = turn.upgrade settings now := by
  unfold upgradeNoting upgrade
  cases turn.slot.client.phase with
  | upgrading socket =>
    simp only [map_bind]
    apply bind_congr
    intro data
    apply bind_congr
    intro fed
    cases fed.2 with
    | none => simp only [map_bind, map_pure, bind_pure]
    | some rest => exact fst_acceptNoting ..
  | disconnected | connected | closing => rfl

def converseNoting (turn : Turn C) (settings : Settings) (handler : MessageHandler C)
    (now : Millis) : Poll (Turn C × List Event) := do
  match turn.slot.client.phase with
  | .connected socket =>
    let received ← turn.receive socket
    let ((lawful, turn), events) ← turn.readFramesNoting handler socket now received
    return (← turn.upkeep settings now lawful, events)
  | _ => return (turn, [])

theorem fst_converseNoting (turn : Turn C) (settings : Settings) (handler : MessageHandler C)
    (now : Millis) :
    Prod.fst <$> turn.converseNoting settings handler now =
      turn.converse settings handler now := by
  unfold converseNoting converse
  cases turn.slot.client.phase with
  | connected socket =>
    simp only [map_bind, map_pure, bind_pure, ← fst_readFramesNoting, Poll.liftM_map,
      bind_map_left]
  | disconnected | upgrading | closing => rfl

def serviceNoting (turn : Turn C) (settings : Settings) (handler : MessageHandler C)
    (now : Millis) : Poll (Turn C × List Event) := do
  match turn.slot.client.phase.socket with
  | none => return (turn, [])
  | some socket =>
    let present ← turn.checkPeer socket
    let (upgraded, answer) ← present.upgradeNoting settings now
    let (conversed, events) ← upgraded.converseNoting settings handler now
    let drained ← conversed.drain settings now
    return (← drained.finish, answer ++ events)

theorem fst_serviceNoting (turn : Turn C) (settings : Settings) (handler : MessageHandler C)
    (now : Millis) :
    Prod.fst <$> turn.serviceNoting settings handler now =
      turn.service settings handler now := by
  unfold serviceNoting service
  cases turn.slot.client.phase.socket with
  | none => rfl
  | some socket =>
    simp only [map_bind, map_pure, ← fst_upgradeNoting, ← fst_converseNoting, bind_map_left,
      bind_pure]

end Turn

/-- Events with the client that each came from. -/
abbrev Notes := List (Fin maxClients × Event)

def Notes.of (notes : Notes) (id : Fin maxClients) : List Event :=
  (notes.filter (·.1 = id)).map Prod.snd

def Notes.from (id : Fin maxClients) (events : List Event) : Notes := events.map (Prod.mk id)

namespace Notes

@[simp] theorem of_append (notes later : Notes) (id : Fin maxClients) :
    of (notes ++ later) id = notes.of id ++ later.of id := by
  simp [of]

@[simp] theorem of_from (id : Fin maxClients) (events : List Event) :
    (Notes.from id events).of id = events := by
  simp [of, Notes.from, List.filter_map, Function.comp_def]

theorem of_from_other {id other : Fin maxClients} (events : List Event) (different : id ≠ other) :
    (Notes.from id events).of other = [] := by
  simp [of, Notes.from, List.filter_map, Function.comp_def, different]

end Notes

namespace Server

variable {C : Type}

def serviceAllNoting (handler : MessageHandler C) (now : Millis) :
    List (Fin maxClients) → Server → C → Poll ((Server × C) × Notes)
  | [], server, context => return ((server, context), [])
  | id :: ids, server, context => do
    let turn : Turn C := ⟨server.slots.get id, server.stats, context⟩
    let (ended, events) ← turn.serviceNoting server.settings handler now
    let serviced := { server.setSlot id ended.slot with stats := ended.stats }
    let (result, notes) ← serviceAllNoting handler now ids serviced ended.context
    return (result, .from id events ++ notes)

theorem fst_serviceAllNoting (handler : MessageHandler C) (now : Millis)
    (ids : List (Fin maxClients)) (server : Server) (context : C) :
    Prod.fst <$> serviceAllNoting handler now ids server context =
      serviceAll handler now ids server context := by
  induction ids generalizing server context with
  | nil => rfl
  | cons id ids ih =>
    rw [serviceAll, serviceAllNoting]
    simp only [← Turn.fst_serviceNoting, ← ih, map_eq_pure_bind, bind_assoc, pure_bind]

variable {server : Server} {handler : MessageHandler C} {network : Link.Status} {context : C}
  {now : Millis}

/-- One step of the server, by what is made of the clients once those that can be were admitted, or
once all were dropped. -/
def updateBy {α : Type} (server : Server) (network : Link.Status) (now : Millis)
    (lose : Server → α) (serve : Server → Poll α) : Poll α := do
  let link ← Nic.linkStatus
  if link ≠ .on then return lose (← dropAll "link lost" (List.finRange maxClients) server)
  else if !network.ready then
    return lose (← dropAll "network not ready" (List.finRange maxClients) server)
  else serve (← server.accept now)

theorem map_updateBy {α β : Type} (change : α → β) (lose : Server → α) (serve : Server → Poll α) :
    change <$> server.updateBy network now lose serve =
      server.updateBy network now (change ∘ lose) fun admitted => change <$> serve admitted := by
  unfold updateBy
  rw [map_bind]
  apply bind_congr
  intro link
  by_cases on : link ≠ .on
  · simp only [if_pos on, map_bind, map_pure, Function.comp_apply]
  · rw [if_neg on, if_neg on]
    cases network.ready with
    | false => simp only [Bool.not_false, if_true, map_bind, map_pure, Function.comp_apply]
    | true => simp only [Bool.not_true, Bool.false_eq_true, if_false, map_bind]

theorem update_eq_updateBy : server.update handler network context now =
    server.updateBy network now (·, context) fun admitted =>
      serviceAll handler now (List.finRange maxClients) admitted context := rfl

def updateNoting (server : Server) (handler : MessageHandler C) (network : Link.Status)
    (context : C) (now : Millis) : Poll ((Server × C) × Notes) := do
  let link ← Nic.linkStatus
  if link ≠ .on then
    return ((← dropAll "link lost" (List.finRange maxClients) server, context), [])
  else if !network.ready then
    return ((← dropAll "network not ready" (List.finRange maxClients) server, context), [])
  else
    let server ← server.accept now
    serviceAllNoting handler now (List.finRange maxClients) server context

theorem updateNoting_eq_updateBy : server.updateNoting handler network context now =
    server.updateBy network now (fun dropped => ((dropped, context), [])) fun admitted =>
      serviceAllNoting handler now (List.finRange maxClients) admitted context := rfl

theorem fst_updateNoting : Prod.fst <$> server.updateNoting handler network context now =
    server.update handler network context now := by
  rw [updateNoting_eq_updateBy, map_updateBy, update_eq_updateBy]
  simp only [fst_serviceAllNoting]
  rfl

end Server

end WebSocket

end BoardNet
