import BoardNet.Proofs.WebSocket.Use

namespace BoardNet.WebSocket

variable {C : Type}

/-- What an application does with a client that sends it a message. -/
abbrev Script (C : Type) := Client → String → C → List Use

/-- On a message, an application does with the client what a script says, and nothing else. -/
def MessageHandler.Plays (handler : MessageHandler C) (script : Script C) : Prop :=
  ∀ client text context, (handler client text context).value.1 =
    (client.useAll (script client text context)).2

theorem MessageHandler.Plays.keepsPhase {handler : MessageHandler C} {script : Script C}
    (plays : handler.Plays script) : handler.KeepsPhase := by
  intro client text context
  rw [plays client text context]
  exact client.phase_useAll _

namespace Turn

/-- Queues a frame of the server's own, and tells of it if it was queued. -/
def queueTelling (turn : Turn C) (opcode : Opcode) (payload : List UInt8) :
    Logged (Turn C × List ServerFrame) := do
  let (queued, client) ← turn.slot.client.queueFrame opcode payload
  return (turn.withClient client, if queued then [⟨opcode, payload⟩] else [])

theorem fst_queueTelling (turn : Turn C) (opcode : Opcode) (payload : List UInt8) :
    Prod.fst <$> turn.queueTelling opcode payload = turn.queue opcode payload := by
  simp only [queueTelling, queue, map_bind, map_pure]

def performTelling (turn : Turn C) (handler : MessageHandler C) (script : Script C)
    (socket : SocketId) : Event → Logged (Turn C × List ServerFrame)
  | .text message => do
    let client := turn.slot.client
    return (← turn.message handler message,
      (client.useAll (script client message turn.context)).1)
  | .ping payload => turn.queueTelling .pong payload
  | .close payload => do
    let (queued, frames) ← turn.queueTelling .close (payload.take 2)
    return (queued.withClient { queued.slot.client with phase := .closing socket }, frames)
  | event => return (← turn.perform handler socket event, [])

theorem fst_performTelling (turn : Turn C) (handler : MessageHandler C) (script : Script C)
    (socket : SocketId) (event : Event) :
    Prod.fst <$> turn.performTelling handler script socket event =
      turn.perform handler socket event := by
  cases event with
  | text message => simp only [performTelling, perform, map_bind, map_pure, bind_pure]
  | ping payload => exact turn.fst_queueTelling .pong payload
  | close payload =>
    simp only [performTelling, perform, ← fst_queueTelling, bind_map_left, map_bind, map_pure]
  | binary | pong | cutOff | accepted | refused | unanswered =>
    simp only [performTelling, map_bind, map_pure, bind_pure]

def readFramesTelling (turn : Turn C) (handler : MessageHandler C) (script : Script C)
    (socket : SocketId) (now : Millis) (received : List UInt8) :
    Logged ((Bool × Turn C) × List ServerFrame) := do
  match _read : FrameHeader.parse received receiveCapacity with
  | .error error =>
    let turn := { turn with slot := { turn.slot with received } }
    return ((false, ← turn.perform handler socket (.cutOff (.badFrame error))), [])
  | .ok none => return ((true, { turn with slot := { turn.slot with received } }), [])
  | .ok (some header) =>
    let event := Event.ofFrame header (header.payload received)
    let rest := received.drop header.frameLength
    let turn := { turn with slot := { turn.slot with received := rest, lastActive := now } }
    let (turn, frames) ← turn.performTelling handler script socket event
    match event.goesOn with
    | none => return ((false, turn), frames)
    | some false => return ((true, turn), frames)
    | some true =>
      let (read, further) ← turn.readFramesTelling handler script socket now rest
      return (read, frames ++ further)
termination_by received.length
decreasing_by
  have bounds := FrameHeader.frameLength_bounds _read
  simp only [List.length_drop]
  omega

section Frames

variable {turn : Turn C} {handler : MessageHandler C} {script : Script C} {socket : SocketId}
  {now : Millis} {received : List UInt8}

theorem readFramesTelling_of_error {error : FrameError}
    (bad : FrameHeader.parse received receiveCapacity = .error error) :
    turn.readFramesTelling handler script socket now received = do
      let turn := { turn with slot := { turn.slot with received } }
      return ((false, ← turn.perform handler socket (.cutOff (.badFrame error))), []) := by
  rw [readFramesTelling]
  split <;> rename_i read <;> rw [bad] at read <;> cases read
  rfl

theorem readFramesTelling_of_partial
    (cut : FrameHeader.parse received receiveCapacity = .ok none) :
    turn.readFramesTelling handler script socket now received =
      return ((true, { turn with slot := { turn.slot with received } }), []) := by
  rw [readFramesTelling]
  split <;> rename_i read <;> rw [cut] at read <;> cases read

theorem readFramesTelling_of_frame {header : FrameHeader}
    (whole : FrameHeader.parse received receiveCapacity = .ok (some header)) :
    turn.readFramesTelling handler script socket now received = do
      let event := Event.ofFrame header (header.payload received)
      let rest := received.drop header.frameLength
      let turn := { turn with slot := { turn.slot with received := rest, lastActive := now } }
      let (turn, frames) ← turn.performTelling handler script socket event
      match event.goesOn with
      | none => return ((false, turn), frames)
      | some false => return ((true, turn), frames)
      | some true =>
        let (read, further) ← turn.readFramesTelling handler script socket now rest
        return (read, frames ++ further) := by
  rw [readFramesTelling]
  split <;> rename_i read <;> rw [whole] at read <;> cases read
  rfl

end Frames

theorem fst_readFramesTelling (turn : Turn C) (handler : MessageHandler C) (script : Script C)
    (socket : SocketId) (now : Millis) (received : List UInt8) :
    Prod.fst <$> turn.readFramesTelling handler script socket now received =
      turn.readFrames handler socket now received := by
  induction received using framesIn.induct generalizing turn with
  | case1 received error bad =>
    rw [readFramesTelling_of_error bad, readFrames_of_error bad]
    simp only [map_eq_pure_bind, bind_assoc, pure_bind]
  | case2 received cut =>
    rw [readFramesTelling_of_partial cut, readFrames_of_partial cut]
    rfl
  | case3 received header whole rest ih =>
    rw [readFramesTelling_of_frame whole, readFrames_of_frame whole]
    simp only [map_bind, ← fst_performTelling _ handler script, bind_map_left]
    apply bind_congr
    intro performed
    rcases (Event.ofFrame header (header.payload received)).goesOn with _ | _ | _
    · rfl
    · rfl
    · simpa only [map_eq_pure_bind, bind_assoc, pure_bind] using ih performed.1

def keepAliveTelling (turn : Turn C) (settings : Settings) (now : Millis) :
    Logged ((Bool × Turn C) × List ServerFrame) := do
  let silent := elapsed now turn.slot.lastActive
  if silent > settings.idleTimeout then
    .note .warn s!"ws: client {turn.slot.client.id.val} silent for {silent.toNat} ms"
    return ((false, turn), [])
  else if elapsed now turn.slot.lastPing > settings.pingInterval then
    let (pinged, frames) ← turn.queueTelling .ping []
    return ((true, { pinged with slot := { pinged.slot with lastPing := now } }), frames)
  else return ((true, turn), [])

theorem fst_keepAliveTelling (turn : Turn C) (settings : Settings) (now : Millis) :
    Prod.fst <$> turn.keepAliveTelling settings now = turn.keepAlive settings now := by
  unfold keepAliveTelling keepAlive
  dsimp only
  split
  · rfl
  · split
    · simp only [← fst_queueTelling, bind_map_left, map_bind, map_pure]
    · rfl

def upkeepTelling (turn : Turn C) (settings : Settings) (now : Millis) (lawful : Bool) :
    Poll (Turn C × List ServerFrame) := do
  if !lawful then return (← turn.forceClose, [])
  else if turn.slot.client.isConnected then
    let ((alive, turn), frames) ← turn.keepAliveTelling settings now
    if alive then return (turn, frames) else return (← turn.forceClose, frames)
  else return (turn, [])

theorem fst_upkeepTelling (turn : Turn C) (settings : Settings) (now : Millis) (lawful : Bool) :
    Prod.fst <$> turn.upkeepTelling settings now lawful = turn.upkeep settings now lawful := by
  unfold upkeepTelling upkeep
  split
  · simp only [map_bind, map_pure, bind_pure]
  · split
    · simp only [← fst_keepAliveTelling, Poll.liftM_map, bind_map_left, map_bind]
      apply bind_congr
      intro kept
      split
      · rfl
      · simp only [map_bind, map_pure, bind_pure]
    · rfl

def converseTelling (turn : Turn C) (settings : Settings) (handler : MessageHandler C)
    (script : Script C) (now : Millis) : Poll (Turn C × List ServerFrame) := do
  match turn.slot.client.phase with
  | .connected socket =>
    let received ← turn.receive socket
    let ((lawful, turn), frames) ← turn.readFramesTelling handler script socket now received
    let (turn, pings) ← turn.upkeepTelling settings now lawful
    return (turn, frames ++ pings)
  | _ => return (turn, [])

theorem fst_converseTelling (turn : Turn C) (settings : Settings) (handler : MessageHandler C)
    (script : Script C) (now : Millis) :
    Prod.fst <$> turn.converseTelling settings handler script now =
      turn.converse settings handler now := by
  unfold converseTelling converse
  cases turn.slot.client.phase with
  | connected socket =>
    simp only [map_bind, map_pure, ← fst_readFramesTelling turn handler script, Poll.liftM_map,
      bind_map_left, ← fst_upkeepTelling]
    simp only [map_eq_pure_bind]
  | disconnected | upgrading | closing => rfl

def serviceTelling (turn : Turn C) (settings : Settings) (handler : MessageHandler C)
    (script : Script C) (now : Millis) : Poll (Turn C × List ServerFrame) := do
  match turn.slot.client.phase.socket with
  | none => return (turn, [])
  | some socket =>
    let present ← turn.checkPeer socket
    let upgraded ← present.upgrade settings now
    let (conversed, frames) ← upgraded.converseTelling settings handler script now
    let drained ← conversed.drain settings now
    return (← drained.finish, frames)

theorem fst_serviceTelling (turn : Turn C) (settings : Settings) (handler : MessageHandler C)
    (script : Script C) (now : Millis) :
    Prod.fst <$> turn.serviceTelling settings handler script now =
      turn.service settings handler now := by
  unfold serviceTelling service
  cases turn.slot.client.phase.socket with
  | none => rfl
  | some socket =>
    simp only [map_bind, map_pure, ← fst_converseTelling _ settings handler script, bind_map_left,
      bind_pure]

end Turn

namespace Server

abbrev Told := Fin maxClients → List ServerFrame

def serviceAllTelling (handler : MessageHandler C) (script : Script C) (now : Millis) :
    List (Fin maxClients) → Server → C → Poll ((Server × C) × Told)
  | [], server, context => return ((server, context), fun _ => [])
  | id :: ids, server, context => do
    let turn : Turn C := ⟨server.slots.get id, server.stats, context⟩
    let (ended, frames) ← turn.serviceTelling server.settings handler script now
    let serviced := { server.setSlot id ended.slot with stats := ended.stats }
    let (result, told) ← serviceAllTelling handler script now ids serviced ended.context
    return (result, fun other => (if id = other then frames else []) ++ told other)

theorem fst_serviceAllTelling (handler : MessageHandler C) (script : Script C) (now : Millis)
    (ids : List (Fin maxClients)) (server : Server) (context : C) :
    Prod.fst <$> serviceAllTelling handler script now ids server context =
      serviceAll handler now ids server context := by
  induction ids generalizing server context with
  | nil => rfl
  | cons id ids ih =>
    rw [serviceAll, serviceAllTelling]
    simp only [← Turn.fst_serviceTelling _ _ handler script, ← ih, map_eq_pure_bind, bind_assoc,
      pure_bind]

def updateTelling (server : Server) (handler : MessageHandler C) (script : Script C)
    (network : Link.Status) (context : C) (now : Millis) : Poll ((Server × C) × Told) :=
  server.updateBy network now (fun dropped => ((dropped, context), fun _ => [])) fun admitted =>
    serviceAllTelling handler script now (List.finRange maxClients) admitted context

theorem fst_updateTelling (server : Server) (handler : MessageHandler C) (script : Script C)
    (network : Link.Status) (context : C) (now : Millis) :
    Prod.fst <$> server.updateTelling handler script network context now =
      server.update handler network context now := by
  rw [updateTelling, map_updateBy, update_eq_updateBy]
  simp only [fst_serviceAllTelling]
  rfl

end Server

end BoardNet.WebSocket
