import BoardNet.Proofs.WebSocket.Admission
import BoardNet.Proofs.WebSocket.Framing
import BoardNet.Proofs.WebSocket.Ring

namespace BoardNet.WebSocket

inductive Use where
  | queue (frame : ServerFrame)
  /-- Its subscriptions become these. -/
  | subscribe (subscriptions : Subscriptions)
  deriving DecidableEq

namespace Client

def use (client : Client) : Use → List ServerFrame × Client
  | .queue frame =>
    let (queued, after) := (client.queueFrame frame.opcode frame.payload).value
    (if queued then [frame] else [], after)
  | .subscribe subscriptions => ([], { client with subscriptions })

def useAll (client : Client) : List Use → List ServerFrame × Client
  | [] => ([], client)
  | first :: uses =>
    let (frames, used) := client.use first
    let (further, after) := used.useAll uses
    (frames ++ further, after)

variable (client : Client)

theorem useAll_append (uses later : List Use) :
    client.useAll (uses ++ later) =
      ((client.useAll uses).1 ++ ((client.useAll uses).2.useAll later).1,
        ((client.useAll uses).2.useAll later).2) := by
  induction uses generalizing client with
  | nil => rfl
  | cons use uses ih => simp only [List.cons_append, useAll, ih, List.append_assoc]

/-- A frame that is put into the ring lies whole behind what was queued. -/
theorem toList_enqueue {opcode : Opcode} {payload : List UInt8} {tx : Ring}
    (queued : client.enqueue opcode payload = (true, tx)) :
    ServerFrame.Fits ⟨opcode, payload⟩ ∧
      tx.toList = client.tx.toList ++ ServerFrame.bytes ⟨opcode, payload⟩ := by
  unfold enqueue at queued
  split at queued
  · next header made =>
    obtain ⟨fits, bytes⟩ := ServerFrame.bytes_of_header made
    refine ⟨fits, ?_⟩
    rw [bytes, client.tx.toList_pushAll queued]
    simp
  · cases queued

/-- Queueing a frame to a client that is not open for it does nothing. -/
theorem queueFrame_of_not_open {opcode : Opcode} (payload : List UInt8)
    (shut : client.isOpenFor opcode = false) :
    (client.queueFrame opcode payload).value = (false, client) := by
  unfold queueFrame
  rw [shut]
  rfl

theorem queueFrame_of_enqueue {opcode : Opcode} {payload : List UInt8} {tx : Ring}
    (open_ : client.isOpenFor opcode = true) (queued : client.enqueue opcode payload = (true, tx)) :
    (client.queueFrame opcode payload).value = (true, { client with tx }) := by
  unfold queueFrame
  rw [open_, queued]
  rfl

theorem queueFrame_of_full {opcode : Opcode} {payload : List UInt8} {tx : Ring}
    (open_ : client.isOpenFor opcode = true)
    (full : client.enqueue opcode payload = (false, tx)) :
    (client.queueFrame opcode payload).value =
      (false, { client with dropped := client.dropped + 1 }) := by
  unfold queueFrame
  rw [open_, full]
  rfl

/-- Something that is done with a client queues the frames that it answers, and no other bytes. -/
theorem toList_use (use : Use) :
    (∀ frame ∈ (client.use use).1, frame.Fits) ∧
      (client.use use).2.tx.toList =
        client.tx.toList ++ ServerFrame.stream (client.use use).1 := by
  cases use with
  | subscribe subscriptions => exact ⟨nofun, (List.append_nil _).symm⟩
  | queue frame =>
    rw [Client.use]
    cases open_ : client.isOpenFor frame.opcode with
    | false =>
      rw [client.queueFrame_of_not_open frame.payload open_]
      exact ⟨nofun, (List.append_nil _).symm⟩
    | true =>
      rcases queued : client.enqueue frame.opcode frame.payload with ⟨_ | _, tx⟩
      · rw [client.queueFrame_of_full open_ queued]
        exact ⟨nofun, (List.append_nil _).symm⟩
      · obtain ⟨fits, bytes⟩ := client.toList_enqueue queued
        rw [client.queueFrame_of_enqueue open_ queued]
        exact ⟨by simpa using fits, by simpa [ServerFrame.stream] using bytes⟩

theorem toList_useAll (uses : List Use) :
    (∀ frame ∈ (client.useAll uses).1, frame.Fits) ∧
      (client.useAll uses).2.tx.toList =
        client.tx.toList ++ ServerFrame.stream (client.useAll uses).1 := by
  induction uses generalizing client with
  | nil => exact ⟨nofun, (List.append_nil _).symm⟩
  | cons use uses ih =>
    obtain ⟨fit, queued⟩ := client.toList_use use
    obtain ⟨further, rest⟩ := ih (client.use use).2
    simp only [useAll]
    refine ⟨List.forall_mem_append.mpr ⟨fit, further⟩, ?_⟩
    rw [rest, queued, ServerFrame.stream_append, List.append_assoc]

@[simp] theorem phase_use (use : Use) : (client.use use).2.phase = client.phase := by
  cases use with
  | queue frame => exact (client.queueFrame_keeps frame.opcode frame.payload).1
  | subscribe subscriptions => rfl

@[simp] theorem phase_useAll (uses : List Use) : (client.useAll uses).2.phase = client.phase := by
  induction uses generalizing client with
  | nil => rfl
  | cons use uses ih => exact (ih _).trans (client.phase_use use)

/-- Subscribing to a topic is such a thing. -/
theorem subscribe_eq_useAll (topic : String) :
    (client.subscribe topic).2 =
      (client.useAll [.subscribe (client.subscribe topic).2.subscriptions]).2 := by
  unfold subscribe
  split
  · rfl
  · rfl

/-- No frame can be queued to a client. -/
def Shut : Prop := ∀ opcode, client.isOpenFor opcode = false

variable {client}

theorem shut_of_disconnected (disconnected : client.phase = .disconnected) : client.Shut := by
  intro opcode
  rw [isOpenFor, disconnected]

theorem shut_of_upgrading {socket : SocketId} (upgrading : client.phase = .upgrading socket) :
    client.Shut := by
  intro opcode
  rw [isOpenFor, upgrading]

theorem Shut.use (shut : client.Shut) (use : Use) :
    (client.use use).1 = [] ∧ (client.use use).2.tx = client.tx := by
  cases use with
  | queue frame =>
    rw [Client.use, queueFrame_of_not_open client frame.payload (shut frame.opcode)]
    exact ⟨rfl, rfl⟩
  | subscribe subscriptions => exact ⟨rfl, rfl⟩

theorem Shut.useAll (shut : client.Shut) (uses : List Use) :
    (client.useAll uses).1 = [] ∧ (client.useAll uses).2.tx = client.tx := by
  induction uses generalizing client with
  | nil => exact ⟨rfl, rfl⟩
  | cons use uses ih =>
    obtain ⟨frames, tx⟩ := shut.use use
    have still : (client.use use).2.Shut := by
      intro opcode
      have same : (client.use use).2.isOpenFor opcode = client.isOpenFor opcode := by
        rw [isOpenFor, phase_use, isOpenFor]
      exact same.trans (shut opcode)
    obtain ⟨further, rest⟩ := ih still
    simp only [Client.useAll, frames, further, rest, tx, List.append_nil, and_self]

end Client

namespace Server

/-- The application does some things with each client. -/
structure Used (before : Server) (uses : Fin maxClients → List Use) (after : Server) : Prop where
  settings : after.settings = before.settings
  stats : after.stats = before.stats
  slots : ∀ id, after.slots.get id =
    { before.slots.get id with client := ((before.client id).useAll (uses id)).2 }

variable {server before after : Server} {uses : Fin maxClients → List Use}

theorem Used.client (used : before.Used uses after) (id : Fin maxClients) :
    after.client id = ((before.client id).useAll (uses id)).2 :=
  congrArg Slot.client (used.slots id)

theorem Used.phase (used : before.Used uses after) (id : Fin maxClients) :
    (after.slots.get id).client.phase = (before.slots.get id).client.phase := by
  rw [used.slots id]
  exact (before.client id).phase_useAll (uses id)

theorem Used.trans {last : Server} {later : Fin maxClients → List Use}
    (used : before.Used uses after) (again : after.Used later last) :
    before.Used (fun id => uses id ++ later id) last where
  settings := again.settings.trans used.settings
  stats := again.stats.trans used.stats
  slots := by
    intro id
    rw [again.slots id, used.client id, used.slots id, Client.useAll_append]

theorem Used.congr {others : Fin maxClients → List Use} (used : before.Used uses after)
    (same : ∀ id, uses id = others id) : before.Used others after := by
  rwa [← funext same]

/-- What is done with one client is done with no other. -/
theorem used_setClient (id : Fin maxClients) (made : List Use) :
    server.Used (fun other => if id = other then made else [])
      (server.setClient id ((server.client id).useAll made).2) where
  settings := rfl
  stats := rfl
  slots := by
    intro other
    by_cases same : id = other
    · subst same
      rw [if_pos rfl]
      exact get_set_self
    · rw [if_neg same]
      exact get_set_other same

/-- Sending a text to a client queues a frame to it. -/
theorem used_sendTo (id : Fin maxClients) (text : String) :
    server.Used (fun other => if id = other then [.queue ⟨.text, Text.bytes text⟩] else [])
      (server.sendTo id text).value.2 := by
  unfold sendTo
  rw [dif_pos id.isLt]
  exact used_setClient id [.queue ⟨.text, Text.bytes text⟩]

/-- What a broadcast does with a client: it queues the frame, if the client is connected and
chosen. -/
def broadcastUse (opcode : Opcode) (payload : List UInt8) (chosen : Client → Bool)
    (client : Client) : List Use :=
  if client.isConnected && chosen client then [.queue ⟨opcode, payload⟩] else []

/-- A broadcast to some clients uses each of them in that way, and no others. -/
theorem used_broadcastTo {opcode : Opcode} {payload : List UInt8} {chosen : Client → Bool}
    {ids : List (Fin maxClients)} (distinct : ids.Nodup)
    (meant : ∀ id ∈ ids, uses id = broadcastUse opcode payload chosen (server.client id))
    (others : ∀ id, id ∉ ids → uses id = []) :
    server.Used uses (broadcastTo opcode payload chosen ids server).value.2 := by
  induction ids generalizing server uses with
  | nil =>
    refine ⟨rfl, rfl, fun id => ?_⟩
    rw [others id List.not_mem_nil]
    rfl
  | cons first ids ih =>
    obtain ⟨out, distinct⟩ := List.nodup_cons.mp distinct
    have own := meant first List.mem_cons_self
    have spared {id : Fin maxClients} (different : first ≠ id) (absent : id ∉ ids) :
        uses id = [] :=
      others id (List.not_mem_cons_of_ne_of_not_mem (Ne.symm different) absent)
    rw [broadcastTo]
    dsimp only
    by_cases reached : (server.client first).isConnected && chosen (server.client first)
    · rw [if_pos reached]
      rw [broadcastUse, if_pos reached] at own
      -- the frame is queued to the first client, and then to others
      have used := server.used_setClient first [.queue ⟨opcode, payload⟩]
      have rest := @ih _ (fun id => if first = id then [] else uses id) distinct
        (fun id member => by
          have different : first ≠ id := fun same => out (same ▸ member)
          rw [if_neg different, meant id (List.mem_cons_of_mem first member), used.client id,
            if_neg different]
          rfl)
        (fun id absent => by
          by_cases same : first = id
          · rw [if_pos same]
          · rw [if_neg same, spared same absent])
      refine (used.trans rest).congr fun id => ?_
      by_cases same : first = id
      · subst same
        rw [if_pos rfl, if_pos rfl, own]
        rfl
      · rw [if_neg same, if_neg same, List.nil_append]
    · rw [if_neg reached]
      rw [broadcastUse, if_neg reached] at own
      refine ih distinct (fun id member => meant id (List.mem_cons_of_mem first member)) ?_
      intro id absent
      by_cases same : first = id
      · rw [← same, own]
      · exact spared same absent

/-- A broadcast, and so an event, queues a frame to every client that is connected and chosen. -/
theorem used_broadcastFrame (opcode : Opcode) (payload : List UInt8) (chosen : Client → Bool) :
    server.Used (fun id => broadcastUse opcode payload chosen (server.client id))
      (server.broadcastFrame opcode payload chosen).value.2 :=
  used_broadcastTo (List.nodup_finRange maxClients) (fun _ _ => rfl)
    fun id out => absurd (List.mem_finRange id) out

end Server

end BoardNet.WebSocket
