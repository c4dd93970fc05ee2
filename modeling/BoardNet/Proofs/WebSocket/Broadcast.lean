import BoardNet.Proofs.WebSocket.Use

namespace BoardNet.WebSocket

/-- A subscription is to this topic, and each of its filters is among the properties with the value
that it asks for. -/
structure Subscription.Covers (subscription : Subscription) (topic : String)
    (properties : List Property) : Prop where
  topic : subscription.topic = topic
  filters : ∀ filter ∈ subscription.filters, ∃ property ∈ properties,
    property.key = filter.key ∧ property.value = filter.value

theorem Subscription.wants_iff {subscription : Subscription} {topic : String}
    {properties : List Property} :
    subscription.wants topic properties = true ↔ subscription.Covers topic properties := by
  have listed (filter : Property) : filter ∈ properties ↔ ∃ property ∈ properties,
      property.key = filter.key ∧ property.value = filter.value := by
    constructor
    · intro member
      exact ⟨filter, member, rfl, rfl⟩
    · rintro ⟨⟨key, value⟩, member, rfl, rfl⟩
      exact member
  rw [wants, Bool.and_eq_true, decide_eq_true_eq, List.all_eq_true]
  constructor
  · rintro ⟨topic, filters⟩
    refine ⟨topic, fun filter member => ?_⟩
    exact (listed filter).mp (of_decide_eq_true (filters filter member))
  · rintro ⟨topic, filters⟩
    refine ⟨topic, fun filter member => ?_⟩
    exact decide_eq_true ((listed filter).mpr (filters filter member))

def headerSize (length : Nat) : Nat := if length < 126 then 2 else 4

/-- Parts are queued exactly when there is space for all of them. -/
theorem Ring.pushAll_iff {ring : Ring} {parts : List (List UInt8)} :
    (ring.pushAll parts).1 = true ↔ parts.flatten.length ≤ ring.free := by
  rcases Nat.lt_or_ge ring.free parts.flatten.length with full | fits
  · rw [ring.pushAll_of_full full]
    exact iff_of_false nofun (Nat.not_le.mpr full)
  · rw [ring.pushAll_of_fits fits]
    exact iff_of_true rfl fits

namespace Client

variable {client : Client} {topic : String} {properties : List Property} {opcode : Opcode}
  {payload : List UInt8}

structure Awaits (client : Client) (topic : String) (properties : List Property) : Prop where
  connected : ∃ socket, client.phase = .connected socket
  subscribed : ∃ subscription ∈ client.subscriptions.toList,
    subscription.Covers topic properties

theorem isConnected_iff :
    client.isConnected = true ↔ ∃ socket, client.phase = .connected socket := by
  unfold isConnected
  cases client.phase <;> simp

theorem wants_iff : client.wants topic properties = true ↔ client.Awaits topic properties := by
  simp only [wants, Subscriptions.wants, Bool.and_eq_true, isConnected_iff, List.any_eq_true,
    Subscription.wants_iff]
  constructor
  · rintro ⟨connected, subscribed⟩
    exact ⟨connected, subscribed⟩
  · rintro ⟨connected, subscribed⟩
    exact ⟨connected, subscribed⟩

instance : Decidable (client.Awaits topic properties) := decidable_of_iff _ wants_iff

/-- The ring has space for a frame with a payload of this length. -/
def HasRoom (client : Client) (length : Nat) : Prop :=
  headerSize length + length ≤ client.tx.free

instance (length : Nat) : Decidable (client.HasRoom length) :=
  inferInstanceAs (Decidable (_ ≤ _))

/-- A frame is put into the ring exactly when there is space for all of it. A payload that is too
long for any frame is longer than any ring, too. -/
theorem enqueue_iff : (client.enqueue opcode payload).1 = true ↔ client.HasRoom payload.length := by
  have most : client.tx.free ≤ ringSize - 1 := Nat.sub_le ..
  unfold enqueue serverHeader HasRoom headerSize
  by_cases short : payload.length < 126
  · simp only [if_pos short, Ring.pushAll_iff, List.flatten_cons, List.length_append,
      List.length_cons, List.length_nil, List.flatten_nil]
    omega
  · by_cases long : payload.length ≤ 65535
    · simp only [if_neg short, if_pos long, Ring.pushAll_iff, List.flatten_cons,
        List.length_append, List.length_cons, List.length_nil, List.flatten_nil]
      omega
    · simp only [if_neg short, if_neg long]
      refine iff_of_false nofun fun fits => ?_
      unfold ringSize at most
      omega

/-- What becomes of a client that a frame is queued to. -/
inductive Receives (client : Client) (frame : ServerFrame) : Client → Prop where
  /-- The frame is the last one in the ring, where a peer reads it as it was meant. -/
  | queued (tx : Ring) (room : client.HasRoom frame.payload.length)
      (behind : tx.toList = client.tx.toList ++ frame.bytes)
      (whole : ServerFrame.readAll? frame.bytes = some [frame]) :
      Receives client frame { client with tx }
  | dropped (full : ¬client.HasRoom frame.payload.length) :
      Receives client frame { client with dropped := client.dropped + 1 }

theorem receives_queueFrame (frame : ServerFrame) (open_ : client.isOpenFor frame.opcode = true) :
    ((client.queueFrame frame.opcode frame.payload).value.1 = true ↔
        client.HasRoom frame.payload.length) ∧
      client.Receives frame (client.queueFrame frame.opcode frame.payload).value.2 := by
  have fits : (client.enqueue frame.opcode frame.payload).1 = true ↔
      client.HasRoom frame.payload.length := enqueue_iff
  rcases tried : client.enqueue frame.opcode frame.payload with ⟨_ | _, tx⟩
  · have full : ¬client.HasRoom frame.payload.length := by
      rw [← fits, tried]
      nofun
    rw [client.queueFrame_of_full open_ tried]
    exact ⟨iff_of_false nofun full, .dropped full⟩
  · have room : client.HasRoom frame.payload.length := by
      rw [← fits, tried]
    obtain ⟨short, behind⟩ := client.toList_enqueue tried
    have whole := ServerFrame.readAll?_stream [frame] (by simpa using short)
    rw [ServerFrame.stream, List.flatMap_singleton] at whole
    rw [client.queueFrame_of_enqueue open_ tried]
    exact ⟨iff_of_true rfl room, .queued tx room behind whole⟩

end Client

namespace Server

variable {server : Server} {ids : List (Fin maxClients)} {opcode : Opcode} {payload : List UInt8}
  {chosen : Client → Bool}

/-- A broadcast to some clients answers to how many of them the frame was queued. -/
theorem count_broadcastTo (distinct : ids.Nodup) :
    (broadcastTo opcode payload chosen ids server).value.1 = ids.countP fun id =>
      (server.client id).isConnected && chosen (server.client id) &&
        ((server.client id).queueFrame opcode payload).value.1 := by
  induction ids generalizing server with
  | nil => rfl
  | cons first ids ih =>
    obtain ⟨out, distinct⟩ := List.nodup_cons.mp distinct
    -- clients whose turn is still to come are not changed by the first one's
    have spared (client : Client) (test : Client → Bool) :
        (ids.countP fun id => test ((server.setClient first client).client id)) =
          ids.countP fun id => test (server.client id) := by
      apply List.countP_congr
      intro id member
      have different : first ≠ id := fun same => out (same ▸ member)
      have kept : (server.setClient first client).client id = server.client id :=
        congrArg Slot.client (get_set_other different)
      rw [kept]
    rw [broadcastTo, List.countP_cons]
    dsimp only
    by_cases reached : ((server.client first).isConnected && chosen (server.client first)) = true
    · simp only [reached, if_true, Logged.value_bind, Logged.value_pure, Bool.true_and, ih distinct]
      rw [spared _ fun client =>
        client.isConnected && chosen client && (client.queueFrame opcode payload).value.1]
      split <;> rfl
    · simp only [reached, Bool.false_and, Bool.false_eq_true, if_false, ih distinct, Nat.add_zero]

/-- What a frame for some clients does: it is queued to those that have space for it, which are
counted, the others that it is for count it as dropped, and nothing else changes. -/
structure Delivers (before : Server) (frame : ServerFrame) (meant : Client → Prop)
    [DecidablePred meant] (told : Nat × Server) : Prop where
  count : told.1 = (List.finRange maxClients).countP fun id =>
    decide (meant (before.client id) ∧ (before.client id).HasRoom frame.payload.length)
  reached : ∀ id, meant (before.client id) → ∃ client,
    (before.client id).Receives frame client ∧
      told.2.slots.get id = { before.slots.get id with client }
  spared : ∀ id, ¬meant (before.client id) → told.2.slots.get id = before.slots.get id
  settings : told.2.settings = before.settings
  stats : told.2.stats = before.stats

theorem delivers_broadcastFrame (server : Server) (frame : ServerFrame) {meant : Client → Prop}
    [DecidablePred meant]
    (same : ∀ client : Client, (client.isConnected && chosen client) = true ↔ meant client)
    (connected : ∀ client, meant client → client.isOpenFor frame.opcode = true) :
    server.Delivers frame meant
      (server.broadcastFrame frame.opcode frame.payload chosen).value where
  count := by
    rw [broadcastFrame, count_broadcastTo (List.nodup_finRange maxClients)]
    apply List.countP_congr
    intro id _
    rw [decide_eq_true_iff, Bool.and_eq_true, same]
    apply and_congr_right
    intro awaited
    exact (Client.receives_queueFrame frame (connected _ awaited)).1
  reached := by
    intro id awaited
    have used := (server.used_broadcastFrame frame.opcode frame.payload chosen).slots id
    rw [broadcastUse, if_pos ((same _).mpr awaited)] at used
    exact ⟨_, (Client.receives_queueFrame frame (connected _ awaited)).2, used⟩
  spared := by
    intro id other
    have used := (server.used_broadcastFrame frame.opcode frame.payload chosen).slots id
    rwa [broadcastUse, if_neg (mt (same _).mp other)] at used
  settings := (server.used_broadcastFrame frame.opcode frame.payload chosen).settings
  stats := (server.used_broadcastFrame frame.opcode frame.payload chosen).stats

/-- An event is queued once, whole, behind everything else, to exactly those connected clients that
have a subscription it fits and space for it; these are counted. A client that is without space
counts a dropped frame instead, and every other part of every client is as it was. -/
theorem delivers_event (server : Server) (topic : String) (properties : List Property)
    (text : String) (data : List UInt8) :
    server.Delivers ⟨.text, Text.bytes text⟩ (·.Awaits topic properties)
        (server.emit topic text properties).value ∧
      server.Delivers ⟨.binary, data⟩ (·.Awaits topic []) (server.emitBinary topic data).value := by
  have same (properties : List Property) (client : Client) :
      (client.isConnected && client.wants topic properties) = true ↔
        client.Awaits topic properties := by
    rw [Bool.and_eq_true, Client.wants_iff]
    exact and_iff_right_of_imp fun awaits => Client.isConnected_iff.mpr awaits.connected
  have open_ (opcode : Opcode) (properties : List Property) (client : Client)
      (awaits : client.Awaits topic properties) : client.isOpenFor opcode = true := by
    obtain ⟨socket, connected⟩ := awaits.connected
    rw [Client.isOpenFor, connected]
  constructor
  · exact server.delivers_broadcastFrame ⟨.text, Text.bytes text⟩ (same properties)
      (open_ .text properties)
  · exact server.delivers_broadcastFrame ⟨.binary, data⟩ (same []) (open_ .binary [])

/-- A client with two subscriptions that fit an event hears of it once. -/
example :
    let client : Client := {
      id := ⟨1, by decide⟩
      phase := .connected ⟨5, by decide⟩
      subscriptions := ⟨[⟨"temp", []⟩, ⟨"temp", [⟨"room", "lab"⟩]⟩]⟩ }
    let told := ((({} : Server).setClient client.id client).emit "temp" "21"
      [⟨"unit", "C"⟩, ⟨"room", "lab"⟩]).value
    told.1 = 1 ∧ (told.2.client client.id).tx.toList = [0x81, 2, 0x32, 0x31] := by
  decide +kernel

end Server

end BoardNet.WebSocket
