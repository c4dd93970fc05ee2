import BoardNet.Proofs.WebSocket.Transcript

namespace BoardNet.WebSocket

open Poll

/-- Frames of this kind are about the connection. -/
def Opcode.IsControl (opcode : Opcode) : Prop :=
  opcode = .close ∨ opcode = .ping ∨ opcode = .pong

/-- The rules for a control frame. -/
structure ServerFrame.Lawful (frame : ServerFrame) : Prop where
  short : frame.payload.length ≤ 125
  /-- The length stands in seven bits. -/
  form : frame.bytes =
    (0x80 ||| frame.opcode.bits) :: frame.payload.length.toUInt8 :: frame.payload
  /-- What is in a closing frame starts with a code of two bytes. -/
  code : frame.opcode = .close → frame.payload = [] ∨ 2 ≤ frame.payload.length

theorem ServerFrame.lawful_iff {frame : ServerFrame} :
    frame.Lawful ↔ frame.payload.length ≤ 125 ∧
      (frame.opcode = .close → frame.payload.length ≠ 1) := by
  constructor
  · intro lawful
    refine ⟨lawful.short, fun closing single => ?_⟩
    rcases lawful.code closing with empty | coded
    · rw [empty] at single
      cases single
    · omega
  · rintro ⟨short, code⟩
    refine ⟨short, ?_, fun closing => ?_⟩
    · rw [bytes, serverHeader, if_pos (Nat.lt_succ_of_le short)]
      rfl
    · have length := code closing
      rw [← List.length_eq_zero_iff]
      omega

/-- The frame that the server gives back for one of the peer's. -/
def Event.reply? : Event → Option ServerFrame
  | .ping payload => some ⟨.pong, payload⟩
  | .close payload => some ⟨.close, payload.take 2⟩
  | _ => none

theorem Event.isControl_reply? {event : Event} {frame : ServerFrame}
    (reply : event.reply? = some frame) : frame.opcode.IsControl := by
  cases event <;> cases reply
  · exact .inr (.inr rfl)
  · exact .inl rfl

namespace ServerFrame

/-- A frame gives back what no control frame can hold. -/
inductive GivesBack (events : List Event) : ServerFrame → Prop where
  | ping {payload : List UInt8} (sent : .ping payload ∈ events) (long : 125 < payload.length) :
      GivesBack events ⟨.pong, payload⟩
  | close {byte : UInt8} (sent : .close [byte] ∈ events) : GivesBack events ⟨.close, [byte]⟩

variable {events : List Event} {frame : ServerFrame}

theorem GivesBack.unlawful (back : frame.GivesBack events) : ¬frame.Lawful := by
  intro lawful
  cases back with
  | ping sent long => exact Nat.not_le.mpr long lawful.short
  | close sent => exact (lawful_iff.mp lawful).2 rfl rfl

theorem GivesBack.of_reply {event : Event} (sent : event ∈ events)
    (reply : event.reply? = some frame) (unlawful : ¬frame.Lawful) : frame.GivesBack events := by
  rw [lawful_iff] at unlawful
  cases event with
  | ping payload =>
    cases reply
    exact .ping sent (Nat.not_le.mp fun short => unlawful ⟨short, nofun⟩)
  | close payload =>
    cases reply
    have length : (payload.take 2).length = min 2 payload.length := List.length_take
    have single : payload.length = 1 := by
      refine Decidable.byContradiction fun other => unlawful ⟨?_, fun _ => ?_⟩ <;>
        · rw [length]
          omega
    obtain ⟨byte, rfl⟩ := List.length_eq_one_iff.mp single
    exact .close sent
  | text | binary | pong | cutOff | accepted | refused | unanswered => cases reply

theorem lawful_ping : Lawful ⟨.ping, []⟩ := lawful_iff.mpr ⟨Nat.zero_le _, nofun⟩

end ServerFrame

def longestPayload : Nat := receiveCapacity - LengthForm.headerSize .wide

/-- What is read from the receive buffer is no longer than that. -/
theorem FrameHeader.length_payload_le {received : List UInt8} {header : FrameHeader}
    (read : parse received receiveCapacity = .ok (some header)) :
    (header.payload received).length ≤ longestPayload := by
  obtain ⟨⟨form, size, stated⟩, fits⟩ := form_of_parse read
  have length : (header.payload received).length ≤ header.payloadLength := by
    rw [payload, length_unmask, List.length_take]
    exact Nat.min_le_left ..
  refine Nat.le_trans length ?_
  unfold frameLength at fits
  rw [size] at fits
  unfold longestPayload
  cases form with
  | short => exact Nat.le_trans stated (by decide)
  | wide => exact Nat.le_sub_of_add_le' fits

/-- A reply is as long as what it replies to at most. -/
theorem Event.reply?_ofFrame {header : FrameHeader} {payload : List UInt8} {frame : ServerFrame}
    (reply : (Event.ofFrame header payload).reply? = some frame) :
    frame.payload.length ≤ payload.length := by
  unfold ofFrame at reply
  split at reply
  · cases reply
  · split at reply
    · split at reply <;> cases reply
    · cases reply
    · cases reply
      exact Nat.le_refl _
    · cases reply
    · cases reply
      exact List.length_take_le' ..
    · cases reply
    · cases reply

/-- Frames of the server's own, after these events: replies, in order, to some of the events, and
pings. -/
structure Answers (frames : List ServerFrame) (events : List Event) : Prop where
  replies : (frames.filter (·.opcode ≠ .ping)).Sublist (events.filterMap Event.reply?)
  pings : ∀ frame ∈ frames, frame.opcode = .ping → frame.payload = []
  fit : ∀ frame ∈ frames, frame.payload.length ≤ longestPayload

namespace Answers

variable {frames further : List ServerFrame} {events later : List Event}

theorem none (events : List Event) : Answers [] events := ⟨List.nil_sublist _, nofun, nofun⟩

theorem append (first : Answers frames events) (second : Answers further later) :
    Answers (frames ++ further) (events ++ later) where
  replies := by
    rw [List.filter_append, List.filterMap_append]
    exact first.replies.append second.replies
  pings := List.forall_mem_append.mpr ⟨first.pings, second.pings⟩
  fit := List.forall_mem_append.mpr ⟨first.fit, second.fit⟩

/-- Other events may come before. -/
theorem after (answers : Answers frames later) (events : List Event) :
    Answers frames (events ++ later) := (none events).append answers

theorem ping : Answers [⟨.ping, []⟩] [] :=
  ⟨List.nil_sublist _, List.forall_mem_singleton.mpr fun _ => rfl,
    List.forall_mem_singleton.mpr (Nat.zero_le _)⟩

theorem reply {event : Event} {frame : ServerFrame} (reply : event.reply? = some frame)
    (fits : frame.payload.length ≤ longestPayload) : Answers [frame] [event] where
  replies := by
    rw [List.filterMap_cons_some reply]
    exact List.filter_sublist
  pings := by
    refine List.forall_mem_singleton.mpr fun ping => ?_
    cases event <;> cases reply <;> cases ping
  fit := List.forall_mem_singleton.mpr fits

/-- A frame is a ping or replies to an event. -/
theorem cases {frame : ServerFrame} (answers : Answers frames events) (member : frame ∈ frames) :
    frame = ⟨.ping, []⟩ ∨ ∃ event ∈ events, event.reply? = some frame := by
  by_cases ping : frame.opcode = .ping
  · obtain ⟨opcode, payload⟩ := frame
    cases ping
    have empty : payload = [] := answers.pings _ member rfl
    exact .inl (empty ▸ rfl)
  · have kept : frame ∈ frames.filter (·.opcode ≠ .ping) :=
      List.mem_filter.mpr ⟨member, decide_eq_true ping⟩
    exact .inr (List.mem_filterMap.mp (answers.replies.subset kept))

end Answers

variable {C : Type}

/-- An application that queues nothing. -/
def Script.silent : Script C := fun _ _ _ => []

namespace Turn

variable {turn : Turn C} {settings : Settings} {handler : MessageHandler C} {now : Millis}

theorem told_queueTelling (turn : Turn C) (frame : ServerFrame) :
    (turn.queueTelling frame.opcode frame.payload).value.2 = [] ∨
      (turn.queueTelling frame.opcode frame.payload).value.2 = [frame] := by
  simp only [queueTelling, Logged.value_bind, Logged.value_pure]
  split
  · exact .inr rfl
  · exact .inl rfl

theorem answers_queueTelling (turn : Turn C) {event : Event} {frame : ServerFrame}
    (reply : event.reply? = some frame) (fits : frame.payload.length ≤ longestPayload) :
    Answers (turn.queueTelling frame.opcode frame.payload).value.2 [event] := by
  rcases turn.told_queueTelling frame with nothing | queued
  · rw [nothing]
    exact .none _
  · rw [queued]
    exact .reply reply fits

/-- Only pings and closing frames are replied to. -/
theorem answers_performTelling (turn : Turn C) (handler : MessageHandler C) (socket : SocketId)
    {event : Event} (fit : ∀ frame, event.reply? = some frame →
      frame.payload.length ≤ longestPayload) :
    Answers (turn.performTelling handler .silent socket event).value.2 [event] := by
  cases event with
  | ping payload => exact turn.answers_queueTelling rfl (fit _ rfl)
  | close payload => exact turn.answers_queueTelling rfl (fit _ rfl)
  | text | binary | pong | cutOff | accepted | refused | unanswered => exact .none _

/-- Reading frames with the events and with the frames of the server's own is reading them. -/
theorem answers_readFrames (turn : Turn C) (handler : MessageHandler C) (socket : SocketId)
    (now : Millis) (received : List UInt8) :
    Answers (turn.readFramesTelling handler .silent socket now received).value.2
      (turn.readFramesNoting handler socket now received).value.2 := by
  induction received using framesIn.induct generalizing turn with
  | case1 received error bad =>
    rw [readFramesTelling_of_error bad]
    exact .none _
  | case2 received cut =>
    rw [readFramesTelling_of_partial cut]
    exact .none _
  | case3 received header whole rest ih =>
    rw [readFramesTelling_of_frame whole, readFramesNoting_of_frame whole]
    have fit (frame : ServerFrame)
        (reply : (Event.ofFrame header (header.payload received)).reply? = some frame) :
        frame.payload.length ≤ longestPayload :=
      Nat.le_trans (Event.reply?_ofFrame reply) (FrameHeader.length_payload_le whole)
    have reply := answers_performTelling { turn with slot := { turn.slot with
      received := received.drop header.frameLength, lastActive := now } } handler socket fit
    simp only [Logged.value_bind, ← fst_performTelling _ handler .silent]
    rcases (Event.ofFrame header (header.payload received)).goesOn with _ | _ | _
    · exact reply
    · exact reply
    · exact reply.append (ih _)

/-- What keeps a connection alive is not an answer. -/
theorem answers_keepAlive (turn : Turn C) (settings : Settings) (now : Millis) :
    Answers (turn.keepAliveTelling settings now).value.2 [] := by
  unfold keepAliveTelling
  dsimp only
  split
  · exact .none _
  · split
    · rcases turn.told_queueTelling ⟨.ping, []⟩ with nothing | queued
      · simp only [Logged.value_bind, Logged.value_pure, nothing]
        exact .none _
      · simp only [Logged.value_bind, Logged.value_pure, queued]
        exact .ping
    · exact .none _

theorem shadows_upkeep (turn : Turn C) (settings : Settings) (now : Millis) (lawful : Bool) :
    Shadows (fun ended told => ended = told.1 ∧ Answers told.2 [])
      (turn.upkeep settings now lawful) (turn.upkeepTelling settings now lawful) := by
  have closing (turn : Turn C) {frames : List ServerFrame} (answers : Answers frames []) :
      Shadows (fun ended told => ended = told.1 ∧ Answers told.2 []) turn.forceClose
        (do return (← turn.forceClose, frames)) := by
    nth_rewrite 1 [← bind_pure turn.forceClose]
    exact .bind_refl fun closed => .done ⟨rfl, answers⟩
  unfold upkeep upkeepTelling
  split
  · exact closing turn (.none _)
  · split
    · have same := (id_map (turn.keepAlive settings now)).trans
        (turn.fst_keepAliveTelling settings now).symm
      have shadows : Shadows (fun kept told => kept = told.1 ∧ Answers told.2 [])
          (liftM (turn.keepAlive settings now)) (liftM (turn.keepAliveTelling settings now)) :=
        .lift same fun ends => ⟨ends, turn.answers_keepAlive settings now⟩
      refine shadows.bind ?_
      rintro _ ⟨⟨alive, kept⟩, frames⟩ ⟨rfl, answers⟩
      dsimp only
      split
      · exact .done ⟨rfl, answers⟩
      · exact closing kept answers
    · exact .done ⟨rfl, .none _⟩

/-- A turn with the events is one with the frames of the server's own, which answer the events. -/
theorem shadows_converse (turn : Turn C) (settings : Settings) (handler : MessageHandler C)
    (now : Millis) :
    Shadows (fun noted told => noted.1 = told.1 ∧ Answers told.2 noted.2)
      (turn.converseNoting settings handler now)
      (turn.converseTelling settings handler .silent now) := by
  unfold converseNoting converseTelling
  cases turn.slot.client.phase with
  | connected socket =>
    refine .bind_refl fun received => ?_
    have same := (turn.fst_readFramesNoting handler socket now received).trans
      (turn.fst_readFramesTelling handler .silent socket now received).symm
    have shadows : Shadows (fun noted told => noted.1 = told.1 ∧ Answers told.2 noted.2)
        (liftM (turn.readFramesNoting handler socket now received))
        (liftM (turn.readFramesTelling handler .silent socket now received)) :=
      .lift same fun ends => ⟨ends, turn.answers_readFrames handler socket now received⟩
    refine shadows.bind ?_
    rintro ⟨⟨lawful, read⟩, events⟩ ⟨_, frames⟩ ⟨rfl, answers⟩
    refine (read.shadows_upkeep settings now lawful).bind ?_
    rintro _ ⟨ended, pings⟩ ⟨rfl, pinged⟩
    refine .done ⟨rfl, ?_⟩
    rw [← List.append_nil events]
    exact answers.append pinged
  | disconnected | upgrading | closing => exact .done ⟨rfl, .none _⟩

theorem shadows_service (turn : Turn C) (settings : Settings) (handler : MessageHandler C)
    (now : Millis) :
    Shadows (fun noted told => noted.1 = told.1 ∧ Answers told.2 noted.2)
      (turn.serviceNoting settings handler now)
      (turn.serviceTelling settings handler .silent now) := by
  unfold serviceNoting serviceTelling
  cases turn.slot.client.phase.socket with
  | none => exact .done ⟨rfl, .none _⟩
  | some socket =>
    refine .bind_refl fun present => ?_
    refine (Shadows.of_map (present.fst_upgradeNoting settings now)).bind ?_
    rintro ⟨upgraded, answer⟩ _ rfl
    refine (upgraded.shadows_converse settings handler now).bind ?_
    rintro ⟨conversed, events⟩ ⟨_, frames⟩ ⟨rfl, answers⟩
    refine .bind_refl fun drained => .bind_refl fun ended => ?_
    exact .done ⟨rfl, answers.after answer⟩

end Turn

namespace Server

/-- What was queued to each client answers what came from it. -/
theorem shadows_serviceAll (handler : MessageHandler C) (now : Millis)
    (ids : List (Fin maxClients)) (server : Server) (context : C) :
    Shadows (fun noted told => noted.1 = told.1 ∧ ∀ id, Answers (told.2 id) (noted.2.of id))
      (serviceAllNoting handler now ids server context)
      (serviceAllTelling handler .silent now ids server context) := by
  induction ids generalizing server context with
  | nil => exact .done ⟨rfl, fun _ => .none _⟩
  | cons first ids ih =>
    rw [serviceAllNoting, serviceAllTelling]
    refine (Turn.shadows_service _ server.settings handler now).bind ?_
    rintro ⟨ended, events⟩ ⟨_, frames⟩ ⟨rfl, own⟩
    refine (ih _ _).bind ?_
    rintro ⟨result, notes⟩ ⟨_, told⟩ ⟨rfl, others⟩
    refine .done ⟨rfl, fun id => ?_⟩
    rw [Notes.of_append]
    by_cases same : first = id
    · subst same
      rw [Notes.of_from]
      simp only [if_true]
      exact own.append (others first)
    · rw [Notes.of_from_other events same]
      simp only [if_neg same]
      exact others id

theorem shadows_update (server : Server) (handler : MessageHandler C) (network : Link.Status)
    (context : C) (now : Millis) :
    Shadows (fun noted told => noted.1 = told.1 ∧ ∀ id, Answers (told.2 id) (noted.2.of id))
      (server.updateNoting handler network context now)
      (server.updateTelling handler .silent network context now) := by
  rw [updateNoting_eq_updateBy, updateTelling]
  unfold updateBy
  refine .bind_refl fun link => ?_
  split
  · exact .bind_refl fun dropped => .done ⟨rfl, fun _ => .none _⟩
  · split
    · exact .bind_refl fun dropped => .done ⟨rfl, fun _ => .none _⟩
    · exact .bind_refl fun admitted => shadows_serviceAll handler now _ admitted context

/-- A server after some updates, and uses of its clients between them: the events that it acted on,
and the frames of its own that it queued to each client. Both are found by updates that note and
tell of them, on the same exchanges. -/
inductive Dialogue (handler : MessageHandler C) : Server → Notes → Told → Prop where
  | fresh (settings : Settings) : Dialogue handler { settings } [] fun _ => []
  | updated {before after : Server} {notes more : Notes} {own told : Told}
      {network : Link.Status} {context left : C} {now : Millis} {trace : List Exchange}
      (dialogue : Dialogue handler before notes own)
      (path : Path (before.update handler network context now) trace (after, left))
      (noting : Path (before.updateNoting handler network context now) trace
        ((after, left), more))
      (telling : Path (before.updateTelling handler .silent network context now) trace
        ((after, left), told)) :
      Dialogue handler after (notes ++ more) fun id => own id ++ told id
  | used {before after : Server} {notes : Notes} {own : Told} {uses : Fin maxClients → List Use}
      (dialogue : Dialogue handler before notes own) (used : before.Used uses after) :
      Dialogue handler after notes own

namespace Dialogue

variable {handler : MessageHandler C} {server : Server} {notes : Notes} {own : Told}

theorem answers (dialogue : Dialogue handler server notes own) (id : Fin maxClients) :
    Answers (own id) (notes.of id) := by
  induction dialogue with
  | fresh => exact .none _
  | @updated before _ _ more _ _ _ _ _ _ trace dialogue path noting telling ih =>
    obtain ⟨noted, shadow, -, answers⟩ := shadows_update _ _ _ _ _ trace _ telling
    obtain rfl : noted.2 = more := congrArg Prod.snd (shadow.unique noting)
    rw [Notes.of_append]
    exact ih.append (answers id)
  | used dialogue used ih => exact ih

/-- An update that tells of the frames goes on with a dialogue. -/
theorem exists_told {after : Server} {network : Link.Status} {context left : C} {now : Millis}
    {trace : List Exchange} {told : Told} (dialogue : Dialogue handler server notes own)
    (telling : Path (server.updateTelling handler .silent network context now) trace
      ((after, left), told)) :
    ∃ more, Dialogue handler after (notes ++ more) fun id => own id ++ told id := by
  obtain ⟨⟨_, more⟩, noting, rfl, -⟩ := shadows_update _ _ _ _ _ trace _ telling
  exact ⟨more, dialogue.updated (path_of_telling telling) noting telling⟩

/-- So does every other. -/
theorem path {after : Server} {network : Link.Status} {context left : C} {now : Millis}
    {trace : List Exchange} (dialogue : Dialogue handler server notes own)
    (path : Path (server.update handler network context now) trace (after, left)) :
    ∃ (more : Notes) (told : Told), Dialogue handler after (notes ++ more) fun id =>
      own id ++ told id := by
  obtain ⟨told, telling⟩ := telling_of_path .silent path
  obtain ⟨more, dialogue⟩ := dialogue.exists_told telling
  exact ⟨more, told, dialogue⟩

theorem exists_run {σ : Type} {chip : Chip σ} {network : Link.Status} {context : C} {now : Millis}
    {before : σ} {ran : Ran σ ((Server × C) × Told)} {update : Poll ((Server × C) × Told)}
    (dialogue : Dialogue handler server notes own)
    (updating : update = server.updateTelling handler .silent network context now)
    (running : ran = update.run chip before) :
    ∃ more, Dialogue handler ran.value.1.1 (notes ++ more) fun id => own id ++ ran.value.2 id := by
  subst updating running
  exact dialogue.exists_told (path_run chip _ before)

/-- Every server that can be reached has had a dialogue. -/
theorem exists_of_reachable {given : Fin maxClients → Prop}
    (reachable : server.Reachable handler given) :
    ∃ notes own, Dialogue handler server notes own := by
  induction reachable with
  | fresh settings => exact ⟨_, _, .fresh settings⟩
  | updated reachable path ih =>
    obtain ⟨notes, own, dialogue⟩ := ih
    obtain ⟨more, told, dialogue⟩ := dialogue.path path
    exact ⟨_, _, dialogue⟩
  | used reachable used ih =>
    obtain ⟨notes, own, dialogue⟩ := ih
    exact ⟨_, _, dialogue.used used⟩

/-- The server's own frames are control frames. Those that are not pings answer the peer's pings and
closing frames, in order and each at most once, and no frame is longer than the receive buffer can
hold. One breaks the rules just when it gives back a ping of more than 125 bytes or the one byte of
a closing frame. So it is after every further update. -/
theorem unlawful_iff (dialogue : Dialogue handler server notes own) (id : Fin maxClients) :
    ((own id).filter (·.opcode ≠ .ping)).Sublist ((notes.of id).filterMap Event.reply?) ∧
      (∀ frame ∈ own id, frame.opcode.IsControl ∧ frame.payload.length ≤ longestPayload ∧
        (¬frame.Lawful ↔ frame.GivesBack (notes.of id))) ∧
      ∀ {network : Link.Status} {context left : C} {now : Millis} {trace : List Exchange}
        {after : Server},
        Path (server.update handler network context now) trace (after, left) →
        ∃ (more : Notes) (told : Told), Dialogue handler after (notes ++ more) fun id =>
          own id ++ told id := by
  have answers := dialogue.answers id
  refine ⟨answers.replies, fun frame member => ?_, dialogue.path⟩
  refine ⟨?_, answers.fit frame member, ?_, ServerFrame.GivesBack.unlawful⟩
  · rcases answers.cases member with rfl | ⟨event, -, reply⟩
    · exact .inr (.inl rfl)
    · exact Event.isControl_reply? reply
  · intro unlawful
    rcases answers.cases member with rfl | ⟨event, sent, reply⟩
    · exact absurd ServerFrame.lawful_ping unlawful
    · exact .of_reply sent reply unlawful

/-- A ping of 126 bytes with its length in sixteen bits, and a closing frame with one byte. -/
def unruly : List UInt8 :=
  [0x89, 0xFE, 0, 126, 0, 0, 0, 0] ++ List.replicate 126 7 ++ [0x88, 0x81, 0, 0, 0, 0, 3]

theorem unruly_given_back :
    let first : Fin maxClients := ⟨0, by decide⟩
    let pong : ServerFrame := ⟨.pong, List.replicate 126 7⟩
    ∃ server notes own, Dialogue Session.indifferent server notes own ∧
      own first = [pong, ⟨.close, [3]⟩] ∧ (∀ frame ∈ own first, ¬frame.Lawful) ∧
      pong.bytes = [0x8A, 126, 0, 126] ++ pong.payload ∧
      .ping pong.payload ∈ notes.of first ∧ .close [3] ∈ notes.of first := by
  intro first pong
  let chip := Sim.Controller.chip
  let welcome := ({} : Server).updateTelling Session.indifferent .silent Sim.steadyLink () 0
  let greeted := welcome.run chip Transcript.upgradeAsked
  let answer := greeted.value.1.1.updateTelling Session.indifferent .silent Sim.steadyLink () 1
  let answered := answer.run chip (greeted.state.arrive ⟨0, by decide⟩ unruly)
  have fresh : Dialogue Session.indifferent {} [] fun _ => [] := .fresh {}
  obtain ⟨heard, upgraded⟩ : ∃ more, Dialogue Session.indifferent greeted.value.1.1 _ _ :=
    fresh.exists_run rfl rfl
  obtain ⟨_, told⟩ : ∃ more, Dialogue Session.indifferent answered.value.1.1 (_ ++ more) _ :=
    upgraded.exists_run rfl rfl
  have frames : ([] ++ greeted.value.2 first) ++ answered.value.2 first =
      [pong, ⟨.close, [3]⟩] := by decide +kernel
  -- what the server has come to is not looked into any further
  obtain ⟨server, notes, own, told, frames⟩ : ∃ server notes own,
      Dialogue Session.indifferent server notes own ∧ own first = [pong, ⟨.close, [3]⟩] :=
    ⟨_, _, _, told, frames⟩
  have broken := fun frame member => ((told.unlawful_iff first).2.1 frame member).2.2
  rw [frames] at broken
  have length : pong.payload.length = 126 := List.length_replicate
  have long : ¬pong.Lawful := fun lawful => by
    have short := lawful.short
    omega
  have single : ¬ServerFrame.Lawful ⟨.close, [3]⟩ := fun lawful =>
    absurd (lawful.code rfl) (by decide)
  have pinged : ServerFrame.GivesBack _ ⟨.pong, List.replicate 126 7⟩ :=
    (broken pong (by simp)).mp long
  have closed := (broken ⟨.close, [3]⟩ (by simp)).mp single
  refine ⟨server, notes, own, told, frames, ?_, by decide +kernel, ?_, ?_⟩
  · rw [frames]
    simp [long, single]
  · cases pinged with
    | ping sent => exact sent
  · cases closed with
    | close sent => exact sent

end Dialogue

end Server

end BoardNet.WebSocket
