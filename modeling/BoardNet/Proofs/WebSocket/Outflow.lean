import BoardNet.Proofs.WebSocket.Release
import BoardNet.Proofs.WebSocket.Telling

namespace BoardNet.WebSocket

open Poll

/-- How often the connection on a socket was ended gracefully. -/
def finishedOn (socket : SocketId) (trace : List Exchange) : Nat :=
  timesAsked (.call (.disconnect socket)) trace

theorem finishedOn_append (socket : SocketId) (trace later : List Exchange) :
    finishedOn socket (trace ++ later) = finishedOn socket trace + finishedOn socket later :=
  timesAsked_append _ trace later

/-- Nothing was taken on a socket, and its connection was not ended gracefully. -/
structure Mute (socket : SocketId) (trace : List Exchange) : Prop where
  taken : takenOn socket trace = []
  finished : finishedOn socket trace = 0

namespace Mute

variable {socket : SocketId} {trace later : List Exchange}

theorem of_idle (idle : Idle trace) : Mute socket trace :=
  ⟨idle.taken socket, idle.spares.disconnects socket⟩

theorem append (first : Mute socket trace) (second : Mute socket later) :
    Mute socket (trace ++ later) where
  taken := by rw [takenOn_append, first.taken, second.taken, List.append_nil]
  finished := by rw [finishedOn_append, first.finished, second.finished]

/-- What was silent before does not count. -/
theorem before (mute : Mute socket trace) (later : List Exchange) :
    takenOn socket (trace ++ later) = takenOn socket later ∧
      finishedOn socket (trace ++ later) = finishedOn socket later := by
  rw [takenOn_append, finishedOn_append, mute.taken, mute.finished, Nat.zero_add]
  exact ⟨rfl, rfl⟩

/-- Nor does what is silent afterwards. -/
theorem behind (mute : Mute socket later) (trace : List Exchange) :
    takenOn socket (trace ++ later) = takenOn socket trace ∧
      finishedOn socket (trace ++ later) = finishedOn socket trace := by
  rw [takenOn_append, finishedOn_append, mute.taken, mute.finished, List.append_nil]
  exact ⟨rfl, rfl⟩

theorem close : Mute socket [⟨.call (.close socket), ()⟩] := ⟨rfl, rfl⟩

theorem of_untouched (untouched : Untouched socket trace) : Mute socket trace where
  taken := by
    refine List.flatMap_eq_nil_iff.mpr fun exchange member => ?_
    have other := untouched exchange member
    obtain ⟨effect, answer⟩ := exchange
    unfold Exchange.taken
    split
    · next target data count same =>
      cases same
      exact if_neg fun same => other (congrArg some same)
    · rfl
  finished := timesAsked_eq_zero fun exchange member same =>
    untouched exchange member (congrArg Effect.about same)

end Mute

/-- Bytes that were in a ring, and frames that were queued behind them, were taken in order up to
some that are left. -/
structure Conserved (socket : SocketId) (queued : List UInt8) (frames : List ServerFrame)
    (trace : List Exchange) (left : List UInt8) : Prop where
  bytes : queued ++ ServerFrame.stream frames = takenOn socket trace ++ left
  fit : ∀ frame ∈ frames, frame.Fits

namespace Conserved

variable {socket : SocketId} {queued between left : List UInt8} {frames further : List ServerFrame}
  {trace later : List Exchange}

theorem of_mute (mute : Mute socket trace) (queued : List UInt8) :
    Conserved socket queued [] trace queued where
  bytes := by rw [mute.taken, ServerFrame.stream_nil, List.append_nil, List.nil_append]
  fit := nofun

theorem trans (first : Conserved socket queued frames trace between)
    (second : Conserved socket between further later left) :
    Conserved socket queued (frames ++ further) (trace ++ later) left where
  bytes := by
    rw [ServerFrame.stream_append, ← List.append_assoc, first.bytes, List.append_assoc,
      second.bytes, takenOn_append, List.append_assoc]
  fit := List.forall_mem_append.mpr ⟨first.fit, second.fit⟩

end Conserved

/-- A connection on this socket is behind its upgrade. -/
def Phase.Speaks (phase : Phase) (socket : SocketId) : Prop :=
  phase = .connected socket ∨ phase = .closing socket

theorem Phase.Speaks.held {phase : Phase} {socket : SocketId} (speaks : phase.Speaks socket) :
    phase.socket = some socket := by
  rcases speaks with rfl | rfl <;> rfl

theorem Phase.not_speaks_upgrading {own socket : SocketId} :
    ¬(Phase.upgrading own).Speaks socket := by
  rintro (same | same) <;> cases same

theorem Slot.Vacant.not_speaks {slot : Slot} (vacant : slot.Vacant) (socket : SocketId) :
    ¬slot.client.phase.Speaks socket := by
  rw [vacant]
  rintro (same | same) <;> cases same

/-- What some part of a turn does with the bytes for a client that is behind its upgrade. -/
inductive Passes (socket : SocketId) (queued : List UInt8) (frames : List ServerFrame)
    (trace : List Exchange) (after : Slot) : Prop where
  | kept (speaks : after.client.phase.Speaks socket) (open_ : finishedOn socket trace = 0)
      (conserved : Conserved socket queued frames trace after.client.tx.toList)
  /-- The connection ended. What was not taken is lost; nothing was if it ended gracefully. -/
  | released (vacant : after.Vacant) (lost : List UInt8)
      (conserved : Conserved socket queued frames trace lost)
      (whole : finishedOn socket trace ≠ 0 → lost = [])

namespace Passes

variable {socket : SocketId} {queued : List UInt8} {frames further : List ServerFrame}
  {trace later : List Exchange} {between after : Slot}

/-- What comes behind a part acts on the connection that is left, if there is one. -/
theorem trans (first : Passes socket queued frames trace between)
    (second : between.client.phase.Speaks socket →
      Passes socket between.client.tx.toList further later after)
    (nothing : between.Vacant → later = [] ∧ further = [] ∧ after = between) :
    Passes socket queued (frames ++ further) (trace ++ later) after := by
  cases first with
  | kept speaks open_ conserved =>
    have sum : finishedOn socket (trace ++ later) = finishedOn socket later := by
      rw [finishedOn_append, open_, Nat.zero_add]
    cases second speaks with
    | kept still open_ more => exact .kept still (sum.trans open_) (conserved.trans more)
    | released vacant lost more whole =>
      refine .released vacant lost (conserved.trans more) fun finished => whole ?_
      rwa [sum] at finished
  | released vacant lost conserved whole =>
    obtain ⟨rfl, rfl, rfl⟩ := nothing vacant
    rw [List.append_nil, List.append_nil]
    exact .released vacant lost conserved whole

theorem of_mute {slot : Slot} (mute : Mute socket trace)
    (speaks : slot.client.phase.Speaks socket) :
    Passes socket slot.client.tx.toList [] trace slot :=
  .kept speaks mute.finished (.of_mute mute _)

theorem of_cut (mute : Mute socket trace) (vacant : after.Vacant) :
    Passes socket queued [] trace after :=
  .released vacant queued (.of_mute mute _) fun finished => absurd mute.finished finished

end Passes

namespace Turn

variable {C : Type} {turn after : Turn C} {socket : SocketId} {settings : Settings}
  {handler : MessageHandler C} {script : Script C} {now : Millis} {trace : List Exchange}
  {frames : List ServerFrame}

theorem passes_forceClose (path : Path turn.forceClose trace after)
    (held : turn.slot.client.phase.socket = some socket) (queued : List UInt8) :
    Passes socket queued [] trace after.slot := by
  obtain ⟨rfl, reset⟩ := path_forceClose_of_held path held
  refine .of_cut .close ?_
  rw [reset]
  rfl

/-- A look at the peer moves nothing. -/
theorem path_checkPeer_cases (path : Path (turn.checkPeer socket) trace after) :
    Mute socket trace ∧ (after.slot.Vacant ∨ after = turn) := by
  rw [checkPeer, Nic.socketStatus, path_nic_bind] at path
  obtain ⟨status, trace, rfl, path⟩ := path
  rw [path_bind] at path
  obtain ⟨asked, rest, gone, rfl, asking, path⟩ := path
  have looks : (turn.peerGone socket status).Asks Effect.isIdle := by
    unfold peerGone
    split
    · trivial
    · split
      · exact (asks_nic.mpr ⟨rfl, rfl⟩).bind fun waiting => trivial
      · trivial
  have asked_idle : Idle asked := asking.effect_allowed looks
  have looked : Idle (⟨.call (.socketStatus socket), status⟩ :: asked) :=
    idle_cons ⟨rfl, rfl⟩ asked_idle
  rw [← List.cons_append]
  cases gone with
  | false =>
    obtain ⟨rfl, rfl⟩ := path_done.mp path
    exact ⟨(Mute.of_idle looked).append ⟨rfl, rfl⟩, .inr rfl⟩
  | true =>
    simp only [if_true, path_log_bind] at path
    obtain ⟨rest, rfl, path⟩ := path
    refine ⟨(Mute.of_idle looked).append ?_, .inl ?_⟩
    · split at path
      · rw [Nic.close, path_nic_bind] at path
        obtain ⟨_, rest, rfl, path⟩ := path
        obtain ⟨rfl, -⟩ := path_done.mp path
        exact ⟨rfl, rfl⟩
      · obtain ⟨rfl, -⟩ := path_done.mp path
        exact ⟨rfl, rfl⟩
    · split at path
      · rw [Nic.close, path_nic_bind] at path
        obtain ⟨_, rest, rfl, path⟩ := path
        obtain ⟨-, rfl⟩ := path_done.mp path
        rfl
      · obtain ⟨-, rfl⟩ := path_done.mp path
        rfl

/-- Frames are queued behind what a client has in its ring. -/
structure Queues (before : Turn C) (told : Turn C × List ServerFrame) : Prop where
  fit : ∀ frame ∈ told.2, frame.Fits
  bytes : told.1.slot.client.tx.toList =
    before.slot.client.tx.toList ++ ServerFrame.stream told.2

theorem queues_queueTelling (turn : Turn C) (opcode : Opcode) (payload : List UInt8) :
    turn.Queues (turn.queueTelling opcode payload).value := by
  obtain ⟨fit, bytes⟩ := turn.slot.client.toList_use (.queue ⟨opcode, payload⟩)
  exact ⟨fit, bytes⟩

theorem queues_performTelling (plays : handler.Plays script) (turn : Turn C) (socket : SocketId)
    (event : Event) : turn.Queues (turn.performTelling handler script socket event).value := by
  have nothing : turn.Queues (turn, []) := ⟨nofun, (List.append_nil _).symm⟩
  cases event with
  | text message =>
    have uses := turn.slot.client.toList_useAll (script turn.slot.client message turn.context)
    rw [← plays turn.slot.client message turn.context] at uses
    exact ⟨uses.1, uses.2⟩
  | ping payload => exact turn.queues_queueTelling .pong payload
  | close payload =>
    obtain ⟨fit, bytes⟩ := turn.queues_queueTelling .close (payload.take 2)
    exact ⟨fit, bytes⟩
  | cutOff violation => cases violation <;> exact nothing
  | binary | pong | accepted | refused | unanswered => exact nothing

/-- Frames that are read queue others, and may close the connection but do not end it. -/
theorem queues_readFramesTelling (plays : handler.Plays script) (now : Millis)
    (received : List UInt8) (connected : turn.slot.client.phase = .connected socket) :
    let told := (turn.readFramesTelling handler script socket now received).value
    told.1.2.slot.client.phase.Speaks socket ∧ turn.Queues (told.1.2, told.2) := by
  induction received using framesIn.induct generalizing turn with
  | case1 received error bad =>
    rw [readFramesTelling_of_error bad]
    exact ⟨.inl connected, List.forall_mem_nil _, (List.append_nil _).symm⟩
  | case2 received cut =>
    rw [readFramesTelling_of_partial cut]
    exact ⟨.inl connected, List.forall_mem_nil _, (List.append_nil _).symm⟩
  | case3 received header whole rest =>
    rename_i ih
    rw [readFramesTelling_of_frame whole]
    generalize Event.ofFrame header (header.payload received) = event
    dsimp only [Logged.value_bind]
    let ready : Turn C :=
      { turn with slot := { turn.slot with received := rest, lastActive := now } }
    have phase := ready.phase_perform plays.keepsPhase socket event
    rw [← fst_performTelling ready handler script] at phase
    obtain ⟨fit, bytes⟩ := ready.queues_performTelling plays socket event
    change (ready.performTelling handler script socket event).value.1.slot.client.phase = _ at phase
    generalize (ready.performTelling handler script socket event).value = performed at *
    rcases goes : event.goesOn with _ | _ | _
    · rw [goes, if_neg (by decide)] at phase
      exact ⟨.inl (phase.trans connected), fit, bytes⟩
    · rw [goes, if_pos rfl] at phase
      exact ⟨.inr phase, fit, bytes⟩
    · rw [goes, if_neg (by decide)] at phase
      obtain ⟨speaks, more, further⟩ := ih (phase.trans connected)
      refine ⟨speaks, List.forall_mem_append.mpr ⟨fit, more⟩, ?_⟩
      have total := further.trans (congrArg (· ++ _) bytes)
      dsimp only at total
      rw [List.append_assoc, ← ServerFrame.stream_append] at total
      exact total

theorem Queues.conserved {told : Turn C × List ServerFrame} (queues : turn.Queues told)
    (mute : Mute socket trace) :
    Conserved socket turn.slot.client.tx.toList told.2 trace told.1.slot.client.tx.toList where
  bytes := by rw [mute.taken, List.nil_append, queues.bytes]
  fit := queues.fit

theorem queues_keepAliveTelling (turn : Turn C) (settings : Settings) (now : Millis) :
    let told := (turn.keepAliveTelling settings now).value
    told.1.2.slot.client.phase = turn.slot.client.phase ∧ turn.Queues (told.1.2, told.2) := by
  have keeps := (turn.keeps_keepAlive settings now).phase
  rw [← fst_keepAliveTelling] at keeps
  refine ⟨keeps, ?_⟩
  unfold keepAliveTelling
  dsimp only
  split
  · exact ⟨nofun, (List.append_nil _).symm⟩
  · split
    · obtain ⟨fit, bytes⟩ := turn.queues_queueTelling .ping []
      exact ⟨fit, bytes⟩
    · exact ⟨nofun, (List.append_nil _).symm⟩

theorem passes_upkeepTelling {lawful : Bool} (speaks : turn.slot.client.phase.Speaks socket)
    (path : Path (turn.upkeepTelling settings now lawful) trace (after, frames)) :
    Passes socket turn.slot.client.tx.toList frames trace after.slot := by
  have closes {before : Turn C} {told : List ServerFrame} {rest : List Exchange}
      (held : before.slot.client.phase.socket = some socket)
      (path : Path (do return (← before.forceClose, told)) rest (after, frames)) :
      frames = told ∧ Passes socket before.slot.client.tx.toList [] rest after.slot := by
    rw [path_bind] at path
    obtain ⟨closing, last, ended, rfl, closed, path⟩ := path
    obtain ⟨rfl, same⟩ := path_done.mp path
    cases same
    rw [List.append_nil]
    exact ⟨rfl, passes_forceClose closed held _⟩
  unfold upkeepTelling at path
  cases lawful with
  | false =>
    obtain ⟨rfl, passes⟩ := closes speaks.held path
    exact passes
  | true =>
    simp only [Bool.not_true, Bool.false_eq_true, if_false] at path
    split at path
    · rw [path_lift_bind] at path
      obtain ⟨rest, rfl, path⟩ := path
      obtain ⟨phase, queues⟩ := turn.queues_keepAliveTelling settings now
      have still : (turn.keepAliveTelling settings now).value.1.2.slot.client.phase.Speaks
          socket := by
        rwa [phase]
      have mute : Mute socket (recorded (turn.keepAliveTelling settings now).records) :=
        .of_idle (idle_recorded _)
      have kept : Passes socket turn.slot.client.tx.toList
          (turn.keepAliveTelling settings now).value.2
          (recorded (turn.keepAliveTelling settings now).records)
          (turn.keepAliveTelling settings now).value.1.2.slot :=
        .kept still mute.finished (queues.conserved mute)
      split at path
      · obtain ⟨rfl, same⟩ := path_done.mp path
        cases same
        rw [List.append_nil]
        exact kept
      · obtain ⟨rfl, passes⟩ := closes still.held path
        have both :=
          kept.trans (fun _ => passes) fun vacant => absurd vacant (Slot.not_vacant still.held)
        rwa [List.append_nil] at both
    · obtain ⟨rfl, same⟩ := path_done.mp path
      cases same
      exact .of_mute ⟨rfl, rfl⟩ speaks

theorem idle_arrivals {space : Nat} {data : List UInt8}
    (path : Path (arrivals socket space) trace data) : Idle trace := by
  have asks : (arrivals socket space).Asks Effect.isIdle := by
    refine (asks_nic.mpr ⟨rfl, rfl⟩).bind fun waiting => ?_
    dsimp only
    split
    · exact (asks_nic.mpr ⟨rfl, rfl⟩).bind fun data => trivial
    · trivial
  exact path.effect_allowed asks

theorem passes_converseTelling (plays : handler.Plays script)
    (speaks : turn.slot.client.phase.Speaks socket)
    (path : Path (turn.converseTelling settings handler script now) trace (after, frames)) :
    Passes socket turn.slot.client.tx.toList frames trace after.slot := by
  unfold converseTelling at path
  rcases speaks with connected | closing
  · simp only [connected] at path
    rw [path_bind] at path
    obtain ⟨receiving, _, received, rfl, receives, path⟩ := path
    rw [receive, path_bind] at receives
    obtain ⟨arriving, last, data, rfl, arrives, received⟩ := receives
    obtain ⟨rfl, rfl⟩ := path_done.mp received
    rw [path_lift_bind] at path
    obtain ⟨_, rfl, path⟩ := path
    rw [path_bind] at path
    obtain ⟨keeping, last, ⟨ended, pings⟩, rfl, keeps, path⟩ := path
    obtain ⟨rfl, same⟩ := path_done.mp path
    cases same
    rw [List.append_nil, List.append_nil, ← List.append_assoc]
    obtain ⟨still, queues⟩ :=
      queues_readFramesTelling plays now (turn.slot.received ++ data) connected
    generalize turn.readFramesTelling handler script socket now (turn.slot.received ++ data) =
      told at *
    have mute : Mute socket (arriving ++ recorded told.records) :=
      .of_idle ((idle_arrivals arrives).append (idle_recorded _))
    have read := Passes.kept still mute.finished (queues.conserved mute)
    exact read.trans (fun speaks => passes_upkeepTelling speaks keeps)
      fun vacant => absurd vacant (Slot.not_vacant still.held)
  · simp only [closing] at path
    obtain ⟨rfl, same⟩ := path_done.mp path
    cases same
    exact .of_mute ⟨rfl, rfl⟩ (.inr closing)

/-- What is sent is the front of the ring, and what was taken of it is dropped there. -/
theorem conserved_send {tx : Ring} {count : Nat} {data : List UInt8}
    (front : data = tx.toList.take count) (taken : Fin (data.length + 1)) :
    Conserved socket tx.toList [] [⟨.call (.send socket data), taken⟩]
      (tx.consume taken).toList where
  bytes := by
    subst front
    have most : taken.val ≤ count := by
      have offered := tx.toList.length_take_le count
      omega
    rw [takenOn_cons, takenOn_nil, List.append_nil, Exchange.taken, if_pos rfl, List.take_take,
      Nat.min_eq_left most, tx.take_append_consume]
    simp
  fit := nofun

theorem conserved_transmit {chunks : Nat} {alive : Bool}
    (path : Path (turn.transmit settings socket now chunks) trace (alive, after)) :
    Conserved socket turn.slot.client.tx.toList [] trace after.slot.client.tx.toList ∧
      finishedOn socket trace = 0 := by
  induction chunks generalizing turn trace with
  | zero =>
    obtain ⟨rfl, same⟩ := path_done.mp path
    cases same
    exact ⟨.of_mute ⟨rfl, rfl⟩ _, rfl⟩
  | succ chunks ih =>
    cases sends_of_path path with
    | gaveUp | full | nothing => exact ⟨.of_mute ⟨rfl, rfl⟩ _, rfl⟩
    | @chunk free count data taken rest _ _ space front further =>
      have sent := @conserved_send socket _ _ _ (front.trans (turn.slot.client.tx.peek_eq _)) taken
      have asked : Conserved socket turn.slot.client.tx.toList []
          [⟨.call (.txFree socket), free⟩] turn.slot.client.tx.toList := .of_mute ⟨rfl, rfl⟩ _
      rcases further with ⟨rfl, rfl, rfl⟩ | path
      · exact ⟨asked.trans sent, rfl⟩
      · obtain ⟨further, open_⟩ := ih path
        exact ⟨asked.trans (sent.trans further), open_⟩

theorem passes_drain (speaks : turn.slot.client.phase.Speaks socket)
    (path : Path (turn.drain settings now) trace after) :
    Passes socket turn.slot.client.tx.toList [] trace after.slot := by
  rcases path_drain_cases path with
    ⟨rfl, rfl | rfl⟩ | ⟨own, moving, rest, alive, moved, held, rfl, transmits, ending⟩
  · exact .of_mute ⟨rfl, rfl⟩ speaks
  · exact .kept speaks rfl (.of_mute ⟨rfl, rfl⟩ _)
  · obtain rfl : own = socket := Option.some.inj (held.symm.trans speaks.held)
    obtain ⟨conserved, open_⟩ := conserved_transmit transmits
    have still : moved.slot.client.phase.Speaks own := by
      rwa [(path_transmit transmits).phase]
    have kept : Passes own turn.slot.client.tx.toList [] moving moved.slot :=
      .kept still open_ conserved
    rcases ending with ⟨rfl, rfl⟩ | closing
    · rw [List.append_nil]
      exact kept
    · exact kept.trans (fun _ => passes_forceClose closing still.held _)
        fun vacant => absurd vacant (Slot.not_vacant still.held)

/-- A connection is ended gracefully when nothing is queued any more. -/
theorem passes_finish (speaks : turn.slot.client.phase.Speaks socket)
    (path : Path turn.finish trace after) :
    Passes socket turn.slot.client.tx.toList [] trace after.slot := by
  have stays (same : after = turn) (empty : trace = []) :
      Passes socket turn.slot.client.tx.toList [] trace after.slot := by
    rw [same, empty]
    exact .of_mute ⟨rfl, rfl⟩ speaks
  unfold finish at path
  rcases speaks with connected | closing
  · simp only [connected] at path
    obtain ⟨empty, same⟩ := path_done.mp path
    exact stays same empty
  · simp only [closing] at path
    split at path
    · next sent =>
      rw [path_log_bind] at path
      obtain ⟨rest, rfl, path⟩ := path
      rw [Nic.disconnect, path_nic_bind] at path
      obtain ⟨_, rest, rfl, path⟩ := path
      obtain ⟨rfl, rfl⟩ := path_done.mp path
      rw [turn.slot.client.tx.isEmpty_iff.mp sent]
      exact .released rfl [] ⟨rfl, List.forall_mem_nil _⟩ fun _ => rfl
    · obtain ⟨empty, same⟩ := path_done.mp path
      exact stays same empty

/-- The parts of a turn behind the upgrade, one after the other. -/
theorem passes_speaking (plays : handler.Plays script) {conversed drained : Turn C}
    {talking sending ending : List Exchange} (speaks : turn.slot.client.phase.Speaks socket)
    (conversing : Path (turn.converseTelling settings handler script now) talking
      (conversed, frames))
    (draining : Path (conversed.drain settings now) sending drained)
    (finishing : Path drained.finish ending after) :
    Passes socket turn.slot.client.tx.toList frames (talking ++ (sending ++ ending))
      after.slot := by
  have moved (speaks : conversed.slot.client.phase.Speaks socket) :
      Passes socket conversed.slot.client.tx.toList [] (sending ++ ending) after.slot := by
    refine (passes_drain speaks draining).trans (fun speaks => passes_finish speaks finishing) ?_
    intro vacant
    obtain ⟨rfl, rfl⟩ := path_finish_of_vacant vacant finishing
    exact ⟨rfl, rfl, rfl⟩
  have whole := (passes_converseTelling plays speaks conversing).trans moved fun vacant => by
    obtain ⟨rfl, rfl⟩ := path_drain_of_vacant vacant draining
    obtain ⟨rfl, rfl⟩ := path_finish_of_vacant vacant finishing
    exact ⟨rfl, rfl, rfl⟩
  rwa [List.append_nil] at whole

end Turn

/-- The bytes of the response to an upgrade request with this key. -/
def response (key : String) : List UInt8 := Text.bytes (upgradeReply (acceptKey key))

/-- What the upgrade does with the bytes for a client that waits for it. -/
inductive Upgrades (socket : SocketId) (trace : List Exchange) (queued : Ring) (after : Slot) :
    Prop where
  | waits (mute : Mute socket trace) (upgrading : after.client.phase = .upgrading socket)
      (kept : after.client.tx = queued)
  | opened (key : String) (taken : takenOn socket trace = response key)
      (open_ : finishedOn socket trace = 0) (connected : after.client.phase = .connected socket)
      (kept : after.client.tx = queued)
  /-- The connection ended. The controller may have taken a part of the response. -/
  | refused (key : String) (part : takenOn socket trace <+: response key)
      (mute : finishedOn socket trace ≠ 0 → takenOn socket trace = []) (vacant : after.Vacant)

namespace Upgrades

variable {socket : SocketId} {trace later : List Exchange} {queued : Ring} {after : Slot}

theorem of_cut (mute : Mute socket trace) (vacant : after.Vacant) :
    Upgrades socket trace queued after :=
  .refused "" (by rw [mute.taken]; exact List.nil_prefix) (fun _ => mute.taken) vacant

theorem after_mute (upgrades : Upgrades socket later queued after) (mute : Mute socket trace) :
    Upgrades socket (trace ++ later) queued after := by
  obtain ⟨taken, finished⟩ := mute.before later
  cases upgrades with
  | waits quiet upgrading kept => exact .waits (mute.append quiet) upgrading kept
  | opened key whole open_ connected kept =>
    exact .opened key (taken.trans whole) (finished.trans open_) connected kept
  | refused key part silent vacant =>
    refine .refused key ?_ ?_ vacant
    · rwa [taken]
    · rwa [taken, finished]

end Upgrades

namespace Turn

variable {C : Type} {turn after : Turn C} {socket : SocketId} {settings : Settings}
  {handler : MessageHandler C} {script : Script C} {now : Millis} {trace : List Exchange}
  {frames : List ServerFrame}

/-- A response is taken whole, or the connection ends. -/
theorem upgrades_accept {rest : List UInt8} (held : turn.slot.client.phase.socket = some socket)
    (path : Path (turn.accept socket rest now) trace after) :
    Upgrades socket trace turn.slot.client.tx after.slot := by
  unfold accept at path
  cases found : turn.slot.upgrade.key with
  | none =>
    simp only [found, path_log_bind] at path
    obtain ⟨rest, rfl, path⟩ := path
    rw [Nic.disconnect, path_nic_bind] at path
    obtain ⟨_, rest, rfl, path⟩ := path
    obtain ⟨rfl, rfl⟩ := path_done.mp path
    exact .refused "" List.nil_prefix (fun _ => rfl) rfl
  | some key =>
    simp only [found] at path
    rw [← response] at path
    rw [Nic.send, path_nic_bind] at path
    obtain ⟨taken, rest, rfl, path⟩ := path
    have front : takenOn socket (⟨.call (.send socket (response key)), taken⟩ :: rest) =
        (response key).take taken ++ takenOn socket rest := by
      rw [takenOn_cons, Exchange.taken, if_pos rfl]
    split at path
    · rw [path_log_bind] at path
      obtain ⟨rest, rfl, path⟩ := path
      obtain ⟨rfl, reset⟩ := path_forceClose_of_held path held
      refine .refused key ?_ (fun finished => absurd rfl finished) ?_
      · rw [front]
        exact List.append_nil _ ▸ List.take_prefix _ _
      · rw [reset]
        rfl
    · next whole =>
      rw [path_log_bind] at path
      obtain ⟨rest, rfl, path⟩ := path
      obtain ⟨rfl, rfl⟩ := path_done.mp path
      refine .opened key ?_ rfl rfl rfl
      rw [front, List.take_of_length_le (Nat.le_of_not_lt whole)]
      exact List.append_nil _

theorem upgrades_awaitRequest (upgrading : turn.slot.client.phase = .upgrading socket)
    (path : Path (turn.awaitRequest settings now) trace after) :
    Upgrades socket trace turn.slot.client.tx after.slot := by
  unfold awaitRequest at path
  split at path
  · rw [path_log_bind] at path
    obtain ⟨rest, rfl, path⟩ := path
    have held : turn.countHandshakeFailure.slot.client.phase.socket = some socket :=
      congrArg Phase.socket upgrading
    obtain ⟨rfl, reset⟩ := path_forceClose_of_held path held
    refine .of_cut ⟨rfl, rfl⟩ ?_
    rw [reset]
    rfl
  · obtain ⟨rfl, rfl⟩ := path_done.mp path
    exact .waits ⟨rfl, rfl⟩ upgrading rfl

theorem upgrades_upgrade (upgrading : turn.slot.client.phase = .upgrading socket)
    (path : Path (turn.upgrade settings now) trace after) :
    Upgrades socket trace turn.slot.client.tx after.slot := by
  unfold upgrade at path
  simp only [upgrading] at path
  rw [path_bind] at path
  obtain ⟨arriving, _, data, rfl, arrives, path⟩ := path
  rw [path_lift_bind] at path
  obtain ⟨rest, rfl, path⟩ := path
  have mute : Mute socket (recorded (turn.slot.upgrade.feedAll data).records) :=
    .of_idle (idle_recorded _)
  have read : Upgrades socket rest turn.slot.client.tx after.slot := by
    split at path
    · have answered := upgrades_accept (by exact congrArg Phase.socket upgrading) path
      exact answered
    · have awaited := upgrades_awaitRequest (by exact upgrading) path
      exact awaited
  exact (read.after_mute mute).after_mute (.of_idle (idle_arrivals arrives))

theorem path_upgrade_of_ne (other : ∀ socket, turn.slot.client.phase ≠ .upgrading socket)
    (path : Path (turn.upgrade settings now) trace after) : trace = [] ∧ after = turn := by
  unfold upgrade at path
  cases phase : turn.slot.client.phase with
  | upgrading socket => exact absurd phase (other socket)
  | disconnected | connected | closing =>
    rw [phase] at path
    exact path_done.mp path

/-- A client that does not speak has nothing to read and nothing to send. -/
theorem path_rest_of_silent {conversed drained : Turn C} {talking sending ending : List Exchange}
    (silent : ∀ socket, ¬turn.slot.client.phase.Speaks socket)
    (conversing : Path (turn.converseTelling settings handler script now) talking
      (conversed, frames))
    (draining : Path (conversed.drain settings now) sending drained)
    (finishing : Path drained.finish ending after) :
    talking ++ (sending ++ ending) = [] ∧ frames = [] ∧ after = turn := by
  cases phase : turn.slot.client.phase with
  | connected socket => exact absurd (.inl phase) (silent socket)
  | closing socket => exact absurd (.inr phase) (silent socket)
  | disconnected | upgrading =>
    rw [converseTelling, phase] at conversing
    obtain ⟨rfl, same⟩ := path_done.mp conversing
    cases same
    rw [drain, phase] at draining
    obtain ⟨rfl, rfl⟩ := path_done.mp draining
    rw [finish, phase] at finishing
    obtain ⟨rfl, rfl⟩ := path_done.mp finishing
    exact ⟨rfl, rfl, rfl⟩

end Turn

end BoardNet.WebSocket
