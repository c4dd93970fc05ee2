import BoardNet.Proofs.Shift.Clock
import BoardNet.Proofs.WebSocket.Listening
import BoardNet.Proofs.WebSocket.Outflow

namespace BoardNet.WebSocket

open Poll

namespace FrameHeader

private theorem length_of_complete_none {first : UInt8} {payloadLength capacity : Nat}
    {rest : List UInt8} (before : Nat)
    (cut : complete first (before + 4) payloadLength capacity rest = .ok none) :
    before + rest.length < capacity := by
  unfold complete at cut
  dsimp only at cut
  split at cut
  · cases cut
  · next fits =>
    rcases rest with _ | ⟨a, _ | ⟨b, _ | ⟨c, _ | ⟨d, payload⟩⟩⟩⟩
    · simp only [List.length_nil]
      omega
    · simp only [List.length_cons, List.length_nil]
      omega
    · simp only [List.length_cons, List.length_nil]
      omega
    · simp only [List.length_cons, List.length_nil]
      omega
    · dsimp only at cut
      split at cut
      · simp only [List.length_cons]
        omega
      · cases cut

private theorem length_of_short {bytes : List UInt8}
    (short : ∀ first second rest, bytes = first :: second :: rest → False) : bytes.length < 2 := by
  rcases bytes with _ | ⟨first, _ | ⟨second, rest⟩⟩
  · exact Nat.zero_lt_succ 1
  · exact Nat.lt_succ_self 1
  · exact (short first second rest rfl).elim

/-- A frame that is still to come fits behind what is there. -/
theorem length_of_parse_none {buffer : List UInt8}
    (cut : parse buffer receiveCapacity = .ok none) : buffer.length < receiveCapacity := by
  unfold parse at cut
  split at cut
  · next first second rest =>
    dsimp only at cut
    split at cut
    · cases cut
    · split at cut
      · cases cut
      · split at cut
        · split at cut
          · have fits := length_of_complete_none 4 cut
            simp only [List.length_cons]
            omega
          · next short =>
            have few := length_of_short short
            simp only [List.length_cons, receiveCapacity]
            omega
        · have fits := length_of_complete_none 2 cut
          simp only [List.length_cons]
          omega
  · next short => exact (length_of_short short).trans (by decide)

end FrameHeader

/-- The limits of a client are kept at `now`, and there is space to read more from it. -/
structure Slot.Timely (settings : Settings) (now : Millis) (slot : Slot) : Prop where
  handshake : ∀ socket, slot.client.phase = .upgrading socket →
    elapsed now slot.since ≤ settings.handshakeTimeout
  active : ∀ socket, slot.client.phase = .connected socket →
    elapsed now slot.lastActive ≤ settings.idleTimeout
  pinged : ∀ socket, slot.client.phase = .connected socket →
    elapsed now slot.lastPing ≤ settings.pingInterval
  taking : ∀ since, slot.stalledSince = some since → elapsed now since ≤ settings.stallTimeout
  space : ∀ socket, slot.client.phase = .upgrading socket ∨ slot.client.phase = .connected socket →
    slot.received.length < receiveCapacity

namespace Slot

/-- What is true of a client at all times: nothing is received before the upgrade, and a peer is
only found to stall while frames are sent to it. -/
structure Poised (settings : Settings) (slot : Slot) : Prop where
  unread : ∀ socket, slot.client.phase = .upgrading socket → slot.received = []
  flowing : slot.stalledSince ≠ none →
    (∃ socket, slot.client.phase.Speaks socket) ∧ settings.chunksPerPoll ≠ 0

structure Awaited (settings : Settings) (now : Millis) (slot : Slot) : Prop extends
    Poised settings slot where
  handshake : ∀ socket, slot.client.phase = .upgrading socket →
    elapsed now slot.since ≤ settings.handshakeTimeout

structure Tended (settings : Settings) (now : Millis) (slot : Slot) : Prop extends
    Awaited settings now slot where
  active : ∀ socket, slot.client.phase = .connected socket →
    elapsed now slot.lastActive ≤ settings.idleTimeout
  pinged : ∀ socket, slot.client.phase = .connected socket →
    elapsed now slot.lastPing ≤ settings.pingInterval
  space : ∀ socket, slot.client.phase = .connected socket →
    slot.received.length < receiveCapacity

/-- A peer takes what it is sent, or has not stalled for too long. -/
def Taking (settings : Settings) (now : Millis) (slot : Slot) : Prop :=
  ∀ since, slot.stalledSince = some since → elapsed now since ≤ settings.stallTimeout

variable {settings : Settings} {now : Millis} {slot before after : Slot}

/-- Only an upgrading client is waited for with its upgrade. -/
theorem Poised.awaited (poised : slot.Poised settings)
    (other : ∀ socket, slot.client.phase ≠ .upgrading socket) : slot.Awaited settings now where
  toPoised := poised
  handshake := fun socket upgrading => absurd upgrading (other socket)

/-- Only a connected client is to be heard of and pinged. -/
theorem Awaited.tended (awaited : slot.Awaited settings now)
    (other : ∀ socket, slot.client.phase ≠ .connected socket) : slot.Tended settings now where
  toAwaited := awaited
  active := fun socket connected => absurd connected (other socket)
  pinged := fun socket connected => absurd connected (other socket)
  space := fun socket connected => absurd connected (other socket)

theorem Cleared.disconnected (cleared : slot.Cleared) : slot.client.phase = .disconnected := by
  obtain ⟨before, rfl⟩ := cleared
  rfl

theorem Cleared.poised (cleared : slot.Cleared) : slot.Poised settings := by
  obtain ⟨before, rfl⟩ := cleared
  exact ⟨nofun, fun stalled => absurd rfl stalled⟩

theorem Cleared.tended (cleared : slot.Cleared) : slot.Tended settings now :=
  (cleared.poised.awaited fun _ => by simp [cleared.disconnected]).tended
    fun _ => by simp [cleared.disconnected]

theorem taking_of_none (none : slot.stalledSince = none) : slot.Taking settings now := by
  intro since stalled
  rw [none] at stalled
  cases stalled

theorem Cleared.taking (cleared : slot.Cleared) : slot.Taking settings now := by
  obtain ⟨before, rfl⟩ := cleared
  exact taking_of_none rfl

theorem Tended.timely (tended : slot.Tended settings now) (taking : slot.Taking settings now) :
    slot.Timely settings now where
  handshake := tended.handshake
  active := tended.active
  pinged := tended.pinged
  taking := taking
  space := by
    rintro socket (upgrading | connected)
    · rw [tended.unread socket upgrading]
      decide
    · exact tended.space socket connected

theorem poised_attach (slot : Slot) (socket : SocketId) (remote : Ipv4) (now : Millis) :
    (slot.attach socket remote now).Poised settings :=
  ⟨fun _ _ => rfl, fun stalled => absurd rfl stalled⟩

/-- Only the queue and the beginning of a stall are other than before. -/
structure Moved (before after : Slot) : Prop where
  phase : after.client.phase = before.client.phase
  since : after.since = before.since
  lastActive : after.lastActive = before.lastActive
  lastPing : after.lastPing = before.lastPing
  received : after.received = before.received

theorem Moved.tended (moved : before.Moved after) (tended : before.Tended settings now)
    (flowing : after.stalledSince ≠ none →
      (∃ socket, before.client.phase.Speaks socket) ∧ settings.chunksPerPoll ≠ 0) :
    after.Tended settings now := by
  refine ⟨⟨⟨?_, ?_⟩, ?_⟩, ?_, ?_, ?_⟩
  · rw [moved.phase, moved.received]
    exact tended.unread
  · rw [moved.phase]
    exact flowing
  · rw [moved.phase, moved.since]
    exact tended.handshake
  · rw [moved.phase, moved.lastActive]
    exact tended.active
  · rw [moved.phase, moved.lastPing]
    exact tended.pinged
  · rw [moved.phase, moved.received]
    exact tended.space

end Slot

namespace Turn

variable {C : Type} {turn after : Turn C} {socket : SocketId} {settings : Settings}
  {handler : MessageHandler C} {now : Millis} {trace : List Exchange}

theorem cleared_forceClose (path : Path turn.forceClose trace after) : after.slot.Cleared := by
  unfold forceClose at path
  cases found : turn.slot.client.phase.socket with
  | none =>
    rw [found] at path
    obtain ⟨-, rfl⟩ := path_done.mp path
    exact ⟨turn.slot, rfl⟩
  | some socket =>
    rw [found] at path
    obtain ⟨_, _, -, path⟩ := path_nic_bind.mp path
    obtain ⟨-, rfl⟩ := path_done.mp path
    exact ⟨turn.slot, rfl⟩

theorem cleared_checkPeer (held : turn.slot.client.phase.socket = some socket)
    (path : Path (turn.checkPeer socket) trace after) : after.slot.Cleared ∨ after = turn :=
  (path_checkPeer_cases path).2.imp_left fun vacant => (letGo_checkPeer path held vacant).cleared

theorem awaited_accept {rest : List UInt8} (still : turn.slot.stalledSince = none)
    (path : Path (turn.accept socket rest now) trace after) :
    after.slot.Awaited settings now := by
  unfold accept at path
  cases found : turn.slot.upgrade.key with
  | none =>
    simp only [found, path_log_bind] at path
    obtain ⟨rest, rfl, path⟩ := path
    rw [Nic.disconnect, path_nic_bind] at path
    obtain ⟨_, rest, rfl, path⟩ := path
    obtain ⟨-, rfl⟩ := path_done.mp path
    exact (Slot.Cleared.tended ⟨turn.slot, rfl⟩).toAwaited
  | some key =>
    simp only [found] at path
    generalize Text.bytes (upgradeReply (acceptKey key)) = reply at path
    rw [Nic.send, path_nic_bind] at path
    obtain ⟨taken, rest, rfl, path⟩ := path
    split at path
    · rw [path_log_bind] at path
      obtain ⟨rest, rfl, path⟩ := path
      exact (cleared_forceClose path).tended.toAwaited
    · rw [path_log_bind] at path
      obtain ⟨rest, rfl, path⟩ := path
      obtain ⟨-, rfl⟩ := path_done.mp path
      refine ⟨⟨fun _ upgrading => ?_, fun stalled => absurd still stalled⟩, fun _ upgrading => ?_⟩
      · cases upgrading
      · cases upgrading

/-- After its upgrade request was read a client is not late with it. -/
theorem awaited_upgrade (poised : turn.slot.Poised settings)
    (path : Path (turn.upgrade settings now) trace after) : after.slot.Awaited settings now := by
  unfold upgrade at path
  cases phase : turn.slot.client.phase with
  | disconnected | connected | closing =>
    rw [phase] at path
    obtain ⟨-, rfl⟩ := path_done.mp path
    refine ⟨poised, fun socket upgrading => ?_⟩
    rw [phase] at upgrading
    cases upgrading
  | upgrading own =>
    have still : turn.slot.stalledSince = none := Decidable.not_not.mp fun stalled => by
      obtain ⟨⟨socket, speaks⟩, -⟩ := poised.flowing stalled
      rw [phase] at speaks
      exact Phase.not_speaks_upgrading speaks
    simp only [phase] at path
    rw [path_bind] at path
    obtain ⟨_, _, data, rfl, -, path⟩ := path
    rw [path_lift_bind] at path
    obtain ⟨_, -, path⟩ := path
    split at path
    · refine awaited_accept ?_ path
      exact still
    · unfold awaitRequest at path
      split at path
      · rw [path_log_bind] at path
        obtain ⟨rest, rfl, path⟩ := path
        exact (cleared_forceClose path).tended.toAwaited
      · next early =>
        obtain ⟨-, rfl⟩ := path_done.mp path
        exact ⟨⟨poised.unread, poised.flowing⟩, fun _ _ => UInt32.not_lt.mp early⟩

/-- An event changes nothing of a slot but the client. -/
theorem exists_perform_eq (handler : MessageHandler C) (turn : Turn C) (socket : SocketId)
    (event : Event) :
    ∃ client, (turn.perform handler socket event).value.slot = { turn.slot with client } := by
  cases event with
  | cutOff violation => cases violation <;> exact ⟨_, rfl⟩
  | text | ping | close | binary | pong | accepted | refused | unanswered => exact ⟨_, rfl⟩

/-- After frames were read there is space for more, unless the peer is closing. -/
theorem space_readFrames (keeps : handler.KeepsPhase) (now : Millis) (received : List UInt8)
    (connected : turn.slot.client.phase = .connected socket) :
    let read := (turn.readFrames handler socket now received).value
    read.2.slot.stalledSince = turn.slot.stalledSince ∧
      (read.1 = true →
        read.2.slot.client.phase = .connected socket ∧
            read.2.slot.received.length < receiveCapacity ∨
          read.2.slot.client.phase = .closing socket) := by
  induction received using framesIn.induct generalizing turn with
  | case1 received error bad =>
    rw [readFrames_of_error bad]
    exact ⟨rfl, fun lawful => absurd lawful Bool.false_ne_true⟩
  | case2 received cut =>
    rw [readFrames_of_partial cut]
    exact ⟨rfl, fun _ => .inl ⟨connected, FrameHeader.length_of_parse_none cut⟩⟩
  | case3 received header whole rest =>
    rename_i ih
    rw [readFrames_of_frame whole]
    generalize Event.ofFrame header (header.payload received) = event
    dsimp only [Logged.value_bind]
    let ready : Turn C :=
      { turn with slot := { turn.slot with received := rest, lastActive := now } }
    have phase := ready.phase_perform keeps socket event
    obtain ⟨client, slot⟩ := ready.exists_perform_eq handler socket event
    have still : (ready.perform handler socket event).value.slot.stalledSince =
        turn.slot.stalledSince := by rw [slot]
    generalize (ready.perform handler socket event).value = performed at *
    rcases goes : event.goesOn with _ | _ | _
    · exact ⟨still, fun lawful => absurd lawful Bool.false_ne_true⟩
    · rw [goes, if_pos rfl] at phase
      exact ⟨still, fun _ => .inr phase⟩
    · rw [goes, if_neg (by decide)] at phase
      obtain ⟨same, space⟩ := ih (phase.trans connected)
      exact ⟨same.trans still, space⟩

/-- A client that is kept alive was heard of and pinged in time. -/
theorem keepAlive_spec (turn : Turn C) (settings : Settings) (now : Millis) :
    let kept := (turn.keepAlive settings now).value
    turn.slot.Keeps kept.2.slot ∧ kept.2.slot.stalledSince = turn.slot.stalledSince ∧
      (kept.1 = true → elapsed now kept.2.slot.lastActive ≤ settings.idleTimeout ∧
        elapsed now kept.2.slot.lastPing ≤ settings.pingInterval) := by
  refine ⟨turn.keeps_keepAlive settings now, ?_⟩
  unfold keepAlive
  dsimp only
  split
  · exact ⟨rfl, nofun⟩
  · next heard =>
    split
    · exact ⟨rfl, fun _ => ⟨UInt32.not_lt.mp heard, elapsed_self_le now _⟩⟩
    · next pinged =>
      exact ⟨rfl, fun _ => ⟨UInt32.not_lt.mp heard, UInt32.not_lt.mp pinged⟩⟩

/-- A client that was read from and kept alive keeps its limits, or is gone. -/
theorem tended_upkeep {lawful : Bool} (flowing : turn.slot.stalledSince ≠ none →
      settings.chunksPerPoll ≠ 0)
    (read : lawful = true → turn.slot.client.phase = .connected socket ∧
        turn.slot.received.length < receiveCapacity ∨ turn.slot.client.phase = .closing socket)
    (path : Path (turn.upkeep settings now lawful) trace after) :
    after.slot.Tended settings now := by
  unfold upkeep at path
  cases lawful with
  | false => exact (cleared_forceClose path).tended
  | true =>
    simp only [Bool.not_true, Bool.false_eq_true, if_false] at path
    rcases read rfl with ⟨connected, space⟩ | closing
    · have open_ : turn.slot.client.isConnected = true := by rw [Client.isConnected, connected]
      rw [if_pos open_, path_lift_bind] at path
      obtain ⟨rest, -, path⟩ := path
      obtain ⟨kept, still, inTime⟩ := turn.keepAlive_spec settings now
      split at path
      · next alive =>
        obtain ⟨-, rfl⟩ := path_done.mp path
        obtain ⟨active, pinged⟩ := inTime alive
        have phase := kept.phase.trans connected
        refine ⟨⟨⟨fun own upgrading => ?_, fun stalled => ?_⟩, fun own upgrading => ?_⟩,
          fun _ _ => active, fun _ _ => pinged, fun _ _ => ?_⟩
        · rw [phase] at upgrading
          cases upgrading
        · rw [still] at stalled
          exact ⟨⟨socket, .inl phase⟩, flowing stalled⟩
        · rw [phase] at upgrading
          cases upgrading
        · rw [kept.received]
          exact space
      · exact (cleared_forceClose path).tended
    · have shut : turn.slot.client.isConnected = false := by rw [Client.isConnected, closing]
      rw [shut, if_neg Bool.false_ne_true] at path
      obtain ⟨-, rfl⟩ := path_done.mp path
      have upgrading (own : SocketId) : after.slot.client.phase ≠ .upgrading own := by
        simp [closing]
      have poised : after.slot.Poised settings :=
        ⟨fun own other => absurd other (upgrading own),
          fun stalled => ⟨⟨socket, .inr closing⟩, flowing stalled⟩⟩
      exact (poised.awaited upgrading).tended fun _ => by simp [closing]

theorem tended_converse (keeps : handler.KeepsPhase) (awaited : turn.slot.Awaited settings now)
    (path : Path (turn.converse settings handler now) trace after) :
    after.slot.Tended settings now := by
  unfold converse at path
  cases phase : turn.slot.client.phase with
  | disconnected | upgrading | closing =>
    rw [phase] at path
    obtain ⟨-, rfl⟩ := path_done.mp path
    exact awaited.tended fun _ => by simp [phase]
  | connected socket =>
    simp only [phase] at path
    rw [path_bind] at path
    obtain ⟨_, _, received, -, -, path⟩ := path
    rw [path_lift_bind] at path
    obtain ⟨_, -, path⟩ := path
    obtain ⟨still, read⟩ := space_readFrames keeps now received phase
    refine tended_upkeep (fun stalled => ?_) read path
    rw [still] at stalled
    exact (awaited.flowing stalled).2

/-- Sending ends with a peer that takes what it is sent or has not stalled for too long, if it is
still to be waited for. -/
theorem moved_transmit {chunks : Nat} {alive : Bool}
    (path : Path (turn.transmit settings socket now chunks) trace (alive, after)) :
    turn.slot.Moved after.slot ∧ (chunks = 0 → after = turn) ∧
      (chunks ≠ 0 ∨ turn.slot.stalledSince = none → alive = true →
        after.slot.Taking settings now) := by
  induction chunks generalizing turn trace with
  | zero =>
    obtain ⟨-, same⟩ := path_done.mp path
    cases same
    refine ⟨⟨rfl, rfl, rfl, rfl, rfl⟩, fun _ => rfl, fun still _ => ?_⟩
    exact Slot.taking_of_none (still.resolve_left fun some => some rfl)
  | succ chunks ih =>
    -- Once the controller had space the old stall is over, so the other chunks begin without one.
    have some : chunks + 1 = 0 → after = turn := fun none => absurd none (Nat.succ_ne_zero chunks)
    have flows : (turn.withStall none).slot.Taking settings now := Slot.taking_of_none rfl
    cases sends_of_path path with
    | gaveUp =>
      exact ⟨⟨rfl, rfl, rfl, rfl, rfl⟩, some, fun _ alive => absurd alive Bool.false_ne_true⟩
    | full early =>
      refine ⟨⟨rfl, rfl, rfl, rfl, rfl⟩, some, fun _ _ since stalled => ?_⟩
      cases stalled
      exact UInt32.not_lt.mp early
    | nothing => exact ⟨⟨rfl, rfl, rfl, rfl, rfl⟩, some, fun _ _ => flows⟩
    | chunk taken space front further =>
      rcases further with ⟨-, -, rfl⟩ | path
      · exact ⟨⟨rfl, rfl, rfl, rfl, rfl⟩, some, fun _ _ => flows⟩
      · obtain ⟨moved, -, taking⟩ := ih path
        exact ⟨⟨moved.phase, moved.since, moved.lastActive, moved.lastPing, moved.received⟩,
          some, fun _ => taking (.inr rfl)⟩

/-- After what is queued was moved a client has not stalled for too long. -/
theorem tended_drain (tended : turn.slot.Tended settings now)
    (path : Path (turn.drain settings now) trace after) :
    after.slot.Tended settings now ∧ after.slot.Taking settings now := by
  unfold drain at path
  cases phase : turn.slot.client.phase with
  | disconnected | upgrading own =>
    simp only [phase] at path
    obtain ⟨-, rfl⟩ := path_done.mp path
    refine ⟨tended, Slot.taking_of_none (Decidable.not_not.mp fun stalled => ?_)⟩
    obtain ⟨⟨socket, speaks⟩, -⟩ := tended.flowing stalled
    rw [phase] at speaks
    rcases speaks with other | other <;> cases other
  | connected socket | closing socket =>
    have speaks : ∃ socket, turn.slot.client.phase.Speaks socket :=
      ⟨socket, by rw [phase]; first | exact .inl rfl | exact .inr rfl⟩
    simp only [phase] at path
    split at path
    · obtain ⟨-, rfl⟩ := path_done.mp path
      have moved : turn.slot.Moved (turn.withStall none).slot := ⟨rfl, rfl, rfl, rfl, rfl⟩
      exact ⟨moved.tended tended fun stalled => absurd rfl stalled, Slot.taking_of_none rfl⟩
    · rw [path_bind] at path
      obtain ⟨_, _, ⟨alive, sent⟩, -, transmits, path⟩ := path
      obtain ⟨moved, unsent, taking⟩ := moved_transmit transmits
      cases alive with
      | false =>
        have cleared := cleared_forceClose path
        exact ⟨cleared.tended, cleared.taking⟩
      | true =>
        obtain ⟨-, rfl⟩ := path_done.mp path
        by_cases some : settings.chunksPerPoll = 0
        · -- nothing is sent at all, and so nobody was ever found to stall
          have still : turn.slot.stalledSince = none :=
            Decidable.not_not.mp fun stalled => (tended.flowing stalled).2 some
          have same := unsent (by rw [some]; rfl)
          refine ⟨moved.tended tended fun stalled => ?_, taking (.inr still) rfl⟩
          rw [same] at stalled
          exact absurd still stalled
        · have chunks : settings.chunksPerPoll.toNat ≠ 0 := fun none =>
            some (UInt8.toNat_inj.mp none)
          exact ⟨moved.tended tended fun _ => ⟨speaks, some⟩, taking (.inl chunks) rfl⟩

theorem cleared_finish (path : Path turn.finish trace after) :
    after.slot.Cleared ∨ after = turn := by
  unfold finish at path
  cases phase : turn.slot.client.phase with
  | closing socket =>
    simp only [phase] at path
    split at path
    · rw [path_log_bind] at path
      obtain ⟨rest, rfl, path⟩ := path
      rw [Nic.disconnect, path_nic_bind] at path
      obtain ⟨_, rest, rfl, path⟩ := path
      obtain ⟨-, rfl⟩ := path_done.mp path
      exact .inl ⟨turn.slot, rfl⟩
    · exact .inr (path_done.mp path).2
  | disconnected | upgrading socket | connected socket =>
    simp only [phase] at path
    exact .inr (path_done.mp path).2

/-- After its turn a client keeps all its limits. -/
theorem tended_service (keeps : handler.KeepsPhase) (poised : turn.slot.Poised settings)
    (path : Path (turn.service settings handler now) trace after) :
    after.slot.Tended settings now ∧ after.slot.Taking settings now := by
  unfold service at path
  cases held : turn.slot.client.phase.socket with
  | none =>
    rw [held] at path
    obtain ⟨-, rfl⟩ := path_done.mp path
    have vacant := Phase.socket_eq_none.mp held
    have awaited : after.slot.Awaited settings now := poised.awaited fun _ => by simp [vacant]
    refine ⟨awaited.tended fun _ => by simp [vacant],
      Slot.taking_of_none (Decidable.not_not.mp fun stalled => ?_)⟩
    obtain ⟨⟨socket, speaks⟩, -⟩ := poised.flowing stalled
    exact Slot.Vacant.not_speaks vacant socket speaks
  | some socket =>
    simp only [held] at path
    obtain ⟨_, _, present, -, checked, path⟩ := path_bind.mp path
    obtain ⟨_, _, upgraded, -, upgrading, path⟩ := path_bind.mp path
    obtain ⟨_, _, conversed, -, conversing, path⟩ := path_bind.mp path
    obtain ⟨_, _, drained, -, draining, finishing⟩ := path_bind.mp path
    have present_poised : present.slot.Poised settings := by
      rcases cleared_checkPeer held checked with cleared | rfl
      · exact cleared.poised
      · exact poised
    have tended := tended_converse keeps (awaited_upgrade present_poised upgrading) conversing
    have drained := tended_drain tended draining
    rcases cleared_finish finishing with cleared | rfl
    · exact ⟨cleared.tended, cleared.taking⟩
    · exact drained

end Turn

namespace Server

variable {C : Type} {handler : MessageHandler C} {server before after : Server}
  {network : Link.Status} {context left : C} {now : Millis} {trace : List Exchange}
  {ids : List (Fin maxClients)} {given : Fin maxClients → Prop}

/-- Every client is poised for its turn. -/
def Poised (server : Server) : Prop := ∀ id, (server.slots.get id).Poised server.settings

theorem timely_serviceAll (keeps : handler.KeepsPhase) (poised : server.Poised)
    (path : Path (serviceAll handler now ids server context) trace (after, left)) :
    after.settings = server.settings ∧ after.Poised ∧
      (∀ id, id ∉ ids → after.slots.get id = server.slots.get id) ∧
      ∀ id ∈ ids, (after.slots.get id).Timely server.settings now := by
  induction ids generalizing server context trace with
  | nil =>
    obtain ⟨-, same⟩ := path_done.mp path
    cases same
    exact ⟨rfl, poised, fun _ _ => rfl, nofun⟩
  | cons first ids ih =>
    obtain ⟨_, _, ended, -, turned, path⟩ := path_bind.mp path
    obtain ⟨tended, taking⟩ := Turn.tended_service keeps (poised first) turned
    have between : Poised { server.setSlot first ended.slot with stats := ended.stats } := by
      intro id
      change ((server.slots.set first ended.slot first.isLt).get id).Poised server.settings
      by_cases own : first = id
      · subst own
        rw [get_set_self]
        exact tended.toPoised
      · rw [get_set_other own]
        exact poised id
    obtain ⟨settings, still, spared, timely⟩ := ih between path
    refine ⟨settings, still, fun id out => ?_, fun id member => ?_⟩
    · obtain ⟨different, later⟩ := not_or.mp (mt List.mem_cons.mpr out)
      exact (spared id later).trans (get_set_other (Ne.symm different))
    · by_cases later : id ∈ ids
      · exact timely id later
      · obtain rfl := (List.mem_cons.mp member).resolve_right later
        rw [spared id later]
        exact get_set_self.symm ▸ tended.timely taking

theorem poised_takenOver {settings : Settings} {slots taken : Vector Slot maxClients}
    (takenOver : TakenOver now slots taken) (poised : ∀ id, (slots.get id).Poised settings) :
    ∀ id, (taken.get id).Poised settings := by
  induction takenOver with
  | none => exact poised
  | @one slots after first socket remote vacant free rest ih =>
    refine ih fun id => ?_
    by_cases own : first = id
    · subst own
      rw [get_set_self]
      exact Slot.poised_attach ..
    · rw [get_set_other own]
      exact poised id

theorem poised_accept (poised : server.Poised) (path : Path (server.accept now) trace after) :
    after.settings = server.settings ∧ after.Poised := by
  have settings := settings_accept path
  refine ⟨settings, ?_⟩
  rw [Poised, settings]
  exact poised_takenOver (path_accept path).1 poised

/-- An update with the network up leaves every client within its limits. -/
theorem timely_update (keeps : handler.KeepsPhase) (poised : server.Poised)
    (path : Path (server.update handler network context now) trace (after, left)) :
    after.Poised ∧ ∀ rest, trace = ⟨.call .linkStatus, .on⟩ :: rest → network.ready = true →
      ∀ id, (after.slots.get id).Timely server.settings now := by
  rw [update_eq_updateBy] at path
  obtain ⟨link, rest, rfl, ⟨⟨reason, vacated, dropping, same⟩, down⟩ |
    ⟨-, admitted, _, _, -, accepting, serving⟩⟩ := path_updateBy path
  · cases same
    constructor
    · intro id
      rw [settings_dropAll dropping]
      rcases (dropped (List.nodup_finRange maxClients) dropping).2 id with ⟨-, cleared⟩ | ⟨kept, -⟩
      · exact cleared.poised
      · rw [kept]
        exact poised id
    · intro _ split ready
      cases split
      exact absurd ⟨rfl, ready⟩ down
  · obtain ⟨settings, ready⟩ := poised_accept poised accepting
    obtain ⟨-, still, -, timely⟩ := timely_serviceAll keeps ready serving
    rw [settings] at timely
    exact ⟨still, fun _ _ _ id => timely id (List.mem_finRange id)⟩

theorem Reachable.poised (keeps : handler.KeepsPhase)
    (reachable : Reachable handler server given) : server.Poised := by
  induction reachable with
  | fresh settings =>
    intro id
    have slot : ({ settings } : Server).slots.get id = { client := { id } } :=
      Vector.getElem_ofFn id.isLt
    rw [slot]
    exact ⟨nofun, fun stalled => absurd rfl stalled⟩
  | updated reachable path ih => exact (timely_update keeps ih path).1
  | used reachable used ih =>
    intro id
    have phase := used.phase id
    obtain ⟨unread, flowing⟩ := ih id
    rw [← phase] at unread flowing
    rw [used.settings]
    have slot := used.slots id
    constructor
    · intro socket upgrading
      rw [slot]
      exact unread socket upgrading
    · intro stalled
      refine flowing ?_
      rw [slot] at stalled
      exact stalled

/-- No client holds its slot past a limit. In every state that a server can come to, after an update
with the cable in and the network ready, every client that is still upgrading is within the time for
it, every connected one was heard of and pinged in time, no peer that takes nothing has done so for
too long, and there is space to read more from every client that is read from. -/
theorem clients_timely (keeps : handler.KeepsPhase) (reachable : Reachable handler server given)
    (ready : network.ready = true)
    (path : Path (server.update handler network context now)
      (⟨.call .linkStatus, .on⟩ :: trace) (after, left)) (id : Fin maxClients) :
    (after.slots.get id).Timely server.settings now :=
  (timely_update keeps (reachable.poised keeps) path).2 trace rfl ready id

open Sim in
/-- A peer that sends nothing is waited for until the very end of the time for its upgrade. -/
theorem timely_at_last_moment :
    let ran := (takenOver.update Session.indifferent steadyLink () 5000).run Rig.chip
      { nic := called }
    (ran.value.1.client ⟨0, by decide⟩).phase = .upgrading ⟨0, by decide⟩ ∧
      elapsed 5000 (ran.value.1.slots.get ⟨0, by decide⟩).since = 5000 ∧
      ∀ id, (ran.value.1.slots.get id).Timely takenOver.settings 5000 := by
  have keeps : Session.indifferent.KeepsPhase := fun _ _ _ => rfl
  have reachable : Reachable Session.indifferent takenOver _ :=
    .updated (.fresh {}) (path_run Rig.chip _ { nic := called })
  intro ran
  have path := path_run Rig.chip (takenOver.update Session.indifferent steadyLink () 5000)
    { nic := called }
  refine ⟨by decide +kernel, by decide +kernel, ?_⟩
  exact clients_timely keeps reachable rfl path

end Server

end BoardNet.WebSocket
