import BoardNet.Proofs.WebSocket.Deadlines

/-!
What a turn does about a peer that takes nothing. Before each chunk the controller is asked for
space: the peer stalls from when there is none, and no longer once there is some, whether or not any
byte is taken then. A client is cut off in the turn that begins to send and finds no space for too
long.
-/

namespace BoardNet.WebSocket

open Poll

/-- Since when there is no space, after another look at `now`. -/
def lookForRoom {Time : Type} (now : Time) (since : Option Time) (room : Nat) : Option Time :=
  if room = 0 then some (since.getD now) else none

/-- Since when there is no space, after the looks of a turn at `now`. When nobody looked there was
nothing to send. -/
def stalledBy {Time : Type} (now : Time) (since : Option Time) (rooms : List Nat) : Option Time :=
  if rooms = [] then none else rooms.foldl (lookForRoom now) since

/-- The socket was closed once its space had been asked for. -/
def cutOff (socket : SocketId) : List Exchange → Bool
  | [] => false
  | exchange :: trace =>
    if exchange.effect = .call (.txFree socket) then
      trace.any (·.effect = .call (.close socket))
    else cutOff socket trace

section Looks

variable {Time : Type} {now : Time} {since : Option Time} {rooms : List Nat}

/-- A stall that begins at some time is no older at that time. -/
theorem foldl_lookForRoom (rooms : List Nat) (young : since = none ∨ since = some now) :
    rooms.foldl (lookForRoom now) since = none ∨
      rooms.foldl (lookForRoom now) since = some now := by
  induction rooms generalizing since with
  | nil => exact young
  | cons room rooms ih =>
    refine ih ?_
    unfold lookForRoom
    split
    · rcases young with rfl | rfl <;> exact .inr rfl
    · exact .inl rfl

/-- Where there is no space an old stall goes on. -/
theorem foldl_lookForRoom_of_full (old : Time) (full : ∀ room ∈ rooms, room = 0) :
    rooms.foldl (lookForRoom now) (some old) = some old := by
  induction rooms with
  | nil => rfl
  | cons room rooms ih =>
    obtain ⟨rfl, rest⟩ := List.forall_mem_cons.mp full
    exact ih rest

/-- A turn leaves no stall, or one that began in it, or the one that there was if it found no space
at all. -/
theorem stalledBy_cases (now : Time) (since : Option Time) (rooms : List Nat) :
    stalledBy now since rooms = none ∨ stalledBy now since rooms = some now ∨
      (∀ room ∈ rooms, room = 0) ∧ since ≠ none ∧ stalledBy now since rooms = since := by
  unfold stalledBy
  split
  · exact .inl rfl
  · by_cases full : ∀ room ∈ rooms, room = 0
    · cases since with
      | none => exact (foldl_lookForRoom rooms (.inl rfl)).imp_right .inl
      | some old =>
        refine .inr (.inr ⟨full, nofun, ?_⟩)
        exact foldl_lookForRoom_of_full old full
    · obtain ⟨room, found⟩ := not_forall.mp full
      obtain ⟨member, some⟩ := Classical.not_imp.mp found
      obtain ⟨first, last, rfl⟩ := List.append_of_mem member
      rw [List.foldl_append, List.foldl_cons, lookForRoom, if_neg some]
      exact (foldl_lookForRoom last (.inl rfl)).imp_right .inl

/-- A look at another clock finds the same. -/
theorem map_stalledBy {Other : Type} (clock : Time → Other) :
    (stalledBy now since rooms).map clock = stalledBy (clock now) (since.map clock) rooms := by
  have looked (rooms : List Nat) (since : Option Time) :
      (rooms.foldl (lookForRoom now) since).map clock =
        rooms.foldl (lookForRoom (clock now)) (since.map clock) := by
    induction rooms generalizing since with
    | nil => rfl
    | cons room rooms ih =>
      rw [List.foldl_cons, List.foldl_cons, ih]
      congr 1
      unfold lookForRoom
      split
      · cases since <;> rfl
      · rfl
  unfold stalledBy
  split
  · rfl
  · exact looked rooms since

end Looks

theorem cutOff_of_unclosed {socket : SocketId} {trace : List Exchange}
    (unclosed : ∀ exchange ∈ trace, exchange.effect ≠ .call (.close socket)) :
    cutOff socket trace = false := by
  induction trace with
  | nil => rfl
  | cons exchange trace ih =>
    have rest := (List.forall_mem_cons.mp unclosed).2
    rw [cutOff]
    split
    · exact List.any_eq_false.mpr fun exchange member => by simpa using rest exchange member
    · exact ih rest

theorem cutOff_append_close {socket : SocketId} {trace : List Exchange}
    (looked : roomsOn socket trace ≠ []) :
    cutOff socket (trace ++ [⟨.call (.close socket), ()⟩]) = true := by
  induction trace with
  | nil => exact absurd rfl looked
  | cons exchange trace ih =>
    rw [List.cons_append, cutOff]
    split
    · rw [List.any_append]
      simp
    · next other =>
      rw [roomsOn_cons other] at looked
      exact ih looked

/-- The controller was not asked for space on a socket. -/
def Unasked (socket : SocketId) (trace : List Exchange) : Prop :=
  ∀ exchange ∈ trace, exchange.effect ≠ .call (.txFree socket)

namespace Unasked

variable {socket : SocketId} {before trace later : List Exchange}

theorem of_untouched (untouched : Untouched socket trace) : Unasked socket trace :=
  fun exchange member same => untouched exchange member (congrArg Effect.about same)

theorem append (first : Unasked socket before) (second : Unasked socket later) :
    Unasked socket (before ++ later) :=
  List.forall_mem_append.mpr ⟨first, second⟩

/-- What comes before the first look does not count. -/
theorem cutOff_append (unasked : Unasked socket before) (trace : List Exchange) :
    cutOff socket (before ++ trace) = cutOff socket trace := by
  induction before with
  | nil => rfl
  | cons exchange before ih =>
    obtain ⟨other, rest⟩ := List.forall_mem_cons.mp unasked
    rw [List.cons_append, cutOff, if_neg other]
    exact ih rest

theorem cutOff_eq_false (unasked : Unasked socket trace) : cutOff socket trace = false := by
  have cut := unasked.cutOff_append []
  rwa [List.append_nil] at cut

/-- Nor does what comes behind, if the socket is not closed there. -/
theorem append_cutOff (unasked : Unasked socket later)
    (unclosed : ∀ exchange ∈ later, exchange.effect ≠ .call (.close socket))
    (trace : List Exchange) : cutOff socket (trace ++ later) = cutOff socket trace := by
  induction trace with
  | nil => exact unasked.cutOff_eq_false
  | cons exchange trace ih =>
    rw [List.cons_append, cutOff, cutOff]
    split
    · have none : later.any (·.effect = .call (.close socket)) = false :=
        List.any_eq_false.mpr fun exchange member => by simpa using unclosed exchange member
      rw [List.any_append, none, Bool.or_false]
    · exact ih

end Unasked

/-- Nothing is sent and nobody looks for space. -/
def Calm (effect : Effect) : Prop := effect.isOutflow = false

theorem attends_calm (socket : SocketId) : Attends Calm socket :=
  ⟨⟨fun _ => rfl, fun _ _ _ calm => calm⟩, fun _ => rfl⟩

theorem attends_unasking (asked socket : SocketId) :
    Attends (· ≠ .call (.txFree asked)) socket where
  record := fun _ => nofun
  call := by
    rintro effect - - calm rfl
    cases calm
  recv := fun _ => nofun

theorem admitting_calm : Server.Admitting Calm where
  count := rfl
  status := fun _ => rfl
  bound := fun _ => rfl
  remote := fun _ => rfl
  refuse := fun _ => rfl
  listen := fun _ => rfl
  record := fun _ => rfl

/-- Nobody looks for space on a socket, and nothing is sent on it. -/
structure Idles (socket : SocketId) (trace : List Exchange) : Prop where
  unasked : Unasked socket trace
  taken : takenOn socket trace = []

namespace Idles

variable {socket : SocketId} {trace : List Exchange}

theorem of_untouched (untouched : Untouched socket trace) : Idles socket trace :=
  ⟨.of_untouched untouched, (Mute.of_untouched untouched).taken⟩

theorem of_calm (calm : ∀ exchange ∈ trace, Calm exchange.effect) : Idles socket trace where
  unasked := by
    rintro exchange member asks
    have calm := calm exchange member
    rw [asks] at calm
    cases calm
  taken := by
    refine takenOn_eq_nil socket fun exchange member => ?_
    have calm := calm exchange member
    unfold Calm Effect.isOutflow at calm
    unfold Effect.isSend
    split
    · next data sends =>
      rw [sends] at calm
      cases calm
    · rfl

end Idles

/-- What the sending of a turn does about a stall. -/
structure Tries (settings : Settings) (socket : SocketId) (now : Millis) (before after : Slot)
    (alive : Bool) (trace : List Exchange) : Prop where
  since : after.stalledSince =
    (roomsOn socket trace).foldl (lookForRoom now) before.stalledSince
  /-- The peer is given up if there is no space at the first look, and was none for too long. -/
  gaveUp : alive = false ↔ roomsOn socket trace = [0] ∧
    ∃ since, before.stalledSince = some since ∧ settings.stallTimeout < elapsed now since
  /-- Where there is no space nobody looks again, and nothing is sent. -/
  blocked : (∀ room ∈ roomsOn socket trace, room = 0) →
    (roomsOn socket trace = [] ∨ roomsOn socket trace = [0]) ∧ takenOn socket trace = []
  unclosed : ∀ exchange ∈ trace, exchange.effect ≠ .call (.close socket)

namespace Tries

variable {settings : Settings} {socket : SocketId} {now : Millis} {before between after : Slot}
  {alive : Bool} {sent rest : List Exchange}

theorem nothing (slot : Slot) : Tries settings socket now slot slot true [] where
  since := rfl
  gaveUp := by simp [roomsOn]
  blocked := fun _ => ⟨.inl rfl, rfl⟩
  unclosed := List.forall_mem_nil _

/-- Once there is no space all is over. -/
theorem full (records : List Log.Record)
    (since : after.stalledSince = some (before.stalledSince.getD now))
    (late : alive = false ↔
      settings.stallTimeout < elapsed now (before.stalledSince.getD now)) :
    Tries settings socket now before after alive
      (⟨.call (.txFree socket), 0⟩ :: recorded records) := by
  have calm : ∀ exchange ∈ recorded records, ∃ record, exchange.effect = .record record := by
    intro exchange member
    obtain ⟨record, -, rfl⟩ := List.mem_map.mp member
    exact ⟨record, rfl⟩
  have rooms : roomsOn socket (⟨.call (.txFree socket), 0⟩ :: recorded records) = [0] := by
    rw [roomsOn_look, roomsOn_eq_nil]
    intro exchange member same
    obtain ⟨record, other⟩ := calm exchange member
    cases other.symm.trans same
  constructor
  · rw [rooms]
    exact since
  · rw [rooms, late]
    cases before.stalledSince with
    | none =>
      refine ⟨fun late => absurd late (UInt32.not_lt.mpr (elapsed_self_le now _)), ?_⟩
      rintro ⟨-, since, stalled, -⟩
      cases stalled
    | some since =>
      refine ⟨fun late => ⟨rfl, since, rfl, late⟩, ?_⟩
      rintro ⟨-, _, same, late⟩
      rwa [Option.some.inj same]
  · intro _
    refine ⟨.inr rooms, ?_⟩
    exact (idle_cons ⟨rfl, rfl⟩ (idle_recorded records)).taken socket
  · refine List.forall_mem_cons.mpr ⟨nofun, fun exchange member same => ?_⟩
    obtain ⟨record, other⟩ := calm exchange member
    cases other.symm.trans same

/-- Where there is space an old stall is over. -/
theorem roomy {room : Nat} (some : room ≠ 0) (fresh : between.stalledSince = none)
    (unasked : Unasked socket sent)
    (open_ : ∀ exchange ∈ sent, exchange.effect ≠ .call (.close socket))
    (further : Tries settings socket now between after alive rest) :
    Tries settings socket now before after alive
      (⟨.call (.txFree socket), room⟩ :: (sent ++ rest)) := by
  have rooms : roomsOn socket (⟨.call (.txFree socket), room⟩ :: (sent ++ rest)) =
      room :: roomsOn socket rest := by
    rw [roomsOn_look, roomsOn_append, roomsOn_eq_nil unasked, List.nil_append]
  constructor
  · rw [rooms, further.since, fresh, List.foldl_cons, lookForRoom, if_neg some]
  · rw [rooms, further.gaveUp, fresh]
    constructor
    · rintro ⟨-, since, stalled, -⟩
      cases stalled
    · rintro ⟨only, -⟩
      exact absurd (List.cons.inj only).1 some
  · rw [rooms]
    exact fun none => absurd (none room List.mem_cons_self) some
  · exact List.forall_mem_cons.mpr ⟨nofun, List.forall_mem_append.mpr ⟨open_, further.unclosed⟩⟩

end Tries

namespace Turn

variable {C : Type} {turn after : Turn C} {socket : SocketId} {settings : Settings}
  {handler : MessageHandler C} {now : Millis} {trace : List Exchange} {events : List Event}

theorem tries_transmit {chunks : Nat} {alive : Bool}
    (path : Path (turn.transmit settings socket now chunks) trace (alive, after)) :
    Tries settings socket now turn.slot after.slot alive trace := by
  induction chunks generalizing turn trace with
  | zero =>
    obtain ⟨rfl, same⟩ := path_done.mp path
    cases same
    exact .nothing _
  | succ chunks ih =>
    cases sends_of_path path with
    | gaveUp record late => exact .full [_] rfl (iff_of_true rfl late)
    | full early => exact .full [] rfl (iff_of_false Bool.true_eq_false.mp early)
    | nothing space =>
      exact @Tries.roomy _ _ _ _ _ _ _ [] _ _ space rfl (List.forall_mem_nil _)
        (List.forall_mem_nil _) (.nothing _)
    | @chunk _ _ data taken rest _ _ space _ further =>
      have sent : Unasked socket [⟨.call (.send socket data), taken⟩] :=
        List.forall_mem_singleton.mpr fun same => by cases same
      have unclosed : ∀ exchange ∈ [(⟨.call (.send socket data), taken⟩ : Exchange)],
          exchange.effect ≠ .call (.close socket) :=
        List.forall_mem_singleton.mpr fun same => by cases same
      rcases further with ⟨rfl, rfl, rfl⟩ | path
      · exact .roomy space rfl sent unclosed (.nothing _)
      · exact .roomy space rfl sent unclosed (ih path)

theorem still_accept {rest : List UInt8} (path : Path (turn.accept socket rest now) trace after) :
    after.slot.Vacant ∨ after.slot.stalledSince = turn.slot.stalledSince := by
  unfold accept at path
  cases found : turn.slot.upgrade.key with
  | none =>
    simp only [found, path_log_bind] at path
    obtain ⟨rest, rfl, path⟩ := path
    rw [Nic.disconnect, path_nic_bind] at path
    obtain ⟨_, rest, rfl, path⟩ := path
    obtain ⟨-, rfl⟩ := path_done.mp path
    exact .inl rfl
  | some key =>
    simp only [found] at path
    generalize Text.bytes (upgradeReply (acceptKey key)) = reply at path
    rw [Nic.send, path_nic_bind] at path
    obtain ⟨taken, rest, rfl, path⟩ := path
    split at path
    · rw [path_log_bind] at path
      obtain ⟨rest, rfl, path⟩ := path
      exact .inl (path_forceClose path)
    · rw [path_log_bind] at path
      obtain ⟨rest, rfl, path⟩ := path
      obtain ⟨-, rfl⟩ := path_done.mp path
      exact .inr rfl

theorem still_upgrade (path : Path (turn.upgrade settings now) trace after) :
    after.slot.Vacant ∨ after.slot.stalledSince = turn.slot.stalledSince := by
  unfold upgrade at path
  cases phase : turn.slot.client.phase with
  | disconnected | connected | closing =>
    rw [phase] at path
    obtain ⟨-, rfl⟩ := path_done.mp path
    exact .inr rfl
  | upgrading own =>
    simp only [phase] at path
    obtain ⟨_, _, data, rfl, -, path⟩ := path_bind.mp path
    rw [path_lift_bind] at path
    obtain ⟨_, -, path⟩ := path
    split at path
    · have still := still_accept path
      exact still
    · exact (path_awaitRequest path).imp_right fun same => congrArg (·.slot.stalledSince) same

theorem still_upkeep {lawful : Bool} (path : Path (turn.upkeep settings now lawful) trace after) :
    after.slot.Vacant ∨ after.slot.stalledSince = turn.slot.stalledSince := by
  unfold upkeep at path
  cases lawful with
  | false => exact .inl (path_forceClose path)
  | true =>
    simp only [Bool.not_true, Bool.false_eq_true, if_false] at path
    split at path
    · rw [path_lift_bind] at path
      obtain ⟨rest, -, path⟩ := path
      obtain ⟨-, still, -⟩ := turn.keepAlive_spec settings now
      split at path
      · obtain ⟨-, rfl⟩ := path_done.mp path
        exact .inr still
      · exact .inl (path_forceClose path)
    · obtain ⟨-, rfl⟩ := path_done.mp path
      exact .inr rfl

/-- Reading frames leaves a stall as it was, and a client that speaks speaks or is let go. -/
theorem still_converse (keeps : handler.KeepsPhase)
    (path : Path (turn.converse settings handler now) trace after) :
    after.slot.Vacant ∨ after.slot.stalledSince = turn.slot.stalledSince ∧
      (turn.slot.client.phase.Speaks socket → after.slot.client.phase.Speaks socket) := by
  unfold converse at path
  cases phase : turn.slot.client.phase with
  | disconnected | upgrading | closing =>
    rw [phase] at path
    obtain ⟨-, rfl⟩ := path_done.mp path
    rw [phase]
    exact .inr ⟨rfl, id⟩
  | connected own =>
    simp only [phase] at path
    obtain ⟨_, _, received, -, -, path⟩ := path_bind.mp path
    rw [path_lift_bind] at path
    obtain ⟨_, -, path⟩ := path
    obtain ⟨still, read⟩ := space_readFrames keeps now received phase
    rcases still_upkeep path with gone | same
    · exact .inl gone
    · rcases path_upkeep path with gone | ⟨lawful, kept⟩
      · exact .inl gone
      · refine .inr ⟨same.trans still, ?_⟩
        rw [kept.phase]
        rintro (connected | closing)
        · cases connected
          exact (read lawful).imp_left And.left
        · cases closing

/-- Ending a connection gracefully does not close its socket. -/
theorem unclosing_finish (path : Path turn.finish trace after) :
    ∀ exchange ∈ trace, exchange.effect ≠ .call (.close socket) := by
  have asks : turn.finish.Asks (· ≠ .call (.close socket)) := by
    unfold finish
    split
    · split
      · exact (asks_log.mpr nofun).bind fun _ => (asks_nic.mpr nofun).bind fun _ => trivial
      · trivial
    · trivial
  exact path.effect_allowed asks

/-- What a turn does about a stall of its client. -/
structure Stalls (settings : Settings) (socket : SocketId) (now : Millis) (before after : Slot)
    (trace : List Exchange) : Prop where
  since : ¬after.Vacant →
    after.stalledSince = stalledBy now before.stalledSince (roomsOn socket trace)
  /-- The client is cut off if there is no space at the first look, and was none for too long. -/
  cut : cutOff socket trace = true ↔ roomsOn socket trace = [0] ∧
    ∃ since, before.stalledSince = some since ∧ settings.stallTimeout < elapsed now since
  gone : cutOff socket trace = true → after.Vacant
  /-- There is a look if something is to be sent, and no other if there is no space. -/
  looks : settings.chunksPerPoll ≠ 0 → after.client.phase.Speaks socket →
    after.client.tx.isEmpty = false → (∀ room ∈ roomsOn socket trace, room = 0) →
    roomsOn socket trace = [0]
  /-- While there is no space nothing is sent. -/
  silent : before.stalledSince ≠ none → (∀ room ∈ roomsOn socket trace, room = 0) →
    takenOn socket trace = []
  speaks : before.client.phase.Speaks socket → after.Vacant ∨ after.client.phase.Speaks socket

/-- The first thing in sending is to look for space. -/
theorem looks_transmit {chunks : Nat} {alive : Bool} (some : chunks ≠ 0)
    (path : Path (turn.transmit settings socket now chunks) trace (alive, after)) :
    roomsOn socket trace ≠ [] := by
  obtain ⟨chunks, rfl⟩ := Nat.exists_eq_succ_of_ne_zero some
  rw [transmit, Nic.txFree, path_nic_bind] at path
  obtain ⟨free, trace, rfl, -⟩ := path
  rw [roomsOn_look]
  exact List.cons_ne_nil free _

/-- A client to which nothing was to be sent does not stall. -/
theorem stalls_of_unasked {before after : Slot} (unasked : Unasked socket trace)
    (still : ¬after.Vacant → after.stalledSince = none)
    (idle : settings.chunksPerPoll ≠ 0 → after.client.phase.Speaks socket →
      after.client.tx.isEmpty = true)
    (silent : before.stalledSince ≠ none → takenOn socket trace = [])
    (speaks : before.client.phase.Speaks socket →
      after.Vacant ∨ after.client.phase.Speaks socket) :
    Stalls settings socket now before after trace := by
  have rooms : roomsOn socket trace = [] := roomsOn_eq_nil unasked
  have cut : cutOff socket trace = false := unasked.cutOff_eq_false
  constructor
  · rw [rooms]
    exact still
  · rw [rooms, cut]
    exact iff_of_false Bool.false_ne_true fun looked => nomatch looked.1
  · rw [cut]
    exact fun gone => absurd gone Bool.false_ne_true
  · intro chunks speaking queued
    rw [idle chunks speaking] at queued
    cases queued
  · exact fun stalled _ => silent stalled
  · exact speaks

/-- A client that is still waited for stalls if there was no space at the last look. -/
theorem stalls_of_alive {moved : Turn C} {chunks : Nat}
    (unsent : chunks = 0 → turn.slot.stalledSince = none)
    (some : settings.chunksPerPoll ≠ 0 → chunks ≠ 0)
    (path : Path (turn.transmit settings socket now chunks) trace (true, moved)) :
    Stalls settings socket now turn.slot moved.slot trace := by
  have tries := tries_transmit path
  have cut : cutOff socket trace = false := cutOff_of_unclosed tries.unclosed
  constructor
  · intro _
    rw [stalledBy, tries.since]
    split
    · next unasked =>
      rw [unasked]
      exact unsent (Decidable.not_not.mp fun some => looks_transmit some path unasked)
    · rfl
  · rw [cut]
    exact iff_of_false Bool.false_ne_true fun gave => nomatch tries.gaveUp.mpr gave
  · rw [cut]
    exact fun gone => absurd gone Bool.false_ne_true
  · intro chunks _ _ none
    exact (tries.blocked none).1.resolve_left (looks_transmit (some chunks) path)
  · exact fun _ none => (tries.blocked none).2
  · intro speaks
    rw [(path_transmit path).phase]
    exact .inr speaks

/-- A client that is given up is closed there and then. -/
theorem stalls_of_gaveUp {moved : Turn C} {chunks : Nat} {closing : List Exchange}
    (held : turn.slot.client.phase.socket = some socket)
    (path : Path (turn.transmit settings socket now chunks) trace (false, moved))
    (closes : Path moved.forceClose closing after) :
    Stalls settings socket now turn.slot after.slot (trace ++ closing) := by
  have tries := tries_transmit path
  obtain ⟨only, since, stalled, late⟩ := tries.gaveUp.mp rfl
  have still : moved.slot.client.phase.socket = some socket := by
    rw [(path_transmit path).phase, held]
  obtain ⟨rfl, -⟩ := path_forceClose_of_held closes still
  have vacant : after.slot.Vacant := path_forceClose closes
  have rooms : roomsOn socket (trace ++ [⟨.call (.close socket), ()⟩]) = [0] := by
    rw [roomsOn_append, only]
    rfl
  constructor
  · exact absurd vacant
  · refine iff_of_true (cutOff_append_close ?_) ⟨rooms, since, stalled, late⟩
    rw [only]
    exact List.cons_ne_nil 0 []
  · exact fun _ => vacant
  · exact fun _ speaks => absurd speaks (vacant.not_speaks socket)
  · intro _ _
    rw [takenOn_append, (tries.blocked ?_).2]
    · rfl
    · rw [only]
      exact List.forall_mem_singleton.mpr rfl
  · exact fun _ => .inl vacant

theorem stalls_drain (poised : turn.slot.Poised settings) (within : turn.Within socket)
    (path : Path (turn.drain settings now) trace after) :
    Stalls settings socket now turn.slot after.slot trace := by
  have unstalled (still : turn.slot.stalledSince ≠ none →
      ¬((∃ own, turn.slot.client.phase.Speaks own) ∧ settings.chunksPerPoll ≠ 0)) :
      turn.slot.stalledSince = none :=
    Decidable.not_not.mp fun stalled => still stalled (poised.flowing stalled)
  unfold drain at path
  cases phase : turn.slot.client.phase with
  | disconnected | upgrading own =>
    have silent : ∀ own, ¬turn.slot.client.phase.Speaks own := by
      intro own
      rw [phase]
      rintro (other | other) <;> cases other
    simp only [phase] at path
    obtain ⟨rfl, rfl⟩ := path_done.mp path
    exact stalls_of_unasked (List.forall_mem_nil _)
      (fun _ => unstalled fun _ ⟨⟨own, speaks⟩, _⟩ => silent own speaks)
      (fun _ speaks => absurd speaks (silent socket)) (fun _ => rfl) .inr
  | connected own | closing own =>
    have held : turn.slot.client.phase.socket = some own := by rw [phase]; rfl
    obtain rfl : own = socket := within.socket_eq held
    simp only [phase] at path
    split at path
    · next empty =>
      obtain ⟨rfl, rfl⟩ := path_done.mp path
      exact stalls_of_unasked (List.forall_mem_nil _) (fun _ => rfl) (fun _ _ => empty)
        (fun _ => rfl) .inr
    · obtain ⟨moving, rest, ⟨alive, moved⟩, rfl, transmits, path⟩ := path_bind.mp path
      cases alive with
      | true =>
        obtain ⟨rfl, rfl⟩ := path_done.mp path
        rw [List.append_nil]
        have chunks (none : settings.chunksPerPoll.toNat = 0) : settings.chunksPerPoll = 0 :=
          UInt8.toNat_inj.mp none
        exact stalls_of_alive (fun none => unstalled fun _ able => able.2 (chunks none))
          (mt chunks) transmits
      | false => exact stalls_of_gaveUp held transmits path

/-- What a turn does before and after it sends does not matter to a stall. -/
theorem Stalls.around {before between sent after : Slot} {early sending late : List Exchange}
    (stalls : Stalls settings socket now between sent sending) (unasked : Unasked socket early)
    (still : between.stalledSince = before.stalledSince)
    (silent : before.stalledSince ≠ none → takenOn socket early = [])
    (speaks : before.client.phase.Speaks socket →
      between.Vacant ∨ between.client.phase.Speaks socket)
    (idles : Idles socket late)
    (unclosed : ∀ exchange ∈ late, exchange.effect ≠ .call (.close socket))
    (ends : after.Vacant ∨ after = sent) (leaves : sent.Vacant → after.Vacant)
    (none : between.Vacant → sent.Vacant) :
    Stalls settings socket now before after (early ++ (sending ++ late)) := by
  have rooms : roomsOn socket (early ++ (sending ++ late)) = roomsOn socket sending := by
    rw [roomsOn_append, roomsOn_append, roomsOn_eq_nil unasked, roomsOn_eq_nil idles.unasked,
      List.nil_append, List.append_nil]
  have cut : cutOff socket (early ++ (sending ++ late)) = cutOff socket sending := by
    rw [unasked.cutOff_append, idles.unasked.append_cutOff unclosed]
  constructor
  · intro kept
    obtain rfl := ends.resolve_left kept
    rw [rooms, stalls.since kept, still]
  · rw [rooms, cut, stalls.cut, still]
  · rw [cut]
    exact fun gone => leaves (stalls.gone gone)
  · intro chunks speaking queued
    obtain rfl := ends.resolve_left fun vacant => vacant.not_speaks socket speaking
    rw [rooms]
    exact stalls.looks chunks speaking queued
  · intro stalled full
    rw [rooms] at full
    rw [takenOn_append, takenOn_append, silent stalled, idles.taken,
      stalls.silent (still ▸ stalled) full]
    rfl
  · intro speaking
    rcases speaks speaking with vacant | speaking
    · exact .inl (leaves (none vacant))
    · rcases stalls.speaks speaking with vacant | speaking
      · exact .inl (leaves vacant)
      · refine ends.imp_right fun same => ?_
        rwa [same]

/-- Nor does what is done for others. -/
theorem Stalls.beside {before after : Slot} {early sending late : List Exchange}
    (stalls : Stalls settings socket now before after sending)
    (held : before.client.phase.socket = some socket) (first : Idles socket early)
    (last : Idles socket late)
    (unclosed : ∀ exchange ∈ late, exchange.effect ≠ .call (.close socket)) :
    Stalls settings socket now before after (early ++ (sending ++ late)) :=
  stalls.around first.unasked rfl (fun _ => first.taken) .inr last unclosed (.inr rfl)
    (fun vacant => vacant) fun vacant => absurd vacant (Slot.not_vacant held)

theorem path_converse_of_noting
    (path : Path (turn.converseNoting settings handler now) trace (after, events)) :
    Path (turn.converse settings handler now) trace after := by
  rw [← fst_converseNoting, path_map]
  exact ⟨_, path, rfl⟩

/-- Before a turn sends, a stall is as it was, and a client that speaks was sent nothing. -/
theorem still_before_drain {present upgraded conversed : Turn C} {checking asking talking :
    List Exchange} {answer heard : List Event} (keeps : handler.KeepsPhase)
    (poised : turn.slot.Poised settings) (held : turn.slot.client.phase.socket = some socket)
    (checked : Path (turn.checkPeer socket) checking present)
    (upgrading : Path (present.upgradeNoting settings now) asking (upgraded, answer))
    (conversing : Path (upgraded.converseNoting settings handler now) talking
      (conversed, heard)) :
    conversed.slot.Poised settings ∧
      (turn.slot.client.phase.Speaks socket → asking = []) ∧
      (conversed.slot.Vacant ∨ conversed.slot.stalledSince = turn.slot.stalledSince ∧
        (turn.slot.client.phase.Speaks socket → conversed.slot.client.phase.Speaks socket)) := by
  have upgrades := path_upgrade_of_noting upgrading
  have converses := path_converse_of_noting conversing
  rcases cleared_checkPeer held checked with cleared | rfl
  · obtain ⟨rfl, rfl, -⟩ := path_upgradeNoting_of_vacant cleared.vacant upgrading
    obtain ⟨-, rfl, -⟩ := path_converseNoting_of_vacant cleared.vacant conversing
    exact ⟨cleared.poised, fun _ => rfl, .inl cleared.vacant⟩
  · have answers (speaks : present.slot.client.phase.Speaks socket) :
        asking = [] ∧ upgraded = present := by
      refine path_upgrade_of_ne (fun own upgrading => ?_) upgrades
      rw [upgrading] at speaks
      exact Phase.not_speaks_upgrading speaks
    have tended := tended_converse keeps (awaited_upgrade poised upgrades) converses
    refine ⟨tended.toPoised, fun speaks => (answers speaks).1, ?_⟩
    rcases still_upgrade upgrades with gone | same
    · obtain ⟨-, rfl, -⟩ := path_converseNoting_of_vacant gone conversing
      exact .inl gone
    · rcases still_converse keeps converses with gone | ⟨still, speaking⟩
      · exact .inl gone
      · refine .inr ⟨still.trans same, fun speaks => speaking ?_⟩
        rwa [(answers speaks).2]

/-- A turn cuts its client off just when it finds no space for what it begins to send, and there was
none for too long. -/
theorem stalls_service (keeps : handler.KeepsPhase) (poised : turn.slot.Poised settings)
    (held : turn.slot.client.phase.socket = some socket)
    (path : Path (turn.serviceNoting settings handler now) trace (after, events)) :
    Stalls settings socket now turn.slot after.slot trace := by
  obtain ⟨checking, asking, talking, sending, ending, present, upgraded, conversed, drained, _, _,
    rfl, -, checked, upgrading, conversing, draining, finishing⟩ := path_serviceNoting held path
  have within : turn.Within socket := .inr held
  have present_within := within_of_stays (path_checkPeer checked).stays within
  have upgraded_within := within_of_stays (stays_upgradeNoting upgrading) present_within
  have conversed_within := within_of_stays (stays_converseNoting keeps conversing) upgraded_within
  have drained_within := within_of_stays (path_drain draining).stays conversed_within
  have attends := attends_calm socket
  have checks : Idles socket checking :=
    .of_calm (checked.effect_allowed (asks_checkPeer attends.toSuits))
  have answers : Unasked socket asking := upgrading.effect_allowed
    (asks_upgradeNoting (attends_unasking socket socket) (fun _ => nofun) present_within)
  have talks : Idles socket talking :=
    .of_calm (conversing.effect_allowed (asks_converseNoting attends keeps upgraded_within))
  have ends : Idles socket ending :=
    .of_calm (finishing.effect_allowed (asks_finish (drained_within.suits attends.toSuits)))
  have early : Unasked socket (checking ++ (asking ++ talking)) :=
    checks.unasked.append (answers.append talks.unasked)
  have group : checking ++ (asking ++ (talking ++ (sending ++ ending))) =
      (checking ++ (asking ++ talking)) ++ (sending ++ ending) := by
    simp only [List.append_assoc]
  rw [group]
  obtain ⟨ready, quiet, carried⟩ :=
    still_before_drain keeps poised held checked upgrading conversing
  -- a client that stalls is behind its upgrade, so it is sent no response
  have silent (stalled : turn.slot.stalledSince ≠ none) :
      takenOn socket (checking ++ (asking ++ talking)) = [] := by
    obtain ⟨⟨own, speaks⟩, -⟩ := poised.flowing stalled
    obtain rfl : own = socket := Option.some.inj (speaks.held.symm.trans held)
    rw [takenOn_append, takenOn_append, quiet speaks, checks.taken, talks.taken]
    rfl
  rcases carried with gone | ⟨still, speaks⟩
  · obtain ⟨rfl, rfl⟩ := path_drain_of_vacant gone draining
    obtain ⟨rfl, rfl⟩ := path_finish_of_vacant gone finishing
    rw [List.append_nil, List.append_nil]
    exact stalls_of_unasked early (absurd gone)
      (fun _ speaks => absurd speaks (gone.not_speaks socket)) silent fun _ => .inl gone
  · refine (stalls_drain ready conversed_within draining).around early still silent
      (fun speaking => .inr (speaks speaking)) ends (unclosing_finish finishing) ?_ ?_ ?_
    · exact (cleared_finish finishing).imp Slot.Cleared.vacant (congrArg Turn.slot)
    · intro vacant
      obtain ⟨-, rfl⟩ := path_finish_of_vacant vacant finishing
      exact vacant
    · intro vacant
      obtain ⟨-, rfl⟩ := path_drain_of_vacant vacant draining
      exact vacant

end Turn

namespace Server

variable {C : Type} {server after : Server} {handler : MessageHandler C} {network : Link.Status}
  {context left : C} {now : Millis} {trace : List Exchange}
  {id : Fin maxClients} {socket : SocketId}

theorem stalls_serviceAll (keeps : handler.KeepsPhase)
    (poised : (server.slots.get id).Poised server.settings) (apart : Apart server.slots)
    (held : (server.slots.get id).client.phase.socket = some socket)
    (path : Path (serviceAll handler now (List.finRange maxClients) server context) trace
      (after, left)) :
    Turn.Stalls server.settings socket now (server.slots.get id) (after.slots.get id) trace := by
  rw [← fst_serviceAllNoting, path_map] at path
  obtain ⟨⟨_, notes⟩, path, rfl⟩ := path
  obtain ⟨early, turning, late, turn, ended, rfl, before, behind, slot, kept, turned⟩ :=
    exists_turn keeps apart (List.nodup_finRange maxClients) (List.mem_finRange id) held path
  rw [← slot] at poised held ⊢
  rw [kept]
  refine (Turn.stalls_service keeps poised held turned).beside held (.of_untouched before)
    (.of_untouched behind) fun exchange member same => ?_
  exact behind exchange member (congrArg Effect.about same)

/-- An update cuts off a client just when its turn does. -/
theorem stalls_update (keeps : handler.KeepsPhase) (poised : server.Poised)
    (apart : Apart server.slots)
    (held : (server.slots.get id).client.phase.socket = some socket)
    (path : Path (server.update handler network context now) trace (after, left)) :
    Turn.Stalls server.settings socket now (server.slots.get id) (after.slots.get id) trace := by
  rw [update_eq_updateBy] at path
  obtain ⟨link, rest, rfl, ⟨⟨reason, dropped, dropping, same⟩, -⟩ | ⟨-, admitted, asked, served,
    rfl, accepting, serving⟩⟩ := path_updateBy path
  · cases same
    obtain ⟨calls, slots⟩ := Server.dropped (List.nodup_finRange maxClients) dropping
    have idles : Idles socket (⟨.call .linkStatus, link⟩ :: rest) :=
      .of_calm (List.forall_mem_cons.mpr
        ⟨rfl, allowed_of_closes calls (fun _ => rfl) (fun _ => rfl) fun _ => rfl⟩)
    have gone : (after.slots.get id).Vacant := by
      rcases slots id with ⟨-, cleared⟩ | ⟨-, vacant⟩
      · exact cleared.vacant
      · exact absurd (vacant (List.mem_finRange id)) (Slot.not_vacant held)
    exact Turn.stalls_of_unasked idles.unasked (absurd gone)
      (fun _ speaks => absurd speaks (gone.not_speaks socket)) (fun _ => idles.taken)
      fun _ => .inl gone
  · have kept := (path_accept accepting).2.kept held
    have idles : Idles socket (⟨.call .linkStatus, link⟩ :: asked) :=
      .of_calm (List.forall_mem_cons.mpr
        ⟨rfl, accepting.effect_allowed (asks_accept admitting_calm)⟩)
    obtain ⟨settings, ready⟩ := poised_accept poised accepting
    have stalls := stalls_serviceAll keeps (ready id)
      ((path_accept accepting).1.apart apart) (kept ▸ held) serving
    rw [settings, kept] at stalls
    rw [← List.cons_append, ← List.append_nil served]
    exact stalls.beside held idles (.of_untouched (List.forall_mem_nil _)) (List.forall_mem_nil _)

end Server

end BoardNet.WebSocket
