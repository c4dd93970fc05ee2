import BoardNet.Proofs.WebSocket.Stalling
import BoardNet.Proofs.WebSocket.Transcript

/-!
How long a client stays whose peer takes nothing. The stall of a peer is read off the answers of the
controller when it was asked for space, in one update after the other: it lasts from the first of
the last updates in which there was none. A client is cut off when its stall has lasted too long by
the counter of milliseconds, and never otherwise: a controller that has space but takes nothing ends
the stall each time that it is asked.
-/

namespace BoardNet.WebSocket

open Poll

/-- An update in a client's stay: when it was made by a clock that does not return to zero, what was
exchanged with the controller, and what it made of the client. -/
structure Round where
  time : Nat
  trace : List Exchange
  slot : Slot

/-- Since when there has been no space for what is sent on a socket, after some updates, the last
one first. -/
def standstill (socket : SocketId) : List Round → Option Nat
  | [] => none
  | round :: earlier =>
    stalledBy round.time (standstill socket earlier) (roomsOn socket round.trace)

/-- There was no space on a socket in an update, and something is still to be sent on it. -/
structure Round.Blocked (socket : SocketId) (round : Round) : Prop where
  speaks : round.slot.client.phase.Speaks socket
  queued : round.slot.client.tx.isEmpty = false
  full : ∀ room ∈ roomsOn socket round.trace, room = 0

variable {C : Type}

/-- A client's stay on a socket: the server after some updates and uses of its clients since the
connection was taken over, and these updates, the last one first. -/
inductive Stay (handler : MessageHandler C) (id : Fin maxClients) (socket : SocketId) :
    Server → List Round → Prop where
  /-- The update that takes the connection over, and the turns in it. -/
  | opened {before admitted after : Server} {given : Fin maxClients → Prop}
      {network : Link.Status} {context left : C} {time : Nat} {asked trace : List Exchange}
      (reachable : before.Reachable handler given) (ready : network.ready = true)
      (vacant : (before.client id).phase = .disconnected)
      (path : Path (before.update handler network context (clock time))
        (⟨.call .linkStatus, .on⟩ :: (asked ++ trace)) (after, left))
      (accepting : Path (before.accept (clock time)) asked admitted)
      (held : (admitted.client id).phase.socket = some socket)
      (serving : Path (Server.serviceAll handler (clock time) (List.finRange maxClients) admitted
        context) trace (after, left)) :
      Stay handler id socket after [⟨time, trace, after.slots.get id⟩]
  /-- A later one. -/
  | updated {before after : Server} {rounds : List Round} {network : Link.Status}
      {context left : C} {time : Nat} {trace : List Exchange}
      (stay : Stay handler id socket before rounds)
      (held : (before.client id).phase.socket = some socket)
      (order : ∀ round ∈ rounds, round.time ≤ time)
      (path : Path (before.update handler network context (clock time)) trace (after, left)) :
      Stay handler id socket after (⟨time, trace, after.slots.get id⟩ :: rounds)
  /-- What the application does with its clients between two updates. -/
  | used {before after : Server} {rounds : List Round} {uses : Fin maxClients → List Use}
      (stay : Stay handler id socket before rounds)
      (held : (before.client id).phase.socket = some socket) (used : before.Used uses after) :
      Stay handler id socket after rounds

def Ordered (rounds : List Round) : Prop :=
  rounds.Pairwise fun later earlier => earlier.time ≤ later.time

/-- Whatever the counter shows in the next update, it shows after all of these. -/
theorem Ordered.exists_later {rounds : List Round} (ordered : Ordered rounds) (now : Millis) :
    ∃ time, clock time = now ∧ ∀ round ∈ rounds, round.time ≤ time := by
  cases rounds with
  | nil =>
    obtain ⟨time, shown, -⟩ := exists_clock now 0
    exact ⟨time, shown, List.forall_mem_nil _⟩
  | cons last earlier =>
    obtain ⟨time, shown, later⟩ := exists_clock now last.time
    have before := (List.pairwise_cons.mp ordered).1
    exact ⟨time, shown, List.forall_mem_cons.mpr
      ⟨later, fun round member => Nat.le_trans (before round member) later⟩⟩

section Standstills

variable {socket : SocketId} {round : Round} {rounds recent earlier : List Round} {since : Nat}

/-- A stall begins in an update. -/
theorem exists_of_standstill (stalled : standstill socket rounds = some since) :
    ∃ round ∈ rounds, round.time = since := by
  induction rounds with
  | nil => cases stalled
  | cons round earlier ih =>
    rw [standstill] at stalled
    rcases stalledBy_cases round.time (standstill socket earlier) (roomsOn socket round.trace) with
      none | young | ⟨-, -, old⟩
    · cases none.symm.trans stalled
    · exact ⟨round, List.mem_cons_self, Option.some.inj (young.symm.trans stalled)⟩
    · obtain ⟨first, member, time⟩ := ih (old.symm.trans stalled)
      exact ⟨first, List.mem_cons_of_mem round member, time⟩

/-- No stall goes on through an update that left none or one that began in it. -/
theorem le_of_standstill (ordered : Ordered (recent ++ round :: earlier))
    (young : standstill socket (round :: earlier) = none ∨
      standstill socket (round :: earlier) = some round.time)
    (stalled : standstill socket (recent ++ round :: earlier) = some since) :
    round.time ≤ since := by
  induction recent with
  | nil =>
    rcases young with none | same
    · cases none.symm.trans stalled
    · exact (Option.some.inj (same.symm.trans stalled)).le
  | cons last recent ih =>
    obtain ⟨order, ordered⟩ := List.pairwise_cons.mp ordered
    rw [List.cons_append, standstill] at stalled
    rcases stalledBy_cases last.time (standstill socket (recent ++ round :: earlier))
      (roomsOn socket last.trace) with none | fresh | ⟨-, -, old⟩
    · cases none.symm.trans stalled
    · obtain rfl := Option.some.inj (fresh.symm.trans stalled)
      exact order round (List.mem_append_right recent List.mem_cons_self)
    · exact ih ordered (old.symm.trans stalled)

/-- A stall goes on as long as there is no space. -/
theorem standstill_of_full (ordered : Ordered (recent ++ round :: earlier))
    (full : ∀ last ∈ recent ++ [round], roomsOn socket last.trace = [0]) :
    ∃ since ≤ round.time, standstill socket (recent ++ round :: earlier) = some since := by
  induction recent with
  | nil =>
    have first := full round List.mem_cons_self
    refine ⟨(standstill socket earlier).getD round.time, ?_, ?_⟩
    · cases stalled : standstill socket earlier with
      | none => exact le_rfl
      | some since =>
        obtain ⟨first, member, rfl⟩ := exists_of_standstill stalled
        exact (List.pairwise_cons.mp ordered).1 first member
    · rw [List.nil_append, standstill, first]
      rfl
  | cons last recent ih =>
    obtain ⟨since, before, stalled⟩ := ih (List.pairwise_cons.mp ordered).2
      fun other member => full other (List.mem_cons_of_mem _ member)
    refine ⟨since, before, ?_⟩
    rw [List.cons_append, standstill, full last List.mem_cons_self, stalled]
    rfl

end Standstills

/-- What an update makes of a client whose peer takes nothing, by the updates before it. -/
structure Round.Accords (settings : Settings) (socket : SocketId) (round : Round)
    (earlier : List Round) : Prop where
  cut : cutOff socket round.trace = true ↔ roomsOn socket round.trace = [0] ∧
    ∃ since, standstill socket earlier = some since ∧
      settings.stallTimeout.toNat < (round.time - since) % UInt32.size
  gone : cutOff socket round.trace = true → round.slot.Vacant
  looks : settings.chunksPerPoll ≠ 0 → round.Blocked socket → roomsOn socket round.trace = [0]
  silent : standstill socket earlier ≠ none → (∀ room ∈ roomsOn socket round.trace, room = 0) →
    takenOn socket round.trace = []
  speaks : ∀ last ∈ earlier.head?, last.slot.client.phase.Speaks socket →
    round.slot.Vacant ∨ round.slot.client.phase.Speaks socket

/-- The slot of a client during its stay is that of the last update, save for what the application
queued since. -/
structure Standing (socket : SocketId) (slot : Slot) (rounds : List Round) : Prop where
  since : ¬slot.Vacant → slot.stalledSince = (standstill socket rounds).map clock
  phase : ∀ last ∈ rounds.head?, slot.client.phase = last.slot.client.phase

section Turns

variable {settings : Settings} {socket : SocketId} {before after : Slot} {time : Nat}
  {trace : List Exchange} {earlier : List Round}

theorem accords_of_stalls (order : ∀ round ∈ earlier, round.time ≤ time)
    (standing : Standing socket before earlier) (held : ¬before.Vacant)
    (stalls : Turn.Stalls settings socket (clock time) before after trace) :
    Round.Accords settings socket ⟨time, trace, after⟩ earlier ∧
      Standing socket after (⟨time, trace, after⟩ :: earlier) := by
  have since := standing.since held
  have late (began : Nat) (stalled : standstill socket earlier = some began) :
      settings.stallTimeout < elapsed (clock time) (clock began) ↔
        settings.stallTimeout.toNat < (time - began) % UInt32.size := by
    obtain ⟨first, member, rfl⟩ := exists_of_standstill stalled
    rw [UInt32.lt_iff_toNat_lt, elapsed_clock (order first member)]
  refine ⟨⟨?_, stalls.gone, ?_, ?_, ?_⟩, ?_, ?_⟩
  · rw [stalls.cut, since]
    refine and_congr_right fun _ => ?_
    constructor
    · rintro ⟨_, same, long⟩
      obtain ⟨began, stalled, rfl⟩ := Option.map_eq_some_iff.mp same
      exact ⟨began, stalled, (late began stalled).mp long⟩
    · rintro ⟨began, stalled, long⟩
      rw [stalled]
      exact ⟨clock began, rfl, (late began stalled).mpr long⟩
  · exact fun chunks blocked => stalls.looks chunks blocked.speaks blocked.queued blocked.full
  · intro stalled
    refine stalls.silent ?_
    rw [since]
    simpa using stalled
  · intro last member speaks
    rw [← standing.phase last member] at speaks
    exact stalls.speaks speaks
  · intro kept
    rw [stalls.since kept, since, standstill, map_stalledBy]
  · rintro last member
    cases member
    rfl

end Turns

namespace Stay

variable {handler : MessageHandler C} {id : Fin maxClients} {socket : SocketId} {server : Server}
  {rounds : List Round}

theorem reachable (stay : Stay handler id socket server rounds) :
    ∃ given, server.Reachable handler given := by
  induction stay with
  | opened reachable ready vacant path => exact ⟨_, reachable.updated path⟩
  | updated stay held order path ih =>
    obtain ⟨given, reachable⟩ := ih
    exact ⟨_, reachable.updated path⟩
  | used stay held used ih =>
    obtain ⟨given, reachable⟩ := ih
    exact ⟨_, reachable.used used⟩

/-- Every update that leaves a client with a connection that it did not have begins one. -/
theorem of_path {before after : Server} {given : Fin maxClients → Prop} {network : Link.Status}
    {context left : C} {time : Nat} {trace : List Exchange} (keeps : handler.KeepsPhase)
    (reachable : before.Reachable handler given)
    (vacant : (before.client id).phase = .disconnected)
    (path : Path (before.update handler network context (clock time)) trace (after, left))
    (held : (after.client id).phase.socket = some socket) :
    ∃ round, Stay handler id socket after [round] := by
  obtain ⟨_, _, rfl, ⟨⟨_, _, dropping, same⟩, -⟩ | ⟨⟨rfl, ready⟩, admitted, _, _, rfl, accepting,
    serving⟩⟩ := Server.path_updateBy path
  · cases same
    exact absurd (Server.vacant_dropAll vacant dropping) (Slot.not_vacant held)
  · have attached := Server.attached_of_serviceAll keeps serving held
    exact ⟨_, .opened reachable ready vacant path accepting attached serving⟩

theorem ordered (stay : Stay handler id socket server rounds) : Ordered rounds := by
  induction stay with
  | opened => exact List.pairwise_singleton ..
  | updated stay held order path ih => exact List.pairwise_cons.mpr ⟨order, ih⟩
  | used stay held used ih => exact ih

/-- Every client's connection has come about in this way. -/
theorem exists_of_reachable {given : Fin maxClients → Prop} (keeps : handler.KeepsPhase)
    (reachable : server.Reachable handler given)
    (held : (server.client id).phase.socket = some socket) :
    ∃ rounds, Stay handler id socket server rounds := by
  induction reachable with
  | fresh settings => exact absurd (Server.vacant_fresh settings id) (Slot.not_vacant held)
  | @updated before after _ _ _ _ now _ reachable path ih =>
    cases had : (before.client id).phase.socket with
    | none =>
      obtain ⟨time, rfl, -⟩ := exists_clock now 0
      obtain ⟨round, stay⟩ := of_path keeps reachable (Phase.socket_eq_none.mp had) path held
      exact ⟨_, stay⟩
    | some own =>
      obtain rfl := Server.held_update keeps path had held
      obtain ⟨rounds, stay⟩ := ih had
      obtain ⟨time, rfl, later⟩ := stay.ordered.exists_later now
      exact ⟨_, stay.updated had later path⟩
  | used reachable used ih =>
    have had := (congrArg Phase.socket (used.phase id)).symm.trans held
    obtain ⟨rounds, stay⟩ := ih had
    exact ⟨rounds, stay.used had used⟩

/-- Every update of a stay is in accord with those before it. -/
theorem accords (keeps : handler.KeepsPhase) (stay : Stay handler id socket server rounds) :
    Standing socket (server.slots.get id) rounds ∧
      ∀ recent round earlier, rounds = recent ++ round :: earlier →
        Round.Accords server.settings socket round earlier := by
  -- What is to be shown of each update needs the earlier ones only, so it is shown of the last.
  have next {settings : Settings} {last : Round} {rounds : List Round}
      (own : Round.Accords settings socket last rounds)
      (others : ∀ recent round earlier, rounds = recent ++ round :: earlier →
        Round.Accords settings socket round earlier) :
      ∀ recent round earlier, last :: rounds = recent ++ round :: earlier →
        Round.Accords settings socket round earlier := by
    rintro (_ | ⟨first, recent⟩) round earlier split
    · cases split
      exact own
    · cases split
      exact others recent round earlier rfl
  induction stay with
  | @opened before admitted after given _ _ _ time asked trace reachable _ vacant path accepting
      held serving =>
    obtain ⟨settings, poised⟩ := Server.poised_accept (reachable.poised keeps) accepting
    have apart := (Server.path_accept accepting).1.apart (reachable.apart keeps)
    have fresh : Standing socket (admitted.slots.get id) [] := by
      refine ⟨fun _ => ?_, nofun⟩
      obtain ⟨remote, taken⟩ := (Server.path_accept accepting).2.attached vacant held
      rw [taken]
      rfl
    have stalls := Server.stalls_serviceAll keeps (poised id) apart held serving
    rw [← (Server.timely_serviceAll keeps poised serving).1] at stalls
    obtain ⟨own, standing⟩ :=
      accords_of_stalls (List.forall_mem_nil _) fresh (Slot.not_vacant held) stalls
    exact ⟨standing, next own fun recent round earlier split => absurd split (by simp)⟩
  | @updated before after rounds network context left time trace stay held order path ih =>
    obtain ⟨given, reachable⟩ := stay.reachable
    obtain ⟨standing, others⟩ := ih
    have stalls := Server.stalls_update keeps (reachable.poised keeps) (reachable.apart keeps)
      held path
    rw [← Server.settings_update path] at stalls others
    obtain ⟨own, standing⟩ := accords_of_stalls order standing (Slot.not_vacant held) stalls
    exact ⟨standing, next own others⟩
  | @used before after rounds uses stay held used ih =>
    obtain ⟨standing, others⟩ := ih
    have phase := used.phase id
    rw [used.settings]
    refine ⟨⟨fun kept => ?_, fun last member => phase.trans (standing.phase last member)⟩, others⟩
    rw [← standing.since fun vacant => kept (phase.trans vacant), used.slots id]

section Latest

variable {last : Round} {earlier : List Round}

/-- A client to which something was to be sent and never was there space for it is let go once that
has lasted too long. -/
theorem released_of_blocked (keeps : handler.KeepsPhase)
    (stay : Stay handler id socket server (last :: earlier)) {recent before : List Round}
    {first : Round} (split : earlier = recent ++ first :: before)
    (chunks : server.settings.chunksPerPoll ≠ 0)
    (blocked : ∀ round ∈ recent ++ [first], round.Blocked socket)
    (full : ∀ room ∈ roomsOn socket last.trace, room = 0)
    (late : first.time + server.settings.stallTimeout.toNat < last.time)
    (turn : ∀ since, standstill socket earlier = some since → last.time < since + UInt32.size)
    (queued : last.slot.client.tx.isEmpty = false) : last.slot.Vacant := by
  obtain ⟨-, accords⟩ := stay.accords keeps
  have own := accords [] last earlier rfl
  have looked : ∀ round ∈ recent ++ [first], roomsOn socket round.trace = [0] := by
    intro round member
    have among : round ∈ earlier := by
      rw [split, ← List.singleton_append, ← List.append_assoc]
      exact List.mem_append_left before member
    obtain ⟨recent, before, rfl⟩ := List.append_of_mem among
    exact (accords (last :: recent) round before rfl).looks chunks (blocked round member)
  have head : ∃ round ∈ earlier.head?, round ∈ recent ++ [first] := by
    rw [split]
    cases recent with
    | nil => exact ⟨first, rfl, List.mem_cons_self⟩
    | cons round recent => exact ⟨round, rfl, List.mem_cons_self⟩
  obtain ⟨round, head, member⟩ := head
  rcases own.speaks round head (blocked round member).speaks with gone | speaks
  · exact gone
  · have ordered : Ordered (recent ++ first :: before) :=
      split ▸ (List.pairwise_cons.mp stay.ordered).2
    obtain ⟨since, began, stalled⟩ := standstill_of_full ordered looked
    rw [← split] at stalled
    refine own.gone (own.cut.mpr ⟨own.looks chunks ⟨speaks, queued, full⟩, since, stalled, ?_⟩)
    have within := turn since stalled
    rw [Nat.mod_eq_of_lt (by omega)]
    omega

/-- A client is not cut off when some byte was taken of what was sent to it not too long ago. -/
theorem spared_of_taken (keeps : handler.KeepsPhase)
    (stay : Stay handler id socket server (last :: earlier)) {round : Round}
    (member : round ∈ last :: earlier) (taken : takenOn socket round.trace ≠ [])
    (lately : last.time ≤ round.time + server.settings.stallTimeout.toNat) :
    cutOff socket last.trace = false := by
  refine Bool.eq_false_iff.mpr fun cut => taken ?_
  obtain ⟨-, accords⟩ := stay.accords keeps
  have own := accords [] last earlier rfl
  obtain ⟨only, since, stalled, late⟩ := own.cut.mp cut
  rcases List.mem_cons.mp member with rfl | member
  · refine own.silent (by simp [stalled]) ?_
    rw [only]
    exact List.forall_mem_singleton.mpr rfl
  · obtain ⟨recent, before, rfl⟩ := List.append_of_mem member
    have ordered := (List.pairwise_cons.mp stay.ordered).2
    have turned := Nat.mod_le (last.time - since) UInt32.size
    have old (young : standstill socket (round :: before) = none ∨
        standstill socket (round :: before) = some round.time) : False := by
      have began := le_of_standstill ordered young stalled
      omega
    rcases stalledBy_cases round.time (standstill socket before) (roomsOn socket round.trace) with
      none | young | ⟨full, before_stalled, -⟩
    · exact (old (.inl none)).elim
    · exact (old (.inr young)).elim
    · exact (accords (last :: recent) round before rfl).silent before_stalled full

/-- A client is cut off in an update just when it begins to send, finds no space, and by the counter
of milliseconds found none for longer than the limit; then it is let go. So it is let go after any
update in which there has been no space for longer than that, though for less than a full turn of
the counter, if there was always something to send. And it is not cut off when some byte was taken
within the limit. Space of which nothing is taken counts as well. -/
theorem cutOff_iff_stalled (keeps : handler.KeepsPhase)
    (stay : Stay handler id socket server (last :: earlier)) :
    let limit := server.settings.stallTimeout.toNat
    let released := (server.client id).phase = .disconnected
    (cutOff socket last.trace = true ↔ roomsOn socket last.trace = [0] ∧
        ∃ since, standstill socket earlier = some since ∧
          limit < (last.time - since) % UInt32.size) ∧
      (cutOff socket last.trace = true → released) ∧
      (∀ recent first before, earlier = recent ++ first :: before →
        server.settings.chunksPerPoll ≠ 0 →
        (∀ round ∈ recent ++ [first], round.Blocked socket) →
        (∀ room ∈ roomsOn socket last.trace, room = 0) → first.time + limit < last.time →
        (∀ since, standstill socket earlier = some since → last.time < since + UInt32.size) →
        released ∨ last.slot.client.tx.isEmpty = true) ∧
      ∀ round ∈ last :: earlier, takenOn socket round.trace ≠ [] →
        last.time ≤ round.time + limit → cutOff socket last.trace = false := by
  obtain ⟨standing, accords⟩ := stay.accords keeps
  have own := accords [] last earlier rfl
  have phase : (server.client id).phase = last.slot.client.phase := standing.phase last rfl
  refine ⟨own.cut, fun cut => phase.trans (own.gone cut), ?_, ?_⟩
  · intro recent first before split chunks blocked full late turn
    cases queued : last.slot.client.tx.isEmpty with
    | true => exact .inr rfl
    | false =>
      exact .inl (phase.trans
        (stay.released_of_blocked keeps split chunks blocked full late turn queued))
  · intro round member taken lately
    exact stay.spared_of_taken keeps member taken lately

end Latest

section Runs

variable {σ : Type} {chip : Chip σ} {context : C} {time : Nat} {before : σ}
  {ran : Ran σ (Server × C)} {trace : List Exchange}

/-- An update that is run takes a peer over. -/
theorem opened_run {given : Fin maxClients → Prop} {network : Link.Status}
    (reachable : server.Reachable handler given) (ready : network.ready = true)
    (vacant : (server.client id).phase = .disconnected) {admitted : Ran σ Server}
    (admission : admitted = (server.accept (clock time)).run chip before)
    (held : (admitted.value.client id).phase.socket = some socket) {turns : Poll (Server × C)}
    (serving : turns = Server.serviceAll handler (clock time) (List.finRange maxClients)
      admitted.value context)
    (running : ran = turns.run chip admitted.state)
    (traced : trace = turns.exchanges chip admitted.state) :
    Stay handler id socket ran.value.1 [⟨time, trace, ran.value.1.slots.get id⟩] := by
  subst admission serving running traced
  have accepting := path_run chip (server.accept (clock time)) before
  have serving := path_run chip (Server.serviceAll handler (clock time) (List.finRange maxClients)
    ((server.accept (clock time)).run chip before).value context)
    ((server.accept (clock time)).run chip before).state
  have path : Path (server.update handler network context (clock time)) _ _ :=
    Server.path_updateBy_of_ready ready accepting serving
  exact .opened reachable ready vacant path accepting held serving

/-- An update that is run goes on with it. -/
theorem updated_run (stay : Stay handler id socket server rounds)
    (held : (server.client id).phase.socket = some socket)
    (order : ∀ round ∈ rounds, round.time ≤ time) {network : Link.Status}
    {update : Poll (Server × C)}
    (updating : update = server.update handler network context (clock time))
    (running : ran = update.run chip before) (traced : trace = update.exchanges chip before) :
    Stay handler id socket ran.value.1 (⟨time, trace, ran.value.1.slots.get id⟩ :: rounds) := by
  subst updating running traced
  exact stay.updated held order (path_run chip _ before)

end Runs

open Sim in
/-- A closing client whose socket has space but takes nothing is kept beyond the limit. -/
theorem kept_with_room :
    let first : Fin maxClients := ⟨0, by decide⟩
    let visitor : SocketId := ⟨0, by decide⟩
    ∃ server greeting parting waiting greeted parted waited,
      Stay Session.indifferent first visitor server
        [⟨2002, waiting, waited⟩, ⟨1, parting, parted⟩, ⟨0, greeting, greeted⟩] ∧
      (server.client first).phase = .closing visitor ∧
      server.settings.stallTimeout = 2000 ∧
      parted.client.tx.isEmpty = false ∧ takenOn visitor parting = [] ∧
      waited.client.tx.isEmpty = false ∧ takenOn visitor waiting = [] ∧
      cutOff visitor waiting = false := by
  intro first visitor
  let chip := Rig.chip
  let taken := (({} : Server).accept (clock 0)).run chip { nic := Transcript.upgradeAsked }
  let turns := Server.serviceAll Session.indifferent (clock 0) (List.finRange maxClients)
    taken.value ()
  let welcomed := turns.run chip taken.state
  let stuck : Rig :=
    { nic := welcomed.state.nic.arrive visitor [0x88, 0x80, 0, 0, 0, 0]
      faults := { sendCap := some 0 } }
  let once := welcomed.value.1.update Session.indifferent steadyLink () (clock 1)
  let tried := once.run chip stuck
  let twice := tried.value.1.update Session.indifferent steadyLink () (clock 2002)
  let triedAgain := twice.run chip tried.state
  have attached : (taken.value.client first).phase.socket = some visitor := by decide +kernel
  have connected : (welcomed.value.1.client first).phase.socket = some visitor := by decide +kernel
  have closing : (tried.value.1.client first).phase.socket = some visitor := by decide +kernel
  have fresh : ({} : Server).Reachable Session.indifferent _ := .fresh {}
  have ready : steadyLink.ready = true := rfl
  have opened : Stay Session.indifferent first visitor welcomed.value.1 _ :=
    opened_run fresh ready (by decide +kernel) rfl attached rfl rfl rfl
  have parted : Stay Session.indifferent first visitor tried.value.1 _ :=
    opened.updated_run connected (List.forall_mem_singleton.mpr (Nat.zero_le 1)) rfl rfl rfl
  have kept : Stay Session.indifferent first visitor triedAgain.value.1
      [⟨2002, twice.exchanges chip tried.state, triedAgain.value.1.slots.get first⟩,
        ⟨1, once.exchanges chip stuck, tried.value.1.slots.get first⟩,
        ⟨0, turns.exchanges chip taken.state, welcomed.value.1.slots.get first⟩] :=
    parted.updated_run closing
      (List.forall_mem_cons.mpr ⟨by decide, List.forall_mem_singleton.mpr (Nat.zero_le 2002)⟩)
      rfl rfl rfl
  have keeps : Session.indifferent.KeepsPhase := fun _ _ _ => rfl
  have refused : (tried.value.1.slots.get first).client.tx.isEmpty = false ∧
      takenOn visitor (once.exchanges chip stuck) = [] := by decide +kernel
  have ended : (triedAgain.value.1.client first).phase = .closing visitor ∧
      triedAgain.value.1.settings.stallTimeout = 2000 ∧
      (triedAgain.value.1.slots.get first).client.tx.isEmpty = false ∧
      takenOn visitor (twice.exchanges chip tried.state) = [] ∧
      roomsOn visitor (twice.exchanges chip tried.state) = [2048] := by decide +kernel
  -- what the server has come to is not looked into any further
  obtain ⟨server, greeting, parting, waiting, greeted, parted, waited, kept, ⟨queued, untaken⟩,
      phase, limit, still, again, room⟩ :
      ∃ server greeting parting waiting greeted parted waited,
        Stay Session.indifferent first visitor server
          [⟨2002, waiting, waited⟩, ⟨1, parting, parted⟩, ⟨0, greeting, greeted⟩] ∧
        (parted.client.tx.isEmpty = false ∧ takenOn visitor parting = []) ∧
        (server.client first).phase = .closing visitor ∧ server.settings.stallTimeout = 2000 ∧
        waited.client.tx.isEmpty = false ∧ takenOn visitor waiting = [] ∧
        roomsOn visitor waiting = [2048] :=
    ⟨_, _, _, _, _, _, _, kept, refused, ended⟩
  refine ⟨server, greeting, parting, waiting, greeted, parted, waited, kept, phase, limit, queued,
    untaken, still, again, Bool.eq_false_iff.mpr fun cut => ?_⟩
  have full := ((kept.cutOff_iff_stalled keeps).1.mp cut).1
  cases room.symm.trans full

end Stay

end BoardNet.WebSocket
