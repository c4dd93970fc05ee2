import BoardNet.Proofs.Scan
import BoardNet.Proofs.WebSocket.Hearing

namespace BoardNet.WebSocket

open Poll

namespace Slot

/-- What is true of every slot between the turns of its client. -/
structure Fit (slot : Slot) : Prop where
  unread : ∀ socket, slot.client.phase = .upgrading socket → slot.received = []
  quiet : slot.reading.Quiet

variable {before slot : Slot} {socket : SocketId} {reading : Reading}
  {subscriptions : Subscriptions}

theorem Fit.follows (fit : slot.Fit) (held : slot.client.phase.socket = some socket) :
    slot.Follows socket slot.reading slot.client.subscriptions :=
  ⟨held, rfl, rfl, fit.unread socket⟩

theorem Vacant.reading_eq (vacant : slot.Vacant) : slot.reading = .ended := by
  rw [Slot.reading, vacant]

theorem Vacant.fit (vacant : slot.Vacant) : slot.Fit where
  unread := by
    intro socket upgrading
    rw [vacant] at upgrading
    cases upgrading
  quiet := by
    rw [Vacant.reading_eq vacant]
    exact Reading.quiet_ended

theorem Follows.fit (follows : slot.Follows socket reading subscriptions) (quiet : reading.Quiet) :
    slot.Fit where
  unread := by
    intro other upgrading
    have held := follows.held
    rw [upgrading] at held
    cases held
    exact follows.unread upgrading
  quiet := by rwa [follows.reading]

theorem Keeps.fit (keeps : before.Keeps slot) (fit : before.Fit) : slot.Fit where
  unread := by
    intro socket upgrading
    rw [keeps.received]
    exact fit.unread socket (keeps.phase.symm.trans upgrading)
  quiet := by
    rw [keeps.reading_eq]
    exact fit.quiet

theorem Settled.fit {data : List UInt8} {events : List Event}
    (settled : slot.Settled socket reading subscriptions data events) : slot.Fit := by
  obtain ⟨next, quiet, -, vacant | follows⟩ := settled
  · exact vacant.fit
  · exact follows.fit quiet

/-- A connection that was just taken over is at the start of its stream. -/
theorem follows_attach (slot : Slot) (socket : SocketId) (remote : Ipv4) (now : Millis) :
    (slot.attach socket remote now).Follows socket .start {} :=
  ⟨rfl, rfl, rfl, fun _ => rfl⟩

end Slot

/-- No two clients have the same socket. -/
def Apart (slots : Vector Slot maxClients) : Prop :=
  ∀ id other socket, (slots.get id).client.phase.socket = some socket →
    (slots.get other).client.phase.socket = some socket → id = other

/-- The slots of a server between turns. -/
structure Sound (slots : Vector Slot maxClients) : Prop where
  fit : ∀ id, (slots.get id).Fit
  apart : Apart slots

section Slots

variable {slots : Vector Slot maxClients} {id other : Fin maxClients} {slot : Slot}

theorem get_set_self : (slots.set id slot id.isLt).get id = slot := by
  change (slots.set id slot id.isLt)[id.val] = slot
  rw [Vector.getElem_set_self]

theorem get_set_other (different : id ≠ other) :
    (slots.set id slot id.isLt).get other = slots.get other := by
  change (slots.set id slot id.isLt)[other.val] = slots[other.val]
  rw [Vector.getElem_set_ne]
  exact fun same => different (Fin.ext same)

theorem Apart.set (apart : Apart slots)
    (own : ∀ other socket, slot.client.phase.socket = some socket →
      (slots.get other).client.phase.socket = some socket → id = other) :
    Apart (slots.set id slot id.isLt) := by
  intro first second socket holds too
  by_cases left : id = first
  · subst left
    by_cases right : id = second
    · exact right
    · rw [get_set_self] at holds
      rw [get_set_other right] at too
      exact own second socket holds too
  · rw [get_set_other left] at holds
    by_cases right : id = second
    · subst right
      rw [get_set_self] at too
      exact (own first socket too holds).symm
    · rw [get_set_other right] at too
      exact apart first second socket holds too

/-- A client's slot may change as long as it has no other socket than before. -/
theorem Apart.set_within (apart : Apart slots) (stays : (slots.get id).Stays slot) :
    Apart (slots.set id slot id.isLt) := by
  refine apart.set fun other socket holds too => ?_
  rcases stays with none | same
  · rw [none] at holds
    cases holds
  · exact apart id other socket (same.symm.trans holds) too

/-- Clients that have no other sockets than before. -/
theorem Apart.stays {after : Vector Slot maxClients} (apart : Apart slots)
    (stays : ∀ id, (slots.get id).Stays (after.get id)) : Apart after := by
  intro first second socket holds too
  have had {id : Fin maxClients} (holds : (after.get id).client.phase.socket = some socket) :
      (slots.get id).client.phase.socket = some socket := by
    rcases stays id with none | same
    · rw [none] at holds
      cases holds
    · exact same.symm.trans holds
  exact apart first second socket (had holds) (had too)

theorem fit_set (all : ∀ id, (slots.get id).Fit) (fit : slot.Fit) :
    ∀ other, ((slots.set id slot id.isLt).get other).Fit := by
  intro other
  by_cases same : id = other
  · subst same
    rwa [get_set_self]
  · rw [get_set_other same]
    exact all other

theorem Sound.set (sound : Sound slots) (fit : slot.Fit)
    (own : ∀ other socket, slot.client.phase.socket = some socket →
      (slots.get other).client.phase.socket = some socket → id = other) :
    Sound (slots.set id slot id.isLt) :=
  ⟨fit_set sound.fit fit, sound.apart.set own⟩

theorem Sound.set_within (sound : Sound slots) (fit : slot.Fit)
    (stays : (slots.get id).Stays slot) : Sound (slots.set id slot id.isLt) :=
  ⟨fit_set sound.fit fit, sound.apart.set_within stays⟩

end Slots

variable {C : Type} {handler : MessageHandler C} {now : Millis} {trace : List Exchange}

/-- A turn makes no calls on the sockets of other clients. -/
theorem Turn.untouched_serviceNoting {turn after : Turn C} {settings : Settings}
    {events : List Event} (keeps : handler.KeepsPhase) {socket : SocketId}
    (other : turn.slot.client.phase.socket ≠ some socket)
    (path : Path (turn.serviceNoting settings handler now) trace (after, events)) :
    Untouched socket trace := by
  cases held : turn.slot.client.phase.socket with
  | none =>
    simp only [serviceNoting, held] at path
    obtain ⟨rfl, -⟩ := path_done.mp path
    intro exchange member
    cases member
  | some own =>
    refine untouched_of_minds path
      (asks_serviceNoting (attends_minds own) (feeds_minds own) keeps held) ?_
    rintro rfl
    exact other held

/-- Nor does closing its connection. -/
theorem Turn.untouched_forceClose {turn after : Turn C} {socket : SocketId}
    (other : turn.slot.client.phase.socket ≠ some socket)
    (path : Path turn.forceClose trace after) : Untouched socket trace := by
  cases held : turn.slot.client.phase.socket with
  | none =>
    unfold forceClose at path
    rw [held] at path
    obtain ⟨rfl, -⟩ := path_done.mp path
    intro exchange member
    cases member
  | some own =>
    have within : turn.Within own := .inr held
    have asks := asks_forceClose (within.suits (suits_minds own))
    refine untouched_of_minds path asks ?_
    rintro rfl
    exact other held

theorem Turn.fit_serviceNoting {turn after : Turn C} {settings : Settings} {events : List Event}
    (alone : handler.LeavesAlone) (fit : turn.slot.Fit)
    (path : Path (turn.serviceNoting settings handler now) trace (after, events)) :
    after.slot.Fit := by
  cases held : turn.slot.client.phase.socket with
  | none =>
    simp only [serviceNoting, held] at path
    cases (path_done.mp path).2
    exact fit
  | some own =>
    rcases heard_service alone (fit.follows held) fit.quiet path with ⟨-, vacant⟩ | settled
    · exact vacant.fit
    · exact settled.fit

namespace Server

variable {server after : Server} {context left : C} {notes : Notes} {ids : List (Fin maxClients)}

theorem path_serviceAllNoting_cons {first : Fin maxClients}
    (path : Path (serviceAllNoting handler now (first :: ids) server context) trace
      ((after, left), notes)) :
    ∃ (turning further : List Exchange) (ended : Turn C) (events : List Event) (serviced : Server)
      (later : Notes), trace = turning ++ further ∧ notes = .from first events ++ later ∧
      Path (Turn.serviceNoting ⟨server.slots.get first, server.stats, context⟩ server.settings
        handler now) turning (ended, events) ∧
      serviced.settings = server.settings ∧
      serviced.slots = server.slots.set first ended.slot first.isLt ∧
      Path (serviceAllNoting handler now ids serviced ended.context) further
        ((after, left), later) := by
  rw [serviceAllNoting, path_bind] at path
  obtain ⟨turning, rest, ⟨ended, events⟩, rfl, turned, path⟩ := path
  rw [path_bind] at path
  obtain ⟨further, last, ⟨⟨final, left⟩, later⟩, rfl, going, path⟩ := path
  obtain ⟨rfl, same⟩ := path_done.mp path
  cases same
  exact ⟨turning, further, ended, events,
    { server.setSlot first ended.slot with stats := ended.stats }, later,
    by rw [List.append_nil], rfl, turned, rfl, rfl, going⟩

/-- Turns leave the clients alone whose turns they are not, and no client gets another socket. -/
theorem path_serviceAllNoting (keeps : handler.KeepsPhase)
    (path : Path (serviceAllNoting handler now ids server context) trace ((after, left), notes)) :
    (∀ id, id ∉ ids → after.slots.get id = server.slots.get id ∧ notes.of id = []) ∧
      (∀ socket, (∀ id ∈ ids, (server.slots.get id).client.phase.socket ≠ some socket) →
        Untouched socket trace) ∧
      ∀ id, (server.slots.get id).Stays (after.slots.get id) := by
  induction ids generalizing server context trace notes with
  | nil =>
    obtain ⟨rfl, same⟩ := path_done.mp path
    cases same
    refine ⟨fun id out => ⟨rfl, rfl⟩, ?_, fun id => .refl _⟩
    intro socket other exchange member
    cases member
  | cons first ids ih =>
    obtain ⟨turning, further, ended, events, serviced, later, rfl, rfl, turned, -, slots, going⟩ :=
      path_serviceAllNoting_cons path
    have stays : (server.slots.get first).Stays ended.slot :=
      Turn.stays_serviceNoting keeps turned
    obtain ⟨spared, quiet, held⟩ := ih going
    refine ⟨?_, ?_, ?_⟩
    · intro id out
      have different : first ≠ id := by
        rintro rfl
        exact out List.mem_cons_self
      obtain ⟨same, nothing⟩ := spared id fun later => out (List.mem_cons_of_mem first later)
      rw [slots, get_set_other different] at same
      rw [Notes.of_append, Notes.of_from_other events different, nothing]
      exact ⟨same, rfl⟩
    · intro socket other
      have own := other first List.mem_cons_self
      refine (Turn.untouched_serviceNoting keeps own turned).append ?_
      refine quiet socket fun id member => ?_
      rw [slots]
      by_cases same : first = id
      · subst same
        rw [get_set_self]
        exact stays.free own
      · rw [get_set_other same]
        exact other id (List.mem_cons_of_mem first member)
    · intro id
      refine Slot.Stays.trans ?_ (held id)
      rw [slots]
      by_cases same : first = id
      · subst same
        rwa [get_set_self]
      · rw [get_set_other same]
        exact .refl _

/-- A connection that a client has after the turns was its own before them. -/
theorem attached_of_serviceAllNoting {id : Fin maxClients} {socket : SocketId}
    (keeps : handler.KeepsPhase)
    (path : Path (serviceAllNoting handler now ids server context) trace ((after, left), notes))
    (held : (after.client id).phase.socket = some socket) :
    (server.client id).phase.socket = some socket :=
  Decidable.byContradiction fun free => ((path_serviceAllNoting keeps path).2.2 id).free free held

theorem attached_of_serviceAll {id : Fin maxClients} {socket : SocketId}
    (keeps : handler.KeepsPhase)
    (path : Path (serviceAll handler now ids server context) trace (after, left))
    (held : (after.client id).phase.socket = some socket) :
    (server.client id).phase.socket = some socket := by
  rw [← fst_serviceAllNoting, path_map] at path
  obtain ⟨⟨_, notes⟩, path, rfl⟩ := path
  exact attached_of_serviceAllNoting keeps path held

/-- Turns keep the slots sound. -/
theorem sound_serviceAllNoting (alone : handler.LeavesAlone) (sound : Sound server.slots)
    (path : Path (serviceAllNoting handler now ids server context) trace ((after, left), notes)) :
    Sound after.slots := by
  induction ids generalizing server context trace notes with
  | nil =>
    cases (path_done.mp path).2
    exact sound
  | cons first ids ih =>
    obtain ⟨turning, further, ended, events, serviced, later, -, -, turned, -, slots, going⟩ :=
      path_serviceAllNoting_cons path
    refine ih ?_ going
    rw [slots]
    have fit := Turn.fit_serviceNoting alone (sound.fit first) turned
    exact sound.set_within fit (Turn.stays_serviceNoting alone.phase turned)

/-- The turn of a client with a connection. The others make no calls on its socket, and leave its
slot as it is. -/
theorem exists_turn (keeps : handler.KeepsPhase) (apart : Apart server.slots)
    (distinct : ids.Nodup) {id : Fin maxClients} (member : id ∈ ids) {socket : SocketId}
    (held : (server.slots.get id).client.phase.socket = some socket)
    (path : Path (serviceAllNoting handler now ids server context) trace ((after, left), notes)) :
    ∃ (early turning late : List Exchange) (turn ended : Turn C),
      trace = early ++ (turning ++ late) ∧ Untouched socket early ∧ Untouched socket late ∧
      turn.slot = server.slots.get id ∧ after.slots.get id = ended.slot ∧
      Path (turn.serviceNoting server.settings handler now) turning (ended, notes.of id) := by
  induction ids generalizing server context trace notes with
  | nil => cases member
  | cons first ids ih =>
    obtain ⟨out, distinct⟩ := List.nodup_cons.mp distinct
    obtain ⟨turning, further, ended, events, serviced, later, rfl, rfl, turned, settings, slots,
      going⟩ := path_serviceAllNoting_cons path
    obtain ⟨spared, quiet, -⟩ := path_serviceAllNoting keeps going
    rw [slots] at spared quiet
    by_cases same : first = id
    -- the turns that follow are those of others, who have other sockets
    · subst same
      have there : Untouched socket further := by
        refine quiet socket fun id member holds => out ?_
        have different : first ≠ id := fun same => out (same ▸ member)
        have had : (server.slots.get id).client.phase.socket = some socket :=
          (get_set_other different).symm ▸ holds
        rw [apart first id socket held had]
        exact member
      obtain ⟨kept, nothing⟩ := spared first out
      refine ⟨[], turning, further, ⟨server.slots.get first, server.stats, context⟩, ended, rfl,
        List.forall_mem_nil _, there, rfl, kept.trans get_set_self, ?_⟩
      rwa [Notes.of_append, Notes.of_from, nothing, List.append_nil]
    · have own : (server.slots.get first).client.phase.socket ≠ some socket :=
        fun holds => same (apart first id socket holds held)
      have here := Turn.untouched_serviceNoting keeps own turned
      have between : Apart serviced.slots :=
        slots ▸ apart.set_within (Turn.stays_serviceNoting keeps turned)
      have still : serviced.slots.get id = server.slots.get id := by
        rw [slots, get_set_other same]
      obtain ⟨early, turning, late, turn, ended, rfl, before, behind, slot, kept, turned⟩ :=
        ih between distinct ((List.mem_cons.mp member).resolve_left (Ne.symm same))
          (still.symm ▸ held) going
      rw [settings] at turned
      refine ⟨_, turning, late, turn, ended, (List.append_assoc ..).symm, here.append before,
        behind, slot.trans still, kept, ?_⟩
      rwa [Notes.of_append, Notes.of_from_other events same, List.nil_append]

/-- A client is served in its own turn and in no other. -/
theorem settled_serviceAllNoting (alone : handler.LeavesAlone) (sound : Sound server.slots)
    (distinct : ids.Nodup) {id : Fin maxClients} (member : id ∈ ids) {socket : SocketId}
    {reading : Reading} {subscriptions : Subscriptions}
    (follows : (server.slots.get id).Follows socket reading subscriptions)
    (path : Path (serviceAllNoting handler now ids server context) trace ((after, left), notes)) :
    (∃ key, .unanswered key ∈ notes.of id) ∧ (after.slots.get id).Vacant ∨
      (after.slots.get id).Settled socket reading subscriptions (givenOn socket trace)
        (notes.of id) := by
  have quiet : reading.Quiet := by
    rw [← follows.reading]
    exact (sound.fit id).quiet
  obtain ⟨early, turning, late, turn, ended, rfl, before, behind, slot, kept, turned⟩ :=
    exists_turn alone.phase sound.apart distinct member follows.held path
  rw [← slot] at follows
  rw [kept, givenOn_append, givenOn_append, before.given, behind.given, List.nil_append,
    List.append_nil]
  exact Turn.heard_service alone follows quiet turned

end Server

end BoardNet.WebSocket
