import BoardNet.Proofs.WebSocket.Serving

namespace BoardNet.WebSocket

open Poll

/-- Clients that are gone have no socket. -/
theorem Apart.vacated {slots vacated : Vector Slot maxClients} (apart : Apart slots)
    (same : ∀ id, (vacated.get id).Vacant ∨ vacated.get id = slots.get id) : Apart vacated := by
  intro id other socket holds too
  rcases same id with vacant | own
  · rw [vacant] at holds
    cases holds
  · rcases same other with vacant | others
    · rw [vacant] at too
      cases too
    · rw [own] at holds
      rw [others] at too
      exact apart id other socket holds too

/-- Slots after which clients may be gone that were there before. -/
theorem Sound.vacated {slots vacated : Vector Slot maxClients} (sound : Sound slots)
    (same : ∀ id, (vacated.get id).Vacant ∨ vacated.get id = slots.get id) : Sound vacated where
  fit := by
    intro id
    rcases same id with vacant | same
    · exact vacant.fit
    · rw [same]
      exact sound.fit id
  apart := sound.apart.vacated same

/-- Connections were taken over that no client had, one after the other, by clients without one. -/
inductive TakenOver (now : Millis) : Vector Slot maxClients → Vector Slot maxClients → Prop where
  | none {slots : Vector Slot maxClients} : TakenOver now slots slots
  | one {slots after : Vector Slot maxClients} {id : Fin maxClients} {socket : SocketId}
      {remote : Ipv4} (vacant : (slots.get id).Vacant)
      (free : ∀ other, (slots.get other).client.phase.socket ≠ some socket)
      (rest : TakenOver now (slots.set id ((slots.get id).attach socket remote now) id.isLt)
        after) :
      TakenOver now slots after

theorem TakenOver.trans {now : Millis} {before between last : Vector Slot maxClients}
    (first : TakenOver now before between) (second : TakenOver now between last) :
    TakenOver now before last := by
  induction first with
  | none => exact second
  | one vacant free rest ih => exact .one vacant free (ih second)

theorem TakenOver.apart {now : Millis} {before last : Vector Slot maxClients}
    (taken : TakenOver now before last) (apart : Apart before) : Apart last := by
  induction taken with
  | none => exact apart
  | one vacant free rest ih =>
    apply ih
    refine apart.set fun other socket holds too => ?_
    cases holds
    exact absurd too (free other)

theorem TakenOver.sound {now : Millis} {before last : Vector Slot maxClients}
    (taken : TakenOver now before last) (sound : Sound before) : Sound last := by
  induction taken with
  | none => exact sound
  | one vacant free rest ih =>
    apply ih
    refine sound.set ((Slot.follows_attach ..).fit rfl) fun other socket holds too => ?_
    cases holds
    exact absurd too (free other)

namespace Server

variable {server after : Server} {now : Millis} {trace : List Exchange} {reason : String}
  {ids : List (Fin maxClients)}

/-- A client without a connection is passed over, and the connection of any other is closed. -/
theorem path_dropAll_cons {first : Fin maxClients}
    (path : Path (dropAll reason (first :: ids) server) trace after) :
    (server.slots.get first).Vacant ∧ Path (dropAll reason ids server) trace after ∨
      ¬(server.slots.get first).Vacant ∧
        ∃ (record : Log.Record) (closing last : List Exchange) (ended : Turn Unit)
          (dropped : Server), trace = ⟨.record record, ()⟩ :: (closing ++ last) ∧
          Path (Turn.forceClose ⟨server.slots.get first, server.stats, ()⟩) closing ended ∧
          dropped.settings = server.settings ∧
          dropped.slots = server.slots.set first ended.slot first.isLt ∧
          Path (dropAll reason ids dropped) last after := by
  unfold dropAll at path
  split at path
  · next vacant => exact .inl ⟨vacant, path⟩
  · next taken =>
    rw [path_log_bind] at path
    obtain ⟨rest, rfl, path⟩ := path
    rw [path_bind] at path
    obtain ⟨closing, last, ended, rfl, closed, path⟩ := path
    exact .inr ⟨taken, _, closing, last, ended,
      { server.setSlot first ended.slot with stats := ended.stats }, rfl, closed, rfl, rfl, path⟩

theorem path_dropAll (path : Path (dropAll reason ids server) trace after) :
    (∀ id, (after.slots.get id).Vacant ∨ after.slots.get id = server.slots.get id) ∧
      (∀ socket, givenOn socket trace = []) ∧
      ∀ socket, (∀ id, (server.slots.get id).client.phase.socket ≠ some socket) →
        Untouched socket trace := by
  induction ids generalizing server trace with
  | nil =>
    obtain ⟨rfl, rfl⟩ := path_done.mp path
    refine ⟨fun id => .inr rfl, fun socket => rfl, ?_⟩
    intro socket free exchange member
    cases member
  | cons first ids ih =>
    obtain ⟨-, path⟩ | ⟨-, record, closing, last, ended, dropped, rfl, closed, -, slots, path⟩ :=
      path_dropAll_cons path
    · exact ih path
    · obtain ⟨spared, quiet, elsewhere⟩ := ih path
      rw [slots] at spared elsewhere
      have vacant : ended.slot.Vacant := Turn.path_forceClose closed
      refine ⟨?_, ?_, ?_⟩
      · intro id
        rcases spared id with gone | kept
        · exact .inl gone
        · rw [kept]
          by_cases same : first = id
          · subst same
            rw [get_set_self]
            exact .inl vacant
          · rw [get_set_other same]
            exact .inr rfl
      · intro socket
        have here := givenOn_of_deaf closed (Turn.asks_forceClose (Turn.suits_deaf _)) socket
        change givenOn socket (closing ++ last) = []
        rw [givenOn_append, here, quiet socket]
        rfl
      · intro socket free
        have here : Untouched socket closing := Turn.untouched_forceClose (free first) closed
        refine .cons (Option.some_ne_none socket).symm
          (here.append (elsewhere socket fun id => ?_))
        by_cases same : first = id
        · subst same
          rw [get_set_self, vacant]
          exact (Option.some_ne_none socket).symm
        · rw [get_set_other same]
          exact free id

theorem vacant_dropAll {id : Fin maxClients} (vacant : (server.slots.get id).Vacant)
    (path : Path (dropAll reason ids server) trace after) : (after.slots.get id).Vacant := by
  rcases (path_dropAll path).1 id with gone | kept
  · exact gone
  · rwa [kept]

/-- What an admission does: connections may have been taken over that were not there before, each
from a socket that was seen with a peer on the port, and no other connection was ended than such. -/
structure Admits (port : UInt16) (now : Millis) (trace : List Exchange)
    (before after : Vector Slot maxClients) : Prop where
  slots : ∀ id, after.get id = before.get id ∨
    (before.get id).Vacant ∧ ∃ socket remote,
      after.get id = (before.get id).attach socket remote now ∧ Nic.Found port socket trace
  refused : ∀ exchange ∈ trace, ∀ socket, exchange.effect.Releases socket →
    Nic.Found port socket trace

namespace Admits

variable {port : UInt16} {later : List Exchange} {before between last : Vector Slot maxClients}

theorem of_spares (spares : Spares trace) : Admits port now trace before before where
  slots := fun id => .inl rfl
  refused := by
    intro exchange member socket ends
    exact absurd ends (spares.not_releases member socket)

theorem trans (first : Admits port now trace before between)
    (second : Admits port now later between last) :
    Admits port now (trace ++ later) before last where
  slots := by
    intro id
    rcases first.slots id with same | ⟨vacant, socket, remote, taken, found⟩
    · rw [← same]
      rcases second.slots id with kept | ⟨vacant, socket, remote, taken, found⟩
      · exact .inl kept
      · exact .inr ⟨vacant, socket, remote, taken, found.after trace⟩
    · rcases second.slots id with kept | ⟨empty, -⟩
      · exact .inr ⟨vacant, socket, remote, kept.trans taken, found.before later⟩
      · rw [taken] at empty
        cases empty
  refused := by
    intro exchange member socket ends
    rcases List.mem_append.mp member with here | there
    · exact (first.refused exchange here socket ends).before later
    · exact (second.refused exchange there socket ends).after trace

theorem kept {id : Fin maxClients} {socket : SocketId}
    (admits : Admits port now trace before last)
    (held : (before.get id).client.phase.socket = some socket) : last.get id = before.get id :=
  (admits.slots id).resolve_right fun taken => Slot.not_vacant held taken.1

theorem attached {id : Fin maxClients} {socket : SocketId}
    (admits : Admits port now trace before last) (vacant : (before.get id).Vacant)
    (held : (last.get id).client.phase.socket = some socket) :
    ∃ remote, last.get id = (before.get id).attach socket remote now := by
  rcases admits.slots id with same | ⟨-, own, remote, taken, -⟩
  · rw [← same] at vacant
    exact absurd vacant (Slot.not_vacant held)
  · rw [taken] at held
    obtain rfl : own = socket := Option.some.inj held
    exact ⟨remote, taken⟩

end Admits

/-- A connection is taken over by a client without one, or refused. -/
theorem path_welcome_cases {socket : SocketId}
    (path : Path (server.welcome socket now) trace after) :
    after.settings = server.settings ∧
      ((∃ id remote, (server.slots.get id).Vacant ∧ Spares trace ∧
          after.slots =
            server.slots.set id ((server.slots.get id).attach socket remote now) id.isLt) ∨
        after.slots = server.slots ∧ ∃ before : List Exchange, Spares before ∧
          trace = before ++ [⟨.call (.close socket), ()⟩]) := by
  rw [welcome, Nic.remoteIp, path_nic_bind] at path
  obtain ⟨remote, rest, rfl, path⟩ := path
  have noted (record : Log.Record) :
      Spares [⟨.call (.remoteIp socket), remote⟩, ⟨.record record, ()⟩] :=
    (idle_cons ⟨rfl, rfl⟩ (idle_cons ⟨rfl, rfl⟩ idle_nil)).spares
  cases vacancy : server.vacant? with
  | none =>
    simp only [vacancy, path_log_bind] at path
    obtain ⟨rest, rfl, path⟩ := path
    rw [Nic.close, path_nic_bind] at path
    obtain ⟨_, rest, rfl, path⟩ := path
    obtain ⟨rfl, rfl⟩ := path_done.mp path
    exact ⟨rfl, .inr ⟨rfl, _, noted _, rfl⟩⟩
  | some id =>
    simp only [vacancy, path_log_bind] at path
    obtain ⟨rest, rfl, path⟩ := path
    obtain ⟨rfl, rfl⟩ := path_done.mp path
    have vacant : (server.client id).phase = .disconnected := by
      simpa using List.find?_some vacancy
    exact ⟨rfl, .inl ⟨id, remote, vacant, noted _, rfl⟩⟩

/-- A connection that was seen is taken over, or refused. -/
theorem path_welcome {socket : SocketId} {port : UInt16} {finding : List Exchange}
    (free : ∀ id, (server.slots.get id).client.phase.socket ≠ some socket)
    (spares : Spares finding) (found : Nic.Found port socket finding)
    (path : Path (server.welcome socket now) trace after) :
    TakenOver now server.slots after.slots ∧ after.settings = server.settings ∧
      Admits port now (finding ++ trace) server.slots after.slots := by
  obtain ⟨settings, ⟨id, remote, vacant, quiet, slots⟩ | ⟨slots, before, quiet, rfl⟩⟩ :=
    path_welcome_cases path
  · rw [slots]
    refine ⟨.one vacant free .none, settings, ?_, ?_⟩
    · intro other
      by_cases same : id = other
      · subst same
        exact .inr ⟨vacant, socket, remote, get_set_self, found.before _⟩
      · exact .inl (get_set_other same)
    · intro exchange member other ends
      exact absurd ends ((spares.append quiet).not_releases member other)
  · rw [slots]
    refine ⟨.none, settings, fun id => .inl rfl, ?_⟩
    intro exchange member other ends
    rw [← List.append_assoc] at member
    rcases List.mem_append.mp member with scanned | refusing
    · exact absurd ends ((spares.append quiet).not_releases scanned other)
    · obtain rfl := List.mem_singleton.mp refusing
      obtain rfl : socket = other := Option.some.inj ends.2
      exact found.before _

/-- A test that passes what is asked in a search for a connection or a listener. -/
structure Searches (allowed : Effect → Prop) : Prop where
  count : allowed (.call .socketCount)
  status : ∀ socket, allowed (.call (.socketStatus socket))
  bound : ∀ socket, allowed (.call (.socketPort socket))

/-- A test that passes what is asked when connections are taken over or refused. -/
structure Welcoming (allowed : Effect → Prop) : Prop extends Searches allowed where
  remote : ∀ socket, allowed (.call (.remoteIp socket))
  refuse : ∀ socket, allowed (.call (.close socket))
  record : ∀ record, allowed (.record record)

/-- A test that passes what is asked when connections are admitted, the new listener included. -/
structure Admitting (allowed : Effect → Prop) : Prop extends Welcoming allowed where
  listen : ∀ port, allowed (.call (.listen port))

variable {allowed : Effect → Prop}

theorem Searches.asks (searches : Searches allowed) (server : Server) :
    (Nic.findConnected server.settings.port fun socket => pure !server.holds socket).Asks
      allowed :=
  Nic.asks_findConnected searches.count searches.status searches.bound fun _ => asks_pure _

/-- A search ends no connection. -/
theorem searches_spares : Searches (·.isRelease = false) := ⟨rfl, fun _ => rfl, fun _ => rfl⟩

theorem admitting_deaf : Admitting Deaf where
  count := rfl
  status := fun _ => rfl
  bound := fun _ => rfl
  remote := fun _ => rfl
  refuse := fun _ => rfl
  listen := fun _ => rfl
  record := fun _ => rfl

theorem path_admitAll {most : Nat} {any : Bool}
    (path : Path (server.admitAll now most) trace (any, after)) :
    TakenOver now server.slots after.slots ∧ after.settings = server.settings ∧
      Admits server.settings.port now trace server.slots after.slots := by
  induction most generalizing server trace any with
  | zero =>
    obtain ⟨rfl, same⟩ := path_done.mp path
    cases same
    exact ⟨.none, rfl, .of_spares idle_nil.spares⟩
  | succ most ih =>
    rw [admitAll, path_bind] at path
    obtain ⟨finding, rest, found, rfl, scanned, path⟩ := path
    have scan : Spares finding := scanned.effect_allowed (searches_spares.asks server)
    cases found with
    | none =>
      obtain ⟨rfl, same⟩ := path_done.mp path
      cases same
      rw [List.append_nil]
      exact ⟨.none, rfl, .of_spares scan⟩
    | some socket =>
      obtain ⟨seen, asked, picked⟩ := Nic.path_findConnected scanned
      have free : ∀ id, (server.slots.get id).client.phase.socket ≠ some socket := by
        intro id held
        have unheld : (!server.holds socket) = true := (path_done.mp picked).2.symm
        have holds : server.holds socket = true :=
          List.any_eq_true.mpr ⟨id, List.mem_finRange id, decide_eq_true held⟩
        rw [holds] at unheld
        cases unheld
      rw [path_bind] at path
      obtain ⟨welcoming, rest, welcomed, rfl, taken, path⟩ := path
      rw [path_bind] at path
      obtain ⟨further, last, ⟨any, final⟩, rfl, going, path⟩ := path
      obtain ⟨rfl, same⟩ := path_done.mp path
      cases same
      have ⟨between, settings, admits⟩ := path_welcome free scan seen taken
      have ⟨ends, later, more⟩ := ih going
      rw [settings] at more
      refine ⟨between.trans ends, later.trans settings, ?_⟩
      rw [List.append_nil, ← List.append_assoc]
      exact admits.trans more

theorem asks_welcome {socket : SocketId} (welcoming : Welcoming allowed) :
    (server.welcome socket now).Asks allowed := by
  have noted (level : Log.Level) (text : String) : (Poll.log level text).Asks allowed :=
    asks_log.mpr (welcoming.record _)
  refine (asks_nic.mpr (welcoming.remote socket)).bind fun remote => ?_
  cases server.vacant? with
  | none =>
    exact (noted _ _).bind fun _ => (asks_nic.mpr (welcoming.refuse socket)).bind fun _ => trivial
  | some id => exact (noted _ _).bind fun _ => trivial

theorem asks_admitAll {most : Nat} (welcoming : Welcoming allowed) :
    (server.admitAll now most).Asks allowed := by
  induction most generalizing server with
  | zero => trivial
  | succ most ih =>
    refine (welcoming.asks server).bind fun found => ?_
    cases found with
    | none => trivial
    | some socket =>
      exact (asks_welcome welcoming).bind fun admitted => ih.bind fun rest => trivial

theorem asks_relisten (searches : Searches allowed)
    (listen : ∀ port, allowed (.call (.listen port)))
    (record : ∀ record, allowed (.record record)) : server.relisten.Asks allowed := by
  refine (Nic.asks_isListening searches.count searches.status searches.bound).bind
    fun listening => ?_
  cases listening with
  | true => trivial
  | false =>
    refine (asks_nic.mpr (listen _)).bind fun opened => ?_
    cases opened with
    | ok socket => trivial
    | error error => exact (asks_log.mpr (record _)).bind fun _ => trivial

theorem asks_accept (admitting : Admitting allowed) : (server.accept now).Asks allowed := by
  refine (asks_admitAll admitting.toWelcoming).bind fun ⟨any, admitted⟩ => ?_
  cases any with
  | false => trivial
  | true => exact asks_relisten admitting.toSearches admitting.listen admitting.record

theorem path_relisten (path : Path server.relisten trace after) : after = server := by
  rw [relisten, path_bind] at path
  obtain ⟨asking, rest, listening, rfl, -, path⟩ := path
  cases listening with
  | true => exact (path_done.mp path).2
  | false =>
    simp only [Bool.false_eq_true, if_false] at path
    rw [Nic.listen, path_nic_bind] at path
    obtain ⟨opened, rest, rfl, path⟩ := path
    cases opened with
    | ok socket => exact (path_done.mp path).2
    | error error =>
      simp only [path_log_bind] at path
      obtain ⟨rest, rfl, path⟩ := path
      exact (path_done.mp path).2

/-- Admission leaves the clients alone that have a connection. -/
theorem path_accept (path : Path (server.accept now) trace after) :
    TakenOver now server.slots after.slots ∧
      Admits server.settings.port now trace server.slots after.slots := by
  rw [accept, path_bind] at path
  obtain ⟨admitting, rest, ⟨any, admitted⟩, rfl, admission, path⟩ := path
  obtain ⟨between, -, admits⟩ := path_admitAll admission
  cases any with
  | false =>
    obtain ⟨rfl, rfl⟩ := path_done.mp path
    rw [List.append_nil]
    exact ⟨between, admits⟩
  | true =>
    have relistens : admitted.relisten.Asks (·.isRelease = false) :=
      asks_relisten searches_spares (fun _ => rfl) fun _ => rfl
    have spares : Spares rest := Path.effect_allowed path relistens
    obtain rfl := path_relisten path
    exact ⟨between, admits.trans (.of_spares spares)⟩

variable {C : Type} {handler : MessageHandler C} {network : Link.Status} {context left : C}
  {notes : Notes}

/-- An update admits clients and serves them, or lets go of every client if the network is down. -/
theorem path_updateBy {α : Type} {lose : Server → α} {serve : Server → Poll α} {result : α}
    (path : Path (server.updateBy network now lose serve) trace result) :
    ∃ (link : LinkStatus) (rest : List Exchange), trace = ⟨.call .linkStatus, link⟩ :: rest ∧
      ((∃ reason dropped, Path (dropAll reason (List.finRange maxClients) server) rest dropped ∧
          result = lose dropped) ∧ ¬(link = .on ∧ network.ready = true) ∨
        (link = .on ∧ network.ready = true) ∧
        ∃ (admitted : Server) (asked served : List Exchange), rest = asked ++ served ∧
          Path (server.accept now) asked admitted ∧ Path (serve admitted) served result) := by
  rw [updateBy, Nic.linkStatus, path_nic_bind] at path
  obtain ⟨link, rest, rfl, path⟩ := path
  refine ⟨link, rest, rfl, ?_⟩
  have dropping {reason : String} (path : Path (do
      return lose (← dropAll reason (List.finRange maxClients) server)) rest result) :
      ∃ reason dropped, Path (dropAll reason (List.finRange maxClients) server) rest dropped ∧
        result = lose dropped := by
    rw [path_bind] at path
    obtain ⟨dropping, last, dropped, rfl, made, path⟩ := path
    obtain ⟨rfl, rfl⟩ := path_done.mp path
    rw [List.append_nil]
    exact ⟨reason, dropped, made, rfl⟩
  split at path
  · next off => exact .inl ⟨dropping path, fun up => off up.1⟩
  · next on =>
    split at path
    · next unready =>
      refine .inl ⟨dropping path, fun up => ?_⟩
      rw [up.2] at unready
      cases unready
    · next ready =>
      rw [path_bind] at path
      obtain ⟨asked, served, admitted, rfl, accepting, path⟩ := path
      have up : link = .on ∧ network.ready = true :=
        ⟨Decidable.not_not.mp on, by simpa using ready⟩
      exact .inr ⟨up, admitted, asked, served, rfl, accepting, path⟩

theorem path_updateNoting
    (path : Path (server.updateNoting handler network context now) trace ((after, left), notes)) :
    ∃ (link : LinkStatus) (rest : List Exchange), trace = ⟨.call .linkStatus, link⟩ :: rest ∧
      ((∃ reason, Path (dropAll reason (List.finRange maxClients) server) rest after) ∧
          notes = [] ∧ ¬(link = .on ∧ network.ready = true) ∨
        (link = .on ∧ network.ready = true) ∧
        ∃ (admitted : Server) (asked served : List Exchange), rest = asked ++ served ∧
          Path (server.accept now) asked admitted ∧
          Path (serviceAllNoting handler now (List.finRange maxClients) admitted context) served
            ((after, left), notes)) := by
  rw [updateNoting_eq_updateBy] at path
  obtain ⟨link, rest, rfl, ⟨⟨reason, dropped, dropping, same⟩, down⟩ | ⟨up, serving⟩⟩ :=
    path_updateBy path
  · cases same
    exact ⟨link, rest, rfl, .inl ⟨⟨reason, dropping⟩, rfl, down⟩⟩
  · exact ⟨link, rest, rfl, .inr ⟨up, serving⟩⟩

/-- Bytes are only taken in the clients' turns. -/
theorem givenOn_served {admitted : Server} {asked served : List Exchange} {link : LinkStatus}
    (accepting : Path (server.accept now) asked admitted) (socket : SocketId) :
    givenOn socket (⟨.call .linkStatus, link⟩ :: (asked ++ served)) = givenOn socket served := by
  change givenOn socket (asked ++ served) = _
  rw [givenOn_append, givenOn_of_deaf accepting (asks_accept admitting_deaf) socket,
    List.nil_append]

/-- When the network is up, admitting clients and serving them is an update. -/
theorem path_updateBy_of_ready {α : Type} {lose : Server → α} {serve : Server → Poll α} {result : α}
    {admitted : Server} {asked served : List Exchange} (ready : network.ready = true)
    (accepting : Path (server.accept now) asked admitted)
    (serving : Path (serve admitted) served result) :
    Path (server.updateBy network now lose serve) (⟨.call .linkStatus, .on⟩ :: (asked ++ served))
      result := by
  rw [updateBy, Nic.linkStatus, path_nic_bind]
  refine ⟨.on, asked ++ served, rfl, ?_⟩
  simp only [ready]
  exact path_bind.mpr ⟨asked, served, admitted, rfl, accepting, serving⟩

theorem path_updateNoting_of_ready {admitted : Server} {asked served : List Exchange}
    (ready : network.ready = true) (accepting : Path (server.accept now) asked admitted)
    (serving : Path (serviceAllNoting handler now (List.finRange maxClients) admitted context)
      served ((after, left), notes)) :
    Path (server.updateNoting handler network context now)
      (⟨.call .linkStatus, .on⟩ :: (asked ++ served)) ((after, left), notes) :=
  path_updateBy_of_ready ready accepting serving

end Server

end BoardNet.WebSocket
