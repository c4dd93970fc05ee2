import BoardNet.Proofs.WebSocket.Occupancy

namespace BoardNet

open Poll Sim

namespace Sim

/-- A slot listens on a port. -/
def Socket.Listens (port : UInt16) (slot : Socket) : Prop :=
  slot.status = .listen ∧ slot.port = port

/-- Some slot listens on a port. -/
def Controller.Listens (nic : Controller) (port : UInt16) : Prop :=
  ∃ socket, (nic.socket socket).Listens port

instance (slot : Socket) (port : UInt16) : Decidable (slot.Listens port) :=
  inferInstanceAs (Decidable (_ ∧ _))

instance (nic : Controller) (port : UInt16) : Decidable (nic.Listens port) :=
  inferInstanceAs (Decidable (∃ _, _))

/-- Where nobody listens on a port, listening on it opens just the slot that is answered. -/
theorem Controller.listens_listen {nic : Controller} {port : UInt16} {test : SocketId → Prop}
    (silent : ¬nic.Listens port) :
    (∃ socket, ((nic.listen port).2.socket socket).Listens port ∧ test socket) ↔
      ∃ slot, (nic.listen port).1 = .ok slot ∧ test slot := by
  cases opened : (nic.listen port).1 with
  | error error =>
    rw [listen_error opened]
    constructor
    · rintro ⟨socket, listens, -⟩
      exact absurd ⟨socket, listens⟩ silent
    · rintro ⟨slot, same, -⟩
      cases same
  | ok slot =>
    rw [(listen_ok opened).2]
    constructor
    · rintro ⟨socket, listens, fine⟩
      by_cases same : slot = socket
      · exact ⟨slot, rfl, same ▸ fine⟩
      · rw [socket_modify_other same] at listens
        exact absurd ⟨socket, listens⟩ silent
    · rintro ⟨other, same, fine⟩
      cases same
      refine ⟨slot, ?_, fine⟩
      rw [socket_modify_self]
      exact ⟨rfl, rfl⟩

/-- Listening works out if a slot is closed. -/
theorem Controller.listen_of_closed {nic : Controller} (able : nic.listenFails = false)
    (vacancy : ∃ socket, (nic.socket socket).status = .closed) (port : UInt16) :
    ∃ slot, (nic.listen port).1 = .ok slot := by
  unfold listen
  rw [able, if_neg Bool.false_ne_true]
  cases found : nic.firstSocket? (·.status = .closed) with
  | some slot => exact ⟨slot, rfl⟩
  | none =>
    obtain ⟨socket, closed⟩ := vacancy
    have passed := List.find?_eq_none.mp found socket (List.mem_finRange socket)
    simp [closed] at passed

namespace Rig

variable {rig after : Rig} {trace : List Exchange} {port : UInt16}

/-- The search for a listener finds whether there is one among the sockets that can be seen. -/
theorem leads_isListening {found : Bool} (path : Path (Nic.isListening port) trace found)
    (leads : chip.Leads rig trace after) :
    after = rig ∧ (found = true ↔
      ∃ socket : SocketId, socket.val < rig.reported ∧ (rig.nic.socket socket).Listens port) := by
  rw [Nic.isListening, Nic.socketCount, path_nic_bind] at path
  obtain ⟨count, rest, rfl, path⟩ := path
  obtain ⟨rfl, leads⟩ := leads
  obtain ⟨asked, last, socket, rfl, scanned, path⟩ := path_bind.mp path
  obtain ⟨rfl, rfl⟩ := path_done.mp path
  rw [List.append_nil] at leads
  have tests : ∀ socket trace answer, Path (do
        let status ← Nic.socketStatus socket
        if status = .listen then
          let bound ← Nic.socketPort socket
          return decide (bound = port)
        else return false : Poll Bool) trace answer →
      ∀ after, chip.Leads rig trace after →
        after = rig ∧ answer = decide ((rig.nic.socket socket).Listens port) := by
    intro socket trace answer path after leads
    rw [Nic.socketStatus, path_nic_bind] at path
    obtain ⟨status, rest, rfl, path⟩ := path
    obtain ⟨rfl, leads⟩ := leads
    split at path
    · next listening =>
      rw [Nic.socketPort, path_nic_bind] at path
      obtain ⟨bound, rest, rfl, path⟩ := path
      obtain ⟨rfl, leads⟩ := leads
      obtain ⟨rfl, rfl⟩ := path_done.mp path
      have listening : (rig.nic.socket socket).status = .listen := listening
      refine ⟨leads, ?_⟩
      change decide ((rig.nic.socket socket).port = port) = _
      simp [Socket.Listens, listening]
    · next silent =>
      obtain ⟨rfl, rfl⟩ := path_done.mp path
      have silent : (rig.nic.socket socket).status ≠ .listen := silent
      exact ⟨leads, by simp [Socket.Listens, silent]⟩
  obtain ⟨same, searched⟩ := leads_firstPassing tests scanned leads
  refine ⟨same, ?_⟩
  rw [searched, List.find?_isSome]
  constructor
  · rintro ⟨socket, member, listens⟩
    exact ⟨socket, Nic.mem_sockets.mp member, of_decide_eq_true listens⟩
  · rintro ⟨socket, below, listens⟩
    exact ⟨socket, Nic.mem_sockets.mpr below, decide_eq_true listens⟩

end Rig

end Sim

namespace WebSocket

/-- What is asked when connections are taken over or refused. -/
def Welcomes : Effect → Prop
  | .call .socketCount | .call (.socketStatus _) | .call (.socketPort _) | .call (.remoteIp _)
  | .call (.close _) | .record _ => True
  | _ => False

theorem welcoming_welcomes : Server.Welcoming Welcomes where
  count := trivial
  status := fun _ => trivial
  bound := fun _ => trivial
  remote := fun _ => trivial
  refuse := fun _ => trivial
  record := fun _ => trivial

/-- What is done in the turn of a client. -/
def Tends (effect : Effect) : Prop :=
  (∃ socket, effect.about = some socket) ∨ ∃ record, effect = .record record

theorem attends_tends (socket : SocketId) : Attends Tends socket where
  record := fun record => .inr ⟨record, rfl⟩
  call := fun _ about _ _ => .inl ⟨socket, about⟩
  recv := fun _ => .inl ⟨socket, rfl⟩

theorem feeds_tends (socket : SocketId) : Feeds Tends socket where
  toSuits := (attends_tends socket).toSuits
  room := .inl ⟨socket, rfl⟩
  send := fun _ => .inl ⟨socket, rfl⟩

theorem Tends.about {call : Nic.Call} (tends : Tends (.call call)) :
    ∃ socket, (Effect.call call).about = some socket := by
  rcases tends with about | ⟨record, same⟩
  · exact about
  · cases same

theorem Tends.not_listen {effect : Effect} (tends : Tends effect) (port : UInt16) :
    effect ≠ .call (.listen port) := by
  rintro rfl
  obtain ⟨socket, about⟩ := tends.about
  cases about

section Turns

variable {C : Type} {turn after : Turn C} {socket : SocketId} {settings : Settings}
  {handler : MessageHandler C} {now : Millis} {trace : List Exchange} {events : List Event}
  {nic last : Controller}

/-- What turns do leaves a slot without a listener. -/
theorem deaf_of_tends (tends : ∀ exchange ∈ trace, Tends exchange.effect)
    (leads : Controller.chip.Leads nic trace last)
    (deaf : (nic.socket socket).status ≠ .listen) : (last.socket socket).status ≠ .listen :=
  Controller.deaf_after leads (fun exchange member => (tends exchange member).not_listen) deaf

/-- What turns do on other sockets leaves a slot as it is. -/
theorem same_of_tends (tends : ∀ exchange ∈ trace, Tends exchange.effect)
    (untouched : Untouched socket trace) (leads : Controller.chip.Leads nic trace last) :
    last.socket socket = nic.socket socket := by
  refine leads.keeps (fun between => between.socket socket = nic.socket socket) ?_ rfl
  intro exchange member call made between same
  have tending := tends exchange member
  have other := untouched exchange member
  rw [made] at tending other
  obtain ⟨own, about⟩ := tending.about
  have different : own ≠ socket := by
    rintro rfl
    exact other about
  exact (Controller.socket_answer_other about different).trans same

/-- A listener on the slot of a client is taken for a connection whose peer is gone, and closed. -/
theorem Turn.deaf_checkPeer (path : Path (turn.checkPeer socket) trace after)
    (leads : Controller.chip.Leads nic trace last) : (last.socket socket).status ≠ .listen := by
  by_cases listening : (nic.socket socket).status = .listen
  · rw [checkPeer, Nic.socketStatus, path_nic_bind] at path
    obtain ⟨status, rest, rfl, path⟩ := path
    obtain ⟨shown, leads⟩ := leads
    have shown : status = .listen := shown.trans listening
    subst shown
    have gone : turn.peerGone socket .listen = pure true := rfl
    rw [gone, pure_bind] at path
    simp only [if_true, path_log_bind] at path
    obtain ⟨rest, rfl, path⟩ := path
    rw [if_pos (by decide), Nic.close, path_nic_bind] at path
    obtain ⟨_, rest, rfl, path⟩ := path
    obtain ⟨rfl, -⟩ := path_done.mp path
    obtain ⟨-, same⟩ := leads
    rw [show last = nic.close socket from same, Controller.socket_close, if_pos rfl]
    have shut : SocketStatus.closed ≠ .listen := by decide
    exact shut
  · have own := attends_tends socket
    exact deaf_of_tends (path.effect_allowed (asks_checkPeer own.toSuits)) leads listening

theorem Turn.tends_serviceNoting
    (path : Path (turn.serviceNoting settings handler now) trace (after, events)) :
    ∀ exchange ∈ trace, Tends exchange.effect := by
  have served : Path (turn.service settings handler now) trace after := by
    rw [← fst_serviceNoting]
    exact path_map.mpr ⟨_, path, rfl⟩
  exact served.effect_allowed (asks_service attends_tends feeds_tends)

/-- So it is closed in the client's turn. -/
theorem Turn.deaf_serviceNoting (held : turn.slot.client.phase.socket = some socket)
    (path : Path (turn.serviceNoting settings handler now) trace (after, events))
    (leads : Controller.chip.Leads nic trace last) : (last.socket socket).status ≠ .listen := by
  have tends := tends_serviceNoting path
  obtain ⟨checking, asking, talking, sending, ending, present, _, _, _, _, _, rfl, -, checked, -⟩ :=
    path_serviceNoting held path
  obtain ⟨between, looked, leads⟩ := Chip.leads_append.mp leads
  have later := fun exchange member => tends exchange (List.mem_append_right checking member)
  exact deaf_of_tends later leads (deaf_checkPeer checked looked)

end Turns

namespace Server

variable {server admitted ended : Server} {nic last : Controller} {trace : List Exchange}
  {now : Millis} {socket : SocketId}

/-- Admission leaves alone what has no peer on the port, and nobody comes to hold it. -/
theorem admitAll_spares {most : Nat} {any : Bool}
    (path : Path (server.admitAll now most) trace (any, admitted))
    (leads : Controller.chip.Leads nic trace last)
    (alone : ¬(nic.socket socket).Serves server.settings.port) :
    last.socket socket = nic.socket socket ∧ admitted.holds socket = server.holds socket := by
  obtain ⟨answered, -⟩ := Controller.leads_iff_answered.mp leads
  obtain ⟨-, -, admits⟩ := path_admitAll path
  constructor
  · refine leads.keeps (fun between => between.socket socket = nic.socket socket) ?_ rfl
    intro exchange member call made between same
    have welcomes := path.effect_allowed (asks_admitAll welcoming_welcomes) exchange member
    rw [made] at welcomes
    cases call with
    | close refused =>
      have different : refused ≠ socket := by
        rintro rfl
        have found := admits.refused exchange member refused (by rw [made]; exact ⟨rfl, rfl⟩)
        exact alone (serves_of_found answered found)
      change (between.close refused).socket socket = _
      rw [Controller.socket_close, if_neg different]
      exact same
    | socketCount | socketStatus | socketPort | remoteIp => exact same
    | _ => cases welcomes
  · rw [Bool.eq_iff_iff, holds_iff, holds_iff]
    constructor
    · rintro ⟨id, held⟩
      rcases admits.slots id with same | ⟨-, taken, remote, attached, found⟩
      · exact ⟨id, same ▸ held⟩
      · rw [attached] at held
        cases held
        exact absurd (serves_of_found answered found) alone
    · rintro ⟨id, held⟩
      exact ⟨id, admits.kept held ▸ held⟩

/-- Admission opens no listener. -/
theorem deaf_admitAll {most : Nat} {any : Bool}
    (path : Path (server.admitAll now most) trace (any, admitted))
    (leads : Controller.chip.Leads nic trace last) (deaf : (nic.socket socket).status ≠ .listen) :
    (last.socket socket).status ≠ .listen := by
  refine Controller.deaf_after leads ?_ deaf
  intro exchange member port listens
  have welcomes := path.effect_allowed (asks_admitAll welcoming_welcomes) exchange member
  rw [listens] at welcomes
  cases welcomes

/-- Admission takes no listener away, and opens none. -/
theorem listens_admitAll {most : Nat} {any : Bool}
    (path : Path (server.admitAll now most) trace (any, admitted))
    (leads : Controller.chip.Leads nic trace last) (socket : SocketId) :
    (last.socket socket).Listens server.settings.port ↔
      (nic.socket socket).Listens server.settings.port := by
  by_cases serves : (nic.socket socket).Serves server.settings.port
  · have after := deaf_admitAll path leads serves.not_listen
    constructor
    · intro opened
      exact absurd opened.1 after
    · intro listening
      exact absurd listening.1 serves.not_listen
  · rw [(admitAll_spares path leads serves).1]

/-- Nor does it give a listener to a client. -/
theorem free_listener_admitAll {most : Nat} {any : Bool}
    (path : Path (server.admitAll now most) trace (any, admitted))
    (leads : Controller.chip.Leads nic trace last) :
    (∃ socket, (last.socket socket).Listens server.settings.port ∧
        admitted.holds socket = false) ↔
      ∃ socket, (nic.socket socket).Listens server.settings.port ∧
        server.holds socket = false := by
  refine exists_congr fun socket => ?_
  rw [listens_admitAll path leads]
  refine and_congr_right fun listening => ?_
  have alone : ¬(nic.socket socket).Serves server.settings.port :=
    fun serves => serves.not_listen listening.1
  rw [(admitAll_spares path leads alone).2]

/-- There is something to admit just when some connection on the port is no client's. -/
theorem any_admitAll {most : Nat} {any : Bool}
    (path : Path (server.admitAll now (most + 1)) trace (any, admitted))
    (leads : Controller.chip.Leads nic trace last) :
    any = true ↔ ∃ socket, (nic.socket socket).Serves server.settings.port ∧
      server.holds socket = false := by
  rw [admitAll, path_bind] at path
  obtain ⟨finding, rest, found, rfl, scanned, path⟩ := path
  obtain ⟨between, scanning, -⟩ := Chip.leads_append.mp leads
  obtain ⟨-, searched⟩ := Rig.leads_findConnected scanned (Rig.leads_of_faultless scanning)
  cases found with
  | none =>
    obtain ⟨-, same⟩ := path_done.mp path
    cases same
    refine ⟨fun some => absurd some Bool.false_ne_true, ?_⟩
    rintro ⟨socket, serves, free⟩
    have passed := List.find?_eq_none.mp searched.symm socket
      (Nic.mem_sockets.mpr socket.isLt)
    simp [serves, free] at passed
  | some socket =>
    obtain ⟨_, _, _, -, -, path⟩ := path_bind.mp path
    obtain ⟨_, _, ⟨_, _⟩, -, -, path⟩ := path_bind.mp path
    obtain ⟨-, same⟩ := path_done.mp path
    cases same
    have passed := List.find?_some searched.symm
    simp only [Bool.and_eq_true, decide_eq_true_eq, Bool.not_eq_true'] at passed
    exact ⟨fun _ => ⟨socket, passed⟩, fun _ => rfl⟩

/-- A listener is opened where there is none. -/
theorem leads_relisten (path : Path server.relisten trace admitted)
    (leads : Controller.chip.Leads nic trace last) :
    nic.Listens server.settings.port ∧ last = nic ∨
      ¬nic.Listens server.settings.port ∧ last = (nic.listen server.settings.port).2 := by
  rw [relisten, path_bind] at path
  obtain ⟨asking, rest, listening, rfl, searched, path⟩ := path
  obtain ⟨between, looked, onward⟩ := Chip.leads_append.mp leads
  obtain ⟨same, found⟩ := Rig.leads_isListening searched (Rig.leads_of_faultless looked)
  obtain rfl : between = nic := congrArg Rig.nic same
  have found : listening = true ↔ between.Listens server.settings.port := by
    refine found.trans ⟨?_, ?_⟩
    · rintro ⟨socket, -, listens⟩
      exact ⟨socket, listens⟩
    · rintro ⟨socket, listens⟩
      exact ⟨socket, socket.isLt, listens⟩
  cases listening with
  | true =>
    obtain ⟨rfl, -⟩ := path_done.mp path
    exact .inl ⟨found.mp rfl, onward⟩
  | false =>
    right
    refine ⟨fun listens => Bool.false_ne_true (found.mpr listens), ?_⟩
    simp only [Bool.false_eq_true, if_false] at path
    rw [Nic.listen, path_nic_bind] at path
    obtain ⟨opened, rest, rfl, path⟩ := path
    obtain ⟨-, onward⟩ := onward
    cases opened with
    | ok socket =>
      obtain ⟨rfl, -⟩ := path_done.mp path
      exact onward
    | error error =>
      simp only [path_log_bind] at path
      obtain ⟨rest, rfl, path⟩ := path
      obtain ⟨rfl, -⟩ := path_done.mp path
      exact onward

variable {C : Type} {handler : MessageHandler C} {context left : C} {notes : Notes}
  {ids : List (Fin maxClients)} {port : UInt16}

theorem asks_serviceAll : (serviceAll handler now ids server context).Asks Tends := by
  induction ids generalizing server context with
  | nil => trivial
  | cons first ids ih => exact (Turn.asks_service attends_tends feeds_tends).bind fun _ => ih

theorem tends_serviceAllNoting
    (path : Path (serviceAllNoting handler now ids server context) trace ((ended, left), notes)) :
    ∀ exchange ∈ trace, Tends exchange.effect := by
  have served : Path (serviceAll handler now ids server context) trace (ended, left) := by
    rw [← fst_serviceAllNoting]
    exact path_map.mpr ⟨_, path, rfl⟩
  exact served.effect_allowed asks_serviceAll

/-- No listener is left on the slots of the clients whose turns it is. -/
theorem deaf_serviceAllNoting {id : Fin maxClients} (turn : id ∈ ids)
    (held : (server.slots.get id).client.phase.socket = some socket)
    (path : Path (serviceAllNoting handler now ids server context) trace ((ended, left), notes))
    (leads : Controller.chip.Leads nic trace last) : (last.socket socket).status ≠ .listen := by
  induction ids generalizing server context trace notes nic with
  | nil => cases turn
  | cons first ids ih =>
    obtain ⟨turning, further, turned, events, serviced, later, rfl, -, turns, -, slots, going⟩ :=
      path_serviceAllNoting_cons path
    obtain ⟨between, leads, onward⟩ := Chip.leads_append.mp leads
    by_cases own : first = id
    · subst own
      have deaf := Turn.deaf_serviceNoting held turns leads
      exact deaf_of_tends (tends_serviceAllNoting going) onward deaf
    · refine ih ((List.mem_cons.mp turn).resolve_left (Ne.symm own)) ?_ going onward
      rw [slots, get_set_other own]
      exact held

/-- The listeners that are left after the turns of all clients are those on slots that nobody
has. -/
theorem listens_serviced (keeps : handler.KeepsPhase)
    (path : Path (serviceAllNoting handler now (List.finRange maxClients) server context) trace
      ((ended, left), notes))
    (leads : Controller.chip.Leads nic trace last) :
    last.Listens port ↔
      ∃ socket, (nic.socket socket).Listens port ∧ server.holds socket = false := by
  have spared (socket : SocketId) (free : server.holds socket = false) :
      last.socket socket = nic.socket socket := by
    have untouched := (path_serviceAllNoting keeps path).2.1 socket fun id _ =>
      holds_eq_false.mp free id
    exact same_of_tends (tends_serviceAllNoting path) untouched leads
  constructor
  · rintro ⟨socket, listens⟩
    cases free : server.holds socket with
    | false =>
      rw [spared socket free] at listens
      exact ⟨socket, listens, free⟩
    | true =>
      obtain ⟨id, held⟩ := holds_iff.mp free
      have deaf := deaf_serviceAllNoting (List.mem_finRange id) held path leads
      exact absurd listens.1 deaf
  · rintro ⟨socket, listens, free⟩
    refine ⟨socket, ?_⟩
    rwa [spared socket free]

/-- The server and the controller after new connections were taken over. -/
def admission (server : Server) (nic : Controller) (now : Millis) :
    Ran Controller (Bool × Server) :=
  (server.admitAll now maxSockets).run Controller.chip nic

/-- Admission leaves the closed slots, and does not keep the controller from listening. -/
theorem listen_admission (able : nic.listenFails = false)
    (vacancy : ∃ socket, (nic.socket socket).status = .closed) (now : Millis) (port : UInt16) :
    ∃ slot, ((server.admission nic now).state.listen port).1 = .ok slot := by
  have path := path_run Controller.chip (server.admitAll now maxSockets) nic
  have leads : Controller.chip.Leads nic _ _ :=
    Chip.leads_run (server.admitAll now maxSockets) nic
  refine Controller.listen_of_closed ?_ ?_ port
  · refine leads.keeps (fun nic => nic.listenFails = false) ?_ able
    intro exchange member call made between able
    have welcomes := path.effect_allowed (asks_admitAll welcoming_welcomes) exchange member
    rw [made] at welcomes
    cases call with
    | close | socketCount | socketStatus | socketPort | remoteIp => exact able
    | _ => cases welcomes
  · obtain ⟨socket, closed⟩ := vacancy
    have alone : ¬(nic.socket socket).Serves server.settings.port := by
      rintro ⟨connected, -⟩
      rw [closed] at connected
      cases connected
    refine ⟨socket, ?_⟩
    rw [admission, (admitAll_spares path leads alone).1]
    exact closed

/-- There is a listener without a client after connections were taken over if there was one before,
or if there was no listener, something was taken over, and the new listener is not put on the slot
of a client. -/
theorem listens_accepted (path : Path (server.accept now) trace admitted)
    (leads : Controller.chip.Leads nic trace last) :
    (∃ socket, (last.socket socket).Listens server.settings.port ∧
        admitted.holds socket = false) ↔
      (∃ socket, (nic.socket socket).Listens server.settings.port ∧
        server.holds socket = false) ∨
      ¬nic.Listens server.settings.port ∧
        (∃ socket, (nic.socket socket).Serves server.settings.port ∧
          server.holds socket = false) ∧
        ∃ slot, ((server.admission nic now).state.listen server.settings.port).1 = .ok slot ∧
          (server.admission nic now).value.2.holds slot = false := by
  rw [accept, path_bind] at path
  obtain ⟨admitting, rest, ⟨any, taken⟩, rfl, taking, path⟩ := path
  obtain ⟨between, admits, onward⟩ := Chip.leads_append.mp leads
  obtain ⟨ended, state⟩ := Chip.run_of_leads taking admits
  have settings := (path_admitAll taking).2.1
  have news := any_admitAll taking admits
  rw [admission, ended, state, ← news]
  have kept := free_listener_admitAll taking admits
  have silent : between.Listens server.settings.port ↔ nic.Listens server.settings.port :=
    exists_congr (listens_admitAll taking admits)
  -- only after something was taken over is it looked whether there is a listener
  cases any with
  | false =>
    obtain ⟨rfl, rfl⟩ := path_done.mp path
    obtain rfl : last = between := onward
    rw [kept]
    refine ⟨.inl, ?_⟩
    rintro (before | ⟨-, new, -⟩)
    · exact before
    · cases new
  | true =>
    obtain rfl := path_relisten path
    rcases leads_relisten path onward with ⟨listening, rfl⟩ | ⟨none, rfl⟩
    · rw [settings] at listening
      rw [kept]
      refine ⟨.inl, ?_⟩
      rintro (before | ⟨none, -⟩)
      · exact before
      · exact absurd (silent.mp listening) none
    · rw [settings] at none ⊢
      rw [Controller.listens_listen none]
      constructor
      · intro opened
        exact .inr ⟨mt silent.mpr none, rfl, opened⟩
      · rintro (⟨socket, listening, -⟩ | ⟨-, -, opened⟩)
        · exact absurd (silent.mpr ⟨socket, listening⟩) none
        · exact opened

variable {network : Link.Status}

/-- What the turns of the clients leave of the listeners are those without a client. -/
theorem listens_updated (keeps : handler.KeepsPhase)
    (up : nic.link = .on ∧ network.ready = true)
    (path : Path (server.update handler network context now) trace (ended, left))
    (leads : Controller.chip.Leads nic trace last) :
    last.Listens server.settings.port ↔
      (∃ socket, (nic.socket socket).Listens server.settings.port ∧
        server.holds socket = false) ∨
      ¬nic.Listens server.settings.port ∧
        (∃ socket, (nic.socket socket).Serves server.settings.port ∧
          server.holds socket = false) ∧
        ∃ slot, ((server.admission nic now).state.listen server.settings.port).1 = .ok slot ∧
          (server.admission nic now).value.2.holds slot = false := by
  obtain ⟨notes, path⟩ := noting_of_path path
  obtain ⟨link, rest, rfl, ⟨-, -, down⟩ | ⟨-, admitted, asked, served, rfl, accepting, serving⟩⟩ :=
    path_updateNoting path
  · obtain ⟨rfl, -⟩ := leads
    exact absurd up down
  · obtain ⟨-, leads⟩ := leads
    obtain ⟨between, accepts, serves⟩ := Chip.leads_append.mp leads
    rw [listens_serviced keeps serving serves]
    exact listens_accepted accepting accepts

theorem settings_serviceAllNoting
    (path : Path (serviceAllNoting handler now ids server context) trace ((ended, left), notes)) :
    ended.settings = server.settings := by
  induction ids generalizing server context trace notes with
  | nil =>
    obtain ⟨-, same⟩ := path_done.mp path
    cases same
    rfl
  | cons first ids ih =>
    obtain ⟨_, _, _, _, serviced, _, -, -, -, kept, -, going⟩ := path_serviceAllNoting_cons path
    exact (ih going).trans kept

theorem settings_dropAll {reason : String} (path : Path (dropAll reason ids server) trace ended) :
    ended.settings = server.settings := by
  induction ids generalizing server trace with
  | nil =>
    obtain ⟨-, rfl⟩ := path_done.mp path
    rfl
  | cons id ids ih =>
    obtain ⟨-, path⟩ | ⟨-, _, _, _, _, dropped, -, -, kept, -, path⟩ := path_dropAll_cons path
    · exact ih path
    · exact (ih path).trans kept

theorem settings_accept (path : Path (server.accept now) trace ended) :
    ended.settings = server.settings := by
  rw [accept, path_bind] at path
  obtain ⟨_, _, ⟨any, taken⟩, -, taking, path⟩ := path
  rw [← (path_admitAll taking).2.1]
  cases any with
  | false =>
    obtain ⟨-, rfl⟩ := path_done.mp path
    rfl
  | true =>
    obtain rfl := path_relisten path
    rfl

/-- An update does not change the settings. -/
theorem settings_update
    (path : Path (server.update handler network context now) trace (ended, left)) :
    ended.settings = server.settings := by
  obtain ⟨notes, path⟩ := noting_of_path path
  obtain ⟨link, rest, -, ⟨⟨reason, dropping⟩, -⟩ | ⟨-, admitted, _, _, -, accepting, serving⟩⟩ :=
    path_updateNoting path
  · exact settings_dropAll dropping
  · rw [settings_serviceAllNoting serving, settings_accept accepting]

end Server

end WebSocket

end BoardNet
