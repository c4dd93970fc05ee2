import BoardNet.Proofs.WebSocket.Holding
import BoardNet.Proofs.WebSocket.Table
import Mathlib.Data.Fintype.Card

namespace BoardNet

open Poll Sim

namespace Sim.Rig

variable {rig after : Rig} {trace : List Exchange} {port : UInt16}

instance (slot : Socket) (port : UInt16) : Decidable (slot.Serves port) :=
  inferInstanceAs (Decidable (_ ∧ _))

def reported (rig : Rig) : Nat := rig.faults.socketCount.getD maxSockets

/-- A scan changes nothing, and finds the first socket that passes. -/
theorem leads_firstPassing {test : SocketId → Poll Bool} {passes : SocketId → Bool}
    (tests : ∀ socket trace answer, Path (test socket) trace answer →
      ∀ after, chip.Leads rig trace after → after = rig ∧ answer = passes socket)
    {sockets : List SocketId} {found : Option SocketId}
    (path : Path (Nic.firstPassing test sockets) trace found) (leads : chip.Leads rig trace after) :
    after = rig ∧ found = sockets.find? passes := by
  induction sockets generalizing trace with
  | nil =>
    obtain ⟨rfl, rfl⟩ := path_done.mp path
    exact ⟨leads, rfl⟩
  | cons socket sockets ih =>
    rw [Nic.firstPassing, path_bind] at path
    obtain ⟨asked, rest, answer, rfl, testing, path⟩ := path
    obtain ⟨between, tested, going⟩ := Chip.leads_append.mp leads
    obtain ⟨rfl, rfl⟩ := tests socket asked answer testing between tested
    rw [List.find?_cons]
    cases passed : passes socket with
    | true =>
      rw [passed] at path
      obtain ⟨rfl, rfl⟩ := path_done.mp path
      exact ⟨going, rfl⟩
    | false =>
      rw [passed] at path
      exact ih path going

/-- The search for a connection finds the first socket with a peer on the port that passes. -/
theorem leads_findConnected {pick : SocketId → Bool} {found : Option SocketId}
    (path : Path (Nic.findConnected port fun socket => pure (pick socket)) trace found)
    (leads : chip.Leads rig trace after) :
    after = rig ∧ found = (Nic.sockets rig.reported).find? fun socket =>
      decide ((rig.nic.socket socket).Serves port) && pick socket := by
  rw [Nic.findConnected, Nic.socketCount, path_nic_bind] at path
  obtain ⟨count, rest, rfl, path⟩ := path
  obtain ⟨rfl, leads⟩ := leads
  refine leads_firstPassing ?_ path leads
  intro socket trace answer path after leads
  rw [Nic.socketStatus, path_nic_bind] at path
  obtain ⟨status, rest, rfl, path⟩ := path
  obtain ⟨rfl, leads⟩ := leads
  split at path
  · next connected =>
    rw [Nic.socketPort, path_nic_bind] at path
    obtain ⟨bound, rest, rfl, path⟩ := path
    obtain ⟨rfl, leads⟩ := leads
    split at path
    · next same =>
      obtain ⟨rfl, rfl⟩ := path_done.mp path
      have serves : (rig.nic.socket socket).Serves port := ⟨connected, same⟩
      exact ⟨leads, by simp [serves]⟩
    · next other =>
      obtain ⟨rfl, rfl⟩ := path_done.mp path
      have elsewhere : ¬(rig.nic.socket socket).Serves port := fun serves => other serves.2
      exact ⟨leads, by simp [elsewhere]⟩
  · next alone =>
    obtain ⟨rfl, rfl⟩ := path_done.mp path
    have elsewhere : ¬(rig.nic.socket socket).Serves port := fun serves => alone serves.1
    exact ⟨leads, by simp [elsewhere]⟩

end Sim.Rig

theorem Nic.mem_sockets {count : Nat} {socket : SocketId} :
    socket ∈ Nic.sockets count ↔ socket.val < count := by
  unfold Nic.sockets
  rw [List.mem_take_iff_getElem]
  constructor
  · rintro ⟨index, within, rfl⟩
    simp only [List.getElem_finRange, Fin.val_cast]
    omega
  · intro below
    refine ⟨socket.val, ?_, ?_⟩
    · simp [below]
    · simp

namespace WebSocket.Server

variable {server admitted ended : Server} {rig after : Rig} {trace : List Exchange} {now : Millis}
  {port : UInt16} {socket : SocketId}

/-- Every connection on a port that can be seen is some client's. -/
def Covers (server : Server) (port : UInt16) (rig : Rig) : Prop :=
  ∀ socket : SocketId, socket.val < rig.reported → (rig.nic.socket socket).Serves port →
    server.holds socket = true

/-- The connections on a port that can be seen and are no client's. -/
def unheld (server : Server) (port : UInt16) (rig : Rig) : Finset SocketId :=
  Finset.univ.filter fun socket => socket.val < rig.reported ∧
    (rig.nic.socket socket).Serves port ∧ server.holds socket = false

theorem mem_unheld : socket ∈ server.unheld port rig ↔ socket.val < rig.reported ∧
    (rig.nic.socket socket).Serves port ∧ server.holds socket = false := by
  simp [unheld]

theorem covers_of_unheld (none : server.unheld port rig = ∅) : server.Covers port rig := by
  intro socket below serves
  cases held : server.holds socket with
  | true => rfl
  | false =>
    have member : socket ∈ server.unheld port rig := mem_unheld.mpr ⟨below, serves, held⟩
    rw [none] at member
    cases member

theorem holds_iff : server.holds socket = true ↔
    ∃ id, (server.slots.get id).client.phase.socket = some socket := by
  rw [← Bool.not_eq_false, holds_eq_false]
  simp

theorem reported_after (leads : Rig.chip.Leads rig trace after) : after.reported = rig.reported :=
  congrArg (·.socketCount.getD maxSockets) (Rig.faults_after leads)

/-- No call makes a connection that would have to be some client's. -/
theorem Covers.later (covers : server.Covers port rig) (leads : Rig.chip.Leads rig trace after) :
    server.Covers port after := by
  intro socket below serves
  rw [reported_after leads] at below
  exact covers socket below (Rig.serves_before leads serves)

/-- A connection that is taken over or refused is not there to be taken over again. -/
theorem unheld_welcome (member : socket ∈ server.unheld port rig)
    (path : Path (server.welcome socket now) trace admitted)
    (leads : Rig.chip.Leads rig trace after) :
    admitted.unheld port after ⊂ server.unheld port rig := by
  obtain ⟨-, outcome⟩ := path_welcome_cases path
  have kept {other : SocketId} (free : admitted.holds other = false) :
      server.holds other = false := by
    refine holds_eq_false.mpr fun id held => ?_
    refine holds_eq_false.mp free id ?_
    rcases outcome with ⟨taker, remote, vacant, -, slots⟩ | ⟨slots, -⟩
    · have different : taker ≠ id := by
        rintro rfl
        exact Slot.not_vacant held vacant
      rw [slots, get_set_other different]
      exact held
    · rw [slots]
      exact held
  have gone : socket ∉ admitted.unheld port after := by
    intro still
    obtain ⟨-, serves, free⟩ := mem_unheld.mp still
    rcases outcome with ⟨taker, remote, vacant, -, slots⟩ | ⟨slots, before, -, rfl⟩
    · refine holds_eq_false.mp free taker ?_
      rw [slots, get_set_self]
      rfl
    · have forsaken : Forsaken socket (before ++ [⟨.call (.close socket), ()⟩]) :=
        ⟨_, List.mem_append_right _ (List.mem_singleton_self _), .inl ⟨rfl, rfl⟩⟩
      exact Rig.not_serves_of_forsaken leads forsaken serves
  refine Finset.ssubset_iff_subset_ne.mpr ⟨?_, ?_⟩
  · intro other still
    obtain ⟨below, serves, free⟩ := mem_unheld.mp still
    rw [reported_after leads] at below
    exact mem_unheld.mpr ⟨below, Rig.serves_before leads serves, kept free⟩
  · intro same
    rw [same] at gone
    exact gone member

/-- Admission goes on until every connection that can be seen is some client's. -/
theorem covers_admitAll {most : Nat} {any : Bool}
    (few : (server.unheld server.settings.port rig).card ≤ most)
    (path : Path (server.admitAll now most) trace (any, admitted))
    (leads : Rig.chip.Leads rig trace after) : admitted.Covers server.settings.port after := by
  induction most generalizing server rig trace any with
  | zero =>
    obtain ⟨rfl, same⟩ := path_done.mp path
    cases same
    rw [show after = rig from leads]
    exact covers_of_unheld (Finset.card_eq_zero.mp (Nat.le_zero.mp few))
  | succ most ih =>
    rw [admitAll, path_bind] at path
    obtain ⟨finding, rest, found, rfl, scanned, path⟩ := path
    obtain ⟨between, scanning, going⟩ := Chip.leads_append.mp leads
    obtain ⟨rfl, searched⟩ := Rig.leads_findConnected scanned scanning
    cases found with
    | none =>
      obtain ⟨rfl, same⟩ := path_done.mp path
      cases same
      rw [show after = between from going]
      intro socket below serves
      have passed := List.find?_eq_none.mp searched.symm socket (Nic.mem_sockets.mpr below)
      simpa [serves] using passed
    | some socket =>
      have passed := List.find?_some searched.symm
      have below := Nic.mem_sockets.mp (List.mem_of_find?_eq_some searched.symm)
      have member : socket ∈ server.unheld server.settings.port between := by
        simp only [Bool.and_eq_true, decide_eq_true_eq, Bool.not_eq_true'] at passed
        exact mem_unheld.mpr ⟨below, passed⟩
      rw [path_bind] at path
      obtain ⟨welcoming, rest, welcomed, rfl, taken, path⟩ := path
      rw [path_bind] at path
      obtain ⟨further, last, ⟨more, final⟩, rfl, admitting, path⟩ := path
      obtain ⟨rfl, same⟩ := path_done.mp path
      cases same
      rw [List.append_nil] at going
      obtain ⟨met, welcoming, going⟩ := Chip.leads_append.mp going
      -- taken over or refused, there is one connection less to come
      have fewer := Finset.card_lt_card (unheld_welcome member taken welcoming)
      have settings := (path_welcome_cases taken).1
      rw [← settings] at fewer few ⊢
      exact ih (by omega) admitting going

/-- There are no more connections than sockets, so admission stops for want of them. -/
theorem covers_accept (path : Path (server.accept now) trace admitted)
    (leads : Rig.chip.Leads rig trace after) : admitted.Covers server.settings.port after := by
  rw [accept, path_bind] at path
  obtain ⟨admitting, rest, ⟨any, taken⟩, rfl, admission, path⟩ := path
  obtain ⟨between, admits, going⟩ := Chip.leads_append.mp leads
  have covers := covers_admitAll (Finset.card_le_univ _) admission admits
  cases any with
  | false =>
    obtain ⟨rfl, rfl⟩ := path_done.mp path
    exact covers.later going
  | true =>
    obtain rfl := path_relisten path
    exact covers.later going

variable {C : Type} {handler : MessageHandler C} {context left : C} {notes : Notes}
  {ids : List (Fin maxClients)}

/-- A turn loses the client a connection only by ending it. -/
theorem Covers.serviced (keeps : handler.KeepsPhase) (covers : server.Covers port rig)
    (path : Path (serviceAllNoting handler now ids server context) trace ((ended, left), notes))
    (leads : Rig.chip.Leads rig trace after) : ended.Covers port after := by
  induction ids generalizing server context trace notes rig with
  | nil =>
    obtain ⟨rfl, same⟩ := path_done.mp path
    cases same
    exact covers.later leads
  | cons first ids ih =>
    obtain ⟨turning, further, turned, events, serviced, later, rfl, -, turns, -, slots, going⟩ :=
      path_serviceAllNoting_cons path
    obtain ⟨between, leads, onward⟩ := Chip.leads_append.mp leads
    refine ih ?_ going onward
    intro socket below serves
    rw [reported_after leads] at below
    obtain ⟨id, held⟩ := holds_iff.mp (covers socket below (Rig.serves_before leads serves))
    refine holds_iff.mpr ⟨id, ?_⟩
    rw [slots]
    by_cases own : first = id
    · subst own
      rw [get_set_self]
      rcases Turn.stays_serviceNoting keeps turns with none | same
      · have letGo := Turn.letGo_service keeps held turns (Phase.socket_eq_none.mp none)
        exact absurd serves (Rig.not_serves_of_forsaken leads letGo.forsaken)
      · exact same.trans held
    · rw [get_set_other own]
      exact held

theorem mem_socketsOf : socket ∈ server.socketsOf (List.finRange maxClients) ↔
    server.holds socket = true := by
  rw [holds_iff, socketsOf, List.mem_filterMap]
  constructor
  · rintro ⟨id, -, held⟩
    exact ⟨id, held⟩
  · rintro ⟨id, held⟩
    exact ⟨id, List.mem_finRange id, held⟩

theorem nodup_socketsOf (apart : Apart server.slots) :
    (server.socketsOf (List.finRange maxClients)).Nodup :=
  (List.nodup_finRange maxClients).filterMap fun id other socket holds too =>
    apart id other socket holds too

variable {network : Link.Status}

/-- After an update with the network up, every connection that can be seen on the service port is
some client's. -/
theorem covers_updated (keeps : handler.KeepsPhase)
    (up : rig.nic.link = .on ∧ network.ready = true)
    (path : Path (server.update handler network context now) trace (ended, left))
    (leads : Rig.chip.Leads rig trace after) : ended.Covers server.settings.port after := by
  obtain ⟨notes, path⟩ := noting_of_path path
  obtain ⟨link, rest, rfl, ⟨-, -, down⟩ | ⟨-, admitted, asked, served, rfl, accepting, serving⟩⟩ :=
    path_updateNoting path
  · obtain ⟨rfl, -⟩ := leads
    exact absurd up down
  · obtain ⟨-, leads⟩ := leads
    obtain ⟨between, admission, turns⟩ := Chip.leads_append.mp leads
    exact (covers_accept accepting admission).serviced keeps serving turns

/-- It is one client's only. -/
theorem exists_unique_holder (keeps : handler.KeepsPhase) (apart : Apart server.slots)
    (up : rig.nic.link = .on ∧ network.ready = true)
    (path : Path (server.update handler network context now) trace (ended, left))
    (leads : Rig.chip.Leads rig trace after) (below : socket.val < rig.reported)
    (serves : (after.nic.socket socket).Serves server.settings.port) :
    ∃! id, (ended.client id).phase.socket = some socket := by
  have still := apart.updated keeps path
  have visible : socket.val < after.reported := by
    rw [reported_after leads]
    exact below
  obtain ⟨id, held⟩ := holds_iff.mp (covers_updated keeps up path leads socket visible serves)
  exact ⟨id, held, fun other too => still other id socket too held⟩

/-- An update with the network down closes what the clients had, and asks for nothing else. -/
theorem dropped_update (down : ¬(rig.nic.link = .on ∧ network.ready = true))
    (path : Path (server.update handler network context now) trace (ended, left))
    (leads : Rig.chip.Leads rig trace after) :
    callsIn trace = .call .linkStatus ::
        (server.socketsOf (List.finRange maxClients)).map (.call <| .close ·) ∧
      after.nic = rig.nic.closeAll (server.socketsOf (List.finRange maxClients)) ∧
      ∀ id, (ended.slots.get id).Cleared ∨
        ended.slots.get id = server.slots.get id ∧ (server.slots.get id).Vacant := by
  obtain ⟨notes, path⟩ := noting_of_path path
  obtain ⟨link, rest, rfl, ⟨⟨reason, dropping⟩, -, -⟩ | ⟨up, -⟩⟩ := path_updateNoting path
  · obtain ⟨calls, slots⟩ := dropped (List.nodup_finRange maxClients) dropping
    obtain ⟨-, leads⟩ := leads
    refine ⟨?_, Rig.nic_of_closes calls leads, ?_⟩
    · rw [← calls]
      rfl
    · intro id
      rcases slots id with ⟨-, cleared⟩ | ⟨same, vacant⟩
      · exact .inl cleared
      · exact .inr ⟨same, vacant (List.mem_finRange id)⟩
  · obtain ⟨rfl, -⟩ := leads
    exact absurd up down

variable {given : Fin maxClients → Prop}

/-- In every state that a server can come to, a client is disconnected just when it has no socket,
and no two clients have the same one. After an update with the network up, every connection that can
be seen on the service port is exactly one client's. An update with the network down closes the
socket of each client that had one, once, and touches no other; it leaves every client with nothing
but subscriptions that the application gave it while it had no connection. The first of these is so
by the type of a phase, which keeps state and socket together; that the socket changes with the
state only is `path_update_admits`. -/
theorem sockets_accounted (keeps : handler.KeepsPhase) (reachable : Reachable handler server given)
    (network : Link.Status) (context : C) (now : Millis) (rig : Rig) :
    (∀ id, (server.client id).phase = .disconnected ↔ (server.client id).phase.socket = none) ∧
      (∀ id other socket, (server.client id).phase.socket = some socket →
        (server.client other).phase.socket = some socket → id = other) ∧
      let step := server.update handler network context now
      let ran := step.run Rig.chip rig
      if rig.nic.link = .on ∧ network.ready = true then
        ∀ socket : SocketId, socket.val < rig.reported →
          (ran.state.nic.socket socket).Serves server.settings.port →
          ∃! id, (ran.value.1.client id).phase.socket = some socket
      else
        (∀ id, (ran.value.1.slots.get id).Bare ∧
          (¬given id → (ran.value.1.client id).subscriptions = {})) ∧
        (callsIn (step.exchanges Rig.chip rig) = .call .linkStatus ::
          (server.socketsOf (List.finRange maxClients)).map (.call <| .close ·)) ∧
        ∀ socket, ran.state.nic.socket socket =
          if server.holds socket then (rig.nic.socket socket).closed
          else rig.nic.socket socket := by
  have apart := reachable.apart keeps
  refine ⟨fun id => Phase.socket_eq_none.symm, apart, ?_⟩
  intro step ran
  have path : Path step (step.exchanges Rig.chip rig) ran.value := path_run Rig.chip step rig
  have leads : Rig.chip.Leads rig (step.exchanges Rig.chip rig) ran.state := Chip.leads_run step rig
  split
  · next up =>
    intro socket below serves
    exact exists_unique_holder keeps apart up path leads below serves
  · next down =>
    obtain ⟨calls, closed, slots⟩ := dropped_update down path leads
    refine ⟨?_, calls, ?_⟩
    · intro id
      rcases slots id with cleared | ⟨same, vacant⟩
      · exact ⟨cleared.bare.1, fun _ => cleared.bare.2⟩
      · obtain ⟨bare, empty⟩ := reachable.bare keeps vacant
        rw [client, same]
        exact ⟨bare, empty⟩
    · intro socket
      obtain ⟨cut, spared⟩ := Controller.socket_closeAll (nodup_socketsOf apart)
      rw [closed]
      split
      · next held => exact cut (mem_socketsOf.mpr held)
      · next free => exact spared fun member => free (mem_socketsOf.mp member)

def called : Controller := ((({} : Controller).listen 81).2.connect 81 .unspecified []).2

/-- A server that has taken over the connection of that peer. -/
def takenOver : Server :=
  (({} : Server).update Session.indifferent steadyLink () 0).run Rig.chip { nic := called }
    |>.value.1

theorem taken_over_then_closed :
    let cut : Rig := { nic := { called with link := .off } }
    let ran := (takenOver.update Session.indifferent steadyLink () 1).run Rig.chip cut
    (takenOver.client ⟨0, by decide⟩).phase = .upgrading ⟨0, by decide⟩ ∧
      (∀ id, (ran.value.1.slots.get id).Bare ∧ (ran.value.1.client id).subscriptions = {}) ∧
      ran.state.nic.socket ⟨0, by decide⟩ = (cut.nic.socket ⟨0, by decide⟩).closed := by
  have keeps : Session.indifferent.KeepsPhase := fun _ _ _ => rfl
  have phase : (takenOver.client ⟨0, by decide⟩).phase = .upgrading ⟨0, by decide⟩ := by
    decide +kernel
  have held : takenOver.holds ⟨0, by decide⟩ = true := by decide +kernel
  have reachable : Reachable Session.indifferent takenOver _ :=
    .updated (.fresh {}) (path_run Rig.chip _ { nic := called })
  intro cut ran
  obtain ⟨-, -, accounted⟩ := sockets_accounted keeps reachable steadyLink () 1 cut
  have down : ¬(cut.nic.link = .on ∧ steadyLink.ready = true) := nofun
  rw [if_neg down] at accounted
  obtain ⟨slots, -, sockets⟩ := accounted
  refine ⟨phase, ?_, ?_⟩
  · intro id
    obtain ⟨bare, empty⟩ := slots id
    exact ⟨bare, empty fun given => given.1⟩
  · have closed := sockets ⟨0, by decide⟩
    rw [if_pos held] at closed
    exact closed

/-- A server of which the application has subscribed a client to a topic before anyone called. -/
def subscribedEarly : Server :=
  let id : Fin maxClients := ⟨0, by decide⟩
  ({} : Server).setClient id ((({} : Server).client id).subscribe "t").2

/-- What the application subscribes a client to while it has no connection outlives an update with
the network down. -/
theorem subscriptions_outlive_update :
    (∃ given, Reachable Session.indifferent subscribedEarly given) ∧
      let cut : Rig := { nic := { link := .off } }
      let ran := (subscribedEarly.update Session.indifferent steadyLink () 0).run Rig.chip cut
      (ran.value.1.client ⟨0, by decide⟩).phase = .disconnected ∧
        (ran.value.1.client ⟨0, by decide⟩).subscriptions ≠ {} := by
  constructor
  · have used := @used_setClient {} ⟨0, by decide⟩
      [.subscribe ((({} : Server).client ⟨0, by decide⟩).subscribe "t").2.subscriptions]
    rw [← Client.subscribe_eq_useAll] at used
    exact ⟨_, .used (.fresh {}) used⟩
  · decide +kernel

end WebSocket.Server

end BoardNet
