import BoardNet.Proofs.WebSocket.Release
import BoardNet.Proofs.WebSocket.Ring
import BoardNet.Proofs.WebSocket.Session
import BoardNet.Proofs.WebSocket.Use
import Mathlib.Data.List.Basic

namespace BoardNet.WebSocket

open Poll

/-- Nothing is left in the slot of a connection. -/
structure Slot.Bare (slot : Slot) : Prop where
  vacant : slot.client.phase = .disconnected
  queued : slot.client.tx.isEmpty = true
  received : slot.received = []

theorem Slot.Cleared.bare {slot : Slot} (cleared : slot.Cleared) :
    slot.Bare ∧ slot.client.subscriptions = {} := by
  obtain ⟨before, rfl⟩ := cleared
  exact ⟨⟨rfl, before.client.tx.isEmpty_clear, rfl⟩, rfl⟩

variable {C : Type} {handler : MessageHandler C} {server before after : Server}
  {network : Link.Status} {context left : C} {now : Millis} {trace : List Exchange}
  {notes : Notes} {ids : List (Fin maxClients)} {reason : String}

/-- A client that has no connection after some turns lost it there, or had none. -/
theorem Server.cleared_serviceAll (keeps : handler.KeepsPhase)
    (path : Path (serviceAllNoting handler now ids server context) trace ((after, left), notes))
    (id : Fin maxClients) (vacant : (after.slots.get id).Vacant) :
    (after.slots.get id).Cleared ∨ after.slots.get id = server.slots.get id := by
  induction ids generalizing server context trace notes with
  | nil =>
    cases (path_done.mp path).2
    exact .inr rfl
  | cons first ids ih =>
    obtain ⟨_, _, ended, _, serviced, _, -, -, turned, -, slots, going⟩ :=
      path_serviceAllNoting_cons path
    rcases ih going with cleared | same
    · exact .inl cleared
    · rw [same, slots] at vacant ⊢
      by_cases own : first = id
      · subst own
        rw [get_set_self] at vacant ⊢
        cases held : (server.slots.get first).client.phase.socket with
        | none =>
          simp only [Turn.serviceNoting, held] at turned
          cases (path_done.mp turned).2
          exact .inr rfl
        | some socket => exact .inl (Turn.letGo_service keeps held turned vacant).cleared
      · rw [get_set_other own]
        exact .inr rfl

def Server.socketsOf (server : Server) (ids : List (Fin maxClients)) : List SocketId :=
  ids.filterMap fun id => (server.client id).phase.socket

/-- Dropping closes the socket of each client once and makes no other call, and leaves every client
that had one without anything. -/
theorem Server.dropped (distinct : ids.Nodup)
    (path : Path (dropAll reason ids server) trace after) :
    Sim.callsIn trace = (server.socketsOf ids).map (.call <| .close ·) ∧
      ∀ id, id ∈ ids ∧ (after.slots.get id).Cleared ∨
        after.slots.get id = server.slots.get id ∧
          (id ∈ ids → (server.slots.get id).Vacant) := by
  induction ids generalizing server trace with
  | nil =>
    obtain ⟨rfl, rfl⟩ := path_done.mp path
    exact ⟨rfl, fun id => .inr ⟨rfl, nofun⟩⟩
  | cons first ids ih =>
    obtain ⟨out, distinct⟩ := List.nodup_cons.mp distinct
    obtain ⟨vacant, going⟩ |
        ⟨taken, record, closing, last, ended, dropped, rfl, closed, -, set, going⟩ :=
      path_dropAll_cons path
    · obtain ⟨calls, slots⟩ := ih distinct going
      constructor
      · have none : (server.client first).phase.socket = none := Phase.socket_eq_none.mpr vacant
        rw [calls, socketsOf, socketsOf, List.filterMap_cons, none]
      · intro id
        rcases slots id with ⟨member, cleared⟩ | ⟨same, still⟩
        · exact .inl ⟨List.mem_cons_of_mem first member, cleared⟩
        · refine .inr ⟨same, fun member => ?_⟩
          rcases List.mem_cons.mp member with rfl | later
          · exact vacant
          · exact still later
    · obtain ⟨socket, held⟩ := Option.ne_none_iff_exists'.mp (mt Phase.socket_eq_none.mp taken)
      obtain ⟨rfl, reset⟩ := Turn.path_forceClose_of_held closed held
      obtain ⟨calls, slots⟩ := ih distinct going
      have others {id : Fin maxClients} (different : first ≠ id) :
          dropped.slots.get id = server.slots.get id := by
        rw [set, get_set_other different]
      constructor
      -- the first client does not come again, so the others still have their sockets
      · have rest : dropped.socketsOf ids = server.socketsOf ids := by
          refine List.filterMap_congr fun id member => ?_
          have different : first ≠ id := fun same => out (same ▸ member)
          exact congrArg (fun slot : Slot => slot.client.phase.socket) (others different)
        rw [rest] at calls
        have first_held : (server.client first).phase.socket = some socket := held
        rw [socketsOf, List.filterMap_cons, first_held, List.map_cons]
        exact congrArg (.call (.close socket) :: ·) calls
      · intro id
        by_cases same : first = id
        · subst same
          rcases slots first with ⟨member, -⟩ | ⟨kept, -⟩
          · exact absurd member out
          · refine .inl ⟨List.mem_cons_self, ?_⟩
            rw [kept, set, get_set_self]
            exact ⟨_, reset⟩
        · rcases slots id with ⟨member, cleared⟩ | ⟨kept, still⟩
          · exact .inl ⟨List.mem_cons_of_mem first member, cleared⟩
          · refine .inr ⟨kept.trans (others same), fun member => ?_⟩
            have later := (List.mem_cons.mp member).resolve_left (Ne.symm same)
            exact others same ▸ still later

/-- Where sockets are closed and no other calls made, what passes is what passes as that. -/
theorem allowed_of_closes {allowed : Effect → Prop} {sockets : List SocketId}
    (calls : Sim.callsIn trace = sockets.map (.call <| .close ·))
    (close : ∀ socket, allowed (.call (.close socket)))
    (record : ∀ record, allowed (.record record)) (notify : ∀ notice, allowed (.notify notice)) :
    ∀ exchange ∈ trace, allowed exchange.effect := by
  intro exchange member
  obtain ⟨effect, answer⟩ := exchange
  cases effect with
  | record made => exact record made
  | notify notice => exact notify notice
  | call call =>
    have made : .call call ∈ Sim.callsIn trace := Sim.mem_callsIn.mpr ⟨_, member, rfl⟩
    rw [calls] at made
    obtain ⟨other, -, same⟩ := List.mem_map.mp made
    cases same
    exact close other

/-- An update leaves a client without a connection as it was, or without anything. -/
theorem Server.cleared_update (keeps : handler.KeepsPhase)
    (path : Path (server.update handler network context now) trace (after, left))
    (id : Fin maxClients) (vacant : (after.slots.get id).Vacant) :
    (after.slots.get id).Cleared ∨ after.slots.get id = server.slots.get id := by
  obtain ⟨notes, path⟩ := noting_of_path path
  obtain ⟨_, _, -, ⟨⟨_, dropping⟩, -⟩ | ⟨-, admitted, _, _, -, accepting, serving⟩⟩ :=
    path_updateNoting path
  · rcases (dropped (List.nodup_finRange maxClients) dropping).2 id with ⟨-, cleared⟩ | ⟨same, -⟩
    · exact .inl cleared
    · exact .inr same
  · rcases cleared_serviceAll keeps serving id vacant with cleared | same
    · exact .inl cleared
    · rw [same] at vacant ⊢
      rcases (path_accept accepting).2.slots id with kept | ⟨-, socket, remote, taken, -⟩
      · exact .inr kept
      · rw [taken] at vacant
        cases vacant

theorem Apart.updated (keeps : handler.KeepsPhase) (apart : Apart server.slots)
    (path : Path (server.update handler network context now) trace (after, left)) :
    Apart after.slots := by
  obtain ⟨notes, path⟩ := Server.noting_of_path path
  obtain ⟨_, _, -, ⟨⟨_, dropping⟩, -⟩ | ⟨-, admitted, _, _, -, accepting, serving⟩⟩ :=
    Server.path_updateNoting path
  · exact apart.vacated (Server.path_dropAll dropping).1
  · have between := (Server.path_accept accepting).1.apart apart
    obtain ⟨-, -, stays⟩ := Server.path_serviceAllNoting keeps serving
    exact between.stays stays

namespace Server

/-- A server in some state, whatever the controller answered. `given` are the clients whose
subscriptions the application changed while they had no connection, and had none since. -/
inductive Reachable (handler : MessageHandler C) : Server → (Fin maxClients → Prop) → Prop where
  | fresh (settings : Settings) : Reachable handler { settings } fun _ => False
  | updated {before after : Server} {given : Fin maxClients → Prop} {network : Link.Status}
      {context left : C} {now : Millis} {trace : List Exchange}
      (reachable : Reachable handler before given)
      (path : Path (before.update handler network context now) trace (after, left)) :
      Reachable handler after fun id => given id ∧ after.slots.get id = before.slots.get id
  | used {before after : Server} {given : Fin maxClients → Prop}
      {uses : Fin maxClients → List Use} (reachable : Reachable handler before given)
      (used : before.Used uses after) :
      Reachable handler after fun id => given id ∨
        (before.client id).phase = .disconnected ∧
          (after.client id).subscriptions ≠ (before.client id).subscriptions

variable {given : Fin maxClients → Prop}

theorem Reachable.apart (keeps : handler.KeepsPhase) (reachable : Reachable handler server given) :
    Apart server.slots := by
  induction reachable with
  | fresh settings =>
    intro id other socket holds
    rw [vacant_fresh settings id] at holds
    cases holds
  | updated reachable path ih => exact ih.updated keeps path
  | used reachable used ih =>
    intro id other socket holds too
    rw [used.phase id] at holds
    rw [used.phase other] at too
    exact ih id other socket holds too

/-- A client without a connection has nothing that belonged to one. -/
theorem Reachable.bare (keeps : handler.KeepsPhase) (reachable : Reachable handler server given)
    {id : Fin maxClients} (vacant : (server.slots.get id).Vacant) :
    (server.slots.get id).Bare ∧
      (¬given id → (server.slots.get id).client.subscriptions = {}) := by
  induction reachable with
  | fresh settings =>
    have slot : ({ settings } : Server).slots.get id = { client := { id } } :=
      Vector.getElem_ofFn id.isLt
    rw [slot]
    exact ⟨⟨rfl, rfl, rfl⟩, fun _ => rfl⟩
  | @updated before after given _ _ _ _ _ reachable path ih =>
    rcases cleared_update keeps path id vacant with cleared | same
    · exact ⟨cleared.bare.1, fun _ => cleared.bare.2⟩
    · rw [same] at vacant ⊢
      obtain ⟨bare, empty⟩ := ih vacant
      exact ⟨bare, fun spared => empty fun had => spared ⟨had, same⟩⟩
  | @used before after given uses reachable used ih =>
    have alone : (before.slots.get id).Vacant := (used.phase id).symm.trans vacant
    have shut : (before.client id).Shut := Client.shut_of_disconnected alone
    obtain ⟨bare, empty⟩ := ih alone
    constructor
    · refine ⟨vacant, ?_, ?_⟩
      · rw [used.slots id]
        dsimp only
        rw [(shut.useAll (uses id)).2]
        exact bare.queued
      · rw [used.slots id]
        exact bare.received
    · intro spared
      have same : (after.client id).subscriptions = (before.client id).subscriptions :=
        Decidable.not_not.mp fun changed => spared (.inr ⟨alone, changed⟩)
      exact same.trans (empty fun had => spared (.inl had))

end Server

end BoardNet.WebSocket
