import BoardNet.Proofs.Sim.Rig
import BoardNet.Proofs.WebSocket.Hearing

namespace BoardNet.WebSocket

open Poll

/-- The slot was left without a connection and all that belonged to one. -/
def Slot.Cleared (slot : Slot) : Prop := ∃ before : Slot, slot = before.reset

theorem Slot.Cleared.vacant {slot : Slot} (cleared : slot.Cleared) : slot.Vacant := by
  obtain ⟨before, rfl⟩ := cleared
  rfl

/-- A client was let go in some exchanges. -/
structure LetGo (socket : SocketId) (trace : List Exchange) (slot : Slot) : Prop where
  forsaken : Forsaken socket trace
  cleared : slot.Cleared

theorem LetGo.of_releases {socket : SocketId} {trace : List Exchange} {exchange : Exchange}
    (member : exchange ∈ trace) (ends : exchange.effect.Releases socket) (before : Slot) :
    LetGo socket trace before.reset :=
  ⟨⟨exchange, member, .inl ends⟩, before, rfl⟩

theorem LetGo.append_left {socket : SocketId} {trace : List Exchange} {slot : Slot}
    (letGo : LetGo socket trace slot) (later : List Exchange) :
    LetGo socket (trace ++ later) slot :=
  ⟨letGo.forsaken.append_left later, letGo.cleared⟩

theorem LetGo.append_right {socket : SocketId} {trace : List Exchange} {slot : Slot}
    (letGo : LetGo socket trace slot) (earlier : List Exchange) :
    LetGo socket (earlier ++ trace) slot :=
  ⟨letGo.forsaken.append_right earlier, letGo.cleared⟩

namespace Turn

variable {C : Type} {turn after : Turn C} {socket : SocketId} {settings : Settings}
  {handler : MessageHandler C} {now : Millis} {trace : List Exchange} {events : List Event}

/-- Closing by force closes the socket and clears the slot. -/
theorem path_forceClose_of_held (path : Path turn.forceClose trace after)
    (held : turn.slot.client.phase.socket = some socket) :
    trace = [⟨.call (.close socket), ()⟩] ∧ after.slot = turn.slot.reset := by
  unfold forceClose at path
  rw [held] at path
  obtain ⟨_, rest, rfl, released⟩ := path_nic_bind.mp path
  obtain ⟨rfl, rfl⟩ := path_done.mp released
  exact ⟨rfl, rfl⟩

theorem letGo_forceClose (path : Path turn.forceClose trace after)
    (held : turn.slot.client.phase.socket = some socket) : LetGo socket trace after.slot := by
  obtain ⟨rfl, reset⟩ := path_forceClose_of_held path held
  rw [reset]
  exact .of_releases List.mem_cons_self ⟨rfl, rfl⟩ turn.slot

theorem letGo_checkPeer (path : Path (turn.checkPeer socket) trace after)
    (held : turn.slot.client.phase.socket = some socket) (vacant : after.slot.Vacant) :
    LetGo socket trace after.slot := by
  rw [checkPeer, Nic.socketStatus, path_nic_bind] at path
  obtain ⟨status, trace, rfl, path⟩ := path
  rw [path_bind] at path
  obtain ⟨asked, rest, gone, rfl, -, path⟩ := path
  cases gone with
  | false =>
    obtain ⟨-, rfl⟩ := path_done.mp path
    exact absurd vacant (Slot.not_vacant held)
  | true =>
    simp only [if_true, path_log_bind] at path
    obtain ⟨rest, rfl, path⟩ := path
    by_cases open_ : status ≠ .closed
    · rw [if_pos open_, Nic.close, path_nic_bind] at path
      obtain ⟨answer, rest, rfl, path⟩ := path
      obtain ⟨-, rfl⟩ := path_done.mp path
      exact (@LetGo.of_releases _ _ ⟨.call (.close socket), answer⟩ (by simp) ⟨rfl, rfl⟩ turn.slot)
    · rw [if_neg open_] at path
      obtain ⟨-, rfl⟩ := path_done.mp path
      obtain rfl : status = .closed := Decidable.not_not.mp open_
      exact ⟨⟨_, List.mem_cons_self, .inr rfl⟩, turn.slot, rfl⟩

theorem letGo_accept {rest : List UInt8} (path : Path (turn.accept socket rest now) trace after)
    (held : turn.slot.client.phase.socket = some socket) (vacant : after.slot.Vacant) :
    LetGo socket trace after.slot := by
  unfold accept at path
  cases found : turn.slot.upgrade.key with
  | none =>
    simp only [found, path_log_bind] at path
    obtain ⟨rest, rfl, path⟩ := path
    rw [Nic.disconnect, path_nic_bind] at path
    obtain ⟨_, rest, rfl, path⟩ := path
    obtain ⟨-, rfl⟩ := path_done.mp path
    exact .of_releases (List.mem_cons_of_mem _ List.mem_cons_self) ⟨rfl, rfl⟩ turn.slot
  | some key =>
    simp only [found] at path
    generalize Text.bytes (upgradeReply (acceptKey key)) = reply at path
    rw [Nic.send, path_nic_bind] at path
    obtain ⟨taken, rest, rfl, path⟩ := path
    split at path
    · rw [path_log_bind] at path
      obtain ⟨rest, rfl, path⟩ := path
      have letGo := letGo_forceClose path held
      exact letGo.append_right [_, _]
    · rw [path_log_bind] at path
      obtain ⟨rest, rfl, path⟩ := path
      obtain ⟨-, rfl⟩ := path_done.mp path
      cases vacant

theorem letGo_awaitRequest (path : Path (turn.awaitRequest settings now) trace after)
    (held : turn.slot.client.phase.socket = some socket) (vacant : after.slot.Vacant) :
    LetGo socket trace after.slot := by
  unfold awaitRequest at path
  split at path
  · rw [path_log_bind] at path
    obtain ⟨rest, rfl, path⟩ := path
    have letGo := letGo_forceClose path held
    exact letGo.append_right [_]
  · obtain ⟨-, rfl⟩ := path_done.mp path
    exact absurd vacant (Slot.not_vacant held)

theorem letGo_upgrade (path : Path (turn.upgrade settings now) trace after)
    (held : turn.slot.client.phase.socket = some socket) (vacant : after.slot.Vacant) :
    LetGo socket trace after.slot := by
  unfold upgrade at path
  cases phase : turn.slot.client.phase with
  | disconnected | connected | closing =>
    rw [phase] at path
    obtain ⟨-, rfl⟩ := path_done.mp path
    exact absurd vacant (Slot.not_vacant held)
  | upgrading own =>
    obtain rfl : own = socket := by simpa [phase, Phase.socket] using held
    simp only [phase] at path
    rw [path_bind] at path
    obtain ⟨_, _, data, rfl, -, path⟩ := path
    rw [path_lift_bind] at path
    obtain ⟨_, rfl, path⟩ := path
    split at path
    · exact ((letGo_accept path held vacant).append_right _).append_right _
    · exact ((letGo_awaitRequest path held vacant).append_right _).append_right _

theorem letGo_upkeep {lawful : Bool} (path : Path (turn.upkeep settings now lawful) trace after)
    (held : turn.slot.client.phase.socket = some socket) (vacant : after.slot.Vacant) :
    LetGo socket trace after.slot := by
  unfold upkeep at path
  cases lawful with
  | false => exact letGo_forceClose path held
  | true =>
    simp only [Bool.not_true, Bool.false_eq_true, if_false] at path
    split at path
    · rw [path_lift_bind] at path
      obtain ⟨rest, rfl, path⟩ := path
      have kept := (turn.keeps_keepAlive settings now).phase
      have held := (congrArg Phase.socket kept).trans held
      split at path
      · obtain ⟨-, rfl⟩ := path_done.mp path
        exact absurd vacant (Slot.not_vacant held)
      · exact (letGo_forceClose path held).append_right _
    · obtain ⟨-, rfl⟩ := path_done.mp path
      exact absurd vacant (Slot.not_vacant held)

theorem letGo_converse (keeps : handler.KeepsPhase)
    (path : Path (turn.converseNoting settings handler now) trace (after, events))
    (held : turn.slot.client.phase.socket = some socket) (vacant : after.slot.Vacant) :
    LetGo socket trace after.slot := by
  unfold converseNoting at path
  cases phase : turn.slot.client.phase with
  | disconnected | upgrading | closing =>
    rw [phase] at path
    cases (path_done.mp path).2
    exact absurd vacant (Slot.not_vacant held)
  | connected own =>
    obtain rfl : own = socket := by simpa [phase, Phase.socket] using held
    simp only [phase] at path
    rw [path_bind] at path
    obtain ⟨_, _, received, rfl, -, path⟩ := path
    rw [path_lift_bind] at path
    obtain ⟨_, rfl, path⟩ := path
    have read := socket_readFramesNoting keeps now received phase
    rw [path_bind] at path
    obtain ⟨_, _, ended, rfl, keeping, path⟩ := path
    obtain ⟨rfl, same⟩ := path_done.mp path
    cases same
    rw [List.append_nil]
    exact ((letGo_upkeep keeping read vacant).append_right _).append_right _

theorem letGo_drain (path : Path (turn.drain settings now) trace after)
    (held : turn.slot.client.phase.socket = some socket) (vacant : after.slot.Vacant) :
    LetGo socket trace after.slot := by
  rcases path_drain_cases path with
    ⟨-, rfl | rfl⟩ | ⟨own, moving, rest, alive, moved, -, rfl, transmits, ending⟩
  · exact absurd vacant (Slot.not_vacant held)
  · exact absurd vacant (Slot.not_vacant held)
  · have held := (congrArg Phase.socket (path_transmit transmits).phase).trans held
    rcases ending with ⟨-, rfl⟩ | closing
    · exact absurd vacant (Slot.not_vacant held)
    · exact (letGo_forceClose closing held).append_right _

theorem letGo_finish (path : Path turn.finish trace after)
    (held : turn.slot.client.phase.socket = some socket) (vacant : after.slot.Vacant) :
    LetGo socket trace after.slot := by
  unfold finish at path
  cases phase : turn.slot.client.phase with
  | closing own =>
    obtain rfl : own = socket := by simpa [phase, Phase.socket] using held
    simp only [phase] at path
    split at path
    · rw [path_log_bind] at path
      obtain ⟨rest, rfl, path⟩ := path
      rw [Nic.disconnect, path_nic_bind] at path
      obtain ⟨_, rest, rfl, path⟩ := path
      obtain ⟨-, rfl⟩ := path_done.mp path
      exact .of_releases (List.mem_cons_of_mem _ List.mem_cons_self) ⟨rfl, rfl⟩ turn.slot
    · obtain ⟨-, rfl⟩ := path_done.mp path
      exact absurd vacant (Slot.not_vacant held)
  | disconnected | upgrading | connected =>
    simp only [phase] at path
    obtain ⟨-, rfl⟩ := path_done.mp path
    exact absurd vacant (Slot.not_vacant held)

theorem path_drain_of_vacant (vacant : turn.slot.Vacant)
    (path : Path (turn.drain settings now) trace after) : trace = [] ∧ after = turn := by
  unfold drain at path
  rw [show turn.slot.client.phase = .disconnected from vacant] at path
  exact path_done.mp path

theorem path_finish_of_vacant (vacant : turn.slot.Vacant) (path : Path turn.finish trace after) :
    trace = [] ∧ after = turn := by
  unfold finish at path
  rw [show turn.slot.client.phase = .disconnected from vacant] at path
  exact path_done.mp path

theorem path_upgrade_of_noting
    (path : Path (turn.upgradeNoting settings now) trace (after, events)) :
    Path (turn.upgrade settings now) trace after := by
  rw [← fst_upgradeNoting, path_map]
  exact ⟨_, path, rfl⟩

/-- A client that has no connection after its turn has forsaken its socket. -/
theorem letGo_service (keeps : handler.KeepsPhase)
    (held : turn.slot.client.phase.socket = some socket)
    (path : Path (turn.serviceNoting settings handler now) trace (after, events))
    (vacant : after.slot.Vacant) : LetGo socket trace after.slot := by
  obtain ⟨checking, asking, talking, sending, ending, present, upgraded, conversed, drained, _, _,
    rfl, -, checked, upgrading, conversing, draining, finishing⟩ := path_serviceNoting held path
  -- each part lets go of the client, or leaves it to the next
  have next {before later : Turn C} (stays : before.slot.Stays later.slot)
      (held : before.slot.client.phase.socket = some socket) (kept : ¬later.slot.Vacant) :
      later.slot.client.phase.socket = some socket := by
    rcases stays with none | same
    · cases phase : later.slot.client.phase with
      | disconnected => exact absurd phase kept
      | upgrading | connected | closing =>
        rw [phase] at none
        cases none
    · exact same.trans held
  by_cases gone : present.slot.Vacant
  · obtain ⟨rfl, rfl, -⟩ := path_upgradeNoting_of_vacant gone upgrading
    obtain ⟨rfl, rfl, -⟩ := path_converseNoting_of_vacant gone conversing
    obtain ⟨rfl, rfl⟩ := path_drain_of_vacant gone draining
    obtain ⟨rfl, rfl⟩ := path_finish_of_vacant gone finishing
    exact (letGo_checkPeer checked held gone).append_left _
  have held := next (path_checkPeer checked).stays held gone
  refine LetGo.append_right ?_ checking
  by_cases gone : upgraded.slot.Vacant
  · obtain ⟨rfl, rfl, -⟩ := path_converseNoting_of_vacant gone conversing
    obtain ⟨rfl, rfl⟩ := path_drain_of_vacant gone draining
    obtain ⟨rfl, rfl⟩ := path_finish_of_vacant gone finishing
    exact (letGo_upgrade (path_upgrade_of_noting upgrading) held gone).append_left _
  have held := next (stays_upgradeNoting upgrading) held gone
  refine LetGo.append_right ?_ asking
  by_cases gone : conversed.slot.Vacant
  · obtain ⟨rfl, rfl⟩ := path_drain_of_vacant gone draining
    obtain ⟨rfl, rfl⟩ := path_finish_of_vacant gone finishing
    exact (letGo_converse keeps conversing held gone).append_left _
  have held := next (stays_converseNoting keeps conversing) held gone
  refine LetGo.append_right ?_ talking
  by_cases gone : drained.slot.Vacant
  · obtain ⟨rfl, rfl⟩ := path_finish_of_vacant gone finishing
    exact (letGo_drain draining held gone).append_left _
  have held := next (path_drain draining).stays held gone
  exact (letGo_finish finishing held vacant).append_right sending

end Turn

end BoardNet.WebSocket
