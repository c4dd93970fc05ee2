import BoardNet.Nic.Scan
import BoardNet.Proofs.Path

namespace BoardNet.Nic

open Poll

variable {allowed : Effect → Prop}

theorem asks_firstPassing {test : SocketId → Poll Bool} (sockets : List SocketId)
    (asks : ∀ socket, (test socket).Asks allowed) : (firstPassing test sockets).Asks allowed := by
  induction sockets with
  | nil => trivial
  | cons socket rest ih =>
    refine (asks socket).bind fun passes => ?_
    cases passes with
    | true => trivial
    | false => exact ih

/-- A scan asks for the number of sockets, for status and port, and what its pick asks. -/
theorem asks_findConnected {port : UInt16} {pick : SocketId → Poll Bool}
    (count : allowed (.call .socketCount))
    (status : ∀ socket, allowed (.call (.socketStatus socket)))
    (bound : ∀ socket, allowed (.call (.socketPort socket)))
    (asks : ∀ socket, (pick socket).Asks allowed) : (findConnected port pick).Asks allowed := by
  refine (asks_nic.mpr count).bind fun number => asks_firstPassing _ fun socket => ?_
  refine (asks_nic.mpr (status socket)).bind fun shown => ?_
  split
  · refine (asks_nic.mpr (bound socket)).bind fun port => ?_
    split
    · exact asks socket
    · trivial
  · trivial

theorem asks_isListening {port : UInt16} (count : allowed (.call .socketCount))
    (status : ∀ socket, allowed (.call (.socketStatus socket)))
    (bound : ∀ socket, allowed (.call (.socketPort socket))) :
    (isListening port).Asks allowed := by
  refine (asks_nic.mpr count).bind fun number => ?_
  refine (asks_firstPassing _ fun socket => ?_).bind fun found => trivial
  refine (asks_nic.mpr (status socket)).bind fun shown => ?_
  split
  · exact (asks_nic.mpr (bound socket)).bind fun port => trivial
  · trivial

/-- A socket was seen with a peer on a port. -/
def Found (port : UInt16) (socket : SocketId) (trace : List Exchange) : Prop :=
  ∃ (before : List Exchange) (status : SocketStatus) (rest : List Exchange),
    status.isConnected = true ∧
      trace = before ++ ⟨.call (.socketStatus socket), status⟩ ::
        ⟨.call (.socketPort socket), port⟩ :: rest

namespace Found

variable {port : UInt16} {socket : SocketId} {trace : List Exchange}

theorem after (found : Found port socket trace) (earlier : List Exchange) :
    Found port socket (earlier ++ trace) := by
  obtain ⟨before, status, rest, connected, rfl⟩ := found
  exact ⟨earlier ++ before, status, rest, connected, by rw [List.append_assoc]⟩

theorem before (found : Found port socket trace) (later : List Exchange) :
    Found port socket (trace ++ later) := by
  obtain ⟨before, status, rest, connected, rfl⟩ := found
  exact ⟨before, status, rest ++ later, connected, by simp⟩

end Found

/-- What a scan finds has passed its test in the course of it. -/
theorem path_firstPassing {test : SocketId → Poll Bool} {sockets : List SocketId}
    {trace : List Exchange} {found : SocketId}
    (path : Path (firstPassing test sockets) trace (some found)) :
    ∃ before asked rest, trace = before ++ (asked ++ rest) ∧ Path (test found) asked true := by
  induction sockets generalizing trace with
  | nil =>
    obtain ⟨-, same⟩ := path_done.mp path
    cases same
  | cons socket rest ih =>
    rw [firstPassing, path_bind] at path
    obtain ⟨asked, later, passes, rfl, testing, path⟩ := path
    cases passes with
    | true =>
      obtain ⟨-, same⟩ := path_done.mp path
      cases same
      exact ⟨[], asked, later, rfl, testing⟩
    | false =>
      obtain ⟨before, last, rest, rfl, passed⟩ := ih path
      exact ⟨asked ++ before, last, rest, by rw [List.append_assoc], passed⟩

/-- A socket that is found was seen with a peer on the port, and picked. -/
theorem path_findConnected {port : UInt16} {pick : SocketId → Poll Bool} {trace : List Exchange}
    {found : SocketId} (path : Path (findConnected port pick) trace (some found)) :
    Found port found trace ∧ ∃ asked, Path (pick found) asked true := by
  rw [findConnected, socketCount, path_nic_bind] at path
  obtain ⟨count, rest, rfl, path⟩ := path
  obtain ⟨before, asked, last, rfl, testing⟩ := path_firstPassing path
  rw [socketStatus, path_nic_bind] at testing
  obtain ⟨status, rest, rfl, testing⟩ := testing
  split at testing
  · next connected =>
    rw [socketPort, path_nic_bind] at testing
    obtain ⟨bound, rest, rfl, testing⟩ := testing
    split at testing
    · next same =>
      subst same
      exact ⟨⟨_ :: before, status, rest ++ last, connected, rfl⟩, rest, testing⟩
    · cases (path_done.mp testing).2
  · cases (path_done.mp testing).2

end BoardNet.Nic
