import BoardNet.Proofs.Http.Course

namespace BoardNet.Http.Server

open Poll

variable {E C : Type} {server after : Server E} {now : Millis} {trace : List Exchange}
  {socket : SocketId}

/-- The server holds no socket that it did not hold before, unless it saw a peer on it. -/
def Admits (server : Server E) (trace : List Exchange) (after : Server E) : Prop :=
  ∀ socket, after.phase.socket = some socket →
    server.phase.socket = some socket ∨ Nic.Found server.settings.port socket trace

theorem admits_of_phase (same : after.phase.socket = server.phase.socket) :
    Admits server trace after := by
  intro socket held
  left
  rwa [← same]

theorem admits_waiting (waiting : after.phase = .waiting) : Admits server trace after := by
  intro socket held
  rw [waiting] at held
  cases held

/-- A transition that answers nothing admits what is accepted in it. -/
theorem Moves.admits (moves : Moves now server trace after) : Admits server trace after := by
  cases moves with
  | accept waiting path =>
    rcases path_accept path with rfl | ⟨source, remote, rfl, found⟩
    · exact admits_of_phase rfl
    · intro socket held
      obtain rfl : source = socket := Option.some.inj held
      exact .inr found
  | hear receiving path =>
    apply admits_of_phase
    obtain ⟨-, request, headEnd, rfl | ⟨-, rfl⟩ | ⟨-, rfl⟩⟩ := path_hear path
    · rfl
    · rw [receiving]
      rfl
    · rw [receiving]
      rfl
  | process processing path =>
    apply admits_of_phase
    obtain ⟨-, next, rfl, rfl | ⟨found, rfl⟩⟩ := path_process path
    all_goals
      rw [processing]
      rfl
  | send sending path =>
    apply admits_of_phase
    obtain ⟨-, ⟨-, rfl⟩ | ⟨out, timer, -, -, ⟨-, rfl⟩ | rfl | ⟨-, rfl⟩⟩⟩ := path_sendRest path
    · rw [sending]
      rfl
    · rw [sending]
      rfl
    · rw [sending]
      rfl
    · rfl
  | close closing path =>
    obtain ⟨rest, -, -, rfl | rfl | rfl⟩ := path_close path
    · apply admits_of_phase
      rw [closing]
      rfl
    · exact admits_waiting rfl
    · apply admits_of_phase
      rw [closing]
      rfl
  | force forcing path =>
    obtain ⟨-, rfl⟩ := path_forceClose path
    exact admits_waiting rfl

theorem path_settle_phase {reached : Reached E} {ended : Responder}
    (path : Path (server.settle reached ended socket now) trace after) :
    after.phase.socket = some socket := by
  rw [settle, path_bind] at path
  obtain ⟨finishing, rest, finished, -, -, path⟩ := path
  obtain ⟨-, ⟨-, rfl⟩ | ⟨-, rfl⟩⟩ := path_deliver path
  · rfl
  · rfl

/-- The server holds no other socket than it held before an update, or one that it saw a peer on in
the course of it. -/
theorem path_update_admits {handlers : E → Handler C} {network : Link.Status} {context left : C}
    (path : Path (server.update handlers network context now) trace (after, left)) :
    Admits server trace after := by
  obtain ⟨deed, rfl, serves⟩ := path_update.mp path
  cases serves with
  | drop down dropping =>
    obtain ⟨timer, rfl⟩ := path_dropConnection_waits dropping
    exact admits_waiting rfl
  | @move watch trace watched after up scan moves =>
    have kept := scanned_pollSockets scan
    intro socket held
    rcases moves.admits socket held with before | found
    · left
      rwa [← kept.phase]
    · right
      rw [kept.settings] at found
      simpa [Deed.trace] using found.after watch
  | @answer watch before trace watched asked after socket answer up scan turns request begun given
      made settles =>
    apply admits_of_phase
    rw [path_settle_phase settles, ← (scanned_pollSockets scan).phase, turns.phase]

end BoardNet.Http.Server
