import BoardNet.Proofs.WebSocket.Session

namespace BoardNet.WebSocket.Server

open Poll

variable {C : Type} {handler : MessageHandler C} {server after : Server} {network : Link.Status}
  {context left : C} {now : Millis} {trace : List Exchange} {socket : SocketId}

theorem holds_eq_false : server.holds socket = false ↔
    ∀ id, (server.slots.get id).client.phase.socket ≠ some socket := by
  unfold holds
  rw [List.any_eq_false]
  constructor
  · intro free id held
    exact free id (List.mem_finRange id) (decide_eq_true held)
  · intro free id member held
    exact free id (of_decide_eq_true held)

/-- An update neither takes over nor ends a connection that no client held, unless it saw a peer on
its socket. -/
theorem path_update_admits (keeps : handler.KeepsPhase) (free : server.holds socket = false)
    (path : Path (server.update handler network context now) trace (after, left)) :
    Nic.Found server.settings.port socket trace ∨
      after.holds socket = false ∧ ∀ exchange ∈ trace, ¬exchange.effect.Releases socket := by
  have free := holds_eq_false.mp free
  obtain ⟨notes, path⟩ := noting_of_path path
  obtain ⟨link, rest, rfl, parts⟩ := path_updateNoting path
  rcases parts with ⟨⟨_, dropping⟩, -⟩ | ⟨-, admitted, asked, served, rfl, accepting, serving⟩
  · obtain ⟨dropped, -, elsewhere⟩ := path_dropAll dropping
    have untouched : Untouched socket (⟨.call .linkStatus, link⟩ :: rest) :=
      .cons nofun (elsewhere socket free)
    refine .inr ⟨?_, fun _ => untouched.not_releases⟩
    apply holds_eq_false.mpr
    intro id
    rcases dropped id with vacant | kept
    · rw [vacant]
      nofun
    · rw [kept]
      exact free id
  · obtain ⟨-, admits⟩ := path_accept accepting
    have shift (found : Nic.Found server.settings.port socket asked) :
        Nic.Found server.settings.port socket (⟨.call .linkStatus, link⟩ :: (asked ++ served)) :=
      (found.before served).after [_]
    -- a socket that was seen may have been taken over, and its connection ended already
    by_cases found : Nic.Found server.settings.port socket asked
    · exact .inl (shift found)
    · have still : ∀ id, (admitted.slots.get id).client.phase.socket ≠ some socket := by
        intro id held
        rcases admits.slots id with same | ⟨-, own, remote, taken, seen⟩
        · rw [same] at held
          exact free id held
        · rw [taken] at held
          obtain rfl : own = socket := Option.some.inj held
          exact found seen
      obtain ⟨-, elsewhere, stays⟩ := path_serviceAllNoting keeps serving
      have untouched : Untouched socket served := elsewhere socket fun id _ => still id
      refine .inr ⟨?_, ?_⟩
      · apply holds_eq_false.mpr
        intro id
        exact (stays id).free (still id)
      · intro exchange member ends
        rcases List.mem_cons.mp member with rfl | later
        · cases ends.1
        · rcases List.mem_append.mp later with admission | turns
          · exact found (admits.refused exchange admission socket ends)
          · exact untouched.not_releases turns ends

end BoardNet.WebSocket.Server
