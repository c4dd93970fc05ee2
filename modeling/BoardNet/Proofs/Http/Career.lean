import BoardNet.Proofs.Http.Course

namespace BoardNet.Http

open Poll

structure Act (E : Type) where
  before : Server E
  now : Millis
  trace : List Exchange
  after : Server E

namespace Act

variable {E : Type}

/-- The server comes to another phase. -/
def Enters (act : Act E) : Prop := act.after.phase.name ≠ act.before.phase.name

/-- The head of the request is complete from now on. -/
def Completes (act : Act E) : Prop :=
  act.before.request.headDone = false ∧ act.after.request.headDone = true

/-- The server comes to another phase, or the controller takes something of the response. -/
def Progresses (act : Act E) : Prop :=
  act.Enters ∨ ∃ socket, act.after.phase.socket = some socket ∧ takenOn socket act.trace ≠ []

end Act

/-- The time at which something last happened. -/
def Since {E : Type} (event : Act E → Prop) : List (Act E) → Millis → Prop
  | [], _ => False
  | act :: earlier, time =>
    event act ∧ time = act.now ∨ ¬event act ∧ Since event earlier time

namespace Since

variable {E : Type} {event : Act E → Prop} {act : Act E} {earlier : List (Act E)} {time : Millis}

theorem now (happens : event act) : Since event (act :: earlier) act.now := Or.inl ⟨happens, rfl⟩

theorem before (fails : ¬event act) (since : Since event earlier time) :
    Since event (act :: earlier) time :=
  Or.inr ⟨fails, since⟩

end Since

namespace Server

variable {E C : Type}

/-- A server since it was built: its updates, the latest first, whatever the controller answered. -/
inductive Career (handlers : E → Handler C) : List (Act E) → Server E → Prop where
  | built (settings : Settings) (routes : Routes (Target E)) :
      Career handlers [] { settings, routes }
  | routed {history : List (Act E)} {server : Server E} (career : Career handlers history server)
      (routes : Routes (Target E)) : Career handlers history { server with routes }
  | scanned {history : List (Act E)} {server after : Server E} {now : Millis} {sweep : Sweep}
      {trace : List Exchange} (career : Career handlers history server)
      (path : Path (server.checkSockets now) trace (after, sweep)) :
      Career handlers history after
  | updated {history : List (Act E)} {server after : Server E} {network : Link.Status}
      {context left : C} {now : Millis} {trace : List Exchange}
      (career : Career handlers history server)
      (path : Path (server.update handlers network context now) trace (after, left)) :
      Career handlers (⟨server, now, trace, after⟩ :: history) after

/-- A scan by itself leaves alone what is not its own. -/
theorem path_checkSockets {server after : Server E} {now : Millis} {sweep : Sweep}
    {trace : List Exchange} (path : Path (server.checkSockets now) trace (after, sweep)) :
    after = { server with watch := after.watch, stats := after.stats } := by
  obtain ⟨_, _, ⟨watch, sweep⟩, -, -, path⟩ := path_bind.mp path
  obtain ⟨-, same⟩ := path_done.mp path
  cases same
  rfl

end Server

end BoardNet.Http
