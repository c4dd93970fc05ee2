import BoardNet.Proofs.Scan
import BoardNet.Proofs.Sim.History

namespace BoardNet.Sim

namespace Socket

/-- A slot is put to a new use: it becomes a listener, gets a peer, or changes its port. -/
def Reopens (before after : Socket) : Prop :=
  after.status = .listen ∧ before.status ≠ .listen ∨
    after.status.isConnected = true ∧ before.status.isConnected = false ∨
      after.status ≠ .closed ∧ after.port ≠ before.port

/-- A peer is attached to the slot on a port. -/
def Serves (port : UInt16) (slot : Socket) : Prop :=
  slot.status.isConnected = true ∧ slot.port = port

/-- The slot has no peer, and waits for none. -/
def Spent (slot : Socket) : Prop := slot.status.isConnected = false ∧ slot.status ≠ .listen

variable {before after : Socket} {port : UInt16}

theorem Reopens.congr {other : Socket} (reopens : before.Reopens after)
    (status : other.status = after.status) (bound : other.port = after.port) :
    before.Reopens other := by
  unfold Reopens
  rwa [status, bound]

theorem Serves.not_listen (serves : before.Serves port) : before.status ≠ .listen := by
  intro listening
  have connected := serves.1
  rw [listening] at connected
  cases connected

theorem Spent.of_not_reopens (spent : before.Spent) (used : ¬before.Reopens after) :
    after.Spent := by
  constructor
  · cases connected : after.status.isConnected with
    | false => rfl
    | true => exact absurd (.inr (.inl ⟨connected, spent.1⟩)) used
  · intro listening
    exact used (.inl ⟨listening, spent.2⟩)

/-- A slot that is not put to a new use has its peer still, or none. -/
theorem Serves.of_not_reopens (serves : before.Serves port) (used : ¬before.Reopens after) :
    after.Serves port ∨ after.Spent := by
  cases connected : after.status.isConnected with
  | false =>
    right
    refine ⟨connected, ?_⟩
    intro listening
    exact used (.inl ⟨listening, serves.not_listen⟩)
  | true =>
    left
    refine ⟨connected, ?_⟩
    by_cases same : after.port = before.port
    · exact same.trans serves.2
    · refine absurd (.inr (.inr ⟨?_, same⟩)) used
      intro closed
      rw [closed] at connected
      cases connected

end Socket

def Occurs (test : Controller → Happening → Prop) : Controller → List Happening → Prop
  | _, [] => False
  | nic, happening :: history =>
    test nic happening ∨ Occurs test (happening.apply nic) history

/-- Something is so from the beginning of a history to its end. -/
def Lasts (test : Controller → Prop) : Controller → List Happening → Prop
  | nic, [] => test nic
  | nic, happening :: history => test nic ∧ Lasts test (happening.apply nic) history

theorem Lasts.last {test : Controller → Prop} {nic : Controller} {history : List Happening}
    (lasts : Lasts test nic history) : test (nic.after history) := by
  induction history generalizing nic with
  | nil => exact lasts
  | cons happening history ih => exact ih lasts.2

def Reopened (socket : SocketId) : Controller → List Happening → Prop :=
  Occurs fun nic happening =>
    (nic.socket socket).Reopens ((happening.apply nic).socket socket)

/-- A call to listen is answered with the slot, or the chip itself opens it. -/
def Happening.Takes (socket : SocketId) (nic : Controller) : Happening → Prop
  | .call (.listen port) => (nic.listen port).1 = .ok socket
  | .event (.setStatus target status port) =>
    target = socket ∧ (nic.socket socket).Reopens { nic.socket socket with status, port }
  | _ => False

def Taken (socket : SocketId) : Controller → List Happening → Prop :=
  Occurs fun nic happening => happening.Takes socket nic

variable {nic : Controller} {socket : SocketId} {happening : Happening} {port : UInt16}

theorem Happening.Takes.reopens (takes : happening.Takes socket nic) :
    (nic.socket socket).Reopens ((happening.apply nic).socket socket) := by
  unfold Happening.Takes at takes
  split at takes
  · have ⟨closed, opened⟩ := Controller.listen_ok takes
    left
    change ((nic.listen _).2.socket socket).status = _ ∧ _
    rw [opened, Controller.socket_modify_self, closed]
    exact ⟨rfl, nofun⟩
  · obtain ⟨rfl, reopens⟩ := takes
    change (nic.socket _).Reopens ((nic.modify _ _).socket _)
    rw [Controller.socket_modify_self]
    exact reopens
  · cases takes

/-- A slot that does not listen is put to a new use just when it is taken. -/
theorem reopens_iff_takes (happening : Happening) (deaf : (nic.socket socket).status ≠ .listen) :
    (nic.socket socket).Reopens ((happening.apply nic).socket socket) ↔
      happening.Takes socket nic := by
  refine ⟨?_, Happening.Takes.reopens⟩
  intro reopens
  have change := fate nic socket happening
  generalize (happening.apply nic).socket socket = after at reopens change
  unfold Socket.Reopens at reopens
  cases change with
  | kept status port =>
    rw [status, port] at reopens
    rcases reopens with ⟨listens, silent⟩ | ⟨meets, alone⟩ | ⟨-, moved⟩
    · exact absurd listens silent
    · rw [meets] at alone
      cases alone
    · exact absurd rfl moved
  | ended status =>
    rw [status] at reopens
    simp [SocketStatus.isConnected] at reopens
  | finishing status port =>
    rw [status, port] at reopens
    simp [SocketStatus.isConnected] at reopens
  | opened taken status => exact taken
  | met listening => exact absurd listening deaf
  | set shown bound => exact ⟨rfl, Socket.Reopens.congr reopens shown.symm bound.symm⟩

/-- A slot that is taken at once needs no further look. -/
private theorem taken_now {history : List Happening} {rest : Prop}
    (takes : happening.Takes socket nic) :
    (Reopened socket nic (happening :: history) ↔ Taken socket nic (happening :: history)) ∧
      (¬Taken socket nic (happening :: history) → rest) := by
  refine ⟨⟨fun _ => .inl takes, fun _ => .inl takes.reopens⟩, ?_⟩
  intro untaken
  exact absurd (.inl takes) untaken

/-- Once its peer is gone a slot stays spent until it is taken. -/
theorem spent_after (history : List Happening) (spent : (nic.socket socket).Spent) :
    (Reopened socket nic history ↔ Taken socket nic history) ∧
      (¬Taken socket nic history → ((nic.after history).socket socket).Spent) := by
  induction history generalizing nic with
  | nil => exact ⟨Iff.rfl, fun _ => spent⟩
  | cons happening history ih =>
    have first := reopens_iff_takes happening spent.2
    by_cases takes : happening.Takes socket nic
    · exact taken_now takes
    · have used := mt first.mp takes
      have ⟨later, stays⟩ := ih (spent.of_not_reopens used)
      refine ⟨or_congr first later, ?_⟩
      intro untaken
      exact stays fun taken => untaken (.inr taken)

/-- A slot that has a peer is put to a new use just when it is taken. Until then it does not listen,
and whatever peer it has is the same on the same port. -/
theorem serves_after (history : List Happening) (serves : (nic.socket socket).Serves port) :
    (Reopened socket nic history ↔ Taken socket nic history) ∧
      (¬Taken socket nic history →
        Lasts (fun nic => (nic.socket socket).Serves port) nic history ∨
          ((nic.after history).socket socket).Spent) := by
  induction history generalizing nic with
  | nil => exact ⟨Iff.rfl, fun _ => .inl serves⟩
  | cons happening history ih =>
    have first := reopens_iff_takes happening serves.not_listen
    by_cases takes : happening.Takes socket nic
    · exact taken_now takes
    · have used := mt first.mp takes
      rcases serves.of_not_reopens used with still | spent
      · have ⟨later, stays⟩ := ih still
        refine ⟨or_congr first later, ?_⟩
        intro untaken
        rcases stays fun taken => untaken (.inr taken) with lasts | spent
        · exact .inl ⟨serves, lasts⟩
        · exact .inr spent
      · have ⟨later, stays⟩ := spent_after history spent
        refine ⟨or_congr first later, ?_⟩
        intro untaken
        right
        exact stays fun taken => untaken (.inr taken)

/-- No call gives a slot a peer. -/
theorem serves_before_call {call : Nic.Call}
    (serves : (((Happening.call call).apply nic).socket socket).Serves port) :
    (nic.socket socket).Serves port := by
  obtain ⟨connected, bound⟩ := serves
  have change := fate nic socket (.call call)
  generalize ((Happening.call call).apply nic).socket socket = after at connected bound change
  cases change with
  | kept status port =>
    rw [status] at connected
    rw [port] at bound
    exact ⟨connected, bound⟩
  | ended status =>
    rw [status] at connected
    cases connected
  | finishing status port =>
    rw [status] at connected
    cases connected
  | opened taken status =>
    rw [status] at connected
    cases connected

theorem serves_before (trace : List Exchange)
    (serves : ((nic.after (callsIn trace)).socket socket).Serves port) :
    (nic.socket socket).Serves port := by
  induction trace generalizing nic with
  | nil => exact serves
  | cons exchange trace ih =>
    obtain ⟨effect, answer⟩ := exchange
    cases effect with
    | call call => exact serves_before_call (ih serves)
    | record record => exact ih serves
    | notify notice => exact ih serves

/-- What is seen with a peer between calls had it before them. -/
theorem serves_of_found {trace : List Exchange} (answered : Answered nic trace)
    (found : Nic.Found port socket trace) : (nic.socket socket).Serves port := by
  obtain ⟨before, status, rest, connected, rfl⟩ := found
  obtain ⟨-, shown, bound, -⟩ := answered_append.mp answered
  refine serves_before before ⟨?_, bound.symm⟩
  rwa [shown] at connected

end BoardNet.Sim
