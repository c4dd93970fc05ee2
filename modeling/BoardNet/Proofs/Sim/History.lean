import BoardNet.Proofs.Path
import BoardNet.Sim.Controller

namespace BoardNet.Sim

inductive Event where
  | connect (port : UInt16) (remote : Ipv4) (data : List UInt8)
  | arrive (socket : SocketId) (data : List UInt8)
  | acknowledge (socket : SocketId)
  | takeSent (socket : SocketId)
  | setStatus (socket : SocketId) (status : SocketStatus) (port : UInt16)
  /-- All but the sockets becomes as it is elsewhere. -/
  | surround (elsewhere : Controller)
  deriving DecidableEq

/-- One thing that happens to the controller. -/
inductive Happening where
  | call (call : Nic.Call)
  | event (event : Event)
  deriving DecidableEq

def Event.apply (nic : Controller) : Event → Controller
  | .connect port remote data => (nic.connect port remote data).2
  | .arrive socket data => nic.arrive socket data
  | .acknowledge socket => nic.acknowledge socket
  | .takeSent socket => (nic.takeSent socket).2
  | .setStatus socket status port => nic.setStatus socket status port
  | .surround elsewhere => { elsewhere with sockets := nic.sockets }

def Happening.apply (nic : Controller) : Happening → Controller
  | .call request => (nic.answer request).2
  | .event change => change.apply nic

def Controller.after (nic : Controller) (history : List Happening) : Controller :=
  history.foldl Happening.apply nic

@[simp] theorem Controller.after_append (nic : Controller) (history later : List Happening) :
    nic.after (history ++ later) = (nic.after history).after later :=
  List.foldl_append

def callsIn (trace : List Exchange) : List Happening :=
  trace.filterMap fun exchange =>
    match exchange.effect with
    | .call call => some (.call call)
    | _ => none

/-- Some exchanges are as the controller answers. -/
def Answered : Controller → List Exchange → Prop
  | _, [] => True
  | nic, ⟨.call call, answer⟩ :: rest =>
    answer = (nic.answer call).1 ∧ Answered (nic.answer call).2 rest
  | nic, ⟨.record _, _⟩ :: rest | nic, ⟨.notify _, _⟩ :: rest => Answered nic rest

theorem mem_callsIn {trace : List Exchange} {call : Nic.Call} :
    .call call ∈ callsIn trace ↔ ∃ exchange ∈ trace, exchange.effect = .call call := by
  unfold callsIn
  rw [List.mem_filterMap]
  constructor
  · rintro ⟨exchange, member, made⟩
    refine ⟨exchange, member, ?_⟩
    split at made
    · next effect =>
      cases made
      exact effect
    · cases made
  · rintro ⟨exchange, member, effect⟩
    refine ⟨exchange, member, ?_⟩
    rw [effect]

theorem answered_append {nic : Controller} {trace later : List Exchange} :
    Answered nic (trace ++ later) ↔
      Answered nic trace ∧ Answered (nic.after (callsIn trace)) later := by
  induction trace generalizing nic with
  | nil => exact ⟨fun answered => ⟨trivial, answered⟩, And.right⟩
  | cons exchange trace ih =>
    obtain ⟨effect, answer⟩ := exchange
    cases effect with
    | call call => exact (and_congr_right fun _ => ih).trans and_assoc.symm
    | record record => exact ih
    | notify notice => exact ih

section Runs

variable {α : Type}

/-- What is asked of the controller in a run is answered by it. -/
theorem answered_exchanges (step : Poll α) (nic : Controller) :
    Answered nic (step.exchanges Controller.chip nic) := by
  induction step generalizing nic with
  | done value => trivial
  | ask effect next ih =>
    cases effect with
    | call call => exact ⟨rfl, ih _ _⟩
    | record record => exact ih () nic
    | notify notice => exact ih () nic

/-- A run leaves the controller as its calls do. -/
theorem state_run (step : Poll α) (nic : Controller) :
    (step.run Controller.chip nic).state =
      nic.after (callsIn (step.exchanges Controller.chip nic)) := by
  induction step generalizing nic with
  | done value => rfl
  | ask effect next ih =>
    cases effect with
    | call call => exact ih _ _
    | record record => exact ih () nic
    | notify notice => exact ih () nic

end Runs

variable {nic : Controller} {id socket : SocketId} {change : Socket → Socket}

namespace Controller

theorem socket_modify_self : (nic.modify id change).socket id = change (nic.socket id) := by
  change (nic.sockets.set id.val (change (nic.socket id)) id.isLt)[id.val] = _
  rw [Vector.getElem_set_self]

theorem socket_modify_other (different : id ≠ socket) :
    (nic.modify id change).socket socket = nic.socket socket := by
  change (nic.sockets.set id.val (change (nic.socket id)) id.isLt)[socket.val] =
    nic.sockets[socket.val]
  rw [Vector.getElem_set_ne]
  exact fun same => different (Fin.ext same)

theorem status_of_firstSocket? {test : Socket → Bool} (found : nic.firstSocket? test = some id) :
    test (nic.socket id) = true := by
  simpa using List.find?_some found

/-- A listener is opened on a closed slot. -/
theorem listen_ok {port : UInt16} (taken : (nic.listen port).1 = .ok socket) :
    (nic.socket socket).status = .closed ∧
      (nic.listen port).2 = nic.modify socket ({ · with status := .listen, port, sent := [] }) := by
  unfold listen at taken ⊢
  by_cases fails : nic.listenFails
  · rw [if_pos fails] at taken
    cases taken
  · rw [if_neg fails] at taken ⊢
    cases found : nic.firstSocket? (·.status = .closed) with
    | none =>
      rw [found] at taken
      cases taken
    | some first =>
      rw [found] at taken
      cases taken
      exact ⟨by simpa using status_of_firstSocket? found, rfl⟩

theorem listen_error {port : UInt16} {error : NicError}
    (failed : (nic.listen port).1 = .error error) :
    (nic.listen port).2 = nic := by
  unfold listen at failed ⊢
  by_cases fails : nic.listenFails
  · rw [if_pos fails]
  · rw [if_neg fails] at failed ⊢
    cases found : nic.firstSocket? (·.status = .closed) with
    | none => rfl
    | some first =>
      rw [found] at failed
      cases failed

end Controller

/-- What a happening can do to a slot. -/
inductive Fate (nic : Controller) (socket : SocketId) : Happening → Socket → Prop where
  | kept {happening : Happening} {after : Socket}
      (status : after.status = (nic.socket socket).status)
      (port : after.port = (nic.socket socket).port) : Fate nic socket happening after
  | ended {happening : Happening} {after : Socket} (status : after.status = .closed) :
      Fate nic socket happening after
  /-- A disconnection that is waited for. -/
  | finishing {happening : Happening} {after : Socket} (status : after.status = .finWait)
      (port : after.port = (nic.socket socket).port) : Fate nic socket happening after
  | opened {port : UInt16} {after : Socket} (taken : (nic.listen port).1 = .ok socket)
      (status : after.status = .listen) : Fate nic socket (.call (.listen port)) after
  | met {port : UInt16} {remote : Ipv4} {data : List UInt8} {after : Socket}
      (listening : (nic.socket socket).status = .listen) :
      Fate nic socket (.event (.connect port remote data)) after
  | set {status : SocketStatus} {port : UInt16} {after : Socket} (shown : after.status = status)
      (bound : after.port = port) : Fate nic socket (.event (.setStatus socket status port)) after

namespace Fate

variable {happening : Happening}

theorem untouched : Fate nic socket happening (nic.socket socket) := .kept rfl rfl

/-- A change to one slot is a fate of that slot, and leaves the others alone. -/
theorem modify (own : id = socket → Fate nic socket happening (change (nic.socket socket))) :
    Fate nic socket happening ((nic.modify id change).socket socket) := by
  by_cases same : id = socket
  · subst same
    rw [Controller.socket_modify_self]
    exact own rfl
  · rw [Controller.socket_modify_other same]
    exact untouched

/-- Only a call to listen opens a slot. -/
theorem of_call (call : Nic.Call) :
    Fate nic socket (.call call) ((nic.answer call).2.socket socket) := by
  cases call with
  | probe | linkStatus | maintainLease | configureStatic | localIp | socketCount | socketStatus
  | socketPort | remoteIp | rxAvailable | txFree => exact untouched
  | beginSoftReset =>
    apply ended
    change ((nic.sockets.map Socket.shut)[socket.val]).status = .closed
    rw [Vector.getElem_map]
    rfl
  | pollSoftReset =>
    change Fate nic socket _ (nic.pollSoftReset.2.socket socket)
    unfold Controller.pollSoftReset
    split
    · exact untouched
    · split <;> exact untouched
  | dhcpLease mac timeout =>
    change Fate nic socket _ (nic.requestLease.2.socket socket)
    unfold Controller.requestLease
    dsimp only
    split <;> exact untouched
  | recv id limit => exact modify fun _ => .kept rfl rfl
  | send id data => exact modify fun _ => .kept rfl rfl
  | close id => exact modify fun _ => .ended rfl
  | disconnect id =>
    refine modify fun _ => ?_
    dsimp only
    split
    · exact .ended rfl
    · exact .finishing rfl rfl
  | listen port =>
    change Fate nic socket _ ((nic.listen port).2.socket socket)
    cases taken : (nic.listen port).1 with
    | error error =>
      rw [Controller.listen_error taken]
      exact untouched
    | ok first =>
      rw [(Controller.listen_ok taken).2]
      refine modify fun same => ?_
      subst same
      exact .opened taken rfl

theorem of_event (event : Event) :
    Fate nic socket (.event event) ((event.apply nic).socket socket) := by
  cases event with
  | arrive id data =>
    refine modify fun _ => .kept ?_ ?_
    all_goals
      unfold Socket.arrive
      dsimp only
      split <;> split <;> rfl
  | acknowledge id => exact modify fun _ => .kept rfl rfl
  | takeSent id => exact modify fun _ => .kept rfl rfl
  | surround elsewhere => exact untouched
  | setStatus id status port =>
    refine modify fun same => ?_
    subst same
    exact .set rfl rfl
  | connect port remote data =>
    change Fate nic socket _ ((nic.connect port remote data).2.socket socket)
    unfold Controller.connect
    cases found : nic.firstSocket? fun socket => socket.status = .listen && socket.port = port with
    | none => exact untouched
    | some id =>
      refine modify fun same => ?_
      subst same
      have passed := Controller.status_of_firstSocket? found
      simp only [Bool.and_eq_true, decide_eq_true_eq] at passed
      exact .met passed.1

end Fate

theorem fate (nic : Controller) (socket : SocketId) (happening : Happening) :
    Fate nic socket happening ((happening.apply nic).socket socket) := by
  cases happening with
  | call call => exact .of_call call
  | event event => exact .of_event event

end BoardNet.Sim
