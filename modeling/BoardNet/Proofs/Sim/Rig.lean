import BoardNet.Proofs.Sim.Reuse
import BoardNet.Proofs.Trace
import BoardNet.Sim.Fault

namespace BoardNet

open Poll

namespace Chip

variable {σ : Type}

/-- The controller answers so in one state, and is in the other afterwards. -/
def Leads (chip : Chip σ) : σ → List Exchange → σ → Prop
  | state, [], after => after = state
  | state, ⟨.call call, answer⟩ :: rest, after =>
    answer = (chip.answer call state).1 ∧ chip.Leads (chip.answer call state).2 rest after
  | state, ⟨.record _, _⟩ :: rest, after | state, ⟨.notify _, _⟩ :: rest, after =>
    chip.Leads state rest after

variable {chip : Chip σ} {state after : σ} {trace later : List Exchange}

theorem leads_append : chip.Leads state (trace ++ later) after ↔
    ∃ between, chip.Leads state trace between ∧ chip.Leads between later after := by
  induction trace generalizing state with
  | nil =>
    constructor
    · intro leads
      exact ⟨state, rfl, leads⟩
    · rintro ⟨between, rfl, leads⟩
      exact leads
  | cons exchange trace ih =>
    obtain ⟨effect, answer⟩ := exchange
    cases effect with
    | call call =>
      simp only [List.cons_append, Leads, ih]
      constructor
      · rintro ⟨given, between, leads, rest⟩
        exact ⟨between, ⟨given, leads⟩, rest⟩
      · rintro ⟨between, ⟨given, leads⟩, rest⟩
        exact ⟨given, between, leads, rest⟩
    | record record => exact ih
    | notify notice => exact ih

/-- A run leads where it ends. -/
theorem leads_run {α : Type} (step : Poll α) (state : σ) :
    chip.Leads state (step.exchanges chip state) (step.run chip state).state := by
  induction step generalizing state with
  | done value => rfl
  | ask effect answered ih =>
    cases effect with
    | call call => exact ⟨rfl, ih _ _⟩
    | record record => exact ih () state
    | notify notice => exact ih () state

/-- What a controller answers to leads to the run on it. -/
theorem run_of_leads {α : Type} {step : Poll α} {result : α} (path : Path step trace result)
    (leads : chip.Leads state trace after) :
    (step.run chip state).value = result ∧ (step.run chip state).state = after := by
  induction path generalizing state with
  | done value => exact ⟨rfl, leads.symm⟩
  | @ask effect next trace value answer path ih =>
    cases effect with
    | call call =>
      obtain ⟨rfl, leads⟩ := leads
      exact ih leads
    | record record => exact ih leads
    | notify notice => exact ih leads

/-- What each of the calls keeps is kept by all of them. -/
theorem Leads.keeps (leads : chip.Leads state trace after) (test : σ → Prop)
    (keeps : ∀ exchange ∈ trace, ∀ call, exchange.effect = .call call →
      ∀ state, test state → test (chip.answer call state).2)
    (first : test state) : test after := by
  induction trace generalizing state with
  | nil =>
    rw [show after = state from leads]
    exact first
  | cons exchange trace ih =>
    have later := fun next member => keeps next (List.mem_cons_of_mem exchange member)
    obtain ⟨effect, answer⟩ := exchange
    cases effect with
    | call call => exact ih leads.2 later (keeps _ List.mem_cons_self call rfl state first)
    | record record => exact ih leads later first
    | notify notice => exact ih leads later first

end Chip

namespace Sim

namespace Controller

variable {nic after : Controller} {trace : List Exchange} {call : Nic.Call}
  {id socket : SocketId}

theorem leads_iff_answered :
    chip.Leads nic trace after ↔ Answered nic trace ∧ after = nic.after (callsIn trace) := by
  induction trace generalizing nic with
  | nil => exact ⟨fun same => ⟨trivial, same⟩, And.right⟩
  | cons exchange trace ih =>
    obtain ⟨effect, answer⟩ := exchange
    cases effect with
    | call call => exact (and_congr_right fun _ => ih).trans and_assoc.symm
    | record record => exact ih
    | notify notice => exact ih

/-- A call about a socket changes no other. -/
theorem socket_answer_other (about : (Effect.call call).about = some id) (different : id ≠ socket) :
    (nic.answer call).2.socket socket = nic.socket socket := by
  cases call with
  | socketStatus own | socketPort own | remoteIp own | rxAvailable own | txFree own => rfl
  | recv own | send own | disconnect own | close own =>
    cases about
    exact socket_modify_other different
  | _ => cases about

/-- Only a call to listen opens a listener. -/
theorem deaf_answer (other : ∀ port, call ≠ .listen port)
    (deaf : (nic.socket socket).status ≠ .listen) :
    ((nic.answer call).2.socket socket).status ≠ .listen := by
  have change := @Fate.of_call nic socket call
  generalize (nic.answer call).2.socket socket = last at change
  cases change with
  | kept status => rwa [status]
  | ended status =>
    rw [status]
    nofun
  | finishing status =>
    rw [status]
    nofun
  | opened => exact absurd rfl (other _)

theorem deaf_after (leads : chip.Leads nic trace after)
    (other : ∀ exchange ∈ trace, ∀ port, exchange.effect ≠ .call (.listen port))
    (deaf : (nic.socket socket).status ≠ .listen) : (after.socket socket).status ≠ .listen := by
  refine leads.keeps (fun nic => (nic.socket socket).status ≠ .listen) ?_ deaf
  intro exchange member call made between
  refine deaf_answer fun port same => other exchange member port ?_
  rw [made, same]

end Controller

end Sim

namespace Sim.Rig

variable {rig after : Rig} {trace : List Exchange} {socket : SocketId} {port : UInt16}

/-- A call with faults is some call without. -/
theorem exists_call (call : Nic.Call) (rig : Rig) :
    ∃ other : Nic.Call, (rig.answer call).2.nic = (rig.nic.answer other).2 := by
  cases call with
  | socketCount => exact ⟨.socketCount, rfl⟩
  | pollSoftReset =>
    unfold answer
    cases rig.faults.resetError with
    | none => exact ⟨.pollSoftReset, rfl⟩
    | some error => exact ⟨.socketCount, rfl⟩
  | dhcpLease mac timeout =>
    refine ⟨.dhcpLease mac timeout, ?_⟩
    unfold answer
    cases rig.faults.dhcpError <;> rfl
  | recv id limit => exact ⟨.recv id (cap rig.faults.recvCap limit), rfl⟩
  | send id data => exact ⟨.send id (data.take (cap rig.faults.sendCap data.length)), rfl⟩
  | probe => exact ⟨.probe, rfl⟩
  | linkStatus => exact ⟨.linkStatus, rfl⟩
  | beginSoftReset => exact ⟨.beginSoftReset, rfl⟩
  | maintainLease => exact ⟨.maintainLease, rfl⟩
  | configureStatic mac addressing => exact ⟨.configureStatic mac addressing, rfl⟩
  | localIp => exact ⟨.localIp, rfl⟩
  | socketStatus id => exact ⟨.socketStatus id, rfl⟩
  | socketPort id => exact ⟨.socketPort id, rfl⟩
  | remoteIp id => exact ⟨.remoteIp id, rfl⟩
  | rxAvailable id => exact ⟨.rxAvailable id, rfl⟩
  | txFree id => exact ⟨.txFree id, rfl⟩
  | listen port => exact ⟨.listen port, rfl⟩
  | disconnect id => exact ⟨.disconnect id, rfl⟩
  | close id => exact ⟨.close id, rfl⟩

/-- Without faults the controller answers as it does by itself. -/
theorem answer_of_faultless (call : Nic.Call) (nic : Controller) :
    answer call { nic } = ((nic.answer call).1, { nic := (nic.answer call).2 }) := by
  cases call with
  | recv id limit =>
    have whole : cap none limit = limit := Nat.min_self limit
    refine Prod.ext (Subtype.ext ?_) ?_
    · change (nic.recv id (cap none limit)).1.val = (nic.recv id limit).1.val
      rw [whole]
    · change Rig.mk (nic.recv id (cap none limit)).2 {} = Rig.mk (nic.recv id limit).2 {}
      rw [whole]
  | send id data =>
    have whole : data.take (cap none data.length) = data :=
      List.take_of_length_le (Nat.le_min.mpr ⟨Nat.le_refl _, Nat.le_refl _⟩)
    refine Prod.ext (Fin.ext ?_) ?_
    · change (nic.send id (data.take (cap none data.length))).1.val = (nic.send id data).1.val
      rw [whole]
    · change Rig.mk (nic.send id (data.take (cap none data.length))).2 {} =
        Rig.mk (nic.send id data).2 {}
      rw [whole]
  | _ => rfl

theorem leads_of_faultless {nic last : Controller} (leads : Controller.chip.Leads nic trace last) :
    chip.Leads { nic } trace { nic := last } := by
  induction trace generalizing nic with
  | nil =>
    obtain rfl : last = nic := leads
    rfl
  | cons exchange trace ih =>
    obtain ⟨effect, answer⟩ := exchange
    cases effect with
    | call call =>
      obtain ⟨given, leads⟩ := leads
      have same : chip.answer call { nic } =
          ((nic.answer call).1, { nic := (nic.answer call).2 }) := answer_of_faultless call nic
      rw [Chip.Leads, same]
      exact ⟨given, ih leads⟩
    | record record => exact ih leads
    | notify notice => exact ih leads

theorem faults_answer (call : Nic.Call) (rig : Rig) : (rig.answer call).2.faults = rig.faults := by
  cases call with
  | pollSoftReset =>
    unfold answer
    cases rig.faults.resetError <;> rfl
  | dhcpLease mac timeout =>
    unfold answer
    cases rig.faults.dhcpError <;> rfl
  | _ => rfl

theorem faults_after (leads : chip.Leads rig trace after) : after.faults = rig.faults := by
  refine leads.keeps (fun state => state.faults = rig.faults) ?_ rfl
  intro exchange member call made state same
  exact (faults_answer call state).trans same

/-- No call gives a socket a peer. -/
theorem serves_before_answer {call : Nic.Call}
    (serves : ((rig.answer call).2.nic.socket socket).Serves port) :
    (rig.nic.socket socket).Serves port := by
  obtain ⟨other, same⟩ := exists_call call rig
  rw [same] at serves
  exact serves_before_call serves

theorem serves_before (leads : chip.Leads rig trace after)
    (serves : (after.nic.socket socket).Serves port) : (rig.nic.socket socket).Serves port := by
  apply Classical.byContradiction
  intro alone
  refine leads.keeps (fun state => ¬(state.nic.socket socket).Serves port) ?_ alone serves
  intro exchange member call made state alone serves
  exact alone (serves_before_answer serves)

end Sim.Rig

/-- The connection on a socket was ended, or the socket was seen closed. -/
def Forsaken (socket : SocketId) (trace : List Exchange) : Prop :=
  ∃ exchange ∈ trace, exchange.effect.Releases socket ∨
    exchange = ⟨.call (.socketStatus socket), SocketStatus.closed⟩

theorem Forsaken.append_left {socket : SocketId} {trace : List Exchange}
    (forsaken : Forsaken socket trace) (later : List Exchange) :
    Forsaken socket (trace ++ later) := by
  obtain ⟨exchange, member, ends⟩ := forsaken
  exact ⟨exchange, List.mem_append_left later member, ends⟩

theorem Forsaken.append_right {socket : SocketId} {trace : List Exchange}
    (forsaken : Forsaken socket trace) (earlier : List Exchange) :
    Forsaken socket (earlier ++ trace) := by
  obtain ⟨exchange, member, ends⟩ := forsaken
  exact ⟨exchange, List.mem_append_right earlier member, ends⟩

namespace Sim.Rig

variable {rig after : Rig} {trace : List Exchange} {socket : SocketId} {port : UInt16}

/-- A connection that is ended is gone at once. -/
theorem not_serves_of_releases {call : Nic.Call} (ends : (Effect.call call).Releases socket) :
    ¬((rig.answer call).2.nic.socket socket).Serves port := by
  obtain ⟨release, about⟩ := ends
  rintro ⟨connected, -⟩
  cases call with
  | close id =>
    obtain rfl : id = socket := Option.some.inj about
    have gone : ((rig.nic.close id).socket id).status = .closed := by
      rw [Controller.close, Controller.socket_modify_self]
      rfl
    have connected : ((rig.nic.close id).socket id).status.isConnected = true := connected
    rw [gone] at connected
    cases connected
  | disconnect id =>
    obtain rfl : id = socket := Option.some.inj about
    have connected : ((rig.nic.disconnect id).socket id).status.isConnected = true := connected
    rw [Controller.disconnect, Controller.socket_modify_self] at connected
    dsimp only at connected
    split at connected
    · cases connected
    · cases connected
  | _ => cases release

theorem not_serves_of_forsaken (leads : chip.Leads rig trace after)
    (forsaken : Forsaken socket trace) : ¬(after.nic.socket socket).Serves port := by
  intro serves
  obtain ⟨exchange, member, ends⟩ := forsaken
  obtain ⟨before, rest, rfl⟩ := List.append_of_mem member
  obtain ⟨between, -, leads⟩ := Chip.leads_append.mp leads
  rcases ends with ends | rfl
  · obtain ⟨effect, answer⟩ := exchange
    cases effect with
    | call call => exact not_serves_of_releases ends (serves_before leads.2 serves)
    | record record => cases ends.1
    | notify notice => cases ends.1
  · obtain ⟨shown, leads⟩ := leads
    have still := serves_before_answer (serves_before leads serves)
    have connected := still.1
    rw [show (between.nic.socket socket).status = .closed from shown.symm] at connected
    cases connected

end Sim.Rig

namespace Sim

def Socket.closed (socket : Socket) : Socket := { socket with closes := socket.closes + 1 }.shut

namespace Controller

variable {nic : Controller} {id socket : SocketId} {sockets : List SocketId}

theorem socket_close :
    (nic.close id).socket socket =
      if id = socket then (nic.socket socket).closed else nic.socket socket := by
  by_cases same : id = socket
  · subst same
    rw [if_pos rfl]
    exact socket_modify_self
  · rw [if_neg same]
    exact socket_modify_other same

def closeAll (nic : Controller) (sockets : List SocketId) : Controller :=
  sockets.foldl close nic

/-- Closing some sockets closes each of them once, and changes no other. -/
theorem socket_closeAll (distinct : sockets.Nodup) :
    (socket ∈ sockets → (nic.closeAll sockets).socket socket = (nic.socket socket).closed) ∧
      (socket ∉ sockets → (nic.closeAll sockets).socket socket = nic.socket socket) := by
  induction sockets generalizing nic with
  | nil => exact ⟨fun member => absurd member List.not_mem_nil, fun _ => rfl⟩
  | cons first sockets ih =>
    obtain ⟨out, distinct⟩ := List.nodup_cons.mp distinct
    obtain ⟨later, spared⟩ := @ih (nic.close first) distinct
    change (_ → ((nic.close first).closeAll sockets).socket socket = _) ∧
      (_ → ((nic.close first).closeAll sockets).socket socket = _)
    rw [socket_close] at later spared
    by_cases same : first = socket
    · subst same
      rw [if_pos rfl] at spared
      exact ⟨fun _ => spared out, fun absent => absurd List.mem_cons_self absent⟩
    · rw [if_neg same] at later spared
      refine ⟨fun member => ?_, fun absent => ?_⟩
      · exact later ((List.mem_cons.mp member).resolve_left (Ne.symm same))
      · exact spared fun member => absent (List.mem_cons_of_mem first member)

end Controller

/-- Where nothing was asked but to close some sockets, these were closed. -/
theorem Rig.nic_of_closes {rig after : Rig} {trace : List Exchange} {sockets : List SocketId}
    (calls : callsIn trace = sockets.map (.call <| .close ·)) (leads : chip.Leads rig trace after) :
    after.nic = rig.nic.closeAll sockets := by
  induction trace generalizing rig sockets with
  | nil =>
    obtain rfl : sockets = [] := List.map_eq_nil_iff.mp calls.symm
    rw [show after = rig from leads]
    rfl
  | cons exchange trace ih =>
    obtain ⟨effect, answer⟩ := exchange
    cases effect with
    | call call =>
      obtain ⟨first, rest, rfl, asked, further⟩ := List.map_eq_cons_iff.mp calls.symm
      cases asked
      have closed := ih further.symm leads.2
      exact closed
    | record record => exact ih calls leads
    | notify notice => exact ih calls leads

end Sim

end BoardNet
