import BoardNet.Proofs.WebSocket.Listening

namespace BoardNet

open Poll Sim

/-- Whatever is done, no listener is opened. -/
def Effect.OpensNone (effect : Effect) : Prop := ∀ port, effect ≠ .call (.listen port)

namespace Poll

variable {α : Type} {allowed permitted : Effect → Prop}

theorem Asks.mono {step : Poll α} (asks : step.Asks allowed)
    (weaker : ∀ effect, allowed effect → permitted effect) : step.Asks permitted := by
  induction step with
  | done value => trivial
  | ask effect next ih => exact ⟨weaker effect asks.1, fun answer => ih answer (asks.2 answer)⟩

end Poll

namespace Sim

theorem Lasts.append {test : Controller → Prop} {nic : Controller} {history later : List Happening}
    (before : Lasts test nic history) (after : Lasts test (nic.after history) later) :
    Lasts test nic (history ++ later) := by
  induction history generalizing nic with
  | nil => exact after
  | cons happening history ih => exact ⟨before.1, ih before.2 after⟩

@[simp] theorem callsIn_append (trace later : List Exchange) :
    callsIn (trace ++ later) = callsIn trace ++ callsIn later :=
  List.filterMap_append

namespace Controller

/-- No port has two listeners. -/
def Sole (nic : Controller) : Prop :=
  ∀ port socket other, (nic.socket socket).Listens port → (nic.socket other).Listens port →
    socket = other

variable {nic after : Controller} {port : UInt16} {socket : SocketId} {call : Nic.Call}
  {trace : List Exchange}

/-- What makes no new listener makes no second one. -/
theorem Sole.of_fewer (sole : nic.Sole)
    (fewer : ∀ port socket, (after.socket socket).Listens port →
      (nic.socket socket).Listens port) : after.Sole := fun port socket other one two =>
  sole port socket other (fewer port socket one) (fewer port other two)

/-- Only a call to listen makes a listener. -/
theorem listens_before_answer (none : (Effect.call call).OpensNone)
    (listens : ((nic.answer call).2.socket socket).Listens port) :
    (nic.socket socket).Listens port := by
  obtain ⟨status, bound⟩ := listens
  have change := @Fate.of_call nic socket call
  generalize (nic.answer call).2.socket socket = last at status bound change
  cases change with
  | kept same own => exact ⟨same.symm.trans status, own.symm.trans bound⟩
  | ended closed => cases closed.symm.trans status
  | finishing waiting => cases waiting.symm.trans status
  | opened => exact absurd rfl (none _)

theorem lasts_sole (none : ∀ exchange ∈ trace, exchange.effect.OpensNone) (sole : nic.Sole) :
    Lasts Sole nic (callsIn trace) := by
  induction trace generalizing nic with
  | nil => exact sole
  | cons exchange trace ih =>
    obtain ⟨effect, answer⟩ := exchange
    obtain ⟨first, later⟩ := List.forall_mem_cons.mp none
    cases effect with
    | call call => exact ⟨sole, ih later (sole.of_fewer fun _ _ => listens_before_answer first)⟩
    | record record => exact ih later sole
    | notify notice => exact ih later sole

/-- A listener that is opened where there is none is the only one. -/
theorem Sole.listen (sole : nic.Sole) (silent : ¬nic.Listens port) : (nic.listen port).2.Sole := by
  cases opened : (nic.listen port).1 with
  | error error =>
    rw [listen_error opened]
    exact sole
  | ok slot =>
    rw [(listen_ok opened).2]
    -- Of two listeners on one port neither or both are the new one, whose port had none.
    have new {bound : UInt16} {other : SocketId} (different : slot ≠ other)
        (listens : (nic.socket other).Listens bound) : bound ≠ port := by
      rintro rfl
      exact silent ⟨other, listens⟩
    intro bound socket other one two
    by_cases first : slot = socket
    · by_cases second : slot = other
      · exact first.symm.trans second
      · subst first
        rw [socket_modify_self] at one
        rw [socket_modify_other second] at two
        exact absurd one.2.symm (new second two)
    · rw [socket_modify_other first] at one
      by_cases second : slot = other
      · subst second
        rw [socket_modify_self] at two
        exact absurd two.2.symm (new first one)
      · rw [socket_modify_other second] at two
        exact sole bound socket other one two

/-- A listener stays as long as listeners are looked for and opened. -/
theorem Listens.listen (listens : nic.Listens port) (other : UInt16) :
    (nic.listen other).2.Listens port := by
  obtain ⟨socket, status, bound⟩ := listens
  cases opened : (nic.listen other).1 with
  | error error =>
    rw [listen_error opened]
    exact ⟨socket, status, bound⟩
  | ok slot =>
    obtain ⟨closed, state⟩ := listen_ok opened
    have different : slot ≠ socket := by
      rintro rfl
      cases closed.symm.trans status
    rw [state]
    refine ⟨socket, ?_⟩
    rw [socket_modify_other different]
    exact ⟨status, bound⟩

end Controller

section Guards

variable {α β : Type}

/-- If no port has two listeners when the step is begun, none has at any moment of it. -/
def Guards (step : Poll α) : Prop :=
  ∀ trace value nic, Path step trace value → Answered nic trace → nic.Sole →
    Lasts Controller.Sole nic (callsIn trace)

theorem guards_of_asks {step : Poll α} (asks : step.Asks Effect.OpensNone) : Guards step :=
  fun _ _ _ path _ sole => Controller.lasts_sole (path.effect_allowed asks) sole

theorem guards_done (value : α) : Guards (.done value) := guards_of_asks (asks_done value)

theorem guards_nic {call : Nic.Call} (none : (Effect.call call).OpensNone) :
    Guards (Poll.nic call) :=
  guards_of_asks (asks_nic.mpr none)

theorem log_opensNone {level : Log.Level} {text : String} :
    (Poll.log level text).Asks Effect.OpensNone :=
  asks_log.mpr nofun

theorem guards_log {level : Log.Level} {text : String} : Guards (Poll.log level text) :=
  guards_of_asks log_opensNone

theorem Guards.bind {first : Poll α} {next : α → Poll β} (guards : Guards first)
    (rest : ∀ value, Guards (next value)) : Guards (first >>= next) := by
  intro trace value nic path answered sole
  obtain ⟨before, after, between, rfl, path, going⟩ := path_bind.mp path
  obtain ⟨answered, later⟩ := answered_append.mp answered
  have lasts := guards _ _ _ path answered sole
  rw [callsIn_append]
  exact lasts.append (rest between _ _ _ going later lasts.last)

/-- What is found by a search for a listener. -/
theorem answered_isListening {port : UInt16} {trace : List Exchange} {nic : Controller}
    {found : Bool} (path : Path (Nic.isListening port) trace found)
    (answered : Answered nic trace) :
    nic.after (callsIn trace) = nic ∧ (found = true ↔ nic.Listens port) := by
  have leads := Controller.leads_iff_answered.mpr ⟨answered, rfl⟩
  obtain ⟨same, listens⟩ := Rig.leads_isListening path (Rig.leads_of_faultless leads)
  refine ⟨congrArg Rig.nic same, listens.trans ?_⟩
  constructor
  · rintro ⟨socket, -, listening⟩
    exact ⟨socket, listening⟩
  · rintro ⟨socket, listening⟩
    exact ⟨socket, socket.isLt, listening⟩

/-- A listener is opened only where none was found. -/
theorem guards_opening {port : UInt16} {present : Poll α}
    {opened : Except NicError SocketId → Poll α} (here : Guards present)
    (rest : ∀ answer, Guards (opened answer)) :
    Guards (Nic.isListening port >>= fun found =>
      if found = true then present else Nic.listen port >>= opened) := by
  intro trace value nic path answered sole
  obtain ⟨looks, after, found, rfl, looking, going⟩ := path_bind.mp path
  obtain ⟨looked, later⟩ := answered_append.mp answered
  have asks : (Nic.isListening port).Asks Effect.OpensNone :=
    Nic.asks_isListening nofun (fun _ => nofun) fun _ => nofun
  have lasts := guards_of_asks asks _ _ _ looking looked sole
  obtain ⟨same, listens⟩ := answered_isListening looking looked
  rw [callsIn_append]
  refine lasts.append ?_
  rw [same] at later ⊢
  cases found with
  | true => exact here _ _ _ going later sole
  | false =>
    rw [if_neg Bool.false_ne_true, Nic.listen, path_nic_bind] at going
    obtain ⟨answer, last, rfl, going⟩ := going
    have silent : ¬nic.Listens port := fun listening =>
      Bool.false_ne_true (listens.mpr listening)
    exact ⟨sole, rest answer _ _ _ going later.2 (sole.listen silent)⟩

end Guards

end Sim

end BoardNet
