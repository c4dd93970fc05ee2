import BoardNet.Proofs.Trace
import BoardNet.Sim.Controller

namespace BoardNet

def Effect.isCall : Effect → Bool
  | .call _ => true
  | .record _ | .notify _ => false

def callCount (trace : List Exchange) : Nat := trace.countP (·.effect.isCall)

@[simp] theorem callCount_nil : callCount [] = 0 := rfl

@[simp] theorem callCount_append (before after : List Exchange) :
    callCount (before ++ after) = callCount before + callCount after :=
  List.countP_append

@[simp] theorem callCount_call (call : Nic.Call) (answer : call.Answer) (trace : List Exchange) :
    callCount (⟨.call call, answer⟩ :: trace) = callCount trace + 1 :=
  List.countP_cons_of_pos rfl

@[simp] theorem callCount_record (record : Log.Record) (trace : List Exchange) :
    callCount (⟨.record record, ()⟩ :: trace) = callCount trace :=
  List.countP_cons_of_neg nofun

@[simp] theorem callCount_notify (notice : Notice) (trace : List Exchange) :
    callCount (⟨.notify notice, ()⟩ :: trace) = callCount trace :=
  List.countP_cons_of_neg nofun

@[simp] theorem callCount_recorded (records : List Log.Record) :
    callCount (Poll.recorded records) = 0 := by
  apply List.countP_eq_zero.mpr
  intro exchange member
  obtain ⟨record, -, rfl⟩ := List.mem_map.mp member
  nofun

/-- How often bytes came in from a socket. -/
def feedsOn (socket : SocketId) (trace : List Exchange) : Nat :=
  trace.countP (·.given socket ≠ [])

section Feeds

variable {socket : SocketId} {trace : List Exchange}

@[simp] theorem feedsOn_append (socket : SocketId) (before after : List Exchange) :
    feedsOn socket (before ++ after) = feedsOn socket before + feedsOn socket after :=
  List.countP_append

theorem feedsOn_cons {exchange : Exchange} (other : exchange.given socket = [])
    (trace : List Exchange) : feedsOn socket (exchange :: trace) = feedsOn socket trace :=
  List.countP_cons_of_neg (by simp [other])

/-- A reception counts unless it is empty. -/
theorem feedsOn_received (limit : Nat) (data : (Nic.Call.recv socket limit).Answer)
    (trace : List Exchange) :
    feedsOn socket (⟨.call (.recv socket limit), data⟩ :: trace) =
      feedsOn socket trace + if data.val = [] then 0 else 1 := by
  have given : Exchange.given socket ⟨.call (.recv socket limit), data⟩ = data.val := if_pos rfl
  split
  · next none => exact List.countP_cons_of_neg (by simp [given, none])
  · next some => exact List.countP_cons_of_pos (by simp [given, some])

theorem feedsOn_eq_zero (none : ∀ exchange ∈ trace, exchange.effect.source = none) :
    feedsOn socket trace = 0 := by
  refine List.countP_eq_zero.mpr fun exchange member => ?_
  have empty : exchange.given socket = [] :=
    Exchange.given_eq_nil (by rw [none exchange member]; nofun)
  simp [empty]

@[simp] theorem feedsOn_recorded (socket : SocketId) (records : List Log.Record) :
    feedsOn socket (Poll.recorded records) = 0 := by
  refine feedsOn_eq_zero fun exchange member => ?_
  exact (passive_recorded records exchange member).2

/-- Nothing comes in during a step that does not receive. -/
theorem Poll.Path.feedsOn_eq_zero {α : Type} {step : Poll α} {value : α}
    (path : Poll.Path step trace value) (asks : step.Asks (·.source = none)) :
    feedsOn socket trace = 0 :=
  BoardNet.feedsOn_eq_zero (path.effect_allowed asks)

end Feeds

namespace Poll

variable {α : Type}

/-- The step ends after at most so many calls of the controller, whatever is answered to them. -/
def EndsWithin : Poll α → Nat → Prop
  | .done _, _ => True
  | .ask (.call _) _, 0 => False
  | .ask (.call _) next, calls + 1 => ∀ answer, (next answer).EndsWithin calls
  | .ask (.record _) next, calls | .ask (.notify _) next, calls => (next ()).EndsWithin calls

/-- A step takes some path. -/
theorem exists_path (step : Poll α) : ∃ trace value, Path step trace value :=
  ⟨_, _, path_run Sim.Controller.chip step {}⟩

/-- The calls are counted on each path. -/
theorem endsWithin_iff {step : Poll α} {calls : Nat} :
    step.EndsWithin calls ↔ ∀ trace value, Path step trace value → callCount trace ≤ calls := by
  constructor
  · intro ends trace value path
    induction path generalizing calls with
    | done value => exact Nat.zero_le _
    | @ask effect next trace value answer rest ih =>
      cases effect with
      | call call =>
        cases calls with
        | zero => exact ends.elim
        | succ calls =>
          rw [callCount_call]
          exact Nat.succ_le_succ (ih (ends answer))
      | record record =>
        rw [callCount_record]
        exact ih ends
      | notify notice =>
        rw [callCount_notify]
        exact ih ends
  · intro counted
    induction step generalizing calls with
    | done value => trivial
    | ask effect next ih =>
      cases effect with
      | call call =>
        have every (answer : call.Answer) (trace : List Exchange) (value : α)
            (path : Path (next answer) trace value) : callCount trace + 1 ≤ calls := by
          rw [← callCount_call call answer]
          exact counted _ _ (path_ask.mpr ⟨answer, trace, rfl, path⟩)
        cases calls with
        | zero =>
          -- whatever is answered, the path has one call too many
          obtain ⟨answer, -⟩ := Sim.Controller.chip.answer call {}
          obtain ⟨trace, value, path⟩ := exists_path (next answer)
          exact absurd (every answer trace value path) (Nat.not_succ_le_zero _)
        | succ calls =>
          exact fun answer => ih answer fun trace value path =>
            Nat.le_of_succ_le_succ (every answer trace value path)
      | record record =>
        refine ih () fun trace value path => ?_
        rw [← callCount_record record]
        exact counted _ _ (path_ask.mpr ⟨(), trace, rfl, path⟩)
      | notify notice =>
        refine ih () fun trace value path => ?_
        rw [← callCount_notify notice]
        exact counted _ _ (path_ask.mpr ⟨(), trace, rfl, path⟩)

end Poll

end BoardNet
