import BoardNet.Log
import BoardNet.Nic.Call

/-!
Steps of the poll loop. An engine's step is a value that says what to ask of the controller, what
to put on record and whom to notify, and how to go on from each answer; it owns no controller. So
one definition of an engine runs against every controller, and a statement about all controllers is
an induction over the step.
-/

namespace BoardNet

/-- What the firmware around the engines hears from them. -/
inductive Notice where
  /-- The addressing record is to be stored. -/
  | store (addressing : Addressing)
  /-- Cable, address and listeners are up. -/
  | ready (ip : Ipv4)
  | linkLost
  /-- The controller stopped answering on the bus while the cable was out. -/
  | recoverBus
  deriving DecidableEq, Repr

/-- One thing that a step asks of its surroundings. -/
inductive Effect where
  | call (call : Nic.Call)
  | record (record : Log.Record)
  | notify (notice : Notice)
  deriving DecidableEq, Repr

/-- The type of what the surroundings answer. -/
@[reducible] def Effect.Answer : Effect → Type
  | .call request => request.Answer
  | .record _ => Unit
  | .notify _ => Unit

/-- A step that ends with a value of type `α`, after finitely many effects whatever the answers. -/
inductive Poll (α : Type) where
  | done (value : α)
  | ask (effect : Effect) (next : effect.Answer → Poll α)

namespace Poll

protected def bind {α β : Type} : Poll α → (α → Poll β) → Poll β
  | .done value, next => next value
  | .ask effect answered, next => .ask effect fun answer => (answered answer).bind next

instance : Monad Poll where
  pure := .done
  bind := Poll.bind

@[simp] theorem pure_eq_done {α : Type} (value : α) : (pure value : Poll α) = .done value := rfl

@[simp] theorem done_bind {α β : Type} (value : α) (next : α → Poll β) :
    (Poll.done value >>= next) = next value := rfl

@[simp] theorem ask_bind {α β : Type} (effect : Effect) (answered : effect.Answer → Poll α)
    (next : α → Poll β) :
    (Poll.ask effect answered >>= next) = .ask effect fun answer => answered answer >>= next := rfl

instance : LawfulMonad Poll := LawfulMonad.mk' Poll
  (fun step => by
    induction step with
    | done => rfl
    | ask effect answered next => exact congrArg (Poll.ask effect) (funext next))
  (fun _ _ => rfl)
  (fun first _ _ => by
    induction first with
    | done => rfl
    | ask effect answered next => exact congrArg (Poll.ask effect) (funext next))

/-- Makes one call and ends with its answer. -/
def nic (call : Nic.Call) : Poll call.Answer := .ask (.call call) .done

def log (level : Log.Level) (text : String) : Poll Unit := .ask (.record ⟨level, text⟩) .done

def notify (notice : Notice) : Poll Unit := .ask (.notify notice) .done

def recordAll : List Log.Record → Poll Unit
  | [] => .done ()
  | record :: records => .ask (.record record) fun _ => recordAll records

/-- A result with records, as a step that puts these on record. -/
def ofLogged {α : Type} (result : Logged α) : Poll α := do
  recordAll result.records
  return result.value

instance : MonadLift Logged Poll := ⟨ofLogged⟩

/-- A change of a result's value can be made before or after its records are. -/
theorem liftM_map {α β : Type} (change : α → β) (given : Logged α) :
    (liftM (change <$> given) : Poll β) = change <$> (liftM given : Poll α) := by
  change (recordAll (given.records ++ []) >>= fun _ => pure (change given.value)) =
    change <$> (recordAll given.records >>= fun _ => pure given.value)
  rw [List.append_nil, map_bind]
  rfl

end Poll

end BoardNet
