import BoardNet.Proofs.Path

namespace BoardNet

/-- The notices among some exchanges, in the order in which they were given. -/
def noticesIn (trace : List Exchange) : List Notice :=
  trace.filterMap fun exchange =>
    match exchange.effect with
    | .notify notice => some notice
    | _ => none

/-- Records are no notices. -/
theorem noticesIn_recorded (records : List Log.Record) : noticesIn (Poll.recorded records) = [] :=
  List.filterMap_eq_nil_iff.mpr fun exchange member => by
    obtain ⟨record, -, rfl⟩ := List.mem_map.mp member
    rfl

namespace Poll

variable {α β : Type} {test weaker : List Notice → α → Prop}

/-- Whatever is answered, the notices that a step gives and the value it ends with pass a test. -/
def Tells : Poll α → (List Notice → α → Prop) → Prop
  | .done value, test => test [] value
  | .ask (.notify notice) next, test =>
    (next ()).Tells fun later value => test (notice :: later) value
  | .ask (.call _) next, test => ∀ answer, (next answer).Tells test
  | .ask (.record _) next, test => (next ()).Tells test

@[simp] theorem tells_done {value : α} : (Poll.done value).Tells test ↔ test [] value := Iff.rfl

/-- After a call the step goes on from whatever is answered. -/
theorem tells_nic_bind {call : Nic.Call} {next : call.Answer → Poll α} :
    (Poll.nic call >>= next).Tells test ↔ ∀ answer, (next answer).Tells test := Iff.rfl

@[simp] theorem tells_log_bind {level : Log.Level} {text : String} {next : Unit → Poll α} :
    (Poll.log level text >>= next).Tells test ↔ (next ()).Tells test := Iff.rfl

@[simp] theorem tells_notify_bind {notice : Notice} {next : Unit → Poll α} :
    (Poll.notify notice >>= next).Tells test ↔
      (next ()).Tells fun later value => test (notice :: later) value := Iff.rfl

/-- What a sequence tells is what its parts do, one after the other. -/
theorem tells_bind {first : Poll α} {next : α → Poll β} {test : List Notice → β → Prop} :
    (first >>= next).Tells test ↔ first.Tells fun told value =>
      (next value).Tells fun later result => test (told ++ later) result := by
  induction first generalizing test with
  | done value => rfl
  | ask effect answered ih =>
    cases effect with
    | call call => exact forall_congr' fun answer => ih answer
    | record record => exact ih ()
    | notify notice => exact ih ()

theorem tells_recordAll {records : List Log.Record} {test : List Notice → Unit → Prop} :
    (recordAll records).Tells test ↔ test [] () := by
  induction records with
  | nil => rfl
  | cons record records ih => exact ih

@[simp] theorem tells_lift {given : Logged α} :
    (liftM given : Poll α).Tells test ↔ test [] given.value :=
  tells_bind.trans tells_recordAll

theorem Tells.mono {step : Poll α} (tells : step.Tells test)
    (passes : ∀ told value, test told value → weaker told value) : step.Tells weaker := by
  induction step generalizing test weaker with
  | done value => exact passes [] value tells
  | ask effect answered ih =>
    cases effect with
    | call call => exact fun answer => ih answer (tells answer) passes
    | record record => exact ih () tells passes
    | notify notice => exact ih () tells fun told value => passes (notice :: told) value

/-- A step that cannot notify tells nothing. -/
theorem tells_nothing {step : Poll α}
    (asks : step.Asks fun effect => ∀ notice, effect ≠ .notify notice) :
    step.Tells fun told _ => told = [] := by
  induction step with
  | done value => rfl
  | ask effect answered ih =>
    obtain ⟨allowed, asks⟩ := asks
    cases effect with
    | call call => exact fun answer => ih answer (asks answer)
    | record record => exact ih () (asks ())
    | notify notice => exact absurd rfl (allowed notice)

theorem Path.told {step : Poll α} {trace : List Exchange} {result : α}
    (path : Path step trace result) (tells : step.Tells test) : test (noticesIn trace) result := by
  induction path generalizing test with
  | done value => exact tells
  | @ask effect next trace value answer rest ih =>
    cases effect with
    | call call => exact ih (tells answer)
    | record record => exact ih tells
    | notify notice => exact ih tells

/-- What is put out in a run tells the same. -/
theorem noticesIn_exchanges {σ : Type} (chip : Chip σ) (step : Poll α) (state : σ) :
    noticesIn (step.exchanges chip state) = (step.run chip state).notices := by
  induction step generalizing state with
  | done value => rfl
  | ask effect answered ih =>
    cases effect with
    | call call => exact ih _ _
    | record record => exact ih () state
    | notify notice => exact congrArg (notice :: ·) (ih () state)

end Poll

end BoardNet
