import BoardNet.Poll

namespace BoardNet

/-- A network controller with states of type `σ`. -/
structure Chip (σ : Type) where
  answer : (call : Nic.Call) → σ → call.Answer × σ

inductive Output where
  | record (record : Log.Record)
  | notice (notice : Notice)
  deriving DecidableEq, Repr

/-- A step that was run: how it ended, the controller afterwards, and what was put out in order. -/
structure Ran (σ α : Type) where
  value : α
  state : σ
  output : List Output := []

namespace Ran

variable {σ α : Type}

def preceded (ran : Ran σ α) (first : Output) : Ran σ α :=
  { ran with output := first :: ran.output }

def records (ran : Ran σ α) : List Log.Record :=
  ran.output.filterMap fun
    | .record record => some record
    | .notice _ => none

def notices (ran : Ran σ α) : List Notice :=
  ran.output.filterMap fun
    | .record _ => none
    | .notice notice => some notice

end Ran

def Poll.run {σ α : Type} (chip : Chip σ) : Poll α → σ → Ran σ α
  | .done value, state => ⟨value, state, []⟩
  | .ask (.call call) next, state =>
    let (answer, after) := chip.answer call state
    (next answer).run chip after
  | .ask (.record record) next, state => ((next ()).run chip state).preceded (.record record)
  | .ask (.notify notice) next, state => ((next ()).run chip state).preceded (.notice notice)

/-- Running two steps in sequence runs the second where the first left the controller. -/
theorem Poll.run_bind {σ α β : Type} (chip : Chip σ) (first : Poll α) (next : α → Poll β)
    (state : σ) :
    (first >>= next).run chip state =
      let before := first.run chip state
      let after := (next before.value).run chip before.state
      { after with output := before.output ++ after.output } := by
  induction first generalizing state with
  | done value => rfl
  | ask effect answered rest =>
    cases effect with
    | call call => exact rest _ _
    | record record =>
      have tail := rest () state
      simp only [Poll.ask_bind, Poll.run, tail]
      rfl
    | notify notice =>
      have tail := rest () state
      simp only [Poll.ask_bind, Poll.run, tail]
      rfl

end BoardNet
