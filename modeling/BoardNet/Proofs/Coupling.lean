import BoardNet.Proofs.Path

/-!
Two steps that cannot be told apart while they go on: whatever is answered, they ask the same and
record the same, and what they end with is related. The rules below couple steps by coupling their
parts; coupled steps run alike on every controller.
-/

namespace BoardNet

section Pairs

variable {α β γ : Type}

/-- Pairs with the same second part, and related first ones. -/
def Firsts (alike : α → β → Prop) (pair : α × γ) (other : β × γ) : Prop :=
  alike pair.1 other.1 ∧ pair.2 = other.2

/-- Pairs with the same first part, and related second ones. -/
def Seconds (alike : α → β → Prop) (pair : γ × α) (other : γ × β) : Prop :=
  pair.1 = other.1 ∧ alike pair.2 other.2

end Pairs

namespace Logged

variable {α β γ δ : Type}

/-- Results with the same records and related values. -/
structure Coupled (alike : α → β → Prop) (first : Logged α) (second : Logged β) : Prop where
  records : first.records = second.records
  value : alike first.value second.value

namespace Coupled

variable {alike : α → β → Prop} {similar : γ → δ → Prop} {first : Logged α} {second : Logged β}

theorem done {value : α} {result : β} (same : alike value result) :
    Coupled alike (pure value) (pure result) :=
  ⟨rfl, same⟩

theorem bind {next : α → Logged γ} {further : β → Logged δ} (coupled : Coupled alike first second)
    (rest : ∀ {value result}, alike value result → Coupled similar (next value) (further result)) :
    Coupled similar (first >>= next) (second >>= further) where
  records := by rw [records_bind, records_bind, coupled.records, (rest coupled.value).records]
  value := (rest coupled.value).value

/-- What comes first is the same for both. -/
theorem next {step : Logged α} {after : α → Logged γ} {other : α → Logged δ}
    (rest : ∀ value, Coupled similar (after value) (other value)) :
    Coupled similar (step >>= after) (step >>= other) where
  records := by rw [records_bind, records_bind, (rest step.value).records]
  value := (rest step.value).value

theorem ite {test : Prop} [Decidable test] {given : Logged α} {other : Logged β}
    (yes : test → Coupled alike first second) (no : ¬test → Coupled alike given other) :
    Coupled alike (if test then first else given) (if test then second else other) := by
  split
  · exact yes ‹_›
  · exact no ‹_›

end Coupled

end Logged

namespace Poll

variable {σ α β γ δ : Type}

/-- Steps with the same effects whatever is answered, and related ends. -/
inductive Coupled (alike : α → β → Prop) : Poll α → Poll β → Prop where
  | done {value : α} {result : β} (same : alike value result) :
      Coupled alike (.done value) (.done result)
  | ask {effect : Effect} {answered : effect.Answer → Poll α} {other : effect.Answer → Poll β}
      (rest : ∀ answer, Coupled alike (answered answer) (other answer)) :
      Coupled alike (.ask effect answered) (.ask effect other)

namespace Coupled

variable {alike : α → β → Prop} {similar : γ → δ → Prop} {first : Poll α} {second : Poll β}

theorem refl (step : Poll α) : Coupled Eq step step := by
  induction step with
  | done value => exact .done rfl
  | ask effect answered ih => exact .ask ih

theorem bind {next : α → Poll γ} {further : β → Poll δ} (coupled : Coupled alike first second)
    (rest : ∀ {value result}, alike value result → Coupled similar (next value) (further result)) :
    Coupled similar (first >>= next) (second >>= further) := by
  induction coupled with
  | done same => exact rest same
  | ask _ ih => exact .ask ih

theorem map {change : α → γ} {rename : β → δ} (coupled : Coupled alike first second)
    (ends : ∀ {value result}, alike value result → similar (change value) (rename result)) :
    Coupled similar (change <$> first) (rename <$> second) := by
  rw [map_eq_pure_bind, map_eq_pure_bind]
  exact coupled.bind fun same => .done (ends same)

/-- What comes first is the same for both. -/
theorem next {step : Poll α} {after : α → Poll γ} {other : α → Poll δ}
    (rest : ∀ value, Coupled similar (after value) (other value)) :
    Coupled similar (step >>= after) (step >>= other) :=
  (refl step).bind fun same => same ▸ rest _

theorem lift {given : Logged α} {other : Logged β} (coupled : given.Coupled alike other) :
    Coupled alike (liftM given : Poll α) (liftM other : Poll β) := by
  change Coupled alike (recordAll given.records >>= fun _ => pure given.value)
    (recordAll other.records >>= fun _ => pure other.value)
  rw [coupled.records]
  exact next fun _ => .done coupled.value

theorem ite {test : Prop} [Decidable test] {given : Poll α} {other : Poll β}
    (yes : test → Coupled alike first second) (no : ¬test → Coupled alike given other) :
    Coupled alike (if test then first else given) (if test then second else other) := by
  split
  · exact yes ‹_›
  · exact no ‹_›

/-- Coupled steps leave a controller in the same state after the same exchanges. -/
theorem run (coupled : Coupled alike first second) (chip : Chip σ) (state : σ) :
    alike (first.run chip state).value (second.run chip state).value ∧
      (first.run chip state).state = (second.run chip state).state ∧
      first.exchanges chip state = second.exchanges chip state := by
  induction coupled generalizing state with
  | done same => exact ⟨same, rfl, rfl⟩
  | @ask effect answered other _ ih =>
    cases effect with
    | call call =>
      obtain ⟨value, after, exchanges⟩ := ih (chip.answer call state).1 (chip.answer call state).2
      exact ⟨value, after, congrArg (List.cons _) exchanges⟩
    | record record =>
      obtain ⟨value, after, exchanges⟩ := ih () state
      exact ⟨value, after, congrArg (List.cons _) exchanges⟩
    | notify notice =>
      obtain ⟨value, after, exchanges⟩ := ih () state
      exact ⟨value, after, congrArg (List.cons _) exchanges⟩

end Coupled

end Poll

end BoardNet
