import BoardNet.Clock
import BoardNet.Proofs.Path

namespace BoardNet

theorem elapsed_shift (now since span : Millis) :
    elapsed (now + span) (since + span) = elapsed now since := by
  unfold elapsed
  grind

/-- What began just now has not lasted too long. -/
theorem elapsed_self_le (now limit : Millis) : elapsed now now ≤ limit := by
  unfold elapsed
  rw [UInt32.sub_self]
  exact UInt32.zero_le

/-- The counter at a time that does not return to zero. -/
def clock (time : Nat) : Millis := UInt32.ofNat time

/-- Whatever the counter shows, it shows again at some time that is late enough. -/
theorem exists_clock (now : Millis) (least : Nat) : ∃ time, clock time = now ∧ least ≤ time := by
  refine ⟨now.toNat + least * UInt32.size, ?_, ?_⟩
  · rw [clock, ← UInt32.toNat_inj, UInt32.toNat_ofNat', Nat.add_mul_mod_self_right]
    exact Nat.mod_eq_of_lt now.toNat_lt
  · exact Nat.le_add_left_of_le (Nat.le_mul_of_pos_right least (by decide))

/-- By the counter a span is what is left of it after full turns. -/
theorem elapsed_clock {now since : Nat} (order : since ≤ now) :
    (elapsed (clock now) (clock since)).toNat = (now - since) % UInt32.size := by
  have turned : clock now = clock (now - since) + clock since := by
    unfold clock
    rw [← UInt32.ofNat_add, Nat.sub_add_cancel order]
  rw [elapsed, turned, UInt32.add_sub_cancel]
  exact UInt32.toNat_ofNat'

/-- What lasts too long by the counter has lasted too long. -/
theorem lt_of_lt_elapsed_clock {now since : Nat} {limit : Millis} (order : since ≤ now)
    (late : limit < elapsed (clock now) (clock since)) : since + limit.toNat < now := by
  have late := UInt32.lt_iff_toNat_lt.mp late
  rw [elapsed_clock order] at late
  have turned := Nat.mod_le (now - since) UInt32.size
  omega

/-- What has lasted long enough by the counter has lasted long enough. -/
theorem le_of_le_elapsed_clock {now since : Nat} {limit : Millis} (order : since ≤ now)
    (due : limit ≤ elapsed (clock now) (clock since)) : since + limit.toNat ≤ now := by
  have due := UInt32.le_iff_toNat_le.mp due
  rw [elapsed_clock order] at due
  have turned := Nat.mod_le (now - since) UInt32.size
  omega

namespace Stopwatch

theorem elapsed_le_of_unexpired {watch : Stopwatch} {now limit : Millis}
    (early : ¬watch.expired now limit = true) : watch.elapsed now ≤ limit :=
  UInt32.not_lt.mp fun late => early (decide_eq_true late)

/-- The stopwatch by a clock that is ahead by `span`. -/
def shift (span : Millis) (watch : Stopwatch) : Stopwatch := ⟨watch.started + span⟩

variable (watch : Stopwatch) (span now limit : Millis)

@[simp] theorem elapsed_shift : (watch.shift span).elapsed (now + span) = watch.elapsed now :=
  BoardNet.elapsed_shift now watch.started span

@[simp] theorem expired_shift :
    (watch.shift span).expired (now + span) limit = watch.expired now limit := by
  rw [expired, expired, elapsed_shift]

end Stopwatch

section Apart

variable {m : Type → Type} [Monad m] {α β γ δ : Type} {change : α → γ} {other : β → δ}

/-- Alternatives are apart if the choice between them is the same. -/
theorem ite_apart {test was : Prop} [Decidable test] [Decidable was] {yes no : m γ}
    {given refused : m α} (same : test ↔ was) (holds : yes = change <$> given)
    (fails : no = change <$> refused) :
    (if test then yes else no) = change <$> if was then given else refused := by
  by_cases holding : was
  · rw [if_pos (same.mpr holding), if_pos holding, holds]
  · rw [if_neg (holding ∘ same.mp), if_neg holding, fails]

variable [LawfulMonad m]

/-- Sequences end apart by a change if their parts do. -/
theorem bind_apart {ahead : m γ} {first : m α} {after : γ → m δ} {next : α → m β}
    (before : ahead = change <$> first)
    (rest : ∀ value, after (change value) = other <$> next value) :
    (ahead >>= after) = other <$> (first >>= next) := by
  rw [before, map_bind, bind_map_left]
  exact bind_congr rest

/-- Sequences that begin alike end apart by a change if their second parts do. -/
theorem next_apart {first : m α} {after : α → m δ} {next : α → m β}
    (rest : ∀ value, after value = other <$> next value) :
    (first >>= after) = other <$> (first >>= next) := by
  rw [map_bind]
  exact bind_congr rest

theorem lift_apart {ahead : Logged γ} {given : Logged α} (same : ahead = change <$> given) :
    (liftM ahead : Poll γ) = change <$> (liftM given : Poll α) := by
  rw [same, Poll.liftM_map]

end Apart

namespace Poll

variable {σ α β : Type}

/-- A change of what a step ends with changes nothing that it does. -/
theorem run_map (chip : Chip σ) (change : α → β) (step : Poll α) (state : σ) :
    (change <$> step).run chip state =
      let ran := step.run chip state
      ⟨change ran.value, ran.state, ran.output⟩ := by
  rw [map_eq_pure_bind, run_bind]
  simp only [run, pure_eq_done, List.append_nil]

theorem exchanges_map (chip : Chip σ) (change : α → β) (step : Poll α) (state : σ) :
    (change <$> step).exchanges chip state = step.exchanges chip state := by
  rw [map_eq_pure_bind]
  induction step generalizing state with
  | done value => rfl
  | ask effect next ih =>
    cases effect with
    | call call => exact congrArg (List.cons _) (ih _ _)
    | record record => exact congrArg (List.cons _) (ih () state)
    | notify notice => exact congrArg (List.cons _) (ih () state)

end Poll

end BoardNet
